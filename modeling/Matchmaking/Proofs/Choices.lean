import Matchmaking.Proofs.Proposals

/-!
# What a selector can choose

A selector may answer anything: groups that were never proposed, groups of which entries are missing
or changed, the same group twice. Of each choice only the set of its tickets is read. It names at
most one of the proposals, which is formed as it was proposed, unless one of its tickets or sessions
is in a group that was chosen before. Main statement: `formChosen_eq`.
-/

namespace Matchmaking

theorem Names.mem_keys_ofList {l : List String} {k : String} :
    k ∈ (Names.ofList l).keys ↔ k ∈ l := by
  rw [← Table.contains_iff_mem_keys, Names.ofList, Names.contains_foldl_add]
  simp

namespace Proposal

variable {p q : Proposal}

theorem mem_ticketKey {id : String} : id ∈ p.ticketKey ↔ ∃ e ∈ p.entries, e.ticketId = id := by
  rw [ticketKey, Names.mem_keys_ofList, List.mem_map]

theorem nodup_ticketKey (p : Proposal) : p.ticketKey.Nodup := Table.nodup_keys _

theorem pairwise_ticketKey (p : Proposal) : p.ticketKey.Pairwise (· ≤ ·) :=
  List.pairwise_map.2 ((Names.ofList (p.entries.map Entry.ticketId)).sorted.imp fun h =>
    String.not_lt.1 (String.lt_asymm h))

/-- The sessions of the entries. -/
def sessions (p : Proposal) : List String := p.entries.map fun e => e.presence.session

/-- Whether two proposals have no ticket and no session in common. -/
def apart (p q : Proposal) : Bool :=
  (p.ticketKey.all fun id => !q.ticketKey.contains id) &&
    p.sessions.all fun x => !q.sessions.contains x

theorem apart_iff : p.apart q = true ↔
    (∀ id ∈ p.ticketKey, id ∉ q.ticketKey) ∧ ∀ x ∈ p.sessions, x ∉ q.sessions := by
  simp [apart]

end Proposal

namespace Exhaustive

open Round (Acts UnderWay)

/-- How choices are read, one after the other: a choice is honoured if its tickets are those of a
proposal that is apart from all that were honoured before, and it stands for this proposal. -/
def honoured (offered : List Proposal) : List Proposal → List Proposal → List Proposal
  | _, [] => []
  | taken, choice :: rest =>
    match offered.find? fun p => p.ticketKey == choice.ticketKey && taken.all p.apart with
    | some p => p :: honoured offered (p :: taken) rest
    | none => honoured offered taken rest

/-- Forms the groups of some members, one after the other. -/
def formAll : List (List Pooled) → Round → List Group × Round
  | [], r => ([], r)
  | members :: rest, r =>
    let (g, r) := r.form members
    let (gs, r) := formAll rest r
    (g :: gs, r)

theorem entries_formAll (lists : List (List Pooled)) (r : Round) :
    (formAll lists r).1.map Group.entries =
      lists.map fun members => members.flatMap fun m => m.ticket.entries := by
  induction lists generalizing r with
  | nil => rfl
  | cons members rest ih =>
    rw [formAll, List.map_cons, List.map_cons, ih]
    exact congrArg (· :: _) (List.flatMap_map Pooled.ticket Ticket.entries members)

/-! ## Reading an offer -/

theorem mem_ticketKey_offer {c : Combination} (hentries : ∀ m ∈ c.2, m.ticket.presences ≠ [])
    {id : String} : id ∈ (offer c).ticketKey ↔ ∃ m ∈ c.2, m.id = id := by
  rw [Proposal.mem_ticketKey]
  simp only [offer, List.mem_flatMap]
  constructor
  · rintro ⟨e, ⟨m, hm, he⟩, rfl⟩
    exact ⟨m, hm, (Ticket.ticketId_of_mem_entries he).symm⟩
  · rintro ⟨m, hm, rfl⟩
    -- a ticket is seen in an offer because it has a presence
    obtain ⟨x, hx⟩ := List.exists_mem_of_ne_nil _ (hentries m hm)
    exact ⟨_, ⟨m, hm, List.mem_map_of_mem hx⟩, rfl⟩

theorem mem_sessions_offer {c : Combination} {x : String} :
    x ∈ (offer c).sessions ↔ ∃ m ∈ c.2, x ∈ m.ticket.sessions := by
  simp only [Proposal.sessions, offer, Ticket.sessions, Ticket.entries, List.map_flatMap,
    List.map_map, List.mem_flatMap]
  rfl

/-- The tickets of an offer are the names under which its combination is kept. -/
theorem ticketKey_offer {c : Combination} (htickets : (c.2.map Pooled.id).Nodup)
    (hentries : ∀ m ∈ c.2, m.ticket.presences ≠ []) : (offer c).ticketKey = keyOf c.2 := by
  have hperm : (keyOf c.2).Perm (c.2.map Pooled.id) := List.mergeSort_perm _ _
  have hsame : (offer c).ticketKey.Perm (keyOf c.2) := by
    refine (List.perm_ext_iff_of_nodup (Proposal.nodup_ticketKey _)
      (hperm.nodup_iff.2 htickets)).2 fun id => ?_
    rw [mem_ticketKey_offer hentries, hperm.mem_iff, List.mem_map]
  exact List.Perm.eq_of_pairwise (fun x y _ _ hxy hyx => String.le_antisymm hxy hyx)
    (Proposal.pairwise_ticketKey _) (pairwise_keyOf c.2) hsame

/-- Combinations are kept under the names of their tickets, no two of them under the same. -/
structure Found.Keyed (f : Found) : Prop where
  named : ∀ c ∈ f.latestFirst, c.1 = keyOf c.2
  keys : (f.latestFirst.map Prod.fst).Nodup

/-- What was found can be looked up by the tickets of an offer, since no ticket occurs twice in a
combination and every ticket has an entry. -/
structure Found.Legible (f : Found) : Prop extends f.Keyed where
  tickets : ∀ c ∈ f.latestFirst, (c.2.map Pooled.id).Nodup
  entries : ∀ c ∈ f.latestFirst, ∀ m ∈ c.2, m.ticket.presences ≠ []

namespace Found.Keyed

variable {f : Found}

theorem members?_eq_some_iff (h : f.Keyed) {key : List String} {members : List Pooled} :
    f.members? key = some members ↔ (key, members) ∈ f.latestFirst := by
  constructor
  · exact mem_of_members?
  · intro hmem
    obtain ⟨before, after, hsplit⟩ := List.append_of_mem hmem
    have hkeys := h.keys
    rw [hsplit, List.map_append, List.nodup_append] at hkeys
    rw [members?, f.getElem?_index, List.lookup_eq_some_iff]
    refine ⟨before, after, hsplit, fun e he => ?_⟩
    have hne := hkeys.2.2 e.1 (List.mem_map_of_mem he) key (by simp)
    exact bne_iff_ne.2 fun heq => hne heq.symm

theorem add (h : f.Keyed) (members : List Pooled) : (f.add members).Keyed := by
  unfold Found.add
  simp only
  split
  · exact h
  · rename_i hnew
    refine ⟨fun c hc => ?_, List.nodup_cons.2 ⟨fun hmem => hnew ?_, h.keys⟩⟩
    · rcases List.mem_cons.1 hc with rfl | hc
      · rfl
      · exact h.named c hc
    · obtain ⟨c, hc, hkey⟩ := List.mem_map.1 hmem
      have hknown : f.members? c.1 = some c.2 := h.members?_eq_some_iff.2 hc
      rw [show c.1 = keyOf members from hkey] at hknown
      rw [hknown]
      rfl

theorem foldl_add (h : f.Keyed) (added : List (List Pooled)) : (added.foldl Found.add f).Keyed := by
  induction added generalizing f with
  | nil => exact h
  | cons members rest ih => exact ih (h.add members)

theorem turns (h : f.Keyed) (order : List (Pooled × Bool)) (r : Round) :
    (turns order f r).1.Keyed := by
  induction order generalizing f r with
  | nil => exact h
  | cons o rest ih =>
    have hturn : (turn o.1 o.2 f r).1.Keyed := by
      rw [turn_fst]
      exact h.foldl_add _
    exact ih hturn (turn o.1 o.2 f r).2

end Found.Keyed

theorem keyed_propose (r : Round) : (propose r).1.Keyed := by
  have hnone : Found.none.Keyed := ⟨by simp [Found.none], by simp [Found.none]⟩
  exact hnone.turns r.order r

namespace Found

variable {f : Found} {key : List String}

theorem isSome_members?_add (f : Found) (members : List Pooled) (key : List String) :
    ((f.add members).members? key).isSome = true ↔
      key = keyOf members ∨ (f.members? key).isSome = true := by
  cases hmembers : f.members? (keyOf members) with
  | none =>
    rw [members?_add hmembers]
    by_cases hkey : key = keyOf members
    · simp [hkey]
    · simp [hkey]
  | some known =>
    rw [add_of_isSome (by rw [hmembers]; rfl)]
    constructor
    · exact Or.inr
    · rintro (rfl | hknown)
      · rw [hmembers]
        rfl
      · exact hknown

/-- After some combinations are added, exactly the sets of names of these and of what was found
before are known. -/
theorem isSome_members?_foldl_add {added : List (List Pooled)} :
    ((added.foldl add f).members? key).isSome = true ↔
      (∃ members ∈ added, key = keyOf members) ∨ (f.members? key).isSome = true := by
  induction added generalizing f with
  | nil => simp
  | cons members rest ih =>
    rw [List.foldl_cons, ih, isSome_members?_add]
    simp only [List.mem_cons, exists_eq_or_imp]
    constructor
    · rintro (hrest | hfirst | hknown)
      · exact Or.inl (Or.inr hrest)
      · exact Or.inl (Or.inl hfirst)
      · exact Or.inr hknown
    · rintro ((hfirst | hrest) | hknown)
      · exact Or.inr (Or.inl hfirst)
      · exact Or.inl hrest
      · exact Or.inr (Or.inr hknown)

/-- Something was found exactly if something is offered. -/
theorem isEmpty_eq_false_iff : f.isEmpty = false ↔ ∃ p, p ∈ f.offers := by
  rw [isEmpty, List.isEmpty_eq_false_iff_exists_mem]
  simp [offers, toList]

theorem isEmpty_of_isSome_members? (h : (f.members? key).isSome = true) : f.isEmpty = false := by
  rw [members?, f.getElem?_index] at h
  unfold isEmpty
  cases hlist : f.latestFirst with
  | nil =>
    rw [hlist] at h
    cases h
  | cons c rest => rfl

end Found

/-- The combination behind a proposal. -/
def Found.behind (f : Found) (p : Proposal) : List Pooled := (f.members? p.ticketKey).getD []

namespace Found.Legible

variable {f : Found} {c : Combination} {p q : Proposal}

theorem ticketKey_offer (h : f.Legible) (hc : c ∈ f.latestFirst) :
    (offer c).ticketKey = c.1 := by
  rw [h.named c hc]
  exact Exhaustive.ticketKey_offer (h.tickets c hc) (h.entries c hc)

theorem mem_offers : p ∈ f.offers ↔ ∃ c ∈ f.latestFirst, offer c = p := by
  rw [offers, toList, List.mem_map]
  simp only [List.mem_reverse]

theorem nodup_offers (h : f.Legible) : (f.offers.map Proposal.ticketKey).Nodup := by
  have hkeys : f.offers.map Proposal.ticketKey = (f.latestFirst.map Prod.fst).reverse := by
    rw [offers, toList, List.map_map, ← List.map_reverse]
    refine List.map_congr_left fun c hc => ?_
    exact h.ticketKey_offer (List.mem_reverse.1 hc)
  rw [hkeys]
  exact List.nodup_reverse.2 h.keys

theorem behind_offer (h : f.Legible) (hc : c ∈ f.latestFirst) : f.behind (offer c) = c.2 := by
  have hmembers : f.members? c.1 = some c.2 := h.toKeyed.members?_eq_some_iff.2 hc
  rw [behind, h.ticketKey_offer hc, hmembers, Option.getD_some]

theorem entries_behind (h : f.Legible) (hp : p ∈ f.offers) :
    ((f.behind p).flatMap fun m => m.ticket.entries) = p.entries := by
  obtain ⟨c, hc, rfl⟩ := mem_offers.1 hp
  rw [h.behind_offer hc]
  rfl

end Found.Legible

/-! ## Reading the choices -/

/-- What a pass has used up are the tickets and sessions of some proposals. -/
structure Uses (r : Round) (taken : List Proposal) : Prop where
  tickets : ∀ id, r.consumed.contains id = true ↔ ∃ p ∈ taken, id ∈ p.ticketKey
  sessions : ∀ x, r.consumedSessions.contains x = true ↔ ∃ p ∈ taken, x ∈ p.sessions

section Reading

variable {f : Found} {c : Combination} {p : Proposal} {r : Round} {taken offered : List Proposal}

theorem Uses.form (h : Uses r taken) (hf : f.Legible) (hc : c ∈ f.latestFirst) :
    Uses (r.form c.2).2 (offer c :: taken) where
  tickets := by
    intro id
    rw [Round.consumed_form, h.tickets, ← mem_ticketKey_offer (hf.entries c hc)]
    simp only [List.mem_cons, exists_eq_or_imp]
  sessions := by
    intro x
    rw [Round.consumedSessions_form, h.sessions, ← mem_sessions_offer]
    simp only [List.mem_cons, exists_eq_or_imp]

/-- All members of a combination are available exactly if its offer is apart from what was taken. -/
theorem Uses.all_isAvailable (h : Uses r taken) (hf : f.Legible) (hc : c ∈ f.latestFirst) :
    c.2.all r.isAvailable = taken.all (offer c).apart := by
  rw [Bool.eq_iff_iff, List.all_eq_true, List.all_eq_true]
  simp only [Round.isAvailable_iff, Proposal.apart_iff, mem_ticketKey_offer (hf.entries c hc),
    mem_sessions_offer, ← Bool.not_eq_true, h.tickets, h.sessions]
  constructor
  · intro hall q hq
    refine ⟨?_, ?_⟩
    · rintro id ⟨m, hm, rfl⟩ hid
      exact (hall m hm).1 ⟨q, hq, hid⟩
    · rintro x ⟨m, hm, hx⟩ hxq
      exact (hall m hm).2 x hx ⟨q, hq, hxq⟩
  · intro hall m hm
    refine ⟨?_, ?_⟩
    · rintro ⟨q, hq, hid⟩
      exact (hall q hq).1 m.id ⟨m, hm, rfl⟩ hid
    · rintro x hx ⟨q, hq, hxq⟩
      exact (hall q hq).2 x ⟨m, hm, hx⟩ hxq

/-- Of some proposals of different tickets, that of some given tickets is found, if it is apart from
what was taken. -/
theorem find?_eq_of_mem (hkeys : (offered.map Proposal.ticketKey).Nodup) (hp : p ∈ offered) :
    (offered.find? fun q => q.ticketKey == p.ticketKey && taken.all q.apart) =
      if taken.all p.apart then some p else none := by
  have honly : ∀ q ∈ offered, q.ticketKey = p.ticketKey → q = p := by
    intro q hq hkey
    exact List.inj_on_of_nodup_map hkeys hq hp hkey
  split
  · rename_i happart
    cases hfind : offered.find? fun q => q.ticketKey == p.ticketKey && taken.all q.apart with
    | none =>
      have hnone := List.find?_eq_none.1 hfind p hp
      simp [happart] at hnone
    | some q =>
      have hq := List.find?_some hfind
      rw [Bool.and_eq_true, beq_iff_eq] at hq
      rw [honly q (List.mem_of_find?_eq_some hfind) hq.1]
  · rename_i hnot
    refine List.find?_eq_none.2 fun q hq htrue => ?_
    rw [Bool.and_eq_true, beq_iff_eq] at htrue
    rw [honly q hq htrue.1] at htrue
    exact hnot htrue.2

/-- The chosen groups are those of the honoured proposals, one after the other. -/
theorem formChosen_eq (hf : f.Legible) (choices : List Proposal) (h : Uses r taken) :
    formChosen f choices r = formAll ((honoured f.offers taken choices).map f.behind) r := by
  induction choices generalizing r taken with
  | nil => rfl
  | cons choice rest ih =>
    unfold formChosen honoured
    cases hmembers : f.members? choice.ticketKey with
    | none =>
      have hfind : (f.offers.find? fun p =>
          p.ticketKey == choice.ticketKey && taken.all p.apart) = none := by
        refine List.find?_eq_none.2 fun p hp htrue => ?_
        obtain ⟨c, hc, rfl⟩ := Found.Legible.mem_offers.1 hp
        rw [Bool.and_eq_true, beq_iff_eq, hf.ticketKey_offer hc] at htrue
        have hknown : f.members? c.1 = some c.2 := hf.toKeyed.members?_eq_some_iff.2 hc
        rw [htrue.1, hmembers] at hknown
        cases hknown
      rw [hfind]
      exact ih h
    | some members =>
      have hc := hf.toKeyed.members?_eq_some_iff.1 hmembers
      have hoffered : offer (choice.ticketKey, members) ∈ f.offers :=
        Found.Legible.mem_offers.2 ⟨_, hc, rfl⟩
      have hfind := @find?_eq_of_mem _ taken _ hf.nodup_offers hoffered
      rw [hf.ticketKey_offer hc, ← h.all_isAvailable hf hc] at hfind
      rw [hfind]
      simp only
      split
      · simp only [List.map_cons, formAll, hf.behind_offer hc]
        rw [ih (h.form hf hc)]
      · exact ih h

theorem mem_of_mem_honoured {choices : List Proposal} (h : p ∈ honoured offered taken choices) :
    p ∈ offered := by
  induction choices generalizing taken with
  | nil => cases h
  | cons choice rest ih =>
    rw [honoured] at h
    split at h
    · rename_i q hfind
      rcases List.mem_cons.1 h with rfl | h
      · exact List.mem_of_find?_eq_some hfind
      · exact ih h
    · exact ih h

/-- To choose what is honoured is to choose the same. -/
theorem honoured_honoured (hkeys : (offered.map Proposal.ticketKey).Nodup)
    (choices taken : List Proposal) :
    honoured offered taken (honoured offered taken choices) = honoured offered taken choices := by
  induction choices generalizing taken with
  | nil => rfl
  | cons choice rest ih =>
    rw [honoured]
    split
    · rename_i p hfind
      have htrue := List.find?_some hfind
      rw [Bool.and_eq_true] at htrue
      rw [honoured, find?_eq_of_mem hkeys (List.mem_of_find?_eq_some hfind), if_pos htrue.2]
      simp only
      rw [ih]
    · exact ih taken

/-- Forms the groups of the honoured choices. -/
def formHonoured (f : Found) (choices : List Proposal) (r : Round) : List Group × Round :=
  formAll ((honoured f.offers [] choices).map f.behind) r

theorem entries_formHonoured (hf : f.Legible) (choices : List Proposal) (r : Round) :
    (formHonoured f choices r).1.map Group.entries =
      (honoured f.offers [] choices).map Proposal.entries := by
  rw [formHonoured, entries_formAll, List.map_map]
  refine List.map_congr_left fun p hp => ?_
  exact hf.entries_behind (mem_of_mem_honoured hp)

theorem formHonoured_congr {choices choices' : List Proposal}
    (h : honoured f.offers [] choices' = honoured f.offers [] choices) (r : Round) :
    formHonoured f choices' r = formHonoured f choices r := by
  rw [formHonoured, formHonoured, h]

end Reading

/-! ## Where the proposals come from -/

/-- Some members are proposed at the turn of an outer ticket. -/
def Proposed (r : Round) (members : List Pooled) : Prop :=
  ∃ o ∈ r.order, ∃ r₁, Acts r r₁ ∧ members ∈ proposals r₁ o

theorem proposed_turns {order : List (Pooled × Bool)} {known : Found} {r r₀ : Round}
    (hr : UnderWay r) (hbefore : Acts r₀ r) (horder : ∀ o ∈ order, r.Sees o.1 ∧ o ∈ r₀.order)
    (hknown : ∀ c ∈ known.latestFirst, Proposed r₀ c.2) :
    ∀ c ∈ (turns order known r).1.latestFirst, Proposed r₀ c.2 := by
  induction order generalizing known r with
  | nil => exact hknown
  | cons o rest ih =>
    obtain ⟨outer, active⟩ := o
    obtain ⟨hsees, hmem⟩ := horder _ List.mem_cons_self
    have hturn : Acts r (turn outer active known r).2 :=
      (Round.acts_beginInterval r outer active).trans (asks_turn hr hsees active known).acts
    have hadded : ∀ c ∈ (turn outer active known r).1.latestFirst, Proposed r₀ c.2 := by
      rw [turn_fst]
      refine Found.forall_foldl_add hknown fun members hmembers => ?_
      exact ⟨(outer, active), hmem, r, hbefore, hmembers⟩
    refine ih (hr.acts hturn) (hbefore.trans hturn) (fun o ho => ?_) hadded
    obtain ⟨hsees', hmem'⟩ := horder o (List.mem_cons_of_mem _ ho)
    exact ⟨hturn.sees.2 hsees', hmem'⟩

theorem proposed_propose {r : Round} (hr : UnderWay r) :
    ∀ c ∈ (propose r).1.latestFirst, Proposed r c.2 := by
  refine proposed_turns hr .refl (fun o ho => ⟨Round.sees_of_mem_order hr.clear o ho, ho⟩) ?_
  simp [Found.none]

/-- What was found is what the outer tickets propose. -/
theorem isSome_members?_propose {insists : Bool} {r : Round} (hr : UnderWay r)
    (hgate : ∀ i, r.precision.isOpen i = insists)
    {key : List String} : ((propose r).1.members? key).isSome = true ↔
      ∃ o ∈ r.order, ∃ members ∈ proposals r o, key = keyOf members := by
  have hfound : (propose r).1 = (r.order.flatMap (proposals r)).foldl Found.add .none :=
    turns_fst hr hr hgate (.refl r) (Round.sees_of_mem_order hr.clear)
      (Round.nodup_order hr.clear) fun _ _ => rfl
  have hnone : (Found.none.members? key).isSome = false := by
    simp [Found.members?, Found.none]
  rw [hfound, Found.isSome_members?_foldl_add, hnone]
  simp only [List.mem_flatMap, Bool.false_eq_true, or_false]
  constructor
  · rintro ⟨members, ⟨o, ho, hmembers⟩, hkey⟩
    exact ⟨o, ho, members, hmembers, hkey⟩
  · rintro ⟨o, ho, members, hmembers, hkey⟩
    exact ⟨members, ⟨o, ho, hmembers⟩, hkey⟩

theorem legible_propose {r : Round} (hr : Mirrors r.shelf.cards r.tickets.tickets)
    (hentries : ∀ id p, r.tickets.tickets.get? id = some p → p.ticket.presences ≠ []) :
    (propose r).1.Legible where
  toKeyed := keyed_propose r
  tickets := fun c hc => (allFit_propose hr c hc).distinct
  entries := fun c hc m hm => hentries m.id m ((allFit_propose hr c hc).waiting m hm)

end Exhaustive

open Exhaustive

/-- A proposal of a pass consists of an outer ticket and of others, all of them registered and
distinct. It was made at the turn of the outer ticket, and its entries are all of theirs, those of
the outer ticket first. -/
structure Proposal.Of (p : Proposal) (roster : Roster) (r : Round) (outer : Pooled)
    (others : List Pooled) : Prop where
  entries : p.entries = (outer :: others).flatMap fun m => m.ticket.entries
  registered : ∀ m ∈ outer :: others, roster.get? m.id = some m
  distinct : ((outer :: others).map Pooled.id).Nodup
  proposed : ∃ active r₁, (outer, active) ∈ r.order ∧ Round.Acts r r₁ ∧
    outer :: others ∈ proposals r₁ (outer, active)

end Matchmaking
