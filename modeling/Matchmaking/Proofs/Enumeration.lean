import Mathlib.Data.List.Nodup
import Matchmaking.Proofs.Answers
import Matchmaking.Proofs.Combinations

/-!
# What is enumerated

While a pass reads the same all the time, the table of an outer ticket says of any two candidates
whether they can be together, and its picks are all selections of candidates that can, each of them
once. So exactly those combinations are enumerated that `Combines` asks for: candidates that do not
clash and agree with one another, whose number everybody accepts.
-/

namespace Matchmaking.Exhaustive

open Greedy (entryCount)
open Round (Asks Reads UnderWay)

variable {insists last : Bool} {room : Nat} {r : Round} {outer : Pooled} {cs : List Pooled}

/-! ## The table -/

/-- Whether two candidates can be together. -/
def together (insists : Bool) (s : Shelf) (a b : Pooled) : Bool :=
  !conflict a b && agree insists s a b

/-- The table of some candidates, given which of them can be together. -/
def chart (ok : Pooled → Pooled → Bool) : List Pooled → List (Pooled × List Bool)
  | [] => []
  | a :: rest => (a, rest.map (ok a)) :: chart ok rest

theorem asks_row {a : Pooled} {others : List Pooled} (ha : r.Sees a) (ho : ∀ b ∈ others, r.Sees b) :
    Asks r (row a others r).2 := by
  induction others generalizing r with
  | nil => exact .refl
  | cons b rest ih =>
    have hrest : ∀ c ∈ rest, r.Sees c := fun c hc => ho c (List.mem_cons_of_mem b hc)
    unfold row
    simp only
    split
    · exact ih ha hrest
    · have hask := Round.asks_compatible ha (ho b List.mem_cons_self)
      exact hask.trans (ih (hask.acts.sees.2 ha) fun c hc => hask.acts.sees.2 (hrest c hc))

theorem row_eq {a : Pooled} {others : List Pooled} (hr : r.Recalls) (ha : r.Sees a)
    (ho : ∀ b ∈ others, r.Sees b) (hreads : Reads insists r (row a others r).2) :
    (row a others r).1 = others.map (together insists r.shelf a) := by
  induction others generalizing r with
  | nil => rfl
  | cons b rest ih =>
    have hb := ho b List.mem_cons_self
    have hrest : ∀ c ∈ rest, r.Sees c := fun c hc => ho c (List.mem_cons_of_mem b hc)
    unfold row at hreads ⊢
    simp only at hreads ⊢
    rw [List.map_cons]
    cases hconflict : conflict a b with
    | true =>
      rw [hconflict] at hreads
      simp only [if_true] at hreads ⊢
      rw [ih hr ha hrest hreads, together, hconflict]
      rfl
    | false =>
      have hask := Round.asks_compatible ha hb
      have hnext := asks_row (hask.acts.sees.2 ha) fun c hc => hask.acts.sees.2 (hrest c hc)
      rw [hconflict] at hreads
      simp only [Bool.false_eq_true, if_false] at hreads ⊢
      rw [Round.compatible_eq hr ha hb (hreads.left hnext.acts.later),
        ih (hask.acts.recalls hr) (hask.acts.sees.2 ha)
          (fun c hc => hask.acts.sees.2 (hrest c hc)) (hreads.right hask.acts.later),
        hask.acts.later.shelf, together, hconflict]
      rfl

theorem asks_rows (hcs : ∀ c ∈ cs, r.Sees c) : Asks r (rows cs r).2 := by
  induction cs generalizing r with
  | nil => exact .refl
  | cons a rest ih =>
    have hrest : ∀ c ∈ rest, r.Sees c := fun c hc => hcs c (List.mem_cons_of_mem a hc)
    have hrow := asks_row (hcs a List.mem_cons_self) hrest
    exact hrow.trans (ih fun c hc => hrow.acts.sees.2 (hrest c hc))

/-- The table says which candidates can be together. -/
theorem rows_eq (hr : r.Recalls) (hcs : ∀ c ∈ cs, r.Sees c)
    (hreads : Reads insists r (rows cs r).2) :
    (rows cs r).1 = chart (together insists r.shelf) cs := by
  induction cs generalizing r with
  | nil => rfl
  | cons a rest ih =>
    have ha := hcs a List.mem_cons_self
    have hrest : ∀ c ∈ rest, r.Sees c := fun c hc => hcs c (List.mem_cons_of_mem a hc)
    have hrow := asks_row ha hrest
    have hrest₁ : ∀ c ∈ rest, (row a rest r).2.Sees c := fun c hc => hrow.acts.sees.2 (hrest c hc)
    have hnext := asks_rows hrest₁
    unfold rows at hreads ⊢
    simp only at hreads ⊢
    rw [row_eq hr ha hrest (hreads.left hnext.acts.later),
      ih (hrow.acts.recalls hr) hrest₁ (hreads.right hrow.acts.later), hrow.acts.later.shelf]
    rfl

/-! ## Picks -/

section Picks

variable {ok : Pooled → Pooled → Bool} {p q : Pick}

theorem Picked.allows_map (h : Picked cs p) (a : Pooled) :
    allows (cs.map (ok a)) p.chosen = p.members.all (ok a) := by
  induction h with
  | none => rfl
  | @skip c cs p h ih => rw [List.map_cons, Pick.skip, allows, ih, Bool.not_false, Bool.or_true,
      Bool.true_and]
  | @take c cs p h ih => rw [List.map_cons, Pick.take, allows, ih, List.all_cons, Bool.not_true,
      Bool.or_false]

/-- Every selection of candidates is picked somehow. -/
theorem exists_picked {others : List Pooled} (h : others.Sublist cs) :
    ∃ p, Picked cs p ∧ p.members = others := by
  induction h with
  | slnil => exact ⟨.none, .none, rfl⟩
  | @cons l₁ l₂ c h ih =>
    obtain ⟨p, hp, hmembers⟩ := ih
    exact ⟨p.skip, hp.skip, hmembers⟩
  | @cons_cons l₁ l₂ c h ih =>
    obtain ⟨p, hp, hmembers⟩ := ih
    exact ⟨p.take c, hp.take, by rw [Pick.take, hmembers]⟩

/-- If no candidate occurs twice, there is only one way to pick a selection. -/
theorem Picked.eq_of_members (hp : Picked cs p) (hq : Picked cs q) (hcs : cs.Nodup)
    (h : p.members = q.members) : p = q := by
  induction hp generalizing q with
  | none => cases hq; rfl
  | @skip c cs p hp ih =>
    obtain ⟨hc, hrest⟩ := List.nodup_cons.1 hcs
    cases hq with
    | skip hq => rw [ih hq hrest h]
    | take hq =>
      -- the other pick has a member that is no candidate any more
      have hmem : c ∈ p.members := by
        have hp' : p.members = p.skip.members := rfl
        rw [hp', h]
        exact List.mem_cons_self
      exact absurd (hp.sublist.subset hmem) hc
  | @take c cs p hp ih =>
    obtain ⟨hc, hrest⟩ := List.nodup_cons.1 hcs
    cases hq with
    | @skip _ _ q hq =>
      have hmem : c ∈ q.members := by
        have hq' : q.members = q.skip.members := rfl
        rw [hq', ← h]
        exact List.mem_cons_self
      exact absurd (hq.sublist.subset hmem) hc
    | take hq => rw [ih hq hrest (List.cons.inj h).2]

/-- The picks of a table are the selections of candidates that can be together and have room. -/
theorem mem_picks_iff : p ∈ picks room (chart ok cs) ↔
    Picked cs p ∧ (p.members.Pairwise fun a b => ok a b = true) ∧
      entryCount p.members ≤ room := by
  induction cs generalizing p with
  | nil =>
    rw [chart, picks, List.mem_singleton]
    constructor
    · rintro rfl
      exact ⟨.none, .nil, Nat.zero_le room⟩
    · rintro ⟨hp, -, -⟩
      cases hp
      rfl
  | cons c rest ih =>
    rw [chart, picks, List.mem_flatMap]
    constructor
    · rintro ⟨q, hq, hp⟩
      obtain ⟨hpicked, hpairwise, hroom⟩ := ih.1 hq
      split at hp
      · rename_i hcond
        simp only [hpicked.allows_map, Bool.and_eq_true, List.all_eq_true, decide_eq_true_eq]
          at hcond
        rcases List.mem_cons.1 hp with rfl | hp
        · exact ⟨hpicked.skip, hpairwise, hroom⟩
        · rw [List.mem_singleton.1 hp]
          refine ⟨hpicked.take, List.pairwise_cons.2 ⟨hcond.1, hpairwise⟩, ?_⟩
          rw [Pick.take, Greedy.entryCount_cons, ← hpicked.count]
          exact hcond.2
      · rw [List.mem_singleton.1 hp]
        exact ⟨hpicked.skip, hpairwise, hroom⟩
    · rintro ⟨hp, hpairwise, hroom⟩
      cases hp with
      | @skip _ _ q hq =>
        refine ⟨q, ih.2 ⟨hq, hpairwise, hroom⟩, ?_⟩
        split <;> simp
      | @take _ _ q hq =>
        rw [Pick.take, Greedy.entryCount_cons] at hroom
        obtain ⟨hfirst, hpairwise⟩ := List.pairwise_cons.1 hpairwise
        have hcond : (allows (rest.map (ok c)) q.chosen &&
            decide (c.ticket.count + q.count ≤ room)) = true := by
          rw [hq.allows_map, hq.count, Bool.and_eq_true, decide_eq_true_eq]
          exact ⟨List.all_eq_true.2 hfirst, hroom⟩
        refine ⟨q, ih.2 ⟨hq, hpairwise, by omega⟩, ?_⟩
        rw [if_pos hcond]
        simp

theorem nodup_picks (room : Nat) (table : List (Pooled × List Bool)) :
    (picks room table).Nodup := by
  induction table with
  | nil => exact List.nodup_singleton _
  | cons e rest ih =>
    obtain ⟨c, oks⟩ := e
    have hne : ∀ p q : Pick, p.skip ≠ q.take c := by
      intro p q h
      have hchosen := congrArg Pick.chosen h
      simp [Pick.skip, Pick.take] at hchosen
    have hskip : ∀ p q : Pick, p.skip = q.skip → p = q := by
      intro p q h
      have hcount := congrArg Pick.count h
      have hmembers := congrArg Pick.members h
      have hchosen := (List.cons.inj (congrArg Pick.chosen h)).2
      cases p
      cases q
      simp_all [Pick.skip]
    have htake : ∀ p q : Pick, p.take c = q.take c → p = q := by
      intro p q h
      have hcount := congrArg Pick.count h
      have hmembers := (List.cons.inj (congrArg Pick.members h)).2
      have hchosen := (List.cons.inj (congrArg Pick.chosen h)).2
      cases p
      cases q
      simp_all [Pick.take]
    rw [picks, List.nodup_flatMap]
    refine ⟨fun p _ => ?_, ih.imp fun {p q} hpq => ?_⟩
    · split
      · simpa using hne p p
      · exact List.nodup_singleton _
    · -- what comes of different picks differs
      intro x hxp hxq
      have hp : x = p.skip ∨ x = p.take c := by
        simp only at hxp
        split at hxp
        · simpa using hxp
        · exact Or.inl (by simpa using hxp)
      have hq : x = q.skip ∨ x = q.take c := by
        simp only at hxq
        split at hxq
        · simpa using hxq
        · exact Or.inl (by simpa using hxq)
      rcases hp with rfl | rfl
      · rcases hq with hq | hq
        · exact hpq (hskip p q hq)
        · exact hne p q hq
      · rcases hq with hq | hq
        · exact hne q p hq.symm
        · exact hpq (htake p q hq)

end Picks

/-! ## Combinations -/

/-- An outer ticket can form a group with some of its candidates: no two of them share a session or
belong to the same party, if the pass insists they suit each other, everybody accepts the number of
entries, and before the last interval of the outer ticket it is the greatest possible one. -/
structure Combines (insists last : Bool) (s : Shelf) (outer : Pooled)
    (candidates others : List Pooled) : Prop where
  ne : others ≠ []
  sublist : others.Sublist candidates
  sessions : others.Pairwise fun a b => a.ticket.sharesSession b.ticket = false
  parties : others.Pairwise fun a b => a.ticket.partyConflict b.ticket = false
  suited : insists = true → others.Pairwise fun a b => suitEachOther s a b = true
  accepted : ∀ m ∈ outer :: others, m.ticket.acceptsSize (entryCount (outer :: others)) = true
  full : last = false → entryCount (outer :: others) = outer.ticket.maxCount

/-- No more candidates are combined than the settings say. -/
theorem asks_enumerate (hcs : ∀ c ∈ cs, r.Sees c) (hcap : cs.length ≤ r.config.maxCustomCandidates)
    (outer : Pooled) (last : Bool) : Asks r (enumerate outer cs last r).2 := by
  have hrows : Asks r (rows cs r).2 := asks_rows hcs
  unfold enumerate
  simp only
  split
  · exact hrows
  · rename_i hmany
    refine hrows.tail (.breakDown (Or.inr ?_) tooManyNotice)
    rw [hrows.deliberates.config]
    exact Nat.le_trans (Nat.le_of_not_lt hmany) hcap

theorem asked_enumerate (outer : Pooled) (cs : List Pooled) (last : Bool) (r : Round) :
    (enumerate outer cs last r).2.asked = (rows cs r).2.asked := by
  unfold enumerate
  simp only
  split <;> rfl

theorem later_enumerate (hcs : ∀ c ∈ cs, r.Sees c) (outer : Pooled) (last : Bool) :
    Round.Later r (enumerate outer cs last r).2 := by
  have hrows : Round.Later r (rows cs r).2 := (asks_rows hcs).acts.later
  unfold enumerate
  simp only
  split
  · exact hrows
  · exact ⟨hrows.shelf, hrows.tickets, hrows.config, hrows.precision, hrows.asked⟩

/-- What is enumerated, said without the state of the pass. -/
theorem enumerate_eq (hr : r.Recalls) (hcs : ∀ c ∈ cs, r.Sees c)
    (hreads : Reads insists r (enumerate outer cs last r).2) :
    (enumerate outer cs last r).1 =
      ((picks (outer.ticket.maxCount - outer.ticket.count)
        (chart (together insists r.shelf) cs)).filter fun p =>
          fits outer last p.members p.count).map fun p => outer :: p.members := by
  have hrows : Reads insists r (rows cs r).2 := by
    intro i hi hlt
    rw [← asked_enumerate outer cs last r] at hlt
    exact hreads i hi hlt
  unfold enumerate
  simp only [rows_eq hr hcs hrows]

theorem together_iff {s : Shelf} {a b : Pooled} : together insists s a b = true ↔
    a.ticket.sharesSession b.ticket = false ∧ a.ticket.partyConflict b.ticket = false ∧
      a.ticket.countsCompatible b.ticket = true ∧ agree insists s a b = true := by
  simp [together, conflict, and_assoc]

/-- Those who accept the same size have bounds that leave one, so that comparing the bounds of the
candidates beforehand excludes nothing. -/
theorem Combines.together {s : Shelf} {others : List Pooled}
    (h : Combines insists last s outer cs others) :
    others.Pairwise fun a b => together insists s a b = true := by
  have hagree : others.Pairwise fun a b => agree insists s a b = true := by
    cases hinsists : insists with
    | false => exact List.pairwise_of_forall fun _ _ => rfl
    | true => exact h.suited hinsists
  have hcounts : others.Pairwise fun a b => a.ticket.countsCompatible b.ticket = true := by
    refine List.pairwise_of_forall_mem_list fun a ha b hb => ?_
    exact Ticket.countsCompatible_of_acceptsSize (h.accepted a (List.mem_cons_of_mem outer ha))
      (h.accepted b (List.mem_cons_of_mem outer hb))
  refine ((h.sessions.and h.parties).and (hcounts.and hagree)).imp fun hpair => ?_
  exact together_iff.2 ⟨hpair.1.1, hpair.1.2, hpair.2.1, hpair.2.2⟩

theorem fits_iff {p : Pick} (hp : Picked cs p) : fits outer last p.members p.count = true ↔
    p.members ≠ [] ∧
      (∀ m ∈ outer :: p.members,
        m.ticket.acceptsSize (entryCount (outer :: p.members)) = true) ∧
      (last = false → entryCount (outer :: p.members) = outer.ticket.maxCount) := by
  rw [fits, hp.count, Greedy.entryCount_cons]
  simp only [Bool.and_eq_true, Bool.not_eq_true', List.isEmpty_eq_false_iff, List.all_eq_true,
    List.mem_cons, forall_eq_or_imp]
  cases last <;> simp [and_assoc, and_comm]

/-- Exactly the combinations are enumerated that the outer ticket can form a group with. -/
theorem mem_enumerate_iff (hr : r.Recalls) (hcs : ∀ c ∈ cs, r.Sees c)
    (hreads : Reads insists r (enumerate outer cs last r).2) {group : List Pooled} :
    group ∈ (enumerate outer cs last r).1 ↔
      ∃ others, Combines insists last r.shelf outer cs others ∧ group = outer :: others := by
  rw [enumerate_eq hr hcs hreads, List.mem_map]
  simp only [List.mem_filter, mem_picks_iff]
  constructor
  · rintro ⟨p, ⟨⟨hp, htogether, -⟩, hfits⟩, rfl⟩
    obtain ⟨hne, haccepted, hfull⟩ := (fits_iff hp).1 hfits
    have hpairs := htogether.imp fun h => together_iff.1 h
    refine ⟨p.members, ⟨hne, hp.sublist, hpairs.imp fun h => h.1, hpairs.imp fun h => h.2.1,
      fun hinsists => hpairs.imp fun h => agree_iff.1 h.2.2.2 hinsists, haccepted, hfull⟩, rfl⟩
  · rintro ⟨others, h, rfl⟩
    obtain ⟨p, hp, rfl⟩ := exists_picked h.sublist
    -- what exceeds the room would exceed the greatest size of the outer ticket
    have hroom : entryCount p.members ≤ outer.ticket.maxCount - outer.ticket.count := by
      have hmax := (Ticket.acceptsSize_iff.1 (h.accepted outer List.mem_cons_self)).2.1
      rw [Greedy.entryCount_cons] at hmax
      omega
    exact ⟨p, ⟨⟨hp, h.together, hroom⟩, (fits_iff hp).2 ⟨h.ne, h.accepted, h.full⟩⟩, rfl⟩

theorem nodup_enumerate (hr : r.Recalls) (hcs : ∀ c ∈ cs, r.Sees c) (hnodup : cs.Nodup)
    (hreads : Reads insists r (enumerate outer cs last r).2) :
    (enumerate outer cs last r).1.Nodup := by
  rw [enumerate_eq hr hcs hreads]
  refine List.Nodup.map_on (fun p hp q hq heq => ?_) ((nodup_picks _ _).filter _)
  have hp := (mem_picks_iff.1 (List.mem_filter.1 hp).1).1
  have hq := (mem_picks_iff.1 (List.mem_filter.1 hq).1).1
  exact hp.eq_of_members hq hnodup (List.cons.inj heq).2

end Matchmaking.Exhaustive
