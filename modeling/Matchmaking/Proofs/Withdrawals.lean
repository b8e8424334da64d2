import Matchmaking.Proofs.Handovers

/-!
# Withdrawing tickets

A client withdraws one ticket, on behalf of a session and user or of a party, or all tickets of a
session or of a party. Which tickets are meant is read off the waiting tickets themselves. The calls
for a single ticket look at that ticket, those for many follow the look-ups of the roster; either
way exactly the tickets that are meant go, everything about the others stays, and no later pass
puts one of them into a group. Main statement: `withdraws_of_unlocked`.
-/

namespace Matchmaking

open Service (ownedBy ownedByParty)

/-! ## What is withdrawn -/

/-- A call that withdraws tickets. -/
inductive Withdrawal
  /-- A ticket goes on behalf of a session and user. -/
  | cancel (session user id : String)
  /-- A ticket goes on behalf of a party. -/
  | ofParty (party id : String)
  /-- All tickets of a session go. -/
  | allOfSession (session : String)
  /-- All tickets of a party go. -/
  | allOfParty (party : String)

namespace Withdrawal

/-- The call of the client. -/
def call : Withdrawal → Intake
  | .cancel session user id => .cancel session user id
  | .ofParty party id => .removeParty party id
  | .allOfSession session => .removeSessionAll session
  | .allOfParty party => .removePartyAll party

/-- A ticket is meant. Sessions speak only for tickets without a party. -/
def Means : Withdrawal → Pooled → Prop
  | .cancel session user id, p => p.id = id ∧ p.ticket.party = none ∧
      ∃ x ∈ p.ticket.presences, x.session = session ∧ x.user = user
  | .ofParty party id, p => p.id = id ∧ p.ticket.party = some party
  | .allOfSession session, p => p.ticket.party = none ∧ session ∈ p.ticket.sessions
  | .allOfParty party, p => p.ticket.party = some party

instance : (w : Withdrawal) → (p : Pooled) → Decidable (w.Means p)
  | .cancel session user id, p => inferInstanceAs (Decidable (p.id = id ∧ p.ticket.party = none ∧
      ∃ x ∈ p.ticket.presences, x.session = session ∧ x.user = user))
  | .ofParty party id, p => inferInstanceAs (Decidable (p.id = id ∧ p.ticket.party = some party))
  | .allOfSession session, p =>
    inferInstanceAs (Decidable (p.ticket.party = none ∧ session ∈ p.ticket.sessions))
  | .allOfParty party, p => inferInstanceAs (Decidable (p.ticket.party = some party))

/-- The names of the waiting tickets that are meant. -/
def meant (w : Withdrawal) (s : Service) : List String :=
  (s.roster.tickets.values.filter fun p => w.Means p).map Pooled.id

/-- The reply that is due if so many waiting tickets are meant. -/
def reply (n : Nat) : Withdrawal → Reply
  | .cancel _ _ id | .ofParty _ id => if n = 0 then .refused (.ticketNotFound id) else .done
  | .allOfSession _ | .allOfParty _ => .count n

/-- The names of the tickets that the call finds. -/
def found (w : Withdrawal) (s : Service) : List String :=
  match w with
  | .cancel session user id => if (s.roster.get? id).any (ownedBy session user) then [id] else []
  | .ofParty party id => if (s.roster.get? id).any (ownedByParty party) then [id] else []
  | .allOfSession session => s.roster.ofSession session
  | .allOfParty party => s.roster.ofParty party

end Withdrawal

namespace Service

variable {s : Service} {w : Withdrawal} {id : String}

theorem ownedBy_iff {session user : String} {p : Pooled} : ownedBy session user p = true ↔
    p.ticket.party = none ∧ ∃ x ∈ p.ticket.presences, x.session = session ∧ x.user = user := by
  simp [ownedBy]

theorem ownedByParty_iff {party : String} {p : Pooled} :
    ownedByParty party p = true ↔ p.ticket.party = some party := by
  simp [ownedByParty]

/-- What the call finds is withdrawn, and counts for the reply. -/
theorem perform_withdrawal (s : Service) (w : Withdrawal) :
    s.perform w.call = (w.reply (w.found s).length, s.withdrawAll (w.found s)) := by
  cases w with
  | cancel session user id =>
    simp only [Withdrawal.call, perform, cancel, withdrawIf, Withdrawal.found]
    split <;> rfl
  | ofParty party id =>
    simp only [Withdrawal.call, perform, removeParty, withdrawIf, Withdrawal.found]
    split <;> rfl
  | allOfSession session | allOfParty party => rfl

/-! ## Look-ups and tickets -/

theorem Sound.mem_found (h : s.Sound) (hfiled : s.Filed) :
    id ∈ w.found s ↔ ∃ p, s.roster.get? id = some p ∧ w.Means p := by
  have hkeyed : ∀ p, s.roster.get? id = some p → p.id = id := h.mirrors.keyed id
  cases w with
  | cancel session user other =>
    simp only [Withdrawal.found, Withdrawal.Means, List.mem_ite_nil_right,
      List.mem_singleton, Option.any_eq_true, ownedBy_iff]
    grind
  | ofParty party other =>
    simp only [Withdrawal.found, Withdrawal.Means, List.mem_ite_nil_right,
      List.mem_singleton, Option.any_eq_true, ownedByParty_iff]
    grind
  | allOfSession session => exact hfiled.indexed.mem_ofSession
  | allOfParty party => exact hfiled.indexed.mem_ofParty

theorem nodup_found : (w.found s).Nodup := by
  cases w with
  | cancel session user other | ofParty party other =>
    simp only [Withdrawal.found]
    split <;> simp
  | allOfSession session | allOfParty party => exact Table.nodup_keys _

theorem Sound.mem_meant (h : s.Sound) :
    id ∈ w.meant s ↔ ∃ p, s.roster.get? id = some p ∧ w.Means p := by
  have hkeyed : ∀ id p, s.roster.get? id = some p → p.id = id := h.mirrors.keyed
  simp only [Withdrawal.meant, List.mem_map, List.mem_filter, decide_eq_true_eq,
    Table.mem_values_iff]
  constructor
  · rintro ⟨p, ⟨⟨key, hp⟩, hmeans⟩, rfl⟩
    exact ⟨p, (hkeyed key p hp).symm ▸ hp, hmeans⟩
  · rintro ⟨p, hp, hmeans⟩
    exact ⟨p, ⟨⟨id, hp⟩, hmeans⟩, hkeyed id p hp⟩

theorem Sound.nodup_meant (h : s.Sound) : (w.meant s).Nodup := by
  refine s.roster.tickets.nodup_keys.sublist ?_
  rw [← map_id_values h.mirrors.keyed]
  exact List.filter_sublist.map Pooled.id

/-- The call finds the tickets that are meant. -/
theorem Sound.found_perm (h : s.Sound) (hfiled : s.Filed) : (w.found s).Perm (w.meant s) := by
  refine (List.perm_ext_iff_of_nodup nodup_found h.nodup_meant).2 fun id => ?_
  rw [h.mem_found hfiled, h.mem_meant]

/-! ## What stays -/

theorem contents_foldl_remove (ids : List String) (c : Catalog) :
    (ids.foldl Catalog.remove c).contents = c.contents.filter fun card => card.ticketId ∉ ids := by
  induction ids generalizing c with
  | nil => simp
  | cons x rest ih =>
    rw [List.foldl_cons, ih, Catalog.contents_remove, List.filter_filter]
    refine List.filter_congr fun card _ => ?_
    by_cases hx : card.ticketId = x <;> simp [hx]

theorem shelf_foldl_remove (ids : List String) (c : Catalog) :
    (ids.foldl Catalog.remove c).shelf = c.shelf := by
  induction ids generalizing c with
  | nil => rfl
  | cons x rest ih => exact ih (c.remove x)

/-- Only the catalog and the roster change. -/
theorem withdrawAll_eq (ids : List String) (s : Service) :
    s.withdrawAll ids =
      { s with
        catalog := (s.withdrawAll ids).catalog
        roster := (s.withdrawAll ids).roster } := by
  induction ids generalizing s with
  | nil => rfl
  | cons id rest ih => exact ih (s.withdraw id)

/-- The state `s'` is the state `s` without some tickets. -/
structure Without (gone : List String) (s s' : Service) : Prop where
  /-- Nothing changes but the catalog and the roster. -/
  frame : s' = { s with catalog := s'.catalog, roster := s'.roster }
  /-- The others wait as before. -/
  ticket : ∀ id, s'.roster.get? id = if id ∈ gone then none else s.roster.get? id
  /-- The others are active if they were. -/
  active : ∀ id, s'.isActive id = (id ∉ gone && s.isActive id)
  /-- The others are found under their sessions. -/
  session : ∀ x id, id ∈ s'.roster.ofSession x ↔ id ∈ s.roster.ofSession x ∧ id ∉ gone
  /-- The others are found under their parties. -/
  party : ∀ x id, id ∈ s'.roster.ofParty x ↔ id ∈ s.roster.ofParty x ∧ id ∉ gone
  /-- The others keep their cards. -/
  contents : s'.catalog.contents = s.catalog.contents.filter fun c => c.ticketId ∉ gone
  /-- Nothing is committed. -/
  shelf : s'.catalog.shelf = s.catalog.shelf

theorem Without.of_mem_iff {gone gone' : List String} {s' : Service} (h : Without gone s s')
    (hmem : ∀ id, id ∈ gone ↔ id ∈ gone') : Without gone' s s' := by
  obtain ⟨hframe, hticket, hactive, hsession, hparty, hcontents, hshelf⟩ := h
  simp only [hmem] at hticket hactive hsession hparty hcontents
  exact ⟨hframe, hticket, hactive, hsession, hparty, hcontents, hshelf⟩

theorem Sound.without (h : s.Sound) (hfiled : s.Filed) (ids : List String) :
    Without ids s (s.withdrawAll ids) := by
  have hmoves : Moves s (s.withdrawAll ids) := moves_withdrawAll ids s
  have hsound : (s.withdrawAll ids).Sound := hmoves.keep Move.sound h
  have hticket : ∀ id, (s.withdrawAll ids).roster.get? id =
      if id ∈ ids then none else s.roster.get? id := by
    intro id
    rw [withdrawAll_roster, Roster.get?_foldl_remove]
  have hindexed : (s.withdrawAll ids).roster.Indexed := by
    rw [withdrawAll_roster]
    exact hfiled.indexed.foldl_remove ids
  refine ⟨withdrawAll_eq ids s, hticket, fun id => ?_, fun x id => ?_, fun x id => ?_, ?_, ?_⟩
  · by_cases hid : id ∈ ids
    · have hgone : (s.withdrawAll ids).roster.get? id = none := by rw [hticket, if_pos hid]
      simp [hid, hsound.isActive_eq_false hgone]
    · rw [isActive, withdrawAll_roster, Roster.isActive_foldl_remove_of_notMem _ hid]
      simp [hid, isActive]
  · rw [hindexed.mem_ofSession, hfiled.indexed.mem_ofSession]
    simp only [hticket]
    grind
  · rw [hindexed.mem_ofParty, hfiled.indexed.mem_ofParty]
    simp only [hticket]
    grind
  · rw [withdrawAll_catalog, contents_foldl_remove]
  · rw [withdrawAll_catalog, shelf_foldl_remove]

/-! ## Withdrawals -/

/-- What a withdrawal has to come to. -/
structure Withdraws (w : Withdrawal) (s : Service) (result : Reply × Service) : Prop where
  /-- The reply says whether there was a ticket, or how many there were. -/
  reply : result.1 = w.reply (w.meant s).length
  /-- The tickets that are meant go, and nothing else. -/
  without : Without (w.meant s) s result.2
  /-- A refusal changes nothing. -/
  refused : ∀ f, result.1 = .refused f → result.2 = s
  /-- Once more there is nothing to withdraw. -/
  again : result.2.perform w.call = (w.reply 0, result.2)
  /-- None of the tickets is in a group of a pass that begins later. -/
  never : ∀ s', Moves result.2 s' → Reachable s' → s'.FreshNames → ∀ id ∈ w.meant s,
    ∀ (precision : Precision) (inForming : List Intake) (inSettling : List (List Intake)),
      (∀ report, (s'.process precision inForming inSettling).1.outcome = .ok report →
        ∀ g ∈ report.matched, id ∉ g.ticketIds) ∧
      ∀ x ∈ (s'.process precision inForming inSettling).1.dispatched, id ∉ x.group.ticketIds

/-- Who does not wait when a pass begins is not in its groups. -/
theorem Sound.notMem_ticketIds (h : s.Sound) (hgone : s.roster.get? id = none)
    {precision : Precision} {g : Group} (hg : g ∈ s.groupsOfPass precision) :
    id ∉ g.ticketIds := by
  intro hid
  obtain ⟨members, hmembers⟩ := h.formedOf_of_mem_groupsOfPass hg
  rw [hmembers.ticketIds] at hid
  obtain ⟨t, ht, rfl⟩ := List.mem_map.1 hid
  obtain ⟨p, hp, -⟩ := hmembers.registered t ht
  exact Option.some_ne_none p (hp.symm.trans hgone)

/-- Once the tickets that are meant are gone, none is found any more. -/
theorem Without.found_eq_nil {s' : Service} (h : Without (w.meant s) s s') (hsound : s.Sound)
    (hsound' : s'.Sound) (hfiled' : s'.Filed) : w.found s' = [] := by
  refine List.eq_nil_iff_forall_not_mem.2 fun id hid => ?_
  obtain ⟨p, hp, hmeans⟩ := (hsound'.mem_found hfiled').1 hid
  rw [h.ticket] at hp
  split at hp
  · cases hp
  · rename_i hother
    exact hother (hsound.mem_meant.2 ⟨p, hp, hmeans⟩)

theorem eq_zero_of_reply {n : Nat} {f : ServiceFault} (h : w.reply n = .refused f) : n = 0 := by
  cases w with
  | cancel session user id | ofParty party id =>
    by_contra hn
    rw [Withdrawal.reply, if_neg hn] at h
    cases h
  | allOfSession session | allOfParty party => cases h

/-- Whenever the roster is unlocked, a withdrawal takes exactly the waiting tickets that it means,
and for good. -/
theorem withdraws_of_unlocked (h : Unlocked s) (hfresh : s.FreshNames) (w : Withdrawal) :
    Withdraws w s (s.perform w.call) := by
  have hsound : s.Sound := h.sound
  have hfiled : s.Filed := h.filed hfresh
  have hperm : (w.found s).Perm (w.meant s) := hsound.found_perm hfiled
  have hwithout : Without (w.meant s) s (s.withdrawAll (w.found s)) :=
    (hsound.without hfiled _).of_mem_iff fun _ => hperm.mem_iff
  have hmoves : Moves s (s.withdrawAll (w.found s)) := moves_withdrawAll _ s
  have hsound' : (s.withdrawAll (w.found s)).Sound := hmoves.keep Move.sound hsound
  have hfiled' : (s.withdrawAll (w.found s)).Filed := by
    refine hmoves.keep (P := fun s => s.FreshNames → s.Filed)
      (fun hmove => hmove.filed_of_freshNames) (fun _ => hfiled) ?_
    rw [withdrawAll_eq]
    exact hfresh
  rw [perform_withdrawal]
  refine ⟨by rw [hperm.length_eq], hwithout, fun f hf => ?_, ?_, ?_⟩
  · rw [List.length_eq_zero_iff.1 (eq_zero_of_reply hf)]
    rfl
  · rw [perform_withdrawal, hwithout.found_eq_nil hsound hsound' hfiled']
    rfl
  · intro s' hmoves' hreachable hfresh' id hid precision inForming inSettling
    -- the name was given out, so that it never comes back
    obtain ⟨p, hp, -⟩ := hsound.mem_meant.1 hid
    have hnamed : s.Named id := hfiled.named id p hp
    have hgone : s'.roster.get? id = none := by
      refine hmoves'.get?_eq_none hfresh' (hnamed.of_moves hmoves) ?_
      rw [hwithout.ticket, if_pos hid]
    exact ⟨fun report hreport g hg =>
        hreachable.sound.notMem_ticketIds hgone (mem_groupsOfPass (.inl ⟨report, hreport, hg⟩)),
      fun x hx => hreachable.sound.notMem_ticketIds hgone (mem_groupsOfPass (.inr ⟨x, hx, rfl⟩))⟩

/-- One of the two users changes his mind. -/
theorem withdraws_pairWaiting :
    (Withdrawal.cancel "s" "u" "I").meant pairWaiting = ["I"] ∧
      Withdraws (.cancel "s" "u" "I") pairWaiting
        (pairWaiting.perform (Withdrawal.cancel "s" "u" "I").call) := by
  refine ⟨by decide +kernel, withdraws_of_unlocked (.idle reachable_pairWaiting) ?_ _⟩
  exact freshNames_of_moves strokes_injective (moves_run (pairCalls.map .call) _)

end Service

end Matchmaking
