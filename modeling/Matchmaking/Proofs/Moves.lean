import Mathlib.Logic.Relation
import Matchmaking.Proofs.Contents
import Matchmaking.Service.Processing

/-!
# Moves

Whatever a matchmaker does to its tickets is a sequence of four moves: a ticket is enrolled, a
ticket is withdrawn, a ticket becomes active, or only things change that are not about tickets, such
as the clock. Calls of clients are made of such moves, and so are the parts of a pass: its
preparation, the retirement of tickets, and the handing over of groups, up to each of them. A
property that each move keeps therefore holds at every moment.
-/

namespace Matchmaking.Service

/-- Two states with the same tickets: they may differ in the clock, in the counters of a pass and in
which of the changes of the catalog have been committed. -/
structure Alike (s s' : Service) : Prop where
  config : s'.config = s.config
  strategy : s'.strategy = s.strategy
  naming : s'.naming = s.naming
  issued : s'.issued = s.issued
  contents : s'.catalog.contents = s.catalog.contents
  roster : s'.roster = s.roster

theorem Alike.refl (s : Service) : Alike s s := ⟨rfl, rfl, rfl, rfl, rfl, rfl⟩

/-- One thing that happens to the tickets. -/
inductive Move (s : Service) : Service → Prop
  /-- Nothing happens to them. -/
  | rest {s' : Service} (h : Alike s s') : Move s s'
  /-- An accepted request becomes a ticket. -/
  | enroll {now : Instant} {r : Request} {p : Pooled} (h : s.judge now r = .ok p) :
    Move s (s.enroll p)
  /-- A ticket goes. -/
  | withdraw (id : String) : Move s (s.withdraw id)
  /-- A ticket becomes active. -/
  | promote (id : String) : Move s { s with roster := s.roster.promote id }

/-- What happens to the tickets over a while. -/
abbrev Moves : Service → Service → Prop := Relation.ReflTransGen Move

theorem Alike.moves {s s' : Service} (h : Alike s s') : Moves s s' := .single (.rest h)

theorem Moves.keep {P : Service → Prop} (hP : ∀ {s s'}, Move s s' → P s → P s') {s s' : Service}
    (h : Moves s s') (hs : P s) : P s' := by
  induction h with
  | refl => exact hs
  | tail _ hmove ih => exact hP hmove ih

/-- No move changes the settings. -/
theorem Move.config {s s' : Service} (hmove : Move s s') : s'.config = s.config := by
  cases hmove with
  | rest halike => exact halike.config
  | enroll hjudge => rfl
  | withdraw other => rfl
  | promote other => rfl

theorem Moves.config {s s' : Service} (hmoves : Moves s s') : s'.config = s.config :=
  hmoves.keep (P := fun s' => s'.config = s.config) (fun hmove hs => hmove.config.trans hs) rfl

/-! ## Calls -/

theorem withdrawalReply_snd (result : Except ServiceFault Unit × Service) :
    (withdrawalReply result).2 = result.2 := by
  obtain ⟨_ | _, s⟩ := result <;> rfl

/-- A property of a matchmaker that outlasts the calls of its clients: all that a call does is to
set the clock, to make a ticket of an accepted request, and to withdraw tickets. -/
structure Lasting (P : Service → Prop) : Prop where
  clock : ∀ {s : Service} (c : Clock), P s → P { s with clock := c }
  enroll : ∀ {s : Service} {now : Instant} {r : Request} {p : Pooled}, s.judge now r = .ok p →
    P s → P (s.enroll p)
  withdraw : ∀ {s : Service} (id : String), P s → P (s.withdraw id)

namespace Lasting

variable {P : Service → Prop} {s : Service}

theorem withdrawAll (h : Lasting P) (ids : List String) (hs : P s) : P (s.withdrawAll ids) := by
  induction ids generalizing s with
  | nil => exact hs
  | cons id rest ih => exact ih (h.withdraw id hs)

theorem withdrawIf (h : Lasting P) (owned : Pooled → Bool) (id : String) (hs : P s) :
    P (s.withdrawIf owned id).2 := by
  unfold Service.withdrawIf
  split
  · exact h.withdraw id hs
  · exact hs

theorem submit (h : Lasting P) (r : Request) (hs : P s) : P (s.submit r).2 := by
  unfold Service.submit
  cases hjudge : s.judge s.clock.now r with
  | error f => exact hs
  | ok p => exact h.enroll hjudge hs

theorem perform (h : Lasting P) (call : Intake) (hs : P s) : P (s.perform call).2 := by
  cases call with
  | submit at? r =>
    have hend : (s.perform (.submit at? r)).2 =
        ({ s with clock := s.clock.advance at? }.submit r).2 := by
      simp only [Service.perform]
      split <;> simp_all
    rw [hend]
    exact h.submit r (h.clock _ hs)
  | wait at? => exact h.clock _ hs
  | cancel session user id =>
    rw [show s.perform (.cancel session user id) = withdrawalReply (s.cancel session user id) from
      rfl, withdrawalReply_snd]
    exact h.withdrawIf _ id hs
  | removeParty party id =>
    rw [show s.perform (.removeParty party id) = withdrawalReply (s.removeParty party id) from rfl,
      withdrawalReply_snd]
    exact h.withdrawIf _ id hs
  | removeSessionAll session => exact h.withdrawAll _ hs
  | removePartyAll party => exact h.withdrawAll _ hs
  | ticket id => exact hs
  | isActive id => exact hs
  | stats => exact hs

theorem performAll (h : Lasting P) (calls : List Intake) (hs : P s) :
    P (Service.performAll calls s).2 := by
  induction calls generalizing s with
  | nil => exact hs
  | cons call rest ih => exact ih (h.perform call hs)

theorem handOver (h : Lasting P) (groups : List Group) (calls : List (List Intake)) (hs : P s) :
    P (Service.handOver groups calls s).2 := by
  induction groups generalizing calls s with
  | nil => exact h.performAll (calls.headD []) hs
  | cons g rest ih => exact ih calls.tail (h.performAll (calls.headD []) hs)

end Lasting

theorem alike_clock (s : Service) (c : Clock) : Alike s { s with clock := c } :=
  ⟨rfl, rfl, rfl, rfl, rfl, rfl⟩

theorem lasting_moves (s : Service) : Lasting (Moves s) where
  clock c hs := hs.tail (.rest (alike_clock _ c))
  enroll hjudge hs := hs.tail (.enroll hjudge)
  withdraw id hs := hs.tail (.withdraw id)

theorem moves_withdrawAll (ids : List String) (s : Service) : Moves s (s.withdrawAll ids) :=
  (lasting_moves s).withdrawAll ids .refl

theorem moves_perform (s : Service) (call : Intake) : Moves s (s.perform call).2 :=
  (lasting_moves s).perform call .refl

theorem moves_performAll (calls : List Intake) (s : Service) : Moves s (performAll calls s).2 :=
  (lasting_moves s).performAll calls .refl

/-! ## Passes -/

/-- Preparing a pass commits, which is no matter of the tickets. -/
theorem alike_prepare (s : Service) : Alike s s.prepare :=
  ⟨rfl, rfl, rfl, rfl, Catalog.contents_commit s.catalog, rfl⟩

theorem moves_promoteAll (ids : List String) (s : Service) : Moves s (promoteAll ids s).2 := by
  induction ids generalizing s with
  | nil => exact .refl
  | cons id rest ih => exact .head (.promote id) (ih _)

theorem withdrawAll_catalog (ids : List String) (s : Service) :
    (s.withdrawAll ids).catalog = ids.foldl Catalog.remove s.catalog := by
  induction ids generalizing s with
  | nil => rfl
  | cons id rest ih => exact ih (s.withdraw id)

theorem withdrawAll_roster (ids : List String) (s : Service) :
    (s.withdrawAll ids).roster = ids.foldl Roster.remove s.roster := by
  induction ids generalizing s with
  | nil => rfl
  | cons id rest ih => exact ih (s.withdraw id)

theorem withdrawAll_frame (ids : List String) (s : Service) :
    (s.withdrawAll ids).config = s.config ∧ (s.withdrawAll ids).strategy = s.strategy ∧
      (s.withdrawAll ids).naming = s.naming ∧ (s.withdrawAll ids).issued = s.issued := by
  induction ids generalizing s with
  | nil => exact ⟨rfl, rfl, rfl, rfl⟩
  | cons id rest ih => exact ih (s.withdraw id)

/-- Retiring tickets is withdrawing them, and committing that. -/
theorem alike_retire (ids : List String) (s : Service) :
    Alike (s.withdrawAll ids) (retire ids s) := by
  unfold retire
  cases ids with
  | nil => exact .refl s
  | cons id rest =>
    obtain ⟨hconfig, hstrategy, hnaming, hissued⟩ := withdrawAll_frame (id :: rest) s
    refine ⟨hconfig.symm, hstrategy.symm, hnaming.symm, hissued.symm, ?_, ?_⟩
    · rw [withdrawAll_catalog, ← Catalog.contents_removeAll]
      exact Catalog.contents_commit _
    · rw [withdrawAll_roster]
      rfl

/-- What is retired is taken off the roster and out of the count of intervals; the rest stays. -/
theorem retire_eq (ids : List String) (s : Service) :
    retire ids s =
      { s with
        catalog := (retire ids s).catalog
        roster := ids.foldl Roster.remove s.roster
        intervals := ids.foldl Table.erase s.intervals } := by
  cases ids <;> rfl

theorem mem_matchedIds {groups : List Group} {id : String} :
    id ∈ matchedIds groups ↔ ∃ g ∈ groups, id ∈ g.ticketIds := by
  rw [matchedIds, List.mem_eraseDups, List.mem_flatMap]

theorem moves_retire (ids : List String) (s : Service) : Moves s (retire ids s) :=
  (moves_withdrawAll ids s).trans (alike_retire ids s).moves

/-- Handing over groups is made of the moves of the calls made in between, up to every hand-over and
beyond the last one. -/
theorem moves_handOver (groups : List Group) (calls : List (List Intake)) (s : Service) :
    Moves s (handOver groups calls s).2 ∧
      ∀ h ∈ (handOver groups calls s).1.1, Moves s h.seen := by
  induction groups generalizing calls s with
  | nil => exact ⟨moves_performAll (calls.headD []) s, by simp [handOver]⟩
  | cons g rest ih =>
    have hcalls := moves_performAll (calls.headD []) s
    obtain ⟨hlast, hseen⟩ := ih calls.tail (performAll (calls.headD []) s).2
    refine ⟨hcalls.trans hlast, fun h hh => ?_⟩
    rcases List.mem_cons.1 hh with rfl | hh
    · exact hcalls
    · exact hcalls.trans (hseen h hh)

theorem moves_of_mem_handOver {groups : List Group} {calls : List (List Intake)} {s : Service}
    {x : Handover} (hx : x ∈ (handOver groups calls s).1.1) :
    Moves x.seen (handOver groups calls s).2 := by
  induction groups generalizing calls s with
  | nil => cases hx
  | cons g rest ih =>
    rcases List.mem_cons.1 hx with rfl | hx
    · exact (moves_handOver rest calls.tail _).1
    · exact ih hx

end Matchmaking.Service
