import Matchmaking.Proofs.Conservation
import Matchmaking.Proofs.Handovers
import Matchmaking.Proofs.Pacing

/-!
# When tickets become active

Over whole runs, whatever their selectors do short of breaking down, a waiting ticket is active
exactly if enough of its intervals were begun. It stays active until it is gone. Once it was
withdrawn or handed over it is never active any more, and the next pass drops its count. Main
statement: `Service.promotes`.
-/

namespace Matchmaking

namespace Service

variable {s : Service} {id : String} {precision : Precision} {inForming : List Intake}
  {inSettling : List (List Intake)}

/-! ## Counts of tickets that are gone -/

theorem lasting_intervals (s : Service) : Lasting fun s' => s'.intervals = s.intervals :=
  ⟨fun _ hs => hs, fun _ hs => hs, fun _ hs => hs⟩

theorem intervals_handOver (groups : List Group) (calls : List (List Intake)) (s : Service) :
    (handOver groups calls s).2.intervals = s.intervals :=
  (lasting_intervals s).handOver groups calls rfl

theorem intervals_settled (s : Service) (groups : List Group) (promotions : List String)
    (calls : List Intake) : (s.settled groups promotions calls).intervals =
      (matchedIds groups).foldl Table.erase s.intervals := by
  have hcalls := (lasting_intervals (retire (matchedIds groups) s)).performAll calls rfl
  rw [settled, promoteAll_snd, hcalls, retire_eq]

/-- A pass drops the counts of tickets that were gone when it began. -/
theorem Reachable.get?_intervals_process (h : Reachable s) (hready : s.poisoned = false)
    (hgone : s.roster.get? id = none) :
    (s.process precision inForming inSettling).2.intervals.get? id = none := by
  have hwaits : ¬ s.roster.tickets.contains id = true := by
    rw [Table.contains_eq_false_iff.2 hgone]
    exact Bool.false_ne_true
  have hround : ∀ (a : Assembled) s₁, s.prepare.assemble precision inForming = (a, s₁) →
      a.round.intervals.get? id = none := by
    intro a s₁ ha
    have hsub := s.strategy.begun_subset (s.prepare.round precision)
    rw [h.sound.intervals_of_began (h.began_of_assemble ha) hsub,
      if_neg fun hid => hwaits (h.sound.contains_of_begun hsub hid), if_neg hwaits]
  have hends := ends_process s precision inForming inSettling
  generalize s.process precision inForming inSettling = result at hends ⊢
  cases hends with
  | poisoned hpoisoned =>
    rw [hready] at hpoisoned
    cases hpoisoned
  | idle hready hempty => exact (get?_intervals_round s precision id).trans (if_neg hwaits)
  | @formed hready hsome a s₁ ha groups hgroups =>
    rw [conclude_snd, intervals_handOver, intervals_settled, Table.get?_foldl_erase]
    exact (congrArg (ite _ none) (hround a s₁ ha)).trans (ite_self none)
  | @refused hready hsome a s₁ ha message hgroups =>
    rw [promoteAll_snd]
    exact hround a s₁ ha
  | @crashed hready hsome a s₁ ha message hgroups => exact hround a s₁ ha

/-! ## Tickets that are gone -/

/-- While a pass hands over its groups, none of their tickets is active. -/
theorem Reachable.isActive_seen (h : Reachable s)
    (hfresh : (s.process precision inForming inSettling).2.FreshNames) {x : Handover}
    (hx : x ∈ (s.process precision inForming inSettling).1.dispatched) {g : Group}
    (hg : g ∈ s.groupsOfPass precision) (hid : id ∈ g.ticketIds) : x.seen.isActive id = false :=
  (h.gone_seen hfresh hx hg hid).inactive

/-! ## Runs -/

/-- A new matchmaker has nothing to count. -/
theorem paced_empty {config : Config} (h : config.validate = .ok ()) (strategy : Strategy)
    (naming : Naming) : Paced (empty config strategy naming) (fun _ => 0) fun _ => 0 where
  interval id p hp := by simp [empty, Roster.empty, Roster.get?] at hp
  named id hid := by simp [empty, Roster.empty, isActive, Roster.isActive] at hid
  positive := (Config.limits_of_validate h).intervals
  active _ id p hp := by simp [empty, Roster.empty, Roster.get?] at hp

theorem paced_run {config : Config} {strategy : Strategy} {naming : Naming}
    (hcreate : create config strategy naming = .ok s) (events : List Event)
    (hfresh : (s.run events).FreshNames) :
    Paced (s.run events) (fun id => intervalsBegun id events s)
      fun id => intervalsBegun id events s := by
  obtain ⟨hempty, hvalid⟩ := create_eq_ok hcreate
  have hstart := paced_empty hvalid strategy naming
  rw [← hempty] at hstart
  have hend := hstart.run (.created hcreate) events hfresh
  simp only [Nat.zero_add] at hend
  exact hend

/-- A ticket that was withdrawn or handed over is gone. -/
theorem gone_of_history {config : Config} {strategy : Strategy} {naming : Naming}
    (hcreate : create config strategy naming = .ok s) (events : List Event)
    (hfresh : (s.run events).FreshNames)
    (h : withdrawals (s.history events) id ≠ [] ∨ groupsWith (s.history events) id ≠ []) :
    (s.run events).Named id ∧ (s.run events).roster.get? id = none := by
  have hempty := Balanced.empty config strategy naming
  rw [← (create_eq_ok hcreate).1] at hempty
  obtain ⟨last, hend⟩ := Balanced.ofRun (.created hcreate) hempty 0 hfresh
  rw [List.nil_append] at hend
  have hknown := hend.known id
  rw [Books.groups_idle] at hknown
  obtain ⟨t, ht, rfl⟩ := hknown h
  have hgone : (s.run events).ticket? t.id = none → (s.run events).roster.get? t.id = none :=
    Option.map_eq_none_iff.1
  refine ⟨hend.named t ht, hgone ?_⟩
  cases hend.fate t ht with
  | waiting hr hw hg =>
    rw [Books.groups_idle] at hg
    rcases h with hne | hne
    · exact absurd hw hne
    · exact absurd hg hne
  | withdrawn hr hw hg => exact hr
  | promised hheld hr hw hg hall => cases hheld
  | grouped hr hw hg hall => exact hr

/-! ## The law -/

/-- How tickets become active in a run, and for how long they are. -/
structure Promotes (s : Service) (events : List Event) : Prop where
  /-- What is counted of a waiting ticket is the number of passes that began an interval of it. -/
  counted : ∀ id t, (s.run events).ticket? id = some t →
    (s.run events).interval id = intervalsBegun id events s
  /-- Unless the selector of a pass broke down, a waiting ticket is active exactly if these are
  enough. -/
  active : (s.run events).poisoned = false → ∀ id t, (s.run events).ticket? id = some t →
    ((s.run events).isActive id = true ↔
      s.config.Suffices t ((s.run events).interval id))
  /-- A ticket that is active after some of the events is so at every later moment, be it during a
  pass or not, at which it is not gone. -/
  lasting : ∀ before after, events = before ++ after → ∀ id, (s.run before).isActive id = true →
    ∀ s', Moves (s.run before) s' → Moves s' (s.run events) →
      s'.ticket? id = none ∨ s'.isActive id = true
  /-- A ticket that was withdrawn or handed over in some of the events is active at no later
  moment. -/
  never : ∀ before after, events = before ++ after → ∀ id,
    withdrawals (s.history before) id ≠ [] ∨ groupsWith (s.history before) id ≠ [] →
    ∀ s', Moves (s.run before) s' → Moves s' (s.run events) → s'.isActive id = false
  /-- A ticket of a group that a pass forms is not active when that pass hands over its groups. -/
  handingOver : ∀ before precision inForming inSettling after,
    events = before ++ .pass precision inForming inSettling :: after →
    ∀ x ∈ ((s.run before).process precision inForming inSettling).1.dispatched,
    ∀ g ∈ (s.run before).groupsOfPass precision, ∀ id ∈ g.ticketIds, x.seen.isActive id = false
  /-- A pass that is made leaves no count of a ticket that was gone when it began. -/
  dropped : ∀ before precision inForming inSettling after,
    events = before ++ .pass precision inForming inSettling :: after →
    (s.run before).poisoned = false → ∀ id, (s.run before).ticket? id = none →
    (s.run (before ++ [.pass precision inForming inSettling])).intervals.get? id = none

/-- In every run of calls and passes in which no name is given twice, tickets become active by the
number of their intervals. -/
theorem promotes {config : Config} {strategy : Strategy} {naming : Naming}
    (hcreate : create config strategy naming = .ok s) (events : List Event)
    (hfresh : (s.run events).FreshNames) : s.Promotes events := by
  have hreachable : Reachable s := .created hcreate
  have hpaced := paced_run hcreate events hfresh
  have hwaiting : ∀ {id t}, (s.run events).ticket? id = some t →
      ∃ p, (s.run events).roster.get? id = some p ∧ p.ticket = t := Option.map_eq_some_iff.1
  have hmoves : ∀ {before after}, events = before ++ after →
      Moves (s.run before) (s.run events) := by
    rintro before after rfl
    rw [run_append]
    exact moves_run after (s.run before)
  refine ⟨fun id t ht => ?_, fun hready id t ht => ?_, fun before after hsplit id hactive => ?_,
    fun before after hsplit id hlog => ?_,
    fun before precision inForming inSettling after hsplit x hx g hg id hid => ?_,
    fun before precision inForming inSettling after hsplit hready id hgone => ?_⟩
  · obtain ⟨p, hp, -⟩ := hwaiting ht
    exact hpaced.interval id p hp
  · obtain ⟨p, hp, rfl⟩ := hwaiting ht
    have hconfig : (s.run events).config = s.config := (moves_run events s).config
    rw [hpaced.interval id p hp, ← hconfig]
    exact hpaced.active hready id p hp
  · -- an active ticket has a name that was given out, and no other ticket gets that name
    intro s' hthen hafter
    have hbefore := paced_run hcreate before (hfresh.of_moves (hmoves hsplit))
    have hnamed := hbefore.named id (Or.inr (Or.inr (Or.inr hactive)))
    rcases hthen.outlasts (hfresh.of_moves hafter) hnamed with hgone | ⟨-, hstill⟩
    · exact Or.inl (Option.map_eq_none_iff.2 hgone)
    · exact Or.inr (hstill hactive)
  · intro s' hthen hafter
    obtain ⟨hnamed, hgone⟩ := gone_of_history hcreate before (hfresh.of_moves (hmoves hsplit)) hlog
    have hgone' := hthen.get?_eq_none (hfresh.of_moves hafter) hnamed hgone
    have hsound : s'.Sound := hthen.keep Move.sound (hreachable.run before).sound
    exact hsound.isActive_eq_false hgone'
  · have hpass : events = (before ++ [.pass precision inForming inSettling]) ++ after := by
      rw [hsplit, List.append_assoc]
      rfl
    have hmade := hfresh.of_moves (hmoves hpass)
    rw [run_append] at hmade
    exact (hreachable.run before).isActive_seen hmade hx hg hid
  · rw [run_append]
    exact (hreachable.run before).get?_intervals_process hready
      (Option.map_eq_none_iff.1 hgone)

/-- A user who would like to be one of three, and would also be one of two, waits for two passes. -/
def patientEvents : List Event :=
  [.call (.submit none (.solo "s" "u" "*" 2 3 1)), .pass .off [] [], .pass .off [] []]

/-- Two intervals of his ticket are begun, and so it becomes active. -/
theorem promotes_patientEvents :
    (empty {} .greedy strokes).Promotes patientEvents ∧
      intervalsBegun "I" patientEvents (empty {} .greedy strokes) = 2 ∧
      ((empty {} .greedy strokes).run patientEvents).isActive "I" = true := by
  have hpromotes := promotes (create_standard .greedy strokes) patientEvents
    (freshNames_of_moves strokes_injective (moves_run patientEvents (empty {} .greedy strokes)))
  have hwaits : ∃ t, ((empty {} .greedy strokes).run patientEvents).ticket? "I" = some t :=
    Option.isSome_iff_exists.1 (by decide +kernel)
  have hbegun : intervalsBegun "I" patientEvents (empty {} .greedy strokes) = 2 := by
    decide +kernel
  obtain ⟨t, ht⟩ := hwaits
  refine ⟨hpromotes, hbegun, (hpromotes.active (by decide +kernel) "I" t ht).2 (Or.inl ?_)⟩
  rw [hpromotes.counted "I" t ht, hbegun]
  exact Nat.le_refl 2

end Service

end Matchmaking
