import Matchmaking.Schedule.Latch

/-!
# Nobody waits in vain

Whoever waits for the latch registers first and looks second; a pass frees the latch first and calls
second. So somebody who has looked too early is called later: while a waiter is parked that was not
called, the latch is taken, or a pass that freed it has still to call (`Attentive`). Once the latch
is free and all have called, every waiter gets on by its own turns. Main statement:
`nobody_missed_of_run`.
-/

namespace Matchmaking

namespace Waiter

variable {held : Bool} {w w' : Waiter}

/-- What a waiter can do next; `held` is what it finds when it looks. -/
inductive Turn (held : Bool) : Waiter → Waiter → Prop
  /-- It registers. -/
  | register : Turn held .arriving (.registered false)
  /-- It looks and finds the latch taken. -/
  | park {called : Bool} (h : held = true) : Turn held (.registered called) (.parked called)
  /-- It looks and finds the latch free. -/
  | leave {called : Bool} (h : held = false) : Turn held (.registered called) .gone
  /-- It was called and begins again. -/
  | wake : Turn held (.parked true) .arriving

theorem turn_of_turn_eq_some (h : w.turn held = some w') : Turn held w w' := by
  cases w with
  | arriving =>
    cases h
    exact .register
  | registered called =>
    cases held with
    | true =>
      cases h
      exact .park rfl
    | false =>
      cases h
      exact .leave rfl
  | parked called =>
    cases called with
    | true =>
      cases h
      exact .wake
    | false => cases h
  | gone => cases h

/-- A call reaches everybody who is parked. -/
theorem call_ne_parked (w : Waiter) : w.call ≠ .parked false := by
  cases w <;> simp [call]

/-- A call lets nobody go on. -/
theorem eq_gone_of_call (h : w.call = .gone) : w = .gone := by
  cases w <;> first | rfl | cases h

end Waiter

namespace Latch

variable {l l' : Latch} {e : Event} {past events : List Event} {i : Nat} {w w' : Waiter}

/-! ## Steps -/

/-- What can happen to the latch, and what becomes of it. -/
inductive Happens (l : Latch) : Event → Latch → Prop
  | take (h : l.held = false) : Happens l .take { l with held := true }
  | free (h : l.held = true) : Happens l .free l.free
  | call (h : l.callers ≠ 0) : Happens l .call l.call
  | arrive : Happens l .arrive { l with waiters := l.waiters ++ [.arriving] }
  | turn {i : Nat} {w w' : Waiter} (hw : l.waiters[i]? = some w) (h : w.Turn l.held w') :
    Happens l (.turn i) { l with waiters := l.waiters.set i w' }

theorem happens_of_step (h : l.step e = some l') : Happens l e l' := by
  cases e with
  | take =>
    simp only [step, take?] at h
    split at h
    · cases h
    · rename_i hfree
      cases h
      exact .take (Bool.eq_false_iff.2 hfree)
  | free =>
    simp only [step] at h
    split at h
    · rename_i hheld
      cases h
      exact .free hheld
    · cases h
  | call =>
    simp only [step] at h
    split at h
    · cases h
    · rename_i hcallers
      cases h
      exact .call hcallers
  | arrive =>
    cases h
    exact .arrive
  | turn i =>
    obtain ⟨w, hw, hnext⟩ := Option.bind_eq_some_iff.1 h
    obtain ⟨w', hturn, hset⟩ := Option.bind_eq_some_iff.1 hnext
    cases hset
    exact .turn hw (Waiter.turn_of_turn_eq_some hturn)

/-! ## Parked waiters -/

/-- What is the case after some things have happened: the passes that have still to call are those
that freed the latch and did not call, and if somebody is parked who was not called, the latch is
taken or there is such a pass. -/
structure Attentive (past : List Event) (l : Latch) : Prop where
  callers : l.callers + past.count .call = past.count .free
  parked : .parked false ∈ l.waiters → l.held = true ∨ l.callers ≠ 0

theorem attentive_initial : Attentive [] initial := ⟨rfl, nofun⟩

theorem Attentive.step (h : Attentive past l) (hstep : Happens l e l') :
    Attentive (past ++ [e]) l' := by
  have hcallers := h.callers
  cases hstep with
  | take hfree => exact ⟨by simpa [List.count_append] using hcallers, fun _ => .inl rfl⟩
  | free hheld =>
    have hfrees : (past ++ [Event.free]).count .free = past.count .free + 1 := by simp
    have hcalls : (past ++ [Event.free]).count .call = past.count .call := by simp
    refine ⟨?_, fun _ => .inr (Nat.succ_ne_zero _)⟩
    show l.callers + 1 + _ = _
    omega
  | call hsome =>
    have hfrees : (past ++ [Event.call]).count .free = past.count .free := by simp
    have hcalls : (past ++ [Event.call]).count .call = past.count .call + 1 := by simp
    -- all who are parked were called just now
    refine ⟨?_, fun hparked => ?_⟩
    · show l.callers - 1 + _ = _
      omega
    · obtain ⟨w, -, hw⟩ := List.mem_map.1 hparked
      exact absurd hw w.call_ne_parked
  | arrive =>
    refine ⟨by simpa [List.count_append] using hcallers, fun hparked => h.parked ?_⟩
    rcases List.mem_append.1 hparked with hold | hnew
    · exact hold
    · cases List.mem_singleton.1 hnew
  | turn hw hturn =>
    refine ⟨by simpa [List.count_append] using hcallers, fun hparked => ?_⟩
    rcases List.mem_or_eq_of_mem_set hparked with hold | hnew
    · exact h.parked hold
    · -- only somebody who finds the latch taken parks
      cases hturn with
      | park hheld => exact .inl hheld
      | register | leave _ | wake => cases hnew

theorem Attentive.run (h : Attentive past l) (hrun : l.run events = some l') :
    Attentive (past ++ events) l' := by
  induction events generalizing past l with
  | nil =>
    cases hrun
    rwa [List.append_nil]
  | cons e rest ih =>
    obtain ⟨l₁, hstep, hrest⟩ := Option.bind_eq_some_iff.1 hrun
    rw [List.append_cons]
    exact ih (h.step (happens_of_step hstep)) hrest

/-! ## Going on -/

/-- Somebody goes on only in a turn of its own in which it finds the latch free. -/
theorem Happens.goes (h : Happens l e l') (hgone : l'.waiters[i]? = some .gone)
    (hnot : l.waiters[i]? ≠ some .gone) :
    e = .turn i ∧ l.held = false ∧ ∃ called, l.waiters[i]? = some (.registered called) := by
  cases h with
  | take _ | free _ => exact absurd hgone hnot
  | call _ =>
    rw [Latch.call, List.getElem?_map] at hgone
    obtain ⟨w, hw, hcall⟩ := Option.map_eq_some_iff.1 hgone
    rw [Waiter.eq_gone_of_call hcall] at hw
    exact absurd hw hnot
  | arrive =>
    rw [List.getElem?_append] at hgone
    split at hgone
    · exact absurd hgone hnot
    · cases List.mem_singleton.1 (List.mem_of_getElem? hgone)
  | @turn j w w' hw hturn =>
    by_cases hj : j = i
    · subst hj
      have hi : j < l.waiters.length := (List.getElem?_eq_some_iff.1 hw).1
      rw [List.getElem?_set_self hi] at hgone
      cases hgone
      cases hturn with
      | leave hfree => exact ⟨rfl, hfree, _, hw⟩
    · rw [List.getElem?_set_ne hj] at hgone
      exact absurd hgone hnot

/-- The number of turns that a waiter needs to go on, once the latch is free. -/
def turnsLeft : Waiter → Nat
  | .parked _ => 3
  | .arriving => 2
  | .registered _ => 1
  | .gone => 0

theorem turnsLeft_le (w : Waiter) : turnsLeft w ≤ 3 := by
  cases w <;> simp [turnsLeft]

/-- By its own turns alone, as many as are given, a waiter goes on. -/
def GoesOn (l : Latch) (i turns : Nat) : Prop :=
  ∃ l', l.run (List.replicate turns (.turn i)) = some l' ∧ l'.waiters[i]? = some .gone

theorem GoesOn.turn (hi : l.waiters[i]? = some w) (hturn : w.turn l.held = some w') {n : Nat}
    (h : GoesOn { l with waiters := l.waiters.set i w' } i n) : GoesOn l i (n + 1) := by
  obtain ⟨l', hrun, hgone⟩ := h
  have hstep : l.step (.turn i) = some { l with waiters := l.waiters.set i w' } := by
    simp [step, hi, hturn]
  refine ⟨l', ?_, hgone⟩
  rw [List.replicate_succ, run, hstep]
  exact hrun

/-- While the latch is free, somebody who need not be called any more goes on by its own turns. -/
theorem goesOn_of_free (hfree : l.held = false) (hi : l.waiters[i]? = some w)
    (hawake : w ≠ .parked false) : GoesOn l i (turnsLeft w) := by
  have hregistered : ∀ {l : Latch} {called : Bool}, l.held = false →
      l.waiters[i]? = some (.registered called) → GoesOn l i 1 := by
    intro l called hfree hi
    have hlt : i < l.waiters.length := (List.getElem?_eq_some_iff.1 hi).1
    have hturn : (Waiter.registered called).turn l.held = some .gone := by
      rw [hfree]
      rfl
    exact GoesOn.turn hi hturn ⟨_, rfl, List.getElem?_set_self hlt⟩
  have harriving : ∀ {l : Latch}, l.held = false → l.waiters[i]? = some .arriving →
      GoesOn l i 2 := by
    intro l hfree hi
    have hlt : i < l.waiters.length := (List.getElem?_eq_some_iff.1 hi).1
    exact GoesOn.turn hi rfl (hregistered hfree (List.getElem?_set_self hlt))
  cases w with
  | gone => exact ⟨l, rfl, hi⟩
  | registered called => exact hregistered hfree hi
  | arriving => exact harriving hfree hi
  | parked called =>
    cases called with
    | false => exact absurd rfl hawake
    | true =>
      have hlt : i < l.waiters.length := (List.getElem?_eq_some_iff.1 hi).1
      exact GoesOn.turn hi rfl (harriving hfree (List.getElem?_set_self hlt))

/-- At any time, if the latch is free and everybody who freed it has called, nobody is parked who
was not called, and every waiter goes on by at most three turns of its own; and whoever goes on does
so in a turn in which it found the latch free. -/
theorem nobody_missed_of_run (h : initial.run events = some l) :
    (l.held = false → events.count .free = events.count .call →
      .parked false ∉ l.waiters ∧ ∀ i < l.waiters.length, ∃ turns ≤ 3, GoesOn l i turns) ∧
    ∀ e l', l.step e = some l' → ∀ i, l'.waiters[i]? = some .gone → l.waiters[i]? ≠ some .gone →
      e = .turn i ∧ l.held = false ∧ ∃ called, l.waiters[i]? = some (.registered called) := by
  have hattentive := attentive_initial.run h
  rw [List.nil_append] at hattentive
  refine ⟨?_, ?_⟩
  · intro hfree hcalled
    have hcallers := hattentive.callers
    have hnobody : .parked false ∉ l.waiters := by
      intro hparked
      rcases hattentive.parked hparked with hheld | hsome
      · rw [hfree] at hheld
        cases hheld
      · omega
    refine ⟨hnobody, fun i hi => ?_⟩
    have hawake : l.waiters[i] ≠ .parked false := fun heq => hnobody (heq ▸ List.getElem_mem hi)
    exact ⟨_, turnsLeft_le _, goesOn_of_free hfree (List.getElem?_eq_getElem hi) hawake⟩
  · intro e l' hstep i hgone hnot
    exact (happens_of_step hstep).goes hgone hnot

/-- A pass takes the latch, somebody comes to wait and parks, the pass frees the latch and calls,
and the waiter registers once more. -/
def callAfterParking : List Event :=
  [.take, .arrive, .turn 0, .turn 0, .free, .call, .turn 0, .turn 0]

/-- The waiter was called, and goes on in its next turn, in which it finds the latch free. -/
theorem nobody_missed_callAfterParking : ∃ l l' called, initial.run callAfterParking = some l ∧
    callAfterParking.count .free = callAfterParking.count .call ∧ .parked false ∉ l.waiters ∧
    (∃ turns ≤ 3, GoesOn l 0 turns) ∧ l.step (.turn 0) = some l' ∧
    l'.waiters[0]? = some .gone ∧ l.held = false ∧ l.waiters[0]? = some (.registered called) := by
  obtain ⟨hmissed, hgoes⟩ :=
    @nobody_missed_of_run ⟨false, 0, [.registered false]⟩ callAfterParking rfl
  obtain ⟨hnobody, hturns⟩ := hmissed rfl rfl
  obtain ⟨-, hfree, called, hcalled⟩ := hgoes (.turn 0) ⟨false, 0, [.gone]⟩ rfl 0 rfl (by decide)
  exact ⟨_, _, called, rfl, rfl, hnobody, hturns 0 (Nat.succ_pos 0), rfl, rfl, hfree, hcalled⟩

end Latch

end Matchmaking
