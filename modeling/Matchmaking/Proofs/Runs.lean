import Mathlib.Tactic.SplitIfs
import Matchmaking.Proofs.Admission
import Matchmaking.Proofs.Passes

/-!
# Runs

A run of a matchmaker is a sequence of calls and passes, and the reachable states are those at which
a run can end. Passes do not overlap, but clients call at any time, also during a pass. A pass holds
the roster while it takes its snapshot, while it retires tickets and while it makes others active,
and a call that is made then waits. So calls are carried out in the states between these steps:
while groups are formed, when tickets are retired, and around every hand-over.
-/

namespace Matchmaking

/-- What happens to a matchmaker. -/
inductive Event
  /-- A client calls. -/
  | call (c : Intake)
  /-- A pass is made; some calls are carried out while its groups are formed, and others between the
  steps that follow. -/
  | pass (precision : Precision) (inForming : List Intake) (inSettling : List (List Intake))

/-! ## Valid settings -/

namespace Config

variable {c : Config}

/-- The limits that valid settings keep to. -/
structure Limits (c : Config) : Prop where
  intervals : 0 < c.maxIntervals
  batch : 0 < c.batchSize
  tickets : 0 < c.maxTickets
  candidates : c.maxCustomCandidates ≤ candidateLimit

theorem limits_of_validate (h : c.validate = .ok ()) : c.Limits := by
  have hnone : c.violation? = none := by
    cases hviolation : c.violation? with
    | none => rfl
    | some v =>
      rw [validate, hviolation] at h
      cases h
  unfold violation? at hnone
  split_ifs at hnone with hinterval hintervals hbatch htickets hcandidates
  exact ⟨Nat.pos_of_ne_zero hintervals, Nat.pos_of_ne_zero hbatch, Nat.pos_of_ne_zero htickets,
    Nat.le_of_not_lt hcandidates⟩

/-- Under valid settings no pass breaks down of itself. -/
theorem Limits.inRange (h : c.Limits) : ¬ c.OutOfRange := by
  rintro (hbatch | hmany)
  · exact absurd hbatch (Nat.ne_of_gt h.batch)
  · exact absurd (Nat.le_trans hmany h.candidates) (by decide)

end Config

namespace Service

/-! ## Events -/

/-- The state after an event. -/
def step (s : Service) : Event → Service
  | .call c => (s.perform c).2
  | .pass precision inForming inSettling => (s.process precision inForming inSettling).2

/-- The state after a run. -/
def run (s : Service) (events : List Event) : Service := events.foldl step s

theorem run_append (before after : List Event) (s : Service) :
    s.run (before ++ after) = (s.run before).run after :=
  List.foldl_append

/-- The states at which a run of a new matchmaker can end. -/
inductive Reachable : Service → Prop
  /-- The matchmaker is new. -/
  | created {config : Config} {strategy : Strategy} {naming : Naming} {s : Service}
    (h : create config strategy naming = .ok s) : Reachable s
  /-- One more thing has happened. -/
  | step {s : Service} (h : Reachable s) (e : Event) : Reachable (s.step e)

theorem Reachable.run {s : Service} (h : Reachable s) (events : List Event) :
    Reachable (s.run events) := by
  induction events generalizing s with
  | nil => exact h
  | cons e rest ih => exact ih (h.step e)

/-- The states in which the roster is unlocked, so that calls are carried out. -/
inductive Unlocked : Service → Prop
  /-- No pass is under way. -/
  | idle {s : Service} (h : Reachable s) : Unlocked s
  /-- A pass has begun and forms groups; some calls have been made in the meantime. -/
  | forming {s : Service} (h : Reachable s) (calls : List Intake) :
    Unlocked (performAll calls s.prepare).2
  /-- A pass has retired the tickets of its groups; some calls have been made in the meantime. -/
  | retired {s s₁ : Service} (h : Reachable s) (hready : s.poisoned = false)
    {precision : Precision} {inForming : List Intake} {a : Assembled}
    (ha : s.prepare.assemble precision inForming = (a, s₁)) {groups : List Group}
    (hgroups : a.groups = .ok groups) (calls : List Intake) :
    Unlocked (performAll calls (retire (matchedIds groups) (s₁.resume a))).2
  /-- A group of a pass is handed over; some calls have been made in the meantime. -/
  | handingOver {s : Service} (h : Reachable s) {precision : Precision} {inForming : List Intake}
    {inSettling : List (List Intake)} {x : Handover}
    (hx : x ∈ (s.process precision inForming inSettling).1.dispatched) (calls : List Intake) :
    Unlocked (performAll calls x.seen).2

/-! ## Runs are made of moves -/

theorem catalog_create_eq_ok {memoryMb : Nat} {c : Catalog} (h : Catalog.create memoryMb = .ok c) :
    c = .empty := by
  unfold Catalog.create at h
  simp only at h
  split at h
  · exact absurd h (by simp)
  · split at h
    · exact absurd h (by simp)
    · split at h
      · exact absurd h (by simp)
      · exact (Except.ok.inj h).symm

/-- A new matchmaker has valid settings and no tickets. -/
theorem create_eq_ok {config : Config} {strategy : Strategy} {naming : Naming} {s : Service}
    (h : create config strategy naming = .ok s) :
    s = empty config strategy naming ∧ config.validate = .ok () := by
  -- the causes are taken one by one: splitting the whole definition is slow to check
  cases hvalid : config.validate with
  | error f =>
    rw [create, hvalid] at h
    exact absurd h (by simp)
  | ok u =>
    refine ⟨?_, rfl⟩
    cases hcatalog : Catalog.create config.writerMemoryMb with
    | error f =>
      rw [create, hvalid, hcatalog] at h
      exact absurd h (by simp)
    | ok catalog =>
      cases hquery : ParsedQuery.read config.defaultQuery with
      | error f =>
        rw [create, hvalid, hcatalog, hquery] at h
        cases f <;> exact absurd h (by simp)
      | ok q =>
        rw [create, hvalid, hcatalog, hquery] at h
        rw [← Except.ok.inj h, catalog_create_eq_ok hcatalog]
        rfl

theorem moves_step (s : Service) (e : Event) : Moves s (s.step e) := by
  cases e with
  | call c => exact moves_perform s c
  | pass precision inForming inSettling => exact (moves_process s precision inForming inSettling).1

theorem moves_run (events : List Event) (s : Service) : Moves s (s.run events) := by
  induction events generalizing s with
  | nil => exact .refl
  | cons e rest ih => exact (moves_step s e).trans (ih (s.step e))

/-- What holds of a matchmaker without tickets and is kept by every move holds at every end of a
run. -/
theorem Reachable.keep {P : Service → Prop} (h₀ : ∀ c t n, P (empty c t n))
    (hP : ∀ {s s'}, Move s s' → P s → P s') {s : Service} (h : Reachable s) : P s := by
  induction h with
  | created hcreate =>
    rw [(create_eq_ok hcreate).1]
    exact h₀ _ _ _
  | step _ e ih => exact (moves_step _ e).keep hP ih

theorem Reachable.limits {s : Service} (h : Reachable s) : s.config.Limits := by
  induction h with
  | created hcreate =>
    obtain ⟨rfl, hvalid⟩ := create_eq_ok hcreate
    exact Config.limits_of_validate hvalid
  | step _ e ih => rwa [(moves_step _ e).config]

/-- A state in which the roster is unlocked comes of a reachable one by moves. -/
theorem Unlocked.moves {s : Service} (h : Unlocked s) : ∃ s₀, Reachable s₀ ∧ Moves s₀ s := by
  cases h with
  | idle h => exact ⟨s, h, .refl⟩
  | @forming s₀ h calls =>
    exact ⟨s₀, h, (alike_prepare s₀).moves.trans (moves_performAll calls s₀.prepare)⟩
  | @retired s₀ s₁ h hready precision inForming a ha groups hgroups calls =>
    have hretired := (moves_resume ha).trans (moves_retire (matchedIds groups) (s₁.resume a))
    exact ⟨s₀, h, hretired.trans (moves_performAll calls _)⟩
  | @handingOver s₀ h precision inForming inSettling x hx calls =>
    have hseen := (moves_process s₀ precision inForming inSettling).2 x hx
    exact ⟨s₀, h, hseen.trans (moves_performAll calls x.seen)⟩

/-- What holds at every end of a run and is kept by every move holds whenever the roster is
unlocked. -/
theorem Unlocked.keep {P : Service → Prop} (h₀ : ∀ c t n, P (empty c t n))
    (hP : ∀ {s s'}, Move s s' → P s → P s') {s : Service} (h : Unlocked s) : P s := by
  obtain ⟨s₀, hs₀, hmoves⟩ := h.moves
  exact hmoves.keep hP (hs₀.keep h₀ hP)

/-! ## Two users who ask for a pair -/

/-- Names that consist of so many strokes. -/
def strokes : Naming where
  ticket n := String.ofList (List.replicate (n + 1) 'I')
  group n := String.ofList (List.replicate (n + 1) 'I')

theorem strokes_injective : Function.Injective strokes.ticket := by
  intro m n h
  have hlength := congrArg List.length (String.ofList_injective h)
  rw [List.length_replicate, List.length_replicate] at hlength
  omega

/-- Two users each ask for a group of two. -/
def pairCalls : List Intake :=
  [.submit none (.solo "s" "u" "*" 2 2 1), .submit none (.solo "t" "v" "*" 2 2 1)]

/-- A matchmaker at which the two wait. -/
def pairWaiting : Service := (empty {} .greedy strokes).run (pairCalls.map .call)

theorem create_standard (strategy : Strategy) (naming : Naming) :
    create {} strategy naming = .ok (empty {} strategy naming) := by
  have hquery : ∃ q, ParsedQuery.read ({} : Config).defaultQuery = .ok q := by
    cases h : ParsedQuery.read ({} : Config).defaultQuery with
    | ok q => exact ⟨q, rfl⟩
    | error f =>
      have hok : (ParsedQuery.read ({} : Config).defaultQuery).isOk = true := by decide +kernel
      rw [h] at hok
      cases hok
  obtain ⟨q, hq⟩ := hquery
  have hvalid : ({} : Config).validate = .ok () := rfl
  have hcatalog : Catalog.create ({} : Config).writerMemoryMb = .ok .empty := rfl
  rw [create, hvalid, hcatalog, hq]
  rfl

theorem reachable_pairWaiting : Reachable pairWaiting :=
  (Reachable.created (create_standard .greedy strokes)).run (pairCalls.map .call)

end Service

end Matchmaking
