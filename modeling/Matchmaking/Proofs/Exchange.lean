import Matchmaking.Proofs.Passes

/-!
# A matchmaker with another strategy

The strategy of a matchmaker matters only when groups are formed: whatever clients ask for, and
whatever happens to tickets and cards, it plays no part. So if two strategies form the same groups
of what a pass sees, two matchmakers that differ in nothing else go through the pass in the same
way. Main statement: `process_withStrategy`.
-/

namespace Matchmaking

/-- The same matchmaker with another strategy. -/
def Service.withStrategy (s : Service) (t : Strategy) : Service := { s with strategy := t }

/-- The same pass as seen of a matchmaker with another strategy. -/
def Pass.withStrategy (p : Pass) (t : Strategy) : Pass :=
  { p with dispatched := p.dispatched.map fun h => ⟨h.group, h.seen.withStrategy t⟩ }

namespace Service

variable {s : Service} {t : Strategy}

/-! ## Calls -/

theorem withdrawAll_withStrategy (ids : List String) (s : Service) :
    (s.withStrategy t).withdrawAll ids = (s.withdrawAll ids).withStrategy t := by
  induction ids generalizing s with
  | nil => rfl
  | cons id rest ih => exact ih (s.withdraw id)

theorem withdrawIf_withStrategy (s : Service) (owned : Pooled → Bool) (id : String) :
    withdrawalReply ((s.withStrategy t).withdrawIf owned id) =
      ((withdrawalReply (s.withdrawIf owned id)).1,
        (withdrawalReply (s.withdrawIf owned id)).2.withStrategy t) := by
  unfold withdrawIf
  rw [show (s.withStrategy t).roster = s.roster from rfl]
  split <;> rfl

theorem perform_withStrategy (s : Service) (call : Intake) :
    (s.withStrategy t).perform call =
      ((s.perform call).1, (s.perform call).2.withStrategy t) := by
  cases call with
  | submit at? r =>
    have hjudge : ({ s.withStrategy t with clock := s.clock.advance at? } : Service).judge
        (s.clock.advance at?).now r =
          ({ s with clock := s.clock.advance at? } : Service).judge (s.clock.advance at?).now r :=
      rfl
    rw [perform, perform, submit, submit, show (s.withStrategy t).clock = s.clock from rfl, hjudge]
    cases ({ s with clock := s.clock.advance at? } : Service).judge (s.clock.advance at?).now r with
    | error f => rfl
    | ok p => rfl
  | wait at? => rfl
  | cancel session user id => exact withdrawIf_withStrategy s _ id
  | removeParty party id => exact withdrawIf_withStrategy s _ id
  | removeSessionAll session =>
    exact Prod.ext rfl (withdrawAll_withStrategy (s.roster.ofSession session) s)
  | removePartyAll party =>
    exact Prod.ext rfl (withdrawAll_withStrategy (s.roster.ofParty party) s)
  | ticket id => rfl
  | isActive id => rfl
  | stats => rfl

theorem performAll_withStrategy (calls : List Intake) (s : Service) :
    performAll calls (s.withStrategy t) =
      ((performAll calls s).1, (performAll calls s).2.withStrategy t) := by
  induction calls generalizing s with
  | nil => rfl
  | cons call rest ih => simp only [performAll, perform_withStrategy, ih]

/-! ## The parts of a pass -/

theorem promoteAll_withStrategy (ids : List String) (s : Service) :
    promoteAll ids (s.withStrategy t) =
      ((promoteAll ids s).1, (promoteAll ids s).2.withStrategy t) := by
  induction ids generalizing s with
  | nil => rfl
  | cons id rest ih =>
    have hnext := ih { s with roster := s.roster.promote id }
    simp only [promoteAll]
    rw [show ({ s.withStrategy t with roster := (s.withStrategy t).roster.promote id } : Service) =
      ({ s with roster := s.roster.promote id } : Service).withStrategy t from rfl, hnext]
    rfl

theorem retire_withStrategy (ids : List String) (s : Service) :
    retire ids (s.withStrategy t) = (retire ids s).withStrategy t := by
  unfold retire
  split <;> rfl

theorem handOver_withStrategy (groups : List Group) (calls : List (List Intake)) (s : Service) :
    handOver groups calls (s.withStrategy t) =
      (((handOver groups calls s).1.1.map fun h => ⟨h.group, h.seen.withStrategy t⟩,
        (handOver groups calls s).1.2), (handOver groups calls s).2.withStrategy t) := by
  induction groups generalizing calls s with
  | nil => simp only [handOver, performAll_withStrategy, List.map_nil]
  | cons g rest ih => simp only [handOver, performAll_withStrategy, ih, List.map_cons]

theorem conclude_withStrategy (a : Assembled) (groups : List Group) (poolSize activeSize : Nat)
    (inSettling : List (List Intake)) (s : Service) :
    conclude a groups poolSize activeSize inSettling (s.withStrategy t) =
      ((conclude a groups poolSize activeSize inSettling s).1.withStrategy t,
        (conclude a groups poolSize activeSize inSettling s).2.withStrategy t) := by
  simp only [conclude, retire_withStrategy, performAll_withStrategy, promoteAll_withStrategy,
    handOver_withStrategy]
  rfl

/-! ## Passes -/

variable {selector selector' : Selector}

theorem assemble_withStrategy (hselected : s.strategy = .selected selector) (precision : Precision)
    (hsame : Exhaustive.assemble selector' s.asked (s.round precision) =
      Exhaustive.assemble selector s.asked (s.round precision)) (inForming : List Intake) :
    (s.withStrategy (.selected selector')).assemble precision inForming =
      ((s.assemble precision inForming).1,
        (s.assemble precision inForming).2.withStrategy (.selected selector')) := by
  have hround : (s.withStrategy (.selected selector')).round precision = s.round precision := rfl
  have hstrategy : (s.withStrategy (.selected selector')).strategy = .selected selector' := rfl
  have hasked : (s.withStrategy (.selected selector')).asked = s.asked := rfl
  unfold assemble
  rw [hselected, hstrategy, hround, hasked, performAll_withStrategy]
  unfold Exhaustive.assemble at hsame
  simp only at hsame ⊢
  cases hbreakdown : (Exhaustive.propose (s.round precision)).2.breakdown with
  | some message => rfl
  | none =>
    rw [hbreakdown] at hsame
    simp only at hsame ⊢
    split
    · rfl
    · rw [hsame]
      rfl

/-- If another selector comes to the same groups of what a pass sees, the whole pass is the same. -/
theorem process_withStrategy (hselected : s.strategy = .selected selector) (precision : Precision)
    (hsame : Exhaustive.assemble selector' s.asked (s.prepare.round precision) =
      Exhaustive.assemble selector s.asked (s.prepare.round precision)) (inForming : List Intake)
    (inSettling : List (List Intake)) :
    (s.withStrategy (.selected selector')).process precision inForming inSettling =
      ((s.process precision inForming inSettling).1.withStrategy (.selected selector'),
        (s.process precision inForming inSettling).2.withStrategy (.selected selector')) := by
  have hprepared : (s.withStrategy (.selected selector')).prepare =
      s.prepare.withStrategy (.selected selector') := rfl
  have hassemble := @assemble_withStrategy s.prepare selector selector' hselected precision hsame
    inForming
  have hpoisoned : (s.withStrategy (.selected selector')).poisoned = s.poisoned := rfl
  have hroster : (s.prepare.withStrategy (.selected selector')).roster = s.prepare.roster := rfl
  unfold process
  rw [hprepared, hpoisoned]
  split
  · rfl
  · unfold formGroups
    simp only [hroster, hassemble]
    split
    · rfl
    · generalize s.prepare.assemble precision inForming = assembled
      obtain ⟨a, s₁⟩ := assembled
      simp only
      have hcounted : (s₁.withStrategy (.selected selector')).resume a =
          (s₁.resume a).withStrategy (.selected selector') := rfl
      rw [hcounted]
      cases a.groups with
      | ok groups => exact conclude_withStrategy a groups _ _ inSettling _
      | error setback =>
        cases setback with
        | crashed message => rfl
        | refused message =>
          simp only [promoteAll_withStrategy]
          rfl

end Service

end Matchmaking
