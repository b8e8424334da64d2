import Matchmaking.Proofs.Passes
import Matchmaking.Proofs.Roster

/-!
# What a selector is offered

What a pass with a selector leaves behind hangs on whether anything was found, for otherwise the
selector is not asked. It is offered all combinations that were found, and only these.
-/

namespace Matchmaking

namespace Service

theorem promoteAll_snd (ids : List String) (s : Service) :
    (promoteAll ids s).2 = { s with roster := ids.foldl Roster.promote s.roster } := by
  induction ids generalizing s with
  | nil => rfl
  | cons id rest ih => exact ih { s with roster := s.roster.promote id }

theorem get?_promoteAll (ids : List String) (s : Service) (id : String) :
    (promoteAll ids s).2.roster.get? id = s.roster.get? id := by
  rw [promoteAll_snd]
  exact Roster.get?_foldl_promote ids s.roster id

end Service

/-! ## Asking a selector -/

namespace Exhaustive

variable {f : Found} {ask : List Proposal → Verdict} {r : Round}

theorem settle_of_ok (hf : f.isEmpty = false) {choices : List Proposal}
    (h : ask f.offers = .ok choices) :
    settle f ask r = (.ok (formChosen f choices r).1, (formChosen f choices r).2) := by
  rw [settle, hf, if_neg Bool.false_ne_true, h]

end Exhaustive

namespace Service

open Exhaustive (propose settle)

variable {s : Service} {selector : Selector} {precision : Precision} {inForming : List Intake}

/-- If nothing was found, the selector is not asked. -/
theorem assemble_of_nothing (h : s.strategy = .selected selector)
    (hunbroken : (propose (s.round precision)).2.breakdown = none)
    (hfound : (propose (s.round precision)).1.isEmpty = true) :
    s.assemble precision inForming =
      (⟨.ok [], none, (performAll inForming s).1, (propose (s.round precision)).2⟩,
        (performAll inForming s).2) := by
  unfold assemble
  rw [h]
  simp only [hunbroken, hfound, if_pos]

/-- If something was found, the selector is asked about it. -/
theorem assemble_of_found (h : s.strategy = .selected selector)
    (hunbroken : (propose (s.round precision)).2.breakdown = none)
    (hfound : (propose (s.round precision)).1.isEmpty = false) :
    s.assemble precision inForming =
      let settled := settle (propose (s.round precision)).1 (selector s.asked)
        (propose (s.round precision)).2
      (⟨settled.1, some (propose (s.round precision)).1.offers, (performAll inForming s).1,
        settled.2⟩,
        { (performAll inForming s).2 with asked := s.asked + 1 }) := by
  unfold assemble
  rw [h]
  simp only [hunbroken, hfound, Bool.false_eq_true, if_false]

theorem assemble_of_broken (h : s.strategy = .selected selector) {message : String}
    (hbroken : (propose (s.round precision)).2.breakdown = some message) :
    s.assemble precision inForming =
      (⟨.error (.crashed message), none, (performAll inForming s).1, s.round precision⟩,
        (performAll inForming s).2) := by
  unfold assemble
  rw [h]
  simp only [hbroken]

theorem offered_assemble_iff (h : s.strategy = .selected selector) {offers : List Proposal} :
    (s.assemble precision inForming).1.offered = some offers ↔
      (propose (s.round precision)).2.breakdown = none ∧
        (propose (s.round precision)).1.isEmpty = false ∧
          offers = (propose (s.round precision)).1.offers := by
  cases hbreakdown : (propose (s.round precision)).2.breakdown with
  | some message =>
    rw [assemble_of_broken h hbreakdown]
    simp
  | none =>
    cases hfound : (propose (s.round precision)).1.isEmpty with
    | true =>
      rw [assemble_of_nothing h hbreakdown hfound]
      simp
    | false =>
      rw [assemble_of_found h hbreakdown hfound]
      simp [eq_comm]

/-- A pass asks its selector exactly if it is made, does not break down and something was found, and
about this. -/
theorem offered_process_iff (h : s.strategy = .selected selector)
    {inSettling : List (List Intake)} {offers : List Proposal} :
    (s.process precision inForming inSettling).1.offered = some offers ↔
      s.poisoned = false ∧ (propose (s.prepare.round precision)).2.breakdown = none ∧
        (propose (s.prepare.round precision)).1.isEmpty = false ∧
          offers = (propose (s.prepare.round precision)).1.offers := by
  have hprepared : s.prepare.strategy = .selected selector := h
  have hassembled := @offered_assemble_iff s.prepare selector precision inForming hprepared offers
  have hends := ends_process s precision inForming inSettling
  generalize s.process precision inForming inSettling = result at hends ⊢
  cases hends with
  | poisoned hpoisoned => simp [hpoisoned]
  | idle hready hempty =>
    have horder : (s.prepare.round precision).order = [] := order_eq_nil hempty
    have hnothing : (propose (s.prepare.round precision)).1.isEmpty = true := by
      rw [propose, horder]
      rfl
    simp [hnothing]
  | formed hready hsome ha hgroups =>
    rw [← hassembled, ha]
    simp [hready, conclude]
  | refused hready hsome ha hgroups =>
    rw [← hassembled, ha]
    simp [hready]
  | crashed hready hsome ha hgroups =>
    rw [← hassembled, ha]
    simp [hready]

end Service

end Matchmaking
