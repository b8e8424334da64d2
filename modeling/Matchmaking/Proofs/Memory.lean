import Mathlib.Logic.Relation
import Matchmaking.Proofs.Mirrors
import Matchmaking.Round

/-!
# What a pass remembers

An answer about a pair is remembered under the two names, whichever was named first. A pass asks
only about tickets that it sees, so a pair of names stands for a pair of tickets, and what it
remembers is what it would be answered if it asked anew. Main statement: `compatible_fst` says what
a pass is answered, whatever it has asked before.
-/

namespace Matchmaking

theorem suitEachOther_comm (s : Shelf) (a b : Pooled) :
    suitEachOther s a b = suitEachOther s b a :=
  Bool.and_comm _ _

namespace TwoWay

/-- Two pairs with the same smaller and the same greater name are the same pair. -/
theorem same_pair {a b c d : String} (hl : lower a b = lower c d) (hu : upper a b = upper c d) :
    (a = c ∧ b = d) ∨ (a = d ∧ b = c) := by
  unfold lower at hl
  unfold upper at hu
  by_cases hab : a ≤ b
  · by_cases hcd : c ≤ d
    · rw [if_pos hab, if_pos hcd] at hl hu
      exact Or.inl ⟨hl, hu⟩
    · rw [if_pos hab, if_neg hcd] at hl hu
      exact Or.inr ⟨hl, hu⟩
  · by_cases hcd : c ≤ d
    · rw [if_neg hab, if_pos hcd] at hl hu
      exact Or.inr ⟨hu, hl⟩
    · rw [if_neg hab, if_neg hcd] at hl hu
      exact Or.inl ⟨hu, hl⟩

theorem find?_store (m : TwoWay) (a b c d : String) (x : Bool) :
    (m.store a b x).find? c d =
      if lower c d = lower a b ∧ upper c d = upper a b then some x else m.find? c d := by
  unfold find? store
  simp only [Table.get?_insert]
  by_cases hl : lower c d = lower a b
  · rw [if_pos hl, Option.bind_some, Table.get?_insert, hl]
    by_cases hu : upper c d = upper a b
    · rw [if_pos hu, if_pos ⟨rfl, hu⟩]
    · rw [if_neg hu, if_neg fun h => hu h.2]
      cases m.answers.get? (lower a b) <;> simp
  · rw [if_neg hl, if_neg fun h => hl h.1]

end TwoWay

namespace Round

variable {r r' : Round} {a b : Pooled}

/-! ## What a pass sees -/

/-- A ticket waits under its own name among those that a pass sees. -/
def Sees (r : Round) (p : Pooled) : Prop := r.tickets.tickets.get? p.id = some p

theorem Sees.eq_of_id (ha : r.Sees a) (hb : r.Sees b) (h : a.id = b.id) : a = b := by
  unfold Sees at ha hb
  rw [h, hb] at ha
  exact (Option.some.inj ha).symm

theorem mem_order_iff {o : Pooled × Bool} :
    o ∈ r.order ↔ o.1 ∈ r.tickets.tickets.values ∧ o.2 = r.tickets.isActive o.1.id := by
  unfold order Snapshot.processingOrder
  rw [(List.mergeSort_perm _ _).mem_iff, List.mem_map]
  constructor
  · rintro ⟨p, hp, rfl⟩
    exact ⟨hp, rfl⟩
  · rintro ⟨hp, hactive⟩
    exact ⟨o.1, hp, by rw [← hactive]⟩

/-- All tickets whose turn comes are seen. -/
theorem sees_of_mem_order (hr : Clear r.shelf.cards r.tickets.tickets) :
    ∀ o ∈ r.order, r.Sees o.1 := by
  intro o ho
  obtain ⟨id, hid⟩ := Table.mem_values_iff.1 (mem_order_iff.1 ho).1
  unfold Sees
  rw [hr.keyed id o.1 hid]
  exact hid

/-- Each ticket has one turn. -/
theorem nodup_order (hr : Clear r.shelf.cards r.tickets.tickets) :
    (r.order.map fun o => o.1.id).Nodup := by
  have hperm : (r.order.map fun o => o.1.id).Perm r.tickets.tickets.keys := by
    rw [← map_id_values hr.keyed]
    refine ((List.mergeSort_perm _ _).map _).trans ?_
    rw [List.map_map]
    rfl
  exact hperm.nodup_iff.2 r.tickets.tickets.nodup_keys

/-- What a pass remembers of two tickets that it sees is whether they suit each other. -/
def Recalls (r : Round) : Prop :=
  ∀ a b, r.Sees a → r.Sees b → ∀ x, r.twoWay.find? a.id b.id = some x →
    x = suitEachOther r.shelf a b

theorem check_fst (hr : r.Recalls) (ha : r.Sees a) (hb : r.Sees b) :
    (r.twoWay.check r.shelf a b).1 = suitEachOther r.shelf a b := by
  unfold TwoWay.check
  cases hfind : r.twoWay.find? a.id b.id with
  | some x => exact hr a b ha hb x hfind
  | none => rfl

theorem recalls_check (hr : r.Recalls) (ha : r.Sees a) (hb : r.Sees b) :
    { r with twoWay := (r.twoWay.check r.shelf a b).2 }.Recalls := by
  unfold TwoWay.check
  cases hfind : r.twoWay.find? a.id b.id with
  | some x => exact hr
  | none =>
    intro c d hc hd x hx
    have hc' : r.Sees c := hc
    have hd' : r.Sees d := hd
    rw [TwoWay.find?_store] at hx
    split at hx
    · rename_i hpair
      have hx := Option.some.inj hx
      rw [← hx]
      -- both tickets are the ones that were asked about, in this order or in the other one
      rcases TwoWay.same_pair hpair.1 hpair.2 with ⟨hca, hdb⟩ | ⟨hcb, hda⟩
      · rw [hc'.eq_of_id ha hca, hd'.eq_of_id hb hdb]
      · rw [hc'.eq_of_id hb hcb, hd'.eq_of_id ha hda]
        exact suitEachOther_comm r.shelf a b
    · exact hr c d hc' hd' x hx

/-- A pass that does not insist lets every pair be together; one that insists, those who suit each
other. -/
theorem compatible_fst (hr : r.Recalls) (ha : r.Sees a) (hb : r.Sees b) :
    (r.compatible a b).1 = (!r.precision.isOpen r.asked || suitEachOther r.shelf a b) := by
  unfold compatible
  cases hopen : r.precision.isOpen r.asked with
  | false => rfl
  | true => simpa using check_fst hr ha hb

theorem recalls_compatible (hr : r.Recalls) (ha : r.Sees a) (hb : r.Sees b) :
    (r.compatible a b).2.Recalls := by
  unfold compatible
  cases hopen : r.precision.isOpen r.asked with
  | false => exact hr
  | true => exact recalls_check hr ha hb

theorem asked_compatible (r : Round) (a b : Pooled) :
    (r.compatible a b).2.asked = r.asked + 1 := by
  unfold compatible
  cases r.precision.isOpen r.asked <;> rfl

end Round

end Matchmaking
