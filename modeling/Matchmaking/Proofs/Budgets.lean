import Mathlib.Tactic.SplitIfs
import Matchmaking.Proofs.Companions
import Matchmaking.Proofs.Words

/-!
# Memory for writing

The settings give the memory for writing in mebibytes, and no rule bounds it. Whoever opens the
catalog counts it in bytes, by two products of words. Too little and too much memory is refused with
an answer, but from 2 ^ 44 mebibytes on the products leave the words, and instead of an answer there
is a breakdown (`Service.create_of_valid`).
-/

namespace Matchmaking

open Machine

/-! ## The memory of a writer -/

/-- The bytes of some mebibytes, by two products of words. -/
def budget? (memoryMb : Nat) : Option Nat := do
  let kibibytes ← mul? memoryMb 1024
  mul? kibibytes 1024

theorem budget?_eq_some {memoryMb : Nat} (h : memoryMb < 2 ^ 44) :
    budget? memoryMb = some (memoryMb * 1024 * 1024) := by
  have hkibibytes : mul? memoryMb 1024 = some (memoryMb * 1024) := mul?_eq (by omega)
  rw [budget?, hkibibytes]
  exact mul?_eq (by omega)

theorem budget?_eq_none {memoryMb : Nat} (h : 2 ^ 44 ≤ memoryMb) : budget? memoryMb = none := by
  rw [budget?]
  by_cases hkibibytes : memoryMb * 1024 < 2 ^ 64
  · rw [mul?_eq hkibibytes]
    exact mul?_eq_none (by omega)
  · rw [mul?_eq_none (Nat.not_lt.1 hkibibytes)]
    rfl

theorem budget?_eq_none_iff (memoryMb : Nat) : budget? memoryMb = none ↔ 2 ^ 44 ≤ memoryMb := by
  constructor
  · intro hnone
    by_contra hlt
    rw [budget?_eq_some (Nat.not_le.1 hlt)] at hnone
    cases hnone
  · exact budget?_eq_none

theorem memoryPerWriter_of_large {bytes : Nat} (h : leastWriterMemory ≤ bytes / maxWriters) :
    memoryPerWriter bytes = bytes / maxWriters := if_pos h

/-- If the memory suffices for at most eight writers it is divided among as many as it suffices
for. -/
theorem memoryPerWriter_of_small {bytes : Nat} (h : bytes / maxWriters < leastWriterMemory) :
    memoryPerWriter bytes ≤ bytes ∧
      (leastWriterMemory ≤ bytes → leastWriterMemory ≤ memoryPerWriter bytes) := by
  rw [memoryPerWriter, if_neg (Nat.not_le.2 h)]
  refine ⟨Nat.div_le_self _ _, fun hleast => ?_⟩
  have hpos : 0 < bytes / leastWriterMemory := Nat.div_pos hleast (by decide)
  rw [Nat.max_eq_right hpos, Nat.le_div_iff_mul_le hpos]
  exact Nat.mul_div_le bytes leastWriterMemory

namespace Catalog

variable {memoryMb : Nat}

theorem create_of_little (h : memoryMb < 15) :
    create memoryMb = .error (memoryFault "needs to be at least 15000000.") := by
  have hsmall : memoryMb * 1048576 / maxWriters < leastWriterMemory := by
    unfold maxWriters leastWriterMemory
    omega
  have hper := (memoryPerWriter_of_small hsmall).1
  have hshort : memoryPerWriter (memoryMb * 1048576) < leastWriterMemory := by
    unfold leastWriterMemory
    omega
  have hfits : ¬ Nat.pow 2 64 ≤ memoryMb * 1048576 := by
    show ¬ 2 ^ 64 ≤ memoryMb * 1048576
    omega
  unfold create
  rw [if_neg hfits, if_pos hshort]
  rfl

theorem create_of_enough (hleast : 15 ≤ memoryMb) (hmost : memoryMb ≤ 32760) :
    create memoryMb = .ok .empty := by
  have hfits : ¬ Nat.pow 2 64 ≤ memoryMb * 1048576 := by
    show ¬ 2 ^ 64 ≤ memoryMb * 1048576
    omega
  have hbounds : leastWriterMemory ≤ memoryPerWriter (memoryMb * 1048576) ∧
      memoryPerWriter (memoryMb * 1048576) < greatestWriterMemory := by
    by_cases hlarge : leastWriterMemory ≤ memoryMb * 1048576 / maxWriters
    · rw [memoryPerWriter_of_large hlarge]
      refine ⟨hlarge, ?_⟩
      unfold maxWriters greatestWriterMemory
      omega
    · have hsmall := Nat.lt_of_not_le hlarge
      obtain ⟨hper, hsuffices⟩ := memoryPerWriter_of_small hsmall
      unfold maxWriters leastWriterMemory at hsmall
      refine ⟨hsuffices ?_, ?_⟩
      · unfold leastWriterMemory
        omega
      · unfold greatestWriterMemory
        omega
  unfold create
  rw [if_neg hfits, if_neg (Nat.not_lt.2 hbounds.1), if_neg (Nat.not_le.2 hbounds.2)]

theorem create_of_much (hmuch : 32760 < memoryMb) (hsafe : memoryMb < 2 ^ 44) :
    create memoryMb = .error (memoryFault "cannot exceed 4293967295") := by
  have hfits : ¬ Nat.pow 2 64 ≤ memoryMb * 1048576 := by
    show ¬ 2 ^ 64 ≤ memoryMb * 1048576
    omega
  have hlarge : greatestWriterMemory ≤ memoryMb * 1048576 / maxWriters := by
    unfold greatestWriterMemory maxWriters
    omega
  have hleast : leastWriterMemory ≤ memoryMb * 1048576 / maxWriters :=
    Nat.le_trans (by decide) hlarge
  have hper := memoryPerWriter_of_large hleast
  unfold create
  rw [if_neg hfits, hper, if_neg (Nat.not_lt.2 hleast), if_pos hlarge]
  rfl

theorem create_of_overflow (h : 2 ^ 44 ≤ memoryMb) : create memoryMb = .error .broken := by
  have hoverflow : Nat.pow 2 64 ≤ memoryMb * 1048576 := by
    show 2 ^ 64 ≤ memoryMb * 1048576
    omega
  exact if_pos hoverflow

end Catalog

/-! ## New matchmakers -/

namespace Service

variable {config : Config}

/-- An answer to the wish for a matchmaker: a matchmaker, or the refusal of the memory or of the
query. -/
def Answers : Except ServiceFault Service → Prop
  | .ok _ => True
  | .error (.index (.engine _)) => True
  | .error (.badQuery _) => True
  | .error _ => False

theorem create_of_catalog_error (hvalid : config.validate = .ok ()) {f : IndexFault}
    (hcatalog : Catalog.create config.writerMemoryMb = .error f) (strategy : Strategy)
    (naming : Naming) : create config strategy naming = .error (.index f) := by
  rw [create, hvalid, hcatalog]

/-- With enough memory the query for requests without one decides. -/
theorem create_of_catalog_ok (hvalid : config.validate = .ok ())
    (hcatalog : Catalog.create config.writerMemoryMb = .ok .empty) (strategy : Strategy)
    (naming : Naming) : create config strategy naming =
      match ParsedQuery.parse config.defaultQuery with
      | .ok _ => .ok (empty config strategy naming)
      | .error .bareAsterisk => .error (.index .broken)
      | .error f =>
        .error (.badQuery ("default query: " ++ (IndexFault.badQuery f.message).message)) := by
  rw [create, hvalid, hcatalog, ParsedQuery.read]
  cases ParsedQuery.parse config.defaultQuery with
  | ok q => rfl
  | error f => cases f <;> rfl

/-- Whether a new matchmaker or a refusal is answered to valid settings hangs on two things: the
products have to be words, and if there is enough memory then the query must not break the
parser. -/
theorem create_of_valid (hvalid : config.validate = .ok ()) (strategy : Strategy)
    (naming : Naming) :
    (budget? config.writerMemoryMb = none ↔ 2 ^ 44 ≤ config.writerMemoryMb) ∧
      (budget? config.writerMemoryMb = none →
        create config strategy naming = .error (.index .broken)) ∧
      (Answers (create config strategy naming) ↔
        budget? config.writerMemoryMb ≠ none ∧
          ¬ (15 ≤ config.writerMemoryMb ∧ config.writerMemoryMb ≤ 32760 ∧
            ParsedQuery.parse config.defaultQuery = .error .bareAsterisk)) := by
  have hbudget := budget?_eq_none_iff config.writerMemoryMb
  have hoverflow : budget? config.writerMemoryMb = none →
      create config strategy naming = .error (.index .broken) := by
    intro h
    exact create_of_catalog_error hvalid (Catalog.create_of_overflow (hbudget.1 h)) strategy naming
  refine ⟨hbudget, hoverflow, ?_⟩
  by_cases hwords : budget? config.writerMemoryMb = none
  · rw [hoverflow hwords]
    exact iff_of_false id fun h => h.1 hwords
  · have hlt : config.writerMemoryMb < 2 ^ 44 := by
      rw [hbudget] at hwords
      exact Nat.not_le.1 hwords
    rcases Nat.lt_or_ge config.writerMemoryMb 15 with hlittle | hleast
    · rw [create_of_catalog_error hvalid (Catalog.create_of_little hlittle)]
      exact iff_of_true trivial ⟨hwords, fun h => absurd h.1 (Nat.not_le.2 hlittle)⟩
    · rcases Nat.lt_or_ge 32760 config.writerMemoryMb with hmuch | hmost
      · rw [create_of_catalog_error hvalid (Catalog.create_of_much hmuch hlt)]
        exact iff_of_true trivial ⟨hwords, fun h => absurd h.2.1 (Nat.not_le.2 hmuch)⟩
      · rw [create_of_catalog_ok hvalid (Catalog.create_of_enough hleast hmost)]
        cases hparse : ParsedQuery.parse config.defaultQuery with
        | ok q => exact iff_of_true trivial ⟨hwords, fun h => by cases h.2.2⟩
        | error f =>
          by_cases hbare : f = .bareAsterisk
          · subst hbare
            exact iff_of_false id fun h => h.2 ⟨hleast, hmost, rfl⟩
          · refine iff_of_true ?_ ⟨hwords, fun h => hbare (Except.error.inj h.2.2)⟩
            cases f with
            | bareAsterisk => exact absurd rfl hbare
            | _ => trivial

theorem create_of_valid_standard : (({} : Config).validate = .ok ()) ∧
    Answers (create {} .greedy strokes) := by
  have hvalid : ({} : Config).validate = .ok () := rfl
  obtain ⟨hbudget, -, hanswers⟩ := create_of_valid hvalid .greedy strokes
  refine ⟨hvalid, hanswers.2 ⟨fun hnone => ?_, fun h => ?_⟩⟩
  · exact absurd (hbudget.1 hnone) (by decide)
  · have hquery : ParsedQuery.parse "*" = .ok ⟨"*", .atom .all⟩ := rfl
    rw [hquery] at h
    cases h.2.2

/-- No rule is broken by 2 ^ 44 mebibytes for writing, and yet there is no answer to them. -/
theorem not_answers_of_overflow : ∃ config : Config, config.validate = .ok () ∧
    budget? config.writerMemoryMb = none ∧
    ∀ strategy naming, ¬ Answers (create config strategy naming) := by
  refine ⟨{ writerMemoryMb := 2 ^ 44 }, rfl, budget?_eq_none (Nat.le_refl _),
    fun strategy naming => ?_⟩
  rw [create_of_catalog_error rfl (Catalog.create_of_overflow (Nat.le_refl _))]
  exact id

end Service

end Matchmaking
