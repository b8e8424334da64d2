import Mathlib.Algebra.GroupWithZero.Nat
import Mathlib.Data.Finset.Card
import Mathlib.Data.Sym.Sym2
import Matchmaking.Proofs.Answers
import Matchmaking.Proofs.Memory

/-!
# Answers from memory

A memory is asked about pairs of tickets, one after the other. If no name stands for two tickets,
every answer is what the catalog says about the pair, whatever was asked before and whichever of the
two was named first, and one answer is remembered for each unordered pair. Main statement:
`checkAll_of_distinct`.
-/

namespace Matchmaking

namespace TwoWay

variable {s : Shelf} {m : TwoWay} {asked calls : List (Pooled × Pooled)} {c : Pooled × Pooled}

/-! ## Pairs -/

theorem ends_comm (a b : String) : lower a b = lower b a ∧ upper a b = upper b a := by
  unfold lower upper
  by_cases hab : a ≤ b
  · by_cases hba : b ≤ a
    · rw [String.le_antisymm hab hba]
      exact ⟨rfl, rfl⟩
    · rw [if_pos hab, if_pos hab, if_neg hba, if_neg hba]
      exact ⟨rfl, rfl⟩
  · have hba : b ≤ a := (String.le_total a b).resolve_left hab
    rw [if_neg hab, if_neg hab, if_pos hba, if_pos hba]
    exact ⟨rfl, rfl⟩

theorem same_pair_iff {a b c d : String} :
    lower a b = lower c d ∧ upper a b = upper c d ↔ s(a, b) = s(c, d) := by
  rw [Sym2.eq_iff]
  constructor
  · rintro ⟨hl, hu⟩
    exact same_pair hl hu
  · rintro (⟨rfl, rfl⟩ | ⟨rfl, rfl⟩)
    · exact ⟨rfl, rfl⟩
    · exact ends_comm a b

theorem find?_congr {a b c d : String} (h : s(a, b) = s(c, d)) (m : TwoWay) :
    m.find? a b = m.find? c d := by
  obtain ⟨hl, hu⟩ := same_pair_iff.2 h
  unfold find?
  rw [hl, hu]

theorem check_comm (m : TwoWay) (s : Shelf) (a b : Pooled) : m.check s a b = m.check s b a := by
  unfold check store
  obtain ⟨hlower, hupper⟩ := ends_comm a.id b.id
  rw [find?_congr Sym2.eq_swap, suitEachOther_comm, hlower, hupper]

/-! ## The number of answers -/

theorem find?_empty (a b : String) : empty.find? a b = none := rfl

/-- If a row is put in its place, its answers are counted and those of the other rows. -/
theorem size_insert_row (rows : Table (Table Bool)) (k : String) (row : Table Bool) :
    (TwoWay.mk (rows.insert k row)).size =
      row.size + ((rows.erase k).values.map Table.size).sum := by
  have hperm := Table.values_insert_perm row (Table.get?_erase_self rows k)
  rw [Table.insert_erase] at hperm
  rw [size, ← List.sum_eq_foldr, (hperm.map Table.size).sum_nat, List.map_cons, List.sum_cons]

theorem size_store {a b : String} (h : m.find? a b = none) (x : Bool) :
    (m.store a b x).size = m.size + 1 := by
  unfold find? at h
  unfold store
  rw [size_insert_row]
  cases hrow : m.answers.get? (lower a b) with
  | none =>
    have hsame : m.answers.erase (lower a b) = m.answers :=
      Table.erase_of_contains_eq_false (Table.contains_eq_false_iff.2 hrow)
    rw [hsame, Option.getD_none, Table.size_insert x (Table.get?_empty _), size,
      ← List.sum_eq_foldr]
    exact Nat.add_comm 1 _
  | some row =>
    rw [hrow, Option.bind_some] at h
    have hsize : m.size = row.size + ((m.answers.erase (lower a b)).values.map Table.size).sum := by
      rw [← size_insert_row, Table.insert_eq_self hrow]
    rw [hsize, Option.getD_some, Table.size_insert x h]
    omega

/-! ## A run of questions -/

/-- The answers to some questions, and what is remembered in the end. -/
def checkAll (s : Shelf) : List (Pooled × Pooled) → TwoWay → List Bool × TwoWay
  | [], m => ([], m)
  | c :: rest, m =>
    let (answer, m) := m.check s c.1 c.2
    let (answers, m) := checkAll s rest m
    (answer :: answers, m)

/-- The names of the two tickets of a question, in no order. -/
def pairOf (c : Pooled × Pooled) : Sym2 String := s(c.1.id, c.2.id)

/-- The pairs that some questions are about. -/
def pairsOf (calls : List (Pooled × Pooled)) : Finset (Sym2 String) :=
  (calls.map pairOf).toFinset

/-- The tickets that some questions are about. -/
def ticketsOf (calls : List (Pooled × Pooled)) : List Pooled := calls.flatMap fun c => [c.1, c.2]

/-- No name stands for two of the tickets that are asked about. -/
def Distinct (calls : List (Pooled × Pooled)) : Prop :=
  ∀ a ∈ ticketsOf calls, ∀ b ∈ ticketsOf calls, a.id = b.id → a = b

/-- If a ticket can be told by its name, no name stands for two. -/
theorem distinct_of_named (named : String → Pooled) (h : ∀ t ∈ ticketsOf calls, named t.id = t) :
    Distinct calls := by
  intro a ha b hb hid
  rw [← h a ha, hid, h b hb]

theorem mem_pairsOf {x : Sym2 String} : x ∈ pairsOf calls ↔ ∃ c ∈ calls, pairOf c = x := by
  rw [pairsOf, List.mem_toFinset, List.mem_map]

theorem mem_ticketsOf (hc : c ∈ calls) : c.1 ∈ ticketsOf calls ∧ c.2 ∈ ticketsOf calls := by
  constructor
  · exact List.mem_flatMap.2 ⟨c, hc, by simp⟩
  · exact List.mem_flatMap.2 ⟨c, hc, by simp⟩

theorem Distinct.of_append {rest : List (Pooled × Pooled)} (h : Distinct (calls ++ rest)) :
    Distinct calls := by
  have hsub : ticketsOf calls ⊆ ticketsOf (calls ++ rest) := by
    rw [ticketsOf, ticketsOf, List.flatMap_append]
    exact List.subset_append_left _ _
  intro a ha b hb
  exact h a (hsub ha) b (hsub hb)

/-- Questions about the same pair have the same answer. -/
theorem Distinct.suitEachOther_eq (h : Distinct calls) {c d : Pooled × Pooled} (hc : c ∈ calls)
    (hd : d ∈ calls) (hpair : pairOf c = pairOf d) :
    suitEachOther s c.1 c.2 = suitEachOther s d.1 d.2 := by
  obtain ⟨hc₁, hc₂⟩ := mem_ticketsOf hc
  obtain ⟨hd₁, hd₂⟩ := mem_ticketsOf hd
  rcases Sym2.eq_iff.1 hpair with ⟨h₁, h₂⟩ | ⟨h₁, h₂⟩
  · rw [h c.1 hc₁ d.1 hd₁ h₁, h c.2 hc₂ d.2 hd₂ h₂]
  · rw [h c.1 hc₁ d.2 hd₂ h₁, h c.2 hc₂ d.1 hd₁ h₂]
    exact suitEachOther_comm s d.2 d.1

/-- What is remembered after some questions: the answer to each of them, and nothing else. -/
structure Remembers (s : Shelf) (asked : List (Pooled × Pooled)) (m : TwoWay) : Prop where
  answer : ∀ c ∈ asked, m.find? c.1.id c.2.id = some (suitEachOther s c.1 c.2)
  only : ∀ a b x, m.find? a b = some x → s(a, b) ∈ pairsOf asked
  size : m.size = (pairsOf asked).card

theorem remembers_empty (s : Shelf) : Remembers s [] empty := by
  refine ⟨fun c hc => ?_, fun a b x hx => ?_, rfl⟩
  · cases hc
  · rw [find?_empty] at hx
    cases hx

theorem pairsOf_concat (asked : List (Pooled × Pooled)) (c : Pooled × Pooled) :
    pairsOf (asked ++ [c]) = insert (pairOf c) (pairsOf asked) := by
  ext x
  simp [pairsOf, eq_comm]

theorem Remembers.isSome_find?_iff (h : Remembers s asked m) (a b : String) :
    (m.find? a b).isSome = true ↔ s(a, b) ∈ pairsOf asked := by
  constructor
  · intro hsome
    obtain ⟨x, hx⟩ := Option.isSome_iff_exists.1 hsome
    exact h.only a b x hx
  · intro hmem
    obtain ⟨d, hd, hpair⟩ := mem_pairsOf.1 hmem
    rw [find?_congr hpair.symm, h.answer d hd]
    rfl

/-- If a pair was asked about before, maybe the other way round, what is remembered is the answer to
the question at hand. -/
theorem Remembers.again (h : Remembers s asked m) (hdistinct : Distinct (asked ++ [c])) {x : Bool}
    (hfind : m.find? c.1.id c.2.id = some x) :
    x = suitEachOther s c.1 c.2 ∧ Remembers s (asked ++ [c]) m := by
  have hbefore : pairOf c ∈ pairsOf asked := h.only _ _ x hfind
  have hx : x = suitEachOther s c.1 c.2 := by
    obtain ⟨d, hd, hpair⟩ := mem_pairsOf.1 hbefore
    rw [find?_congr hpair.symm, h.answer d hd] at hfind
    rw [← Option.some.inj hfind]
    exact hdistinct.suitEachOther_eq (List.mem_append_left _ hd) (List.mem_concat_self ..) hpair
  refine ⟨hx, ?_, ?_, ?_⟩
  · rw [List.forall_mem_append, List.forall_mem_singleton, hfind, hx]
    exact ⟨h.answer, rfl⟩
  · intro a b y hy
    rw [pairsOf_concat]
    exact Finset.mem_insert_of_mem (h.only a b y hy)
  · rw [pairsOf_concat, Finset.insert_eq_of_mem hbefore]
    exact h.size

theorem Remembers.store (h : Remembers s asked m) (hdistinct : Distinct (asked ++ [c]))
    (hfind : m.find? c.1.id c.2.id = none) :
    Remembers s (asked ++ [c]) (m.store c.1.id c.2.id (suitEachOther s c.1 c.2)) := by
  have hnew : pairOf c ∉ pairsOf asked := by
    intro hmem
    have hsome := (h.isSome_find?_iff _ _).2 hmem
    rw [hfind] at hsome
    cases hsome
  refine ⟨?_, ?_, ?_⟩
  · rw [List.forall_mem_append, List.forall_mem_singleton]
    constructor
    · intro e he
      rw [find?_store]
      split
      · rename_i hsame
        rw [hdistinct.suitEachOther_eq (List.mem_append_left _ he) (List.mem_concat_self ..)
          (same_pair_iff.1 hsame)]
      · exact h.answer e he
    · rw [find?_store, if_pos ⟨rfl, rfl⟩]
  · intro a b y hy
    rw [pairsOf_concat, Finset.mem_insert]
    rw [find?_store] at hy
    split at hy
    · rename_i hsame
      exact Or.inl (same_pair_iff.1 hsame)
    · exact Or.inr (h.only a b y hy)
  · rw [pairsOf_concat, Finset.card_insert_of_notMem hnew, ← h.size]
    exact size_store hfind _

theorem Remembers.check (h : Remembers s asked m) (hdistinct : Distinct (asked ++ [c])) :
    (m.check s c.1 c.2).1 = suitEachOther s c.1 c.2 ∧
      Remembers s (asked ++ [c]) (m.check s c.1 c.2).2 := by
  unfold TwoWay.check
  cases hfind : m.find? c.1.id c.2.id with
  | some x => exact h.again hdistinct hfind
  | none => exact ⟨rfl, h.store hdistinct hfind⟩

theorem Remembers.checkAll (h : Remembers s asked m) (hdistinct : Distinct (asked ++ calls)) :
    (checkAll s calls m).1 = calls.map (fun c => suitEachOther s c.1 c.2) ∧
      Remembers s (asked ++ calls) (checkAll s calls m).2 := by
  induction calls generalizing asked m with
  | nil =>
    rw [List.append_nil]
    exact ⟨rfl, h⟩
  | cons c rest ih =>
    rw [List.append_cons] at hdistinct ⊢
    have hfirst : Distinct (asked ++ [c]) := hdistinct.of_append
    obtain ⟨hanswer, hnext⟩ := h.check hfirst
    obtain ⟨hanswers, hlast⟩ := ih hnext hdistinct
    refine ⟨?_, hlast⟩
    rw [List.map_cons, ← hanswer, ← hanswers]
    rfl

theorem suitEachOther_iff_probe (s : Shelf) (c : Pooled × Pooled) :
    suitEachOther s c.1 c.2 = true ↔
      s.probe c.1.query c.2.id = .ok true ∧ s.probe c.2.query c.1.id = .ok true := by
  rw [suitEachOther_iff, suits_iff, suits_iff]

/-- Questions asked one after the other are answered as if both probes of the pair were made each
time, a failing probe being no match. In the end the memory has one entry for each pair that was
asked about. The order in which two tickets are named makes no difference at any time. -/
theorem checkAll_of_distinct (s : Shelf) (h : Distinct calls) :
    List.Forall₂
        (fun c answer => answer = true ↔
          s.probe c.1.query c.2.id = .ok true ∧ s.probe c.2.query c.1.id = .ok true)
        calls (checkAll s calls empty).1 ∧
      (∀ a b, ((checkAll s calls empty).2.find? a b).isSome = true ↔ s(a, b) ∈ pairsOf calls) ∧
      (checkAll s calls empty).2.size = (pairsOf calls).card ∧
      ∀ (m : TwoWay) (a b : Pooled), m.check s a b = m.check s b a := by
  have hdistinct : Distinct ([] ++ calls) := h
  obtain ⟨hanswers, hremembers⟩ := (remembers_empty s).checkAll hdistinct
  rw [List.nil_append] at hremembers
  refine ⟨?_, hremembers.isSome_find?_iff, hremembers.size, fun m a b => m.check_comm s a b⟩
  rw [hanswers, List.forall₂_map_right_iff, List.forall₂_same]
  exact fun c _ => suitEachOther_iff_probe s c

/-! ## Three users of two regions -/

/-- A wish for a region. -/
def inRegion (region : String) : Query :=
  .atom (.term ⟨⟨.properties, "region"⟩, .text region⟩)

/-- Everybody lives in one region and wants to play there, but the user `b`, who lives in another
one and wants to play anywhere. -/
def dweller (id : String) : Pooled :=
  ⟨.ofRequest id ⟨0⟩ ((Request.solo id id "" 2 2 1).withText "region"
    (if id = "b" then "us" else "eu")) "", if id = "b" then .atom .all else inRegion "eu"⟩

/-- The cards of three users. -/
def shelfOfDwellers : Shelf :=
  (((Catalog.empty.put (dweller "a").ticket).put (dweller "b").ticket).put
    (dweller "c").ticket).commit.shelf

/-- Two of them are asked about in both orders, then two of the same region. -/
def threeQuestions : List (Pooled × Pooled) :=
  [(dweller "b", dweller "a"), (dweller "a", dweller "b"), (dweller "a", dweller "c")]

/-- It does not matter that one of the first two would like to play with the other. -/
theorem checkAll_threeQuestions : Distinct threeQuestions ∧
    (checkAll shelfOfDwellers threeQuestions empty).1 = [false, false, true] ∧
    (checkAll shelfOfDwellers threeQuestions empty).2.size = 2 := by
  have hdistinct : Distinct threeQuestions := by
    refine distinct_of_named dweller fun t ht => ?_
    simp only [ticketsOf, threeQuestions, List.flatMap_cons, List.flatMap_nil, List.append_nil,
      List.cons_append, List.nil_append, List.mem_cons, List.not_mem_nil, or_false] at ht
    rcases ht with rfl | rfl | rfl | rfl | rfl | rfl <;> rfl
  obtain ⟨-, -, hsize, -⟩ := checkAll_of_distinct shelfOfDwellers hdistinct
  exact ⟨hdistinct, by decide +kernel, hsize.trans (by decide +kernel)⟩

end TwoWay

end Matchmaking
