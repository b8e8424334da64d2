import Matchmaking.Proofs.Answers
import Matchmaking.Proofs.Runs

/-!
# Queries that cannot be run

Whether a text is a query is decided when it is read; whether the catalog can answer it, when it is
searched for. Between the two lies one kind of query: a range of properties is accepted, and every
search and every probe with it fails, on any shelf. All other queries that are accepted can be
answered. Main statement: `answered_of_read`.
-/

namespace Matchmaking

namespace Query

/-! ## Ranges of properties -/

/-- Whether a leaf asks for a range of properties: its name leads to a property, and it has at least
one end. -/
def Leaf.rangesProperties : Leaf → Bool
  | .range (some name) low high =>
    (low != .unbounded || high != .unbounded) &&
      (Target.ofName? name).any fun t => t.field == .properties
  | _ => false

mutual

/-- Whether an expression asks for a range of properties somewhere. -/
def Expression.rangesProperties : Expression → Bool
  | .leaf l => l.rangesProperties
  | .boosted e _ => rangesProperties e
  | .clauses parts => anyRangesProperties parts

/-- Whether one of some clauses asks for a range of properties. -/
def Expression.anyRangesProperties : List (Option Occur × Expression) → Bool
  | [] => false
  | (_, e) :: rest => rangesProperties e || anyRangesProperties rest

end

variable {q : Query} {t : Target} {text : String} {suffix : Suffix} {atoms : List Atom}

/-! ## From expressions to queries -/

theorem exists_of_map_eq_ok {ε α β : Type} {x : Except ε α} {f : α → β} {b : β}
    (h : x.map f = .ok b) : ∃ a, x = .ok a ∧ b = f a := by
  cases x with
  | error e => cases h
  | ok a =>
    cases h
    exact ⟨a, rfl, rfl⟩

theorem exists_of_bind_eq_ok {ε α β : Type} {x : Except ε α} {f : α → Except ε β} {b : β}
    (h : (x >>= f) = .ok b) : ∃ a, x = .ok a ∧ f a = .ok b := by
  cases x with
  | error e => cases h
  | ok a => exact ⟨a, rfl, h⟩

theorem allRunnable_eq_all (parts : List (Occur × Query)) :
    allRunnable parts = parts.all fun p => p.2.runnable := by
  induction parts with
  | nil => rfl
  | cons p rest ih => rw [allRunnable, List.all_cons, ih]

theorem runnable_clauses (parts : List (Occur × Query)) :
    (Query.clauses parts).runnable = parts.all fun p => p.2.runnable := by
  rw [runnable, allRunnable_eq_all]

theorem runnable_anyOf (h : ∀ a ∈ atoms, (Query.atom a).runnable = true) :
    (anyOf atoms).runnable = true := by
  unfold anyOf
  split
  · exact h _ List.mem_cons_self
  · rw [runnable_clauses, List.all_map, List.all_eq_true]
    exact h

theorem runnable_of_mem_wordsAtom {place : Place} {ws : List Text.Word} {a : Atom}
    (h : a ∈ (wordsAtom place suffix ws).toList) : (Query.atom a).runnable = true := by
  rw [Option.mem_toList] at h
  unfold wordsAtom at h
  split at h
  · cases h
  · cases h
    rfl
  · cases h
    rfl

/-- The words of a text can be searched for in every field. -/
theorem runnable_of_mem_wordsAtoms (h : wordsAtoms t text suffix = .ok atoms) {a : Atom}
    (ha : a ∈ atoms) : (Query.atom a).runnable = true := by
  unfold wordsAtoms at h
  split at h
  · cases h
  · split at h
    · obtain ⟨v, -, rfl⟩ := exists_of_map_eq_ok h
      rw [List.mem_singleton.1 ha]
      rfl
    · obtain ⟨v, -, rfl⟩ := exists_of_map_eq_ok h
      rw [List.mem_singleton.1 ha]
      rfl
    · split at h
      · cases h
      · cases h
        rw [List.mem_singleton.1 ha]
        rfl
    · simp only at h
      split at h
      · cases h
      · cases h
        exact runnable_of_mem_wordsAtom ha
    · cases h
      rcases List.mem_append.1 ha with hvalue | hwords
      · obtain ⟨v, -, rfl⟩ := Option.map_eq_some_iff.1 (Option.mem_toList.1 hvalue)
        rfl
      · exact runnable_of_mem_wordsAtom hwords

/-- An end of a range is none exactly if none is written. -/
theorem limit_eq_none_iff {b : Bound} {l : Limit} (h : limit t b = .ok l) :
    l = .none ↔ b = .unbounded := by
  cases b with
  | unbounded =>
    cases h
    exact ⟨fun _ => rfl, fun _ => rfl⟩
  | inclusive s =>
    obtain ⟨v, -, rfl⟩ := exists_of_map_eq_ok h
    simp
  | exclusive s =>
    obtain ⟨v, -, rfl⟩ := exists_of_map_eq_ok h
    simp

theorem target_eq_ok {name : String} (h : target name = .ok t) :
    Target.ofName? name = some t := by
  unfold target at h
  split at h
  · rename_i found heq
    cases h
    exact heq
  · cases h

theorem field_place (t : Target) : t.place.field = t.field := by
  unfold Target.place
  split <;> rfl

theorem runnable_ofLeaf {l : Leaf} (h : ofLeaf l = .ok q) :
    q.runnable = !l.rangesProperties := by
  cases l with
  | all =>
    cases h
    rfl
  | words name text s =>
    have hanyOf : ∀ {t}, (wordsAtoms t text s).map anyOf = .ok q → q.runnable = true := by
      intro t hmap
      obtain ⟨atoms, hatoms, rfl⟩ := exists_of_map_eq_ok hmap
      exact runnable_anyOf fun a ha => runnable_of_mem_wordsAtoms hatoms ha
    cases name with
    | none => exact hanyOf h
    | some name =>
      obtain ⟨t, -, hmap⟩ := exists_of_bind_eq_ok h
      exact hanyOf hmap
  | range name low high =>
    obtain ⟨t, ht, hlimits⟩ := exists_of_bind_eq_ok h
    obtain ⟨l, hl, hlimit⟩ := exists_of_bind_eq_ok hlimits
    obtain ⟨u, hu, hresult⟩ := exists_of_bind_eq_ok hlimit
    have hlow := limit_eq_none_iff hl
    have hhigh := limit_eq_none_iff hu
    cases name with
    | none => cases ht
    | some name =>
      have hname := target_eq_ok ht
      rw [Leaf.rangesProperties, hname, Option.any_some]
      by_cases hends : l = .none ∧ u = .none
      · rw [if_pos hends] at hresult
        cases hresult
        rw [hlow.1 hends.1, hhigh.1 hends.2]
        rfl
      · rw [if_neg hends] at hresult
        cases hresult
        have hwritten : (low != .unbounded || high != .unbounded) = true := by
          rw [Bool.or_eq_true, bne_iff_ne, bne_iff_ne, ← not_and_or, ← hlow, ← hhigh]
          exact hends
        rw [hwritten, Bool.true_and, runnable, field_place]
        rfl
  | among name values =>
    obtain ⟨t, -, hvalues⟩ := exists_of_bind_eq_ok h
    obtain ⟨vs, -, hresult⟩ := exists_of_bind_eq_ok hvalues
    cases hresult
    rfl
  | present name => cases h

mutual

/-- What is made of an expression can be answered unless it asks for a range of properties. -/
theorem runnable_ofExpression : ∀ {e : Expression} {q : Query}, ofExpression e = .ok q →
    q.runnable = !e.rangesProperties
  | .leaf l, q, h => by
    rw [ofExpression] at h
    exact runnable_ofLeaf h
  | .boosted e x, q, h => by
    rw [ofExpression] at h
    obtain ⟨p, hp, rfl⟩ := exists_of_map_eq_ok h
    rw [runnable, Expression.rangesProperties]
    exact runnable_ofExpression hp
  | .clauses parts, q, h => by
    rw [ofExpression] at h
    obtain ⟨ps, hps, rfl⟩ := exists_of_map_eq_ok h
    rw [runnable, Expression.rangesProperties]
    exact allRunnable_ofParts hps

theorem allRunnable_ofParts : ∀ {parts : List (Option Occur × Expression)}
    {qs : List (Occur × Query)}, ofParts parts = .ok qs →
    allRunnable qs = !Expression.anyRangesProperties parts
  | [], qs, h => by
    rw [ofParts] at h
    cases h
    rfl
  | (o, e) :: rest, qs, h => by
    rw [ofParts] at h
    obtain ⟨p, hp, h⟩ := exists_of_bind_eq_ok h
    obtain ⟨ps, hps, h⟩ := exists_of_bind_eq_ok h
    cases h
    rw [allRunnable, Expression.anyRangesProperties, Bool.not_or, runnable_ofExpression hp,
      allRunnable_ofParts hps]

end

/-! ## Queries in their simplest form -/

mutual

theorem runnable_of_isVoid : ∀ {q : Query}, q.isVoid = true → q.runnable = true
  | .atom a, h => by cases h
  | .boosted q x, h => by cases h
  | .clauses parts, h => by
    rw [isVoid] at h
    rw [runnable]
    exact allRunnable_of_allVoid h

theorem allRunnable_of_allVoid : ∀ {parts : List (Occur × Query)}, allVoid parts = true →
    allRunnable parts = true
  | [], _ => rfl
  | (o, q) :: rest, h => by
    rw [allVoid, Bool.and_eq_true] at h
    rw [allRunnable, runnable_of_isVoid h.1, allRunnable_of_allVoid h.2]
    rfl

end

mutual

theorem runnable_trim : ∀ q : Query, q.trim.runnable = q.runnable
  | .atom a => by rw [trim]; simp
  | .boosted q x => by rw [trim]; simp
  | .clauses parts => by
    rw [trim, runnable, runnable]
    exact allRunnable_trimParts parts

theorem allRunnable_trimParts : ∀ parts : List (Occur × Query),
    allRunnable (trimParts parts) = allRunnable parts
  | [] => rfl
  | (o, q) :: rest => by
    rw [trimParts, allRunnable]
    split
    · rename_i hvoid
      rw [runnable_of_isVoid hvoid, Bool.true_and]
      exact allRunnable_trimParts rest
    · rw [allRunnable, runnable_trim q, allRunnable_trimParts rest]

end

theorem all_flattened (o : Occur) (q : Query) :
    ((flattened o q).all fun p => p.2.runnable) = q.runnable := by
  unfold flattened
  split
  · split
    · exact (runnable_clauses _).symm
    · simp
  · simp

mutual

theorem runnable_simplify : ∀ q : Query, q.simplify.runnable = q.runnable
  | .atom a => by rw [simplify]; simp
  | .boosted q x => by rw [simplify]; simp
  | .clauses parts => by
    rw [simplify, runnable, runnable]
    exact allRunnable_simplifyParts parts

theorem allRunnable_simplifyParts : ∀ parts : List (Occur × Query),
    allRunnable (simplifyParts parts) = allRunnable parts
  | [] => rfl
  | (o, q) :: rest => by
    rw [simplifyParts, allRunnable_eq_all, List.all_append, all_flattened, ← allRunnable_eq_all,
      allRunnable, runnable_simplify q, allRunnable_simplifyParts rest]

end

/-- A text that is a query can be answered unless it asks for a range of properties. -/
theorem runnable_of_parse (h : parse text = .ok q) :
    ∃ e, Grammar.read? text = some e ∧ q.runnable = !e.rangesProperties := by
  unfold parse at h
  cases hread : Grammar.read? text with
  | none =>
    rw [hread] at h
    cases h
  | some e =>
    rw [hread] at h
    simp only at h
    split at h
    · cases h
    · obtain ⟨p, hp, hresult⟩ := exists_of_bind_eq_ok h
      by_cases hexcludes : p.excludesAll = true
      · rw [if_pos hexcludes] at hresult
        cases hresult
      · rw [if_neg hexcludes] at hresult
        cases hresult
        refine ⟨e, rfl, ?_⟩
        rw [runnable_trim, runnable_simplify]
        exact runnable_ofExpression hp

/-! ## Searching and probing -/

/-- Whoever asks with a query gets an answer, from any shelf; a search has to ask for some hits. -/
structure Answered (q : Query) : Prop where
  search : ∀ (s : Shelf) (i : Inquiry), i.query = q → 0 < i.limit → ∃ found, s.search i = .ok found
  probe : ∀ (s : Shelf) (id : String), ∃ answer, s.probe q id = .ok answer

/-- Whoever asks with a query gets no answer, from any shelf. -/
structure Unanswered (q : Query) : Prop where
  search : ∀ (s : Shelf) (i : Inquiry), i.query = q → 0 < i.limit →
    s.search i = .error (.engine propertyRangeNotice)
  probe : ∀ (s : Shelf) (id : String), s.probe q id = .error (.engine propertyRangeNotice)

theorem answered_of_runnable (h : q.runnable = true) : q.Answered where
  search := by
    rintro s i rfl hlimit
    exact ⟨_, Shelf.search_eq_ranking hlimit h⟩
  probe := by
    intro s id
    exact ⟨_, if_pos h⟩

theorem unanswered_of_not_runnable (h : q.runnable = false) : q.Unanswered where
  search := by
    rintro s i rfl hlimit
    exact Shelf.search_of_not_runnable hlimit h
  probe := by
    intro s id
    unfold Shelf.probe
    rw [h, if_neg Bool.false_ne_true]

/-- A ticket whose query is not answered has no candidates in any pass, and as far as a pass that
insists can tell it suits nobody. -/
theorem Unanswered.candidates_eq_nil {r : Round} {outer : Pooled} (h : outer.query.Unanswered)
    (limit : Nat) : (r.candidates outer limit).1 = [] ∧
      ∀ p, suitEachOther r.shelf outer p = false := by
  constructor
  · have hfound : r.found outer limit = [] := by
      rcases Nat.eq_zero_or_pos limit with rfl | hlimit
      · rfl
      · have hsearch := h.search r.shelf (.ofTicket outer.ticket outer.query limit) rfl hlimit
        rw [Round.found, hsearch]
    rw [Round.fst_candidates, hfound]
    rfl
  · intro p
    rw [suitEachOther, suits, h.probe r.shelf p.id]
    rfl

end Query

/-- A text that is accepted as a query is answered by every search for some hits and every probe, on
every shelf, unless it asks for a range of properties; then it is answered by none. -/
theorem answered_of_read {text : String} {q : ParsedQuery} (h : ParsedQuery.read text = .ok q) :
    ∃ e, Query.Grammar.read? text = some e ∧
      (e.rangesProperties = false → q.query.Answered) ∧
      (e.rangesProperties = true → q.query.Unanswered) := by
  unfold ParsedQuery.read at h
  split at h
  · rename_i p hparse
    cases h
    obtain ⟨query, hquery, rfl⟩ := Query.exists_of_map_eq_ok hparse
    obtain ⟨e, hread, hrunnable⟩ := Query.runnable_of_parse hquery
    refine ⟨e, hread, ?_, ?_⟩
    · intro hranges
      rw [hranges] at hrunnable
      exact Query.answered_of_runnable hrunnable
    · intro hranges
      rw [hranges] at hrunnable
      exact Query.unanswered_of_not_runnable hrunnable
  · cases h
  · cases h

/-- Whoever asks for a group of two to four that plays for ranks. -/
def rangeOfSizes : String := "+min_count:[2 TO 4] +properties.mode:ranked"

/-- A range of sizes is answered, and so is a word of a property. -/
theorem answered_rangeOfSizes : ∃ q, ParsedQuery.read rangeOfSizes = .ok q ∧ q.query.Answered := by
  have haccepted : (ParsedQuery.read rangeOfSizes).isOk = true := by decide +kernel
  have hranges : (Query.Grammar.read? rangeOfSizes).all (fun e => !e.rangesProperties) = true := by
    decide +kernel
  cases hread : ParsedQuery.read rangeOfSizes with
  | error f =>
    rw [hread] at haccepted
    cases haccepted
  | ok q =>
    obtain ⟨e, he, hanswered, -⟩ := answered_of_read hread
    rw [he, Option.all_some, Bool.not_eq_true'] at hranges
    exact ⟨q, rfl, hanswered hranges⟩

/-- Whoever asks for a mode from "casual" up to "ranked". -/
def rangeOfModes : String := "properties.mode:[casual TO ranked]"

/-- The request of a user who asks so. -/
def requestOfModes : Request := .solo "s" "u" rangeOfModes 2 2 1

/-- Whether a reply is that a ticket was made. -/
def Reply.isSubmitted : Reply → Bool
  | .submitted _ => true
  | _ => false

/-- The user waits for a group, and the query is not answered. -/
theorem unanswered_rangeOfModes :
    (∃ q, ParsedQuery.read rangeOfModes = .ok q ∧ q.query.Unanswered) ∧
      ∃ t, ((Service.empty {} .greedy Service.strokes).perform (.submit none requestOfModes)).1 =
        .submitted t := by
  have haccepted : (match ParsedQuery.read rangeOfModes with
      | .ok q => !q.query.runnable
      | .error _ => false) = true := by decide +kernel
  have hsubmitted : ((Service.empty {} .greedy Service.strokes).perform
      (.submit none requestOfModes)).1.isSubmitted = true := by decide +kernel
  constructor
  · cases hread : ParsedQuery.read rangeOfModes with
    | error f =>
      rw [hread] at haccepted
      cases haccepted
    | ok q =>
      rw [hread, Bool.not_eq_true'] at haccepted
      exact ⟨q, rfl, Query.unanswered_of_not_runnable haccepted⟩
  · cases hreply : ((Service.empty {} .greedy Service.strokes).perform
        (.submit none requestOfModes)).1 with
    | submitted t => exact ⟨t, rfl⟩
    | _ =>
      rw [hreply] at hsubmitted
      cases hsubmitted

end Matchmaking
