/-!
# Tables keyed by text

A finite map from texts to values, kept as a list of pairs whose keys are strictly increasing. Two
tables with the same entries are therefore equal (`Table.ext_get?`), and whatever is listed from a
table is listed in the order of its keys. Property maps, the roster of waiting tickets and the
interval counters are all tables; a set of texts is a table of units.
-/

namespace Matchmaking

universe u v

/-- A finite map from texts to values, listed by increasing key. -/
structure Table (α : Type u) where
  /-- The pairs of the map. -/
  entries : List (String × α)
  /-- The keys are strictly increasing, so every key occurs once. -/
  sorted : entries.Pairwise fun a b => a.1 < b.1

namespace Table

variable {α : Type u} {β : Type v}

@[ext]
theorem ext {s t : Table α} (h : s.entries = t.entries) : s = t := by
  cases s; cases t; cases h; rfl

instance [DecidableEq α] : DecidableEq (Table α) := fun s t =>
  decidable_of_iff (s.entries = t.entries) ⟨Table.ext, fun h => h ▸ rfl⟩

instance [Repr α] : Repr (Table α) := ⟨fun t n => reprPrec t.entries n⟩

/-- The table without entries. -/
def empty : Table α := ⟨[], .nil⟩

instance : Inhabited (Table α) := ⟨empty⟩

instance : EmptyCollection (Table α) := ⟨empty⟩

/-- The value stored under a key. -/
def get? (t : Table α) (k : String) : Option α := t.entries.lookup k

/-- Whether a key has a value. -/
def contains (t : Table α) (k : String) : Bool := (t.get? k).isSome

/-- The keys, in increasing order. -/
def keys (t : Table α) : List String := t.entries.map Prod.fst

/-- The values, in the order of their keys. -/
def values (t : Table α) : List α := t.entries.map Prod.snd

/-- The number of entries. -/
def size (t : Table α) : Nat := t.entries.length

/-- Whether there is no entry. -/
def isEmpty (t : Table α) : Bool := t.entries.isEmpty

/-! ## Storing -/

/-- Puts a pair in its place in a list sorted by key; an earlier value of the key is replaced. -/
def insertSorted (k : String) (v : α) : List (String × α) → List (String × α)
  | [] => [(k, v)]
  | (k', v') :: rest =>
    if k < k' then (k, v) :: (k', v') :: rest
    else if k = k' then (k, v) :: rest
    else (k', v') :: insertSorted k v rest

theorem mem_insertSorted {k : String} {v : α} {l : List (String × α)} {p : String × α}
    (h : p ∈ insertSorted k v l) : p = (k, v) ∨ p ∈ l := by
  induction l with
  | nil => simpa [insertSorted] using h
  | cons q rest ih =>
    simp only [insertSorted] at h
    split at h
    · simpa using h
    · split at h
      · rcases List.mem_cons.1 h with h | h <;> simp [h]
      · rcases List.mem_cons.1 h with h | h
        · simp [h]
        · rcases ih h with h | h <;> simp [h]

/-- A pair under a new key is one more pair. -/
theorem insertSorted_perm {k : String} (v : α) {l : List (String × α)} (h : ∀ p ∈ l, p.1 ≠ k) :
    (insertSorted k v l).Perm ((k, v) :: l) := by
  induction l with
  | nil => exact .refl _
  | cons q rest ih =>
    obtain ⟨hq, hrest⟩ := List.forall_mem_cons.1 h
    simp only [insertSorted]
    split
    · exact .refl _
    · rw [if_neg (Ne.symm hq)]
      exact ((ih hrest).cons q).trans (.swap (k, v) q rest)

theorem insertSorted_sorted (k : String) (v : α) {l : List (String × α)}
    (h : l.Pairwise fun a b => a.1 < b.1) : (insertSorted k v l).Pairwise fun a b => a.1 < b.1 := by
  induction l with
  | nil => simp [insertSorted]
  | cons q rest ih =>
    have hq := (List.pairwise_cons.1 h).1
    have hr := (List.pairwise_cons.1 h).2
    simp only [insertSorted]
    split
    · rename_i hlt
      refine List.pairwise_cons.2 ⟨fun p hp => ?_, h⟩
      rcases List.mem_cons.1 hp with rfl | hp
      · exact hlt
      · exact String.lt_trans hlt (hq p hp)
    · rename_i hnlt
      split
      · rename_i heq
        exact List.pairwise_cons.2 ⟨fun p hp => heq ▸ hq p hp, hr⟩
      · rename_i hne
        refine List.pairwise_cons.2 ⟨fun p hp => ?_, ih hr⟩
        rcases mem_insertSorted hp with rfl | hp
        · show q.1 < k
          grind
        · exact hq p hp

/-- Stores a value under a key, in place of an earlier one. -/
def insert (t : Table α) (k : String) (v : α) : Table α :=
  ⟨insertSorted k v t.entries, insertSorted_sorted k v t.sorted⟩

/-- The entries that satisfy a test. -/
def filter (t : Table α) (p : String → α → Bool) : Table α :=
  ⟨t.entries.filter fun e => p e.1 e.2, t.sorted.sublist List.filter_sublist⟩

/-- Drops a key. -/
def erase (t : Table α) (k : String) : Table α := t.filter fun k' _ => !(k' == k)

/-- Applies a function to every value. -/
def map (f : α → β) (t : Table α) : Table β :=
  ⟨t.entries.map fun e => (e.1, f e.2), List.pairwise_map.2 t.sorted⟩

/-- Stores the pairs of a list one after the other: the last value of a key counts. -/
def ofList (l : List (String × α)) : Table α := l.foldl (fun t e => t.insert e.1 e.2) empty

/-! ## Looking up -/

theorem lookup_eq_none {l : List (String × α)} {k : String} (h : ∀ p ∈ l, p.1 ≠ k) :
    l.lookup k = none := by
  induction l with
  | nil => rfl
  | cons q rest ih =>
    obtain ⟨kq, vq⟩ := q
    have hq : (k == kq) = false := by
      have := h (kq, vq) (by simp)
      simpa using fun e => this e.symm
    simp [List.lookup_cons, hq, ih fun p hp => h p (by simp [hp])]

theorem lookup_insertSorted (k k' : String) (v : α) (l : List (String × α)) :
    (insertSorted k v l).lookup k' = if k' = k then some v else l.lookup k' := by
  induction l with
  | nil =>
    by_cases h : k' = k
    · simp [insertSorted, h]
    · simp [insertSorted, List.lookup_cons, h, beq_eq_false_iff_ne.2 h]
  | cons q rest ih =>
    obtain ⟨kq, vq⟩ := q
    simp only [insertSorted]
    split
    · by_cases h : k' = k
      · simp [h]
      · simp [List.lookup_cons, h, beq_eq_false_iff_ne.2 h]
    · split
      · rename_i heq
        subst heq
        by_cases h : k' = k
        · simp [h]
        · simp [List.lookup_cons, h, beq_eq_false_iff_ne.2 h]
      · rename_i hne
        by_cases h : k' = k
        · subst h
          simp [List.lookup_cons, beq_eq_false_iff_ne.2 hne, ih]
        · simp only [List.lookup_cons, ih, h, if_false]

@[simp]
theorem get?_empty (k : String) : (empty : Table α).get? k = none := rfl

/-- After a value is stored its key leads to it, and every other key is as before. -/
theorem get?_insert (t : Table α) (k k' : String) (v : α) :
    (t.insert k v).get? k' = if k' = k then some v else t.get? k' :=
  lookup_insertSorted k k' v t.entries

@[simp]
theorem get?_insert_self (t : Table α) (k : String) (v : α) : (t.insert k v).get? k = some v := by
  simp [get?_insert]

theorem lookup_filter_fst (p : String → Bool) (k : String) (l : List (String × α)) :
    (l.filter fun e => p e.1).lookup k = if p k then l.lookup k else none := by
  induction l with
  | nil => simp
  | cons q rest ih =>
    obtain ⟨kq, vq⟩ := q
    by_cases hq : k = kq
    · subst hq
      by_cases hp : p k = true <;> simp [List.filter, hp, ih]
    · by_cases hp : p kq = true
      · simp [List.filter, List.lookup_cons, hp, beq_eq_false_iff_ne.2 hq, ih]
      · simp [List.filter, List.lookup_cons, hp, beq_eq_false_iff_ne.2 hq, ih]

/-- A dropped key has no value, and every other key is as before. -/
theorem get?_erase (t : Table α) (k k' : String) :
    (t.erase k).get? k' = if k' = k then none else t.get? k' := by
  have h := lookup_filter_fst (fun x => !(x == k)) k' t.entries
  by_cases hk : k' = k
  · simpa [get?, erase, filter, hk] using h
  · simpa [get?, erase, filter, hk] using h

@[simp]
theorem get?_erase_self (t : Table α) (k : String) : (t.erase k).get? k = none := by
  simp [get?_erase]

/-- After some keys are dropped they have no values, and every other key is as before. -/
theorem get?_foldl_erase (t : Table α) (keys : List String) (k : String) :
    (keys.foldl erase t).get? k = if k ∈ keys then none else t.get? k := by
  induction keys generalizing t with
  | nil => simp
  | cons x rest ih =>
    rw [List.foldl_cons, ih, get?_erase]
    by_cases hx : k = x <;> by_cases hrest : k ∈ rest <;> simp [hx, hrest]

/-- A key leads to the image of what it led to before. -/
@[simp]
theorem get?_map (f : α → β) (t : Table α) (k : String) : (t.map f).get? k = (t.get? k).map f := by
  obtain ⟨l, hl⟩ := t
  show (l.map fun e => (e.1, f e.2)).lookup k = (l.lookup k).map f
  clear hl
  induction l with
  | nil => rfl
  | cons q rest ih =>
    obtain ⟨kq, vq⟩ := q
    by_cases h : k = kq
    · simp [h]
    · simp [List.lookup_cons, beq_eq_false_iff_ne.2 h, ih]

/-- If keys are dropped by a test of their own, those that pass it are as before. -/
theorem get?_filter (t : Table α) (p : String → Bool) (k : String) :
    (t.filter fun k' _ => p k').get? k = if p k then t.get? k else none :=
  lookup_filter_fst p k t.entries

/-- A key leads to a value exactly if the pair is an entry. -/
theorem get?_eq_some_iff {t : Table α} {k : String} {v : α} :
    t.get? k = some v ↔ (k, v) ∈ t.entries := by
  obtain ⟨l, hl⟩ := t
  show l.lookup k = some v ↔ (k, v) ∈ l
  induction l with
  | nil => simp
  | cons q rest ih =>
    obtain ⟨kq, vq⟩ := q
    have hq := (List.pairwise_cons.1 hl).1
    by_cases h : k = kq
    · subst h
      have hn : ∀ x, (k, x) ∉ rest := fun x hx => String.lt_irrefl k (hq (k, x) hx)
      constructor
      · intro h
        simp at h
        simp [h]
      · intro h
        rcases List.mem_cons.1 h with h | h
        · cases h
          simp
        · exact absurd h (hn v)
    · simp [List.lookup_cons, beq_eq_false_iff_ne.2 h, ih (List.pairwise_cons.1 hl).2, h]

/-- A key is contained exactly if it is listed. -/
theorem contains_iff_mem_keys {t : Table α} {k : String} : t.contains k = true ↔ k ∈ t.keys := by
  rw [contains, Option.isSome_iff_exists, keys, List.mem_map]
  constructor
  · rintro ⟨v, hv⟩
    exact ⟨(k, v), get?_eq_some_iff.1 hv, rfl⟩
  · rintro ⟨⟨k', v⟩, h, rfl⟩
    exact ⟨v, get?_eq_some_iff.2 h⟩

/-- A key is contained exactly if it leads to a value. -/
theorem contains_iff {t : Table α} {k : String} : t.contains k = true ↔ ∃ v, t.get? k = some v := by
  rw [contains, Option.isSome_iff_exists]

/-- A key is missing exactly if it leads nowhere. -/
theorem contains_eq_false_iff {t : Table α} {k : String} :
    t.contains k = false ↔ t.get? k = none := by
  rw [contains, Option.isSome_eq_false_iff, Option.isNone_iff_eq_none]

@[simp]
theorem contains_empty (k : String) : (empty : Table α).contains k = false := rfl

@[simp]
theorem contains_insert (t : Table α) (k k' : String) (v : α) :
    (t.insert k v).contains k' = (k' == k || t.contains k') := by
  by_cases h : k' = k <;> simp [contains, get?_insert, h]

@[simp]
theorem contains_erase (t : Table α) (k k' : String) :
    (t.erase k).contains k' = (k' != k && t.contains k') := by
  by_cases h : k' = k <;> simp [contains, get?_erase, h]

/-- A table has no entries exactly if it contains no key. -/
theorem isEmpty_iff {t : Table α} : t.isEmpty = true ↔ ∀ k, t.contains k = false := by
  rw [isEmpty, List.isEmpty_iff]
  constructor
  · intro h k
    rw [contains_eq_false_iff, get?, h]
    rfl
  · intro h
    refine List.eq_nil_iff_forall_not_mem.2 fun p hp => ?_
    have hk := contains_eq_false_iff.1 (h p.1)
    rw [get?_eq_some_iff.2 hp] at hk
    cases hk

/-- A table that contains a key has entries. -/
theorem isEmpty_of_contains {t : Table α} {k : String} (h : t.contains k = true) :
    t.isEmpty = false := by
  cases he : t.isEmpty with
  | false => rfl
  | true =>
    rw [isEmpty_iff.1 he k] at h
    cases h

/-- The values are what the keys lead to. -/
theorem mem_values_iff {t : Table α} {v : α} : v ∈ t.values ↔ ∃ k, t.get? k = some v := by
  simp only [values, List.mem_map, get?_eq_some_iff]
  constructor
  · rintro ⟨⟨k, v⟩, h, rfl⟩
    exact ⟨k, h⟩
  · rintro ⟨k, h⟩
    exact ⟨(k, v), h, rfl⟩

/-- A value under a new key is one more value. -/
theorem values_insert_perm {t : Table α} {k : String} (v : α) (h : t.get? k = none) :
    (t.insert k v).values.Perm (v :: t.values) := by
  refine (insertSorted_perm v fun p hp hk => ?_).map Prod.snd
  rw [get?_eq_some_iff.2 (hk ▸ hp : (k, p.2) ∈ t.entries)] at h
  cases h

theorem size_insert {t : Table α} {k : String} (v : α) (h : t.get? k = none) :
    (t.insert k v).size = t.size + 1 := by
  have hlength := (values_insert_perm v h).length_eq
  simpa [values, size] using hlength

theorem values_erase_sublist (t : Table α) (k : String) : (t.erase k).values.Sublist t.values :=
  List.filter_sublist.map Prod.snd

/-- The keys are pairwise distinct. -/
theorem nodup_keys (t : Table α) : t.keys.Nodup := by
  refine List.pairwise_map.2 (t.sorted.imp fun {a b} h e => ?_)
  exact String.lt_irrefl a.1 (by rw [show b.1 = a.1 from e.symm] at h; exact h)

/-- A table is determined by what its keys lead to. -/
theorem ext_get? {s t : Table α} (h : ∀ k, s.get? k = t.get? k) : s = t := by
  have hmem : ∀ p : String × α, p ∈ s.entries ↔ p ∈ t.entries := fun p => by
    rw [← get?_eq_some_iff, h, get?_eq_some_iff]
  obtain ⟨a, ha⟩ := s
  obtain ⟨b, hb⟩ := t
  apply Table.ext
  show a = b
  clear h
  induction a generalizing b with
  | nil =>
    cases b with
    | nil => rfl
    | cons q rest => exact absurd ((hmem q).2 (by simp)) (by simp)
  | cons p a ih =>
    cases b with
    | nil => exact absurd ((hmem p).1 (by simp)) (by simp)
    | cons q b =>
      have hp := (List.pairwise_cons.1 ha).1
      have hq := (List.pairwise_cons.1 hb).1
      have hpq : p = q := by
        rcases List.mem_cons.1 ((hmem p).1 (by simp)) with h | h
        · exact h
        · rcases List.mem_cons.1 ((hmem q).2 (by simp)) with h' | h'
          · exact h'.symm
          · exact absurd (String.lt_trans (hq p h) (hp q h')) (String.lt_irrefl _)
      subst hpq
      congr 1
      refine ih (List.pairwise_cons.1 ha).2 b (List.pairwise_cons.1 hb).2 fun r => ?_
      constructor
      · intro hr
        rcases List.mem_cons.1 ((hmem r).1 (by simp [show r ∈ a from hr])) with h | h
        · subst h
          exact absurd (hp r hr) (String.lt_irrefl _)
        · exact h
      · intro hr
        rcases List.mem_cons.1 ((hmem r).2 (by simp [show r ∈ b from hr])) with h | h
        · subst h
          exact absurd (hq r hr) (String.lt_irrefl _)
        · exact h

theorem insert_eq_self {t : Table α} {k : String} {v : α} (h : t.get? k = some v) :
    t.insert k v = t := by
  refine ext_get? fun k' => ?_
  rw [get?_insert]
  split
  · rename_i hk
    rw [hk, h]
  · rfl

/-- A stored value takes the place of an earlier one. -/
theorem insert_erase (t : Table α) (k : String) (v : α) :
    (t.erase k).insert k v = t.insert k v := by
  refine ext_get? fun k' => ?_
  rw [get?_insert, get?_insert, get?_erase]
  split <;> rfl

theorem erase_of_contains_eq_false {t : Table α} {k : String} (h : t.contains k = false) :
    t.erase k = t := by
  refine ext_get? fun k' => ?_
  rw [get?_erase]
  split
  · rename_i hk
    rw [hk, contains_eq_false_iff.1 h]
  · rfl

theorem size_erase {t : Table α} {k : String} (h : t.contains k = true) :
    (t.erase k).size + 1 = t.size := by
  obtain ⟨v, hv⟩ := contains_iff.1 h
  rw [← size_insert v (get?_erase_self t k), insert_erase, insert_eq_self hv]

theorem map_insert (f : α → β) (t : Table α) (k : String) (v : α) :
    (t.insert k v).map f = (t.map f).insert k (f v) := by
  refine ext_get? fun k' => ?_
  rw [get?_map, get?_insert, get?_insert, get?_map]
  split <;> rfl

theorem map_erase (f : α → β) (t : Table α) (k : String) :
    (t.erase k).map f = (t.map f).erase k := by
  refine ext_get? fun k' => ?_
  rw [get?_map, get?_erase, get?_erase, get?_map]
  split <;> rfl

end Table

/-- A finite set of texts. -/
abbrev Names := Table Unit

/-- The set with one more text. -/
def Names.add (s : Names) (k : String) : Names := s.insert k ()

/-- The set of the texts of a list. -/
def Names.ofList (l : List String) : Names := l.foldl Names.add .empty

@[simp]
theorem Names.contains_add (s : Names) (k k' : String) :
    (s.add k).contains k' = (k' == k || s.contains k') :=
  Table.contains_insert s k k' ()

/-- A set is determined by what it contains. -/
theorem Names.ext {s t : Names} (h : ∀ k, s.contains k = t.contains k) : s = t := by
  refine Table.ext_get? fun k => ?_
  have hk := h k
  unfold Table.contains at hk
  cases hs : s.get? k <;> cases ht : t.get? k <;> simp_all

/-- After some texts are added the set contains them and what it contained before. -/
theorem Names.contains_foldl_add {s : Names} {l : List String} {k : String} :
    (l.foldl Names.add s).contains k = true ↔ k ∈ l ∨ s.contains k = true := by
  induction l generalizing s with
  | nil => simp
  | cons x rest ih =>
    rw [List.foldl_cons, ih]
    simp only [contains_add, Bool.or_eq_true, beq_iff_eq, List.mem_cons]
    constructor
    · rintro (h | h | h)
      · exact Or.inl (Or.inr h)
      · exact Or.inl (Or.inl h)
      · exact Or.inr h
    · rintro ((h | h) | h)
      · exact Or.inr (Or.inl h)
      · exact Or.inl h
      · exact Or.inr (Or.inr h)

end Matchmaking
