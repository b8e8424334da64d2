import Matchmaking.Settings.Layers

/-!
# Sources as assignments

A source of settings is taken apart into assignments, each of which sets what is at the end of one
path and nothing else. A table with fields is no assignment of its own: its fields are. To lay a
source over a tree is to carry out its assignments one after the other (`lay_eq_foldl`), and what
an assignment does is told by what the outermost keys of the tree lead to (`lookup_carryOut`).
-/

namespace Matchmaking.Layers

/-! ## Changing a field -/

@[simp]
theorem lookup_put (key key' : String) (j : Json) (fields : List (String × Json)) :
    (put key j fields).lookup key' = if key' = key then some j else fields.lookup key' := by
  induction fields with
  | nil =>
    by_cases h : key' = key
    · simp [put, h]
    · simp [put, List.lookup_cons, h, beq_eq_false_iff_ne.2 h]
  | cons f rest ih =>
    obtain ⟨name, old⟩ := f
    by_cases hname : name = key
    · subst hname
      by_cases h : key' = name
      · simp [put, h]
      · simp [put, List.lookup_cons, h, beq_eq_false_iff_ne.2 h]
    · by_cases h : key' = name
      · subst h
        simp [put, hname]
      · simp [put, List.lookup_cons, hname, beq_eq_false_iff_ne.2 h, ih]

@[simp]
theorem put_put (key : String) (j j' : Json) (fields : List (String × Json)) :
    put key j' (put key j fields) = put key j' fields := by
  induction fields with
  | nil => simp [put]
  | cons f rest ih =>
    obtain ⟨name, old⟩ := f
    by_cases hname : name = key <;> simp [put, hname, ih]

theorem getElem?_putItem (i k : Nat) (j : Json) (items : List Json) :
    (putItem i j items)[k]? = if k = i then some j else
      if k < items.length then items[k]? else if k ≤ i then some .null else none := by
  unfold putItem
  rw [List.getElem?_set]
  by_cases hki : k = i
  · subst hki
    have hlength : k < (items ++ List.replicate (k + 1 - items.length) Json.null).length := by
      rw [List.length_append, List.length_replicate]
      omega
    rw [if_pos rfl, if_pos hlength, if_pos rfl]
  · rw [if_neg (Ne.symm hki), if_neg hki]
    by_cases hk : k < items.length
    · rw [if_pos hk, List.getElem?_append_left hk]
    · rw [if_neg hk, List.getElem?_append_right (by omega), List.getElem?_replicate]
      by_cases hle : k ≤ i
      · rw [if_pos hle, if_pos (by omega)]
      · rw [if_neg hle, if_neg (by omega)]

theorem putItem_putItem (i : Nat) (j j' : Json) (items : List Json) :
    putItem i j' (putItem i j items) = putItem i j' items := by
  refine List.ext_getElem? fun k => ?_
  have hlength : (putItem i j items).length = max items.length (i + 1) := by
    unfold putItem
    rw [List.length_set, List.length_append, List.length_replicate]
    omega
  rw [getElem?_putItem, getElem?_putItem, getElem?_putItem, hlength]
  by_cases hki : k = i
  · simp [hki]
  · by_cases hk : k < items.length
    · have hmax : k < max items.length (i + 1) := by omega
      simp [hki, hk, hmax]
    · by_cases hle : k ≤ i
      · have hmax : k < max items.length (i + 1) := by omega
        simp [hki, hk, hle, hmax]
      · have hmax : ¬ k < max items.length (i + 1) := by omega
        simp [hki, hk, hle, hmax]

/-! ## Changing what a path leads to -/

/-- Applies a change to what a path leads to; what is in the way is replaced. -/
def reach (change : Option Json → Json) : List Step → Option Json → Json
  | [], below => change below
  | .key name :: path, below =>
    .record (put name (reach change path ((branches below).lookup name)) (branches below))
  | .item i :: path, below =>
    .list (putItem i (reach change path (itemsOf below)[i]?) (itemsOf below))

theorem assign_append (j : Json) (path rest : List Step) (below : Option Json) :
    assign j (path ++ rest) below = reach (assign j rest) path below := by
  induction path generalizing below with
  | nil => rfl
  | cons s path ih =>
    cases s with
    | key name => simp only [List.cons_append, assign, reach, ih]
    | item i => simp only [List.cons_append, assign, reach, ih]

theorem assign_eq_reach (j : Json) (path : List Step) (below : Option Json) :
    assign j path below = reach (fun b => overlay b j) path below := by
  have h := assign_append j path [] below
  rw [List.append_nil] at h
  exact h

/-- Two changes at the end of one path are one change. -/
theorem reach_reach (change next : Option Json → Json) (path : List Step) (below : Option Json) :
    reach next path (some (reach change path below)) =
      reach (fun b => next (some (change b))) path below := by
  induction path generalizing below with
  | nil => rfl
  | cons s path ih =>
    cases s with
    | key name =>
      simp only [reach, branches, lookup_put, if_true, put_put, ih]
    | item i =>
      have hitem : (putItem i (reach change path (itemsOf below)[i]?) (itemsOf below))[i]? =
          some (reach change path (itemsOf below)[i]?) := by
        rw [getElem?_putItem, if_pos rfl]
      simp only [reach, itemsOf] at hitem ⊢
      rw [hitem, ih, putItem_putItem]

/-! ## Assignments -/

/-- What a source sets at the end of a path. -/
structure Assignment where
  /-- The path. -/
  path : List Step
  /-- What is set. -/
  value : Json

mutual

/-- A value at the end of a path taken apart. -/
def spread (path : List Step) : Json → List Assignment
  | .record (field :: rest) => spreadFields path (field :: rest)
  | j => [⟨path, j⟩]

/-- Some fields at the end of a path taken apart. -/
def spreadFields (path : List Step) : List (String × Json) → List Assignment
  | [] => []
  | (key, j) :: rest => spread (path ++ [.key (Text.lower key)]) j ++ spreadFields path rest

end

/-- The assignments of a source, in the order in which it makes them. -/
def assignments (source : List (String × Json)) : List Assignment :=
  source.flatMap fun f => spread (path (Text.lower f.1)) f.2

/-- What there is after an assignment. -/
def Assignment.carryOut (tree : Option Json) (a : Assignment) : Option Json :=
  some (assign a.value a.path tree)

mutual

theorem foldl_spread (path : List Step) : ∀ (j : Json) (below : Option Json),
    (spread path j).foldl Assignment.carryOut below = some (assign j path below)
  | .record (field :: rest), below => by
    rw [spread, foldl_spreadFields path (field :: rest) below (by simp), assign_eq_reach]
    simp only [overlay]
  | .record [], _ => rfl
  | .null, _ => rfl
  | .bool _, _ => rfl
  | .int _, _ => rfl
  | .real _, _ => rfl
  | .text _, _ => rfl
  | .list _, _ => rfl
  | .cut, _ => rfl

/-- The assignments of some fields are carried out by laying the fields over what there is. -/
theorem foldl_spreadFields (path : List Step) :
    ∀ (fields : List (String × Json)) (below : Option Json), fields ≠ [] →
      (spreadFields path fields).foldl Assignment.carryOut below =
        some (reach (fun b => .record (overlayFields (branches b) fields)) path below)
  | [], _, h => absurd rfl h
  | [(key, j)], below, _ => by
    rw [spreadFields, spreadFields, List.append_nil, foldl_spread, assign_append]
    simp only [overlayFields, assign]
  | (key, j) :: field :: rest, below, _ => by
    rw [spreadFields, List.foldl_append, foldl_spread, assign_append,
      foldl_spreadFields path (field :: rest) _ (by simp), reach_reach]
    simp only [overlayFields, assign, branches]

end

/-- To lay a source over a tree is to carry out its assignments. -/
theorem lay_eq_foldl (source : List (String × Json)) (below : Json) :
    some (lay below source) = (assignments source).foldl Assignment.carryOut (some below) := by
  induction source generalizing below with
  | nil => rfl
  | cons f rest ih =>
    rw [assignments, List.flatMap_cons, List.foldl_append, foldl_spread, lay, List.foldl_cons]
    exact ih _

/-! ## Assignments of sources -/

/-- An assignment as a source makes it: its path begins with a key, and what it sets is no table
with fields. -/
structure Assignment.Proper (a : Assignment) : Prop where
  keyed : ∃ name rest, a.path = .key name :: rest
  flat : ∀ field rest, a.value ≠ .record (field :: rest)

theorem exists_path (key : String) : ∃ name rest, path key = .key name :: rest := by
  unfold path
  cases h : steps? (key.length + 2) ('.' :: key.toList) with
  | none => exact ⟨key, [], rfl⟩
  | some steps =>
    simp only [steps?] at h
    split at h
    · cases h
    · obtain ⟨rest, -, rfl⟩ := Option.map_eq_some_iff.1 h
      exact ⟨_, rest, rfl⟩

mutual

theorem proper_of_mem_spread {path : List Step} (hpath : ∃ name rest, path = .key name :: rest) :
    ∀ (j : Json), ∀ a ∈ spread path j, a.Proper
  | .record (field :: rest), a, ha => by
    rw [spread] at ha
    exact proper_of_mem_spreadFields hpath (field :: rest) a ha
  | .record [], a, ha | .null, a, ha | .bool _, a, ha | .int _, a, ha | .real _, a, ha
  | .text _, a, ha | .list _, a, ha | .cut, a, ha => by
    simp only [spread, List.mem_singleton] at ha
    subst ha
    exact ⟨hpath, by simp⟩

theorem proper_of_mem_spreadFields {path : List Step}
    (hpath : ∃ name rest, path = .key name :: rest) :
    ∀ (fields : List (String × Json)), ∀ a ∈ spreadFields path fields, a.Proper
  | [], a, ha => by simp [spreadFields] at ha
  | (key, j) :: rest, a, ha => by
    rw [spreadFields, List.mem_append] at ha
    rcases ha with ha | ha
    · obtain ⟨name, steps, rfl⟩ := hpath
      have hlonger : ∃ name' rest', .key name :: steps ++ [.key (Text.lower key)] =
          Step.key name' :: rest' := ⟨name, _, rfl⟩
      exact proper_of_mem_spread hlonger j a ha
    · exact proper_of_mem_spreadFields hpath rest a ha

end

theorem proper_of_mem_assignments {source : List (String × Json)} {a : Assignment}
    (ha : a ∈ assignments source) : a.Proper := by
  obtain ⟨f, -, ha⟩ := List.mem_flatMap.1 ha
  exact proper_of_mem_spread (exists_path _) f.2 a ha

/-- The key at the beginning of its path is all that an assignment changes. -/
theorem lookup_carryOut {a : Assignment} {name : String} {rest : List Step}
    (h : a.path = .key name :: rest) (tree : Option Json) (key : String) :
    (branches (a.carryOut tree)).lookup key =
      if key = name then some (assign a.value rest ((branches tree).lookup key))
      else (branches tree).lookup key := by
  unfold Assignment.carryOut
  rw [h]
  simp only [assign, branches, lookup_put]
  by_cases hkey : key = name
  · rw [if_pos hkey, if_pos hkey, hkey]
  · rw [if_neg hkey, if_neg hkey]

end Matchmaking.Layers
