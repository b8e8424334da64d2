import Matchmaking.Proofs.Assignments

/-!
# Which layer counts

Settings come in layers: the environment above the named file, the named file above the standing
file, all of them above the built-in values. What is read for a setting is what the highest layer
that sets it says (`tells_tree`, `valueAt_flatten`). The settings of the matchmaker are fields of
one table. A layer may set the table itself instead, to a plain value, or arrange the settings by
position in an array; it then replaces the whole table, and what the layers below say is lost
(`told`, `reads_told`). As long as no layer does so each setting is found by itself
(`told_eq_valueAt`).
-/

namespace Matchmaking

namespace Layers

/-! ## What assignments say -/

/-- A value from which a setting can be read. -/
def isScalar : Json → Bool
  | .bool _ | .int _ | .real _ | .text _ => true
  | _ => false

/-- A table without fields, which sets nothing. -/
def isVoid : Json → Bool
  | .record [] => true
  | _ => false

/-- What some assignments, the highest first, set at the end of a path. -/
def valueAt (path : List Step) (as : List Assignment) : Option Json :=
  (as.find? fun a => a.path = path && !isVoid a.value).map Assignment.value

/-- The name of the table of the matchmaker's settings. -/
def group : String := "matchmaker"

/-- The steps of an assignment inside the settings of the matchmaker. -/
def Assignment.inGroup? (a : Assignment) : Option (List Step) :=
  match a.path with
  | .key name :: rest => if name = group then some rest else none
  | _ => none

/-- How the settings of the matchmaker are arranged. -/
inductive Arrangement
  /-- By name. -/
  | table
  /-- By position. -/
  | array
  /-- Not at all: there is a plain value in their place. -/
  | plain
  deriving DecidableEq

/-- How an assignment arranges the settings of the matchmaker, if it sets any. -/
def Assignment.arrangement? (a : Assignment) : Option Arrangement :=
  match a.inGroup?, a.value with
  | some (.key _ :: _), _ => some .table
  | some (.item _ :: _), _ => some .array
  | some [], .record _ => none
  | some [], .list _ => some .array
  | some [], _ => some .plain
  | none, _ => none

/-- How the settings of the matchmaker are arranged after some assignments, the highest first. -/
def arrangement (as : List Assignment) : Arrangement :=
  (as.findSome? Assignment.arrangement?).getD .table

/-- What an assignment says about a setting of the matchmaker, if anything: a value, or that there
is none because an array is too short. -/
def Assignment.tells? (name : String) (a : Assignment) : Option (Option Json) :=
  match a.inGroup?, a.value with
  | some [], .list items => some items[configNames.idxOf name]?
  | some [.key key], j => if key = name && !isVoid j then some (some j) else none
  | some [.item i], j => if i = configNames.idxOf name && !isVoid j then some (some j) else none
  | _, _ => none

/-- What some assignments, the highest first, say about a setting of the matchmaker. One that
arranges the settings in another way than those below it leaves nothing of them. -/
def told (name : String) : List Assignment → Option Json
  | [] => none
  | a :: lower =>
    match a.tells? name with
    | some answer => answer
    | none => if a.arrangement?.all (· = arrangement lower) then told name lower else none

/-- What is found for a setting, converted to its type; the default if nothing is found. -/
def convertOr {α : Type} (convert : Json → Option α) (default : α) (found : Option Json) :
    Option α :=
  found.elim (some default) convert

/-- The settings of the matchmaker as they are read from what is found for each of them. -/
structure Reads (found : String → Option Json) (c : Config) : Prop where
  intervalSecs : convertOr asNat 15 (found "interval_secs") = some c.intervalSecs
  maxIntervals : convertOr asHalfWord 2 (found "max_intervals") = some c.maxIntervals
  mutualMatch : convertOr asBool false (found "mutual_match") = some c.mutualMatch
  mutualMatchThresholdMs :
    convertOr asNat 500 (found "mutual_match_threshold_ms") = some c.mutualMatchThresholdMs
  defaultQuery : convertOr asText "*" (found "default_query") = some c.defaultQuery
  batchSize : convertOr asNat 100 (found "batch_size") = some c.batchSize
  maxTickets : convertOr asNat 3 (found "max_tickets") = some c.maxTickets
  maxCustomCandidates :
    convertOr asNat 16 (found "max_custom_candidates") = some c.maxCustomCandidates
  writerMemoryMb : convertOr asNat 50 (found "writer_memory_mb") = some c.writerMemoryMb

/-! ## One assignment more -/

/-- What a tree holds for a setting is what is told about it, or what was there before anything was
told. Nothing is said of values from which no setting can be read. -/
structure Tells (before found told : Option Json) : Prop where
  missing : found = none → told = none
  scalar : ∀ j, found = some j → isScalar j = true → told = some j ∨ told = none ∧ before = some j

/-- What there is for a setting of the matchmaker in the value of their table. -/
def member (name : String) : Option Json → Option Json
  | some (.record fields) => fields.lookup name
  | some (.list items) => items[configNames.idxOf name]?
  | _ => none

/-- How the settings of the matchmaker are arranged in a value. -/
def arranged : Json → Arrangement
  | .record _ => .table
  | .list _ => .array
  | _ => .plain

variable {a : Assignment} {lower : List Assignment} {name : String} {before : Option Json}

theorem member_of_plain {j : Json} (h : arranged j = .plain) : member name (some j) = none := by
  cases j with
  | record fields => cases h
  | list items => cases h
  | _ => rfl

theorem tells_told (found : Option Json) : Tells before found found :=
  ⟨fun h => h, fun _ h _ => Or.inl h⟩

theorem Tells.of_not_scalar {j : Json} (h : isScalar j = false) (told : Option Json) :
    Tells before (some j) told := by
  constructor
  · intro hnone
    cases hnone
  · intro j' hj' hscalar
    cases hj'
    rw [h] at hscalar
    cases hscalar

theorem isScalar_assign (j : Json) (s : Step) (path : List Step) (below : Option Json) :
    isScalar (assign j (s :: path) below) = false := by
  cases s with
  | key name => rfl
  | item i => rfl

/-- What an assignment of a source leaves where its path ends. -/
theorem overlay_of_flat {j : Json} (h : ∀ field rest, j ≠ .record (field :: rest))
    (below : Option Json) : overlay below j = if isVoid j then below.getD (.record []) else j := by
  cases j with
  | record fields =>
    cases fields with
    | nil => rfl
    | cons field rest => exact absurd rfl (h field rest)
  | null => rfl
  | bool b => rfl
  | int i => rfl
  | real x => rfl
  | text s => rfl
  | list items => rfl
  | cut => rfl

/-- A setting at the outermost level after one assignment more. -/
theorem Tells.valueAt {tree : Option Json} {found : Json} (ha : a.Proper)
    (hfound : (branches tree).lookup name = some found)
    (h : Tells before ((branches tree).lookup name) (valueAt [.key name] lower)) :
    Tells before ((branches (a.carryOut tree)).lookup name) (valueAt [.key name] (a :: lower)) := by
  obtain ⟨key, rest, hpath⟩ := ha.keyed
  rw [lookup_carryOut hpath]
  by_cases hkey : name = key
  · subst hkey
    rw [if_pos rfl]
    cases rest with
    | cons s rest => exact .of_not_scalar (isScalar_assign _ _ _ _) _
    | nil =>
      rw [assign, overlay_of_flat ha.flat, hfound]
      by_cases hvoid : isVoid a.value = true
      · have hskip : Layers.valueAt [.key name] (a :: lower) =
            Layers.valueAt [.key name] lower := by
          simp [Layers.valueAt, hvoid]
        rw [if_pos hvoid, hskip, Option.getD_some, ← hfound]
        exact h
      · have htake : Layers.valueAt [.key name] (a :: lower) = some a.value := by
          simp [Layers.valueAt, hpath, hvoid]
        rw [if_neg hvoid, htake]
        exact tells_told _
  · have hskip : Layers.valueAt [.key name] (a :: lower) = Layers.valueAt [.key name] lower := by
      have hne : a.path ≠ [.key name] := by
        rw [hpath]
        intro heq
        injection heq with hhead _
        injection hhead with hname
        exact hkey hname.symm
      simp [Layers.valueAt, hne]
    rw [if_neg hkey, hskip]
    exact h

/-! ## The settings of the matchmaker -/

/-- The table of the matchmaker's settings after some assignments, the highest first: there is a
value for it, arranged as the assignments say, and it holds what they tell. -/
structure Grouped (before : String → Option Json) (as : List Assignment) (found : Option Json) :
    Prop where
  present : ∃ j, found = some j ∧ arranged j = arrangement as
  members : ∀ name, Tells (before name) (member name found) (told name as)

theorem inGroup?_of_path {rest : List Step} (h : a.path = .key name :: rest) :
    a.inGroup? = if name = group then some rest else none := by
  unfold Assignment.inGroup?
  rw [h]

theorem arrangement_cons_of_some {x : Arrangement} (h : a.arrangement? = some x) :
    arrangement (a :: lower) = x := by
  simp [arrangement, h]

theorem arrangement_cons_of_none (h : a.arrangement? = none) :
    arrangement (a :: lower) = arrangement lower := by
  simp [arrangement, h]

theorem told_cons_of_some {answer : Option Json} (h : a.tells? name = some answer) :
    told name (a :: lower) = answer := by
  simp [told, h]

theorem told_cons_of_none (harrangement : a.arrangement? = none) (h : a.tells? name = none) :
    told name (a :: lower) = told name lower := by
  simp [told, h, harrangement]

theorem told_cons_of_ne {x : Arrangement} (harrangement : a.arrangement? = some x)
    (h : a.tells? name = none) :
    told name (a :: lower) = if x = arrangement lower then told name lower else none := by
  simp [told, h, harrangement]

/-- An assignment that is about other things, or sets nothing, leaves the table as it is. -/
theorem Grouped.idle {before : String → Option Json} {found : Option Json}
    (h : Grouped before lower found) (harrangement : a.arrangement? = none)
    (htells : ∀ name, a.tells? name = none) : Grouped before (a :: lower) found where
  present := by
    obtain ⟨j, hj, harranged⟩ := h.present
    exact ⟨j, hj, by rw [harranged, arrangement_cons_of_none harrangement]⟩
  members name := by
    rw [told_cons_of_none harrangement (htells name)]
    exact h.members name

/-- An assignment to a name inside the table. -/
theorem Grouped.key {before : String → Option Json} {found : Option Json} {key : String}
    {rest : List Step} (h : Grouped before lower found) (ha : a.Proper)
    (hgroup : a.inGroup? = some (.key key :: rest)) :
    Grouped before (a :: lower) (some (assign a.value (.key key :: rest) found)) := by
  obtain ⟨j, rfl, harranged⟩ := h.present
  have harrangement : a.arrangement? = some .table := by
    simp [Assignment.arrangement?, hgroup]
  refine ⟨⟨_, rfl, (arrangement_cons_of_some harrangement).symm⟩, fun name => ?_⟩
  -- what is there for a name before the assignment, if the table is none yet
  have hold : Tells (before name) ((branches (some j)).lookup name)
      (if .table = arrangement lower then told name lower else none) := by
    rw [← harranged]
    cases j with
    | record fields => exact h.members name
    | _ => exact ⟨fun _ => rfl, fun _ hj => by cases hj⟩
  simp only [assign, member, lookup_put]
  by_cases hname : name = key
  · subst hname
    rw [if_pos rfl]
    cases rest with
    | cons s rest => exact .of_not_scalar (isScalar_assign _ _ _ _) _
    | nil =>
      rw [assign, overlay_of_flat ha.flat]
      by_cases hvoid : isVoid a.value = true
      · have htells : a.tells? name = none := by
          simp [Assignment.tells?, hgroup, hvoid]
        rw [if_pos hvoid, told_cons_of_ne harrangement htells]
        cases hlookup : (branches (some j)).lookup name with
        | none => exact .of_not_scalar rfl _
        | some found =>
          rw [hlookup] at hold
          exact hold
      · have htells : a.tells? name = some (some a.value) := by
          simp [Assignment.tells?, hgroup, hvoid]
        rw [if_neg hvoid, told_cons_of_some htells]
        exact tells_told _
  · have htells : a.tells? name = none := by
      cases rest with
      | nil => simp [Assignment.tells?, hgroup, Ne.symm hname]
      | cons s rest => simp [Assignment.tells?, hgroup]
    rw [if_neg hname, told_cons_of_ne harrangement htells]
    exact hold

/-- An assignment to a position, which makes the settings an array. -/
theorem Grouped.item {before : String → Option Json} {found : Option Json} {i : Nat}
    {rest : List Step} (h : Grouped before lower found) (ha : a.Proper)
    (hgroup : a.inGroup? = some (.item i :: rest)) :
    Grouped before (a :: lower) (some (assign a.value (.item i :: rest) found)) := by
  obtain ⟨j, rfl, harranged⟩ := h.present
  have harrangement : a.arrangement? = some .array := by
    simp [Assignment.arrangement?, hgroup]
  refine ⟨⟨_, rfl, (arrangement_cons_of_some harrangement).symm⟩, fun name => ?_⟩
  have hold : Tells (before name) (itemsOf (some j))[configNames.idxOf name]?
      (if .array = arrangement lower then told name lower else none) := by
    rw [← harranged]
    cases j with
    | list items => exact h.members name
    | _ => exact ⟨fun _ => rfl, fun _ hj => by cases hj⟩
  simp only [assign, member, getElem?_putItem]
  by_cases hname : configNames.idxOf name = i
  · subst hname
    rw [if_pos rfl]
    cases rest with
    | cons s rest => exact .of_not_scalar (isScalar_assign _ _ _ _) _
    | nil =>
      rw [assign, overlay_of_flat ha.flat]
      by_cases hvoid : isVoid a.value = true
      · have htells : a.tells? name = none := by
          simp [Assignment.tells?, hgroup, hvoid]
        rw [if_pos hvoid, told_cons_of_ne harrangement htells]
        cases hitem : (itemsOf (some j))[configNames.idxOf name]? with
        | none => exact .of_not_scalar rfl _
        | some found =>
          rw [hitem] at hold
          exact hold
      · have htells : a.tells? name = some (some a.value) := by
          simp [Assignment.tells?, hgroup, hvoid]
        rw [if_neg hvoid, told_cons_of_some htells]
        exact tells_told _
  · have htells : a.tells? name = none := by
      cases rest with
      | nil => simp [Assignment.tells?, hgroup, Ne.symm hname]
      | cons s rest => simp [Assignment.tells?, hgroup]
    rw [if_neg hname, told_cons_of_ne harrangement htells]
    by_cases hshort : configNames.idxOf name < (itemsOf (some j)).length
    · rw [if_pos hshort]
      exact hold
    · rw [if_neg hshort]
      rw [List.getElem?_eq_none (by omega)] at hold
      split
      · exact .of_not_scalar rfl _
      · exact hold

/-- An assignment to the table itself. -/
theorem Grouped.whole {before : String → Option Json} {found : Option Json}
    (h : Grouped before lower found) (ha : a.Proper) (hgroup : a.inGroup? = some []) :
    Grouped before (a :: lower) (some (assign a.value [] found)) := by
  rw [assign, overlay_of_flat ha.flat]
  cases hvalue : a.value with
  | record fields =>
    cases fields with
    | cons field rest => exact absurd hvalue (ha.flat field rest)
    | nil =>
      obtain ⟨j, rfl, -⟩ := h.present
      refine h.idle ?_ fun name => ?_
      · simp [Assignment.arrangement?, hgroup, hvalue]
      · simp [Assignment.tells?, hgroup, hvalue]
  | list items =>
    have harrangement : a.arrangement? = some .array := by
      simp [Assignment.arrangement?, hgroup, hvalue]
    refine ⟨⟨_, rfl, (arrangement_cons_of_some harrangement).symm⟩, fun name => ?_⟩
    have htells : a.tells? name = some items[configNames.idxOf name]? := by
      simp [Assignment.tells?, hgroup, hvalue]
    rw [told_cons_of_some htells]
    exact tells_told _
  | _ =>
    have harrangement : a.arrangement? = some .plain := by
      simp [Assignment.arrangement?, hgroup, hvalue]
    refine ⟨⟨_, rfl, (arrangement_cons_of_some harrangement).symm⟩, fun name => ?_⟩
    have htells : a.tells? name = none := by
      simp [Assignment.tells?, hgroup, hvalue]
    obtain ⟨j, rfl, harranged⟩ := h.present
    refine ⟨fun _ => ?_, fun _ hj => by cases hj⟩
    rw [told_cons_of_ne harrangement htells, ← harranged]
    split
    · -- there was a plain value before, so nothing had been told
      rename_i hplain
      exact (h.members name).missing (member_of_plain hplain.symm)
    · rfl

/-- The table of the matchmaker's settings after one assignment more. -/
theorem Grouped.carryOut {before : String → Option Json} {tree : Option Json}
    (h : Grouped before lower ((branches tree).lookup group)) (ha : a.Proper) :
    Grouped before (a :: lower) ((branches (a.carryOut tree)).lookup group) := by
  obtain ⟨key, rest, hpath⟩ := ha.keyed
  have hgroup := inGroup?_of_path hpath
  rw [lookup_carryOut hpath]
  by_cases hkey : group = key
  · rw [if_pos hkey.symm] at hgroup
    rw [if_pos hkey]
    cases rest with
    | nil => exact h.whole ha hgroup
    | cons s rest =>
      cases s with
      | key name => exact h.key ha hgroup
      | item i => exact h.item ha hgroup
  · rw [if_neg (Ne.symm hkey)] at hgroup
    rw [if_neg hkey]
    refine h.idle ?_ fun name => ?_
    · simp [Assignment.arrangement?, hgroup]
    · simp [Assignment.tells?, hgroup]

/-! ## Conversions -/

theorem isScalar_of_asNat {j : Json} {n : Nat} (h : asNat j = some n) : isScalar j = true := by
  cases j with
  | null => cases h
  | list items => cases h
  | record fields => cases h
  | cut => cases h
  | _ => rfl

theorem isScalar_of_asHalfWord {j : Json} {n : Nat} (h : asHalfWord j = some n) :
    isScalar j = true := by
  obtain ⟨m, hm, -⟩ := Option.map_eq_some_iff.1 h
  exact isScalar_of_asNat hm

theorem isScalar_of_asBool {j : Json} {b : Bool} (h : asBool j = some b) : isScalar j = true := by
  cases j with
  | null => cases h
  | list items => cases h
  | record fields => cases h
  | cut => cases h
  | _ => rfl

theorem isScalar_of_asText {j : Json} {s : String} (h : asText j = some s) : isScalar j = true := by
  cases j with
  | null => cases h
  | list items => cases h
  | record fields => cases h
  | cut => cases h
  | _ => rfl

/-- What is read from a tree is read from what is told. -/
theorem Tells.convertOr {α : Type} {convert : Json → Option α} {default x : α}
    {found told : Option Json} (h : Tells before found told)
    (hconvert : ∀ {j y}, convert j = some y → isScalar j = true)
    (hbefore : before.bind convert = some default)
    (hfound : convertOr convert default found = some x) :
    Layers.convertOr convert default told = some x := by
  cases found with
  | none =>
    rw [h.missing rfl]
    exact hfound
  | some j =>
    have hj : convert j = some x := hfound
    rcases h.scalar j rfl (hconvert hj) with htold | ⟨htold, hdefault⟩
    · rw [htold]
      exact hj
    · rw [hdefault, Option.bind_some, hj] at hbefore
      rw [htold]
      exact hbefore.symm

/-- What is there for a setting of the matchmaker before anything is told. -/
def standard (name : String) : Option Json := member name (some (Config.form {}))

theorem Reads.tells {found told : String → Option Json} {c : Config} (h : Reads found c)
    (htells : ∀ name ∈ configNames, Tells (standard name) (found name) (told name)) :
    Reads told c where
  intervalSecs := (htells _ (by decide)).convertOr isScalar_of_asNat rfl h.intervalSecs
  maxIntervals := (htells _ (by decide)).convertOr isScalar_of_asHalfWord rfl h.maxIntervals
  mutualMatch := (htells _ (by decide)).convertOr isScalar_of_asBool rfl h.mutualMatch
  mutualMatchThresholdMs :=
    (htells _ (by decide)).convertOr isScalar_of_asNat rfl h.mutualMatchThresholdMs
  defaultQuery := (htells _ (by decide)).convertOr isScalar_of_asText rfl h.defaultQuery
  batchSize := (htells _ (by decide)).convertOr isScalar_of_asNat rfl h.batchSize
  maxTickets := (htells _ (by decide)).convertOr isScalar_of_asNat rfl h.maxTickets
  maxCustomCandidates :=
    (htells _ (by decide)).convertOr isScalar_of_asNat rfl h.maxCustomCandidates
  writerMemoryMb := (htells _ (by decide)).convertOr isScalar_of_asNat rfl h.writerMemoryMb

theorem lookup_zip {names : List String} (items : List Json) (h : name ∈ names) :
    (names.zip items).lookup name = items[names.idxOf name]? := by
  induction names generalizing items with
  | nil => cases h
  | cons n rest ih =>
    by_cases hn : name = n
    · subst hn
      cases items with
      | nil => simp
      | cons j items => simp
    · have hrest : name ∈ rest := (List.mem_cons.1 h).resolve_left hn
      cases items with
      | nil => simp
      | cons j items =>
        have hindex : (n :: rest).idxOf name = rest.idxOf name + 1 := by
          rw [List.idxOf_cons, beq_eq_false_iff_ne.2 (Ne.symm hn)]
          rfl
        rw [List.zip_cons_cons, List.lookup_cons, beq_eq_false_iff_ne.2 hn, ih items hrest, hindex,
          List.getElem?_cons_succ]

theorem field?_eq {α : Type} (fields : List (String × Json)) (name : String)
    (convert : Json → Option α) (default : α) :
    field? fields name convert default = convertOr convert default (fields.lookup name) := by
  unfold field? convertOr
  cases fields.lookup name <;> rfl

theorem reads_of_asConfig_record {fields : List (String × Json)} {c : Config}
    (h : asConfig (.record fields) = some c) : Reads (fun name => fields.lookup name) c := by
  simp only [asConfig, field?_eq, Option.bind_eq_bind, Option.bind_some] at h
  obtain ⟨_, h₁, h⟩ := Option.bind_eq_some_iff.1 h
  obtain ⟨_, h₂, h⟩ := Option.bind_eq_some_iff.1 h
  obtain ⟨_, h₃, h⟩ := Option.bind_eq_some_iff.1 h
  obtain ⟨_, h₄, h⟩ := Option.bind_eq_some_iff.1 h
  obtain ⟨_, h₅, h⟩ := Option.bind_eq_some_iff.1 h
  obtain ⟨_, h₆, h⟩ := Option.bind_eq_some_iff.1 h
  obtain ⟨_, h₇, h⟩ := Option.bind_eq_some_iff.1 h
  obtain ⟨_, h₈, h⟩ := Option.bind_eq_some_iff.1 h
  obtain ⟨_, h₉, h⟩ := Option.bind_eq_some_iff.1 h
  cases h
  exact ⟨h₁, h₂, h₃, h₄, h₅, h₆, h₇, h₈, h₉⟩

/-- The settings of the matchmaker are read from what is told about them, also if they are given by
position. -/
theorem reads_told {as : List Assignment} {j : Json} {c : Config}
    (hgrouped : Grouped standard as (some j)) (h : asConfig j = some c) :
    Reads (fun name => told name as) c := by
  cases j with
  | record fields => exact (reads_of_asConfig_record h).tells fun name _ => hgrouped.members name
  | list items =>
    have hzip : asConfig (.record (configNames.zip items)) = some c := h
    refine (reads_of_asConfig_record hzip).tells fun name hname => ?_
    rw [lookup_zip items hname]
    exact hgrouped.members name
  | _ => cases h

/-! ## Runs of assignments -/

/-- The tree that some assignments, the highest first, make of the built-in values. -/
def tree (as : List Assignment) : Option Json :=
  as.foldr (fun a below => a.carryOut below) (some Settings.builtIn)

theorem grouped_tree {as : List Assignment} (h : ∀ a ∈ as, a.Proper) :
    Grouped standard as ((branches (tree as)).lookup group) := by
  induction as with
  | nil =>
    refine ⟨⟨Config.form {}, rfl, rfl⟩, fun name => ⟨fun _ => rfl, fun j hj _ => ?_⟩⟩
    exact Or.inr ⟨rfl, hj⟩
  | cons a rest ih =>
    exact (ih fun b hb => h b (List.mem_cons_of_mem a hb)).carryOut (h a List.mem_cons_self)

theorem exists_lookup_carryOut {tree : Option Json} {key : String} {found : Json} (ha : a.Proper)
    (h : (branches tree).lookup key = some found) :
    ∃ found', (branches (a.carryOut tree)).lookup key = some found' := by
  obtain ⟨name, rest, hpath⟩ := ha.keyed
  rw [lookup_carryOut hpath]
  by_cases hkey : key = name
  · exact ⟨_, if_pos hkey⟩
  · exact ⟨found, by rw [if_neg hkey, h]⟩

theorem tells_tree {as : List Assignment} {key : String} {j : Json}
    (hkey : (branches (some Settings.builtIn)).lookup key = some j) (h : ∀ a ∈ as, a.Proper) :
    (∃ found, (branches (tree as)).lookup key = some found) ∧
      Tells (some j) ((branches (tree as)).lookup key) (valueAt [.key key] as) := by
  induction as with
  | nil =>
    refine ⟨⟨j, hkey⟩, fun _ => rfl, fun j' hj' _ => Or.inr ⟨rfl, ?_⟩⟩
    rw [← hkey]
    exact hj'
  | cons a rest ih =>
    obtain ⟨⟨found, hfound⟩, htells⟩ := ih fun b hb => h b (List.mem_cons_of_mem a hb)
    have ha := h a List.mem_cons_self
    exact ⟨exists_lookup_carryOut ha hfound, htells.valueAt ha hfound⟩

theorem lay_tree (source : List (String × Json)) {as : List Assignment} {below : Json}
    (h : tree as = some below) :
    tree ((assignments source).reverse ++ as) = some (lay below source) := by
  unfold tree at h ⊢
  rw [List.foldr_append, h, List.foldr_reverse, lay_eq_foldl]

/-! ## Layers that keep to the table -/

/-- Assignments that arrange the matchmaker's settings as a table, if they set any. -/
def Tabular (as : List Assignment) : Prop := ∀ a ∈ as, ∀ x, a.arrangement? = some x → x = .table

theorem Tabular.arrangement {as : List Assignment} (h : Tabular as) :
    Layers.arrangement as = .table := by
  unfold Layers.arrangement
  cases hfound : as.findSome? Assignment.arrangement? with
  | none => rfl
  | some x =>
    obtain ⟨a, ha, hx⟩ := List.exists_of_findSome?_eq_some hfound
    exact h a ha x hx

/-- What an assignment says about a setting if it arranges all of them as a table: it sets what is
under its name. -/
theorem tells?_of_tabular (ha : a.Proper) (h : ∀ x, a.arrangement? = some x → x = .table)
    (name : String) : a.tells? name =
      if a.path = [.key group, .key name] ∧ isVoid a.value = false then some (some a.value)
      else none := by
  obtain ⟨key, rest, hpath⟩ := ha.keyed
  have hgroup := inGroup?_of_path hpath
  rw [hpath]
  by_cases hkey : key = group
  · subst hkey
    rw [if_pos rfl] at hgroup
    rcases rest with _ | ⟨s, rest⟩
    · rw [if_neg (by simp)]
      cases hvalue : a.value with
      | list items =>
        have harray := h .array (by simp [Assignment.arrangement?, hgroup, hvalue])
        cases harray
      | _ => simp [Assignment.tells?, hgroup, hvalue]
    · cases s with
      | item i =>
        have harray := h .array (by simp [Assignment.arrangement?, hgroup])
        cases harray
      | key n =>
        rcases rest with _ | ⟨s, rest⟩
        · simp [Assignment.tells?, hgroup]
        · simp [Assignment.tells?, hgroup]
  · rw [if_neg hkey] at hgroup
    simp [Assignment.tells?, hgroup, hkey]

theorem told_eq_valueAt {as : List Assignment} (hproper : ∀ a ∈ as, a.Proper) (h : Tabular as)
    (name : String) : told name as = valueAt [.key group, .key name] as := by
  induction as with
  | nil => rfl
  | cons a rest ih =>
    have hrest : Tabular rest := fun b hb => h b (List.mem_cons_of_mem a hb)
    have ih := ih (fun b hb => hproper b (List.mem_cons_of_mem a hb)) hrest
    have htells := tells?_of_tabular (hproper a List.mem_cons_self) (h a List.mem_cons_self) name
    by_cases hset : a.path = [.key group, .key name] ∧ isVoid a.value = false
    · rw [if_pos hset] at htells
      rw [told_cons_of_some htells]
      simp [valueAt, hset.1, hset.2]
    · rw [if_neg hset] at htells
      have hskip : valueAt [.key group, .key name] (a :: rest) =
          valueAt [.key group, .key name] rest := by
        unfold valueAt
        rw [List.find?_cons_of_neg]
        simpa using hset
      rw [hskip, ← ih]
      cases harrangement : a.arrangement? with
      | none => exact told_cons_of_none harrangement htells
      | some x =>
        have hx : x = Layers.arrangement rest := by
          rw [h a List.mem_cons_self x harrangement, hrest.arrangement]
        rw [told_cons_of_ne harrangement htells, if_pos hx]

theorem valueAt_flatten (path : List Step) (layers : List (List Assignment)) :
    valueAt path layers.flatten = layers.findSome? (valueAt path) := by
  induction layers with
  | nil => rfl
  | cons layer rest ih =>
    rw [List.flatten_cons, List.findSome?_cons, ← ih]
    unfold valueAt
    rw [List.find?_append]
    cases layer.find? fun a => a.path = path && !isVoid a.value <;> rfl

end Layers

end Matchmaking
