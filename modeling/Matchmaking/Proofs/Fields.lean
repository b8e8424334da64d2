import Mathlib.Data.List.Find
import Mathlib.Data.List.Forall2
import Mathlib.Data.List.Perm.Basic
import Matchmaking.Json.Decode
import Matchmaking.Proofs.Tables

/-!
# Reading objects

The order of the fields of an object does not matter as long as no name occurs twice, and a field
that is left out reads like its default. Main statements: `fields_of_reorders`,
`bind_fields_abridged`.
-/

namespace Matchmaking.Json

/-! ## Orders of fields -/

/-- A way of putting the fields of all objects of a value in another order. -/
structure Reorders (s : Json → Json) : Prop where
  null : s .null = .null
  bool : ∀ b, s (.bool b) = .bool b
  int : ∀ i, s (.int i) = .int i
  real : ∀ x, s (.real x) = .real x
  text : ∀ t, s (.text t) = .text t
  list : ∀ items, s (.list items) = .list (items.map s)
  record : ∀ fields, (fields.map Prod.fst).Nodup →
    ∃ fields', s (.record fields) = .record fields' ∧
      fields'.Perm (fields.map fun f => (f.1, s f.2))

theorem reorders_id : Reorders id where
  null := rfl
  bool _ := rfl
  int _ := rfl
  real _ := rfl
  text _ := rfl
  list items := by rw [List.map_id, id]
  record fields _ := ⟨fields, rfl, by simp⟩

theorem canonicalList_eq (items : List Json) : canonicalList items = items.map canonical := by
  induction items with
  | nil => rfl
  | cons j rest ih => rw [canonicalList, ih, List.map_cons]

theorem canonicalFields_eq (fields : List (String × Json)) :
    canonicalFields fields = fields.map fun f => (f.1, canonical f.2) := by
  induction fields with
  | nil => rfl
  | cons f rest ih => rw [canonicalFields, ih, List.map_cons]

/-- The order of the names is one of these orders. -/
theorem reorders_canonical : Reorders canonical where
  null := by rw [canonical.eq_def]
  bool b := by rw [canonical.eq_def]
  int i := by rw [canonical.eq_def]
  real x := by rw [canonical.eq_def]
  text t := by rw [canonical.eq_def]
  list items := by rw [canonical, canonicalList_eq]
  record fields hnames := by
    refine ⟨_, by rw [canonical], ?_⟩
    rw [canonicalFields_eq]
    refine Table.ofList_perm ?_
    rw [List.map_map]
    exact hnames

/-! ## Judging fields -/

/-- The known fields of an object in which no name occurs twice. -/
def judge (slots : List Slot) (o : Origin) :
    List (String × Json) → Except Mismatch (List (String × Json))
  | [] => .ok []
  | (name, j) :: rest =>
    match slots.find? fun s => s.name == name with
    | none => if j.isCut then .error .notJson else judge slots o rest
    | some slot =>
      match slot.check o j with
      | .error e => .error e
      | .ok () => (judge slots o rest).map ((name, j) :: ·)

variable {slots : List Slot} {o : Origin} {type : String}
  {fs gs got got' : List (String × Json)} {name : String} {j k : Json}

theorem scanFields_of_nodup (hnames : ((got ++ fs).map Prod.fst).Nodup) :
    scanFields slots o got fs = (judge slots o fs).map (got ++ ·) := by
  -- on the fields that are still to be read, with what has been seen kept general
  induction fs generalizing got with
  | nil => simp [scanFields, judge, Except.map]
  | cons f rest ih =>
    obtain ⟨name, j⟩ := f
    have hrest : ((got ++ rest).map Prod.fst).Nodup :=
      hnames.sublist (((List.sublist_cons_self _ rest).append_left got).map Prod.fst)
    have hnext : (((got ++ [(name, j)]) ++ rest).map Prod.fst).Nodup := by
      rw [List.append_assoc]
      exact hnames
    have hnew : got.lookup name = none := by
      rw [List.map_append, List.nodup_append] at hnames
      refine Table.lookup_eq_none fun p hp heq => ?_
      exact hnames.2.2 p.1 (List.mem_map_of_mem hp) name List.mem_cons_self heq
    rw [scanFields, judge]
    cases slots.find? fun s => s.name == name with
    | none =>
      simp only
      split
      · rfl
      · exact ih hrest
    | some slot =>
      simp only [hnew, Option.isSome_none, Bool.false_eq_true, if_false]
      cases slot.check o j with
      | error e => rfl
      | ok u =>
        simp only [ih hnext]
        cases judge slots o rest with
        | error e => rfl
        | ok found => simp [Except.map]

/-- The fields of an object in which no name occurs twice, the missing ones noticed. -/
theorem fields_of_nodup (hnames : (fs.map Prod.fst).Nodup) :
    fields type slots o (.record fs) =
      match judge slots o fs with
      | .error e => .error e
      | .ok got =>
        match slots.find? fun s => s.required && (got.lookup s.name).isNone with
        | some slot => .error (.missingField slot.name)
        | none => .ok got := by
  have hscan : scanFields slots o [] fs = judge slots o fs := by
    rw [scanFields_of_nodup (by simpa using hnames)]
    cases judge slots o fs <;> rfl
  rw [← hscan]
  rfl

/-- If every field is known and right, all of them are seen. -/
theorem judge_of_forall (h : ∀ f ∈ fs, ∃ slot, (slots.find? fun s => s.name == f.1) = some slot ∧
    slot.check o f.2 = .ok ()) : judge slots o fs = .ok fs := by
  induction fs with
  | nil => rfl
  | cons f rest ih =>
    obtain ⟨name, j⟩ := f
    obtain ⟨⟨slot, hslot, hcheck⟩, hrest⟩ := List.forall_mem_cons.1 h
    simp only [judge, hslot, hcheck, ih hrest]
    rfl

theorem find?_name {slot : Slot} (hslots : (slots.map Slot.name).Nodup) (h : slot ∈ slots) :
    (slots.find? fun s => s.name == slot.name) = some slot := by
  induction slots with
  | nil => cases h
  | cons s rest ih =>
    obtain ⟨hfresh, hrest⟩ := List.nodup_cons.1 hslots
    rcases List.mem_cons.1 h with rfl | h
    · rw [List.find?_cons_of_pos (by simp)]
    · have hne : (s.name == slot.name) = false :=
        beq_false_of_ne fun heq => hfresh (heq ▸ List.mem_map_of_mem h)
      rw [List.find?_cons]
      simp only [hne]
      exact ih hrest h

/-- A slot and a field of the same name with a right value. -/
def Slot.Admits (s : Json → Json) (o : Origin) (slot : Slot) (f : String × Json) : Prop :=
  slot.name = f.1 ∧ slot.check o (s f.2) = .ok ()

section Admitting

variable {s : Json → Json}

theorem names_of_admits (h : List.Forall₂ (Slot.Admits s o) slots fs) :
    slots.map Slot.name = fs.map Prod.fst := by
  induction h with
  | nil => rfl
  | cons hhead _ ih => rw [List.map_cons, List.map_cons, hhead.1, ih]

theorem exists_slot_of_admits (h : List.Forall₂ (Slot.Admits s o) slots fs) {f : String × Json}
    (hf : f ∈ fs) : ∃ slot ∈ slots, slot.Admits s o f := by
  induction h with
  | nil => cases hf
  | cons hhead _ ih =>
    rcases List.mem_cons.1 hf with rfl | hf
    · exact ⟨_, List.mem_cons_self, hhead⟩
    · obtain ⟨slot, hslot, hadmits⟩ := ih hf
      exact ⟨slot, List.mem_cons_of_mem _ hslot, hadmits⟩

/-- An object with a right value for each field is read, whatever the order of its fields. -/
theorem fields_of_reorders (hs : Reorders s) (type : String)
    (h : List.Forall₂ (Slot.Admits s o) slots fs) (hslots : (slots.map Slot.name).Nodup) :
    ∃ got, fields type slots o (s (.record fs)) = .ok got ∧
      ∀ f ∈ fs, got.lookup f.1 = some (s f.2) := by
  have hsame := names_of_admits h
  obtain ⟨got, hrecord, hperm⟩ := hs.record fs (hsame ▸ hslots)
  have hnames : (got.map Prod.fst).Nodup := by
    refine (hperm.map Prod.fst).nodup_iff.2 ?_
    rw [List.map_map]
    exact hsame ▸ hslots
  have hlookup : ∀ f ∈ fs, got.lookup f.1 = some (s f.2) := fun f hf =>
    (Table.lookup_eq_some_iff_mem hnames).2 (hperm.mem_iff.2 (List.mem_map_of_mem hf))
  have hjudge : judge slots o got = .ok got := by
    refine judge_of_forall fun f hf => ?_
    obtain ⟨g, hg, rfl⟩ := List.mem_map.1 (hperm.mem_iff.1 hf)
    obtain ⟨slot, hslot, hname, hcheck⟩ := exists_slot_of_admits h hg
    exact ⟨slot, by rw [← hname]; exact find?_name hslots hslot, hcheck⟩
  have hmissing : (slots.find? fun s => s.required && (got.lookup s.name).isNone) = none := by
    refine List.find?_eq_none.2 fun slot hslot htrue => ?_
    have hmem : slot.name ∈ fs.map Prod.fst := hsame ▸ List.mem_map_of_mem hslot
    obtain ⟨f, hf, hname⟩ := List.mem_map.1 hmem
    rw [← hname, hlookup f hf] at htrue
    simp at htrue
  refine ⟨got, ?_, hlookup⟩
  rw [hrecord, fields_of_nodup hnames, hjudge]
  simp only [hmissing]

/-- An object made of right values decodes to the value that is made of them. -/
theorem bind_fields_reorders {α : Type} {type : String} (hs : Reorders s)
    (h : List.Forall₂ (Slot.Admits s o) slots fs) (hslots : (slots.map Slot.name).Nodup)
    {make : List (String × Json) → Except Mismatch α} {x : α}
    (hmake : ∀ got, (∀ f ∈ fs, got.lookup f.1 = some (s f.2)) → make got = .ok x) :
    (fields type slots o (s (.record fs)) >>= make) = .ok x := by
  obtain ⟨got, hgot, hlookup⟩ := fields_of_reorders hs type h hslots
  rw [hgot]
  exact hmake got hlookup

theorem admits_needed {α : Type} {d : Decoder α} {x : α} (h : d o (s j) = .ok x) :
    (Slot.needed name d).Admits s o (name, j) := by
  refine ⟨rfl, ?_⟩
  show (d o (s j)).map _ = _
  rw [h]
  rfl

theorem admits_defaulted {α : Type} {d : Decoder α} {x : α} (h : d o (s j) = .ok x) :
    (Slot.defaulted name d).Admits s o (name, j) := by
  refine ⟨rfl, ?_⟩
  show (d o (s j)).map _ = _
  rw [h]
  rfl

end Admitting

/-! ## Values in another order -/

section Values

variable {s : Json → Json} {α β : Type} {d : Decoder β}

theorem string_reorders (hs : Reorders s) (o : Origin) (t : String) :
    string o (s (.text t)) = .ok t := by
  rw [hs.text, string]

theorem boolean_reorders (hs : Reorders s) (o : Origin) (b : Bool) :
    boolean o (s (.bool b)) = .ok b := by
  rw [hs.bool, boolean]

theorem natural_reorders (hs : Reorders s) (o : Origin) {bound n : Nat} (type : String)
    (h : n < bound) : natural bound type o (s (nat n)) = .ok n := by
  rw [nat, hs.int, natural]
  rw [if_pos ⟨Int.natCast_nonneg n, Int.ofNat_lt.2 h⟩, Int.toNat_natCast]

theorem millis_reorders (hs : Reorders s) (o : Origin) {t : Instant}
    (h : Instant.minMillis ≤ t.millis ∧ t.millis ≤ Instant.maxMillis) :
    millis o (s (.int t.millis)) = .ok t.floorMillis := by
  rw [hs.int, millis]
  rw [if_pos h, Instant.floorMillis]

theorem optional_string_reorders (hs : Reorders s) (o : Origin) (t : Option String) :
    optional string o (s (option .text t)) = .ok t := by
  cases t with
  | none => rw [option, hs.null, optional]
  | some t =>
    rw [option, hs.text]
    rfl

theorem decodeAll_map {f : α → Json} {g : α → β} {l : List α}
    (h : ∀ x ∈ l, d o (f x) = .ok (g x)) : decodeAll d o (l.map f) = .ok (l.map g) := by
  induction l with
  | nil => rfl
  | cons x rest ih =>
    obtain ⟨hx, hrest⟩ := List.forall_mem_cons.1 h
    rw [List.map_cons, decodeAll, hx, ih hrest]
    rfl

theorem listOf_reorders (hs : Reorders s) {f : α → Json} {g : α → β} {l : List α}
    (h : ∀ x ∈ l, d o (s (f x)) = .ok (g x)) :
    listOf d o (s (.list (l.map f))) = .ok (l.map g) := by
  rw [hs.list, List.map_map, listOf]
  exact decodeAll_map h

theorem decodeFields_of_forall₂ {l : List (String × β)}
    (h : List.Forall₂ (fun f e => f.1 = e.1 ∧ d o f.2 = .ok e.2) fs l) :
    decodeFields d o fs = .ok l := by
  induction h with
  | nil => rfl
  | cons hhead _ ih =>
    rw [decodeFields, hhead.2, ih, hhead.1]
    rfl

/-- A table is read from its object, in whatever order its pairs stand. -/
theorem tableOf_reorders (hs : Reorders s) {f : β → Json} {t : Table β}
    (h : ∀ e ∈ t.entries, d o (s (f e.2)) = .ok e.2) : tableOf d o (s (table f t)) = .ok t := by
  have hnames : ((t.entries.map fun e => (e.1, f e.2)).map Prod.fst).Nodup := by
    rw [List.map_map]
    exact t.nodup_keys
  obtain ⟨fs, hrecord, hperm⟩ := hs.record _ hnames
  rw [List.map_map] at hperm
  have hright : List.Forall₂ (fun (f : String × Json) (e : String × β) =>
      f.1 = e.1 ∧ d o f.2 = .ok e.2) (t.entries.map fun e => (e.1, s (f e.2))) t.entries :=
    List.forall₂_map_left_iff.2 (List.forall₂_same.2 fun e he => ⟨rfl, h e he⟩)
  obtain ⟨l, hl, hlt⟩ := List.perm_comp_forall₂ hperm hright
  rw [table, hrecord, tableOf]
  simp only [decodeFields_of_forall₂ hl]
  exact congrArg Except.ok (Table.ofList_of_perm hlt)

end Values

/-! ## Fields that are left out -/

/-- Some fields of an object are left out that have their defaults. The others are as they were, but
something may be left out of the value of one of them in turn. -/
inductive Abridges (defaults : List (String × Json)) (part : String) (within : Json → Json → Prop) :
    List (String × Json) → List (String × Json) → Prop
  /-- There are no more fields. -/
  | done : Abridges defaults part within [] []
  /-- A field stays as it is. -/
  | keep {f : String × Json} {fs gs : List (String × Json)}
      (h : Abridges defaults part within fs gs) : Abridges defaults part within (f :: fs) (f :: gs)
  /-- Something is left out of a field. -/
  | shorten {j k : Json} {fs gs : List (String × Json)} (hjk : within j k)
      (h : Abridges defaults part within fs gs) :
      Abridges defaults part within ((part, j) :: fs) ((part, k) :: gs)
  /-- A field is left out. -/
  | leave {f : String × Json} {fs gs : List (String × Json)} (hf : f ∈ defaults)
      (h : Abridges defaults part within fs gs) : Abridges defaults part within (f :: fs) gs

/-- One value is another one, or an object of which some fields are left out. -/
def Abridged (defaults : List (String × Json)) (part : String) (within : Json → Json → Prop)
    (j k : Json) : Prop :=
  j = k ∨ ∃ fs gs, j = .record fs ∧ k = .record gs ∧ (fs.map Prod.fst).Nodup ∧
    Abridges defaults part within fs gs

/-- One value is another one, or a list of which some items are abridged. -/
def AbridgedItems (within : Json → Json → Prop) (j k : Json) : Prop :=
  j = k ∨ ∃ js ks, j = .list js ∧ k = .list ks ∧ List.Forall₂ within js ks

/-- A decoder does not notice what is left out. -/
def Overlooks {α : Type} (d : Decoder α) (within : Json → Json → Prop) : Prop :=
  ∀ j k, within j k → ∀ o, d o k = d o j

theorem overlooks_items {α : Type} {d : Decoder α} {within : Json → Json → Prop}
    (h : Overlooks d within) : Overlooks (listOf d) (AbridgedItems within) := by
  rintro j k (rfl | ⟨js, ks, rfl, rfl, hitems⟩) o
  · rfl
  · show decodeAll d o ks = decodeAll d o js
    induction hitems with
    | nil => rfl
    | cons hhead _ ih => rw [decodeAll, decodeAll, h _ _ hhead o, ih]

section Abridging

variable {defaults : List (String × Json)} {part : String} {within : Json → Json → Prop}

/-- The slots of an object go with the fields that may be left out: these have slots that do not
insist on them and admit their defaults, and a shortened field has a slot that does not notice it.
-/
structure Lenient (slots : List Slot) (defaults : List (String × Json)) (part : String)
    (within : Json → Json → Prop) : Prop where
  distinct : (slots.map Slot.name).Nodup
  names : (defaults.map Prod.fst).Nodup
  defaults : ∀ f ∈ defaults, ∃ slot ∈ slots, slot.name = f.1 ∧ slot.required = false ∧
    ∀ o, slot.check o f.2 = .ok ()
  part : ∀ j k, within j k → ∃ slot ∈ slots, slot.name = part ∧
    ∀ o, slot.check o k = slot.check o j

/-- A field with a default has a slot that admits the default and does not insist on the field. -/
theorem exists_defaulted {α : Type} {d : Decoder α} {default : α}
    (hslot : Slot.defaulted name d ∈ slots) (hj : ∀ o, d o j = .ok default) :
    ∃ slot ∈ slots, slot.name = name ∧ slot.required = false ∧ ∀ o, slot.check o j = .ok () := by
  refine ⟨_, hslot, rfl, rfl, fun o => ?_⟩
  show (d o j).map _ = _
  rw [hj o]
  rfl

theorem exists_part {α : Type} {d : Decoder α} (hpart : Overlooks d within)
    (hslot : Slot.needed part d ∈ slots ∨ Slot.defaulted part d ∈ slots) (hjk : within j k) :
    ∃ slot ∈ slots, slot.name = part ∧ ∀ o, slot.check o k = slot.check o j := by
  have hcheck : ∀ o, (d o k).map (fun _ => ()) = (d o j).map fun _ => () := fun o =>
    congrArg (Except.map _) (hpart j k hjk o)
  rcases hslot with hslot | hslot
  · exact ⟨_, hslot, rfl, hcheck⟩
  · exact ⟨_, hslot, rfl, hcheck⟩

theorem Abridges.names (h : Abridges defaults part within fs gs) :
    (gs.map Prod.fst).Sublist (fs.map Prod.fst) := by
  induction h with
  | done => exact .slnil
  | keep _ ih => exact ih.cons_cons _
  | shorten _ _ ih => exact ih.cons_cons _
  | leave _ _ ih => exact ih.cons _

/-- How two fields of the same name are found, of which one may be left out. -/
inductive Alike (defaults : List (String × Json)) (part : String) (within : Json → Json → Prop)
    (name : String) : Option Json → Option Json → Prop
  /-- Both are the same. -/
  | same (j : Option Json) : Alike defaults part within name j j
  /-- Something is left out of one of them. -/
  | short {j k : Json} (hname : name = part) (h : within j k) :
      Alike defaults part within name (some j) (some k)
  /-- One of them is left out. -/
  | left {j : Json} (h : defaults.lookup name = some j) :
    Alike defaults part within name (some j) none

theorem Abridges.lookup (hdefaults : (defaults.map Prod.fst).Nodup)
    (h : Abridges defaults part within fs gs) (hnames : (fs.map Prod.fst).Nodup) (name : String) :
    Alike defaults part within name (fs.lookup name) (gs.lookup name) := by
  induction h with
  | done => exact .same _
  | @keep f fs gs h ih =>
    have hrest := ih (List.nodup_cons.1 hnames).2
    rw [List.lookup_cons, List.lookup_cons]
    cases name == f.1 with
    | true => exact .same _
    | false => exact hrest
  | @shorten j k fs gs hjk h ih =>
    have hrest := ih (List.nodup_cons.1 hnames).2
    rw [List.lookup_cons, List.lookup_cons]
    cases hname : name == part with
    | true => exact .short (beq_iff_eq.1 hname) hjk
    | false => exact hrest
  | @leave f fs gs hf h ih =>
    obtain ⟨hfresh, hrest⟩ := List.nodup_cons.1 hnames
    rw [List.lookup_cons]
    cases hname : name == f.1 with
    | true =>
      -- the field that is left out has no second one of its name behind it
      have heq : name = f.1 := beq_iff_eq.1 hname
      have hnone : gs.lookup name = none := by
        refine Table.lookup_eq_none fun p hp hpn => hfresh ?_
        rw [← heq, ← hpn]
        exact h.names.subset (List.mem_map_of_mem hp)
      rw [hnone, heq]
      exact .left ((Table.lookup_eq_some_iff_mem hdefaults).2 hf)
    | false => exact ih hrest

/-- Either both objects are refused for the same reason, or of what is seen of the first one again
some fields are left out. -/
theorem judge_abridges (hslots : Lenient slots defaults part within)
    (h : Abridges defaults part within fs gs) :
    (∃ e, judge slots o fs = .error e ∧ judge slots o gs = .error e) ∨
      ∃ got got', judge slots o fs = .ok got ∧ judge slots o gs = .ok got' ∧
        got.Sublist fs ∧ Abridges defaults part within got got' := by
  induction h with
  | done => exact .inr ⟨[], [], rfl, rfl, .slnil, .done⟩
  | @keep f fs gs h ih =>
    obtain ⟨name, j⟩ := f
    rw [judge, judge]
    cases slots.find? fun s => s.name == name with
    | none =>
      simp only
      split
      · exact .inl ⟨_, rfl, rfl⟩
      · rcases ih with herror | ⟨got, got', hfs, hgs, hsub, hgot⟩
        · exact .inl herror
        · exact .inr ⟨got, got', hfs, hgs, hsub.cons _, hgot⟩
    | some slot =>
      simp only
      cases slot.check o j with
      | error e => exact .inl ⟨e, rfl, rfl⟩
      | ok u =>
        rcases ih with ⟨e, hfs, hgs⟩ | ⟨got, got', hfs, hgs, hsub, hgot⟩
        · exact .inl ⟨e, by rw [hfs]; rfl, by rw [hgs]; rfl⟩
        · exact .inr ⟨_, _, by rw [hfs]; rfl, by rw [hgs]; rfl, hsub.cons_cons _, hgot.keep⟩
  | @shorten j k fs gs hjk h ih =>
    obtain ⟨slot, hslot, hname, hcheck⟩ := hslots.part j k hjk
    rw [judge, judge, ← hname, find?_name hslots.distinct hslot]
    simp only [hcheck o]
    cases slot.check o j with
    | error e => exact .inl ⟨e, rfl, rfl⟩
    | ok u =>
      rcases ih with ⟨e, hfs, hgs⟩ | ⟨got, got', hfs, hgs, hsub, hgot⟩
      · exact .inl ⟨e, by rw [hfs]; rfl, by rw [hgs]; rfl⟩
      · exact .inr ⟨_, _, by rw [hfs]; rfl, by rw [hgs]; rfl, hsub.cons_cons _,
          hname ▸ hgot.shorten hjk⟩
  | @leave f fs gs hf h ih =>
    -- a default is right, so it is never the reason why an object is refused
    obtain ⟨name, j⟩ := f
    obtain ⟨slot, hslot, hname, -, hcheck⟩ := hslots.defaults _ hf
    obtain rfl : slot.name = name := hname
    have hright : slot.check o j = .ok () := hcheck o
    rw [judge, find?_name hslots.distinct hslot]
    simp only [hright]
    rcases ih with ⟨e, hfs, hgs⟩ | ⟨got, got', hfs, hgs, hsub, hgot⟩
    · exact .inl ⟨e, by rw [hfs]; rfl, hgs⟩
    · exact .inr ⟨_, _, by rw [hfs]; rfl, hgs, hsub.cons_cons _, hgot.leave hf⟩

/-- A field that has to be there is never left out. -/
theorem isNone_lookup_abridges (hslots : Lenient slots defaults part within)
    (h : Abridges defaults part within got got') (hnames : (got.map Prod.fst).Nodup) {slot : Slot}
    (hslot : slot ∈ slots) : (slot.required && (got'.lookup slot.name).isNone) =
      (slot.required && (got.lookup slot.name).isNone) := by
  have halike := h.lookup hslots.names hnames slot.name
  generalize got.lookup slot.name = j at halike ⊢
  generalize got'.lookup slot.name = k at halike ⊢
  cases halike with
  | same => rfl
  | short hname hjk => rfl
  | left hdefault =>
    obtain ⟨slot', hslot', hname, hrequired, -⟩ :=
      hslots.defaults _ ((Table.lookup_eq_some_iff_mem hslots.names).1 hdefault)
    rw [List.inj_on_of_nodup_map hslots.distinct hslot' hslot hname] at hrequired
    rw [hrequired, Bool.false_and, Bool.false_and]

/-- An object of which some fields are left out decodes to the same value, or is refused for the
same reason, if the value is made of fields that read the same. -/
theorem bind_fields_abridged {α : Type} {type : String}
    {make : List (String × Json) → Except Mismatch α} (hslots : Lenient slots defaults part within)
    (h : Abridged defaults part within j k)
    (hmake : ∀ got got', (∀ name, Alike defaults part within name (got.lookup name)
      (got'.lookup name)) → make got' = make got) :
    (fields type slots o k >>= make) = (fields type slots o j >>= make) := by
  obtain rfl | ⟨fs, gs, rfl, rfl, hnames, habridges⟩ := h
  · rfl
  rw [fields_of_nodup hnames, fields_of_nodup (hnames.sublist habridges.names)]
  rcases judge_abridges hslots habridges with ⟨e, hfs, hgs⟩ | ⟨got, got', hfs, hgs, hsub, hgot⟩
  · rw [hfs, hgs]
  · have hdistinct : (got.map Prod.fst).Nodup := hnames.sublist (hsub.map Prod.fst)
    have hmissing : (slots.find? fun s => s.required && (got'.lookup s.name).isNone) =
        slots.find? fun s => s.required && (got.lookup s.name).isNone :=
      List.find?_congr fun slot hslot => isNone_lookup_abridges hslots hgot hdistinct hslot
    rw [hfs, hgs]
    simp only [hmissing]
    split
    · rfl
    · exact hmake got got' (hgot.lookup hslots.names hdistinct)

section Reading

variable {α : Type}
  (hgot : ∀ name, Alike defaults part within name (got.lookup name) (got'.lookup name))

include hgot

/-- A field without default reads the same. -/
theorem need_alike (o : Origin) (name : String) (d : Decoder α) (hneeded : defaults.lookup name = none)
    (hshort : name = part → Overlooks d within) : need got' o name d = need got o name d := by
  have halike := hgot name
  unfold need
  generalize got.lookup name = j at halike ⊢
  generalize got'.lookup name = k at halike ⊢
  cases halike with
  | same => rfl
  | short hname hjk => exact hshort hname _ _ hjk o
  | left hdefault =>
    rw [hdefault] at hneeded
    cases hneeded

/-- A field with a default reads the same, whether it is there or not. -/
theorem get_alike (o : Origin) (name : String) (d : Decoder α) (default : α) (hdefault : defaults.lookup name = some j)
    (hj : d o j = .ok default) (hshort : name = part → Overlooks d within) :
    Json.get got' o name d default = Json.get got o name d default := by
  have halike := hgot name
  unfold Json.get
  generalize got.lookup name = a at halike ⊢
  generalize got'.lookup name = b at halike ⊢
  cases halike with
  | same => rfl
  | short hname hjk => exact hshort hname _ _ hjk o
  | left hleft =>
    rw [hleft] at hdefault
    cases hdefault
    exact hj.symm

end Reading

end Abridging

end Matchmaking.Json
