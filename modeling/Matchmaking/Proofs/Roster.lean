import Mathlib.Data.List.Perm.Subperm
import Matchmaking.Roster

/-!
# What the roster knows

The roster is seen through three views: the ticket of a name, whether a name is active, and the
names found under a session or a party, the owners of tickets. Each operation is described by what
it does to these views. `Roster.Indexed` says that the look-ups find exactly what is on the roster,
`Roster.OnlyWaitingActive` that nobody is active who does not wait.
-/

namespace Matchmaking

namespace Lookup

/-- Whether a look-up leads from a key to a name. -/
def Leads (l : Lookup) (key id : String) : Prop := (names l key).contains id = true

/-- No key leads to an empty set. -/
def Tidy (l : Lookup) : Prop := ∀ key ids, l.get? key = some ids → ids.isEmpty = false

theorem leads_attach {l : Lookup} {key id key' id' : String} :
    (attach l key id).Leads key' id' ↔ (key' = key ∧ id' = id) ∨ l.Leads key' id' := by
  by_cases hk : key' = key
  · subst hk
    simp [Leads, attach, names, Names.contains_add]
  · simp [Leads, attach, names, Table.get?_insert, hk]

theorem leads_detach {l : Lookup} {key id key' id' : String} :
    (detach l key id).Leads key' id' ↔ ¬ (key' = key ∧ id' = id) ∧ l.Leads key' id' := by
  unfold detach
  cases h : l.get? key with
  | none =>
    constructor
    · intro hl
      refine ⟨?_, hl⟩
      rintro ⟨rfl, -⟩
      simp [Leads, names, h] at hl
    · exact fun hl => hl.2
  | some ids =>
    by_cases hk : key' = key
    · subst hk
      -- the key may lose its last name, and then has no entry at all
      by_cases he : (ids.erase id).isEmpty = true
      · have hid := Table.isEmpty_iff.1 he id'
        rw [Table.contains_erase] at hid
        simp only [Leads, names, he, if_true, Table.get?_erase_self, Option.getD_none,
          Table.contains_empty, h, Option.getD_some, true_and]
        constructor
        · intro hf
          cases hf
        · rintro ⟨hne, hc⟩
          simp [hne, hc] at hid
      · simp [Leads, names, he, h]
    · by_cases he : (ids.erase id).isEmpty = true
      · simp [Leads, names, he, Table.get?_erase, hk]
      · simp [Leads, names, he, Table.get?_insert, hk]

theorem Tidy.attach {l : Lookup} (h : l.Tidy) (key id : String) : (attach l key id).Tidy := by
  intro key' ids hids
  rw [Lookup.attach, Table.get?_insert] at hids
  split at hids
  · rw [← Option.some.inj hids]
    exact Table.isEmpty_of_contains (k := id) (by simp)
  · exact h key' ids hids

theorem Tidy.detach {l : Lookup} (h : l.Tidy) (key id : String) : (detach l key id).Tidy := by
  unfold Lookup.detach
  split
  · exact h
  · rename_i ids hget
    intro key' ids' hids
    simp only at hids
    split at hids
    · rw [Table.get?_erase] at hids
      split at hids
      · cases hids
      · exact h key' ids' hids
    · rename_i he
      rw [Table.get?_insert] at hids
      split at hids
      · rw [← Option.some.inj hids]
        simpa using he
      · exact h key' ids' hids

theorem leads_foldl_attach {l : Lookup} {keys : List String} {id key' id' : String} :
    (keys.foldl (fun l k => attach l k id) l).Leads key' id' ↔
      (key' ∈ keys ∧ id' = id) ∨ l.Leads key' id' := by
  induction keys generalizing l with
  | nil => simp
  | cons k rest ih =>
    rw [List.foldl_cons, ih, leads_attach, List.mem_cons]
    grind

theorem leads_foldl_detach {l : Lookup} {keys : List String} {id key' id' : String} :
    (keys.foldl (fun l k => detach l k id) l).Leads key' id' ↔
      ¬ (key' ∈ keys ∧ id' = id) ∧ l.Leads key' id' := by
  induction keys generalizing l with
  | nil => simp
  | cons k rest ih =>
    rw [List.foldl_cons, ih, leads_detach, List.mem_cons]
    grind

theorem Tidy.foldl {l : Lookup} {f : Lookup → String → Lookup} (keys : List String)
    (hf : ∀ l k, l.Tidy → (f l k).Tidy) (h : l.Tidy) : (keys.foldl f l).Tidy := by
  induction keys generalizing l with
  | nil => exact h
  | cons k rest ih => exact ih (hf l k h)

end Lookup

namespace Roster

variable {r : Roster} {p : Pooled}

/-! ## The ticket of a name -/

theorem get?_insert (r : Roster) (p : Pooled) (id : String) :
    (r.insert p).get? id = if id = p.id then some p else r.get? id := by
  unfold insert get?
  cases p.ticket.party <;> exact Table.get?_insert r.tickets p.id id p

theorem get?_remove (r : Roster) (id id' : String) :
    (r.remove id).get? id' = if id' = id then none else r.get? id' := by
  unfold remove
  cases h : r.get? id with
  | none =>
    by_cases hid : id' = id
    · simp [hid, h]
    · simp [hid]
  | some p => cases hp : p.ticket.party <;> simp [get?, hp, Table.get?_erase]

@[simp]
theorem get?_promote (r : Roster) (id id' : String) : (r.promote id).get? id' = r.get? id' := by
  unfold promote
  split <;> rfl

theorem get?_foldl_remove (ids : List String) (r : Roster) (id : String) :
    (ids.foldl remove r).get? id = if id ∈ ids then none else r.get? id := by
  induction ids generalizing r with
  | nil => simp
  | cons x rest ih =>
    rw [List.foldl_cons, ih, get?_remove]
    by_cases hx : id = x <;> by_cases hrest : id ∈ rest <;> simp [hx, hrest]

theorem insert_tickets (r : Roster) (p : Pooled) :
    (r.insert p).tickets = r.tickets.insert p.id p := by
  unfold insert
  cases p.ticket.party <;> rfl

theorem remove_tickets (r : Roster) (id : String) : (r.remove id).tickets = r.tickets.erase id := by
  refine Table.ext_get? fun id' => ?_
  rw [Table.get?_erase]
  exact get?_remove r id id'

theorem promote_tickets (r : Roster) (id : String) : (r.promote id).tickets = r.tickets := by
  unfold promote
  split <;> rfl

/-! ## Activity -/

@[simp]
theorem isActive_insert (r : Roster) (p : Pooled) (id : String) :
    (r.insert p).isActive id = r.isActive id := by
  unfold insert
  cases p.ticket.party <;> rfl

/-- Removing a waiting ticket makes it inactive and leaves all others as they are. -/
theorem isActive_remove {id : String} (h : r.get? id = some p) (id' : String) :
    (r.remove id).isActive id' = (id' != id && r.isActive id') := by
  unfold remove
  rw [h]
  cases hp : p.ticket.party <;> simp [isActive, hp]

theorem remove_of_get?_eq_none {id : String} (h : r.get? id = none) : r.remove id = r := by
  rw [remove, h]

theorem isActive_promote (r : Roster) (id id' : String) :
    (r.promote id).isActive id' = ((id' == id && r.promotable id) || r.isActive id') := by
  unfold promote
  cases h : r.promotable id <;> simp [isActive]

/-- Making a ticket active changes nothing else. -/
theorem promote_eq (r : Roster) (id : String) :
    r.promote id = { r with active := (r.promote id).active } := by
  unfold promote
  split <;> rfl

theorem foldl_promote_eq (ids : List String) (r : Roster) :
    ids.foldl promote r = { r with active := (ids.foldl promote r).active } := by
  induction ids generalizing r with
  | nil => rfl
  | cons id rest ih =>
    rw [List.foldl_cons, ih, promote_eq r id]

@[simp]
theorem get?_foldl_promote (ids : List String) (r : Roster) (id : String) :
    (ids.foldl promote r).get? id = r.get? id := by
  rw [foldl_promote_eq]
  rfl

theorem isActive_foldl_promote {ids : List String} {r : Roster} {id : String} :
    (ids.foldl promote r).isActive id = true ↔
      r.isActive id = true ∨ id ∈ ids ∧ r.tickets.contains id = true := by
  induction ids generalizing r with
  | nil => simp
  | cons x rest ih =>
    rw [List.foldl_cons, ih, isActive_promote, promote_tickets]
    simp only [promotable, Bool.or_eq_true, Bool.and_eq_true, beq_iff_eq, Bool.not_eq_true',
      List.mem_cons]
    cases hactive : r.isActive id with
    | true => simp
    | false =>
      constructor
      · rintro ((⟨rfl, hwaits, -⟩ | h) | ⟨hmem, hwaits⟩)
        · exact Or.inr ⟨Or.inl rfl, hwaits⟩
        · cases h
        · exact Or.inr ⟨Or.inr hmem, hwaits⟩
      · rintro (h | ⟨rfl | hmem, hwaits⟩)
        · cases h
        · exact Or.inl (Or.inl ⟨rfl, hwaits, hactive⟩)
        · exact Or.inr ⟨hmem, hwaits⟩

/-- Only waiting tickets are active. -/
def OnlyWaitingActive (r : Roster) : Prop :=
  ∀ id, r.isActive id = true → r.tickets.contains id = true

namespace OnlyWaitingActive

theorem insert (h : r.OnlyWaitingActive) (p : Pooled) : (r.insert p).OnlyWaitingActive := by
  intro id hactive
  rw [isActive_insert] at hactive
  rw [insert_tickets, Table.contains_insert, h id hactive, Bool.or_true]

theorem remove (h : r.OnlyWaitingActive) (id : String) : (r.remove id).OnlyWaitingActive := by
  intro id' hactive
  cases hget : r.get? id with
  | none =>
    rw [remove_of_get?_eq_none hget] at hactive ⊢
    exact h id' hactive
  | some p =>
    rw [isActive_remove hget, Bool.and_eq_true] at hactive
    rw [remove_tickets, Table.contains_erase, hactive.1, h id' hactive.2]
    rfl

theorem promote (h : r.OnlyWaitingActive) (id : String) : (r.promote id).OnlyWaitingActive := by
  intro id' hactive
  rw [isActive_promote, Bool.or_eq_true, Bool.and_eq_true, beq_iff_eq] at hactive
  rw [promote_tickets]
  rcases hactive with ⟨rfl, hpromotable⟩ | hactive
  · rw [promotable, Bool.and_eq_true] at hpromotable
    exact hpromotable.1
  · exact h id' hactive

theorem isActive_eq_false (h : r.OnlyWaitingActive) {id : String} (hget : r.get? id = none) :
    r.isActive id = false := by
  rw [Bool.eq_false_iff]
  intro hactive
  have hcontains := h id hactive
  rw [Table.contains_eq_false_iff.2 hget] at hcontains
  cases hcontains

theorem size_le (h : r.OnlyWaitingActive) : r.active.size ≤ r.tickets.size := by
  have hsubset : r.active.keys ⊆ r.tickets.keys := by
    intro id hid
    exact Table.contains_iff_mem_keys.1 (h id (Table.contains_iff_mem_keys.2 hid))
  have hlength := (r.active.nodup_keys.subperm hsubset).length_le
  rwa [Table.keys, Table.keys, List.length_map, List.length_map] at hlength

end OnlyWaitingActive

/-! ## Look-ups -/

/-- The look-ups find exactly the tickets on the roster: under a session those without a party that
have a presence of it, under a party those of the party. -/
structure Indexed (r : Roster) : Prop where
  session : ∀ x id, r.bySession.Leads x id ↔
    ∃ p, r.get? id = some p ∧ p.ticket.party = none ∧ x ∈ p.ticket.sessions
  party : ∀ x id, r.byParty.Leads x id ↔ ∃ p, r.get? id = some p ∧ p.ticket.party = some x
  tidySession : r.bySession.Tidy
  tidyParty : r.byParty.Tidy

theorem indexed_empty : empty.Indexed where
  session x id := by simp [empty, Lookup.Leads, Lookup.names, get?]
  party x id := by simp [empty, Lookup.Leads, Lookup.names, get?]
  tidySession key ids h := by simp [empty] at h
  tidyParty key ids h := by simp [empty] at h

/-- An inserted ticket is found where it belongs, and all others where they were. -/
theorem leads_bySession_insert (r : Roster) (p : Pooled) (x id : String) :
    (r.insert p).bySession.Leads x id ↔
      (id = p.id ∧ p.ticket.party = none ∧ x ∈ p.ticket.sessions) ∨ r.bySession.Leads x id := by
  cases hp : p.ticket.party with
  | none =>
    have hb : (r.insert p).bySession =
        p.ticket.sessions.foldl (fun l s => Lookup.attach l s p.id) r.bySession := by
      simp [insert, hp]
    rw [hb, Lookup.leads_foldl_attach]
    grind
  | some party =>
    have hb : (r.insert p).bySession = r.bySession := by simp [insert, hp]
    simp [hb]

theorem leads_byParty_insert (r : Roster) (p : Pooled) (x id : String) :
    (r.insert p).byParty.Leads x id ↔
      (id = p.id ∧ p.ticket.party = some x) ∨ r.byParty.Leads x id := by
  cases hp : p.ticket.party with
  | none =>
    have hb : (r.insert p).byParty = r.byParty := by simp [insert, hp]
    simp [hb]
  | some party =>
    have hb : (r.insert p).byParty = Lookup.attach r.byParty party p.id := by simp [insert, hp]
    rw [hb, Lookup.leads_attach, Option.some.injEq]
    grind

/-- A removed ticket is no longer found where it belongs, and all others are where they were. -/
theorem leads_bySession_remove (r : Roster) (id x id' : String) :
    (r.remove id).bySession.Leads x id' ↔
      ¬ (id' = id ∧ ∃ p, r.get? id = some p ∧ p.ticket.party = none ∧ x ∈ p.ticket.sessions) ∧
        r.bySession.Leads x id' := by
  cases hget : r.get? id with
  | none =>
    rw [remove_of_get?_eq_none hget]
    simp
  | some p =>
    cases hp : p.ticket.party with
    | none =>
      have hb : (r.remove id).bySession =
          p.ticket.sessions.foldl (fun l s => Lookup.detach l s id) r.bySession := by
        simp [remove, hget, hp]
      rw [hb, Lookup.leads_foldl_detach]
      grind
    | some party =>
      have hb : (r.remove id).bySession = r.bySession := by simp [remove, hget, hp]
      simp [hb, hp]

theorem leads_byParty_remove (r : Roster) (id x id' : String) :
    (r.remove id).byParty.Leads x id' ↔
      ¬ (id' = id ∧ ∃ p, r.get? id = some p ∧ p.ticket.party = some x) ∧
        r.byParty.Leads x id' := by
  cases hget : r.get? id with
  | none =>
    rw [remove_of_get?_eq_none hget]
    simp
  | some p =>
    cases hp : p.ticket.party with
    | none =>
      have hb : (r.remove id).byParty = r.byParty := by simp [remove, hget, hp]
      simp [hb, hp]
    | some party =>
      have hb : (r.remove id).byParty = Lookup.detach r.byParty party id := by
        simp [remove, hget, hp]
      rw [hb, Lookup.leads_detach]
      grind

/-- A ticket under a name that nobody has yet is found where it belongs. -/
theorem Indexed.insert (h : r.Indexed) (hnew : r.get? p.id = none) : (r.insert p).Indexed := by
  refine ⟨fun x id => ?_, fun x id => ?_, ?_, ?_⟩
  · rw [leads_bySession_insert, h.session, get?_insert]
    grind
  · rw [leads_byParty_insert, h.party, get?_insert]
    grind
  · unfold Roster.insert
    cases p.ticket.party with
    | none => exact h.tidySession.foldl _ fun l k hl => hl.attach k p.id
    | some party => exact h.tidySession
  · unfold Roster.insert
    cases p.ticket.party with
    | none => exact h.tidyParty
    | some party => exact h.tidyParty.attach party p.id

/-- A removed ticket is found nowhere any more, and all others where they were. -/
theorem Indexed.remove (h : r.Indexed) (id : String) : (r.remove id).Indexed := by
  refine ⟨fun x id' => ?_, fun x id' => ?_, ?_, ?_⟩
  · rw [leads_bySession_remove, h.session, get?_remove]
    grind
  · rw [leads_byParty_remove, h.party, get?_remove]
    grind
  · unfold Roster.remove
    split
    · exact h.tidySession
    · split
      · exact h.tidySession
      · exact h.tidySession.foldl _ fun l k hl => hl.detach k id
  · unfold Roster.remove
    split
    · exact h.tidyParty
    · split
      · exact h.tidyParty.detach _ id
      · exact h.tidyParty

theorem Indexed.foldl_remove (h : r.Indexed) (ids : List String) :
    (ids.foldl Roster.remove r).Indexed := by
  induction ids generalizing r with
  | nil => exact h
  | cons x rest ih => exact ih (h.remove x)

theorem Indexed.promote (h : r.Indexed) (id : String) : (r.promote id).Indexed := by
  have hb : (r.promote id).bySession = r.bySession := by
    unfold Roster.promote
    split <;> rfl
  have hq : (r.promote id).byParty = r.byParty := by
    unfold Roster.promote
    split <;> rfl
  refine ⟨fun x id' => ?_, fun x id' => ?_, ?_, ?_⟩
  · rw [hb, h.session, get?_promote]
  · rw [hq, h.party, get?_promote]
  · rw [hb]
    exact h.tidySession
  · rw [hq]
    exact h.tidyParty

theorem Indexed.mem_ofSession (h : r.Indexed) {x id : String} :
    id ∈ r.ofSession x ↔
      ∃ p, r.get? id = some p ∧ p.ticket.party = none ∧ x ∈ p.ticket.sessions := by
  rw [ofSession, ← Table.contains_iff_mem_keys]
  exact h.session x id

theorem Indexed.mem_ofParty (h : r.Indexed) {x id : String} :
    id ∈ r.ofParty x ↔ ∃ p, r.get? id = some p ∧ p.ticket.party = some x := by
  rw [ofParty, ← Table.contains_iff_mem_keys]
  exact h.party x id

end Roster

/-! ## Owners -/

/-- Somebody for whom tickets count. -/
inductive Owner
  /-- A party. -/
  | party (name : String)
  /-- A session. -/
  | session (name : String)

namespace Owner

/-- A ticket counts for an owner. -/
def Owns : Owner → Ticket → Prop
  | .party x, t => t.party = some x
  | .session x, t => t.party = none ∧ x ∈ t.sessions

instance : (o : Owner) → (t : Ticket) → Decidable (o.Owns t)
  | .party x, t => inferInstanceAs (Decidable (t.party = some x))
  | .session x, t => inferInstanceAs (Decidable (t.party = none ∧ x ∈ t.sessions))

/-- What the roster has under the name of an owner. -/
def lookUp (o : Owner) (r : Roster) : List String :=
  match o with
  | .party x => r.ofParty x
  | .session x => r.ofSession x

theorem mem_lookUp_insert (o : Owner) (r : Roster) (p : Pooled) (id : String) :
    id ∈ o.lookUp (r.insert p) ↔ (id = p.id ∧ o.Owns p.ticket) ∨ id ∈ o.lookUp r := by
  cases o with
  | party x =>
    simp only [lookUp, Roster.ofParty, ← Table.contains_iff_mem_keys]
    exact Roster.leads_byParty_insert r p x id
  | session x =>
    simp only [lookUp, Roster.ofSession, ← Table.contains_iff_mem_keys]
    exact Roster.leads_bySession_insert r p x id

theorem mem_lookUp_remove (o : Owner) (r : Roster) (id id' : String) :
    id' ∈ o.lookUp (r.remove id) ↔
      ¬ (id' = id ∧ ∃ p, r.get? id = some p ∧ o.Owns p.ticket) ∧ id' ∈ o.lookUp r := by
  cases o with
  | party x =>
    simp only [lookUp, Roster.ofParty, ← Table.contains_iff_mem_keys]
    exact Roster.leads_byParty_remove r id x id'
  | session x =>
    simp only [lookUp, Roster.ofSession, ← Table.contains_iff_mem_keys]
    exact Roster.leads_bySession_remove r id x id'

theorem lookUp_promote (o : Owner) (r : Roster) (id : String) :
    o.lookUp (r.promote id) = o.lookUp r := by
  rw [Roster.promote_eq]
  cases o <;> rfl

/-- What is listed under an owner is determined by who is found there. -/
theorem lookUp_ext {o : Owner} {r r' : Roster}
    (h : ∀ id, id ∈ o.lookUp r ↔ id ∈ o.lookUp r') : o.lookUp r = o.lookUp r' := by
  cases o with
  | party x =>
    simp only [lookUp, Roster.ofParty, ← Table.contains_iff_mem_keys] at h ⊢
    rw [Names.ext fun k => Bool.eq_iff_iff.2 (h k)]
  | session x =>
    simp only [lookUp, Roster.ofSession, ← Table.contains_iff_mem_keys] at h ⊢
    rw [Names.ext fun k => Bool.eq_iff_iff.2 (h k)]

end Owner

end Matchmaking
