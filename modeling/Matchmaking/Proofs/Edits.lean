import Matchmaking.Proofs.Roster

/-!
# Rosters that come about by edits

A roster is edited by inserting, removing and promoting tickets. In whatever order that is done,
tickets wait under their own names, only waiting tickets are active, and every waiting ticket is
found under all of its owners (`Orderly`). More may be found: a ticket that is inserted under the
name of a waiting one takes its place as the ticket of the name, but the name stays active if it
was, and it stays under the owners of the earlier ticket (`Leftover`). So inserting a ticket is as
good as removing the earlier ticket of the name first exactly if that one is not active and all of
its owners are owners of the new one (`insert_of_edits`).
-/

namespace Matchmaking

namespace Roster

/-- A change of a roster. -/
inductive Edit
  /-- A ticket comes. -/
  | insert (p : Pooled)
  /-- A ticket goes. -/
  | remove (id : String)
  /-- A ticket is made active. -/
  | promote (id : String)

/-- The roster after an edit. -/
def edit (r : Roster) : Edit → Roster
  | .insert p => r.insert p
  | .remove id => r.remove id
  | .promote id => r.promote id

/-- What some edits make of the roster without tickets. -/
def edited (edits : List Edit) : Roster := edits.foldl edit empty

variable {r r' : Roster} {p : Pooled}

/-! ## What edits keep -/

/-- Tickets wait under their own names and are found under all of their owners, and nobody else is
active. -/
structure Orderly (r : Roster) : Prop where
  keyed : ∀ id p, r.get? id = some p → p.id = id
  active : r.OnlyWaitingActive
  found : ∀ id p, r.get? id = some p → ∀ o : Owner, o.Owns p.ticket → id ∈ o.lookUp r

namespace Orderly

theorem insert (h : r.Orderly) (p : Pooled) : (r.insert p).Orderly := by
  refine ⟨fun id q hq => ?_, h.active.insert p, fun id q hq o ho => ?_⟩
  · rw [get?_insert] at hq
    split at hq
    · rename_i hid
      cases hq
      exact hid.symm
    · exact h.keyed id q hq
  · rw [get?_insert] at hq
    rw [Owner.mem_lookUp_insert]
    split at hq
    · rename_i hid
      cases hq
      exact Or.inl ⟨hid, ho⟩
    · exact Or.inr (h.found id q hq o ho)

theorem remove (h : r.Orderly) (id : String) : (r.remove id).Orderly := by
  refine ⟨fun id' q hq => ?_, h.active.remove id, fun id' q hq o ho => ?_⟩
  · rw [get?_remove] at hq
    split at hq
    · cases hq
    · exact h.keyed id' q hq
  · rw [get?_remove] at hq
    rw [Owner.mem_lookUp_remove]
    split at hq
    · cases hq
    · rename_i hid
      exact ⟨fun hgone => hid hgone.1, h.found id' q hq o ho⟩

theorem promote (h : r.Orderly) (id : String) : (r.promote id).Orderly := by
  refine ⟨fun id' q hq => ?_, h.active.promote id, fun id' q hq o ho => ?_⟩
  · rw [get?_promote] at hq
    exact h.keyed id' q hq
  · rw [get?_promote] at hq
    rw [Owner.lookUp_promote]
    exact h.found id' q hq o ho

theorem edit (h : r.Orderly) (e : Edit) : (r.edit e).Orderly := by
  cases e with
  | insert p => exact h.insert p
  | remove id => exact h.remove id
  | promote id => exact h.promote id

end Orderly

theorem orderly_empty : empty.Orderly := by
  refine ⟨fun id p hp => ?_, fun id hactive => ?_, fun id p hp => ?_⟩
  · simp [empty, get?] at hp
  · simp [empty, isActive] at hactive
  · simp [empty, get?] at hp

theorem orderly_edited (edits : List Edit) : (edited edits).Orderly := by
  have hrun : ∀ r : Roster, r.Orderly → (edits.foldl Roster.edit r).Orderly := by
    induction edits with
    | nil => exact fun r hr => hr
    | cons e rest ih => exact fun r hr => ih (r.edit e) (hr.edit e)
  exact hrun empty orderly_empty

/-! ## Inserting under a name that is taken -/

/-- The roster with a ticket in place of the earlier one of its name, which is removed first. -/
def replace (r : Roster) (p : Pooled) : Roster := (r.remove p.id).insert p

theorem tickets_replace (r : Roster) (p : Pooled) :
    (r.replace p).tickets = (r.insert p).tickets := by
  rw [replace, insert_tickets, insert_tickets, remove_tickets, Table.insert_erase]

theorem isActive_replace (h : r.OnlyWaitingActive) (p : Pooled) (id : String) :
    (r.replace p).isActive id = (id != p.id && r.isActive id) := by
  rw [replace, isActive_insert]
  cases hget : r.get? p.id with
  | some q => exact isActive_remove hget id
  | none =>
    rw [remove_of_get?_eq_none hget]
    by_cases hid : id = p.id
    · rw [hid, h.isActive_eq_false hget, Bool.and_false]
    · rw [bne_iff_ne.2 hid, Bool.true_and]

theorem activeSize_replace (h : r.OnlyWaitingActive) (p : Pooled) :
    (r.replace p).activeSize + (if r.isActive p.id then 1 else 0) = r.activeSize := by
  have hactive : (r.replace p).active = r.active.erase p.id := by
    refine Names.ext fun id => ?_
    rw [Table.contains_erase]
    exact isActive_replace h p id
  rw [activeSize, hactive]
  split
  · rename_i hwas
    exact Table.size_erase hwas
  · rename_i hnot
    rw [Table.erase_of_contains_eq_false (Bool.eq_false_iff.2 hnot)]
    rfl

theorem mem_lookUp_replace (o : Owner) (r : Roster) (p : Pooled) (id : String) :
    id ∈ o.lookUp (r.replace p) ↔ (id = p.id ∧ o.Owns p.ticket) ∨
      ¬ (id = p.id ∧ ∃ q, r.get? p.id = some q ∧ o.Owns q.ticket) ∧ id ∈ o.lookUp r := by
  rw [replace, Owner.mem_lookUp_insert, Owner.mem_lookUp_remove]

/-- What a roster shows if a ticket is inserted, compared with what it shows if the earlier ticket
of the name is removed first. -/
structure Leftover (r : Roster) (p : Pooled) : Prop where
  /-- The new ticket takes the place of the earlier one. -/
  get? : ∀ id, (r.insert p).get? id = (r.replace p).get? id
  size : (r.insert p).size = (r.replace p).size
  /-- The name stays active. -/
  isActive : ∀ id, (r.insert p).isActive id = true ↔
    (r.replace p).isActive id = true ∨ (id = p.id ∧ r.isActive p.id = true)
  activeSize : (r.insert p).activeSize =
    (r.replace p).activeSize + if r.isActive p.id then 1 else 0
  poolSize : (r.replace p).poolSize =
    (r.insert p).poolSize + if r.isActive p.id then 1 else 0
  /-- The name stays under the owners of the earlier ticket. -/
  lookUp : ∀ (o : Owner) id, id ∈ o.lookUp (r.insert p) ↔
    id ∈ o.lookUp (r.replace p) ∨ (id = p.id ∧ ∃ q, r.get? p.id = some q ∧ o.Owns q.ticket)

theorem Orderly.leftover (h : r.Orderly) (p : Pooled) : r.Leftover p := by
  have htickets : (r.replace p).tickets = (r.insert p).tickets := tickets_replace r p
  have hsize : (r.replace p).activeSize + (if r.isActive p.id then 1 else 0) =
      (r.insert p).activeSize := by
    rw [activeSize_replace h.active]
    unfold Roster.insert
    cases p.ticket.party <;> rfl
  refine ⟨fun id => ?_, ?_, fun id => ?_, hsize.symm, ?_, fun o id => ?_⟩
  · rw [Roster.get?, Roster.get?, htickets]
  · rw [Roster.size, Roster.size, htickets]
  · rw [isActive_insert, isActive_replace h.active]
    by_cases hid : id = p.id
    · simp [hid]
    · simp [hid]
  · have hle : (r.insert p).activeSize ≤ (r.insert p).tickets.size := (h.active.insert p).size_le
    have hpool : (r.insert p).poolSize = (r.insert p).tickets.size - (r.insert p).activeSize := rfl
    have hpool' : (r.replace p).poolSize =
        (r.insert p).tickets.size - (r.replace p).activeSize := by
      rw [poolSize, htickets]
      rfl
    omega
  · rw [Owner.mem_lookUp_insert, mem_lookUp_replace]
    have hfound : ∀ q, r.get? p.id = some q → o.Owns q.ticket → p.id ∈ o.lookUp r :=
      fun q hq ho => h.found p.id q hq o ho
    grind

/-- Two rosters show the same tickets, the same of them as active, and the same ones under every
owner. -/
structure LooksLike (r r' : Roster) : Prop where
  get? : ∀ id, r.get? id = r'.get? id
  size : r.size = r'.size
  poolSize : r.poolSize = r'.poolSize
  activeSize : r.activeSize = r'.activeSize
  isActive : ∀ id, r.isActive id = r'.isActive id
  ofSession : ∀ x, r.ofSession x = r'.ofSession x
  ofParty : ∀ x, r.ofParty x = r'.ofParty x

theorem LooksLike.lookUp (h : r.LooksLike r') (o : Owner) : o.lookUp r = o.lookUp r' := by
  cases o with
  | party x => exact h.ofParty x
  | session x => exact h.ofSession x

/-- If a ticket waits under the name of another one, it is not active, and all of its owners are
owners of the other one. -/
def GivesWay (r : Roster) (p : Pooled) : Prop :=
  ∀ q, r.get? p.id = some q →
    r.isActive p.id = false ∧ ∀ o : Owner, o.Owns q.ticket → o.Owns p.ticket

theorem GivesWay.isActive_eq_false (hgives : r.GivesWay p) (h : r.OnlyWaitingActive) :
    r.isActive p.id = false := by
  cases hget : r.get? p.id with
  | none => exact h.isActive_eq_false hget
  | some q => exact (hgives q hget).1

/-- Nothing is left of a ticket that gives way. -/
theorem GivesWay.looksLike (hgives : r.GivesWay p) (h : r.Orderly) :
    (r.insert p).LooksLike (r.replace p) := by
  have hleft : r.Leftover p := h.leftover p
  have hpooled : r.isActive p.id = false := hgives.isActive_eq_false h.active
  have hactiveSize := hleft.activeSize
  have hpoolSize := hleft.poolSize
  rw [hpooled] at hactiveSize hpoolSize
  have hlookUp : ∀ o : Owner, o.lookUp (r.insert p) = o.lookUp (r.replace p) := by
    intro o
    refine Owner.lookUp_ext fun id => ?_
    rw [hleft.lookUp]
    constructor
    · rintro (hid | ⟨rfl, q, hq, ho⟩)
      · exact hid
      · exact (mem_lookUp_replace o r p p.id).2 (Or.inl ⟨rfl, (hgives q hq).2 o ho⟩)
    · exact Or.inl
  refine ⟨hleft.get?, hleft.size, hpoolSize.symm, hactiveSize, fun id => ?_,
    fun x => hlookUp (.session x), fun x => hlookUp (.party x)⟩
  rw [Bool.eq_iff_iff, hleft.isActive, hpooled]
  simp

/-- A ticket of which nothing is left gives way. -/
theorem LooksLike.givesWay (hlooks : (r.insert p).LooksLike (r.replace p)) (h : r.Orderly) :
    r.GivesWay p := by
  intro q hq
  constructor
  · rw [← isActive_insert r p, hlooks.isActive, isActive_replace h.active, bne_self_eq_false,
      Bool.false_and]
  · intro o ho
    have hstays : p.id ∈ o.lookUp (r.insert p) :=
      ((h.leftover p).lookUp o p.id).2 (Or.inr ⟨rfl, q, hq, ho⟩)
    rw [hlooks.lookUp, mem_lookUp_replace] at hstays
    rcases hstays with ⟨-, hnew⟩ | ⟨hgone, -⟩
    · exact hnew
    · exact absurd ⟨rfl, q, hq, ho⟩ hgone

/-- However a roster came about, inserting a ticket leaves of the earlier ticket of its name that it
is active and where it was found; it shows the same as removing that ticket first exactly if this
makes no difference. -/
theorem insert_of_edits (edits : List Edit) (p : Pooled) :
    (edited edits).Leftover p ∧
      (((edited edits).insert p).LooksLike ((edited edits).replace p) ↔
        (edited edits).GivesWay p) :=
  ⟨(orderly_edited edits).leftover p, fun hlooks => hlooks.givesWay (orderly_edited edits),
    fun hgives => hgives.looksLike (orderly_edited edits)⟩

/-- A ticket of one user, who is connected by a session. -/
def single (nanos : Int) (id session : String) : Pooled :=
  ⟨.ofRequest id ⟨nanos⟩ (.solo session "u" "*" 2 4 1) "*", .atom .all⟩

/-- A roster whose only ticket is active. -/
def oneActive : Roster := edited [.insert (single 0 "a" "s1"), .promote "a"]

/-- The ticket of another session takes the name, but both sessions lead to it, and it is active. -/
theorem not_looksLike_oneActive :
    (oneActive.insert (single 0 "a" "s2")).ofSession "s1" = ["a"] ∧
      (oneActive.insert (single 0 "a" "s2")).isActive "a" = true ∧
      (oneActive.replace (single 0 "a" "s2")).ofSession "s1" = [] ∧
      (oneActive.replace (single 0 "a" "s2")).isActive "a" = false ∧
      ¬(oneActive.insert (single 0 "a" "s2")).LooksLike (oneActive.replace (single 0 "a" "s2")) := by
  have hleft : (oneActive.insert (single 0 "a" "s2")).ofSession "s1" = ["a"] := by decide +kernel
  have hgone : (oneActive.replace (single 0 "a" "s2")).ofSession "s1" = [] := by decide +kernel
  refine ⟨hleft, by decide +kernel, hgone, by decide +kernel, fun hlooks => ?_⟩
  have hsame := hlooks.ofSession "s1"
  rw [hleft, hgone] at hsame
  cases hsame

end Roster

end Matchmaking
