import Matchmaking.Proofs.Edits
import Matchmaking.Proofs.Mirrors

/-!
# Seniority

A pass processes active tickets first, then older ones, then those of smaller names. Tickets wait
under their own names, so no two of them are equal for this order, and sorting leads to the same
list from whatever listing of the tickets it starts (`InOrder.unique`). Therefore the order of a
pass depends on nothing but the waiting tickets and the names of the active ones, however the roster
came about. Main statement: `processingOrder_of_edits`.
-/

namespace Matchmaking

namespace Snapshot

variable {s : Snapshot} {order order' : List (Pooled × Bool)} {listing : List Pooled}
  {p q : Pooled}

/-! ## The comparison -/

/-- One ticket comes before another one if it is active and the other one is not; among equally
active ones, if it is older; among equally old ones, if its name is not greater. -/
theorem before_iff {a b : Pooled × Bool} : before a b = true ↔
    (a.2 = true ∧ b.2 = false) ∨ (a.2 = b.2 ∧
      (a.1.ticket.createdAt.nanos < b.1.ticket.createdAt.nanos ∨
        (a.1.ticket.createdAt.nanos = b.1.ticket.createdAt.nanos ∧ a.1.id ≤ b.1.id))) := by
  unfold before
  by_cases hactive : a.2 = b.2
  · rw [hactive, bne_self_eq_false, if_neg Bool.false_ne_true]
    by_cases hage : a.1.ticket.createdAt.nanos = b.1.ticket.createdAt.nanos
    · simp [hage]
    · rw [bne_iff_ne.2 hage, if_pos rfl]
      simp [hage]
  · rw [bne_iff_ne.2 hactive, if_pos rfl]
    cases ha : a.2 <;> cases hb : b.2 <;> simp_all

theorem before_trans (a b c : Pooled × Bool) (hab : before a b = true)
    (hbc : before b c = true) : before a c = true := by
  rw [before_iff] at hab hbc ⊢
  rcases hab with ⟨ha, hb⟩ | ⟨hactive, hab⟩
  · rcases hbc with ⟨hb', -⟩ | ⟨hactive, -⟩
    · rw [hb] at hb'
      cases hb'
    · exact Or.inl ⟨ha, hactive ▸ hb⟩
  · rcases hbc with ⟨hb, hc⟩ | ⟨hactive', hbc⟩
    · exact Or.inl ⟨hactive.trans hb, hc⟩
    · refine Or.inr ⟨hactive.trans hactive', ?_⟩
      rcases hab with hab | ⟨hab, hid⟩
      · left
        rcases hbc with hbc | ⟨hbc, -⟩ <;> omega
      · rcases hbc with hbc | ⟨hbc, hid'⟩
        · left
          omega
        · exact Or.inr ⟨hab.trans hbc, String.le_trans hid hid'⟩

theorem before_total (a b : Pooled × Bool) :
    (before a b || before b a) = true := by
  rw [Bool.or_eq_true, before_iff, before_iff]
  by_cases hactive : a.2 = b.2
  · rcases Int.lt_trichotomy a.1.ticket.createdAt.nanos b.1.ticket.createdAt.nanos with
      hlt | heq | hgt
    · exact Or.inl (Or.inr ⟨hactive, Or.inl hlt⟩)
    · rcases String.le_total a.1.id b.1.id with hid | hid
      · exact Or.inl (Or.inr ⟨hactive, Or.inr ⟨heq, hid⟩⟩)
      · exact Or.inr (Or.inr ⟨hactive.symm, Or.inr ⟨heq.symm, hid⟩⟩)
    · exact Or.inr (Or.inr ⟨hactive.symm, Or.inl hgt⟩)
  · cases hb : b.2 with
    | false => exact Or.inl (Or.inl ⟨Bool.ne_false_iff.1 (hb ▸ hactive), rfl⟩)
    | true => exact Or.inr (Or.inl ⟨rfl, Bool.eq_false_iff.2 (hb ▸ hactive)⟩)

/-- One ticket is older than another one, or as old and of a smaller name. -/
def Senior (p q : Pooled) : Prop :=
  p.ticket.createdAt < q.ticket.createdAt ∨
    (p.ticket.createdAt = q.ticket.createdAt ∧ p.id < q.id)

theorem Senior.asymm (h : Senior p q) : ¬Senior q p := by
  intro h'
  rcases h with hlt | ⟨heq, hid⟩
  · rcases h' with hlt' | ⟨heq', -⟩
    · exact Int.lt_asymm hlt hlt'
    · rw [heq'] at hlt
      exact Int.lt_irrefl _ hlt
  · rcases h' with hlt' | ⟨-, hid'⟩
    · rw [heq] at hlt'
      exact Int.lt_irrefl _ hlt'
    · exact String.lt_asymm hid hid'

/-- Of two tickets of different names, the one that comes before the other one is senior to it,
unless only the first is active. -/
theorem senior_of_before {a b : Pooled × Bool} (h : before a b = true) (hid : a.1.id ≠ b.1.id) :
    (b.2 = true → a.2 = true) ∧ (a.2 = b.2 → Senior a.1 b.1) := by
  rw [before_iff] at h
  rcases h with ⟨ha, hb⟩ | ⟨hactive, hage⟩
  · refine ⟨fun _ => ha, fun heq => ?_⟩
    rw [ha, hb] at heq
    cases heq
  · refine ⟨fun hb => hactive.trans hb, fun _ => ?_⟩
    rcases hage with hlt | ⟨heq, hle⟩
    · exact Or.inl hlt
    · refine Or.inr ⟨?_, ?_⟩
      · cases ha : a.1.ticket.createdAt
        cases hb : b.1.ticket.createdAt
        rw [ha, hb] at heq
        exact congrArg Instant.mk heq
      · by_contra hnot
        exact hid (String.le_antisymm hle (String.not_lt.1 hnot))

/-! ## The order -/

/-- The tickets of a snapshot in the order of a pass, each with whether it is active. -/
structure InOrder (s : Snapshot) (order : List (Pooled × Bool)) : Prop where
  perm : (order.map Prod.fst).Perm s.tickets.values
  flags : ∀ o ∈ order, o.2 = s.isActive o.1.id
  activeFirst : order.Pairwise fun a b => b.2 = true → a.2 = true
  seniority : order.Pairwise fun a b => a.2 = b.2 → Senior a.1 b.1

/-- What comes of sorting a listing of the tickets of a snapshot. -/
def orderFrom (s : Snapshot) (listing : List Pooled) : List (Pooled × Bool) :=
  (listing.map fun p => (p, s.isActive p.id)).mergeSort before

theorem InOrder.perm_flagged (h : s.InOrder order) :
    order.Perm (s.tickets.values.map fun p => (p, s.isActive p.id)) := by
  have hback : (order.map Prod.fst).map (fun p => (p, s.isActive p.id)) = order := by
    rw [List.map_map]
    refine (List.map_congr_left fun o ho => ?_).trans (List.map_id order)
    exact Prod.ext rfl (h.flags o ho).symm
  rw [← hback]
  exact h.perm.map _

/-- There is one order only. -/
theorem InOrder.unique (h : s.InOrder order) (h' : s.InOrder order') : order = order' := by
  refine List.Perm.eq_of_pairwise (fun a b _ _ hab hba => ?_) (h.activeFirst.and h.seniority)
    (h'.activeFirst.and h'.seniority) (h.perm_flagged.trans h'.perm_flagged.symm)
  have hactive : a.2 = b.2 := Bool.eq_iff_iff.2 ⟨hba.1, hab.1⟩
  exact absurd (hba.2 hactive.symm) (hab.2 hactive).asymm

theorem inOrder_orderFrom (hkeyed : ∀ id p, s.tickets.get? id = some p → p.id = id)
    (hlisting : listing.Perm s.tickets.values) : s.InOrder (s.orderFrom listing) := by
  have hsort : (s.orderFrom listing).Perm (listing.map fun p => (p, s.isActive p.id)) :=
    List.mergeSort_perm _ _
  have hperm : ((s.orderFrom listing).map Prod.fst).Perm s.tickets.values := by
    have hfst := hsort.map Prod.fst
    rw [List.map_map] at hfst
    exact (hfst.trans (List.Perm.of_eq (List.map_id listing))).trans hlisting
  have hnames : (s.orderFrom listing).Pairwise fun a b => a.1.id ≠ b.1.id := by
    have hnodup : (((s.orderFrom listing).map Prod.fst).map Pooled.id).Nodup := by
      rw [(hperm.map Pooled.id).nodup_iff, map_id_values hkeyed]
      exact s.tickets.nodup_keys
    rw [List.map_map] at hnodup
    exact List.pairwise_map.1 hnodup
  have hsorted : (s.orderFrom listing).Pairwise fun a b => before a b = true :=
    List.pairwise_mergeSort before_trans before_total _
  refine ⟨hperm, fun o ho => ?_, ?_, ?_⟩
  · obtain ⟨p, -, rfl⟩ := List.mem_map.1 (hsort.subset ho)
    rfl
  · exact hsorted.imp₂ (fun a b hab hid => (senior_of_before hab hid).1) hnames
  · exact hsorted.imp₂ (fun a b hab hid => (senior_of_before hab hid).2) hnames

end Snapshot

namespace Roster

variable {r r' : Roster}

/-- Orderly rosters of the same tickets, the same of them active, look the same to a pass. -/
theorem Orderly.snapshot_eq (h : r.Orderly) (h' : r'.Orderly)
    (htickets : ∀ p, p ∈ r.tickets.values ↔ p ∈ r'.tickets.values)
    (hactive : ∀ id, r.isActive id = r'.isActive id) : r.snapshot = r'.snapshot := by
  have hsub : ∀ {r r' : Roster}, r.Orderly → r'.Orderly →
      (∀ p ∈ r.tickets.values, p ∈ r'.tickets.values) →
        ∀ {id p}, r.tickets.get? id = some p → r'.tickets.get? id = some p := by
    intro r r' h h' hvalues id p hp
    obtain ⟨id', hp'⟩ := Table.mem_values_iff.1 (hvalues p (Table.mem_values_iff.2 ⟨id, hp⟩))
    have hid : id' = id := (h'.keyed id' p hp').symm.trans (h.keyed id p hp)
    rw [← hid]
    exact hp'
  have hsame : r.tickets = r'.tickets := by
    refine Table.ext_get? fun id => Option.ext fun p => ⟨fun hp => ?_, fun hp => ?_⟩
    · exact hsub h h' (fun p => (htickets p).1) hp
    · exact hsub h' h (fun p => (htickets p).2) hp
  rw [snapshot, snapshot, hsame, Names.ext hactive]

/-- If two rosters come about by edits with the same tickets, the same of them active, a pass
processes them in the same order, from whatever listing of the tickets this is sorted: active
tickets first, and both active and other tickets by seniority. -/
theorem processingOrder_of_edits (edits edits' : List Edit)
    (htickets : ∀ p, p ∈ (edited edits).tickets.values ↔ p ∈ (edited edits').tickets.values)
    (hactive : ∀ id, (edited edits).isActive id = (edited edits').isActive id) :
    (edited edits).snapshot.processingOrder = (edited edits').snapshot.processingOrder ∧
      (∀ listing listing', listing.Perm (edited edits).tickets.values →
        listing'.Perm (edited edits').tickets.values →
          (edited edits).snapshot.orderFrom listing =
            (edited edits').snapshot.orderFrom listing') ∧
      (edited edits).snapshot.InOrder (edited edits).snapshot.processingOrder ∧
      (edited edits').snapshot.InOrder (edited edits').snapshot.processingOrder := by
  have hsame := (orderly_edited edits).snapshot_eq (orderly_edited edits') htickets hactive
  have hlistings : ∀ (edits : List Edit) (listing : List Pooled),
      listing.Perm (edited edits).tickets.values →
        (edited edits).snapshot.InOrder ((edited edits).snapshot.orderFrom listing) :=
    fun edits _ hlisting => Snapshot.inOrder_orderFrom (orderly_edited edits).keyed hlisting
  refine ⟨congrArg _ hsame, fun listing listing' hl hl' => ?_, ?_, ?_⟩
  · have horder' := hlistings edits' listing' hl'
    rw [← hsame] at horder' ⊢
    exact (hlistings edits listing hl).unique horder'
  · exact hlistings edits _ (List.Perm.refl _)
  · exact hlistings edits' _ (List.Perm.refl _)

/-- Three tickets come, and the youngest is made active. -/
def youngestActive : List Edit :=
  [.insert (single 5 "a" "s1"), .insert (single 0 "b" "s2"), .insert (single 0 "c" "s3"),
    .promote "a"]

/-- The same three come in another order, and a fourth one comes and goes. -/
def oneGone : List Edit :=
  [.insert (single 0 "c" "s3"), .insert (single 1 "d" "s4"), .insert (single 5 "a" "s1"),
    .promote "a", .remove "d", .insert (single 0 "b" "s2")]

/-- The active one is first though it is the youngest. Of the other two, which are of the same age,
the one of the smaller name is first, also if the listing begins with the other one. -/
theorem order_oneGone : (edited youngestActive).tickets = (edited oneGone).tickets ∧
    (edited youngestActive).active = (edited oneGone).active ∧
    (edited oneGone).snapshot.orderFrom
        [single 0 "c" "s3", single 0 "b" "s2", single 5 "a" "s1"] =
      [(single 5 "a" "s1", true), (single 0 "b" "s2", false), (single 0 "c" "s3", false)] := by
  have htickets : (edited youngestActive).tickets = (edited oneGone).tickets := rfl
  have hactive : (edited youngestActive).active = (edited oneGone).active := rfl
  have hlistings := (processingOrder_of_edits youngestActive oneGone
    (fun p => by rw [htickets]) (fun id => by rw [isActive, isActive, hactive])).2.1
  have hvalues : (edited oneGone).tickets.values =
      [single 5 "a" "s1", single 0 "b" "s2", single 0 "c" "s3"] := rfl
  have hreversed : [single 0 "c" "s3", single 0 "b" "s2", single 5 "a" "s1"].Perm
      (edited oneGone).tickets.values := by
    rw [hvalues]
    exact List.reverse_perm [single 5 "a" "s1", single 0 "b" "s2", single 0 "c" "s3"]
  refine ⟨htickets, hactive, ?_⟩
  rw [← hlistings _ _ (List.Perm.refl _) hreversed]
  exact List.mergeSort_of_pairwise (by decide +kernel)

end Roster

end Matchmaking
