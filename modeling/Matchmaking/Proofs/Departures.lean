import Matchmaking.Proofs.Agreement

/-!
# Tickets come once and go once

As long as no name is given to two tickets, whoever has a name is that one ticket: while it waits
it stays as it is, once active it stays active, and once it is gone it never comes back. Main
statement: `Moves.outlasts`.
-/

namespace Matchmaking

namespace Roster

theorem isActive_of_remove {r : Roster} {id id' : String} (h : (r.remove id).isActive id' = true) :
    r.isActive id' = true := by
  cases hget : r.get? id with
  | none =>
    rw [remove_of_get?_eq_none hget] at h
    exact h
  | some p =>
    rw [isActive_remove hget, Bool.and_eq_true] at h
    exact h.2

theorem isActive_remove_of_ne {id id' : String} (r : Roster) (h : id' ≠ id) :
    (r.remove id).isActive id' = r.isActive id' := by
  cases hget : r.get? id with
  | none => rw [remove_of_get?_eq_none hget]
  | some p => rw [isActive_remove hget, bne_iff_ne.2 h, Bool.true_and]

theorem isActive_of_foldl_remove {r : Roster} {ids : List String} {id : String}
    (h : (ids.foldl remove r).isActive id = true) : r.isActive id = true := by
  induction ids generalizing r with
  | nil => exact h
  | cons x rest ih => exact isActive_of_remove (ih h)

theorem isActive_foldl_remove_of_notMem {ids : List String} {id : String} (r : Roster)
    (h : id ∉ ids) : (ids.foldl remove r).isActive id = r.isActive id := by
  induction ids generalizing r with
  | nil => rfl
  | cons x rest ih =>
    obtain ⟨hne, hrest⟩ := not_or.1 (mt List.mem_cons.2 h)
    rw [List.foldl_cons, ih (r.remove x) hrest, isActive_remove_of_ne r hne]

end Roster

namespace Service

variable {s s' : Service} {id : String}

/-- A name that was given to a ticket. -/
def Named (s : Service) (id : String) : Prop := ∃ n, n < s.issued ∧ s.naming.ticket n = id

theorem Named.of_naming (h : s.Named id) (hnaming : s'.naming = s.naming)
    (hissued : s.issued ≤ s'.issued) : s'.Named id := by
  obtain ⟨n, hn, rfl⟩ := h
  exact ⟨n, Nat.lt_of_lt_of_le hn hissued, by rw [hnaming]⟩

theorem Named.of_move (h : s.Named id) (hmove : Move s s') : s'.Named id :=
  h.of_naming hmove.naming.1 hmove.naming.2

theorem Named.of_moves (h : s.Named id) (hmoves : Moves s s') : s'.Named id :=
  hmoves.keep (P := fun s => s.Named id) (fun hmove hs => hs.of_move hmove) h

/-- A ticket that is accepted gets a name of its own. -/
theorem not_named_of_judge {now : Instant} {r : Request} {p : Pooled} (h : s.judge now r = .ok p)
    (hfresh : (s.enroll p).FreshNames) : ¬ s.Named p.id := by
  rintro ⟨n, hn, heq⟩
  rw [id_of_judge h] at heq
  have := hfresh n s.issued (Nat.lt_succ_of_lt hn) (Nat.lt_succ_self s.issued) heq
  omega

theorem Moves.naming (hmoves : Moves s s') : s'.naming = s.naming :=
  hmoves.keep (P := fun s' => s'.naming = s.naming) (fun hmove hs => hmove.naming.1.trans hs) rfl

/-- A ticket is gone, or it waits as before, and is active if it was so before. -/
def Outlasts (id : String) (s s' : Service) : Prop :=
  s'.roster.get? id = none ∨
    s'.roster.get? id = s.roster.get? id ∧ (s.isActive id = true → s'.isActive id = true)

theorem Outlasts.trans {s₁ s₂ s₃ : Service} (h : Outlasts id s₁ s₂) (h' : Outlasts id s₂ s₃) :
    Outlasts id s₁ s₃ := by
  rcases h' with hgone | ⟨hsame, hactive⟩
  · exact Or.inl hgone
  · rcases h with hgone | ⟨hbefore, hwas⟩
    · exact Or.inl (hsame.trans hgone)
    · exact Or.inr ⟨hsame.trans hbefore, fun h => hactive (hwas h)⟩

theorem Move.outlasts (hmove : Move s s') (hfresh : s'.FreshNames) (hnamed : s.Named id) :
    Outlasts id s s' := by
  cases hmove with
  | rest halike =>
    rw [Outlasts, Service.isActive, Service.isActive, halike.roster]
    exact Or.inr ⟨rfl, fun h => h⟩
  | @enroll now r p hjudge =>
    have hne : id ≠ p.id := by
      rintro rfl
      exact not_named_of_judge hjudge hfresh hnamed
    refine Or.inr ⟨?_, fun h => ?_⟩
    · rw [Service.enroll, Roster.get?_insert, if_neg hne]
    · rw [Service.isActive, Service.enroll, Roster.isActive_insert]
      exact h
  | withdraw other =>
    by_cases hid : id = other
    · refine Or.inl ?_
      rw [Service.withdraw, Roster.get?_remove, if_pos hid]
    · refine Or.inr ⟨?_, fun h => ?_⟩
      · rw [Service.withdraw, Roster.get?_remove, if_neg hid]
      · rw [Service.isActive, Service.withdraw, Roster.isActive_remove_of_ne s.roster hid]
        exact h
  | promote other =>
    refine Or.inr ⟨Roster.get?_promote s.roster other id, fun h => ?_⟩
    rw [Service.isActive, Roster.isActive_promote]
    exact Bool.or_eq_true_iff.2 (Or.inr h)

/-- Whatever happens, a ticket whose name was given out stays as it is until it is gone, and then it
does not come back. -/
theorem Moves.outlasts (hmoves : Moves s s') (hfresh : s'.FreshNames) (hnamed : s.Named id) :
    Outlasts id s s' := by
  -- the last move is split off, for if names are fresh after it they were so before
  induction hmoves with
  | refl => exact Or.inr ⟨rfl, fun h => h⟩
  | tail hbefore hmove ih =>
    exact (ih (hfresh.before hmove)).trans (hmove.outlasts hfresh (hnamed.of_moves hbefore))

theorem Moves.get?_eq_none (hmoves : Moves s s') (hfresh : s'.FreshNames) (hnamed : s.Named id)
    (hgone : s.roster.get? id = none) : s'.roster.get? id = none := by
  rcases hmoves.outlasts hfresh hnamed with hnone | ⟨hsame, -⟩
  · exact hnone
  · exact hsame.trans hgone

theorem Moves.get?_eq_some (hmoves : Moves s s') (hfresh : s'.FreshNames) (hnamed : s.Named id)
    {p : Pooled} (hp : s'.roster.get? id = some p) : s.roster.get? id = some p := by
  rcases hmoves.outlasts hfresh hnamed with hnone | ⟨hsame, -⟩
  · rw [hnone] at hp
    cases hp
  · exact hsame.symm.trans hp

end Service

end Matchmaking
