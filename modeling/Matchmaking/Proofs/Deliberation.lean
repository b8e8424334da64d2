import Matchmaking.Assembly.Exhaustive

/-!
# Deliberation

Between two groups a pass only deliberates: it counts intervals, notes promotions, reads whether it
still insists, and remembers what it found for pairs. None of this uses up a ticket or a session, so
who is available stays the same, and so does what a search finds. It breaks down only under settings
with which it asks for no hits, or combines too many candidates. A group that it forms changes only
what is used up.
-/

namespace Matchmaking

/-- Settings with which a pass can break down: its searches ask for no hits, or it combines more
candidates than it can. -/
def Config.OutOfRange (c : Config) : Prop :=
  c.batchSize = 0 ∨ Exhaustive.tooMany ≤ c.maxCustomCandidates

instance (c : Config) : Decidable c.OutOfRange := inferInstanceAs (Decidable (_ ∨ _))

namespace Round

/-- Two states of a pass between which no group was formed. -/
structure Deliberates (r r' : Round) : Prop where
  shelf : r'.shelf = r.shelf
  tickets : r'.tickets = r.tickets
  config : r'.config = r.config
  precision : r'.precision = r.precision
  consumed : r'.consumed = r.consumed
  consumedSessions : r'.consumedSessions = r.consumedSessions
  token : r'.token = r.token
  serial : r'.serial = r.serial
  breakdown : ¬ r.config.OutOfRange → r'.breakdown = r.breakdown

variable {r r' r'' : Round}

theorem Deliberates.refl (r : Round) : Deliberates r r :=
  ⟨rfl, rfl, rfl, rfl, rfl, rfl, rfl, rfl, fun _ => rfl⟩

theorem Deliberates.trans (h : Deliberates r r') (h' : Deliberates r' r'') : Deliberates r r'' where
  shelf := h'.shelf.trans h.shelf
  tickets := h'.tickets.trans h.tickets
  config := h'.config.trans h.config
  precision := h'.precision.trans h.precision
  consumed := h'.consumed.trans h.consumed
  consumedSessions := h'.consumedSessions.trans h.consumedSessions
  token := h'.token.trans h.token
  serial := h'.serial.trans h.serial
  breakdown hrange := by
    rw [← h.breakdown hrange]
    refine h'.breakdown ?_
    rwa [h.config]

theorem Deliberates.isAvailable (h : Deliberates r r') (p : Pooled) :
    r'.isAvailable p = r.isAvailable p := by
  rw [Round.isAvailable, Round.isAvailable, h.consumed, h.consumedSessions]

/-- Deliberation does not change what is found. -/
theorem Deliberates.found (h : Deliberates r r') (outer : Pooled) (limit : Nat) :
    r'.found outer limit = r.found outer limit := by
  rw [Round.found, Round.found, h.shelf, h.tickets]

theorem deliberates_beginInterval (r : Round) (outer : Pooled) (active : Bool) :
    Deliberates r (r.beginInterval outer active).2 := by
  unfold beginInterval
  simp only
  split <;> exact ⟨rfl, rfl, rfl, rfl, rfl, rfl, rfl, rfl, fun _ => rfl⟩

theorem deliberates_compatible (r : Round) (a b : Pooled) :
    Deliberates r (r.compatible a b).2 := by
  unfold compatible
  simp only
  split <;> exact ⟨rfl, rfl, rfl, rfl, rfl, rfl, rfl, rfl, fun _ => rfl⟩

theorem deliberates_compatibleWithAll (p : Pooled) (others : List Pooled) (r : Round) :
    Deliberates r (compatibleWithAll p others r).2 := by
  induction others generalizing r with
  | nil => exact .refl r
  | cons m rest ih =>
    have hm := deliberates_compatible r m p
    unfold compatibleWithAll
    split
    · rename_i r₁ heq
      rw [heq] at hm
      exact hm.trans (ih r₁)
    · rename_i r₁ heq
      rw [heq] at hm
      exact hm

/-! ## Candidates -/

/-- Those who are kept come from the list, in its order, and are available; nobody is used up. -/
theorem keepSuitable_spec (outer : Pooled) (cs : List Pooled) (r : Round) :
    (keepSuitable outer cs r).1.Sublist cs ∧
      (∀ c ∈ (keepSuitable outer cs r).1, r.isAvailable c = true) ∧
      Deliberates r (keepSuitable outer cs r).2 := by
  induction cs generalizing r with
  | nil => exact ⟨.slnil, by simp [keepSuitable], .refl r⟩
  | cons c rest ih =>
    unfold keepSuitable
    split
    · rename_i havail
      have hc := deliberates_compatible r outer c
      split
      · rename_i r₁ heq
        rw [heq] at hc
        obtain ⟨hsub, hav, hdel⟩ := ih r₁
        refine ⟨hsub.cons_cons c, fun d hd => ?_, hc.trans hdel⟩
        rcases List.mem_cons.1 hd with rfl | hd
        · exact havail
        · rw [← hc.isAvailable]
          exact hav d hd
      · rename_i r₁ heq
        rw [heq] at hc
        obtain ⟨hsub, hav, hdel⟩ := ih r₁
        refine ⟨hsub.cons c, fun d hd => ?_, hc.trans hdel⟩
        rw [← hc.isAvailable]
        exact hav d hd
    · obtain ⟨hsub, hav, hdel⟩ := ih r
      exact ⟨hsub.cons c, hav, hdel⟩

theorem deliberates_breakDown (h : r.config.OutOfRange) (message : String) :
    Deliberates r (r.breakDown message) :=
  ⟨rfl, rfl, rfl, rfl, rfl, rfl, rfl, rfl, fun hrange => absurd h hrange⟩

/-- A search that asks for no hits breaks the pass down. -/
theorem candidates_zero (r : Round) (outer : Pooled) :
    r.candidates outer 0 = ([], r.breakDown noHitsNotice) := rfl

theorem candidates_of_pos {limit : Nat} (h : 0 < limit) (r : Round) (outer : Pooled) :
    r.candidates outer limit = keepSuitable outer (r.found outer limit) r := by
  have hlimit : (Inquiry.ofTicket outer.ticket outer.query limit).limit ≠ 0 := Nat.ne_of_gt h
  unfold candidates Shelf.search
  rw [if_neg hlimit]
  cases (Inquiry.ofTicket outer.ticket outer.query limit).query.runnable with
  | true => rfl
  | false => rfl

/-- Candidates are those who are kept of what was found, also if the search breaks down. -/
theorem fst_candidates (r : Round) (outer : Pooled) (limit : Nat) :
    (r.candidates outer limit).1 = (keepSuitable outer (r.found outer limit) r).1 := by
  rcases Nat.eq_zero_or_pos limit with rfl | hlimit
  · rfl
  · rw [candidates_of_pos hlimit]

theorem candidates_sublist (r : Round) (outer : Pooled) (limit : Nat) :
    (r.candidates outer limit).1.Sublist (r.found outer limit) := by
  rw [fst_candidates]
  exact (keepSuitable_spec outer (r.found outer limit) r).1

theorem isAvailable_of_mem_candidates {outer c : Pooled} {limit : Nat}
    (h : c ∈ (r.candidates outer limit).1) : r.isAvailable c = true := by
  rw [fst_candidates] at h
  exact (keepSuitable_spec outer (r.found outer limit) r).2.1 c h

/-- Outer tickets ask for as many hits as the settings say. -/
theorem deliberates_candidates (r : Round) (outer : Pooled) :
    Deliberates r (r.candidates outer r.config.batchSize).2 := by
  rcases Nat.eq_zero_or_pos r.config.batchSize with hlimit | hlimit
  · rw [hlimit, candidates_zero]
    exact deliberates_breakDown (Or.inl hlimit) noHitsNotice
  · rw [candidates_of_pos hlimit]
    exact (keepSuitable_spec outer _ r).2.2

/-! ## Forming a group -/

theorem foldl_consume (members : List Pooled) (r : Round) :
    ∃ consumed sessions, members.foldl consume r =
      { r with consumed := consumed, consumedSessions := sessions } := by
  induction members generalizing r with
  | nil => exact ⟨r.consumed, r.consumedSessions, rfl⟩
  | cons m rest ih =>
    obtain ⟨consumed, sessions, h⟩ := ih (consume r m)
    exact ⟨consumed, sessions, h⟩

/-- Forming a group uses up tickets and sessions and takes the next label; nothing else changes. -/
theorem exists_form_eq (r : Round) (members : List Pooled) :
    ∃ consumed sessions, (r.form members).2 =
      { r with consumed := consumed, consumedSessions := sessions, serial := r.serial + 1 } := by
  obtain ⟨consumed, sessions, h⟩ := foldl_consume members r
  refine ⟨consumed, sessions, ?_⟩
  unfold form
  simp only [h]

end Round

end Matchmaking
