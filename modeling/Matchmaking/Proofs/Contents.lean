import Matchmaking.Catalog.Basic

/-!
# The contents of a catalog

What a catalog holds, batches and pending changes aside, is one list of cards: those on its shelf
with the pending changes carried out one after the other. Every operation of a catalog is described
by what it does to that list, and committing does nothing to it.
-/

namespace Matchmaking

/-- The cards after a change. -/
def Change.on (cards : List Card) : Change → List Card
  | .add c => cards ++ [c]
  | .remove id => cards.filter fun c => c.ticketId != id

namespace Catalog

/-- The cards that a catalog holds once all of its changes have taken effect. -/
def contents (c : Catalog) : List Card := c.pending.foldl Change.on c.shelf.cards

/-- The cards of a batch that have not been removed. -/
def liveCards (batch : List Filed) : List Card := (batch.filter Filed.live).map Filed.card

@[simp]
theorem liveCards_append (a b : List Filed) : liveCards (a ++ b) = liveCards a ++ liveCards b := by
  simp [liveCards]

theorem liveCards_strike (id : String) (batch : List Filed) :
    liveCards (strike id batch) = (liveCards batch).filter fun c => c.ticketId != id := by
  induction batch with
  | nil => rfl
  | cons f rest ih =>
    obtain ⟨c, live⟩ := f
    have hcons : strike id (⟨c, live⟩ :: rest) = Filed.strike id ⟨c, live⟩ :: strike id rest := rfl
    by_cases hc : c.ticketId = id
    · cases live <;> simp_all [liveCards, Filed.strike]
    · cases live <;> simp_all [liveCards, Filed.strike]

theorem flatten_map_strike (id : String) (batches : List (List Filed)) :
    (batches.map (strike id)).flatten = strike id batches.flatten := by
  rw [strike, List.map_flatten]
  rfl

/-- Batches without a live card hold nothing. -/
theorem liveCards_drop_dead (batches : List (List Filed)) :
    liveCards (batches.filter fun b => b.any Filed.live).flatten = liveCards batches.flatten := by
  induction batches with
  | nil => rfl
  | cons b rest ih =>
    by_cases hb : b.any Filed.live = true
    · simp [hb, ih]
    · have hnil : liveCards b = [] := by
        rw [liveCards, List.map_eq_nil_iff, List.filter_eq_nil_iff]
        intro f hf hlive
        exact hb (List.any_eq_true.2 ⟨f, hf, hlive⟩)
      simp [hb, ih, hnil]

/-- A change acts on the live cards of all batches together, whichever batch holds them. -/
theorem liveCards_apply (state : List (List Filed) × List Filed) (change : Change) :
    liveCards ((apply state change).1 ++ [(apply state change).2]).flatten =
      change.on (liveCards (state.1 ++ [state.2]).flatten) := by
  cases change with
  | add c => simp [apply, Change.on, liveCards]
  | remove id =>
    have h : (state.1.map (strike id) ++ [strike id state.2]).flatten =
        strike id (state.1 ++ [state.2]).flatten := by
      rw [← flatten_map_strike, List.map_append]
      rfl
    simp only [apply, Change.on]
    rw [h, liveCards_strike]

theorem liveCards_foldl_apply (changes : List Change) (state : List (List Filed) × List Filed) :
    liveCards ((changes.foldl apply state).1 ++ [(changes.foldl apply state).2]).flatten =
      changes.foldl Change.on (liveCards (state.1 ++ [state.2]).flatten) := by
  induction changes generalizing state with
  | nil => rfl
  | cons change rest ih =>
    rw [List.foldl_cons, List.foldl_cons, ih, liveCards_apply]

theorem cards_carryOut (s : Shelf) (changes : List Change) :
    (carryOut s changes).cards = changes.foldl Change.on s.cards := by
  have h := liveCards_foldl_apply changes (s.batches, [])
  rw [show (carryOut s changes).cards = liveCards
    (((changes.foldl apply (s.batches, [])).1 ++ [(changes.foldl apply (s.batches, [])).2]).filter
      fun b => b.any Filed.live).flatten from rfl, liveCards_drop_dead, h]
  simp [Shelf.cards, Shelf.filed, liveCards]

/-- Committing brings the contents onto the shelf. -/
@[simp]
theorem cards_commit (c : Catalog) : c.commit.shelf.cards = c.contents :=
  cards_carryOut c.shelf c.pending

@[simp]
theorem contents_commit (c : Catalog) : c.commit.contents = c.contents := by
  rw [contents, cards_commit]
  rfl

/-- Once everything is committed, committing does nothing. -/
@[simp]
theorem commit_commit (c : Catalog) : c.commit.commit = c.commit := by
  have hkept : ((c.commit.shelf.batches ++ [[]]).filter fun b => b.any Filed.live) =
      c.commit.shelf.batches := by
    rw [List.filter_append]
    simp [commit, carryOut]
  show Catalog.mk ⟨(c.commit.shelf.batches ++ [[]]).filter fun b => b.any Filed.live⟩ [] = c.commit
  rw [hkept]
  rfl

@[simp]
theorem contents_empty : empty.contents = [] := rfl

/-- A new card takes the place of earlier cards of its ticket. -/
@[simp]
theorem contents_put (c : Catalog) (t : Ticket) :
    (c.put t).contents =
      (c.contents.filter fun card => card.ticketId != t.id) ++ [Card.ofTicket t] := by
  simp [contents, put, Change.on]

@[simp]
theorem contents_remove (c : Catalog) (id : String) :
    (c.remove id).contents = c.contents.filter fun card => card.ticketId != id := by
  simp [contents, remove, Change.on]

/-- Removing several tickets is removing one after the other. -/
theorem contents_removeAll (c : Catalog) (ids : List String) :
    (c.removeAll ids).contents = (ids.foldl remove c).contents := by
  induction ids generalizing c with
  | nil => simp [removeAll]
  | cons id rest ih =>
    rw [List.foldl_cons, ← ih]
    simp [contents, removeAll, remove]

end Catalog

end Matchmaking
