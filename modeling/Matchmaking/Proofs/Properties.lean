import Matchmaking.Catalog.Card
import Matchmaking.Proofs.Tables

/-!
# What a card tells of a ticket

A ticket has two tables of properties, texts and numbers, and its card has one. A name that occurs
in both tables stands for the number on the card, and the text cannot be found. Main statement:
`properties_of_card`.
-/

namespace Matchmaking

/-- A card describes a ticket: its name, its query, its counts, the millisecond in which it was made
and the session of each presence in order. -/
structure Card.Describes (c : Card) (t : Ticket) : Prop where
  ticketId : c.ticketId = t.id
  query : c.query = t.query
  minCount : c.minCount = t.minCount
  maxCount : c.maxCount = t.maxCount
  count : c.count = t.presences.length
  createdMillis : c.createdMillis = t.createdAt.millis
  sessions : c.values ⟨.session, ""⟩ = t.presences.map fun p => .text p.session

/-- A card holds the properties of a ticket: all texts, all numbers and nothing else. -/
structure Card.Holds (c : Card) (t : Ticket) : Prop where
  texts : ∀ k s, t.texts.get? k = some s → c.properties.get? k = some (.text s)
  numbers : ∀ k x, t.numbers.get? k = some x → c.properties.get? k = some (.number x)
  only : ∀ k, c.properties.contains k = true →
    t.texts.contains k = true ∨ t.numbers.contains k = true

section Properties

variable (t : Ticket) (k : String)

/-- Under a name stands the number, or the text if there is no number. -/
theorem Ticket.get?_properties : t.properties.get? k =
    ((t.numbers.get? k).map Property.number).or ((t.texts.get? k).map Property.text) := by
  rw [Ticket.properties, Table.get?_foldl_insert Property.number t.numbers.nodup_keys,
    Table.get?_map]
  rfl

theorem Card.values_of_number {x : Number} (h : t.numbers.get? k = some x) :
    (Card.ofTicket t).values ⟨.properties, k⟩ = [.number x] := by
  have hget : (Card.ofTicket t).properties.get? k = some (.number x) := by
    rw [show (Card.ofTicket t).properties = t.properties from rfl, t.get?_properties, h]
    rfl
  simp only [values, postings, hget, Property.postings, List.map_cons, List.map_nil]

theorem Card.values_of_text {s : String} (hnumber : t.numbers.get? k = none)
    (h : t.texts.get? k = some s) : (Card.ofTicket t).values ⟨.properties, k⟩ =
      (Text.words s).map fun w => .text w.text := by
  have hget : (Card.ofTicket t).properties.get? k = some (.text s) := by
    rw [show (Card.ofTicket t).properties = t.properties from rfl, t.get?_properties, hnumber, h]
    rfl
  simp only [values, postings, hget, Property.postings, wordPostings, List.map_map]
  rfl

/-- A card holds the properties of its ticket exactly if no name is both of a text and of a number.
-/
theorem Card.holds_iff : (Card.ofTicket t).Holds t ↔
    ∀ k, t.texts.contains k = true → t.numbers.contains k = false := by
  have hget : ∀ k, (Card.ofTicket t).properties.get? k = _ := t.get?_properties
  constructor
  · intro h k htext
    obtain ⟨s, hs⟩ := Table.contains_iff.1 htext
    rw [Table.contains_eq_false_iff]
    cases hx : t.numbers.get? k with
    | none => rfl
    | some x =>
      have hboth := (h.texts k s hs).symm.trans (h.numbers k x hx)
      cases hboth
  · intro hapart
    refine ⟨fun k s hs => ?_, fun k x hx => ?_, fun k hk => ?_⟩
    · have hnumber := hapart k (Table.contains_iff.2 ⟨s, hs⟩)
      rw [hget, Table.contains_eq_false_iff.1 hnumber, hs]
      rfl
    · rw [hget, hx]
      rfl
    · obtain ⟨property, hproperty⟩ := Table.contains_iff.1 hk
      rw [hget, Option.or_eq_some_iff] at hproperty
      rcases hproperty with hnumber | ⟨-, htext⟩
      · obtain ⟨x, hx, -⟩ := Option.map_eq_some_iff.1 hnumber
        exact .inr (Table.contains_iff.2 ⟨x, hx⟩)
      · obtain ⟨s, hs, -⟩ := Option.map_eq_some_iff.1 htext
        exact .inl (Table.contains_iff.2 ⟨s, hs⟩)

theorem Card.describes_ofTicket : (Card.ofTicket t).Describes t := by
  refine ⟨rfl, rfl, rfl, rfl, rfl, rfl, ?_⟩
  show ((t.presences.map Presence.session).map _).map _ = _
  rw [List.map_map, List.map_map]
  rfl

/-- The card of a ticket describes it. Under a name it holds the number of the ticket, or its text
if there is no number, and this is what a search finds there. So it holds all properties exactly if
no name is both of a text and of a number; otherwise that text is lost. -/
theorem properties_of_card :
    (Card.ofTicket t).Describes t ∧
    (∀ k, (Card.ofTicket t).properties.get? k =
      ((t.numbers.get? k).map Property.number).or ((t.texts.get? k).map Property.text)) ∧
    (∀ k x, t.numbers.get? k = some x → (Card.ofTicket t).values ⟨.properties, k⟩ = [.number x]) ∧
    (∀ k s, t.numbers.get? k = none → t.texts.get? k = some s →
      (Card.ofTicket t).values ⟨.properties, k⟩ = (Text.words s).map fun w => .text w.text) ∧
    ((Card.ofTicket t).Holds t ↔
      ∀ k, t.texts.contains k = true → t.numbers.contains k = false) :=
  ⟨Card.describes_ofTicket t, t.get?_properties, fun k _ => Card.values_of_number t k,
    fun k _ => Card.values_of_text t k, Card.holds_iff t⟩

end Properties

/-- A ticket with two texts and with a number that has the name of the first; it is twelve. -/
def rankedTwice : Ticket :=
  .ofRequest "a" ⟨0⟩ ((((Request.solo "s" "u" "*" 2 2 1).withText "rank" "gold").withText "mode"
    "duel").withNumber "rank" ⟨0x4028000000000000⟩) "*"

/-- Of this ticket the number and the other text are found. -/
theorem properties_rankedTwice :
    rankedTwice.numbers.get? "rank" = some ⟨0x4028000000000000⟩ ∧
    (Card.ofTicket rankedTwice).values ⟨.properties, "rank"⟩ = [.number ⟨0x4028000000000000⟩] ∧
    rankedTwice.numbers.get? "mode" = none ∧ rankedTwice.texts.get? "mode" = some "duel" ∧
    (Card.ofTicket rankedTwice).values ⟨.properties, "mode"⟩ =
      (Text.words "duel").map fun w => .text w.text := by
  obtain ⟨-, -, hnumbers, htexts, -⟩ := properties_of_card rankedTwice
  have hrank : rankedTwice.numbers.get? "rank" = some ⟨0x4028000000000000⟩ := by decide
  have hnone : rankedTwice.numbers.get? "mode" = none := by decide
  have hmode : rankedTwice.texts.get? "mode" = some "duel" := by decide
  exact ⟨hrank, hnumbers "rank" _ hrank, hnone, hmode, htexts "mode" _ hnone hmode⟩

/-- The first text is lost. -/
theorem not_holds_rankedTwice : ¬ (Card.ofTicket rankedTwice).Holds rankedTwice ∧
    rankedTwice.texts.get? "rank" = some "gold" ∧
    .text "gold" ∉ (Card.ofTicket rankedTwice).values ⟨.properties, "rank"⟩ := by
  have hlost : .text "gold" ∉ (Card.ofTicket rankedTwice).values ⟨.properties, "rank"⟩ := by
    decide
  refine ⟨fun h => ?_, by decide, hlost⟩
  have hapart := (Card.holds_iff rankedTwice).1 h "rank" (by decide)
  revert hapart
  decide

end Matchmaking
