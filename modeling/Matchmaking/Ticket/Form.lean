import Matchmaking.Json.Decode
import Matchmaking.Ticket.Basic

/-!
# The JSON forms of tickets

How presences, requests, tickets, entries and groups are written as JSON objects and read again.
What is written holds every field; what is read may leave out the fields that have a default.
-/

namespace Matchmaking

open Json

/-- A number; one that is not finite has no JSON form and is written as null. -/
def numberForm (x : Number) : Json := if x.isFinite then .real x else .null

/-- An object of properties that are numbers. -/
def numbersForm (t : Table Number) : Json := table numberForm t

/-- An object of properties that are texts. -/
def textsForm (t : Table String) : Json := table .text t

/-! ## Presences -/

namespace Presence

/-- The JSON form of a presence. -/
def form (p : Presence) : Json :=
  .record [("session_id", .text p.session), ("user_id", .text p.user),
    ("username", .text p.username)]

/-- Reads a presence; the shown name is empty unless given. -/
def decode : Decoder Presence := fun o j => do
  let got ← fields "Presence" [.needed "session_id" string, .needed "user_id" string,
    .defaulted "username" string] o j
  pure {
    session := ← need got o "session_id" string
    user := ← need got o "user_id" string
    username := ← get got o "username" string "" }

end Presence

/-! ## Requests -/

namespace Request

/-- The JSON form of a request. -/
def form (r : Request) : Json :=
  .record [("presences", .list (r.presences.map Presence.form)),
    ("party_id", option .text r.party), ("query", .text r.query),
    ("min_count", nat r.minCount), ("max_count", nat r.maxCount),
    ("count_multiple", nat r.multiple), ("string_properties", textsForm r.texts),
    ("numeric_properties", numbersForm r.numbers)]

/-- Reads a request; without a party, with an empty query and without properties unless given. -/
def decode : Decoder Request := fun o j => do
  let got ← fields "TicketRequest" [.needed "presences" (listOf Presence.decode),
    .defaulted "party_id" (optional string), .defaulted "query" string,
    .needed "min_count" Json.count, .needed "max_count" Json.count,
    .needed "count_multiple" Json.count, .defaulted "string_properties" (tableOf string),
    .defaulted "numeric_properties" (tableOf number)] o j
  pure {
    presences := ← need got o "presences" (listOf Presence.decode)
    party := ← get got o "party_id" (optional string) none
    query := ← get got o "query" string ""
    minCount := ← need got o "min_count" Json.count
    maxCount := ← need got o "max_count" Json.count
    multiple := ← need got o "count_multiple" Json.count
    texts := ← get got o "string_properties" (tableOf string) .empty
    numbers := ← get got o "numeric_properties" (tableOf number) .empty }

end Request

/-! ## Tickets -/

namespace Ticket

/-- The JSON form of a ticket. -/
def form (t : Ticket) : Json :=
  .record [("ticket_id", .text t.id), ("presences", .list (t.presences.map Presence.form)),
    ("party_id", option .text t.party), ("query", .text t.query),
    ("min_count", nat t.minCount), ("max_count", nat t.maxCount),
    ("count_multiple", nat t.multiple), ("string_properties", textsForm t.texts),
    ("numeric_properties", numbersForm t.numbers), ("created_at", .int t.createdMillis)]

/-- Reads a ticket; without a party and without properties unless given. -/
def decode : Decoder Ticket := fun o j => do
  let got ← fields "Ticket" [.needed "ticket_id" string,
    .needed "presences" (listOf Presence.decode), .defaulted "party_id" (optional string),
    .needed "query" string, .needed "min_count" Json.count, .needed "max_count" Json.count,
    .needed "count_multiple" Json.count, .defaulted "string_properties" (tableOf string),
    .defaulted "numeric_properties" (tableOf number), .needed "created_at" Json.millis] o j
  pure {
    id := ← need got o "ticket_id" string
    presences := ← need got o "presences" (listOf Presence.decode)
    party := ← get got o "party_id" (optional string) none
    query := ← need got o "query" string
    minCount := ← need got o "min_count" Json.count
    maxCount := ← need got o "max_count" Json.count
    multiple := ← need got o "count_multiple" Json.count
    texts := ← get got o "string_properties" (tableOf string) .empty
    numbers := ← get got o "numeric_properties" (tableOf number) .empty
    createdAt := ← need got o "created_at" Json.millis }

end Ticket

/-! ## Entries and groups -/

namespace Entry

/-- The JSON form of an entry. -/
def form (e : Entry) : Json :=
  .record [("ticket_id", .text e.ticketId), ("presence", e.presence.form),
    ("party_id", option .text e.party), ("string_properties", textsForm e.texts),
    ("numeric_properties", numbersForm e.numbers), ("created_at", .int e.createdAt.millis)]

/-- Reads an entry; without a party and without properties unless given. -/
def decode : Decoder Entry := fun o j => do
  let got ← fields "MatchmakerEntry" [.needed "ticket_id" string,
    .needed "presence" Presence.decode, .defaulted "party_id" (optional string),
    .defaulted "string_properties" (tableOf string),
    .defaulted "numeric_properties" (tableOf number), .needed "created_at" Json.millis] o j
  pure {
    ticketId := ← need got o "ticket_id" string
    presence := ← need got o "presence" Presence.decode
    party := ← get got o "party_id" (optional string) none
    texts := ← get got o "string_properties" (tableOf string) .empty
    numbers := ← get got o "numeric_properties" (tableOf number) .empty
    createdAt := ← need got o "created_at" Json.millis }

end Entry

namespace Group

/-- The JSON form of a group. -/
def form (g : Group) : Json :=
  .record [("token", .text g.token), ("entries", .list (g.entries.map Entry.form))]

/-- Reads a group. -/
def decode : Decoder Group := fun o j => do
  let got ← fields "MatchedGroup" [.needed "token" string,
    .needed "entries" (listOf Entry.decode)] o j
  pure {
    token := ← need got o "token" string
    entries := ← need got o "entries" (listOf Entry.decode) }

end Group

end Matchmaking
