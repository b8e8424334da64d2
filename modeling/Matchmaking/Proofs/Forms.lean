import Matchmaking.Proofs.Fields
import Matchmaking.Schedule.Ledger
import Matchmaking.Schedule.Timing
import Matchmaking.Ticket.Form

/-!
# Written and read again

What is written as JSON is read again as the same value, except that points in time are rounded down
to whole milliseconds. It does not matter in which order the fields of the objects stand. A value
fits its form if its counts have no more bits than they may, its numbers are finite and its points in
time are in the calendar.
-/

namespace Matchmaking

open Json

namespace Instant

theorem floorMillis_le (t : Instant) : t.floorMillis ≤ t := by
  show t.nanos / perMilli * perMilli ≤ t.nanos
  unfold perMilli
  omega

theorem lt_floorMillis_add (t : Instant) : t.nanos < t.floorMillis.nanos + perMilli := by
  show t.nanos < t.nanos / perMilli * perMilli + perMilli
  unfold perMilli
  omega

@[simp]
theorem millis_floorMillis (t : Instant) : t.floorMillis.millis = t.millis := millis_ofMillis _

/-- A point in time is in the calendar. -/
def InCalendar (t : Instant) : Prop := minMillis ≤ t.millis ∧ t.millis ≤ maxMillis

instance (t : Instant) : Decidable t.InCalendar :=
  inferInstanceAs (Decidable (minMillis ≤ t.millis ∧ t.millis ≤ maxMillis))

end Instant

/-- The numbers of a table are finite. -/
def AllFinite (t : Table Number) : Prop := ∀ e ∈ t.entries, e.2.isFinite = true

instance (t : Table Number) : Decidable (AllFinite t) :=
  inferInstanceAs (Decidable (∀ e ∈ t.entries, e.2.isFinite = true))

/-! ## Values that fit, and values rounded down -/

/-- The counts of a request have at most 64 bits, and its numbers are finite. -/
structure Request.Fits (r : Request) : Prop where
  minCount : r.minCount < Nat.pow 2 64
  maxCount : r.maxCount < Nat.pow 2 64
  multiple : r.multiple < Nat.pow 2 64
  numbers : AllFinite r.numbers

namespace Ticket

/-- The counts of a ticket have at most 64 bits, its numbers are finite, and it was made at a time
in the calendar. -/
structure Fits (t : Ticket) : Prop where
  minCount : t.minCount < Nat.pow 2 64
  maxCount : t.maxCount < Nat.pow 2 64
  multiple : t.multiple < Nat.pow 2 64
  numbers : AllFinite t.numbers
  createdAt : t.createdAt.InCalendar

/-- The same ticket, made at the beginning of the millisecond. -/
def rounded (t : Ticket) : Ticket := { t with createdAt := t.createdAt.floorMillis }

end Ticket

namespace Entry

/-- The numbers of an entry are finite, and its ticket was made at a time in the calendar. -/
structure Fits (e : Entry) : Prop where
  numbers : AllFinite e.numbers
  createdAt : e.createdAt.InCalendar

/-- The same entry of a ticket that was made at the beginning of the millisecond. -/
def rounded (e : Entry) : Entry := { e with createdAt := e.createdAt.floorMillis }

end Entry

namespace Group

/-- All entries of a group fit. -/
def Fits (g : Group) : Prop := ∀ e ∈ g.entries, e.Fits

/-- The same group with all its entries rounded down. -/
def rounded (g : Group) : Group := { g with entries := g.entries.map Entry.rounded }

end Group

/-- The settings have at most 64 bits each, and the number of intervals at most 32. -/
structure Config.Fits (c : Config) : Prop where
  intervalSecs : c.intervalSecs < Nat.pow 2 64
  maxIntervals : c.maxIntervals < Nat.pow 2 32
  threshold : c.mutualMatchThresholdMs < Nat.pow 2 64
  batchSize : c.batchSize < Nat.pow 2 64
  maxTickets : c.maxTickets < Nat.pow 2 64
  maxCustomCandidates : c.maxCustomCandidates < Nat.pow 2 64
  writerMemoryMb : c.writerMemoryMb < Nat.pow 2 64

/-- Both times have at most 64 bits. -/
structure Timing.Fits (t : Timing) : Prop where
  intervalMs : t.intervalMs < Nat.pow 2 64
  shutdownTimeoutSecs : t.shutdownTimeoutSecs < Nat.pow 2 64

/-! ## Reading what was written -/

section Reading

variable {s : Json → Json}

theorem number_reorders (hs : Reorders s) (o : Origin) {x : Number} (h : x.isFinite = true) :
    number o (s (numberForm x)) = .ok x := by
  rw [numberForm, if_pos h, hs.real, number]

theorem numbers_reorders (hs : Reorders s) (o : Origin) {t : Table Number} (h : AllFinite t) :
    tableOf number o (s (numbersForm t)) = .ok t :=
  tableOf_reorders hs fun e he => number_reorders hs o (h e he)

theorem texts_reorders (hs : Reorders s) (o : Origin) (t : Table String) :
    tableOf string o (s (textsForm t)) = .ok t :=
  tableOf_reorders hs fun e _ => string_reorders hs o e.2

theorem count_reorders (hs : Reorders s) (o : Origin) {n : Nat} (h : n < Nat.pow 2 64) :
    Json.count o (s (nat n)) = .ok n := natural_reorders hs o _ h

theorem word_reorders (hs : Reorders s) (o : Origin) {n : Nat} (h : n < Nat.pow 2 64) :
    word o (s (nat n)) = .ok n := natural_reorders hs o _ h

theorem Presence.decode_form (hs : Reorders s) (o : Origin) (p : Presence) :
    decode o (s p.form) = .ok p := by
  have hsession := string_reorders hs o p.session
  have huser := string_reorders hs o p.user
  have hname := string_reorders hs o p.username
  refine bind_fields_reorders hs (.cons (admits_needed hsession) <| .cons (admits_needed huser) <|
    .cons (admits_defaulted hname) .nil) (by decide) fun got hgot => ?_
  simp only [List.forall_mem_cons] at hgot
  simp only [need, Json.get, hgot, hsession, huser, hname]
  rfl

theorem presences_reorders (hs : Reorders s) (o : Origin) (ps : List Presence) :
    listOf Presence.decode o (s (.list (ps.map Presence.form))) = .ok ps := by
  rw [listOf_reorders hs fun p _ => Presence.decode_form hs o p, List.map_id']

theorem Request.decode_form (hs : Reorders s) (o : Origin) {r : Request} (h : r.Fits) :
    decode o (s r.form) = .ok r := by
  have hpresences := presences_reorders hs o r.presences
  have hparty := optional_string_reorders hs o r.party
  have hquery := string_reorders hs o r.query
  have hmin := count_reorders hs o h.minCount
  have hmax := count_reorders hs o h.maxCount
  have hmultiple := count_reorders hs o h.multiple
  have htexts := texts_reorders hs o r.texts
  have hnumbers := numbers_reorders hs o h.numbers
  refine bind_fields_reorders hs (.cons (admits_needed hpresences) <|
    .cons (admits_defaulted hparty) <| .cons (admits_defaulted hquery) <|
    .cons (admits_needed hmin) <| .cons (admits_needed hmax) <| .cons (admits_needed hmultiple) <|
    .cons (admits_defaulted htexts) <| .cons (admits_defaulted hnumbers) .nil) (by decide)
    fun got hgot => ?_
  simp only [List.forall_mem_cons] at hgot
  simp only [need, Json.get, hgot, hpresences, hparty, hquery, hmin, hmax, hmultiple, htexts,
    hnumbers]
  rfl

theorem Ticket.decode_form (hs : Reorders s) (o : Origin) {t : Ticket} (h : t.Fits) :
    decode o (s t.form) = .ok t.rounded := by
  have hid := string_reorders hs o t.id
  have hpresences := presences_reorders hs o t.presences
  have hparty := optional_string_reorders hs o t.party
  have hquery := string_reorders hs o t.query
  have hmin := count_reorders hs o h.minCount
  have hmax := count_reorders hs o h.maxCount
  have hmultiple := count_reorders hs o h.multiple
  have htexts := texts_reorders hs o t.texts
  have hnumbers := numbers_reorders hs o h.numbers
  have hcreated := millis_reorders hs o h.createdAt
  refine bind_fields_reorders hs (.cons (admits_needed hid) <| .cons (admits_needed hpresences) <|
    .cons (admits_defaulted hparty) <| .cons (admits_needed hquery) <|
    .cons (admits_needed hmin) <| .cons (admits_needed hmax) <| .cons (admits_needed hmultiple) <|
    .cons (admits_defaulted htexts) <| .cons (admits_defaulted hnumbers) <|
    .cons (admits_needed hcreated) .nil) (by decide) fun got hgot => ?_
  simp only [List.forall_mem_cons] at hgot
  simp only [need, Json.get, hgot, hid, hpresences, hparty, hquery, hmin, hmax, hmultiple, htexts,
    hnumbers, hcreated]
  rfl

theorem Entry.decode_form (hs : Reorders s) (o : Origin) {e : Entry} (h : e.Fits) :
    decode o (s e.form) = .ok e.rounded := by
  have hid := string_reorders hs o e.ticketId
  have hpresence := Presence.decode_form hs o e.presence
  have hparty := optional_string_reorders hs o e.party
  have htexts := texts_reorders hs o e.texts
  have hnumbers := numbers_reorders hs o h.numbers
  have hcreated := millis_reorders hs o h.createdAt
  refine bind_fields_reorders hs (.cons (admits_needed hid) <| .cons (admits_needed hpresence) <|
    .cons (admits_defaulted hparty) <| .cons (admits_defaulted htexts) <|
    .cons (admits_defaulted hnumbers) <| .cons (admits_needed hcreated) .nil) (by decide)
    fun got hgot => ?_
  simp only [List.forall_mem_cons] at hgot
  simp only [need, Json.get, hgot, hid, hpresence, hparty, htexts, hnumbers, hcreated]
  rfl

theorem Group.decode_form (hs : Reorders s) (o : Origin) {g : Group} (h : g.Fits) :
    decode o (s g.form) = .ok g.rounded := by
  have htoken := string_reorders hs o g.token
  have hentries : listOf Entry.decode o (s (.list (g.entries.map Entry.form))) =
      .ok (g.entries.map Entry.rounded) :=
    listOf_reorders hs fun e he => Entry.decode_form hs o (h e he)
  refine bind_fields_reorders hs (.cons (admits_needed htoken) <|
    .cons (admits_needed hentries) .nil) (by decide) fun got hgot => ?_
  simp only [List.forall_mem_cons] at hgot
  simp only [need, hgot, htoken, hentries]
  rfl

theorem Config.decode_form (hs : Reorders s) (o : Origin) {c : Config} (h : c.Fits) :
    decode o (s c.form) = .ok c := by
  have hinterval := word_reorders hs o h.intervalSecs
  have hintervals : halfWord o (s (nat c.maxIntervals)) = .ok c.maxIntervals :=
    natural_reorders hs o _ h.maxIntervals
  have hmutual := boolean_reorders hs o c.mutualMatch
  have hthreshold := word_reorders hs o h.threshold
  have hquery := string_reorders hs o c.defaultQuery
  have hbatch := count_reorders hs o h.batchSize
  have htickets := count_reorders hs o h.maxTickets
  have hcandidates := count_reorders hs o h.maxCustomCandidates
  have hmemory := count_reorders hs o h.writerMemoryMb
  refine bind_fields_reorders hs (.cons (admits_defaulted hinterval) <|
    .cons (admits_defaulted hintervals) <| .cons (admits_defaulted hmutual) <|
    .cons (admits_defaulted hthreshold) <| .cons (admits_defaulted hquery) <|
    .cons (admits_defaulted hbatch) <| .cons (admits_defaulted htickets) <|
    .cons (admits_defaulted hcandidates) <| .cons (admits_defaulted hmemory) .nil) (by decide)
    fun got hgot => ?_
  simp only [List.forall_mem_cons] at hgot
  simp only [Json.get, hgot, hinterval, hintervals, hmutual, hthreshold, hquery, hbatch, htickets,
    hcandidates, hmemory]
  rfl

theorem Settings.decode_form (hs : Reorders s) (o : Origin) {c : Settings}
    (h : c.matchmaker.Fits) : decode o (s c.form) = .ok c := by
  have hlevel := string_reorders hs o c.logLevel
  have hmatchmaker := Config.decode_form hs o h
  refine bind_fields_reorders hs (.cons (admits_defaulted hlevel) <|
    .cons (admits_defaulted hmatchmaker) .nil) (by decide) fun got hgot => ?_
  simp only [List.forall_mem_cons] at hgot
  simp only [Json.get, hgot, hlevel, hmatchmaker]
  rfl

theorem Timing.decode_form (hs : Reorders s) (o : Origin) {t : Timing} (h : t.Fits) :
    decode o (s t.form) = .ok t := by
  have hinterval := word_reorders hs o h.intervalMs
  have hshutdown := word_reorders hs o h.shutdownTimeoutSecs
  refine bind_fields_reorders hs (.cons (admits_defaulted hinterval) <|
    .cons (admits_defaulted hshutdown) .nil) (by decide) fun got hgot => ?_
  simp only [List.forall_mem_cons] at hgot
  simp only [Json.get, hgot, hinterval, hshutdown]
  rfl

/-- An alternative with a text is read from an object of one field. -/
theorem Outcome.decode_form (hs : Reorders s) (o : Origin) (x : Outcome) :
    decode o (s x.form) = .ok x := by
  have hsingle : ∀ name t, s (.record [(name, .text t)]) = .record [(name, .text t)] := by
    intro name t
    obtain ⟨fs, hrecord, hperm⟩ := hs.record [(name, .text t)] (by simp)
    rw [List.map_singleton, hs.text] at hperm
    rw [hrecord, List.perm_singleton.1 hperm]
  cases x with
  | success =>
    rw [form, hs.text]
    rfl
  | failed m =>
    rw [form, hsingle]
    cases o <;> rfl
  | skipped r =>
    rw [form, hsingle]
    cases o <;> rfl

end Reading

/-! ## Writing what was rounded -/

theorem Ticket.form_rounded (t : Ticket) : t.rounded.form = t.form := by
  rw [form, form, createdMillis, createdMillis, rounded, Instant.millis_floorMillis]

theorem Entry.form_rounded (e : Entry) : e.rounded.form = e.form := by
  rw [form, form, rounded, Instant.millis_floorMillis]

theorem Group.form_rounded (g : Group) : g.rounded.form = g.form := by
  have hentries : (g.entries.map Entry.rounded).map Entry.form = g.entries.map Entry.form := by
    rw [List.map_map]
    exact List.map_congr_left fun e _ => e.form_rounded
  rw [form, form, rounded, hentries]

end Matchmaking
