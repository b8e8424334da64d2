import Matchmaking.Proofs.Forms

/-!
# Fields left out

It makes no difference whether a field with a default is left out or given this default, in the
object that is read or in one of the objects inside of it. Together with reading what was written,
this is the faithfulness of the JSON forms: `forms_faithful`.
-/

namespace Matchmaking

open Json

namespace Presence

/-- The fields of a presence that may be left out, with their defaults. -/
def defaults : List (String × Json) := [("username", .text "")]

/-- Fields of a presence are left out. -/
def Abridged : Json → Json → Prop := Json.Abridged defaults "" fun _ _ => False

theorem overlooks_abridged : Overlooks decode Abridged := by
  intro j k h o
  refine bind_fields_abridged ⟨by decide, by decide, ?_, nofun⟩ h fun got got' hgot => ?_
  · simp only [defaults, List.forall_mem_cons]
    exact ⟨exists_defaulted (d := string) (by simp) fun _ => rfl, nofun⟩
  · have hsession := need_alike hgot o "session_id" string rfl (by simp)
    have huser := need_alike hgot o "user_id" string rfl (by simp)
    have hname := get_alike hgot o "username" string "" rfl rfl (by simp)
    simp only [hsession, huser, hname]

end Presence

namespace Request

/-- The fields of a request that may be left out, with their defaults. -/
def defaults : List (String × Json) :=
  [("party_id", .null), ("query", .text ""), ("string_properties", .record []),
    ("numeric_properties", .record [])]

/-- Fields of a request or of its presences are left out. -/
def Abridged : Json → Json → Prop :=
  Json.Abridged defaults "presences" (AbridgedItems Presence.Abridged)

theorem overlooks_abridged : Overlooks decode Abridged := by
  have hpart := overlooks_items Presence.overlooks_abridged
  intro j k h o
  refine bind_fields_abridged ⟨by decide, by decide, ?_, ?_⟩ h fun got got' hgot => ?_
  · simp only [defaults, List.forall_mem_cons]
    exact ⟨exists_defaulted (d := optional string) (by simp) fun _ => rfl,
      exists_defaulted (d := string) (by simp) fun _ => rfl,
      exists_defaulted (d := tableOf string) (by simp) fun _ => rfl,
      exists_defaulted (d := tableOf number) (by simp) fun _ => rfl, nofun⟩
  · exact fun j k => exists_part hpart (by simp)
  · have hpresences := need_alike hgot o "presences" (listOf Presence.decode) rfl fun _ => hpart
    have hparty := get_alike hgot o "party_id" (optional string) none rfl rfl (by simp)
    have hquery := get_alike hgot o "query" string "" rfl rfl (by simp)
    have hmin := need_alike hgot o "min_count" Json.count rfl (by simp)
    have hmax := need_alike hgot o "max_count" Json.count rfl (by simp)
    have hmultiple := need_alike hgot o "count_multiple" Json.count rfl (by simp)
    have htexts := get_alike hgot o "string_properties" (tableOf string) .empty rfl rfl (by simp)
    have hnumbers := get_alike hgot o "numeric_properties" (tableOf number) .empty rfl rfl (by simp)
    simp only [hpresences, hparty, hquery, hmin, hmax, hmultiple, htexts, hnumbers]

end Request

namespace Ticket

/-- The fields of a ticket that may be left out, with their defaults. -/
def defaults : List (String × Json) :=
  [("party_id", .null), ("string_properties", .record []), ("numeric_properties", .record [])]

/-- Fields of a ticket or of its presences are left out. -/
def Abridged : Json → Json → Prop :=
  Json.Abridged defaults "presences" (AbridgedItems Presence.Abridged)

theorem overlooks_abridged : Overlooks decode Abridged := by
  have hpart := overlooks_items Presence.overlooks_abridged
  intro j k h o
  refine bind_fields_abridged ⟨by decide, by decide, ?_, ?_⟩ h fun got got' hgot => ?_
  · simp only [defaults, List.forall_mem_cons]
    exact ⟨exists_defaulted (d := optional string) (by simp) fun _ => rfl,
      exists_defaulted (d := tableOf string) (by simp) fun _ => rfl,
      exists_defaulted (d := tableOf number) (by simp) fun _ => rfl, nofun⟩
  · exact fun j k => exists_part hpart (by simp)
  · have hid := need_alike hgot o "ticket_id" string rfl (by simp)
    have hpresences := need_alike hgot o "presences" (listOf Presence.decode) rfl fun _ => hpart
    have hparty := get_alike hgot o "party_id" (optional string) none rfl rfl (by simp)
    have hquery := need_alike hgot o "query" string rfl (by simp)
    have hmin := need_alike hgot o "min_count" Json.count rfl (by simp)
    have hmax := need_alike hgot o "max_count" Json.count rfl (by simp)
    have hmultiple := need_alike hgot o "count_multiple" Json.count rfl (by simp)
    have htexts := get_alike hgot o "string_properties" (tableOf string) .empty rfl rfl (by simp)
    have hnumbers := get_alike hgot o "numeric_properties" (tableOf number) .empty rfl rfl (by simp)
    have hcreated := need_alike hgot o "created_at" millis rfl (by simp)
    simp only [hid, hpresences, hparty, hquery, hmin, hmax, hmultiple, htexts, hnumbers, hcreated]

end Ticket

namespace Entry

/-- The fields of an entry that may be left out, with their defaults. -/
def defaults : List (String × Json) :=
  [("party_id", .null), ("string_properties", .record []), ("numeric_properties", .record [])]

/-- Fields of an entry or of its presence are left out. -/
def Abridged : Json → Json → Prop := Json.Abridged defaults "presence" Presence.Abridged

theorem overlooks_abridged : Overlooks decode Abridged := by
  have hpart := Presence.overlooks_abridged
  intro j k h o
  refine bind_fields_abridged ⟨by decide, by decide, ?_, ?_⟩ h fun got got' hgot => ?_
  · simp only [defaults, List.forall_mem_cons]
    exact ⟨exists_defaulted (d := optional string) (by simp) fun _ => rfl,
      exists_defaulted (d := tableOf string) (by simp) fun _ => rfl,
      exists_defaulted (d := tableOf number) (by simp) fun _ => rfl, nofun⟩
  · exact fun j k => exists_part hpart (by simp)
  · have hid := need_alike hgot o "ticket_id" string rfl (by simp)
    have hpresence := need_alike hgot o "presence" Presence.decode rfl fun _ => hpart
    have hparty := get_alike hgot o "party_id" (optional string) none rfl rfl (by simp)
    have htexts := get_alike hgot o "string_properties" (tableOf string) .empty rfl rfl (by simp)
    have hnumbers := get_alike hgot o "numeric_properties" (tableOf number) .empty rfl rfl (by simp)
    have hcreated := need_alike hgot o "created_at" millis rfl (by simp)
    simp only [hid, hpresence, hparty, htexts, hnumbers, hcreated]

end Entry

namespace Group

/-- Fields of the entries of a group are left out; the group itself has to have all of its own. -/
def Abridged : Json → Json → Prop := Json.Abridged [] "entries" (AbridgedItems Entry.Abridged)

theorem overlooks_abridged : Overlooks decode Abridged := by
  have hpart := overlooks_items Entry.overlooks_abridged
  intro j k h o
  refine bind_fields_abridged ⟨by decide, by decide, by simp, ?_⟩ h fun got got' hgot => ?_
  · exact fun j k => exists_part hpart (by simp)
  · have htoken := need_alike hgot o "token" string rfl (by simp)
    have hentries := need_alike hgot o "entries" (listOf Entry.decode) rfl fun _ => hpart
    simp only [htoken, hentries]

end Group

namespace Config

/-- The fields of the settings of the matchmaker, all of which may be left out. -/
def defaults : List (String × Json) :=
  [("interval_secs", .int 15), ("max_intervals", .int 2), ("mutual_match", .bool false),
    ("mutual_match_threshold_ms", .int 500), ("default_query", .text "*"),
    ("batch_size", .int 100), ("max_tickets", .int 3), ("max_custom_candidates", .int 16),
    ("writer_memory_mb", .int 50)]

/-- Fields of the settings of the matchmaker are left out. -/
def Abridged : Json → Json → Prop := Json.Abridged defaults "" fun _ _ => False

theorem overlooks_abridged : Overlooks decode Abridged := by
  intro j k h o
  refine bind_fields_abridged ⟨by decide, by decide, ?_, nofun⟩ h fun got got' hgot => ?_
  · simp only [defaults, List.forall_mem_cons]
    exact ⟨exists_defaulted (d := word) (by simp) fun _ => rfl,
      exists_defaulted (d := halfWord) (by simp) fun _ => rfl,
      exists_defaulted (d := boolean) (by simp) fun _ => rfl,
      exists_defaulted (d := word) (by simp) fun _ => rfl,
      exists_defaulted (d := string) (by simp) fun _ => rfl,
      exists_defaulted (d := Json.count) (by simp) fun _ => rfl,
      exists_defaulted (d := Json.count) (by simp) fun _ => rfl,
      exists_defaulted (d := Json.count) (by simp) fun _ => rfl,
      exists_defaulted (d := Json.count) (by simp) fun _ => rfl, nofun⟩
  · have hinterval := get_alike hgot o "interval_secs" word 15 rfl rfl (by simp)
    have hintervals := get_alike hgot o "max_intervals" halfWord 2 rfl rfl (by simp)
    have hmutual := get_alike hgot o "mutual_match" boolean false rfl rfl (by simp)
    have hthreshold := get_alike hgot o "mutual_match_threshold_ms" word 500 rfl rfl (by simp)
    have hquery := get_alike hgot o "default_query" string "*" rfl rfl (by simp)
    have hbatch := get_alike hgot o "batch_size" Json.count 100 rfl rfl (by simp)
    have htickets := get_alike hgot o "max_tickets" Json.count 3 rfl rfl (by simp)
    have hcandidates := get_alike hgot o "max_custom_candidates" Json.count 16 rfl rfl (by simp)
    have hmemory := get_alike hgot o "writer_memory_mb" Json.count 50 rfl rfl (by simp)
    simp only [hinterval, hintervals, hmutual, hthreshold, hquery, hbatch, htickets, hcandidates,
      hmemory]

end Config

namespace Settings

/-- The fields of the settings, all of which may be left out. -/
def defaults : List (String × Json) :=
  [("log_level", .text "info"), ("matchmaker", .record Config.defaults)]

/-- Fields of the settings or of those of the matchmaker are left out. -/
def Abridged : Json → Json → Prop := Json.Abridged defaults "matchmaker" Config.Abridged

theorem overlooks_abridged : Overlooks decode Abridged := by
  have hpart := Config.overlooks_abridged
  intro j k h o
  refine bind_fields_abridged ⟨by decide, by decide, ?_, ?_⟩ h fun got got' hgot => ?_
  · simp only [defaults, List.forall_mem_cons]
    exact ⟨exists_defaulted (d := string) (by simp) fun _ => rfl,
      exists_defaulted (d := Config.decode) (by simp) fun _ => rfl, nofun⟩
  · exact fun j k => exists_part hpart (by simp)
  · have hlevel := get_alike hgot o "log_level" string "info" rfl rfl (by simp)
    have hmatchmaker := get_alike hgot o "matchmaker" Config.decode {} rfl rfl fun _ => hpart
    simp only [hlevel, hmatchmaker]

end Settings

namespace Timing

/-- The fields of a timing, both of which may be left out. -/
def defaults : List (String × Json) :=
  [("interval_ms", .int 15000), ("shutdown_timeout_secs", .int 30)]

/-- Fields of a timing are left out. -/
def Abridged : Json → Json → Prop := Json.Abridged defaults "" fun _ _ => False

theorem overlooks_abridged : Overlooks decode Abridged := by
  intro j k h o
  refine bind_fields_abridged ⟨by decide, by decide, ?_, nofun⟩ h fun got got' hgot => ?_
  · simp only [defaults, List.forall_mem_cons]
    exact ⟨exists_defaulted (d := word) (by simp) fun _ => rfl,
      exists_defaulted (d := word) (by simp) fun _ => rfl, nofun⟩
  · have hinterval := get_alike hgot o "interval_ms" word 15000 rfl rfl (by simp)
    have hshutdown := get_alike hgot o "shutdown_timeout_secs" word 30 rfl rfl (by simp)
    simp only [hinterval, hshutdown]

end Timing

/-! ## Faithful forms -/

/-- The JSON form of a type is faithful: a value that fits is read again as it was, up to rounding,
in whatever order the fields of its objects stand; rounding changes nothing that is written; and it
makes no difference which fields are left out that have their defaults. -/
structure Faithful {α : Type} (form : α → Json) (decode : Decoder α) (Fits : α → Prop)
    (rounded : α → α) (Abridged : Json → Json → Prop) : Prop where
  decode_form : ∀ x, Fits x → ∀ o, decode o (form x) = .ok (rounded x)
  decode_reordered : ∀ x, Fits x → ∀ s, Reorders s → ∀ o, decode o (s (form x)) = .ok (rounded x)
  form_rounded : ∀ x, form (rounded x) = form x
  decode_abridged : ∀ j k, Abridged j k → ∀ o, decode o k = decode o j

theorem Faithful.of_reorders {α : Type} {form : α → Json} {decode : Decoder α} {Fits : α → Prop}
    {rounded : α → α} {Abridged : Json → Json → Prop}
    (hdecode : ∀ {s}, Reorders s → ∀ o {x}, Fits x → decode o (s (form x)) = .ok (rounded x))
    (hform : ∀ x, form (rounded x) = form x) (habridged : Overlooks decode Abridged) :
    Faithful form decode Fits rounded Abridged where
  decode_form _ hx o := hdecode reorders_id o hx
  decode_reordered _ hx _ hs o := hdecode hs o hx
  form_rounded := hform
  decode_abridged := habridged

/-- All forms are faithful. Rounding keeps the millisecond in which a ticket was made and goes to
its beginning, also before 1970. -/
theorem forms_faithful :
    Faithful Presence.form Presence.decode (fun _ => True) id Presence.Abridged ∧
    Faithful Request.form Request.decode Request.Fits id Request.Abridged ∧
    Faithful Ticket.form Ticket.decode Ticket.Fits Ticket.rounded Ticket.Abridged ∧
    Faithful Entry.form Entry.decode Entry.Fits Entry.rounded Entry.Abridged ∧
    Faithful Group.form Group.decode Group.Fits Group.rounded Group.Abridged ∧
    Faithful Config.form Config.decode Config.Fits id Config.Abridged ∧
    Faithful Settings.form Settings.decode (fun c => c.matchmaker.Fits) id Settings.Abridged ∧
    Faithful Timing.form Timing.decode Timing.Fits id Timing.Abridged ∧
    Faithful Outcome.form Outcome.decode (fun _ => True) id Eq ∧
    (∀ t : Ticket, t.rounded.createdMillis = t.createdMillis) ∧
    ∀ t : Instant, t.floorMillis.millis = t.millis ∧ t.floorMillis ≤ t ∧
      t.nanos < t.floorMillis.nanos + Instant.perMilli := by
  refine ⟨?presence, ?request, ?ticket, ?entry, ?group, ?config, ?settings, ?timing, ?outcome,
    fun t => t.createdAt.millis_floorMillis,
    fun t => ⟨t.millis_floorMillis, t.floorMillis_le, t.lt_floorMillis_add⟩⟩
  case presence =>
    exact .of_reorders (fun hs o p _ => p.decode_form hs o) (fun _ => rfl)
      Presence.overlooks_abridged
  case request => exact .of_reorders Request.decode_form (fun _ => rfl) Request.overlooks_abridged
  case ticket =>
    exact .of_reorders Ticket.decode_form Ticket.form_rounded Ticket.overlooks_abridged
  case entry => exact .of_reorders Entry.decode_form Entry.form_rounded Entry.overlooks_abridged
  case group => exact .of_reorders Group.decode_form Group.form_rounded Group.overlooks_abridged
  case config => exact .of_reorders Config.decode_form (fun _ => rfl) Config.overlooks_abridged
  case settings =>
    exact .of_reorders Settings.decode_form (fun _ => rfl) Settings.overlooks_abridged
  case timing => exact .of_reorders Timing.decode_form (fun _ => rfl) Timing.overlooks_abridged
  case outcome =>
    refine .of_reorders (fun hs o x _ => x.decode_form hs o) (fun _ => rfl) ?_
    rintro j _ rfl o
    rfl

/-- A ticket that was made one and a half milliseconds before 1970. -/
def lateIn1969 : Ticket :=
  .ofRequest "a" ⟨-1500000⟩ ((Request.solo "s" "u" "*" 2 2 1).withNumber "rank" ⟨0x4028000000000000⟩)
    "*"

/-- The form of this ticket without the fields that have their defaults. -/
def lateIn1969Short : Json :=
  .record [("ticket_id", .text "a"),
    ("presences", .list [.record [("session_id", .text "s"), ("user_id", .text "u")]]),
    ("query", .text "*"), ("min_count", nat 2), ("max_count", nat 2), ("count_multiple", nat 1),
    ("numeric_properties", .record [("rank", .real ⟨0x4028000000000000⟩)]),
    ("created_at", .int (-2))]

/-- All forms of this ticket are read as a ticket that was made two milliseconds before 1970. -/
theorem decode_lateIn1969 :
    Ticket.decode .text lateIn1969.form = .ok { lateIn1969 with createdAt := ⟨-2000000⟩ } ∧
    Ticket.decode .value lateIn1969.form.canonical =
      .ok { lateIn1969 with createdAt := ⟨-2000000⟩ } ∧
    Ticket.decode .text lateIn1969Short = .ok { lateIn1969 with createdAt := ⟨-2000000⟩ } ∧
    ({ lateIn1969 with createdAt := ⟨-2000000⟩ } : Ticket).form = lateIn1969.form := by
  obtain ⟨-, -, hticket, -⟩ := forms_faithful
  have hfits : lateIn1969.Fits := ⟨by decide, by decide, by decide, by decide, by decide⟩
  have hlong := hticket.decode_form lateIn1969 hfits .text
  have hpresence : Presence.Abridged (Presence.form ⟨"s", "u", ""⟩)
      (.record [("session_id", .text "s"), ("user_id", .text "u")]) := by
    refine .inr ⟨_, _, rfl, rfl, by decide, ?_⟩
    exact .keep <| .keep <| .leave (.head _) .done
  have hshort : Ticket.Abridged lateIn1969.form lateIn1969Short := by
    refine .inr ⟨_, _, rfl, rfl, by decide, ?_⟩
    refine .keep <| .shorten ?_ <| .leave ?_ <| .keep <| .keep <| .keep <| .keep <| .leave ?_ <|
      .keep <| .keep .done
    · exact .inr ⟨_, _, rfl, rfl, .cons hpresence .nil⟩
    · exact .head _
    · exact .tail _ (.head _)
  refine ⟨hlong, ?_, ?_, hticket.form_rounded lateIn1969⟩
  · exact hticket.decode_reordered lateIn1969 hfits canonical reorders_canonical .value
  · rw [hticket.decode_abridged _ _ hshort]
    exact hlong

end Matchmaking
