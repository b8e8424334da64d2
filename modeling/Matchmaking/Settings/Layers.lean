import Matchmaking.Json.Reader
import Matchmaking.Settings.Basic
import Matchmaking.Settings.Toml
import Matchmaking.Decimal.Shortest
import Matchmaking.Text.Lowercase

/-!
# Layered settings

Settings come from several sources: the defaults, a file at a fixed place, a file named by the
user, and environment variables. Each source is a tree of keys and values; a later source replaces
what it mentions and leaves everything else alone. Keys are compared in lower case. What is
finally found for a setting is converted to its type where that is possible.

A file is written in TOML or JSON, whose texts are read here, or in one of the formats for which
there are other libraries (YAML, INI, RON, JSON5); what these make of a text is taken as given
(`Layers.Reader`).
-/

namespace Matchmaking

/-! ## Laying one tree over another -/

namespace Layers

/-- The fields of a tree; a plain value has none. -/
def branches : Option Json → List (String × Json)
  | some (.record fields) => fields
  | _ => []

/-- Puts a value under a key, in place of an earlier one. -/
def put (key : String) (j : Json) : List (String × Json) → List (String × Json)
  | [] => [(key, j)]
  | (key', j') :: rest => if key' == key then (key, j) :: rest else (key', j') :: put key j rest

mutual

/-- A tree laid over what was there: a table is merged key by key, anything else replaces it. An
empty table leaves what was there. -/
def overlay (below : Option Json) : Json → Json
  | .record [] => below.getD (.record [])
  | .record (field :: rest) => .record (overlayFields (branches below) (field :: rest))
  | j => j

/-- Some fields laid over a table. -/
def overlayFields (below : List (String × Json)) : List (String × Json) → List (String × Json)
  | [] => below
  | (key, j) :: rest =>
    let key := Text.lower key
    overlayFields (put key (overlay (below.lookup key) j) below) rest

end

/-- A step of a path: to a key of a table, or to an item of an array. -/
inductive Step
  /-- The value of a key. -/
  | key (name : String)
  /-- An item of an array. -/
  | item (i : Nat)
  deriving DecidableEq, Repr

/-- The items of an array; anything else has none. -/
def itemsOf : Option Json → List Json
  | some (.list items) => items
  | _ => []

/-- Replaces an item of an array, which is made long enough first. -/
def putItem (i : Nat) (j : Json) (items : List Json) : List Json :=
  (items ++ List.replicate (i + 1 - items.length) Json.null).set i j

/-- Lays a value over what a path leads to; what is in the way is replaced. -/
def assign (j : Json) : List Step → Option Json → Json
  | [], below => overlay below j
  | .key name :: path, below =>
    let fields := branches below
    .record (put name (assign j path (fields.lookup name)) fields)
  | .item i :: path, below =>
    let items := itemsOf below
    .list (putItem i (assign j path items[i]?) items)

/-! ## Paths -/

/-- A character of a key in a path. -/
def isKeyChar (c : Char) : Bool := c.isAlphanum || c == '_' || c == '-' || c == ' '

/-- The steps after the first one: keys after a point, numbers in brackets. -/
def steps? : Nat → List Char → Option (List Step)
  | 0, _ => none
  | _ + 1, [] => some []
  | fuel + 1, '.' :: rest =>
    let name := rest.takeWhile isKeyChar
    if name.isEmpty then none
    else (steps? fuel (rest.dropWhile isKeyChar)).map (.key (String.ofList name) :: ·)
  | fuel + 1, '[' :: rest =>
    let digits := rest.takeWhile Char.isDigit
    match rest.dropWhile Char.isDigit with
    | ']' :: rest =>
      if digits.isEmpty then none
      else (steps? fuel rest).map (.item (Decimal.digitsValue digits) :: ·)
    | _ => none
  | _ + 1, _ => none

/-- The steps that a key of the outermost level stands for; a key that is no path is one step. -/
def path (key : String) : List Step :=
  ((steps? (key.length + 2) ('.' :: key.toList))).getD [.key key]

/-- Lays a source over what was there. -/
def lay (below : Json) (source : List (String × Json)) : Json :=
  source.foldl (fun tree f => assign f.2 (path (Text.lower f.1)) (some tree)) below

/-! ## Sources -/

/-- A file of settings. -/
structure Source where
  /-- The format, as the ending of its name says. -/
  format : String
  /-- What is in it. -/
  text : String
  deriving Repr

/-- The formats that can be read: two that are read here, and others. -/
def formats : List String := ["toml", "json", "yaml", "yml", "ini", "ron", "json5"]

/-- Reads files of the other formats: what the text of a file of a format holds, if it can be
read. -/
abbrev Reader := String → String → Option Json

/-- The fields that a file holds, if it can be read. Of a repeated field of a JSON object the last
value counts. -/
def Source.fields? (others : Reader) (s : Source) : Option (List (String × Json)) :=
  let tree := if s.format == "toml" then Toml.read? s.text
    else if s.format == "json" then (Json.parse? s.text).map Json.canonical
    else if formats.contains s.format then others s.format s.text
    else none
  match tree with
  | some (.record fields) => some fields
  | _ => none

/-- What the names of environment variables begin with, in lower case. -/
def environmentMark : String := "matchmaker_"

/-- The name of an environment variable as a path: two underscores stand between two levels. -/
def leveled : List Char → List Char
  | '_' :: '_' :: rest => '.' :: leveled rest
  | c :: rest => c :: leveled rest
  | [] => []

/-- The value that the text of an environment variable stands for: a truth value, a whole number, a
number or itself. -/
def environmentValue (s : String) : Json :=
  let word := Text.lower s
  if word == "true" then .bool true
  else if word == "false" then .bool false
  else match Decimal.readSigned s with
    | .ok i => .int i
    | .error _ => match Decimal.readNumber? s with
      | some x => .real x
      | none => .text s

/-- The fields that environment variables set; variables of other programs set none. -/
def environmentFields (values : Table String) : List (String × Json) :=
  values.entries.filterMap fun (name, value) =>
    let name := Text.lower name
    if name.startsWith environmentMark then
      let inside := name.toList.drop environmentMark.length
      some (String.ofList (leveled inside), environmentValue value)
    else none

/-! ## Conversions -/

/-- The text of a plain value. -/
def asText : Json → Option String
  | .text s => some s
  | .bool b => some (if b then "true" else "false")
  | .int i =>
    if i < Int.pow 2 63 then some (toString i) else some (Decimal.text (Number.ofInt i))
  | .real x => some (Decimal.text x)
  | _ => none

/-- A number rounded to the nearest natural number of 64 bits, halves away from zero. -/
def roundToWord (x : Number) : Nat := x.toFloat.round.toUInt64.toNat

/-- The natural number of a plain value. -/
def asNat : Json → Option Nat
  | .int i => if i < 0 then none
    else if i < Int.pow 2 63 then some i.toNat
    else some (roundToWord (Number.ofInt i))
  | .real x => some (roundToWord x)
  | .bool b => some (if b then 1 else 0)
  | .text s =>
    let word := Text.lower s
    if word == "true" || word == "on" || word == "yes" then some 1
    else if word == "false" || word == "off" || word == "no" then some 0
    else (Decimal.readUnsigned s).toOption
  | _ => none

/-- The natural number of a plain value, of which 32 bits are kept. -/
def asHalfWord (j : Json) : Option Nat := (asNat j).map (· % Nat.pow 2 32)

/-- The truth value of a plain value. -/
def asBool : Json → Option Bool
  | .bool b => some b
  | .int i => some (i != 0)
  | .real x => some (x.toFloat != 0)
  | .text s =>
    let word := Text.lower s
    if word == "1" || word == "true" || word == "on" || word == "yes" then some true
    else if word == "0" || word == "false" || word == "off" || word == "no" then some false
    else none
  | _ => none

/-- The converted value of a field, or its default if the field is missing. -/
def field? {α : Type} (fields : List (String × Json)) (name : String) (convert : Json → Option α)
    (default : α) : Option α :=
  match fields.lookup name with
  | some j => convert j
  | none => some default

/-- The names of the matchmaker's settings, in the order in which an array lists their values. -/
def configNames : List String :=
  ["interval_secs", "max_intervals", "mutual_match", "mutual_match_threshold_ms", "default_query",
    "batch_size", "max_tickets", "max_custom_candidates", "writer_memory_mb"]

/-- The matchmaker's settings in a tree: a table, or an array of values in the fixed order. -/
def asConfig (j : Json) : Option Config := do
  let fields ← match j with
    | .record fields => some fields
    | .list items => some (configNames.zip items)
    | _ => none
  let standard : Config := {}
  pure {
    intervalSecs := ← field? fields "interval_secs" asNat standard.intervalSecs
    maxIntervals := ← field? fields "max_intervals" asHalfWord standard.maxIntervals
    mutualMatch := ← field? fields "mutual_match" asBool standard.mutualMatch
    mutualMatchThresholdMs :=
      ← field? fields "mutual_match_threshold_ms" asNat standard.mutualMatchThresholdMs
    defaultQuery := ← field? fields "default_query" asText standard.defaultQuery
    batchSize := ← field? fields "batch_size" asNat standard.batchSize
    maxTickets := ← field? fields "max_tickets" asNat standard.maxTickets
    maxCustomCandidates :=
      ← field? fields "max_custom_candidates" asNat standard.maxCustomCandidates
    writerMemoryMb := ← field? fields "writer_memory_mb" asNat standard.writerMemoryMb }

/-- The settings in a tree. -/
def asSettings (j : Json) : Option Settings := do
  let fields := branches (some j)
  let standard : Settings := {}
  pure {
    logLevel := ← field? fields "log_level" asText standard.logLevel
    matchmaker := ← field? fields "matchmaker" asConfig standard.matchmaker }

end Layers

/-! ## Loading -/

/-- Where settings are looked for. -/
structure Settings.Sources where
  /-- The file at the fixed place, if there is one. -/
  standing : Option Layers.Source
  /-- The file that the user names: none, one that does not exist, or one that does. -/
  named : Option (Option Layers.Source)
  /-- The environment variables. -/
  environment : Table String
  /-- How files are read that are neither TOML nor JSON. -/
  others : Layers.Reader

namespace Settings

/-- The tree of the built-in values, on which all sources are laid. -/
def builtIn : Json := Settings.form {}

/-- The fields of the file at the fixed place. A file of an unknown format is not looked for. -/
def Sources.standingFields? (s : Sources) : Option (List (String × Json)) :=
  match s.standing with
  | none => some []
  | some source =>
    if Layers.formats.contains source.format then source.fields? s.others else some []

/-- The fields of the file that the user names. It has to exist. -/
def Sources.namedFields? (s : Sources) : Option (List (String × Json)) :=
  match s.named with
  | none => some []
  | some none => none
  | some (some source) => source.fields? s.others

/-- The tree of all sources, later ones over earlier ones. -/
def Sources.tree? (s : Sources) : Option Json := do
  let standing ← s.standingFields?
  let named ← s.namedFields?
  pure (Layers.lay (Layers.lay (Layers.lay builtIn standing) named)
    (Layers.environmentFields s.environment))

/-- Loads the settings from all sources and checks them (`Settings::load`). -/
def load (s : Sources) : Except SettingsFault Settings :=
  match s.tree?.bind Layers.asSettings with
  | none => .error (.unreadable "the settings cannot be read")
  | some settings => do
    settings.matchmaker.validate
    pure settings

end Settings

end Matchmaking
