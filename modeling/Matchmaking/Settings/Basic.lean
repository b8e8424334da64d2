import Matchmaking.Fault
import Matchmaking.Json.Decode

/-!
# Settings

The settings of the matchmaker, their defaults and the rules that they have to obey.
-/

namespace Matchmaking

open Json

/-- The settings of the matchmaker (`MatchmakerConfig`). -/
structure Config where
  /-- Seconds between two passes. -/
  intervalSecs : Nat := 15
  /-- The pass in which a ticket settles for less than it hoped for. -/
  maxIntervals : Nat := 2
  /-- Whether the tickets of a group have to satisfy one another. -/
  mutualMatch : Bool := false
  /-- Milliseconds after which a pass stops asking for mutual satisfaction. -/
  mutualMatchThresholdMs : Nat := 500
  /-- The query of a request that states none. -/
  defaultQuery : String := "*"
  /-- The number of candidates that a search may return. -/
  batchSize : Nat := 100
  /-- The number of tickets that a session or a party may have. -/
  maxTickets : Nat := 3
  /-- The number of candidates whose combinations are tried. -/
  maxCustomCandidates : Nat := 16
  /-- Mebibytes for writing the index. -/
  writerMemoryMb : Nat := 50
  deriving DecidableEq, Repr, Inhabited

namespace Config

/-- The greatest number of candidates whose combinations may be tried. -/
def candidateLimit : Nat := 24

/-- The rule that a setting breaks. -/
inductive Violation
  /-- Passes without time between them. -/
  | interval
  /-- No interval in which to settle. -/
  | intervals
  /-- Searches without hits. -/
  | batch
  /-- No tickets allowed. -/
  | tickets
  /-- Too many candidates to combine. -/
  | candidates (n : Nat)
  deriving DecidableEq, Repr

/-- The wording of a broken rule. -/
def Violation.message : Violation → String
  | .interval => "interval_secs must be > 0"
  | .intervals => "max_intervals must be > 0"
  | .batch => "batch_size must be > 0"
  | .tickets => "max_tickets must be > 0"
  | .candidates n =>
    "max_custom_candidates must be <= " ++ toString candidateLimit ++ ", got " ++ toString n

/-- The first rule that the settings break. -/
def violation? (c : Config) : Option Violation :=
  if c.intervalSecs = 0 then some .interval
  else if c.maxIntervals = 0 then some .intervals
  else if c.batchSize = 0 then some .batch
  else if c.maxTickets = 0 then some .tickets
  else if candidateLimit < c.maxCustomCandidates then some (.candidates c.maxCustomCandidates)
  else none

/-- Accepts settings that break no rule (`MatchmakerConfig::validate`). -/
def validate (c : Config) : Except SettingsFault Unit :=
  match c.violation? with
  | none => .ok ()
  | some v => .error (.invalid v.message)

/-- The JSON form. -/
def form (c : Config) : Json :=
  .record [("interval_secs", nat c.intervalSecs), ("max_intervals", nat c.maxIntervals),
    ("mutual_match", .bool c.mutualMatch),
    ("mutual_match_threshold_ms", nat c.mutualMatchThresholdMs),
    ("default_query", .text c.defaultQuery), ("batch_size", nat c.batchSize),
    ("max_tickets", nat c.maxTickets), ("max_custom_candidates", nat c.maxCustomCandidates),
    ("writer_memory_mb", nat c.writerMemoryMb)]

/-- Reads settings; every field has its default. -/
def decode : Decoder Config := fun o j => do
  let got ← fields "MatchmakerConfig" [.defaulted "interval_secs" word,
    .defaulted "max_intervals" halfWord, .defaulted "mutual_match" boolean,
    .defaulted "mutual_match_threshold_ms" word, .defaulted "default_query" string,
    .defaulted "batch_size" Json.count, .defaulted "max_tickets" Json.count,
    .defaulted "max_custom_candidates" Json.count, .defaulted "writer_memory_mb" Json.count] o j
  let standard : Config := {}
  pure {
    intervalSecs := ← get got o "interval_secs" word standard.intervalSecs
    maxIntervals := ← get got o "max_intervals" halfWord standard.maxIntervals
    mutualMatch := ← get got o "mutual_match" boolean standard.mutualMatch
    mutualMatchThresholdMs :=
      ← get got o "mutual_match_threshold_ms" word standard.mutualMatchThresholdMs
    defaultQuery := ← get got o "default_query" string standard.defaultQuery
    batchSize := ← get got o "batch_size" Json.count standard.batchSize
    maxTickets := ← get got o "max_tickets" Json.count standard.maxTickets
    maxCustomCandidates :=
      ← get got o "max_custom_candidates" Json.count standard.maxCustomCandidates
    writerMemoryMb := ← get got o "writer_memory_mb" Json.count standard.writerMemoryMb }

end Config

/-- The settings of the program (`Settings`). -/
structure Settings where
  /-- How much is written to the log. -/
  logLevel : String := "info"
  /-- The settings of the matchmaker. -/
  matchmaker : Config := {}
  deriving DecidableEq, Repr, Inhabited

namespace Settings

/-- The JSON form. -/
def form (s : Settings) : Json :=
  .record [("log_level", .text s.logLevel), ("matchmaker", s.matchmaker.form)]

/-- Reads settings; every field has its default. -/
def decode : Decoder Settings := fun o j => do
  let got ← fields "Settings" [.defaulted "log_level" string,
    .defaulted "matchmaker" Config.decode] o j
  let standard : Settings := {}
  pure {
    logLevel := ← get got o "log_level" string standard.logLevel
    matchmaker := ← get got o "matchmaker" Config.decode standard.matchmaker }

end Settings

end Matchmaking
