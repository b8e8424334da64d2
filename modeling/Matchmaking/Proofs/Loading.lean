import Mathlib.Tactic.SplitIfs
import Matchmaking.Proofs.Layering

/-!
# Loading settings

The three sources as layers of assignments, the highest first, and what loading makes of them
(`load_layered`): the ten settings as the layers tell them, or the first rule that they break.
-/

namespace Matchmaking

/-! ## The rules -/

namespace Config

variable {c : Config}

/-- Settings that break a rule. -/
def Breaks (c : Config) : Violation → Prop
  | .interval => c.intervalSecs = 0
  | .intervals => c.maxIntervals = 0
  | .batch => c.batchSize = 0
  | .tickets => c.maxTickets = 0
  | .candidates n => n = c.maxCustomCandidates ∧ candidateLimit < n

/-- The place of a rule among the others. -/
def Violation.rank : Violation → Nat
  | .interval => 0
  | .intervals => 1
  | .batch => 2
  | .tickets => 3
  | .candidates _ => 4

/-- The first of the rules that settings break. -/
structure BreaksFirst (c : Config) (v : Violation) : Prop where
  breaks : c.Breaks v
  first : ∀ w, c.Breaks w → v.rank ≤ w.rank

theorem not_breaks_of_violation? (h : c.violation? = none) (v : Violation) : ¬ c.Breaks v := by
  unfold violation? at h
  split_ifs at h with hinterval hintervals hbatch htickets hcandidates
  intro hv
  cases v with
  | interval => exact hinterval hv
  | intervals => exact hintervals hv
  | batch => exact hbatch hv
  | tickets => exact htickets hv
  | candidates n =>
    obtain ⟨rfl, hlimit⟩ := hv
    exact hcandidates hlimit

theorem breaksFirst_of_violation? {v : Violation} (h : c.violation? = some v) :
    c.BreaksFirst v := by
  unfold violation? at h
  split_ifs at h with hinterval hintervals hbatch htickets hcandidates
  · cases h
    exact ⟨hinterval, fun w _ => Nat.zero_le w.rank⟩
  · cases h
    refine ⟨hintervals, fun w hw => ?_⟩
    cases w with
    | interval => exact absurd hw hinterval
    | _ => simp [Violation.rank]
  · cases h
    refine ⟨hbatch, fun w hw => ?_⟩
    cases w with
    | interval => exact absurd hw hinterval
    | intervals => exact absurd hw hintervals
    | _ => simp [Violation.rank]
  · cases h
    refine ⟨htickets, fun w hw => ?_⟩
    cases w with
    | interval => exact absurd hw hinterval
    | intervals => exact absurd hw hintervals
    | batch => exact absurd hw hbatch
    | _ => simp [Violation.rank]
  · cases h
    refine ⟨⟨rfl, hcandidates⟩, fun w hw => ?_⟩
    cases w with
    | interval => exact absurd hw hinterval
    | intervals => exact absurd hw hintervals
    | batch => exact absurd hw hbatch
    | tickets => exact absurd hw htickets
    | candidates n => exact Nat.le_refl _

end Config

namespace Settings

open Layers

variable {s : Sources} {layers : List (List Assignment)} {settings : Settings}

/-- The layers of the sources, the highest first, and of each the assignments, the last first. -/
def Sources.layers? (s : Sources) : Option (List (List Assignment)) := do
  let standing ← s.standingFields?
  let named ← s.namedFields?
  pure ([environmentFields s.environment, named, standing].map fun source =>
    (assignments source).reverse)

/-- The sources can be read if and only if they have layers, and their tree is what these make of
the built-in values. -/
theorem Sources.tree?_eq (s : Sources) :
    s.tree? = s.layers?.bind fun layers => tree layers.flatten := by
  unfold tree? layers?
  cases s.standingFields? with
  | none => rfl
  | some standing =>
    cases s.namedFields? with
    | none => rfl
    | some named =>
      have hstanding : tree ((assignments standing).reverse ++ []) = some (lay builtIn standing) :=
        lay_tree standing rfl
      have htree := lay_tree (environmentFields s.environment) (lay_tree named hstanding)
      exact htree.symm

theorem Sources.proper_of_layers? (h : s.layers? = some layers) :
    ∀ a ∈ layers.flatten, a.Proper := by
  obtain ⟨standing, -, h⟩ := Option.bind_eq_some_iff.1 h
  obtain ⟨named, -, h⟩ := Option.bind_eq_some_iff.1 h
  cases h
  intro a ha
  obtain ⟨layer, hlayer, ha⟩ := List.mem_flatten.1 ha
  obtain ⟨source, -, rfl⟩ := List.mem_map.1 hlayer
  exact proper_of_mem_assignments (List.mem_reverse.1 ha)

theorem reads_of_asSettings {j : Json} (h : asSettings j = some settings) :
    convertOr asText "info" ((branches (some j)).lookup "log_level") = some settings.logLevel ∧
      convertOr asConfig {} ((branches (some j)).lookup group) = some settings.matchmaker := by
  simp only [asSettings, field?_eq] at h
  obtain ⟨_, hlevel, h⟩ := Option.bind_eq_some_iff.1 h
  obtain ⟨_, hmatchmaker, h⟩ := Option.bind_eq_some_iff.1 h
  cases h
  exact ⟨hlevel, hmatchmaker⟩

/-- If loading reports no library error then settings are found, and the rules decide. -/
theorem exists_of_load (h : ∀ d, load s ≠ .error (.unreadable d)) :
    ∃ settings, s.tree?.bind asSettings = some settings ∧
      load s = match settings.matchmaker.violation? with
        | none => .ok settings
        | some v => .error (.invalid v.message) := by
  unfold load at h ⊢
  cases hfound : s.tree?.bind asSettings with
  | none =>
    rw [hfound] at h
    exact absurd rfl (h "the settings cannot be read")
  | some settings =>
    refine ⟨settings, rfl, ?_⟩
    simp only [Config.validate]
    cases settings.matchmaker.violation? <;> rfl

/-- The settings that some layers make, the highest first. -/
structure Layered (layers : List (List Assignment)) (settings : Settings) : Prop where
  logLevel : convertOr asText "info" (layers.findSome? (valueAt [.key "log_level"])) =
    some settings.logLevel
  matchmaker : Reads (fun name => told name layers.flatten) settings.matchmaker
  tabular : (∀ layer ∈ layers, Tabular layer) →
    Reads (fun name => layers.findSome? (valueAt [.key group, .key name])) settings.matchmaker

theorem layered_of_tree (hproper : ∀ a ∈ layers.flatten, a.Proper) {j : Json}
    (htree : tree layers.flatten = some j) (h : asSettings j = some settings) :
    Layered layers settings := by
  obtain ⟨hlevel, hmatchmaker⟩ := reads_of_asSettings h
  rw [← htree] at hlevel hmatchmaker
  have hreads : Reads (fun name => told name layers.flatten) settings.matchmaker := by
    have hgrouped := grouped_tree hproper
    obtain ⟨found, hfound, -⟩ := hgrouped.present
    rw [hfound] at hgrouped hmatchmaker
    exact reads_told hgrouped hmatchmaker
  refine ⟨?_, hreads, fun htabular => ?_⟩
  · obtain ⟨-, htells⟩ := @tells_tree _ "log_level" _ rfl hproper
    rw [valueAt_flatten] at htells
    exact htells.convertOr isScalar_of_asText rfl hlevel
  · have hflat : Tabular layers.flatten := by
      intro a ha
      obtain ⟨layer, hlayer, ha⟩ := List.mem_flatten.1 ha
      exact htabular layer hlayer a ha
    have htold : (fun name => told name layers.flatten) =
        fun name => layers.findSome? (valueAt [.key group, .key name]) := by
      funext name
      rw [told_eq_valueAt hproper hflat, valueAt_flatten]
    rw [← htold]
    exact hreads

/-- What loading makes of sources that can be read: the settings that their layers make, if these
obey the rules, and otherwise the first rule that they break. -/
theorem load_layered (s : Sources) (h : ∀ d, load s ≠ .error (.unreadable d)) :
    ∃ layers settings, s.layers? = some layers ∧ Layered layers settings ∧
      ((load s = .ok settings ∧ ∀ v, ¬ settings.matchmaker.Breaks v) ∨
        ∃ v, load s = .error (.invalid v.message) ∧ settings.matchmaker.BreaksFirst v) := by
  obtain ⟨settings, hfound, hload⟩ := exists_of_load h
  rw [s.tree?_eq] at hfound
  obtain ⟨j, htree, hsettings⟩ := Option.bind_eq_some_iff.1 hfound
  obtain ⟨layers, hlayers, htree⟩ := Option.bind_eq_some_iff.1 htree
  refine ⟨layers, settings, hlayers, ?_, ?_⟩
  · exact layered_of_tree (Sources.proper_of_layers? hlayers) htree hsettings
  · rw [hload]
    cases hviolation : settings.matchmaker.violation? with
    | none => exact Or.inl ⟨rfl, Config.not_breaks_of_violation? hviolation⟩
    | some v => exact Or.inr ⟨v, rfl, Config.breaksFirst_of_violation? hviolation⟩

/-- What a file in YAML holds that sets nothing but the level. -/
def warnLevel : Reader := fun format text =>
  if format = "yaml" ∧ text = "log_level: warn\n" then some (.record [("log_level", .text "warn")])
  else none

/-- Three sources, the highest of which sets what the lowest sets, and the one between them
something else. -/
def stacked : Sources where
  standing := some ⟨"toml", "[matchmaker]\nmutual_match = false\n"⟩
  named := some (some ⟨"yaml", "log_level: warn\n"⟩)
  environment := Table.empty.insert "MATCHMAKER_MATCHMAKER__MUTUAL_MATCH" "true"
  others := warnLevel

theorem tree?_stacked : (stacked.tree?.bind asSettings) =
    some { logLevel := "warn", matchmaker := { mutualMatch := true } } := by
  decide +kernel

theorem load_stacked : load stacked = .ok
    { logLevel := "warn", matchmaker := { mutualMatch := true } } := by
  unfold load
  rw [tree?_stacked]
  rfl

theorem load_layered_stacked :
    ∃ layers, stacked.layers? = some layers ∧ Layered layers
      { logLevel := "warn", matchmaker := { mutualMatch := true } } := by
  have hreadable : ∀ d, load stacked ≠ .error (.unreadable d) := by
    intro d
    rw [load_stacked]
    intro h
    cases h
  obtain ⟨layers, settings, hlayers, hlayered, hload⟩ := load_layered stacked hreadable
  rw [load_stacked] at hload
  rcases hload with ⟨hload, -⟩ | ⟨v, hload, -⟩
  · cases hload
    exact ⟨layers, hlayers, hlayered⟩
  · cases hload

/-- Three sources, the second of which sets no field of the table but the table itself. -/
def cutOff : Sources where
  standing := some ⟨"toml", "[matchmaker]\nmutual_match = true\n"⟩
  named := some (some ⟨"toml", "matchmaker = false\n"⟩)
  environment := Table.empty.insert "MATCHMAKER_MATCHMAKER__MAX_TICKETS" "4"
  others _ _ := none

theorem tree?_cutOff : (cutOff.tree?.bind asSettings) =
    some { matchmaker := { maxTickets := 4 } } := by
  decide +kernel

theorem load_cutOff : load cutOff = .ok { matchmaker := { maxTickets := 4 } } := by
  unfold load
  rw [tree?_cutOff]
  rfl

/-- The layers tell that tickets have to satisfy one another. -/
theorem mutualMatch_cutOff : (cutOff.layers?.bind fun layers =>
    convertOr asBool false (layers.findSome? (valueAt [.key group, .key "mutual_match"]))) =
      some true := by
  decide +kernel

/-- Only the lowest source says whether tickets have to satisfy one another, and it says so in
vain: the field is not independent of what the others make of its table. -/
theorem not_independent_cutOff : ∃ layers settings, cutOff.layers? = some layers ∧
    load cutOff = .ok settings ∧
    ¬ Reads (fun name => layers.findSome? (valueAt [.key group, .key name]))
      settings.matchmaker := by
  have hreadable : cutOff.layers?.isSome = true := by decide +kernel
  obtain ⟨layers, hlayers⟩ := Option.isSome_iff_exists.1 hreadable
  refine ⟨layers, _, hlayers, load_cutOff, fun hreads => ?_⟩
  have htold := mutualMatch_cutOff
  rw [hlayers, Option.bind_some, hreads.mutualMatch] at htold
  cases htold

end Settings

end Matchmaking
