import Matchmaking.Chance.Stream
import Matchmaking.Ticket.Basic

/-!
# Synthetic requests

The players of a simulation. Everybody plays in a region and in a mode and has a skill; everybody
insists on the own mode and prefers the own region. One request in five comes from a party of two.
-/

namespace Matchmaking.Population

open Chance (Source)

/-- The regions. -/
def regions : List String := ["eu", "us", "asia"]

/-- The modes. -/
def modes : List String := ["ranked", "casual"]

/-- How many of 2^64 requests come from a party: a fifth in double precision. -/
def partyShare : Nat := 3689348814741910528

/-- The query of a player: the mode has to fit, the region should. -/
def query (region mode : String) : String :=
  "+properties.mode:" ++ mode ++ " properties.region:" ++ region

/-- The party of a number, before its properties are added. -/
def party (n : Nat) (text : String) : Request :=
  let member (m : Nat) : Presence :=
    ⟨"sim-" ++ toString n ++ "-" ++ toString m, "user-" ++ toString n ++ "-" ++ toString m, ""⟩
  Request.ofParty ("party-" ++ toString n) [member 0, member 1] text 2 4 2

/-- The single player of a number, before the properties are added. -/
def single (n : Nat) (text : String) : Request :=
  Request.solo ("sim-" ++ toString n) ("user-" ++ toString n) text 2 4 2

/-- The request of a number (`synthetic_request`), drawn from a source. -/
def request (n : Nat) (s : Source) : Request × Source :=
  let (region, s) := s.oneOf regions ""
  let (mode, s) := s.oneOf modes ""
  let (skill, s) := s.unit
  let (inParty, s) := s.chance partyShare
  let base := if inParty then party n (query region mode) else single n (query region mode)
  (((base.withText "region" region).withText "mode" mode).withNumber "skill"
    (Number.ofFloat (skill * 100.0)), s)

/-- The requests of `count` numbers from `first` on, drawn one after the other. -/
def requestsFrom : Nat → Nat → Source → List Request
  | _, 0, _ => []
  | first, count + 1, s =>
    let (r, s) := request first s
    r :: requestsFrom (first + 1) count s

/-- The requests of `count` numbers from `first` on for a seed. -/
def requests (seed : UInt64) (first count : Nat) : List Request :=
  requestsFrom first count (.ofSeed seed)

theorem length_requestsFrom (first count : Nat) (s : Source) :
    (requestsFrom first count s).length = count := by
  induction count generalizing first s with
  | zero => rfl
  | succ count ih => simp [requestsFrom, ih]

@[simp]
theorem length_requests (seed : UInt64) (first count : Nat) :
    (requests seed first count).length = count := length_requestsFrom ..

end Matchmaking.Population
