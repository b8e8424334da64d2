import Matchmaking.Service.Basic
import Matchmaking.Text.Blank

/-!
# Taking in and withdrawing tickets

A request is accepted if it is well formed, its bounds make sense, its query can be read and
neither its party nor one of its sessions has too many tickets. A refused request changes nothing.
A ticket is withdrawn by those who own it: a session and user, or a party.
-/

namespace Matchmaking

/-! ## Well-formed requests -/

namespace Request

/-- What is wrong with the presences of a request, the first one first; `seen` are the sessions of
those before. -/
def presenceFault (seen : List String) : List Presence → Option ServiceFault
  | [] => none
  | p :: rest =>
    if p.session.isEmpty || p.user.isEmpty then
      some (.badRequest "presences need a session id and user id")
    else if seen.contains p.session then some (.badRequest ("duplicate session " ++ p.session))
    else presenceFault (p.session :: seen) rest

/-- What is wrong with the bounds of a request. -/
def countFault (r : Request) : Option ServiceFault :=
  if r.minCount < 1 then some (.badCount "min_count must be >= 1")
  else if r.maxCount < r.minCount then
    some (.badCount ("max_count " ++ toString r.maxCount ++ " is below min_count " ++
      toString r.minCount))
  else if r.multiple < 1 then some (.badCount "count_multiple must be >= 1")
  else if r.maxCount < r.presences.length then
    some (.badCount (toString r.presences.length ++ " presences exceed max_count " ++
      toString r.maxCount))
  else none

/-- The first thing that is wrong with a request (`validate_request`). -/
def fault? (r : Request) : Option ServiceFault :=
  if r.presences.isEmpty then some (.badRequest "at least one presence is required")
  else (presenceFault [] r.presences).or r.countFault

end Request

namespace Service

/-! ## Submitting -/

/-- The query of a request, or the standard one if it is blank. -/
def queryText (s : Service) (r : Request) : String :=
  if Text.allBlank r.query then s.config.defaultQuery else r.query

/-- The party or the first session of a ticket that has as many tickets as it may have
(`check_ticket_cap`). -/
def capFault (s : Service) (t : Ticket) : Option ServiceFault :=
  match t.party with
  | some party =>
    if s.config.maxTickets ≤ (s.roster.ofParty party).length then
      some (.tooManyTickets ("party " ++ party))
    else none
  | none =>
    let isFull (x : String) : Bool := s.config.maxTickets ≤ (s.roster.ofSession x).length
    (t.sessions.find? isFull).map fun x => .tooManyTickets ("session " ++ x)

/-- The state with one more ticket. -/
def enroll (s : Service) (p : Pooled) : Service :=
  { s with
    issued := s.issued + 1
    catalog := s.catalog.put p.ticket
    roster := s.roster.insert p }

/-- Judges a request at a moment: the ticket with its query, or why there is none. -/
def judge (s : Service) (now : Instant) (r : Request) : Except ServiceFault Pooled :=
  match r.fault? with
  | some f => .error f
  | none => match ParsedQuery.read (s.queryText r) with
    | .error .broken => .error (.index .broken)
    | .error f => .error (.badQuery f.message)
    | .ok q =>
      let t := Ticket.ofRequest (s.naming.ticket s.issued) now r (s.queryText r)
      match s.capFault t with
      | some f => .error f
      | none => .ok ⟨t, q.query⟩

/-- Submits a request at what the clock shows (`Matchmaker::submit`). -/
def submit (s : Service) (r : Request) : Except ServiceFault Ticket × Service :=
  match s.judge s.clock.now r with
  | .error f => (.error f, s)
  | .ok p => (.ok p.ticket, s.enroll p)

/-! ## Withdrawing -/

/-- The state without a ticket. -/
def withdraw (s : Service) (id : String) : Service :=
  { s with catalog := s.catalog.remove id, roster := s.roster.remove id }

/-- The state without some tickets (`remove_locked`). -/
def withdrawAll (s : Service) (ids : List String) : Service := ids.foldl withdraw s

/-- Whether a user owns a ticket by a session. -/
def ownedBy (session user : String) (p : Pooled) : Bool :=
  p.ticket.party.isNone &&
    p.ticket.presences.any fun x => x.session == session && x.user == user

/-- Whether a party owns a ticket. -/
def ownedByParty (party : String) (p : Pooled) : Bool := p.ticket.party == some party

/-- Withdraws a ticket if those who ask own it. -/
def withdrawIf (s : Service) (owned : Pooled → Bool) (id : String) :
    Except ServiceFault Unit × Service :=
  if (s.roster.get? id).any owned then (.ok (), s.withdraw id)
  else (.error (.ticketNotFound id), s)

/-- Withdraws a ticket on behalf of a session and user (`Matchmaker::cancel`). -/
def cancel (s : Service) (session user id : String) : Except ServiceFault Unit × Service :=
  s.withdrawIf (ownedBy session user) id

/-- Withdraws a ticket on behalf of a party (`remove_party`). -/
def removeParty (s : Service) (party id : String) : Except ServiceFault Unit × Service :=
  s.withdrawIf (ownedByParty party) id

/-- Withdraws all tickets of a session (`remove_session_all`); says how many. -/
def removeSessionAll (s : Service) (session : String) : Nat × Service :=
  let ids := s.roster.ofSession session
  (ids.length, s.withdrawAll ids)

/-- Withdraws all tickets of a party (`remove_party_all`); says how many. -/
def removePartyAll (s : Service) (party : String) : Nat × Service :=
  let ids := s.roster.ofParty party
  (ids.length, s.withdrawAll ids)

end Service

/-! ## Calls -/

/-- What a client can ask for at any time, also while a pass is under way. -/
inductive Intake
  /-- Submit a request, at a given millisecond or at the next one. -/
  | submit (at? : Option Int) (r : Request)
  /-- Let the time pass as if a request had been submitted. -/
  | wait (at? : Option Int)
  /-- Withdraw a ticket of a session and user. -/
  | cancel (session user id : String)
  /-- Withdraw a ticket of a party. -/
  | removeParty (party id : String)
  /-- Withdraw all tickets of a session. -/
  | removeSessionAll (session : String)
  /-- Withdraw all tickets of a party. -/
  | removePartyAll (party : String)
  /-- Look up a ticket. -/
  | ticket (id : String)
  /-- Ask whether a ticket is active. -/
  | isActive (id : String)
  /-- Count the tickets. -/
  | stats
  deriving Repr

/-- What a client is answered. -/
inductive Reply
  /-- The ticket that was made. -/
  | submitted (t : Ticket)
  /-- It was done. -/
  | done
  /-- So many tickets were withdrawn. -/
  | count (n : Nat)
  /-- The ticket that was found. -/
  | ticket (t : Option Ticket)
  /-- Yes or no. -/
  | flag (b : Bool)
  /-- The numbers of tickets. -/
  | stats (s : Service.Stats)
  /-- It was refused. -/
  | refused (f : ServiceFault)

namespace Service

/-- The reply to a withdrawal. -/
def withdrawalReply (result : Except ServiceFault Unit × Service) : Reply × Service :=
  match result with
  | (.ok (), s) => (.done, s)
  | (.error f, s) => (.refused f, s)

/-- Carries out a call. -/
def perform (s : Service) : Intake → Reply × Service
  | .submit at? r =>
    match { s with clock := s.clock.advance at? }.submit r with
    | (.ok t, s) => (.submitted t, s)
    | (.error f, s) => (.refused f, s)
  | .wait at? => (.done, { s with clock := s.clock.advance at? })
  | .cancel session user id => withdrawalReply (s.cancel session user id)
  | .removeParty party id => withdrawalReply (s.removeParty party id)
  | .removeSessionAll session =>
    let (n, s) := s.removeSessionAll session
    (.count n, s)
  | .removePartyAll party =>
    let (n, s) := s.removePartyAll party
    (.count n, s)
  | .ticket id => (.ticket (s.ticket? id), s)
  | .isActive id => (.flag (s.isActive id), s)
  | .stats => (.stats s.stats, s)

/-- Carries out some calls, one after the other. -/
def performAll : List Intake → Service → List Reply × Service
  | [], s => ([], s)
  | call :: rest, s =>
    let (reply, s) := s.perform call
    let (replies, s) := performAll rest s
    (reply :: replies, s)

end Service

end Matchmaking
