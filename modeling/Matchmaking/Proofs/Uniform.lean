import Matchmaking.Proofs.Pools

/-!
# A pass over uniform users

Single users who ask for anybody and for the same sizes come to a new matchmaker, one after the
other. If the first pass is for all of them the last interval, they are put together in the order in
which they came: in full groups as long as there are enough of them, and then in one more group of
those who are left over, unless these are too few. Main statement: `matched_of_uniform`.
-/

namespace Matchmaking

/-- Tickets of single users without a party who ask for anybody and for the same sizes. They have
names and sessions of their own, and each was made in a later millisecond than those before. -/
structure Uniform (lo hi multiple : Nat) (tickets : List Ticket) : Prop where
  single : ∀ t ∈ tickets, t.count = 1
  alone : ∀ t ∈ tickets, t.party = none
  anybody : ∀ t ∈ tickets, t.query = "*"
  minCount : ∀ t ∈ tickets, t.minCount = lo
  maxCount : ∀ t ∈ tickets, t.maxCount = hi
  multiple : ∀ t ∈ tickets, t.multiple = multiple
  names : (tickets.map Ticket.id).Nodup
  sessions : tickets.Pairwise fun t u => t.sessions.Disjoint u.sessions
  ages : tickets.Pairwise fun t u => t.createdMillis < u.createdMillis

theorem Uniform.line {lo hi multiple : Nat} {ps : List Pooled}
    (h : Uniform lo hi multiple (ps.map Pooled.ticket)) : Line lo hi multiple ps where
  plain p hp :=
    have hmem := List.mem_map_of_mem hp
    ⟨h.single _ hmem, h.alone _ hmem, h.minCount _ hmem, h.maxCount _ hmem, h.multiple _ hmem⟩
  ages := by
    have hages := h.ages
    rwa [List.pairwise_map] at hages
  sessions := by
    refine (List.pairwise_map.1 h.sessions).imp fun {p q} hdisjoint => ?_
    refine Bool.eq_false_iff.2 fun hshare => ?_
    obtain ⟨x, hxq, hxp⟩ := Ticket.sharesSession_iff.1 hshare
    exact hdisjoint hxp hxq

namespace Service

variable {s s' : Service} {p : Pooled} {ps : List Pooled} {tickets : List Ticket}

/-! ## Intake -/

/-- Some requests are accepted, one after the other, and become tickets. -/
inductive Enrolls : Service → List Pooled → Service → Prop
  /-- No more requests. -/
  | done {s : Service} : Enrolls s [] s
  /-- One request, and what follows. -/
  | enroll {s s' : Service} {c : Clock} {now : Instant} {r : Request} {p : Pooled}
    {rest : List Pooled} (h : { s with clock := c }.judge now r = .ok p)
    (hrest : Enrolls ({ s with clock := c }.enroll p) rest s') : Enrolls s (p :: rest) s'

theorem withdrawalReply_ne_submitted (result : Except ServiceFault Unit × Service) (t : Ticket) :
    (withdrawalReply result).1 ≠ .submitted t := by
  obtain ⟨_ | _, s⟩ := result <;> exact nofun

/-- Only an accepted request is answered by a ticket. -/
theorem enroll_of_perform {call : Intake} {t : Ticket} (h : (s.perform call).1 = .submitted t) :
    ∃ c now r p, { s with clock := c }.judge now r = .ok p ∧ p.ticket = t ∧
      (s.perform call).2 = { s with clock := c }.enroll p := by
  cases call with
  | submit at? r =>
    simp only [perform, submit] at h ⊢
    cases hjudge : { s with clock := s.clock.advance at? }.judge (s.clock.advance at?).now r with
    | error f =>
      rw [hjudge] at h
      cases h
    | ok p =>
      rw [hjudge] at h
      exact ⟨_, _, r, p, hjudge, Reply.submitted.inj h, rfl⟩
  | cancel session user id => exact absurd h (withdrawalReply_ne_submitted _ t)
  | removeParty party id => exact absurd h (withdrawalReply_ne_submitted _ t)
  | wait at? => cases h
  | removeSessionAll session => cases h
  | removePartyAll party => cases h
  | ticket id => cases h
  | isActive id => cases h
  | stats => cases h

/-- If some calls are answered by tickets, these are the tickets that were enrolled. -/
theorem enrolls_of_performAll {calls : List Intake}
    (h : (performAll calls s).1 = tickets.map .submitted) :
    ∃ ps, ps.map Pooled.ticket = tickets ∧ Enrolls s ps (performAll calls s).2 := by
  induction calls generalizing s tickets with
  | nil =>
    have hnone : tickets = [] := List.map_eq_nil_iff.1 h.symm
    exact ⟨[], hnone.symm, .done⟩
  | cons call rest ih =>
    cases tickets with
    | nil => cases h
    | cons t tickets =>
      have hreplies : (performAll (call :: rest) s).1 =
          (s.perform call).1 :: (performAll rest (s.perform call).2).1 := rfl
      have hlast : (performAll (call :: rest) s).2 = (performAll rest (s.perform call).2).2 := rfl
      rw [hreplies, List.map_cons] at h
      obtain ⟨hfirst, hrest⟩ := List.cons.inj h
      obtain ⟨c, now, r, p, hjudge, ht, hafter⟩ := enroll_of_perform hfirst
      obtain ⟨ps, hps, henrolls⟩ := ih hrest
      rw [hafter] at henrolls
      rw [hlast, hafter]
      exact ⟨p :: ps, by rw [List.map_cons, ht, hps], .enroll hjudge henrolls⟩

namespace Enrolls

/-- Nothing but the clock, the tickets and their number changes, and nobody becomes active. -/
theorem frame (h : Enrolls s ps s') :
    s'.config = s.config ∧ s'.strategy = s.strategy ∧ s'.poisoned = s.poisoned ∧
      ∀ id, s'.roster.isActive id = s.roster.isActive id := by
  induction h with
  | done => exact ⟨rfl, rfl, rfl, fun _ => rfl⟩
  | enroll hjudge hrest ih =>
    obtain ⟨hconfig, hstrategy, hpoisoned, hactive⟩ := ih
    refine ⟨hconfig, hstrategy, hpoisoned, fun id => (hactive id).trans ?_⟩
    exact Roster.isActive_insert _ _ id

theorem read (h : Enrolls s ps s') :
    ∀ p ∈ ps, ∃ q, ParsedQuery.read p.ticket.query = .ok q ∧ q.query = p.query := by
  induction h with
  | done => simp
  | enroll hjudge _ ih => exact List.forall_mem_cons.2 ⟨read_of_judge hjudge, ih⟩

/-- Whoever waits waited before or was enrolled. -/
theorem get?_iff (h : Enrolls s ps s') (hnames : (ps.map Pooled.id).Nodup)
    (hnew : ∀ p ∈ ps, s.roster.get? p.id = none) (id : String) (p : Pooled) :
    s'.roster.get? id = some p ↔ s.roster.get? id = some p ∨ p ∈ ps ∧ p.id = id := by
  induction h with
  | done => simp
  | @enroll s s' c now r first rest hjudge hrest ih =>
    obtain ⟨hfirst, hnames⟩ := List.nodup_cons.1 hnames
    have hget : ∀ id, ({ s with clock := c }.enroll first).roster.get? id =
        if id = first.id then some first else s.roster.get? id :=
      Roster.get?_insert s.roster first
    have hother : ∀ q ∈ rest, q.id ≠ first.id := fun q hq heq =>
      hfirst (heq ▸ List.mem_map_of_mem hq)
    have hfree : s.roster.get? first.id = none := hnew first List.mem_cons_self
    rw [ih hnames fun q hq => ?_, hget]
    · grind
    · rw [hget, if_neg (hother q hq)]
      exact hnew q (List.mem_cons_of_mem first hq)

end Enrolls

/-! ## The pass -/

theorem read_asterisk : ParsedQuery.read "*" = .ok ⟨"*", .atom .all⟩ := rfl

theorem precision_isOpen {config : Config} (h : config.mutualMatch = false) (i : Nat) :
    config.precision.isOpen i = false := by
  unfold Config.precision Precision.ofThreshold
  rw [h]
  rfl

theorem sound_performAll {config : Config} {strategy : Strategy} {naming : Naming}
    (h : create config strategy naming = .ok s) (calls : List Intake) :
    (performAll calls s).2.Sound :=
  (moves_performAll calls s).keep Move.sound (Reachable.created h).sound

/-- What a pass sees if uniform users have come to a new matchmaker. -/
theorem pool_of_uniform {config : Config} {naming : Naming} {calls : List Intake}
    {lo hi multiple : Nat} (hnew : create config .greedy naming = .ok s)
    (hintervals : config.maxIntervals ≤ 1) (hmutual : config.mutualMatch = false)
    (hbounds : lo ≤ hi) (henrolls : Enrolls s ps (performAll calls s).2)
    (huniform : Uniform lo hi multiple (ps.map Pooled.ticket))
    (hbatch : ps.length ≤ config.batchSize) :
    Pool lo hi multiple ((performAll calls s).2.prepare.round config.precision) ps := by
  have hsound := sound_performAll hnew calls
  obtain ⟨rfl, -⟩ := create_eq_ok hnew
  obtain ⟨hconfig, -, -, hactive⟩ := henrolls.frame
  have hnames : (ps.map Pooled.id).Nodup := by
    have hnames := huniform.names
    rwa [List.map_map] at hnames
  refine ⟨huniform.line, hbounds, fun p hp => ?_, fun id p => ?_, hsound.round_mirrors _,
    fun p _ => hactive p.id, ?_, ?_, precision_isOpen hmutual⟩
  · obtain ⟨q, hq, hquery⟩ := henrolls.read p hp
    rw [huniform.anybody _ (List.mem_map_of_mem hp), read_asterisk] at hq
    rw [← hquery, ← Except.ok.inj hq]
  · have hnobody : ∀ id, (empty config .greedy naming).roster.get? id = none := fun _ => rfl
    refine (henrolls.get?_iff hnames (fun p _ => hnobody p.id) id p).trans ?_
    rw [hnobody]
    simp
  · exact Nat.le_trans hbatch (Nat.le_of_eq (congrArg Config.batchSize hconfig).symm)
  · exact Nat.le_trans (Nat.le_of_eq (congrArg Config.maxIntervals hconfig)) hintervals

theorem entries_groupsOfPass (h : s.strategy = .greedy) (hrange : ¬ s.config.OutOfRange)
    (precision : Precision) :
    (s.groupsOfPass precision).map Group.entries =
      ((Greedy.bookings (s.prepare.round precision).order (s.prepare.round precision)).map
        Booking.members).map fun ts => (ts.map Pooled.ticket).flatMap Ticket.entries := by
  rw [groupsOfPass_of_greedy h hrange, List.map_map, List.map_map]
  rfl

/-- If uniform users have come to a new matchmaker, and if its first pass is the last interval for
all of them, does not insist and may search for all of them, this pass forms exactly the groups of
their line, each of them in the order of age. -/
theorem matched_of_uniform {config : Config} {naming : Naming} {calls : List Intake}
    {lo hi multiple : Nat} (hnew : create config .greedy naming = .ok s)
    (hintervals : config.maxIntervals = 1) (hmutual : config.mutualMatch = false)
    (haccepted : (performAll calls s).1 = tickets.map .submitted)
    (huniform : Uniform lo hi multiple tickets) (hbounds : lo ≤ hi) (hpos : 1 ≤ multiple)
    (hfew : multiple ≤ 17) (hbatch : tickets.length ≤ config.batchSize) (inForming : List Intake)
    (inSettling : List (List Intake)) :
    ∃ report, ((performAll calls s).2.process config.precision inForming inSettling).1.outcome =
        .ok report ∧
      report.matched.map Group.entries =
        (lineGroups lo hi multiple tickets).map fun members => members.flatMap Ticket.entries := by
  obtain ⟨ps, rfl, henrolls⟩ := enrolls_of_performAll haccepted
  rw [List.length_map] at hbatch
  have hpool := pool_of_uniform hnew (Nat.le_of_eq hintervals) hmutual hbounds henrolls huniform
    hbatch
  have hsound := sound_performAll hnew calls
  obtain ⟨rfl, hvalid⟩ := create_eq_ok hnew
  obtain ⟨hconfig, hstrategy, hpoisoned, -⟩ := henrolls.frame
  have hrange : ¬ (performAll calls (empty config .greedy naming)).2.config.OutOfRange := by
    rw [hconfig]
    exact (Config.limits_of_validate hvalid).inRange
  obtain ⟨report, hreport, hmatched⟩ := exists_matched_of_greedy hstrategy hpoisoned hrange
    config.precision inForming inSettling
  refine ⟨report, hreport, ?_⟩
  have hall : ∀ p ∈ ps, ((performAll calls (empty config .greedy naming)).2.prepare.round
      config.precision).isAvailable p = true := fun p _ =>
    Round.isAvailable_iff.2 ⟨rfl, fun _ _ => rfl⟩
  have hmembers := hpool.members_of_bookings (hsound.underWay_round _) hpos hfew hall
  rw [hmatched, entries_groupsOfPass hstrategy hrange, hmembers, lineGroups_map, List.map_map]
  rfl

/-! ## Seven users -/

/-- Seven users come one after the other; each asks for an even group of two to five. -/
def sevenCalls : List Intake :=
  ["a", "b", "c", "d", "e", "f", "g"].map fun x => .submit none (.solo x x "*" 2 5 2)

/-- A matchmaker for which every interval is the last one. -/
def impatient : Service := empty { maxIntervals := 1 } .greedy strokes

/-- The tickets among some replies. -/
def ticketsOf (replies : List Reply) : List Ticket :=
  replies.filterMap fun
    | .submitted t => some t
    | _ => none

theorem map_ticketsOf {replies : List Reply} (h : (ticketsOf replies).length = replies.length) :
    replies = (ticketsOf replies).map .submitted := by
  induction replies with
  | nil => rfl
  | cons reply rest ih =>
    have hrest : (ticketsOf rest).length ≤ rest.length := List.length_filterMap_le _ _
    cases reply with
    | submitted t => exact congrArg (_ :: ·) (ih (Nat.succ.inj h))
    | _ => exact absurd h (Nat.ne_of_lt (Nat.lt_succ_of_le hrest))

/-- The tickets of the seven. -/
def sevenTickets : List Ticket := ticketsOf (performAll sevenCalls impatient).1

theorem uniform_sevenTickets : Uniform 2 5 2 sevenTickets := by
  have hsessions : sevenTickets.Pairwise fun t u => t.sharesSession u = false := by
    decide +kernel
  refine ⟨?_, ?_, ?_, ?_, ?_, ?_, ?_, hsessions.imp fun hshare x ht hu => ?_, ?_⟩
  case refine_8 =>
    rw [Ticket.sharesSession_iff.2 ⟨x, hu, ht⟩] at hshare
    cases hshare
  all_goals decide +kernel

/-- The first four form a full group, the next two the last one, and the youngest goes on waiting.
-/
theorem matched_sevenCalls :
    ∃ report, ((performAll sevenCalls impatient).2.process .off [] []).1.outcome = .ok report ∧
      report.matched.map Group.ticketIds = [["I", "II", "III", "IIII"], ["IIIII", "IIIIII"]] := by
  have hnew : create { maxIntervals := 1 } .greedy strokes = .ok impatient := rfl
  have haccepted : (performAll sevenCalls impatient).1 = sevenTickets.map .submitted :=
    map_ticketsOf (by decide +kernel)
  obtain ⟨report, hreport, hmatched⟩ := matched_of_uniform hnew rfl rfl haccepted
    uniform_sevenTickets (by decide) (by decide) (by decide) (by decide +kernel) [] []
  have hids : report.matched.map Group.ticketIds =
      (report.matched.map Group.entries).map fun es => (es.map Entry.ticketId).eraseDups := by
    rw [List.map_map]
    rfl
  have hprecision : ({ maxIntervals := 1 } : Config).precision = .off := rfl
  rw [hprecision] at hreport
  refine ⟨report, hreport, ?_⟩
  rw [hids, hmatched]
  decide +kernel

end Service

end Matchmaking
