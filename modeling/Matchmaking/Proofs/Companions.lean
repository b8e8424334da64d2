import Mathlib.Algebra.BigOperators.Group.List.Basic
import Matchmaking.Proofs.Bounds
import Matchmaking.Proofs.Departures
import Matchmaking.Proofs.Hosts
import Matchmaking.Proofs.Selection
import Matchmaking.Proofs.Uniform

/-!
# Whether a ticket can find companions

A ticket whose bounds leave no size waits in vain, whoever else comes. All others find companions:
one is enough that accepts just the right size, whether groups are filled greedily or chosen among
all combinations. Main statement: `findsGroup_iff_hasSize`.
-/

namespace Matchmaking

/-! ## Finding a group -/

namespace Request

/-- At some matchmaker with these settings and this strategy, the ticket of a request gets into a
group: after the request was accepted, anything happens, and a pass reports a group with the ticket.
No name is given to two tickets, and the pass asks for mutual satisfaction if the settings do so;
how long it insists is left open. -/
inductive FindsGroup (r : Request) (config : Config) (strategy : Strategy) : Prop
  /-- Where it was submitted, what happened then, and the pass. -/
  | found {s : Service} {at? : Option Int} {t : Ticket} {events : List Event}
    {precision : Precision} {inForming : List Intake} {inSettling : List (List Intake)}
    {report : Report} {g : Group} (hs : Service.Reachable s) (hconfig : s.config = config)
    (hstrategy : s.strategy = strategy) (hnames : Function.Injective s.naming.ticket)
    (haccepted : (s.perform (.submit at? r)).1 = .submitted t)
    (hprecision : precision.enabled = config.mutualMatch)
    (hreport : (((s.perform (.submit at? r)).2.run events).process precision inForming
      inSettling).1.outcome = .ok report)
    (hg : g ∈ report.matched) (ht : t.id ∈ g.ticketIds) : FindsGroup r config strategy

end Request

namespace Service

variable {s s' : Service} {at? : Option Int} {r : Request} {t : Ticket} {p : Pooled}
  {now : Instant}

theorem Move.strategy (hmove : Move s s') : s'.strategy = s.strategy := by
  cases hmove with
  | rest halike => exact halike.strategy
  | enroll hjudge => rfl
  | withdraw other => rfl
  | promote other => rfl

theorem Moves.strategy (hmoves : Moves s s') : s'.strategy = s.strategy :=
  hmoves.keep (P := fun s' => s'.strategy = s.strategy)
    (fun hmove hs => hmove.strategy.trans hs) rfl

/-! ## A ticket in a group has a size -/

theorem count_lt_sum {members : List Ticket} (hpresent : ∀ u ∈ members, 1 ≤ u.count)
    (htwo : 2 ≤ members.length) (ht : t ∈ members) : t.count < (members.map Ticket.count).sum := by
  obtain ⟨before, after, rfl⟩ := List.append_of_mem ht
  have hsum : ∀ l : List Ticket, (∀ u ∈ l, 1 ≤ u.count) → l.length ≤ (l.map Ticket.count).sum := by
    intro l hl
    rw [← List.length_map Ticket.count]
    refine List.length_le_sum_of_one_le _ fun n hn => ?_
    obtain ⟨u, hu, rfl⟩ := List.mem_map.1 hn
    exact hl u hu
  have hbefore := hsum before fun u hu => hpresent u (List.mem_append_left _ hu)
  have hafter := hsum after fun u hu =>
    hpresent u (List.mem_append_right _ (List.mem_cons_of_mem t hu))
  rw [List.length_append, List.length_cons] at htwo
  rw [List.map_append, List.sum_append, List.map_cons, List.sum_cons]
  omega

/-- Whatever happened since a request was accepted, whoever waits under the name of its ticket is
this ticket. -/
theorem ticket_of_moves (hnames : Function.Injective s.naming.ticket)
    (hjudge : { s with clock := s.clock.advance at? }.judge (s.clock.advance at?).now r = .ok p)
    (hmoves : Moves (s.perform (.submit at? r)).2 s') {q : Pooled}
    (hq : s'.roster.get? p.id = some q) : q = p := by
  have hfresh := freshNames_of_moves hnames ((moves_perform s (.submit at? r)).trans hmoves)
  rw [perform_of_judge hjudge] at hmoves
  have hnamed : ({ s with clock := s.clock.advance at? }.enroll p).Named p.id :=
    ⟨s.issued, Nat.lt_succ_self _, (id_of_judge hjudge).symm⟩
  have hstill := hmoves.get?_eq_some hfresh hnamed hq
  rw [enroll, Roster.get?_insert, if_pos rfl] at hstill
  exact (Option.some.inj hstill).symm

end Service

namespace Request.FindsGroup

open Service

variable {r : Request} {config : Config} {strategy : Strategy} {selector : Selector}

/-- Whoever gets into a group has a size: that of the group. -/
theorem hasSize (h : r.FindsGroup config strategy) : r.HasSize := by
  obtain @⟨s, at?, t, events, precision, inForming, inSettling, report, g, hs, -, -, hnames,
    haccepted, -, hreport, hg, ht⟩ := h
  obtain ⟨p, hjudge, rfl⟩ := judge_of_submitted haccepted
  have hmoves := moves_run events (s.perform (.submit at? r)).2
  have hreached := (hs.step (.call (.submit at? r))).run events
  obtain ⟨members, hformed⟩ :=
    (formedOf_of_process hreached precision inForming inSettling).1 report hreport g hg
  have hregistered : ∀ u ∈ members, ∃ q, ((s.perform (.submit at? r)).2.run events).roster.get?
      u.id = some q ∧ q.ticket = u := hformed.registered
  -- the ticket of that name in the group is the one that was made of the request
  have hmember : p.ticket ∈ members := by
    rw [hformed.ticketIds] at ht
    obtain ⟨u, hu, hid⟩ := List.mem_map.1 ht
    obtain ⟨q, hq, rfl⟩ := hregistered u hu
    rw [hid] at hq
    rwa [ticket_of_moves hnames hjudge hmoves hq] at hu
  have hpresent : ∀ u ∈ members, 1 ≤ u.count := by
    intro u hu
    obtain ⟨q, hq, rfl⟩ := hregistered u hu
    exact List.length_pos_iff.2 (hreached.sound.admitted _ q hq).presences_ne
  have hlarger := count_lt_sum hpresent hformed.two_le hmember
  obtain ⟨hmin, hmax, hmultiple⟩ := hformed.bounds p.ticket hmember
  rw [← hformed.size] at hlarger
  rw [(judge_eq_ok hjudge).2.1] at hlarger hmin hmax hmultiple
  exact ⟨g.size, hlarger, hmin, hmax, hmultiple⟩

/-- With a selector, whoever gets into a group was proposed, so that candidates are considered. -/
theorem considered (h : r.FindsGroup config (.selected selector)) :
    0 < config.maxCustomCandidates := by
  obtain @⟨s, at?, t, events, precision, inForming, inSettling, report, g, -, rfl, hselected, -,
    -, -, hreport, hg, -⟩ := h
  have hmoves : Moves s ((s.perform (.submit at? r)).2.run events) :=
    (moves_perform s (.submit at? r)).trans (moves_run events _)
  rw [← hmoves.strategy] at hselected
  rw [← hmoves.config]
  generalize (s.perform (.submit at? r)).2.run events = s' at hselected hreport ⊢
  have hgroup := mem_groupsOfPass (.inl ⟨report, hreport, hg⟩)
  refine Nat.pos_of_ne_zero fun hnone => ?_
  have hnothing := @Exhaustive.isEmpty_propose_of_no_candidates (s'.prepare.round precision) hnone
  have hbookings : (Strategy.selected selector).bookings s'.asked (s'.prepare.round precision) =
      [] := by
    unfold Strategy.bookings
    simp only [hnothing, if_true]
    split <;> rfl
  rw [groupsOfPass, ((s'.strategy.course_bookings _ _).2), hselected, hbookings] at hgroup
  cases hgroup

end Request.FindsGroup

/-! ## A companion -/

/-- The request of some users who accept anybody as long as the group gets a given size. -/
def Request.gathering (names : List String) (size : Nat) : Request where
  presences := names.map fun x => ⟨x, x, ""⟩
  party := none
  query := "*"
  minCount := size
  maxCount := size
  multiple := 1
  texts := .empty
  numbers := .empty

/-- There are always as many new names as are needed. -/
theorem exists_fresh_names (used : List String) (n : Nat) :
    ∃ names : List String, names.length = n ∧ names.Nodup ∧ ∀ x ∈ names, x ≠ "" ∧ x ∉ used := by
  -- strokes longer than all names that are in use together
  have hbound : ∀ x ∈ used, x.length ≤ (used.map String.length).sum := by
    intro x hx
    obtain ⟨before, after, rfl⟩ := List.append_of_mem hx
    rw [List.map_append, List.sum_append, List.map_cons, List.sum_cons]
    omega
  refine ⟨(List.range n).map fun i => Service.strokes.ticket ((used.map String.length).sum + i),
    by simp, ?_, ?_⟩
  · refine List.nodup_range.map fun i j hij => ?_
    exact Nat.add_left_cancel (Service.strokes_injective hij)
  · intro x hx
    obtain ⟨i, -, rfl⟩ := List.mem_map.1 hx
    have hlength : (Service.strokes.ticket ((used.map String.length).sum + i)).length =
        (used.map String.length).sum + i + 1 := by
      simp [Service.strokes]
    refine ⟨fun hempty => ?_, fun hused => ?_⟩
    · rw [hempty] at hlength
      cases hlength
    · have hshort := hbound _ hused
      omega

theorem Request.fault?_gathering {names : List String} {size : Nat} (hsome : names ≠ [])
    (hnodup : names.Nodup) (hnamed : ∀ x ∈ names, x ≠ "") (hroom : names.length ≤ size) :
    (gathering names size).fault? = none := by
  have hlength : (gathering names size).presences.length = names.length := List.length_map _
  have hpos := List.length_pos_iff.2 hsome
  refine fault?_eq_none_iff.2 ⟨⟨?_, presenceFault_of_nodup ?_ ?_ ?_⟩, ?_, ?_, ?_, ?_⟩
  · simpa [gathering] using hsome
  · intro p hp
    obtain ⟨x, hx, rfl⟩ := List.mem_map.1 hp
    exact ⟨hnamed x hx, hnamed x hx⟩
  · simpa [gathering, Function.comp_def] using hnodup
  · exact fun _ _ => List.not_mem_nil
  · show 1 ≤ size
    omega
  · exact Nat.le_refl size
  · exact Nat.le_refl 1
  · show (gathering names size).presences.length ≤ size
    omega

namespace Service

variable {s : Service} {config : Config} {strategy : Strategy} {naming : Naming} {r : Request}
  {t : Ticket} {at? : Option Int} {now : Instant} {host guest : Pooled} {precision : Precision}

/-- Whether a matchmaker can be made hangs on its settings alone. -/
theorem create_of_create (h : create config strategy naming = .ok s) (t : Strategy) (n : Naming) :
    create config t n = .ok (empty config t n) := by
  obtain ⟨-, hvalid⟩ := create_eq_ok h
  cases hcatalog : Catalog.create config.writerMemoryMb with
  | error f =>
    rw [create, hvalid, hcatalog] at h
    cases h
  | ok catalog =>
    cases hquery : ParsedQuery.read config.defaultQuery with
    | error f =>
      rw [create, hvalid, hcatalog, hquery] at h
      cases f <;> cases h
    | ok q =>
      rw [create, hvalid, hcatalog, hquery, catalog_create_eq_ok hcatalog]
      rfl

theorem Reachable.exists_create (h : Reachable s) :
    ∃ t n s₀, create s.config t n = .ok s₀ := by
  induction h with
  | @created config t n s₀ hcreate =>
    have hempty := (create_eq_ok hcreate).1
    rw [hempty] at hcreate ⊢
    exact ⟨t, n, _, hcreate⟩
  | step _ e ih =>
    rw [Moves.config (moves_step _ e)]
    exact ih

theorem judge_gathering {names : List String} {size : Nat} (hindexed : s.roster.Indexed)
    (hmany : 0 < s.config.maxTickets) (hsome : names ≠ []) (hnodup : names.Nodup)
    (hroom : names.length ≤ size)
    (hfresh : ∀ x ∈ names, x ≠ "" ∧ ∀ id p, s.roster.get? id = some p → x ∉ p.ticket.sessions) :
    s.judge now (.gathering names size) =
      .ok ⟨.ofRequest (s.naming.ticket s.issued) now (.gathering names size) "*", .atom .all⟩ := by
  have hfault : (Request.gathering names size).fault? = none :=
    Request.fault?_gathering hsome hnodup (fun x hx => (hfresh x hx).1) hroom
  have hquery : s.queryText (.gathering names size) = "*" := by
    have hblank : Text.allBlank "*" = false := by decide
    rw [queryText, Request.gathering, hblank, if_neg Bool.false_ne_true]
  have hjudge := @judge_of_free s (.gathering names size) now ⟨"*", .atom .all⟩ hfault
    (by rw [hquery, read_asterisk]) hmany nofun ?_
  · rwa [hquery] at hjudge
  · intro p hp
    obtain ⟨x, hx, rfl⟩ := List.mem_map.1 hp
    refine List.eq_nil_iff_forall_not_mem.2 fun id hid => ?_
    obtain ⟨q, hq, -, hmem⟩ := hindexed.mem_ofSession.1 hid
    exact (hfresh x hx).2 id q hq hmem

/-- A gathering that makes up the rest of a size hosts the ticket to which this size is right. -/
theorem hosts_gathering {names : List String} {size : Nat} {id : String}
    (hid : guest.id ≠ id) (hpresent : 0 < guest.ticket.count)
    (hlength : guest.ticket.count + names.length = size)
    (haccepted : guest.ticket.acceptsSize size = true)
    (hfresh : ∀ x ∈ names, x ∉ guest.ticket.sessions) :
    Hosts ⟨.ofRequest id now (.gathering names size) "*", .atom .all⟩ guest := by
  have hcount : Greedy.entryCount
      [⟨.ofRequest id now (.gathering names size) "*", .atom .all⟩, guest] = size := by
    rw [← hlength, Greedy.entryCount_cons, Greedy.entryCount_cons, Greedy.entryCount_nil]
    simp [Ticket.count, Ticket.ofRequest, Request.gathering, Nat.add_comm]
  refine ⟨hid, ?_, rfl, rfl, hcount.symm, hcount.symm, rfl, hpresent, ?_⟩
  · rw [← Bool.not_eq_true, Ticket.sharesSession_iff]
    rintro ⟨x, hx, hmem⟩
    refine hfresh x ?_ hx
    simpa [Ticket.sessions, Ticket.ofRequest, Request.gathering] using hmem
  · rwa [hcount]

/-- If nobody waits but one ticket, there is a request of a host for it that is accepted, provided
that the ticket accepts a size greater than its own. -/
theorem exists_host (hroster : s.roster = Roster.empty.insert guest)
    (hid : guest.id ≠ s.naming.ticket s.issued) (hmany : 0 < s.config.maxTickets)
    (hpresent : 0 < guest.ticket.count) {size : Nat} (hmore : guest.ticket.count < size)
    (haccepted : guest.ticket.acceptsSize size = true) :
    ∃ companion host, s.perform (.submit none companion) =
        (.submitted host.ticket, { s with clock := s.clock.advance none }.enroll host) ∧
      Hosts host guest := by
  obtain ⟨names, hlength, hnodup, hfresh⟩ :=
    exists_fresh_names guest.ticket.sessions (size - guest.ticket.count)
  have hindexed : s.roster.Indexed := by
    rw [hroster]
    exact Roster.indexed_empty.insert rfl
  have hfree : ∀ x ∈ names, x ≠ "" ∧
      ∀ id p, s.roster.get? id = some p → x ∉ p.ticket.sessions := by
    intro x hx
    refine ⟨(hfresh x hx).1, fun id p hp => ?_⟩
    rw [hroster, Roster.get?_insert] at hp
    split at hp
    · rw [← Option.some.inj hp]
      exact (hfresh x hx).2
    · cases hp
  have hjudge := @judge_gathering { s with clock := s.clock.advance none }
    (s.clock.advance none).now names size hindexed hmany (List.length_pos_iff.1 (by omega)) hnodup
    (by omega) hfree
  exact ⟨_, _, perform_of_judge hjudge, hosts_gathering hid hpresent (by omega) haccepted
    fun x hx => (hfresh x hx).2⟩

/-- If nobody waits but a host and its guest, a pass that does not insist sees just these. -/
theorem Sound.hosted (hs : s.Sound) (hroster : s.roster = (Roster.empty.insert guest).insert host)
    (hhosts : Hosts host guest) (hbatch : s.config.batchSize ≠ 0)
    (hclosed : ∀ i, precision.isOpen i = false) :
    Hosted (s.prepare.round precision) host guest where
  toHosts := hhosts
  waiting id p := by
    have hget : (s.prepare.round precision).tickets.tickets.get? id =
        ((Roster.empty.insert guest).insert host).get? id := by
      rw [← hroster]
      rfl
    have hnames := hhosts.names
    have hempty : Roster.empty.get? id = none := rfl
    rw [hget, Roster.get?_insert, Roster.get?_insert, hempty]
    grind
  mirrors := hs.round_mirrors precision
  batch := hbatch
  closed := hclosed

/-! ## The pass -/

/-- In a group of a pass that sees only a host and its guest is the guest. -/
theorem mem_ticketIds_of_hosted (hs : Reachable s)
    (hhosted : Hosted (s.prepare.round precision) host guest) {inForming : List Intake}
    {inSettling : List (List Intake)} {report : Report} {g : Group}
    (hreport : (s.process precision inForming inSettling).1.outcome = .ok report)
    (hg : g ∈ report.matched) : guest.id ∈ g.ticketIds := by
  obtain ⟨members, hformed⟩ :=
    (formedOf_of_process hs precision inForming inSettling).1 report hreport g hg
  have htwo := hformed.two_le
  have hdistinct := hformed.distinct
  rw [hformed.ticketIds]
  by_contra hnot
  -- otherwise all members have the name of the host
  have hall : ∀ id ∈ members.map Ticket.id, id = host.id := by
    intro id hid
    obtain ⟨t, ht, rfl⟩ := List.mem_map.1 hid
    obtain ⟨p, hp, rfl⟩ := hformed.registered t ht
    rcases ((hhosted.waiting _ p).1 hp).1 with rfl | rfl
    · rfl
    · exact absurd hid hnot
  rw [List.eq_replicate_of_mem hall, List.nodup_replicate, List.length_map] at hdistinct
  omega

/-- A greedy pass that sees a host and its guest reports a group. -/
theorem exists_matched_of_hosted (hs : Reachable s) (hgreedy : s.strategy = .greedy)
    (hready : s.poisoned = false)
    (hhosted : Hosted (s.prepare.round precision) host guest) :
    ∃ report, (s.process precision [] []).1.outcome = .ok report ∧ report.matched ≠ [] := by
  have hrange := hs.limits.inRange
  obtain ⟨report, hreport, hmatched⟩ :=
    exists_matched_of_greedy hgreedy hready hrange precision [] []
  have hbookings := hhosted.bookings_ne_nil (hs.sound.underWay_round precision) fun p =>
    Round.isAvailable_iff.2 ⟨rfl, fun _ _ => rfl⟩
  refine ⟨report, hreport, fun hnil => hbookings ?_⟩
  rwa [hmatched, groupsOfPass_of_greedy hgreedy hrange, List.map_eq_nil_iff] at hnil

/-- The selector that takes all that it is offered. -/
def everything : Selector := fun _ offers => .ok offers

/-- A pass that sees a host and its guest and whose selector takes everything reports a group, if
candidates are considered. -/
theorem exists_matched_of_everything (hs : Reachable s)
    (hselected : s.strategy = .selected everything) (hready : s.poisoned = false)
    (hhosted : Hosted (s.prepare.round precision) host guest)
    (hconsidered : 0 < s.config.maxCustomCandidates) :
    ∃ report, (s.process precision [] []).1.outcome = .ok report ∧ report.matched ≠ [] := by
  have hfound := hhosted.isEmpty_propose (hs.sound.underWay_round precision)
    (Round.isAvailable_iff.2 ⟨rfl, fun _ _ => rfl⟩) hconsidered
  have hoffered := (@offered_process_iff s everything precision [] hselected [] _).2
    ⟨hready, Exhaustive.unbroken_propose rfl hs.limits.inRange, hfound, rfl⟩
  obtain ⟨⟨report, hreport, hmatched, -⟩, hkeys, -⟩ :=
    process_of_choices hs hselected hoffered rfl
  refine ⟨report, hreport, ?_⟩
  obtain ⟨p, hp⟩ := Exhaustive.Found.isEmpty_eq_false_iff.1 hfound
  obtain ⟨first, rest, hoffers⟩ := List.exists_cons_of_ne_nil (List.ne_nil_of_mem hp)
  -- the first proposal is honoured, for nothing was taken before it
  rw [hoffers] at hmatched hkeys
  have hfirst := @Exhaustive.find?_eq_of_mem first [] (first :: rest) hkeys List.mem_cons_self
  rw [Exhaustive.honoured, hfirst] at hmatched
  intro hnil
  rw [hnil] at hmatched
  cases hmatched

/-- What is accepted once is accepted by a new matchmaker with the same settings, whatever its
strategy. -/
theorem submitted_again (hs : Reachable s)
    (haccepted : (s.perform (.submit at? r)).1 = .submitted t) (strategy : Strategy) :
    create s.config strategy strokes = .ok (empty s.config strategy strokes) ∧
      ∃ guest c, perform (empty s.config strategy strokes) (.submit none r) =
          (.submitted guest.ticket,
            { empty s.config strategy strokes with clock := c }.enroll guest) ∧
        ∃ now query, guest.ticket = .ofRequest (strokes.ticket 0) now r query := by
  obtain ⟨t₀, n₀, s₀, hcreate⟩ := hs.exists_create
  have hnew := create_of_create hcreate strategy strokes
  refine ⟨hnew, ?_⟩
  obtain ⟨p, hjudge, rfl⟩ := judge_of_submitted haccepted
  obtain ⟨hfault, hticket, -⟩ := judge_eq_ok hjudge
  obtain ⟨q, hread, -⟩ := read_of_judge hjudge
  rw [hticket] at hread
  have hmany := (Config.limits_of_validate (create_eq_ok hnew).2).tickets
  have hguest := @judge_of_free
    { empty s.config strategy strokes with clock := Clock.initial.advance none } r
    (Clock.initial.advance none).now q hfault hread hmany (fun _ _ => rfl) fun _ _ => rfl
  exact ⟨_, _, perform_of_judge hguest, _, _, rfl⟩

/-- A request was accepted by a matchmaker at which nobody waited, and now nobody waits but its
ticket and a host of it. -/
structure Joined (r : Request) (s₀ s : Service) (guest host : Pooled) : Prop where
  reachable : Reachable s₀
  naming : s₀.naming = strokes
  accepted : (s₀.perform (.submit none r)).1 = .submitted guest.ticket
  later : ∃ events, (s₀.perform (.submit none r)).2.run events = s
  ready : s.poisoned = false
  roster : s.roster = (Roster.empty.insert guest).insert host
  hosts : Hosts host guest

theorem exists_joined (hs : Reachable s) (haccepted : (s.perform (.submit at? r)).1 = .submitted t)
    (hsize : r.HasSize) (strategy : Strategy) :
    ∃ s' guest host, Joined r (empty s.config strategy strokes) s' guest host := by
  obtain ⟨hnew, guest, c, hfirst, now, query, hguest⟩ := submitted_again hs haccepted strategy
  obtain ⟨p, hjudge, rfl⟩ := judge_of_submitted haccepted
  have hadmitted := admitted_of_judge hjudge
  rw [(judge_eq_ok hjudge).2.1] at hadmitted
  obtain ⟨size, hmore, hmin, hmax, hmultiple⟩ := hsize
  have hmany := (Config.limits_of_validate (create_eq_ok hnew).2).tickets.ne'
  have hpresent : 0 < guest.ticket.count := by
    rw [hguest]
    exact List.length_pos_iff.2 hadmitted.presences_ne
  have hroom : guest.ticket.count < size := by
    rw [hguest]
    exact hmore
  have haccepts : guest.ticket.acceptsSize size = true := by
    rw [hguest]
    exact Ticket.acceptsSize_iff.2 ⟨hmin, hmax, hadmitted.one_le_multiple, hmultiple⟩
  have hid : guest.id ≠ strokes.ticket 1 := by
    rw [Pooled.id, hguest]
    intro heq
    exact absurd (strokes_injective heq) Nat.zero_ne_one
  obtain ⟨companion, host, hsecond, hhosts⟩ := @exists_host
    ({ empty s.config strategy strokes with clock := c }.enroll guest) guest rfl hid
    (Nat.pos_of_ne_zero hmany) hpresent size hroom haccepts
  have hlast : (perform (empty s.config strategy strokes) (.submit none r)).2.run
      [.call (.submit none companion)] =
        (perform ({ empty s.config strategy strokes with clock := c }.enroll guest)
          (.submit none companion)).2 := by
    rw [hfirst]
    rfl
  refine ⟨_, guest, host, .created hnew, rfl, ?_, ⟨_, hlast⟩, ?_, ?_, hhosts⟩
  · rw [hfirst]
  · rw [hsecond]
    rfl
  · rw [hsecond]
    rfl

namespace Joined

variable {s₀ : Service}

theorem reached (h : Joined r s₀ s guest host) : Reachable s := by
  obtain ⟨events, rfl⟩ := h.later
  exact (h.reachable.step (.call (.submit none r))).run events

theorem frame (h : Joined r s₀ s guest host) :
    s.config = s₀.config ∧ s.strategy = s₀.strategy := by
  obtain ⟨events, rfl⟩ := h.later
  have hmoves : Moves s₀ ((s₀.perform (.submit none r)).2.run events) :=
    (moves_perform s₀ (.submit none r)).trans (moves_run events _)
  exact ⟨hmoves.config, hmoves.strategy⟩

/-- A pass that asks for mutual satisfaction if it has to, but does not insist, sees the two. -/
theorem hosted (h : Joined r s₀ s guest host) (hbatch : s₀.config.batchSize ≠ 0) :
    Hosted (s.prepare.round ⟨s₀.config.mutualMatch, fun _ => false⟩) host guest := by
  refine h.reached.sound.hosted h.roster h.hosts ?_ fun _ => Bool.and_false _
  rwa [h.frame.1]

/-- If this pass reports any group, the ticket of the request is in it. -/
theorem findsGroup (h : Joined r s₀ s guest host) (hbatch : s₀.config.batchSize ≠ 0)
    (hreported : ∃ report,
      (s.process ⟨s₀.config.mutualMatch, fun _ => false⟩ [] []).1.outcome = .ok report ∧
        report.matched ≠ []) : r.FindsGroup s₀.config s₀.strategy := by
  obtain ⟨report, hreport, hmatched⟩ := hreported
  obtain ⟨g, hg⟩ := List.exists_mem_of_ne_nil _ hmatched
  have hguest := mem_ticketIds_of_hosted h.reached (h.hosted hbatch) hreport hg
  obtain ⟨events, rfl⟩ := h.later
  exact .found h.reachable rfl rfl (h.naming ▸ strokes_injective) h.accepted rfl hreport hg hguest

end Joined

end Service

namespace Request

open Service

variable {s : Service} {at? : Option Int} {r : Request} {t : Ticket}

/-- A ticket for which there is a size finds a group. -/
theorem findsGroup_of_hasSize (hs : Reachable s)
    (haccepted : (s.perform (.submit at? r)).1 = .submitted t) (hsize : r.HasSize) :
    r.FindsGroup s.config .greedy ∧
      (0 < s.config.maxCustomCandidates → r.FindsGroup s.config (.selected everything)) := by
  have hbatch : s.config.batchSize ≠ 0 := hs.limits.batch.ne'
  constructor
  · obtain ⟨s', guest, host, h⟩ := exists_joined hs haccepted hsize .greedy
    exact h.findsGroup hbatch
      (exists_matched_of_hosted h.reached h.frame.2 h.ready (h.hosted hbatch))
  · intro hconsidered
    obtain ⟨s', guest, host, h⟩ := exists_joined hs haccepted hsize (.selected everything)
    refine h.findsGroup hbatch (exists_matched_of_everything h.reached h.frame.2 h.ready
      (h.hosted hbatch) ?_)
    rw [h.frame.1]
    exact hconsidered

/-- A request whose presences can be accepted is refused for a bad count exactly if one of its
bounds fails by itself. A ticket that was made of a request finds a group, whether groups are filled
greedily or chosen among all combinations (provided that candidates are considered for these),
exactly if there is a size for it, that is, if the greatest multiple up to the greatest size is
neither less than the least size nor than one more than the number of its presences. -/
theorem findsGroup_iff_hasSize (hs : Reachable s) (at? : Option Int) (r : Request) :
    ((∃ message, (s.perform (.submit at? r)).1 = .refused (.badCount message)) ↔
        r.WellFormed ∧ ¬r.InBounds) ∧
      ∀ t, (s.perform (.submit at? r)).1 = .submitted t →
        (r.FindsGroup s.config .greedy ↔ r.HasSize) ∧
        ((∃ selector, r.FindsGroup s.config (.selected selector)) ↔
          r.HasSize ∧ 0 < s.config.maxCustomCandidates) ∧
        (r.HasSize ↔
          max r.minCount (r.presences.length + 1) ≤ r.maxCount - r.maxCount % r.multiple) := by
  refine ⟨refused_badCount_iff, ?_⟩
  intro t haccepted
  refine ⟨⟨?_, ?_⟩, ⟨?_, ?_⟩, hasSize_iff⟩
  · intro h
    exact h.hasSize
  · intro hsize
    exact (findsGroup_of_hasSize hs haccepted hsize).1
  · rintro ⟨selector, h⟩
    exact ⟨h.hasSize, h.considered⟩
  · rintro ⟨hsize, hconsidered⟩
    exact ⟨everything, (findsGroup_of_hasSize hs haccepted hsize).2 hconsidered⟩

/-- A user who asks for one other user finds a group at a matchmaker with the standard settings. -/
theorem findsGroup_solo : (solo "s" "u" "*" 2 2 1).FindsGroup {} .greedy ∧
    ∃ selector, (solo "s" "u" "*" 2 2 1).FindsGroup {} (.selected selector) := by
  have hreachable : Reachable (empty {} .greedy strokes) :=
    .created (create_standard .greedy strokes)
  have haccepted : ∃ t, ((empty {} .greedy strokes).perform
      (.submit none (solo "s" "u" "*" 2 2 1))).1 = .submitted t := ⟨_, rfl⟩
  obtain ⟨t, ht⟩ := haccepted
  obtain ⟨hgreedy, hselected, hsize⟩ := (findsGroup_iff_hasSize hreachable none _).2 t ht
  have hlarge := hsize.2 (by decide)
  exact ⟨hgreedy.2 hlarge, hselected.2 ⟨hlarge, by decide⟩⟩

/-- A user who asks for a group of two or three whose size is a multiple of five is accepted, though
there is no such size, and never finds a group. -/
theorem not_hasSize_of_submitted : ∃ (s : Service) (r : Request) (t : Ticket), Reachable s ∧
    (s.perform (.submit none r)).1 = .submitted t ∧ ¬r.HasSize ∧
    ∀ strategy, ¬r.FindsGroup s.config strategy := by
  have hnone : ¬(solo "s" "u" "*" 2 3 5).HasSize := by
    rw [hasSize_iff]
    decide
  refine ⟨empty {} .greedy strokes, solo "s" "u" "*" 2 3 5, _,
    .created (create_standard .greedy strokes), rfl, hnone, fun strategy h => hnone h.hasSize⟩

end Request

end Matchmaking
