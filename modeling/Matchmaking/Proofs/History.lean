import Matchmaking.Proofs.Runs

/-!
# What happens to tickets in a run

The history of a run lists what clients could observe of their tickets, in order: that a ticket was
submitted, that it was withdrawn, and when, and that it was handed over in a group. Passes are
numbered; a withdrawal is made between passes, while a pass forms its groups, or when their tickets
are retired, before and between the hand-overs.
-/

namespace Matchmaking

/-- When a call is made. -/
inductive Moment
  /-- No pass is under way. -/
  | between
  /-- A pass forms its groups. -/
  | forming (pass : Nat)
  /-- The tickets of the groups of a pass are retired, and it has not come to its end. -/
  | settling (pass : Nat)
  deriving DecidableEq, Repr

/-- What happens to tickets. -/
inductive Deed
  /-- A ticket is submitted. -/
  | submitted (t : Ticket)
  /-- A ticket is withdrawn. -/
  | withdrawn (moment : Moment) (id : String)
  /-- A pass hands over a group. -/
  | handedOver (pass : Nat) (g : Group)

namespace Service

/-! ## The history of a run -/

/-- What a submission does, as the reply tells. -/
def deedsOfSubmission : Reply → List Deed
  | .submitted t => [.submitted t]
  | _ => []

/-- What the withdrawal of a ticket does, as the reply tells. -/
def deedsOfWithdrawal (moment : Moment) (id : String) : Reply → List Deed
  | .done => [.withdrawn moment id]
  | _ => []

/-- What a call does to tickets; all tickets of a session or a party are those that stand under it
on the roster. -/
def deeds (moment : Moment) (s : Service) : Intake → List Deed
  | .submit at? r => deedsOfSubmission (s.perform (.submit at? r)).1
  | .cancel session user id => deedsOfWithdrawal moment id (s.perform (.cancel session user id)).1
  | .removeParty party id => deedsOfWithdrawal moment id (s.perform (.removeParty party id)).1
  | .removeSessionAll session => (s.roster.ofSession session).map (.withdrawn moment)
  | .removePartyAll party => (s.roster.ofParty party).map (.withdrawn moment)
  | .wait _ => []
  | .ticket _ => []
  | .isActive _ => []
  | .stats => []

/-- The number that a client is answered is the number of tickets that are withdrawn. -/
theorem reply_removeSessionAll (moment : Moment) (s : Service) (session : String) :
    (s.perform (.removeSessionAll session)).1 =
      .count (s.deeds moment (.removeSessionAll session)).length := by
  rw [deeds, List.length_map]
  rfl

theorem reply_removePartyAll (moment : Moment) (s : Service) (party : String) :
    (s.perform (.removePartyAll party)).1 =
      .count (s.deeds moment (.removePartyAll party)).length := by
  rw [deeds, List.length_map]
  rfl

/-- What some calls do to tickets. -/
def deedsAll (moment : Moment) : List Intake → Service → List Deed
  | [], _ => []
  | call :: rest, s => s.deeds moment call ++ deedsAll moment rest (s.perform call).2

/-- What handing over groups and the calls in between do to tickets. -/
def deedsOfHandovers (pass : Nat) : List Group → List (List Intake) → Service → List Deed
  | [], calls, s => deedsAll (.settling pass) (calls.headD []) s
  | g :: rest, calls, s =>
    deedsAll (.settling pass) (calls.headD []) s ++
      .handedOver pass g :: deedsOfHandovers pass rest calls.tail (performAll (calls.headD []) s).2

/-- What a pass whose groups are formed and the calls in between do to tickets from then on. -/
def deedsOfGroups (pass : Nat) (groups : List Group) (promotions : List String)
    (inSettling : List (List Intake)) (s : Service) : List Deed :=
  deedsAll (.settling pass) (inSettling.headD []) (retire (matchedIds groups) s) ++
    deedsOfHandovers pass groups inSettling.tail
      (s.settled groups promotions (inSettling.headD []))

/-- What a pass of some number and the calls in between do to tickets. -/
def deedsOfPass (pass : Nat) (s : Service) (precision : Precision) (inForming : List Intake)
    (inSettling : List (List Intake)) : List Deed :=
  if s.poisoned || s.roster.snapshot.tickets.isEmpty then []
  else
    let (a, later) := s.prepare.assemble precision inForming
    deedsAll (.forming pass) inForming s.prepare ++
      match a.groups with
      | .ok groups => deedsOfGroups pass groups (a.promoted groups) inSettling (later.resume a)
      | .error _ => []

section

variable {s s₁ : Service} {precision : Precision} {inForming : List Intake} {a : Assembled}

theorem deedsOfPass_of_poisoned (h : s.poisoned = true) (pass : Nat) (precision : Precision)
    (inForming : List Intake) (inSettling : List (List Intake)) :
    s.deedsOfPass pass precision inForming inSettling = [] := by
  rw [deedsOfPass, h, Bool.true_or, if_pos rfl]

theorem deedsOfPass_of_empty (h : s.roster.snapshot.tickets.isEmpty = true) (pass : Nat)
    (precision : Precision) (inForming : List Intake) (inSettling : List (List Intake)) :
    s.deedsOfPass pass precision inForming inSettling = [] := by
  rw [deedsOfPass, h, Bool.or_true, if_pos rfl]

theorem deedsOfPass_of_ok (hready : s.poisoned = false)
    (hsome : s.roster.snapshot.tickets.isEmpty = false)
    (ha : s.prepare.assemble precision inForming = (a, s₁)) {groups : List Group}
    (hgroups : a.groups = .ok groups) (pass : Nat) (inSettling : List (List Intake)) :
    s.deedsOfPass pass precision inForming inSettling =
      deedsAll (.forming pass) inForming s.prepare ++
        deedsOfGroups pass groups (a.promoted groups) inSettling (s₁.resume a) := by
  rw [deedsOfPass, hready, hsome, Bool.or_false, if_neg Bool.false_ne_true, ha]
  simp only [hgroups]

theorem deedsOfPass_of_error (hready : s.poisoned = false)
    (hsome : s.roster.snapshot.tickets.isEmpty = false)
    (ha : s.prepare.assemble precision inForming = (a, s₁)) {setback : Setback}
    (hgroups : a.groups = .error setback) (pass : Nat) (inSettling : List (List Intake)) :
    s.deedsOfPass pass precision inForming inSettling =
      deedsAll (.forming pass) inForming s.prepare := by
  rw [deedsOfPass, hready, hsome, Bool.or_false, if_neg Bool.false_ne_true, ha]
  simp only [hgroups, List.append_nil]

theorem mem_deedsOfHandovers {groups : List Group} {g : Group} (h : g ∈ groups) (pass : Nat)
    (calls : List (List Intake)) (s : Service) :
    .handedOver pass g ∈ deedsOfHandovers pass groups calls s := by
  induction groups generalizing calls s with
  | nil => cases h
  | cons first rest ih =>
    rw [deedsOfHandovers]
    refine List.mem_append_right _ ?_
    rcases List.mem_cons.1 h with rfl | h
    · exact List.mem_cons_self
    · exact List.mem_cons_of_mem _ (ih h _ _)

/-- What a pass can be seen to hand over is in the history. -/
theorem mem_deedsOfPass {inSettling : List (List Intake)} {x : Handover}
    (hx : x ∈ (s.process precision inForming inSettling).1.dispatched) (pass : Nat) :
    .handedOver pass x.group ∈ s.deedsOfPass pass precision inForming inSettling := by
  have hends := ends_process s precision inForming inSettling
  generalize s.process precision inForming inSettling = result at hends hx
  cases hends with
  | poisoned hpoisoned => cases hx
  | idle hready hempty => cases hx
  | formed hready hsome ha hgroups =>
    rw [dispatched_conclude] at hx
    have hgroup := List.mem_map_of_mem (f := Handover.group) hx
    rw [map_group_handOver] at hgroup
    rw [deedsOfPass_of_ok hready hsome ha hgroups, deedsOfGroups]
    exact List.mem_append_right _ (List.mem_append_right _ (mem_deedsOfHandovers hgroup pass _ _))
  | refused hready hsome ha hgroups => cases hx
  | crashed hready hsome ha hgroups => cases hx

end

/-- The history of a run whose first pass has some number. -/
def historyFrom (pass : Nat) : List Event → Service → List Deed
  | [], _ => []
  | .call c :: rest, s => s.deeds .between c ++ historyFrom pass rest (s.step (.call c))
  | .pass precision inForming inSettling :: rest, s =>
    s.deedsOfPass pass precision inForming inSettling ++
      historyFrom (pass + 1) rest (s.step (.pass precision inForming inSettling))

/-- The history of a run. -/
def history (s : Service) (events : List Event) : List Deed := historyFrom 0 events s

end Service

/-! ## What a history says of a ticket -/

/-- When a ticket was withdrawn; it may have been so several times. -/
def withdrawals (log : List Deed) (id : String) : List Moment :=
  log.filterMap fun
    | .withdrawn moment other => if other = id then some moment else none
    | _ => none

/-- The groups in which a ticket was handed over, with the passes that did so. -/
def groupsWith (log : List Deed) (id : String) : List (Nat × Group) :=
  log.filterMap fun
    | .handedOver pass g => if id ∈ g.ticketIds then some (pass, g) else none
    | _ => none

section Views

variable {log log' : List Deed} {id : String}

@[simp]
theorem withdrawals_append (log log' : List Deed) (id : String) :
    withdrawals (log ++ log') id = withdrawals log id ++ withdrawals log' id :=
  List.filterMap_append

@[simp]
theorem groupsWith_append (log log' : List Deed) (id : String) :
    groupsWith (log ++ log') id = groupsWith log id ++ groupsWith log' id :=
  List.filterMap_append

@[simp]
theorem withdrawals_submitted (t : Ticket) (id : String) : withdrawals [.submitted t] id = [] := rfl

@[simp]
theorem withdrawals_handedOver (pass : Nat) (g : Group) (id : String) :
    withdrawals [.handedOver pass g] id = [] := rfl

/-- A group that was handed over is among the groups with each of its tickets. -/
theorem groupsWith_ne_nil {pass : Nat} {g : Group} (h : .handedOver pass g ∈ log)
    (hid : id ∈ g.ticketIds) : groupsWith log id ≠ [] :=
  List.ne_nil_of_mem (List.mem_filterMap.2 ⟨.handedOver pass g, h, if_pos hid⟩)

theorem withdrawals_withdrawn (moment : Moment) (id other : String) :
    withdrawals [.withdrawn moment other] id = if other = id then [moment] else [] := by
  rw [withdrawals, List.filterMap_cons]
  split <;> simp_all

@[simp]
theorem groupsWith_submitted (t : Ticket) (id : String) : groupsWith [.submitted t] id = [] := rfl

@[simp]
theorem groupsWith_withdrawn (moment : Moment) (other id : String) :
    groupsWith [.withdrawn moment other] id = [] := rfl

theorem groupsWith_handedOver (pass : Nat) (groups : List Group) (id : String) :
    groupsWith (groups.map (.handedOver pass)) id =
      (groups.filter fun g => id ∈ g.ticketIds).map fun g => (pass, g) := by
  induction groups with
  | nil => rfl
  | cons g rest ih =>
    rw [List.map_cons, List.filter_cons, groupsWith, List.filterMap_cons]
    split <;> simp_all [groupsWith]

end Views

end Matchmaking
