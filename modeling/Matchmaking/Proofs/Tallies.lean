import Matchmaking.Proofs.Conservation
import Matchmaking.Proofs.Lists
import Matchmaking.Proofs.Withdrawals

/-!
# Counting tickets

The tickets of a history are counted by their names. Names are given out one after the other
(`issues_run`), so those of the submitted tickets are distinct if names are fresh. No ticket is
handed over twice, so the names in the groups that were handed over are distinct as well. If no
ticket is withdrawn, the submitted tickets are those that wait and those that were handed over, and
no ticket is both. Main statement: `length_submittedIds`.
-/

namespace Matchmaking

/-! ## What is counted -/

/-- The names of the tickets that were submitted. -/
def submittedIds (log : List Deed) : List String :=
  log.filterMap fun
    | .submitted t => some t.id
    | _ => none

/-- The groups that were handed over. -/
def handedOver (log : List Deed) : List Group :=
  log.filterMap fun
    | .handedOver _ g => some g
    | _ => none

/-- The names of the tickets that were handed over, once for each of their groups. -/
def handedIds (log : List Deed) : List String := (handedOver log).flatMap Group.ticketIds

section

variable {log log' : List Deed} {id : String} {t : Ticket}

@[simp]
theorem submittedIds_append (log log' : List Deed) :
    submittedIds (log ++ log') = submittedIds log ++ submittedIds log' :=
  List.filterMap_append

@[simp]
theorem handedOver_append (log log' : List Deed) :
    handedOver (log ++ log') = handedOver log ++ handedOver log' :=
  List.filterMap_append

theorem mem_submittedIds : id ∈ submittedIds log ↔ ∃ t, .submitted t ∈ log ∧ t.id = id := by
  simp only [submittedIds, List.mem_filterMap]
  constructor
  · rintro ⟨deed, hdeed, hid⟩
    cases deed with
    | submitted t => exact ⟨t, hdeed, Option.some.inj hid⟩
    | withdrawn moment other | handedOver pass g => cases hid
  · rintro ⟨t, ht, rfl⟩
    exact ⟨.submitted t, ht, rfl⟩

/-- The groups with a ticket are those that were handed over with it. -/
theorem map_snd_groupsWith (log : List Deed) (id : String) :
    (groupsWith log id).map Prod.snd = (handedOver log).filter fun g => id ∈ g.ticketIds := by
  induction log with
  | nil => rfl
  | cons deed rest ih =>
    cases deed with
    | submitted t | withdrawn moment other => exact ih
    | handedOver pass g =>
      have hcons : handedOver (.handedOver pass g :: rest) = g :: handedOver rest := rfl
      rw [hcons, List.filter_cons, ← ih, groupsWith, List.filterMap_cons]
      by_cases hid : id ∈ g.ticketIds <;> simp [hid, groupsWith]

theorem mem_handedIds : id ∈ handedIds log ↔ groupsWith log id ≠ [] := by
  rw [Ne, ← List.map_eq_nil_iff (f := Prod.snd), map_snd_groupsWith, List.filter_eq_nil_iff]
  simp [handedIds]

/-- If no ticket is in two of some groups, no two of them have a ticket in common. -/
theorem pairwise_disjoint_of_filter {groups : List Group}
    (h : ∀ id, (groups.filter fun g => id ∈ g.ticketIds).length ≤ 1) :
    groups.Pairwise fun g g' => g.ticketIds.Disjoint g'.ticketIds := by
  induction groups with
  | nil => exact .nil
  | cons g rest ih =>
    refine List.pairwise_cons.2 ⟨fun g' hg' id hid hid' => ?_, ih fun id => ?_⟩
    · have hmem : g' ∈ rest.filter fun g => id ∈ g.ticketIds :=
        List.mem_filter.2 ⟨hg', decide_eq_true hid'⟩
      have hpos := List.length_pos_of_mem hmem
      have htwo := h id
      rw [List.filter_cons, if_pos (decide_eq_true hid), List.length_cons] at htwo
      omega
    · exact Nat.le_trans ((List.sublist_cons_self g rest).filter _).length_le (h id)

theorem nodup_handedIds (h : ∀ id, (groupsWith log id).length ≤ 1) : (handedIds log).Nodup := by
  refine List.nodup_flatMap.2 ⟨fun g _ => nodup_eraseDups _, ?_⟩
  refine pairwise_disjoint_of_filter fun id => ?_
  rw [← map_snd_groupsWith, List.length_map]
  exact h id

end

/-! ## Hand-overs -/

namespace Service

variable {moment : Moment}

/-- Only passes hand over. -/
theorem handedOver_deeds (s : Service) (call : Intake) : handedOver (s.deeds moment call) = [] := by
  cases call with
  | submit at? r =>
    rw [deeds]
    cases (s.perform (.submit at? r)).1 <;> rfl
  | cancel session user id =>
    rw [deeds]
    cases (s.perform (.cancel session user id)).1 <;> rfl
  | removeParty party id =>
    rw [deeds]
    cases (s.perform (.removeParty party id)).1 <;> rfl
  | removeSessionAll session | removePartyAll party => simp [deeds, handedOver]
  | wait _ | ticket _ | isActive _ | stats => rfl

theorem handedOver_deedsAll (calls : List Intake) (s : Service) :
    handedOver (deedsAll moment calls s) = [] := by
  induction calls generalizing s with
  | nil => rfl
  | cons call rest ih => rw [deedsAll, handedOver_append, handedOver_deeds, ih, List.append_nil]

theorem handedOver_deedsOfHandovers (pass : Nat) (groups : List Group)
    (calls : List (List Intake)) (s : Service) :
    handedOver (deedsOfHandovers pass groups calls s) = groups := by
  induction groups generalizing calls s with
  | nil => exact handedOver_deedsAll (calls.headD []) s
  | cons g rest ih =>
    rw [deedsOfHandovers, handedOver_append, handedOver_deedsAll, List.nil_append]
    exact congrArg (g :: ·) (ih calls.tail _)

/-- What a pass hands over is what it can be seen to hand over. -/
theorem handedOver_deedsOfPass (s : Service) (pass : Nat) (precision : Precision)
    (inForming : List Intake) (inSettling : List (List Intake)) :
    handedOver (s.deedsOfPass pass precision inForming inSettling) =
      (s.process precision inForming inSettling).1.dispatched.map Handover.group := by
  have hends := ends_process s precision inForming inSettling
  generalize s.process precision inForming inSettling = result at hends ⊢
  cases hends with
  | poisoned hpoisoned => rw [deedsOfPass_of_poisoned hpoisoned]; rfl
  | idle hready hempty => rw [deedsOfPass_of_empty hempty]; rfl
  | formed hready hsome ha hgroups =>
    rw [deedsOfPass_of_ok hready hsome ha hgroups, deedsOfGroups, handedOver_append,
      handedOver_append, handedOver_deedsAll, handedOver_deedsAll, handedOver_deedsOfHandovers,
      dispatched_conclude, map_group_handOver]
    rfl
  | refused hready hsome ha hgroups | crashed hready hsome ha hgroups =>
    rw [deedsOfPass_of_error hready hsome ha hgroups, handedOver_deedsAll]
    rfl

/-- The calls before a run hand over nothing. -/
theorem handedOver_historyFrom_calls (before : List Intake) (events : List Event) (pass : Nat)
    (s : Service) :
    handedOver (historyFrom pass (before.map .call ++ events) s) =
      handedOver (historyFrom pass events (s.run (before.map .call))) := by
  induction before generalizing s with
  | nil => rfl
  | cons call rest ih =>
    rw [List.map_cons, List.cons_append, historyFrom, handedOver_append, handedOver_deeds, ih]
    rfl

end Service

/-! ## Names are given out one after the other -/

/-- The tickets that were submitted between two states have the names that were next. -/
def Issues (s : Service) (log : List Deed) (s' : Service) : Prop :=
  s'.naming = s.naming ∧ ∃ n, s'.issued = s.issued + n ∧
    submittedIds log = (List.range' s.issued n).map s.naming.ticket

namespace Issues

variable {s s' s'' : Service} {log log' : List Deed}

theorem none (hnaming : s'.naming = s.naming) (hissued : s'.issued = s.issued)
    (hlog : submittedIds log = []) : Issues s log s' :=
  ⟨hnaming, 0, hissued, hlog⟩

theorem trans (h : Issues s log s') (h' : Issues s' log' s'') : Issues s (log ++ log') s'' := by
  obtain ⟨hnaming, m, hm, hlog⟩ := h
  obtain ⟨hnaming', n, hn, hlog'⟩ := h'
  refine ⟨hnaming'.trans hnaming, m + n, by omega, ?_⟩
  rw [submittedIds_append, hlog, hlog', hm, hnaming, ← List.map_append, List.range'_append_1]

/-- What happens before without a trace. -/
theorem after (h : Issues s log s') (hnaming : s''.naming = s'.naming)
    (hissued : s''.issued = s'.issued) : Issues s log s'' := by
  have hrest : Issues s' [] s'' := .none hnaming hissued rfl
  simpa using h.trans hrest

end Issues

namespace Service

variable {s s' : Service} {moment : Moment}

theorem submittedIds_deedsOfWithdrawal (moment : Moment) (id : String) (reply : Reply) :
    submittedIds (deedsOfWithdrawal moment id reply) = [] := by
  cases reply <;> rfl

theorem submittedIds_withdrawn (moment : Moment) (ids : List String) :
    submittedIds (ids.map (.withdrawn moment)) = [] := by
  simp [submittedIds]

theorem issues_withdrawal (s : Service) (w : Withdrawal) :
    Issues s (s.deeds moment w.call) (s.perform w.call).2 := by
  rw [perform_withdrawal]
  obtain ⟨-, -, hnaming, hissued⟩ := withdrawAll_frame (w.found s) s
  refine .none hnaming hissued ?_
  cases w with
  | cancel session user id | ofParty party id => exact submittedIds_deedsOfWithdrawal moment id _
  | allOfSession session | allOfParty party => exact submittedIds_withdrawn moment _

theorem issues_submit (s : Service) (at? : Option Int) (r : Request) :
    Issues s (s.deeds moment (.submit at? r)) (s.perform (.submit at? r)).2 := by
  rw [deeds, perform_submit]
  cases hjudge : s.judge (s.clock.advance at?).now r with
  | error f => exact .none rfl rfl rfl
  | ok p =>
    refine ⟨rfl, 1, rfl, ?_⟩
    have hid : p.ticket.id = s.naming.ticket s.issued := id_of_judge hjudge
    simp [deedsOfSubmission, submittedIds, hid]

theorem issues_perform (s : Service) (call : Intake) :
    Issues s (s.deeds moment call) (s.perform call).2 := by
  cases call with
  | submit at? r => exact issues_submit s at? r
  | cancel session user id => exact issues_withdrawal s (.cancel session user id)
  | removeParty party id => exact issues_withdrawal s (.ofParty party id)
  | removeSessionAll session => exact issues_withdrawal s (.allOfSession session)
  | removePartyAll party => exact issues_withdrawal s (.allOfParty party)
  | wait _ | ticket _ | isActive _ | stats => exact .none rfl rfl rfl

theorem issues_performAll (calls : List Intake) (s : Service) :
    Issues s (deedsAll moment calls s) (performAll calls s).2 := by
  induction calls generalizing s with
  | nil => exact .none rfl rfl rfl
  | cons call rest ih => exact (issues_perform s call).trans (ih _)

theorem issues_handOver (pass : Nat) (groups : List Group) (calls : List (List Intake))
    (s : Service) :
    Issues s (deedsOfHandovers pass groups calls s) (handOver groups calls s).2 := by
  induction groups generalizing calls s with
  | nil => exact issues_performAll (calls.headD []) s
  | cons g rest ih =>
    have hcalls : Issues s (deedsAll (.settling pass) (calls.headD []) s)
        (performAll (calls.headD []) s).2 := issues_performAll (calls.headD []) s
    have hgroup : Issues (performAll (calls.headD []) s).2 [.handedOver pass g]
        (performAll (calls.headD []) s).2 := .none rfl rfl rfl
    exact hcalls.trans (hgroup.trans (ih calls.tail _))

theorem issues_settled (s : Service) (groups : List Group) (promotions : List String)
    (calls : List Intake) :
    Issues s (deedsAll moment calls (retire (matchedIds groups) s))
      (s.settled groups promotions calls) := by
  have hretired : Issues s [] (retire (matchedIds groups) s) := by
    rw [retire_eq]
    exact .none rfl rfl rfl
  refine (hretired.trans (issues_performAll calls _)).after ?_ ?_
  · rw [settled, promoteAll_snd]
  · rw [settled, promoteAll_snd]

theorem issues_process (s : Service) (pass : Nat) (precision : Precision)
    (inForming : List Intake) (inSettling : List (List Intake)) :
    Issues s (s.deedsOfPass pass precision inForming inSettling)
      (s.process precision inForming inSettling).2 := by
  have hprepared : Issues s [] s.prepare := .none rfl rfl rfl
  have hforming : ∀ {a : Assembled} {s₁},
      s.prepare.assemble precision inForming = (a, s₁) →
        Issues s (deedsAll (.forming pass) inForming s.prepare) (s₁.resume a) := by
    intro a s₁ ha
    have halike := alike_assemble s.prepare precision inForming
    rw [ha] at halike
    exact (hprepared.trans (issues_performAll inForming s.prepare)).after halike.naming
      halike.issued
  have hends := ends_process s precision inForming inSettling
  generalize s.process precision inForming inSettling = result at hends ⊢
  cases hends with
  | poisoned hpoisoned =>
    rw [deedsOfPass_of_poisoned hpoisoned]
    exact .none rfl rfl rfl
  | idle hready hempty =>
    rw [deedsOfPass_of_empty hempty]
    exact hprepared
  | @formed hready hsome a s₁ ha groups hgroups =>
    rw [deedsOfPass_of_ok hready hsome ha hgroups, conclude_snd]
    have hsettled := @issues_settled (.settling pass) (s₁.resume a) groups (a.promoted groups)
      (inSettling.headD [])
    exact (hforming ha).trans (hsettled.trans (issues_handOver pass groups inSettling.tail _))
  | refused hready hsome ha hgroups =>
    rw [deedsOfPass_of_error hready hsome ha hgroups]
    refine (hforming ha).after ?_ ?_
    · rw [promoteAll_snd]
    · rw [promoteAll_snd]
  | crashed hready hsome ha hgroups =>
    rw [deedsOfPass_of_error hready hsome ha hgroups]
    exact (hforming ha).after rfl rfl

/-- Over a run names are given out one after the other. -/
theorem issues_run (events : List Event) (pass : Nat) (s : Service) :
    Issues s (historyFrom pass events s) (s.run events) := by
  induction events generalizing pass s with
  | nil => exact .none rfl rfl rfl
  | cons e rest ih =>
    cases e with
    | call c => exact (issues_perform s c).trans (ih pass _)
    | pass precision inForming inSettling =>
      exact (issues_process s pass precision inForming inSettling).trans (ih (pass + 1) _)

end Service

/-! ## Every ticket counts once -/

section

open Service (FreshNames ticket?_eq_some)

variable {s : Service} {log : List Deed} {pass : Nat} {id : String}

theorem nodup_submittedIds {s₀ : Service} (h : Issues s₀ log s) (hstart : s₀.issued = 0)
    (hfresh : s.FreshNames) : (submittedIds log).Nodup := by
  obtain ⟨hnaming, n, hn, hlog⟩ := h
  rw [hlog, ← hnaming]
  refine List.Nodup.map_on (fun a ha b hb hab => ?_) List.nodup_range'
  rw [List.mem_range'_1] at ha hb
  exact hfresh a b (by omega) (by omega) hab

/-- A ticket that was submitted and never withdrawn waits, or was handed over. -/
theorem Balanced.waits_or_handed (h : Balanced ⟨s, log, pass, [], []⟩) {t : Ticket}
    (ht : .submitted t ∈ log) (hw : withdrawals log t.id = []) :
    (s.ticket? t.id = some t ∧ t.id ∉ handedIds log) ∨
      (s.ticket? t.id = none ∧ t.id ∈ handedIds log) := by
  rw [mem_handedIds]
  cases h.fate t ht with
  | waiting hr _ hg =>
    rw [Books.groups_idle] at hg
    exact .inl ⟨hr, not_not.2 hg⟩
  | withdrawn _ hw' _ => exact absurd (hw.symm.trans hw') (by simp)
  | promised hheld _ _ _ _ => cases hheld
  | grouped hr _ hg _ =>
    rw [Books.groups_idle] at hg
    exact .inr ⟨hr, by simp [hg]⟩

theorem Balanced.exists_submitted_of_mem_keys (h : Balanced ⟨s, log, pass, [], []⟩)
    (hid : id ∈ s.roster.tickets.keys) : ∃ t, .submitted t ∈ log ∧ t.id = id := by
  obtain ⟨p, hp⟩ := Table.contains_iff.1 (Table.contains_iff_mem_keys.2 hid)
  obtain ⟨hpid, hplog⟩ := h.registered id p hp
  exact ⟨p.ticket, hplog, hpid⟩

theorem Balanced.exists_submitted_of_mem_handedIds (h : Balanced ⟨s, log, pass, [], []⟩)
    (hid : id ∈ handedIds log) : ∃ t, .submitted t ∈ log ∧ t.id = id := by
  refine h.known id (.inr ?_)
  rw [Books.groups_idle]
  exact mem_handedIds.1 hid

/-- Of the tickets that were submitted each one waits or was handed over, and none did both. -/
theorem Balanced.submittedIds_perm (h : Balanced ⟨s, log, pass, [], []⟩)
    (hw : ∀ id, withdrawals log id = []) (hnodup : (submittedIds log).Nodup) :
    (submittedIds log).Perm (handedIds log ++ s.roster.tickets.keys) := by
  have hkeys : ∀ id, id ∈ s.roster.tickets.keys ↔ s.ticket? id ≠ none := by
    intro id
    rw [← Table.contains_iff_mem_keys, Table.contains_iff, ← Option.ne_none_iff_exists']
    simp [Service.ticket?, Roster.get?]
  have hdisjoint : (handedIds log).Disjoint s.roster.tickets.keys := by
    intro id hhanded hwaits
    obtain ⟨t, ht, rfl⟩ := h.exists_submitted_of_mem_keys hwaits
    rcases h.waits_or_handed ht (hw t.id) with ⟨-, hnot⟩ | ⟨hgone, -⟩
    · exact hnot hhanded
    · exact (hkeys t.id).1 hwaits hgone
  refine (List.perm_ext_iff_of_nodup hnodup ?_).2 fun id => ?_
  · exact (nodup_handedIds h.length_groupsWith_le).append s.roster.tickets.nodup_keys hdisjoint
  · rw [mem_submittedIds, List.mem_append]
    constructor
    · rintro ⟨t, ht, rfl⟩
      rcases h.waits_or_handed ht (hw t.id) with ⟨hwaits, -⟩ | ⟨-, hhanded⟩
      · exact .inr ((hkeys t.id).2 (by simp [hwaits]))
      · exact .inl hhanded
    · rintro (hid | hid)
      · exact h.exists_submitted_of_mem_handedIds hid
      · exact h.exists_submitted_of_mem_keys hid

end

/-- If no ticket was withdrawn in a run of a new matchmaker, each of those that were submitted was
handed over, once, or still waits. -/
theorem length_submittedIds {config : Config} {strategy : Strategy} {naming : Naming}
    {s : Service} (hcreate : Service.create config strategy naming = .ok s) (events : List Event)
    (hfresh : (s.run events).FreshNames) :
    (handedIds (s.history events)).Nodup ∧
      ((∀ id, withdrawals (s.history events) id = []) →
        (submittedIds (s.history events)).length =
          (handedIds (s.history events)).length + (s.run events).roster.size) := by
  have hempty := Balanced.empty config strategy naming
  rw [← (Service.create_eq_ok hcreate).1] at hempty
  obtain ⟨last, hend⟩ := Balanced.ofRun (.created hcreate) hempty 0 hfresh
  refine ⟨nodup_handedIds hend.length_groupsWith_le, fun hw => ?_⟩
  have hissued : s.issued = 0 := by rw [(Service.create_eq_ok hcreate).1]; rfl
  have hnodup := nodup_submittedIds (Service.issues_run events 0 s) hissued hfresh
  have hlength := (hend.submittedIds_perm hw hnodup).length_eq
  rw [List.length_append, Table.keys, List.length_map] at hlength
  exact hlength

end Matchmaking
