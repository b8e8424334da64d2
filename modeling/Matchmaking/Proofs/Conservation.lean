import Matchmaking.Proofs.Books

/-!
# No ticket is lost

Over whole runs, with calls before, between and during passes, every ticket that was submitted still
waits, was withdrawn once, or was handed over in one group with all of its entries. In the last case
it may have been withdrawn as well, but only while that group was formed. No ticket is handed over
in two groups.
-/

namespace Matchmaking

namespace Service

/-- Among groups that have nothing in common, a ticket is in one only. -/
theorem filter_ticketIds_of_apart {groups : List Group} (h : groups.Pairwise Group.Apart)
    {g : Group} (hg : g ∈ groups) {id : String} (hid : id ∈ g.ticketIds) :
    (groups.filter fun g => id ∈ g.ticketIds) = [g] := by
  induction groups with
  | nil => simp at hg
  | cons first rest ih =>
    obtain ⟨hfirst, hrest⟩ := List.pairwise_cons.1 h
    rw [List.filter_cons]
    rcases List.mem_cons.1 hg with rfl | hg
    · rw [if_pos (by simpa using hid), List.filter_eq_nil_iff.2]
      intro other hother hin
      exact (hfirst other hother).tickets hid (by simpa using hin)
    · have hnot : id ∉ first.ticketIds := fun hin => (hfirst g hg).tickets hin hid
      rw [if_neg (by simpa using hnot)]
      exact ih hrest hg

theorem groupsWith_eq_singleton {groups : List Group} (h : groups.Pairwise Group.Apart)
    {g : Group} (hg : g ∈ groups) {id : String} (hid : id ∈ g.ticketIds) (n : Nat) :
    groupsWith (groups.map (.handedOver n)) id = [(n, g)] := by
  rw [groupsWith_handedOver, filter_ticketIds_of_apart h hg hid]
  rfl

theorem groupsWith_eq_nil {groups : List Group} {id : String} (h : id ∉ matchedIds groups)
    (n : Nat) : groupsWith (groups.map (.handedOver n)) id = [] := by
  rw [groupsWith_handedOver, List.filter_eq_nil_iff.2, List.map_nil]
  intro g hg hid
  exact h (mem_matchedIds.2 ⟨g, hg, by simpa using hid⟩)

end Service

open Service (ticket?_eq_some matchedIds mem_matchedIds groupsWith_eq_singleton groupsWith_eq_nil
  FreshNames)

variable {s : Service} {log : List Deed} {pass : Nat} {due : List Group} {held : List String}

/-! ## The beginning of a pass -/

/-- If no pass is under way, no group is due. -/
theorem Books.groups_idle (id : String) :
    (Books.mk s log pass [] []).groups id = groupsWith log id := by
  rw [groups, List.map_nil]
  exact List.append_nil _

/-- A ticket that is in a group of the pass that begins has been waiting, and is promised now. -/
theorem Fate.promise {t u : Ticket} {g : Group} {n : Nat} (h : Fate ⟨s, log, pass, [], []⟩ t)
    (hu : s.ticket? t.id = some u) (hheld : t.id ∈ held)
    (hone : groupsWith (due.map (.handedOver n)) t.id = [(n, g)]) (hall : g.HoldsAll u) :
    Fate ⟨s, log, n, due, held⟩ t := by
  cases h with
  | waiting hr hw hnone =>
    obtain rfl : u = t := Option.some.inj (hu.symm.trans hr)
    rw [Books.groups_idle] at hnone
    refine .promised hheld hr hw ?_ hall
    simp only [Books.groups, hnone, hone, List.nil_append]
  | withdrawn hr hw hnone =>
    rw [hu] at hr
    cases hr
  | promised hin hr hw hone hall => cases hin
  | grouped hr hw hone hall =>
    rw [hu] at hr
    cases hr

/-- Whoever is in a group that is formed waits, and the group holds all of its entries. -/
theorem Balanced.exists_of_mem_ticketIds (h : Balanced ⟨s, log, pass, due, held⟩) {g : Group}
    {members : List Ticket} (hg : g.FormedOf s.roster members) {id : String}
    (hid : id ∈ g.ticketIds) :
    ∃ t, s.ticket? id = some t ∧ t.id = id ∧ .submitted t ∈ log ∧ g.HoldsAll t := by
  rw [hg.ticketIds] at hid
  obtain ⟨t, ht, rfl⟩ := List.mem_map.1 hid
  obtain ⟨p, hp, rfl⟩ := hg.registered t ht
  refine ⟨p.ticket, ticket?_eq_some hp, rfl, (h.registered _ p hp).2, ?_⟩
  rw [Group.HoldsAll, hg.entries]
  exact @Group.filter_entries_ofTickets g.token members hg.distinct p.ticket ht

/-- When a pass begins, the tickets of the groups that it will form are promised to them. -/
theorem Balanced.promise {groups : List Group} (h : Balanced ⟨s, log, pass, [], []⟩)
    (hformed : ∀ g ∈ groups, ∃ members, g.FormedOf s.roster members)
    (hapart : groups.Pairwise Group.Apart) (n : Nat) :
    Balanced ⟨s, log, n, groups, matchedIds groups⟩ := by
  have hothers : ∀ id, id ∉ matchedIds groups →
      (Books.mk s log n groups (matchedIds groups)).groups id =
        (Books.mk s log pass [] []).groups id := by
    intro id hid
    rw [Books.groups_idle, Books.groups, groupsWith_eq_nil hid, List.append_nil]
  refine ⟨h.indexed, fun t ht => ?_, h.registered, h.named, fun id hid => ?_, fun id hin => ?_⟩
  · by_cases hin : t.id ∈ matchedIds groups
    · obtain ⟨g, hg, hid⟩ := mem_matchedIds.1 hin
      obtain ⟨members, hmembers⟩ := hformed g hg
      obtain ⟨u, hu, -, -, hall⟩ := h.exists_of_mem_ticketIds hmembers hid
      exact (h.fate t ht).promise hu hin (groupsWith_eq_singleton hapart hg hid n) hall
    · exact (h.fate t ht).congr rfl rfl (hothers t.id hin) fun hheld => by cases hheld
  · by_cases hin : id ∈ matchedIds groups
    · obtain ⟨g, hg, hidg⟩ := mem_matchedIds.1 hin
      obtain ⟨members, hmembers⟩ := hformed g hg
      obtain ⟨t, -, htid, ht, -⟩ := h.exists_of_mem_ticketIds hmembers hidg
      exact ⟨t, ht, htid⟩
    · rw [hothers id hin] at hid
      exact h.known id hid
  · obtain ⟨g, hg, hid⟩ := mem_matchedIds.1 hin
    rw [Books.groups, groupsWith_eq_singleton hapart hg hid]
    simp

/-! ## The end of a pass -/

/-- A ticket that is taken off the roster because it is held is in the group it was promised to. -/
theorem Fate.retire {s' : Service} {t : Ticket} (h : Fate ⟨s, log, pass, due, held⟩ t)
    (hgone : s'.ticket? t.id = none) (hg : (Books.mk s log pass due held).groups t.id ≠ []) :
    Fate ⟨s', log, pass, due, []⟩ t := by
  cases h with
  | waiting hr hw hnone => exact absurd hnone hg
  | withdrawn hr hw hnone => exact absurd hnone hg
  | promised hheld hr hw hone hall => exact .grouped hgone (Or.inl hw) hone hall
  | grouped hr hw hone hall => exact .grouped hgone hw hone hall

namespace Balanced

/-- When a pass takes the tickets of its groups off the roster, the promises are kept. -/
theorem retire (h : Balanced ⟨s, log, pass, due, held⟩) :
    Balanced ⟨Service.retire held s, log, pass, due, []⟩ := by
  have hroster : (Service.retire held s).roster = held.foldl Roster.remove s.roster := by
    rw [Service.retire_eq]
  have hget : ∀ id, (Service.retire held s).roster.get? id =
      if id ∈ held then none else s.roster.get? id := by
    intro id
    rw [hroster, Roster.get?_foldl_remove]
  refine ⟨?_, fun t ht => ?_, fun id p hp => ?_, fun t ht => ?_, h.known, by simp⟩
  · rw [hroster]
    exact h.indexed.foldl_remove held
  · by_cases hin : t.id ∈ held
    · refine (h.fate t ht).retire ?_ (h.held t.id hin)
      rw [Service.ticket?, hget, if_pos hin]
      rfl
    · refine (h.fate t ht).congr ?_ rfl rfl fun hheld => absurd hheld hin
      simp only [Service.ticket?, hget, if_neg hin]
  · rw [hget] at hp
    split at hp
    · cases hp
    · exact h.registered id p hp
  · rw [Service.retire_eq]
    exact h.named t ht

/-- A group that is handed over is due no more. -/
theorem hand {g : Group} (h : Balanced ⟨s, log, pass, g :: due, held⟩) :
    Balanced ⟨s, log ++ [.handedOver pass g], pass, due, held⟩ := by
  have hgroups : ∀ id, (Books.mk s (log ++ [.handedOver pass g]) pass due held).groups id =
      (Books.mk s log pass (g :: due) held).groups id := by
    intro id
    simp only [Books.groups]
    rw [groupsWith_append, List.append_assoc, ← groupsWith_append]
    rfl
  have hmem : ∀ t, .submitted t ∈ log ++ [.handedOver pass g] ↔ .submitted t ∈ log := by simp
  refine ⟨h.indexed, fun t ht => ?_, fun id p hp => ?_, fun t ht => h.named t ((hmem t).1 ht),
    fun id hid => ?_, fun id hin => ?_⟩
  · refine (h.fate t ((hmem t).1 ht)).congr rfl ?_ (hgroups t.id) fun hin => ⟨hin, rfl⟩
    rw [withdrawals_append, withdrawals_handedOver, List.append_nil]
  · obtain ⟨hpid, hplog⟩ := h.registered id p hp
    exact ⟨hpid, (hmem _).2 hplog⟩
  · rw [hgroups, withdrawals_append, withdrawals_handedOver, List.append_nil] at hid
    obtain ⟨t, ht, htid⟩ := h.known id hid
    exact ⟨t, (hmem t).2 ht, htid⟩
  · rw [hgroups]
    exact h.held id hin

/-- When nobody is held, clients may withdraw whom they like. -/
theorem calls (h : Balanced ⟨s, log, pass, due, []⟩) (moment : Moment) (calls : List Intake)
    (hfresh : (Service.performAll calls s).2.FreshNames) :
    Balanced ⟨(Service.performAll calls s).2, log ++ Service.deedsAll moment calls s, pass, due,
      []⟩ :=
  h.performAll calls hfresh fun hne => absurd rfl hne

theorem handOver {groups : List Group} (h : Balanced ⟨s, log, pass, groups, []⟩)
    (calls : List (List Intake)) (hfresh : (Service.handOver groups calls s).2.FreshNames) :
    Balanced ⟨(Service.handOver groups calls s).2,
      log ++ Service.deedsOfHandovers pass groups calls s, pass, [], []⟩ := by
  induction groups generalizing calls s log with
  | nil => exact h.calls (.settling pass) (calls.headD []) hfresh
  | cons g rest ih =>
    have hafter := hfresh.of_moves (Service.moves_handOver rest calls.tail _).1
    have hcalls := h.calls (.settling pass) (calls.headD []) hafter
    have hrest := ih hcalls.hand calls.tail hfresh
    rw [List.append_assoc, List.append_assoc] at hrest
    exact hrest

/-- From the moment at which the groups of a pass are formed to its end. -/
theorem settle {groups : List Group} (h : Balanced ⟨s, log, pass, groups, matchedIds groups⟩)
    (promotions : List String) (inSettling : List (List Intake))
    (hfresh : (Service.handOver groups inSettling.tail
      (s.settled groups promotions (inSettling.headD []))).2.FreshNames) :
    Balanced ⟨(Service.handOver groups inSettling.tail
        (s.settled groups promotions (inSettling.headD []))).2,
      log ++ Service.deedsOfGroups pass groups promotions inSettling s, pass, [], []⟩ := by
  have hsettled := hfresh.of_moves (Service.moves_handOver groups inSettling.tail _).1
  have hretired := hsettled.of_moves (Service.moves_promoteAll promotions _)
  have hcalls := h.retire.calls (.settling pass) (inSettling.headD []) hretired
  have hend := (hcalls.promoteAll promotions).handOver inSettling.tail hfresh
  rw [List.append_assoc] at hend
  exact hend

theorem ofPass (h : Balanced ⟨s, log, pass, [], []⟩) (hs : s.Sound) (n : Nat)
    (precision : Precision) (inForming : List Intake) (inSettling : List (List Intake))
    (hfresh : (s.process precision inForming inSettling).2.FreshNames) :
    Balanced ⟨(s.process precision inForming inSettling).2,
      log ++ s.deedsOfPass n precision inForming inSettling, n, [], []⟩ := by
  have hprepared := h.alike (Service.alike_prepare s)
  have hapart : (s.groupsOfPass precision).Pairwise Group.Apart :=
    s.strategy.apart_groups s.asked (s.prepare.round precision)
  have hpromised := hprepared.promise
    (fun g hg => hs.formedOf_of_mem_groupsOfPass hg) hapart n
  have hnobody : Balanced ⟨s.prepare, log, n, [], []⟩ := hprepared.promise (by simp) .nil n
  have halike := Service.alike_assemble s.prepare precision inForming
  have hends := Service.ends_process s precision inForming inSettling
  generalize s.process precision inForming inSettling = result at hends hfresh ⊢
  -- the names are fresh all along, since they are at the end
  cases hends with
  | poisoned hpoisoned =>
    rw [Service.deedsOfPass_of_poisoned hpoisoned, List.append_nil]
    exact h.promise (by simp) .nil n
  | idle hready hempty =>
    rw [Service.deedsOfPass_of_empty hempty, List.append_nil]
    exact hnobody
  | @formed hready hsome a s₁ ha groups hgroups =>
    rw [ha] at halike
    rw [Service.groupsOfPass_of_ok ha hgroups] at hpromised
    rw [Service.conclude_snd] at hfresh ⊢
    rw [Service.deedsOfPass_of_ok hready hsome ha hgroups, ← List.append_assoc]
    have hresumed := (hfresh.of_moves (Service.moves_handOver groups inSettling.tail _).1).of_moves
      (Service.moves_settled _ _ _ _)
    have hforming := hpromised.performAll inForming
      (hresumed.of_moves (halike.moves.trans (Service.alike_resume s₁ a).moves)) fun _ => rfl
    exact ((hforming.alike halike).alike (Service.alike_resume s₁ a)).settle _ inSettling hfresh
  | @refused hready hsome a s₁ ha message hgroups =>
    rw [ha] at halike
    rw [Service.deedsOfPass_of_error hready hsome ha hgroups]
    have hresumed := hfresh.of_moves (Service.moves_promoteAll a.round.promotions _)
    have hforming := hnobody.calls (.forming n) inForming
      (hresumed.of_moves (halike.moves.trans (Service.alike_resume s₁ a).moves))
    exact ((hforming.alike halike).alike (Service.alike_resume s₁ a)).promoteAll _
  | @crashed hready hsome a s₁ ha message hgroups =>
    rw [ha] at halike
    rw [Service.deedsOfPass_of_error hready hsome ha hgroups]
    have hbroken : Service.Alike s₁ { s₁.resume a with poisoned := true } :=
      ⟨rfl, rfl, rfl, rfl, rfl, rfl⟩
    have hforming := hnobody.calls (.forming n) inForming
      (hfresh.of_moves (halike.moves.trans hbroken.moves))
    exact (hforming.alike halike).alike hbroken

/-! ## Runs -/

theorem empty (config : Config) (strategy : Strategy) (naming : Naming) :
    Balanced ⟨.empty config strategy naming, [], 0, [], []⟩ where
  indexed := Roster.indexed_empty
  fate := by simp
  registered := by simp [Service.empty, Roster.empty, Roster.get?]
  named := by simp
  known := by simp [withdrawals, Books.groups, groupsWith]
  held := by simp

theorem ofRun {events : List Event} (hs : Service.Reachable s)
    (h : Balanced ⟨s, log, pass, [], []⟩) (n : Nat) (hfresh : (s.run events).FreshNames) :
    ∃ last, Balanced ⟨s.run events, log ++ Service.historyFrom n events s, last, [], []⟩ := by
  -- between two events no pass is under way, so nothing is due and nobody is held
  induction events generalizing s log pass n with
  | nil =>
    rw [Service.historyFrom, List.append_nil]
    exact ⟨pass, h⟩
  | cons e rest ih =>
    have hnext : (s.step e).FreshNames := hfresh.of_moves (Service.moves_run rest (s.step e))
    cases e with
    | call c =>
      rw [Service.historyFrom, ← List.append_assoc]
      have hcall := @perform _ _ _ _ _ .between h c hnext fun hne => absurd rfl hne
      exact ih (hs.step (.call c)) hcall n hfresh
    | pass precision inForming inSettling =>
      rw [Service.historyFrom, ← List.append_assoc]
      have hpass := h.ofPass hs.sound n precision inForming inSettling hnext
      exact ih (hs.step (.pass precision inForming inSettling)) hpass (n + 1) hfresh

end Balanced

/-! ## Every ticket is accounted for -/

/-- What can have become of a submitted ticket at the end of a run. -/
inductive Situation
  /-- It still waits. -/
  | waiting
  /-- It was withdrawn. -/
  | withdrawn
  /-- It was handed over in a group. -/
  | grouped
  deriving DecidableEq, Repr

/-- Whether a ticket is in a situation, given the state at the end of a run and its history. It
still waits if it was neither withdrawn nor handed over. It was withdrawn if that happened once and
it was never handed over. It was handed over if that happened once, with all of its entries; it may
have been withdrawn as well, but only while that very pass formed its groups. -/
def Situation.Holds (s : Service) (log : List Deed) (t : Ticket) : Situation → Prop
  | .waiting => s.ticket? t.id = some t ∧ withdrawals log t.id = [] ∧ groupsWith log t.id = []
  | .withdrawn => s.ticket? t.id = none ∧ (∃ moment, withdrawals log t.id = [moment]) ∧
      groupsWith log t.id = []
  | .grouped => s.ticket? t.id = none ∧ ∃ pass g, groupsWith log t.id = [(pass, g)] ∧
      g.HoldsAll t ∧ (withdrawals log t.id = [] ∨ withdrawals log t.id = [.forming pass])

namespace Balanced

variable {s : Service} {log : List Deed} {pass : Nat}

/-- If no pass is under way, a submitted ticket is in exactly one situation. -/
theorem situation (h : Balanced ⟨s, log, pass, [], []⟩) {t : Ticket} (ht : .submitted t ∈ log) :
    ∃! x : Situation, x.Holds s log t := by
  cases h.fate t ht with
  | waiting hr hw hg =>
    rw [Books.groups_idle] at hg
    refine ⟨.waiting, ⟨hr, hw, hg⟩, fun x hx => ?_⟩
    cases x with
    | waiting => rfl
    | withdrawn => exact absurd (hr.symm.trans hx.1) (by simp)
    | grouped => exact absurd (hr.symm.trans hx.1) (by simp)
  | withdrawn hr hw hg =>
    rw [Books.groups_idle] at hg
    refine ⟨.withdrawn, ⟨hr, ⟨_, hw⟩, hg⟩, fun x hx => ?_⟩
    cases x with
    | waiting => exact absurd (hr.symm.trans hx.1) (by simp)
    | withdrawn => rfl
    | grouped =>
      obtain ⟨-, n, g, hone, -⟩ := hx
      exact absurd (hg.symm.trans hone) (by simp)
  | promised hheld hr hw hg hall => cases hheld
  | @grouped n g hr hw hg hall =>
    rw [Books.groups_idle] at hg
    refine ⟨.grouped, ⟨hr, n, g, hg, hall, hw⟩, fun x hx => ?_⟩
    cases x with
    | waiting => exact absurd (hr.symm.trans hx.1) (by simp)
    | withdrawn => exact absurd (hg.symm.trans hx.2.2) (by simp)
    | grouped => rfl

theorem length_groupsWith_le (h : Balanced ⟨s, log, pass, [], []⟩) (id : String) :
    (groupsWith log id).length ≤ 1 := by
  by_cases hne : groupsWith log id = []
  · simp [hne]
  · obtain ⟨t, ht, rfl⟩ := h.known id (Or.inr (by rw [Books.groups_idle]; exact hne))
    cases h.fate t ht with
    | waiting hr hw hg => exact absurd ((Books.groups_idle _).symm.trans hg) hne
    | withdrawn hr hw hg => exact absurd ((Books.groups_idle _).symm.trans hg) hne
    | promised hheld hr hw hg hall => cases hheld
    | grouped hr hw hg hall =>
      rw [Books.groups_idle] at hg
      simp [hg]

end Balanced

/-- Whatever happens to a matchmaker, as long as no name is given to two tickets: at the end of the
run every ticket that was submitted is in exactly one situation, and no ticket was handed over in
two groups. -/
theorem Service.conserved {config : Config} {strategy : Strategy} {naming : Naming} {s : Service}
    (hcreate : create config strategy naming = .ok s) (events : List Event)
    (hfresh : (s.run events).FreshNames) :
    (∀ t, .submitted t ∈ s.history events →
      ∃! x : Situation, x.Holds (s.run events) (s.history events) t) ∧
    ∀ id, (groupsWith (s.history events) id).length ≤ 1 := by
  have hempty := Balanced.empty config strategy naming
  rw [← (create_eq_ok hcreate).1] at hempty
  obtain ⟨last, hend⟩ := Balanced.ofRun (.created hcreate) hempty 0 hfresh
  rw [List.nil_append] at hend
  exact ⟨fun t ht => hend.situation ht, hend.length_groupsWith_le⟩

/-- Two users submit tickets, and then a pass is made. -/
def pairEvents : List Event := Service.pairCalls.map .call ++ [.pass .off [] []]

/-- One of their tickets at least is handed over, and this is its only situation. -/
theorem Service.conserved_pairEvents :
    ∃ t, .submitted t ∈ (empty {} .greedy strokes).history pairEvents ∧
      (∃! x : Situation, x.Holds ((empty {} .greedy strokes).run pairEvents)
        ((empty {} .greedy strokes).history pairEvents) t) ∧
      Situation.grouped.Holds ((empty {} .greedy strokes).run pairEvents)
        ((empty {} .greedy strokes).history pairEvents) t := by
  have hcreate := create_standard .greedy strokes
  have hfresh := fun events => freshNames_of_moves strokes_injective
    (moves_run events (empty {} .greedy strokes))
  have hhistory : (empty {} .greedy strokes).history pairEvents =
      historyFrom 0 (pairCalls.map .call) (empty {} .greedy strokes) ++
        pairWaiting.deedsOfPass 0 .off [] [] := by
    simp only [history, pairEvents, pairCalls, List.map_cons, List.map_nil, List.cons_append,
      List.nil_append, historyFrom, List.append_assoc, List.append_nil]
    rfl
  -- a group is formed when the pass begins, of tickets that were submitted before
  obtain ⟨g, hg⟩ := exists_mem_groupsOfPass_pairWaiting
  obtain ⟨members, hmembers⟩ := reachable_pairWaiting.sound.formedOf_of_mem_groupsOfPass hg
  have hpos : 0 < members.length := Nat.lt_of_lt_of_le Nat.zero_lt_two hmembers.two_le
  obtain ⟨t, ht⟩ := List.exists_mem_of_length_pos hpos
  obtain ⟨p, hp, rfl⟩ := hmembers.registered t ht
  obtain ⟨last, hcalls⟩ := Balanced.ofRun (.created hcreate) (Balanced.empty {} .greedy strokes) 0
    (hfresh (pairCalls.map .call))
  have hsubmitted : .submitted p.ticket ∈ (empty {} .greedy strokes).history pairEvents := by
    rw [hhistory]
    exact List.mem_append_left _ (hcalls.registered _ p hp).2
  -- it is handed over, so that no other situation is left
  obtain ⟨report, hreport, hmatched⟩ := exists_matched_of_greedy (s := pairWaiting) rfl
    (by decide +kernel) reachable_pairWaiting.limits.inRange .off [] []
  have hdispatched := (dispatched_process pairWaiting .off [] []).1 report hreport
  have hhanded : .handedOver 0 g ∈ (empty {} .greedy strokes).history pairEvents := by
    rw [← hmatched, ← hdispatched] at hg
    obtain ⟨x, hx, rfl⟩ := List.mem_map.1 hg
    rw [hhistory]
    exact List.mem_append_right _ (mem_deedsOfPass hx 0)
  have hin : p.ticket.id ∈ g.ticketIds := by
    rw [hmembers.ticketIds]
    exact List.mem_map_of_mem ht
  have hgroups := groupsWith_ne_nil hhanded hin
  have hunique := (conserved hcreate pairEvents (hfresh pairEvents)).1 p.ticket hsubmitted
  refine ⟨p.ticket, hsubmitted, hunique, ?_⟩
  obtain ⟨x, hx, -⟩ := hunique
  cases x with
  | waiting => exact absurd hx.2.2 hgroups
  | withdrawn => exact absurd hx.2.2 hgroups
  | grouped => exact hx

end Matchmaking
