import Matchmaking.Proofs.Formation
import Matchmaking.Proofs.History

/-!
# The books of a run

The books put the state of a matchmaker beside the history so far. They are balanced if every ticket
that was ever submitted is accounted for: it waits, it was withdrawn, or it is in a group. While a
pass is under way, a group counts from the moment at which the pass begins, since what it will form
is settled then: such a ticket is promised to a group until the pass takes it off the roster. Only
at this time can a ticket be withdrawn and be in a group all the same.
-/

namespace Matchmaking

/-- The state of a matchmaker beside its history. -/
structure Books where
  /-- The state. -/
  service : Service
  /-- The history. -/
  log : List Deed
  /-- The number of the pass that is under way, if there is one. -/
  pass : Nat
  /-- The groups that it forms and that have not been handed over yet. -/
  due : List Group
  /-- The tickets of these groups, as long as they have not been taken off the roster. -/
  held : List String

/-- The groups with a ticket, those that have not been handed over yet included. -/
def Books.groups (b : Books) (id : String) : List (Nat × Group) :=
  groupsWith b.log id ++ groupsWith (b.due.map (.handedOver b.pass)) id

/-- A group holds all entries of a ticket, and under its name nothing else. -/
def Group.HoldsAll (g : Group) (t : Ticket) : Prop :=
  g.entries.filter (fun e => e.ticketId == t.id) = t.entries

/-- What became of a submitted ticket. -/
inductive Fate (b : Books) (t : Ticket) : Prop
  /-- It waits. -/
  | waiting (hr : b.service.ticket? t.id = some t) (hw : withdrawals b.log t.id = [])
    (hg : b.groups t.id = [])
  /-- It was withdrawn. -/
  | withdrawn {moment : Moment} (hr : b.service.ticket? t.id = none)
    (hw : withdrawals b.log t.id = [moment]) (hg : b.groups t.id = [])
  /-- It waits, but the pass that is under way puts it into a group. -/
  | promised {g : Group} (hheld : t.id ∈ b.held) (hr : b.service.ticket? t.id = some t)
    (hw : withdrawals b.log t.id = []) (hg : b.groups t.id = [(b.pass, g)]) (hall : g.HoldsAll t)
  /-- It is in a group; if it was withdrawn, then while that group was formed. -/
  | grouped {pass : Nat} {g : Group} (hr : b.service.ticket? t.id = none)
    (hw : withdrawals b.log t.id = [] ∨ withdrawals b.log t.id = [.forming pass])
    (hg : b.groups t.id = [(pass, g)]) (hall : g.HoldsAll t)

/-- Every ticket that was ever submitted is accounted for. -/
structure Balanced (b : Books) : Prop where
  indexed : b.service.roster.Indexed
  fate : ∀ t, .submitted t ∈ b.log → Fate b t
  registered : ∀ id p, b.service.roster.get? id = some p → p.id = id ∧ .submitted p.ticket ∈ b.log
  named : ∀ t, .submitted t ∈ b.log →
    ∃ n, n < b.service.issued ∧ b.service.naming.ticket n = t.id
  known : ∀ id, withdrawals b.log id ≠ [] ∨ b.groups id ≠ [] → ∃ t, .submitted t ∈ b.log ∧ t.id = id
  held : ∀ id ∈ b.held, b.groups id ≠ []

namespace Service

theorem ticket?_eq_some {s : Service} {id : String} {p : Pooled} (h : s.roster.get? id = some p) :
    s.ticket? id = some p.ticket := by
  rw [ticket?, h]
  rfl

theorem ticket?_enroll (s : Service) (p : Pooled) (id : String) :
    (s.enroll p).ticket? id = if id = p.id then some p.ticket else s.ticket? id := by
  rw [ticket?, Service.enroll, Roster.get?_insert]
  split <;> rfl

theorem ticket?_withdraw (s : Service) (id id' : String) :
    (s.withdraw id).ticket? id' = if id' = id then none else s.ticket? id' := by
  rw [ticket?, Service.withdraw, Roster.get?_remove]
  split <;> rfl

end Service

section

open Service (ticket?_eq_some ticket?_enroll ticket?_withdraw Alike FreshNames)

variable {s s' : Service} {log log' : List Deed} {pass : Nat} {due : List Group}
  {held : List String} {moment : Moment}

/-- What is not a hand-over does not change the groups with a ticket. -/
theorem Books.groups_append {id : String} (h : groupsWith log' id = []) :
    (Books.mk s' (log ++ log') pass due held).groups id =
      (Books.mk s log pass due held).groups id := by
  rw [groups, groups, groupsWith_append, h, List.append_nil]

/-! ## The fate of one ticket -/

/-- The fate of a ticket is a matter of what is known of this ticket only. -/
theorem Fate.congr {b b' : Books} {t : Ticket} (h : Fate b t)
    (hr : b'.service.ticket? t.id = b.service.ticket? t.id)
    (hw : withdrawals b'.log t.id = withdrawals b.log t.id) (hg : b'.groups t.id = b.groups t.id)
    (hheld : t.id ∈ b.held → t.id ∈ b'.held ∧ b'.pass = b.pass) : Fate b' t := by
  cases h with
  | waiting hr' hw' hg' => exact .waiting (hr.trans hr') (hw.trans hw') (hg.trans hg')
  | withdrawn hr' hw' hg' => exact .withdrawn (hr.trans hr') (hw.trans hw') (hg.trans hg')
  | promised hin hr' hw' hg' hall =>
    obtain ⟨hin', hpass⟩ := hheld hin
    exact .promised hin' (hr.trans hr') (hw.trans hw') (by rw [hg, hg', hpass]) hall
  | grouped hr' hw' hg' hall =>
    exact .grouped (hr.trans hr') (by rw [hw]; exact hw') (hg.trans hg') hall

/-- A ticket that is withdrawn was waiting. If it was promised to a group, it is in that group all
the same, and then the withdrawal is made while that group is formed. -/
theorem Fate.withdraw {t : Ticket} {p : Pooled} (h : Fate ⟨s, log, pass, due, held⟩ t)
    (hp : s.roster.get? t.id = some p) (hmoment : held ≠ [] → moment = .forming pass) :
    Fate ⟨s.withdraw t.id, log ++ [.withdrawn moment t.id], pass, due, held⟩ t := by
  have hgone : (s.withdraw t.id).ticket? t.id = none := by rw [ticket?_withdraw, if_pos rfl]
  have hfound := ticket?_eq_some hp
  have honce : withdrawals (log ++ [.withdrawn moment t.id]) t.id =
      withdrawals log t.id ++ [moment] := by
    rw [withdrawals_append, withdrawals_withdrawn, if_pos rfl]
  have hgroups :
      (Books.mk (s.withdraw t.id) (log ++ [.withdrawn moment t.id]) pass due held).groups t.id =
        (Books.mk s log pass due held).groups t.id :=
    Books.groups_append (groupsWith_withdrawn moment t.id t.id)
  -- it is on the roster, so it was either waiting or promised to a group
  cases h with
  | waiting hr hw hg =>
    refine @Fate.withdrawn _ t moment hgone ?_ (hgroups.trans hg)
    rw [honce, hw, List.nil_append]
  | withdrawn hr hw hg =>
    rw [hfound] at hr
    cases hr
  | promised hheld hr hw hg hall =>
    refine .grouped hgone (Or.inr ?_) (hgroups.trans hg) hall
    rw [honce, hw, List.nil_append, hmoment (List.ne_nil_of_mem hheld)]
  | grouped hr hw hg hall =>
    rw [hfound] at hr
    cases hr

/-- Tickets of other names keep their fate when one is withdrawn. -/
theorem Fate.withdraw_of_ne {t : Ticket} {id : String} (h : Fate ⟨s, log, pass, due, held⟩ t)
    (hne : t.id ≠ id) :
    Fate ⟨s.withdraw id, log ++ [.withdrawn moment id], pass, due, held⟩ t := by
  refine h.congr ?_ ?_ (Books.groups_append (groupsWith_withdrawn moment id t.id))
    fun hin => ⟨hin, rfl⟩
  · exact (ticket?_withdraw s id t.id).trans (if_neg hne)
  · rw [withdrawals_append, withdrawals_withdrawn, if_neg hne.symm, List.append_nil]

namespace Balanced

/-! ## Changes that are not about tickets -/

theorem of_same (h : Balanced ⟨s, log, pass, due, held⟩)
    (hget : ∀ id, s'.roster.get? id = s.roster.get? id) (hindexed : s'.roster.Indexed)
    (hnaming : s'.naming = s.naming) (hissued : s'.issued = s.issued) :
    Balanced ⟨s', log, pass, due, held⟩ where
  indexed := hindexed
  fate := by
    intro t ht
    refine (h.fate t ht).congr ?_ rfl rfl fun hin => ⟨hin, rfl⟩
    simp only [Service.ticket?, hget]
  registered := by
    intro id p hp
    rw [hget] at hp
    exact h.registered id p hp
  named := by
    intro t ht
    rw [hnaming, hissued]
    exact h.named t ht
  known := h.known
  held := h.held

theorem alike (h : Balanced ⟨s, log, pass, due, held⟩) (halike : Alike s s') :
    Balanced ⟨s', log, pass, due, held⟩ := by
  refine h.of_same (fun id => ?_) ?_ halike.naming halike.issued
  · rw [halike.roster]
  · rw [halike.roster]
    exact h.indexed

theorem promoteAll (h : Balanced ⟨s, log, pass, due, held⟩) (ids : List String) :
    Balanced ⟨(Service.promoteAll ids s).2, log, pass, due, held⟩ := by
  induction ids generalizing s with
  | nil => exact h
  | cons id rest ih =>
    exact ih (h.of_same (fun id' => Roster.get?_promote s.roster id id') (h.indexed.promote id)
      rfl rfl)

/-! ## Submissions -/

/-- A name that is given out only now is the name of no submitted ticket. -/
theorem id_ne_next (h : Balanced ⟨s, log, pass, due, held⟩) {now : Instant} {r : Request}
    {p : Pooled} (hjudge : s.judge now r = .ok p) (hfresh : (s.enroll p).FreshNames) :
    ∀ t, .submitted t ∈ log → t.id ≠ p.id := by
  intro t ht heq
  have hid := Service.id_of_judge hjudge
  obtain ⟨n, hn, hname⟩ := h.named t ht
  have hsame : s.naming.ticket n = s.naming.ticket s.issued := by rw [← hid, ← heq, hname]
  have := hfresh n s.issued (Nat.lt_succ_of_lt hn) (Nat.lt_succ_self _) hsame
  simp only at hn
  omega

/-- A ticket that is submitted waits; nothing was known of its name before. -/
theorem enroll {now : Instant} {r : Request} {p : Pooled}
    (h : Balanced ⟨s, log, pass, due, held⟩) (hjudge : s.judge now r = .ok p)
    (hfresh : (s.enroll p).FreshNames) :
    Balanced ⟨s.enroll p, log ++ [.submitted p.ticket], pass, due, held⟩ := by
  have hother := h.id_ne_next hjudge hfresh
  have hunknown : ¬ (withdrawals log p.id ≠ [] ∨
      (Books.mk s log pass due held).groups p.id ≠ []) := by
    intro hknown
    obtain ⟨t, ht, htp⟩ := h.known p.id hknown
    exact hother t ht htp
  rw [not_or, not_not, not_not] at hunknown
  -- whoever is on the roster was submitted, so the look-ups take a ticket that is new to them
  have hnew : s.roster.get? p.id = none := by
    cases hget : s.roster.get? p.id with
    | none => rfl
    | some q =>
      obtain ⟨hq, hqlog⟩ := h.registered p.id q hget
      exact absurd hq (hother q.ticket hqlog)
  have hgroups : ∀ id,
      (Books.mk (s.enroll p) (log ++ [.submitted p.ticket]) pass due held).groups id =
        (Books.mk s log pass due held).groups id :=
    fun id => Books.groups_append (groupsWith_submitted p.ticket id)
  have hwithdrawals : ∀ id, withdrawals (log ++ [.submitted p.ticket]) id = withdrawals log id := by
    intro id
    rw [withdrawals_append, withdrawals_submitted, List.append_nil]
  refine ⟨h.indexed.insert hnew, fun t ht => ?_, fun id q hq => ?_, fun t ht => ?_,
    fun id hid => ?_, fun id hin => ?_⟩
  · rcases List.mem_append.1 ht with ht | ht
    · refine (h.fate t ht).congr ?_ (hwithdrawals t.id) (hgroups t.id) fun hin => ⟨hin, rfl⟩
      exact (ticket?_enroll s p t.id).trans (if_neg (hother t ht))
    · obtain rfl : t = p.ticket := by simpa using ht
      exact .waiting ((ticket?_enroll s p p.id).trans (if_pos rfl))
        ((hwithdrawals p.id).trans hunknown.1) ((hgroups p.id).trans hunknown.2)
  · rw [Service.enroll, Roster.get?_insert] at hq
    split at hq
    · rename_i heq
      obtain rfl := Option.some.inj hq
      exact ⟨heq.symm, by simp⟩
    · obtain ⟨hqid, hqlog⟩ := h.registered id q hq
      exact ⟨hqid, List.mem_append_left _ hqlog⟩
  · rcases List.mem_append.1 ht with ht | ht
    · obtain ⟨n, hn, hname⟩ := h.named t ht
      exact ⟨n, Nat.lt_succ_of_lt hn, hname⟩
    · obtain rfl : t = p.ticket := by simpa using ht
      exact ⟨s.issued, Nat.lt_succ_self _, (Service.id_of_judge hjudge).symm⟩
  · rw [hgroups, hwithdrawals] at hid
    obtain ⟨t, ht, htid⟩ := h.known id hid
    exact ⟨t, List.mem_append_left _ ht, htid⟩
  · rw [hgroups]
    exact h.held id hin

/-! ## Withdrawals -/

theorem withdraw {id : String} {p : Pooled} (h : Balanced ⟨s, log, pass, due, held⟩)
    (hp : s.roster.get? id = some p) (hmoment : held ≠ [] → moment = .forming pass) :
    Balanced ⟨s.withdraw id, log ++ [.withdrawn moment id], pass, due, held⟩ := by
  have hgroups : ∀ id',
      (Books.mk (s.withdraw id) (log ++ [.withdrawn moment id]) pass due held).groups id' =
        (Books.mk s log pass due held).groups id' :=
    fun id' => Books.groups_append (groupsWith_withdrawn moment id id')
  have hmem : ∀ t, .submitted t ∈ log ++ [.withdrawn moment id] ↔ .submitted t ∈ log := by simp
  refine ⟨h.indexed.remove id, fun t ht => ?_, fun id' q hq => ?_, fun t ht => ?_,
    fun id' hid => ?_, fun id' hin => ?_⟩
  · have hfate := h.fate t ((hmem t).1 ht)
    by_cases heq : t.id = id
    · subst heq
      exact hfate.withdraw hp hmoment
    · exact hfate.withdraw_of_ne heq
  · rw [Service.withdraw, Roster.get?_remove] at hq
    split at hq
    · cases hq
    · obtain ⟨hqid, hqlog⟩ := h.registered id' q hq
      exact ⟨hqid, (hmem _).2 hqlog⟩
  · exact h.named t ((hmem t).1 ht)
  · rw [hgroups, withdrawals_append, withdrawals_withdrawn] at hid
    split at hid
    · rename_i heq
      obtain ⟨hpid, hplog⟩ := h.registered id p hp
      exact ⟨p.ticket, (hmem _).2 hplog, hpid.trans heq⟩
    · rw [List.append_nil] at hid
      obtain ⟨t, ht, htid⟩ := h.known id' hid
      exact ⟨t, (hmem t).2 ht, htid⟩
  · rw [hgroups]
    exact h.held id' hin

/-- If several tickets are withdrawn, each of them still waits when its turn comes. -/
theorem withdrawAll {ids : List String} (h : Balanced ⟨s, log, pass, due, held⟩)
    (hnodup : ids.Nodup) (hreg : ∀ id ∈ ids, ∃ p, s.roster.get? id = some p)
    (hmoment : held ≠ [] → moment = .forming pass) :
    Balanced ⟨s.withdrawAll ids, log ++ ids.map (.withdrawn moment), pass, due, held⟩ := by
  induction ids generalizing s log with
  | nil =>
    rw [List.map_nil, List.append_nil]
    exact h
  | cons id rest ih =>
    rw [List.nodup_cons] at hnodup
    obtain ⟨p, hp⟩ := hreg id List.mem_cons_self
    rw [List.map_cons, List.append_cons]
    refine ih (h.withdraw hp hmoment) hnodup.2 fun id' hid' => ?_
    obtain ⟨q, hq⟩ := hreg id' (List.mem_cons_of_mem id hid')
    refine ⟨q, ?_⟩
    rw [Service.withdraw, Roster.get?_remove, if_neg, hq]
    rintro rfl
    exact hnodup.1 hid'

/-! ## Calls -/

/-- A withdrawal that is granted takes a ticket off the roster; one that is refused does nothing. -/
theorem withdrawIf (h : Balanced ⟨s, log, pass, due, held⟩) (owned : Pooled → Bool) (id : String)
    (hmoment : held ≠ [] → moment = .forming pass) :
    Balanced ⟨(s.withdrawIf owned id).2,
      log ++ Service.deedsOfWithdrawal moment id
        (Service.withdrawalReply (s.withdrawIf owned id)).1, pass, due, held⟩ := by
  unfold Service.withdrawIf
  cases hget : s.roster.get? id with
  | none => simpa [Service.withdrawalReply, Service.deedsOfWithdrawal] using h
  | some p =>
    cases howned : owned p with
    | true =>
      have hgranted := h.withdraw hget hmoment
      simpa [howned, Service.withdrawalReply, Service.deedsOfWithdrawal] using hgranted
    | false => simpa [howned, Service.withdrawalReply, Service.deedsOfWithdrawal] using h

theorem submit (h : Balanced ⟨s, log, pass, due, held⟩) (at? : Option Int) (r : Request)
    (hfresh : (s.perform (.submit at? r)).2.FreshNames) :
    Balanced ⟨(s.perform (.submit at? r)).2, log ++ s.deeds moment (.submit at? r), pass, due,
      held⟩ := by
  have hclock := h.alike (Service.alike_clock s (s.clock.advance at?))
  cases hjudge : { s with clock := s.clock.advance at? }.judge (s.clock.advance at?).now r with
  | error f =>
    have hperform : s.perform (.submit at? r) =
        (.refused f, { s with clock := s.clock.advance at? }) := by
      rw [Service.perform, Service.submit, hjudge]
    have hdeeds : s.deeds moment (.submit at? r) = [] := by
      rw [Service.deeds, hperform]
      rfl
    rw [hdeeds, hperform, List.append_nil]
    exact hclock
  | ok p =>
    have hperform : s.perform (.submit at? r) =
        (.submitted p.ticket, { s with clock := s.clock.advance at? }.enroll p) := by
      rw [Service.perform, Service.submit, hjudge]
    have hdeeds : s.deeds moment (.submit at? r) = [.submitted p.ticket] := by
      rw [Service.deeds, hperform]
      rfl
    rw [hperform] at hfresh
    rw [hdeeds, hperform]
    exact hclock.enroll hjudge hfresh

theorem perform (h : Balanced ⟨s, log, pass, due, held⟩) (call : Intake)
    (hfresh : (s.perform call).2.FreshNames) (hmoment : held ≠ [] → moment = .forming pass) :
    Balanced ⟨(s.perform call).2, log ++ s.deeds moment call, pass, due, held⟩ := by
  cases call with
  | submit at? r => exact h.submit at? r hfresh
  | wait at? =>
    rw [show s.deeds moment (.wait at?) = [] from rfl, List.append_nil]
    exact h.alike (Service.alike_clock s _)
  | cancel session user id =>
    have := h.withdrawIf (Service.ownedBy session user) id hmoment
    rw [← Service.withdrawalReply_snd] at this
    exact this
  | removeParty party id =>
    have := h.withdrawIf (Service.ownedByParty party) id hmoment
    rw [← Service.withdrawalReply_snd] at this
    exact this
  | removeSessionAll session =>
    refine h.withdrawAll (Table.nodup_keys _) (fun id hid => ?_) hmoment
    obtain ⟨p, hp, -⟩ := h.indexed.mem_ofSession.1 hid
    exact ⟨p, hp⟩
  | removePartyAll party =>
    refine h.withdrawAll (Table.nodup_keys _) (fun id hid => ?_) hmoment
    obtain ⟨p, hp, -⟩ := h.indexed.mem_ofParty.1 hid
    exact ⟨p, hp⟩
  | ticket id =>
    rw [show s.deeds moment (.ticket id) = [] from rfl, List.append_nil]
    exact h
  | isActive id =>
    rw [show s.deeds moment (.isActive id) = [] from rfl, List.append_nil]
    exact h
  | stats =>
    rw [show s.deeds moment .stats = [] from rfl, List.append_nil]
    exact h

theorem performAll (h : Balanced ⟨s, log, pass, due, held⟩) (calls : List Intake)
    (hfresh : (Service.performAll calls s).2.FreshNames)
    (hmoment : held ≠ [] → moment = .forming pass) :
    Balanced ⟨(Service.performAll calls s).2, log ++ Service.deedsAll moment calls s, pass, due,
      held⟩ := by
  induction calls generalizing s log with
  | nil =>
    rw [Service.deedsAll, List.append_nil]
    exact h
  | cons call rest ih =>
    rw [Service.deedsAll, ← List.append_assoc]
    have hfirst := hfresh.of_moves (Service.moves_performAll rest (s.perform call).2)
    exact ih (h.perform call hfirst hmoment) hfresh

end Balanced

end

end Matchmaking
