import Matchmaking.Proofs.Departures
import Matchmaking.Proofs.Offers
import Matchmaking.Proofs.Intervals

/-!
# How tickets come to be active

A matchmaker keeps pace with its passes: it has counted each interval that was begun of a waiting
ticket, and those tickets are active that have waited for enough of them. Calls keep this, since
they touch neither counts nor activity. A pass first counts the intervals that it begins and later
makes those tickets active that so come to their last one; clients call in between, and at that time
activity goes by the counts before the pass. Main statements: `Paced.process`, `Paced.run`.
-/

namespace Matchmaking

open Round (Began)

/-! ## The intervals that an event begins -/

theorem Greedy.mem_begun_iff {order : List (Pooled × Bool)} {r : Round} {o : Pooled × Bool} :
    o ∈ begun order r ↔
      ∃ before after, order = before ++ o :: after ∧
        (turns before r).2.isAvailable o.1 = true := by
  induction order generalizing r with
  | nil => simp [begun]
  | cons first rest ih =>
    obtain ⟨outer, active⟩ := first
    rw [begun, List.mem_append, ih]
    constructor
    · rintro (h | ⟨before, after, rfl, h⟩)
      · split at h
        · rename_i havailable
          rw [List.mem_singleton.1 h]
          exact ⟨[], rest, rfl, havailable⟩
        · cases h
      · exact ⟨(outer, active) :: before, after, rfl, h⟩
    · rintro ⟨before, after, hsplit, h⟩
      cases before with
      | nil =>
        obtain ⟨rfl, rfl⟩ := List.cons.inj hsplit
        have havailable : r.isAvailable outer = true := h
        refine Or.inl ?_
        rw [if_pos havailable]
        exact List.mem_singleton_self _
      | cons first before =>
        obtain ⟨rfl, rfl⟩ := List.cons.inj hsplit
        exact Or.inr ⟨before, after, rfl, h⟩

/-- Whether a pass begins an interval of a ticket. With a selector it begins one of every ticket
that it sees, otherwise one of each that is still available when its turn comes. -/
def Strategy.Begins (t : Strategy) (r : Round) (id : String) : Prop :=
  match t with
  | .greedy => ∃ before o after, r.order = before ++ o :: after ∧ o.1.id = id ∧
      (Greedy.turns before r).2.isAvailable o.1 = true
  | .selected _ => r.tickets.tickets.contains id = true

theorem Greedy.begins_iff {r : Round} {id : String} :
    Strategy.greedy.Begins r id ↔ id ∈ (begun r.order r).map fun o => o.1.id := by
  rw [List.mem_map]
  constructor
  · rintro ⟨before, o, after, hsplit, hid, havailable⟩
    exact ⟨o, mem_begun_iff.2 ⟨before, after, hsplit, havailable⟩, hid⟩
  · rintro ⟨o, ho, hid⟩
    obtain ⟨before, after, hsplit, havailable⟩ := mem_begun_iff.1 ho
    exact ⟨before, o, after, hsplit, hid, havailable⟩

instance (t : Strategy) (r : Round) (id : String) : Decidable (t.Begins r id) :=
  match t with
  | .greedy => decidable_of_iff _ Greedy.begins_iff.symm
  | .selected _ => inferInstanceAs (Decidable (r.tickets.tickets.contains id = true))

/-- Whether so many intervals are enough for a ticket to become active: as many as the settings ask
for, or a single one if the ticket accepts one size only. -/
def Config.Suffices (c : Config) (t : Ticket) (n : Nat) : Prop :=
  c.maxIntervals ≤ n ∨ 1 ≤ n ∧ t.minCount = t.maxCount

theorem Config.Suffices.succ {c : Config} {t : Ticket} {n : Nat} (h : c.Suffices t n) :
    c.Suffices t (n + 1) :=
  h.imp Nat.le_succ_of_le (And.imp_left Nat.le_succ_of_le)

theorem Config.suffices_succ_iff {c : Config} {t : Ticket} {n : Nat} :
    c.Suffices t (n + 1) ↔ c.maxIntervals ≤ n + 1 ∨ t.minCount = t.maxCount :=
  or_congr_right (and_iff_right (Nat.le_add_left 1 n))

namespace Service

variable {s s' s₁ : Service} {id : String} {count past : String → Nat} {precision : Precision}
  {inForming : List Intake} {inSettling : List (List Intake)}

/-- Whether a pass that starts now is made and begins an interval of a ticket. -/
def Begins (s : Service) (precision : Precision) (id : String) : Prop :=
  s.poisoned = false ∧ s.strategy.Begins (s.prepare.round precision) id

instance (s : Service) (precision : Precision) (id : String) : Decidable (s.Begins precision id) :=
  inferInstanceAs
    (Decidable (s.poisoned = false ∧ s.strategy.Begins (s.prepare.round precision) id))

theorem Sound.begins_iff (h : s.Sound) (hready : s.poisoned = false) :
    s.Begins precision id ↔
      id ∈ (s.strategy.begun (s.prepare.round precision)).map fun o => o.1.id := by
  have hbegins : s.Begins precision id ↔ s.strategy.Begins (s.prepare.round precision) id :=
    and_iff_right hready
  rw [hbegins]
  cases s.strategy with
  | greedy => exact Greedy.begins_iff
  | selected selector => exact (h.mem_map_order_iff precision).symm

/-- The counts after a pass that begins some intervals. -/
def recount (s : Service) (precision : Precision) (count : String → Nat) (id : String) : Nat :=
  count id + if s.Begins precision id then 1 else 0

theorem recount_of_begins (h : s.Begins precision id) :
    s.recount precision count id = count id + 1 := by
  rw [recount, if_pos h]

theorem recount_of_not_begins (h : ¬ s.Begins precision id) :
    s.recount precision count id = count id := by
  rw [recount, if_neg h, Nat.add_zero]

/-! ## Keeping pace -/

/-- A matchmaker has counted the intervals of the waiting tickets. Unless a pass broke down, those
of them are active that have waited long enough by other counts, which lag behind while a pass is
under way. Nothing is known of names that are yet to be given out. -/
structure Paced (s : Service) (count past : String → Nat) : Prop where
  interval : ∀ id p, s.roster.get? id = some p → s.interval id = count id
  named : ∀ id, count id ≠ 0 ∨ past id ≠ 0 ∨ s.intervals.contains id = true ∨
    s.isActive id = true → s.Named id
  positive : 0 < s.config.maxIntervals
  active : s.poisoned = false → ∀ id p, s.roster.get? id = some p →
    (s.isActive id = true ↔ s.config.Suffices p.ticket (past id))

/-- In a second state fewer tickets wait; those that do are as before. -/
structure Fewer (s s' : Service) : Prop where
  config : s'.config = s.config
  naming : s'.naming = s.naming
  issued : s'.issued = s.issued
  poisoned : s'.poisoned = s.poisoned
  registered : ∀ id p, s'.roster.get? id = some p → s.roster.get? id = some p ∧
    s'.interval id = s.interval id ∧ s'.isActive id = s.isActive id
  counted : ∀ id, s'.intervals.contains id = true → s.intervals.contains id = true
  active : ∀ id, s'.isActive id = true → s.isActive id = true

theorem Paced.fewer (h : Paced s count past) (hfewer : Fewer s s') : Paced s' count past where
  interval id p hp := by
    obtain ⟨hbefore, hinterval, -⟩ := hfewer.registered id p hp
    rw [hinterval, h.interval id p hbefore]
  named id hid := by
    refine Named.of_naming (h.named id ?_) hfewer.naming (Nat.le_of_eq hfewer.issued.symm)
    exact hid.imp_right (Or.imp_right (Or.imp (hfewer.counted id) (hfewer.active id)))
  positive := by
    rw [hfewer.config]
    exact h.positive
  active hready id p hp := by
    obtain ⟨hbefore, -, hactive⟩ := hfewer.registered id p hp
    rw [hactive, hfewer.config]
    exact h.active (hfewer.poisoned.symm.trans hready) id p hbefore

theorem Paced.alike (h : Paced s count past) (halike : Alike s s')
    (hintervals : s'.intervals = s.intervals) (hpoisoned : s'.poisoned = s.poisoned) :
    Paced s' count past := by
  refine h.fewer ⟨halike.config, halike.naming, halike.issued, hpoisoned, fun id p hp => ?_,
    fun id => ?_, fun id => ?_⟩
  · rw [Service.interval, hintervals, isActive, halike.roster]
    rw [halike.roster] at hp
    exact ⟨hp, rfl, rfl⟩
  · rw [hintervals]
    exact fun h => h
  · rw [isActive, halike.roster]
    exact fun h => h

/-! ## Calls -/

/-- Nothing is counted yet of a ticket that is accepted, and it is not active. -/
theorem Paced.enroll (h : Paced s count past) {now : Instant} {r : Request} {p : Pooled}
    (hjudge : s.judge now r = .ok p) (hfresh : (s.enroll p).FreshNames) :
    Paced (s.enroll p) count past := by
  -- whatever is known belongs to names that were given out before
  have hnew : ¬ (count p.id ≠ 0 ∨ past p.id ≠ 0 ∨ s.intervals.contains p.id = true ∨
      s.isActive p.id = true) :=
    fun hid => not_named_of_judge hjudge hfresh (h.named p.id hid)
  rw [not_or, not_or, not_or, not_not, not_not] at hnew
  obtain ⟨hcount, hpast, hstored, hactive⟩ := hnew
  have hnever : ¬ s.config.Suffices p.ticket (past p.id) := by
    have := h.positive
    rw [Config.Suffices, hpast]
    omega
  have hget : ∀ id q, (s.enroll p).roster.get? id = some q →
      id = p.id ∧ q = p ∨ s.roster.get? id = some q := by
    intro id q hq
    rw [Service.enroll, Roster.get?_insert] at hq
    split at hq
    · rename_i hid
      exact Or.inl ⟨hid, (Option.some.inj hq).symm⟩
    · exact Or.inr hq
  have hsame : ∀ id, (s.enroll p).isActive id = s.isActive id :=
    fun id => Roster.isActive_insert s.roster p id
  refine ⟨fun id q hq => ?_, fun id hid => ?_, h.positive, fun hready id q hq => ?_⟩
  · rcases hget id q hq with ⟨rfl, rfl⟩ | hbefore
    · have hnone := Table.contains_eq_false_iff.1 (Bool.eq_false_iff.2 hstored)
      rw [hcount]
      show (s.intervals.get? q.id).getD 0 = 0
      rw [hnone]
      rfl
    · exact h.interval id q hbefore
  · rw [hsame] at hid
    exact (h.named id hid).of_naming rfl (Nat.le_succ s.issued)
  · rw [hsame]
    rcases hget id q hq with ⟨rfl, rfl⟩ | hbefore
    · exact iff_of_false hactive hnever
    · exact h.active hready id q hbefore

theorem fewer_withdraw (s : Service) (id : String) : Fewer s (s.withdraw id) := by
  refine ⟨rfl, rfl, rfl, rfl, fun id' p hp => ?_, fun id' h => h, fun id' h => ?_⟩
  · rw [Service.withdraw, Roster.get?_remove] at hp
    split at hp
    · cases hp
    · rename_i hne
      exact ⟨hp, rfl, Roster.isActive_remove_of_ne s.roster hne⟩
  · exact Roster.isActive_of_remove h

/-- Calls keep pace, as long as no name is given twice. -/
theorem lasting_paced (count past : String → Nat) :
    Lasting fun s => s.FreshNames → Paced s count past where
  clock c hs hfresh := (hs hfresh).alike (alike_clock _ c) rfl rfl
  enroll hjudge hs hfresh := (hs (hfresh.before (.enroll hjudge))).enroll hjudge hfresh
  withdraw {s} id hs hfresh := (hs (hfresh.before (.withdraw id))).fewer (fewer_withdraw s id)

/-! ## Passes -/

theorem fewer_prepare (s : Service) : Fewer s s.prepare := by
  have hget : ∀ id, s.prepare.intervals.get? id =
      if s.roster.tickets.contains id then s.intervals.get? id else none :=
    Table.get?_filter s.intervals s.roster.tickets.contains
  refine ⟨rfl, rfl, rfl, rfl, fun id p hp => ⟨hp, ?_, rfl⟩, fun id hid => ?_, fun id h => h⟩
  · have hwaits : s.roster.tickets.contains id = true := Table.contains_iff.2 ⟨p, hp⟩
    rw [interval, interval, hget, if_pos hwaits]
  · obtain ⟨n, hn⟩ := Table.contains_iff.1 hid
    rw [hget] at hn
    split at hn
    · exact Table.contains_iff.2 ⟨n, hn⟩
    · cases hn

theorem fewer_retire (ids : List String) (s : Service) : Fewer s (retire ids s) := by
  have hroster : (retire ids s).roster = ids.foldl Roster.remove s.roster := by
    rw [retire_eq]
  have hintervals : ∀ id, (retire ids s).intervals.get? id =
      if id ∈ ids then none else s.intervals.get? id := by
    intro id
    rw [retire_eq]
    exact Table.get?_foldl_erase s.intervals ids id
  refine ⟨?_, ?_, ?_, ?_, fun id p hp => ?_, fun id hid => ?_, fun id hid => ?_⟩
  · rw [retire_eq]
  · rw [retire_eq]
  · rw [retire_eq]
  · rw [retire_eq]
  · rw [hroster, Roster.get?_foldl_remove] at hp
    split at hp
    · cases hp
    · rename_i hout
      refine ⟨hp, ?_, ?_⟩
      · rw [interval, interval, hintervals, if_neg hout]
      · rw [isActive, hroster]
        exact Roster.isActive_foldl_remove_of_notMem s.roster hout
  · obtain ⟨n, hn⟩ := Table.contains_iff.1 hid
    rw [hintervals] at hn
    split at hn
    · cases hn
    · exact Table.contains_iff.2 ⟨n, hn⟩
  · rw [isActive, hroster] at hid
    exact Roster.isActive_of_foldl_remove hid

theorem isActive_promoteAll {ids : List String} :
    (promoteAll ids s).2.isActive id = true ↔
      s.isActive id = true ∨ id ∈ ids ∧ s.roster.tickets.contains id = true := by
  rw [promoteAll_snd]
  exact Roster.isActive_foldl_promote

/-- The assembly of a pass begins intervals, whatever calls are made meanwhile. -/
theorem Reachable.began_of_assemble (h : Reachable s) {a : Assembled}
    (ha : s.prepare.assemble precision inForming = (a, s₁)) :
    Began (s.prepare.round precision) (s.strategy.begun (s.prepare.round precision)) a.round := by
  have hround : (s.prepare.assemble precision inForming).1.round =
      (s.strategy.assemble s.asked (s.prepare.round precision)).2 :=
    (assemble_outcome s.prepare precision inForming).2
  have hbegan := s.strategy.began_assemble s.asked (h.sound.underWay_round precision)
    h.limits.inRange
  rwa [← hround, ha] at hbegan

/-- A pass has found out what to do and goes on in a second state, where clients may have called in
the meantime. -/
structure Halfway (s : Service) (precision : Precision) (a : Assembled) (s₁ : Service)
    (count : String → Nat) : Prop where
  ready : s.poisoned = false
  sound : s.Sound
  filed : s.Filed
  paced : Paced s count count
  moves : Moves s (s₁.resume a)
  fresh : (s₁.resume a).FreshNames
  paced' : Paced s₁ count count
  began : Began (s.prepare.round precision) (s.strategy.begun (s.prepare.round precision)) a.round

theorem halfway_of_assemble (hs : Reachable s) (hready : s.poisoned = false)
    (h : Paced s count count) {a : Assembled}
    (ha : s.prepare.assemble precision inForming = (a, s₁)) (hfresh : (s₁.resume a).FreshNames) :
    Halfway s precision a s₁ count := by
  have hmoves := moves_resume ha
  have hstate := assemble_snd s.prepare precision inForming
  rw [ha] at hstate
  simp only at hstate
  have hcalled : (performAll inForming s.prepare).2.FreshNames := by
    rw [hstate] at hfresh
    exact hfresh
  have hpaced := (lasting_paced count count).performAll inForming
    (fun _ => h.fewer (fewer_prepare s)) hcalled
  refine ⟨hready, hs.sound, (Unlocked.idle hs).filed (hfresh.of_moves hmoves), h, hmoves, hfresh,
    ?_, hs.began_of_assemble ha⟩
  rw [hstate]
  exact hpaced.alike ⟨rfl, rfl, rfl, rfl, rfl, rfl⟩ rfl rfl

namespace Halfway

variable {a : Assembled} {t : Service}

theorem begins_iff (h : Halfway s precision a s₁ count) : s.Begins precision id ↔
    id ∈ (s.strategy.begun (s.prepare.round precision)).map fun o => o.1.id :=
  h.sound.begins_iff h.ready

/-- Only of waiting tickets are intervals begun. -/
theorem exists_of_begins (h : Halfway s precision a s₁ count) (hid : s.Begins precision id) :
    ∃ p, s.roster.get? id = some p :=
  Table.contains_iff.1 (h.sound.contains_of_begun
    (s.strategy.begun_subset (s.prepare.round precision)) (h.begins_iff.1 hid))

theorem named_of_begins (h : Halfway s precision a s₁ count) (hid : s.Begins precision id) :
    s.Named id := by
  obtain ⟨p, hp⟩ := h.exists_of_begins hid
  exact h.filed.named id p hp

theorem get?_intervals (h : Halfway s precision a s₁ count) (id : String) :
    a.round.intervals.get? id =
      if s.Begins precision id then some (s.interval id + 1)
      else if s.roster.tickets.contains id then s.intervals.get? id else none := by
  rw [h.sound.intervals_of_began h.began (s.strategy.begun_subset (s.prepare.round precision))]
  simp only [h.begins_iff]

/-- The intervals that the pass begins are counted in it, while activity goes by the counts before
it. -/
theorem resumed (h : Halfway s precision a s₁ count) :
    Paced (s₁.resume a) (s.recount precision count) count where
  interval id p hp := by
    show (a.round.intervals.get? id).getD 0 = _
    rw [h.get?_intervals]
    by_cases hnamed : s.Named id
    · have hbefore : s.roster.get? id = some p := h.moves.get?_eq_some h.fresh hnamed hp
      have hcount := h.paced.interval id p hbefore
      by_cases hbegins : s.Begins precision id
      · rw [if_pos hbegins, recount_of_begins hbegins, Option.getD_some, hcount]
      · rw [if_neg hbegins, if_pos (Table.contains_iff.2 ⟨p, hbefore⟩),
          recount_of_not_begins hbegins]
        exact hcount
    · -- the ticket came while the groups were formed
      have hbegins : ¬ s.Begins precision id := fun hid => hnamed (h.named_of_begins hid)
      have hwaits : ¬ s.roster.tickets.contains id = true := by
        intro hid
        obtain ⟨q, hq⟩ := Table.contains_iff.1 hid
        exact hnamed (h.filed.named id q hq)
      have hcount : count id = 0 := by
        by_contra hne
        exact hnamed (h.paced.named id (Or.inl hne))
      rw [if_neg hbegins, if_neg hwaits, recount_of_not_begins hbegins, hcount]
      rfl
  named id hid := by
    have hmoved : s.Named id → (s₁.resume a).Named id := fun hnamed => hnamed.of_moves h.moves
    rcases hid with hcount | hpast | hstored | hactive
    · by_cases hbegins : s.Begins precision id
      · exact hmoved (h.named_of_begins hbegins)
      · rw [recount_of_not_begins hbegins] at hcount
        exact hmoved (h.paced.named id (Or.inl hcount))
    · exact hmoved (h.paced.named id (Or.inl hpast))
    · obtain ⟨n, hn⟩ := Table.contains_iff.1 hstored
      have hget : a.round.intervals.get? id = some n := hn
      rw [h.get?_intervals] at hget
      split at hget
      · rename_i hbegins
        exact hmoved (h.named_of_begins hbegins)
      · split at hget
        · have hbefore := Table.contains_iff.2 ⟨n, hget⟩
          exact hmoved (h.paced.named id (Or.inr (Or.inr (Or.inl hbefore))))
        · cases hget
    · exact h.paced'.named id (Or.inr (Or.inr (Or.inr hactive)))
  positive := h.paced'.positive
  active := h.paced'.active

/-- Of the tickets that wait at a later moment, those were noted that came to their last interval,
unless they were active. -/
theorem mem_promotions_iff (h : Halfway s precision a s₁ count) (hmoves : Moves s t)
    (hfresh : t.FreshNames) {p : Pooled} (hp : t.roster.get? id = some p) :
    id ∈ a.round.promotions ↔ s.Begins precision id ∧ s.isActive id = false ∧
      s.config.Suffices p.ticket (count id + 1) := by
  have hiff := h.sound.mem_promotions_of_began h.began
    (s.strategy.begun_subset (s.prepare.round precision)) id
  rw [← h.begins_iff] at hiff
  rw [hiff, Config.suffices_succ_iff]
  refine and_congr_right fun hbegins => and_congr_right fun _ => ?_
  have hbefore : s.roster.get? id = some p :=
    hmoves.get?_eq_some hfresh (h.named_of_begins hbegins) hp
  rw [hbefore, h.paced.interval id p hbefore]
  simp

/-- Once those of the noted tickets that still wait are made active, activity has caught up with the
counts. -/
theorem promoted (h : Halfway s precision a s₁ count) (hmoves : Moves s t) (hfresh : t.FreshNames)
    (hpaced : Paced t (s.recount precision count) count) {ids : List String}
    (hids : ∀ id p, t.roster.get? id = some p → (id ∈ ids ↔ id ∈ a.round.promotions)) :
    Paced (promoteAll ids t).2 (s.recount precision count) (s.recount precision count) := by
  have hframe := promoteAll_snd ids t
  refine ⟨fun id p hp => ?_, fun id hid => ?_, ?_, fun hready id p hp => ?_⟩
  · rw [get?_promoteAll] at hp
    rw [hframe]
    exact hpaced.interval id p hp
  · rw [isActive_promoteAll, hframe] at hid
    rw [hframe]
    rcases hid with hcount | hcount | hstored | hbefore | ⟨hmem, hwaits⟩
    · exact hpaced.named id (Or.inl hcount)
    · exact hpaced.named id (Or.inl hcount)
    · exact hpaced.named id (Or.inr (Or.inr (Or.inl hstored)))
    · exact hpaced.named id (Or.inr (Or.inr (Or.inr hbefore)))
    · obtain ⟨p, hp⟩ := Table.contains_iff.1 hwaits
      have hnoted := (h.mem_promotions_iff hmoves hfresh hp).1 ((hids id p hp).1 hmem)
      exact ((h.named_of_begins hnoted.1).of_moves hmoves).of_naming rfl (Nat.le_refl _)
  · rw [hframe]
    exact hpaced.positive
  · rw [get?_promoteAll] at hp
    rw [hframe] at hready
    have hnow : t.isActive id = true ↔ s.config.Suffices p.ticket (count id) := by
      rw [← hmoves.config]
      exact hpaced.active hready id p hp
    have hconfig : (promoteAll ids t).2.config = s.config := by
      rw [hframe]
      exact hmoves.config
    rw [isActive_promoteAll, and_iff_left (Table.contains_iff.2 ⟨p, hp⟩), hnow, hids id p hp,
      h.mem_promotions_iff hmoves hfresh hp, hconfig]
    by_cases hbegins : s.Begins precision id
    · -- the ticket waited when the pass began, so it was active then if it is active now
      have hbefore : s.roster.get? id = some p :=
        hmoves.get?_eq_some hfresh (h.named_of_begins hbegins) hp
      have hwas := h.paced.active h.ready id p hbefore
      rw [recount_of_begins hbegins, ← hwas]
      cases hfirst : s.isActive id with
      | true => exact iff_of_true (Or.inl rfl) (Config.Suffices.succ (hwas.1 hfirst))
      | false => simp [hbegins]
    · rw [recount_of_not_begins hbegins]
      exact or_iff_left fun hnoted => hbegins hnoted.1

/-- A pass keeps pace up to the moment when it hands over its groups: of the noted tickets that
still wait none is in a group. -/
theorem settled (h : Halfway s precision a s₁ count) {groups : List Group} {calls : List Intake}
    (hfresh : ((s₁.resume a).settled groups (a.promoted groups) calls).FreshNames) :
    Paced ((s₁.resume a).settled groups (a.promoted groups) calls) (s.recount precision count)
      (s.recount precision count) := by
  have hretired : Moves (s₁.resume a) (retire (matchedIds groups) (s₁.resume a)) :=
    moves_retire (matchedIds groups) (s₁.resume a)
  have hlater := moves_performAll calls (retire (matchedIds groups) (s₁.resume a))
  have hmoves := (h.moves.trans hretired).trans hlater
  have hfresh' := hfresh.of_moves (moves_promoteAll (a.promoted groups) _)
  have hpaced := (lasting_paced (s.recount precision count) count).performAll calls
    (fun _ => h.resumed.fewer (fewer_retire (matchedIds groups) (s₁.resume a))) hfresh'
  refine h.promoted hmoves hfresh' hpaced fun id p hp => ?_
  rw [Assembled.promoted, List.mem_filter]
  refine and_iff_left_of_imp fun hnoted => ?_
  have hnamed : s.Named id :=
    h.named_of_begins ((h.mem_promotions_iff hmoves hfresh' hp).1 hnoted).1
  have hout : id ∉ matchedIds groups := by
    intro hmem
    have hgone : (retire (matchedIds groups) (s₁.resume a)).roster.get? id = none := by
      rw [retire_eq]
      exact (Roster.get?_foldl_remove _ _ _).trans (if_pos hmem)
    have hnone := hlater.get?_eq_none hfresh' (hnamed.of_moves (h.moves.trans hretired)) hgone
    rw [hnone] at hp
    cases hp
  simpa using hout

end Halfway

/-! ## Events -/

/-- A pass keeps pace. -/
theorem Paced.process (hs : Reachable s) (h : Paced s count count)
    (hfresh : (s.process precision inForming inSettling).2.FreshNames) :
    Paced (s.process precision inForming inSettling).2 (s.recount precision count)
      (s.recount precision count) := by
  have hends := ends_process s precision inForming inSettling
  generalize s.process precision inForming inSettling = result at hends hfresh ⊢
  cases hends with
  | poisoned hpoisoned =>
    have hsame : s.recount precision count = count := by
      funext id
      refine recount_of_not_begins fun hbegins => ?_
      rw [hbegins.1] at hpoisoned
      cases hpoisoned
    rw [hsame]
    exact h
  | idle hready hempty =>
    have horder : (s.prepare.round precision).order = [] := order_eq_nil hempty
    have hsame : s.recount precision count = count := by
      funext id
      refine recount_of_not_begins fun hbegins => ?_
      obtain ⟨o, ho, -⟩ := List.mem_map.1 ((hs.sound.begins_iff hready).1 hbegins)
      have hmem := s.strategy.begun_subset (s.prepare.round precision) o ho
      rw [horder] at hmem
      cases hmem
    rw [hsame]
    exact h.fewer (fewer_prepare s)
  | @formed hready hsome a s₁ ha groups hgroups =>
    rw [conclude_snd] at hfresh ⊢
    have hend := (lasting_paced (s.recount precision count) (s.recount precision count)).handOver
      groups inSettling.tail
      (s := (s₁.resume a).settled groups (a.promoted groups) (inSettling.headD []))
    refine hend (fun hfresh' => ?_) hfresh
    have hfresh₁ := hfresh'.of_moves (moves_settled (s₁.resume a) groups _ _)
    exact (halfway_of_assemble hs hready h ha hfresh₁).settled hfresh'
  | @refused hready hsome a s₁ ha message hgroups =>
    have hfresh₁ : (s₁.resume a).FreshNames := hfresh.of_moves (moves_promoteAll _ _)
    have hhalf := halfway_of_assemble hs hready h ha hfresh₁
    exact hhalf.promoted hhalf.moves hhalf.fresh hhalf.resumed fun _ _ _ => Iff.rfl
  | @crashed hready hsome a s₁ ha message hgroups =>
    -- the intervals are counted, but nobody becomes active
    have hresumed := (halfway_of_assemble hs hready h ha hfresh).resumed
    refine ⟨hresumed.interval, fun id hid => hresumed.named id ?_, hresumed.positive,
      fun hready' => by cases hready'⟩
    exact hid.elim Or.inl (Or.imp_right Or.inr)

/-- The number of passes of a run that begin an interval of a ticket. -/
def intervalsBegun (id : String) : List Event → Service → Nat
  | [], _ => 0
  | .call c :: rest, s => intervalsBegun id rest (s.step (.call c))
  | .pass precision inForming inSettling :: rest, s =>
    (if s.Begins precision id then 1 else 0) +
      intervalsBegun id rest (s.step (.pass precision inForming inSettling))

/-- A run keeps pace. -/
theorem Paced.run (hs : Reachable s) (h : Paced s count count) (events : List Event)
    (hfresh : (s.run events).FreshNames) :
    Paced (s.run events) (fun id => count id + intervalsBegun id events s)
      fun id => count id + intervalsBegun id events s := by
  -- each event keeps pace with the counts so far, which therefore vary
  induction events generalizing s count with
  | nil => exact h
  | cons e rest ih =>
    have hnext : (s.step e).FreshNames := hfresh.of_moves (moves_run rest (s.step e))
    cases e with
    | call c =>
      have hcall := (lasting_paced count count).perform c (fun _ => h) hnext
      exact ih (hs.step (.call c)) hcall hfresh
    | pass precision inForming inSettling =>
      have hpass := h.process hs hnext
      have hrest := ih (hs.step (.pass precision inForming inSettling)) hpass hfresh
      have hsum : (fun id => count id +
          intervalsBegun id (.pass precision inForming inSettling :: rest) s) =
          fun id => s.recount precision count id +
            intervalsBegun id rest (s.step (.pass precision inForming inSettling)) :=
        funext fun id => (Nat.add_assoc _ _ _).symm
      rw [hsum]
      exact hrest

end Service

end Matchmaking
