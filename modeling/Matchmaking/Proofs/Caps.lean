import Matchmaking.Proofs.Bounds
import Matchmaking.Proofs.Withdrawals

/-!
# How many tickets are admitted

A ticket of a party counts for the party, any other ticket for each of its sessions. Nobody has more
tickets than the settings allow. The admission asks the look-ups of the roster, which find exactly
the tickets that count, so that it refuses a request only if its ticket would be one too many for
somebody. What is refused leaves no trace, and what is accepted adds one ticket. Main statement:
`admits_of_unlocked`.
-/

namespace Matchmaking

/-! ## Owners -/

namespace Owner

/-- The number of waiting tickets that count for an owner. -/
def count (o : Owner) (r : Roster) : Nat := r.tickets.values.countP fun p => o.Owns p.ticket

/-- The withdrawal of all tickets that count for an owner. -/
def withdrawal : Owner → Withdrawal
  | .party x => .allOfParty x
  | .session x => .allOfSession x

end Owner

theorem Owner.forall_owns_of_party {P : Owner → Prop} {t : Ticket} {x : String}
    (h : t.party = some x) : (∀ o : Owner, o.Owns t → P o) ↔ P (.party x) := by
  constructor
  · exact fun hall => hall (.party x) h
  · intro hx o ho
    cases o with
    | party y =>
      obtain rfl := Option.some.inj (h.symm.trans ho)
      exact hx
    | session y => exact absurd (h.symm.trans ho.1) (by simp)

theorem Owner.forall_owns_of_no_party {P : Owner → Prop} {t : Ticket} (h : t.party = none) :
    (∀ o : Owner, o.Owns t → P o) ↔ ∀ x ∈ t.sessions, P (.session x) := by
  constructor
  · exact fun hall x hx => hall (.session x) ⟨h, hx⟩
  · intro hall o ho
    cases o with
    | party y => exact absurd (h.symm.trans ho) (by simp)
    | session y => exact hall y ho.2

namespace Service

variable {s s' : Service} {p : Pooled} {t : Ticket} {r : Request} {at? : Option Int}
  {now : Instant}

/-! ## The cap -/

/-- Nobody has more tickets than the settings allow. -/
def Capped (s : Service) : Prop := ∀ o : Owner, o.count s.roster ≤ s.config.maxTickets

theorem Sound.length_lookUp (h : s.Sound) (hfiled : s.Filed) (o : Owner) :
    (o.lookUp s.roster).length = o.count s.roster := by
  have hlength := (h.found_perm (w := o.withdrawal) hfiled).length_eq
  rw [Withdrawal.meant, List.length_map, ← List.countP_eq_length_filter] at hlength
  cases o with
  | party x | session x => exact hlength

theorem capFault_eq_none_iff : s.capFault t = none ↔
    ∀ o : Owner, o.Owns t → (o.lookUp s.roster).length < s.config.maxTickets := by
  unfold capFault
  cases hparty : t.party with
  | some x =>
    rw [Owner.forall_owns_of_party hparty]
    simp [Owner.lookUp]
  | none =>
    rw [Owner.forall_owns_of_no_party hparty]
    simp [Owner.lookUp]

theorem count_enroll (hnew : s.roster.get? p.id = none) (o : Owner) :
    o.count (s.enroll p).roster = o.count s.roster + if o.Owns p.ticket then 1 else 0 := by
  rw [Owner.count, enroll, Roster.insert_tickets, (Table.values_insert_perm p hnew).countP_eq,
    List.countP_cons]
  simp [Owner.count]

/-- One more ticket is not one too many exactly if there is no fault. -/
theorem Capped.enroll_iff (h : s.Capped) (hsound : s.Sound) (hfiled : s.Filed)
    (hnew : s.roster.get? p.id = none) : (s.enroll p).Capped ↔ s.capFault p.ticket = none := by
  rw [capFault_eq_none_iff]
  refine forall_congr' fun o => ?_
  rw [count_enroll hnew, hsound.length_lookUp hfiled]
  have hbound : o.count s.roster ≤ s.config.maxTickets := h o
  show _ ≤ s.config.maxTickets ↔ _
  split <;> rename_i howns
  · simp only [howns, true_implies]
    omega
  · simp [howns, hbound]

theorem Move.capped (hmove : Move s s') (hsound : s.Sound) (hfiled : s.Filed) (h : s.Capped)
    (hfresh : s'.FreshNames) : s'.Capped := by
  cases hmove with
  | rest halike =>
    unfold Capped
    rw [halike.roster, halike.config]
    exact h
  | @enroll now r p hjudge =>
    have hnew : s.roster.get? p.id = none := by
      cases hget : s.roster.get? p.id with
      | none => rfl
      | some q => exact absurd (hfiled.named p.id q hget) (not_named_of_judge hjudge hfresh)
    exact (h.enroll_iff hsound hfiled hnew).2 (judge_eq_ok hjudge).2.2
  | withdraw id =>
    intro o
    rw [Service.withdraw, Owner.count, Roster.remove_tickets]
    exact Nat.le_trans (s.roster.tickets.values_erase_sublist id).countP_le (h o)
  | promote id =>
    intro o
    rw [Owner.count, Roster.promote_tickets]
    exact h o

theorem capped_empty (config : Config) (strategy : Strategy) (naming : Naming) :
    (empty config strategy naming).Capped := fun _ => Nat.zero_le _

theorem Unlocked.capped (h : Unlocked s) (hfresh : s.FreshNames) : s.Capped := by
  -- the look-ups are right only as long as names are fresh, and the cap rests on them
  suffices hall : s.Sound ∧ (s.FreshNames → s.Filed ∧ s.Capped) from (hall.2 hfresh).2
  refine h.keep (P := fun s => s.Sound ∧ (s.FreshNames → s.Filed ∧ s.Capped)) ?_ ?_
  · exact fun c t n => ⟨sound_empty c t n, fun _ => ⟨filed_empty c t n, capped_empty c t n⟩⟩
  · rintro s s' hmove ⟨hsound, hrest⟩
    refine ⟨hmove.sound hsound, fun hfresh' => ?_⟩
    obtain ⟨hfiled, hcapped⟩ := hrest (hfresh'.before hmove)
    exact ⟨hmove.filed hfresh' hfiled, hmove.capped hsound hfiled hcapped hfresh'⟩

/-! ## Submitting -/

/-- The ticket that a request with a certain query becomes at a moment. -/
def wouldBe (s : Service) (now : Instant) (r : Request) (q : ParsedQuery) : Pooled :=
  ⟨.ofRequest (s.naming.ticket s.issued) now r (s.queryText r), q.query⟩

/-- A request without a fault whose query can be read is refused only because of the cap. -/
theorem judge_of_read {q : ParsedQuery} (hfault : r.fault? = none)
    (hread : ParsedQuery.read (s.queryText r) = .ok q) :
    s.judge now r = match s.capFault (s.wouldBe now r q).ticket with
      | some f => .error f
      | none => .ok (s.wouldBe now r q) := by
  unfold judge
  rw [hfault, hread]
  rfl

/-- The state `s'` is the state `s` with one more ticket, which is not active. -/
structure Adds (t : Ticket) (s s' : Service) : Prop where
  /-- Its name was never given before. -/
  fresh : ¬s.Named t.id
  /-- It is the one ticket that comes. -/
  ticket : ∃ p, p.ticket = t ∧
    ∀ id, s'.roster.get? id = if id = t.id then some p else s.roster.get? id
  size : s'.roster.size = s.roster.size + 1
  /-- It is not active, and all others are active if they were. -/
  pooled : s'.isActive t.id = false
  active : ∀ id, s'.isActive id = s.isActive id
  /-- It is found where it counts, and all others where they were. -/
  lookUp : ∀ (o : Owner) id,
    id ∈ o.lookUp s'.roster ↔ id ∈ o.lookUp s.roster ∨ id = t.id ∧ o.Owns t
  /-- Its card is noted, but not committed. -/
  contents : s'.catalog.contents = s.catalog.contents ++ [Card.ofTicket t]
  shelf : s'.catalog.shelf = s.catalog.shelf
  /-- Everything else stays, the clock aside. -/
  frame : s' = { s with
    clock := s'.clock, issued := s.issued + 1, catalog := s'.catalog, roster := s'.roster }

/-- What a submission has to come to. -/
structure Admits (s : Service) (at? : Option Int) (r : Request) : Prop where
  /-- Of the requests that could be accepted those are refused whose tickets are too many. -/
  tooMany : r.fault? = none → ∀ q, ParsedQuery.read (s.queryText r) = .ok q →
    ((∃ text, (s.perform (.submit at? r)).1 = .refused (.tooManyTickets text)) ↔
      ¬(s.enroll (s.wouldBe (s.clock.advance at?).now r q)).Capped)
  /-- What is refused leaves no trace but on the clock. -/
  refused : ∀ f, (s.perform (.submit at? r)).1 = .refused f →
    (s.perform (.submit at? r)).2 = { s with clock := s.clock.advance at? }
  /-- What is accepted is one more ticket. -/
  accepted : ∀ t, (s.perform (.submit at? r)).1 = .submitted t →
    Adds t s (s.perform (.submit at? r)).2

/-- Neither two of the tickets accepted so far nor the next one are given the same name. -/
def NextFresh (s : Service) : Prop := { s with issued := s.issued + 1 }.FreshNames

theorem NextFresh.freshNames (h : s.NextFresh) : s.FreshNames := fun m n hm hn =>
  h m n (Nat.lt_succ_of_lt hm) (Nat.lt_succ_of_lt hn)

theorem Filed.get?_next_of_nextFresh (hfiled : s.Filed) (h : s.NextFresh) :
    s.roster.get? (s.naming.ticket s.issued) = none := by
  refine hfiled.get?_next fun n hn heq => ?_
  have := h n s.issued (Nat.lt_succ_of_lt hn) (Nat.lt_succ_self s.issued) heq
  omega

theorem Sound.adds_enroll (h : s.Sound) (hfiled : s.Filed) (hfresh : s.NextFresh)
    (hjudge : s.judge now r = .ok p) (clock : Clock) :
    Adds p.ticket s ({ s with clock := clock }.enroll p) := by
  have hid : p.ticket.id = s.naming.ticket s.issued := id_of_judge hjudge
  have hnew : s.roster.get? p.ticket.id = none := by
    rw [hid]
    exact hfiled.get?_next_of_nextFresh hfresh
  have hget : ∀ id, ({ s with clock := clock }.enroll p).roster.get? id =
      if id = p.ticket.id then some p else s.roster.get? id :=
    fun id => Roster.get?_insert s.roster p id
  have hindexed : ({ s with clock := clock }.enroll p).roster.Indexed := hfiled.indexed.insert hnew
  have hactive : ∀ id, ({ s with clock := clock }.enroll p).isActive id = s.isActive id :=
    Roster.isActive_insert s.roster p
  have hsize : (s.roster.tickets.insert p.id p).size = s.roster.size + 1 :=
    Table.size_insert p hnew
  refine ⟨not_named_of_judge hjudge hfresh, ⟨p, rfl, hget⟩, ?_, ?_, hactive, fun o id => ?_, ?_,
    rfl, rfl⟩
  · rw [Roster.size, enroll, Roster.insert_tickets, hsize]
  · rw [hactive]
    exact h.isActive_eq_false hnew
  · cases o with
    | party x =>
      rw [Owner.lookUp, Owner.lookUp, hindexed.mem_ofParty, hfiled.indexed.mem_ofParty]
      simp only [hget, Owner.Owns]
      grind
    | session x =>
      rw [Owner.lookUp, Owner.lookUp, hindexed.mem_ofSession, hfiled.indexed.mem_ofSession]
      simp only [hget, Owner.Owns]
      grind
  · -- no card of this name has to give way
    rw [enroll, Catalog.contents_put, List.filter_eq_self.2]
    intro c hc
    rw [bne_iff_ne]
    exact fun hname => h.notMem_contents hnew (List.mem_map.2 ⟨c, hc, hname⟩)

/-- Whenever the roster is unlocked nobody has more tickets than the settings allow, and a
submission adds one ticket, or none and changes nothing; it is refused for too many tickets exactly
if otherwise somebody would have more. -/
theorem admits_of_unlocked (h : Unlocked s) (hfresh : s.NextFresh) :
    s.Capped ∧ ∀ at? r, Admits s at? r := by
  have hsound : s.Sound := h.sound
  have hfiled : s.Filed := h.filed hfresh.freshNames
  have hcapped : s.Capped := h.capped hfresh.freshNames
  refine ⟨hcapped, fun at? r => ⟨fun hfault q hread => ?_, fun f hf => ?_, fun t ht => ?_⟩⟩
  · have hnew : s.roster.get? (s.wouldBe (s.clock.advance at?).now r q).id = none :=
      hfiled.get?_next_of_nextFresh hfresh
    rw [hcapped.enroll_iff hsound hfiled hnew, perform_submit, judge_of_read hfault hread]
    cases hfull : s.capFault (s.wouldBe (s.clock.advance at?).now r q).ticket with
    | some f =>
      obtain ⟨text, rfl⟩ := tooManyTickets_of_capFault hfull
      simp
    | none => simp
  · rw [perform_submit] at hf ⊢
    split at hf
    · rfl
    · cases hf
  · rw [perform_submit] at ht ⊢
    split at ht
    · cases ht
    · rename_i p hjudge
      obtain rfl := Reply.submitted.inj ht
      exact hsound.adds_enroll hfiled hfresh hjudge _

/-- The two users have one ticket each, and may have more. -/
theorem admits_pairWaiting : pairWaiting.roster.size = 2 ∧
    pairWaiting.Capped ∧ ∀ at? r, Admits pairWaiting at? r := by
  have hnaming : pairWaiting.naming = strokes := (moves_run (pairCalls.map .call) _).naming
  refine ⟨by decide +kernel, admits_of_unlocked (.idle reachable_pairWaiting) fun m n _ _ heq => ?_⟩
  change pairWaiting.naming.ticket m = pairWaiting.naming.ticket n at heq
  rw [hnaming] at heq
  exact strokes_injective heq

end Service

end Matchmaking
