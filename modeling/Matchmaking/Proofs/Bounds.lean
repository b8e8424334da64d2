import Matchmaking.Proofs.Admission
import Matchmaking.Proofs.Lines

/-!
# The bounds of a request

The bounds of a request are checked one by one: the least and the greatest size, the multiple, the
number of its presences. A request that fails one of these checks is refused for a bad count.
Nothing is asked about all of them together, so that there are requests that are accepted though no
size suits them: no multiple lies between the bounds, or none that leaves room for somebody else.
-/

namespace Matchmaking

namespace Request

/-- What is asked of the bounds of a request, one by one. -/
structure InBounds (r : Request) : Prop where
  one_le_minCount : 1 ≤ r.minCount
  minCount_le_maxCount : r.minCount ≤ r.maxCount
  one_le_multiple : 1 ≤ r.multiple
  length_le_maxCount : r.presences.length ≤ r.maxCount

/-- There is a size for a group with the ticket of a request and at least one more: it is within the
bounds and a multiple. -/
def HasSize (r : Request) : Prop :=
  ∃ size, r.presences.length < size ∧ r.minCount ≤ size ∧ size ≤ r.maxCount ∧
    size % r.multiple = 0

variable {r : Request}

theorem countFault_eq_none_iff : r.countFault = none ↔ r.InBounds := by
  constructor
  · intro h
    obtain ⟨hmin, hmax, hmultiple, hlength⟩ := countFault_eq_none h
    exact ⟨hmin, hmax, hmultiple, hlength⟩
  · rintro ⟨hmin, hmax, hmultiple, hlength⟩
    unfold countFault
    rw [if_neg (by omega), if_neg (by omega), if_neg (by omega), if_neg (by omega)]

/-- Whatever is wrong with the bounds is reported as a bad count. -/
theorem badCount_of_countFault {f : ServiceFault} (h : r.countFault = some f) :
    ∃ message, f = .badCount message := by
  unfold countFault at h
  split at h
  · exact ⟨_, (Option.some.inj h).symm⟩
  · split at h
    · exact ⟨_, (Option.some.inj h).symm⟩
    · split at h
      · exact ⟨_, (Option.some.inj h).symm⟩
      · split at h
        · exact ⟨_, (Option.some.inj h).symm⟩
        · cases h

theorem badRequest_of_presenceFault {seen : List String} {presences : List Presence}
    {f : ServiceFault} (h : presenceFault seen presences = some f) :
    ∃ message, f = .badRequest message := by
  induction presences generalizing seen with
  | nil => cases h
  | cons p rest ih =>
    unfold presenceFault at h
    split at h
    · exact ⟨_, (Option.some.inj h).symm⟩
    · split at h
      · exact ⟨_, (Option.some.inj h).symm⟩
      · exact ih h

theorem presenceFault_of_nodup {seen : List String} {presences : List Presence}
    (hnamed : ∀ p ∈ presences, p.session ≠ "" ∧ p.user ≠ "")
    (hnodup : (presences.map Presence.session).Nodup)
    (hfresh : ∀ p ∈ presences, p.session ∉ seen) : presenceFault seen presences = none := by
  induction presences generalizing seen with
  | nil => rfl
  | cons p rest ih =>
    obtain ⟨hsession, huser⟩ := hnamed p List.mem_cons_self
    obtain ⟨hother, hnodup⟩ := List.nodup_cons.1 hnodup
    unfold presenceFault
    rw [if_neg (by simp [hsession, huser]), if_neg (by simpa using hfresh p List.mem_cons_self)]
    refine ih (fun q hq => hnamed q (List.mem_cons_of_mem p hq)) hnodup fun q hq hseen => ?_
    rcases List.mem_cons.1 hseen with hsame | hseen
    · exact hother (hsame ▸ List.mem_map_of_mem hq)
    · exact hfresh q (List.mem_cons_of_mem p hq) hseen

/-- The presences of a request can be accepted. -/
def WellFormed (r : Request) : Prop := r.presences ≠ [] ∧ presenceFault [] r.presences = none

theorem fault?_eq_none_iff : r.fault? = none ↔ r.WellFormed ∧ r.InBounds := by
  unfold fault? WellFormed
  rw [← countFault_eq_none_iff]
  by_cases hempty : r.presences = []
  · simp [hempty]
  · simp [hempty]

/-- A request is refused for its bounds if its presences can be accepted. -/
theorem badCount_of_fault?_iff :
    (∃ message, r.fault? = some (.badCount message)) ↔ r.WellFormed ∧ ¬r.InBounds := by
  unfold fault? WellFormed
  rw [← countFault_eq_none_iff]
  by_cases hempty : r.presences = []
  · simp [hempty]
  · rw [if_neg (by simpa using hempty)]
    cases hpresences : presenceFault [] r.presences with
    | some f =>
      obtain ⟨message, rfl⟩ := badRequest_of_presenceFault hpresences
      simp
    | none =>
      cases hcount : r.countFault with
      | none => simp
      | some f =>
        obtain ⟨message, rfl⟩ := badCount_of_countFault hcount
        simp [hempty]

/-- There is a size exactly if the greatest multiple up to the greatest size is large enough. -/
theorem hasSize_iff : r.HasSize ↔
    max r.minCount (r.presences.length + 1) ≤ r.maxCount - r.maxCount % r.multiple := by
  constructor
  · rintro ⟨size, hlength, hmin, hmax, hmultiple⟩
    have hlargest := le_groupSize hmax hmax hmultiple
    rw [groupSize_of_few (Nat.le_refl _)] at hlargest
    omega
  · intro hlarge
    refine ⟨r.maxCount - r.maxCount % r.multiple, by omega, by omega, Nat.sub_le _ _, ?_⟩
    exact Nat.sub_mod_eq_zero_of_mod_eq (Nat.mod_mod _ _).symm

end Request

namespace Service

variable {s : Service} {at? : Option Int} {r : Request} {t : Ticket} {p : Pooled}
  {now : Instant}

/-! ## Submitting -/

theorem perform_of_judge
    (h : { s with clock := s.clock.advance at? }.judge (s.clock.advance at?).now r = .ok p) :
    s.perform (.submit at? r) =
      (.submitted p.ticket, { s with clock := s.clock.advance at? }.enroll p) := by
  rw [perform, submit, h]

theorem judge_of_submitted (h : (s.perform (.submit at? r)).1 = .submitted t) :
    ∃ p, { s with clock := s.clock.advance at? }.judge (s.clock.advance at?).now r = .ok p ∧
      p.ticket = t := by
  cases hjudge : { s with clock := s.clock.advance at? }.judge (s.clock.advance at?).now r with
  | error f =>
    rw [perform, submit, hjudge] at h
    cases h
  | ok p =>
    rw [perform_of_judge hjudge] at h
    exact ⟨p, rfl, Reply.submitted.inj h⟩

theorem tooManyTickets_of_capFault {f : ServiceFault} (h : s.capFault t = some f) :
    ∃ message, f = .tooManyTickets message := by
  unfold capFault at h
  split at h
  · split at h
    · exact ⟨_, (Option.some.inj h).symm⟩
    · cases h
  · obtain ⟨x, -, rfl⟩ := Option.map_eq_some_iff.1 h
    exact ⟨_, rfl⟩

/-- A request is refused for a bad count if its presences can be accepted and one of its bounds
fails. -/
theorem refused_badCount_iff :
    (∃ message, (s.perform (.submit at? r)).1 = .refused (.badCount message)) ↔
      r.WellFormed ∧ ¬r.InBounds := by
  rw [← Request.badCount_of_fault?_iff]
  have hreply : ∀ f, (s.perform (.submit at? r)).1 = .refused f ↔
      { s with clock := s.clock.advance at? }.judge (s.clock.advance at?).now r = .error f := by
    intro f
    rw [perform, submit]
    cases { s with clock := s.clock.advance at? }.judge (s.clock.advance at?).now r <;> simp
  simp only [hreply]
  unfold judge
  cases hfault : r.fault? with
  | some f => simp
  | none =>
    simp only [reduceCtorEq, exists_false, iff_false, not_exists]
    intro message h
    split at h
    · cases h
    · cases h
    · split at h
      · rename_i hcap
        obtain ⟨_, rfl⟩ := tooManyTickets_of_capFault hcap
        cases h
      · cases h

/-- A request without a fault is accepted if its query can be read and nobody waits who has its
party or, if it has none, one of its sessions. -/
theorem judge_of_free {q : ParsedQuery} (hfault : r.fault? = none)
    (hread : ParsedQuery.read (s.queryText r) = .ok q) (hmany : 0 < s.config.maxTickets)
    (hparty : ∀ x, r.party = some x → s.roster.ofParty x = [])
    (hsessions : ∀ p ∈ r.presences, s.roster.ofSession p.session = []) :
    s.judge now r =
      .ok ⟨.ofRequest (s.naming.ticket s.issued) now r (s.queryText r), q.query⟩ := by
  have hcap : s.capFault (.ofRequest (s.naming.ticket s.issued) now r (s.queryText r)) = none := by
    unfold capFault
    split
    · rename_i x hx
      rw [hparty x (Option.filter_eq_some_iff.1 hx).1, List.length_nil,
        if_neg (Nat.not_le.2 hmany)]
    · simp only [Option.map_eq_none_iff, List.find?_eq_none]
      intro x hx
      obtain ⟨p, hp, rfl⟩ := List.mem_map.1 hx
      rw [hsessions p hp, decide_eq_true_iff]
      exact Nat.not_le.2 hmany
  unfold judge
  rw [hfault]
  simp only [hread, hcap]

end Service

end Matchmaking
