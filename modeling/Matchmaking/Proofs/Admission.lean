import Matchmaking.Service.Intake

/-!
# What admission guarantees

A ticket is made only of a request without a fault. Every waiting ticket therefore has a presence,
has each of its sessions once, has a party only if the party has a name, and states bounds that its
own presences respect.
-/

namespace Matchmaking

/-- What holds of a ticket that was made of a request without a fault. -/
structure Ticket.Admitted (t : Ticket) : Prop where
  presences_ne : t.presences ≠ []
  sessions_nodup : t.sessions.Nodup
  party_ne : t.party ≠ some ""
  one_le_minCount : 1 ≤ t.minCount
  minCount_le_maxCount : t.minCount ≤ t.maxCount
  one_le_multiple : 1 ≤ t.multiple
  count_le_maxCount : t.count ≤ t.maxCount

namespace Request

/-- Presences without a fault have distinct sessions, none of which was seen before. -/
theorem presenceFault_eq_none {seen : List String} {presences : List Presence}
    (h : presenceFault seen presences = none) :
    (presences.map Presence.session).Nodup ∧ ∀ p ∈ presences, p.session ∉ seen := by
  induction presences generalizing seen with
  | nil => simp
  | cons p rest ih =>
    unfold presenceFault at h
    split at h
    · cases h
    · split at h
      · cases h
      · rename_i hseen
        obtain ⟨hnodup, hrest⟩ := ih h
        have hp : p.session ∉ seen := by simpa using hseen
        refine ⟨List.nodup_cons.2 ⟨?_, hnodup⟩, fun q hq => ?_⟩
        · intro hmem
          obtain ⟨q, hq, hqp⟩ := List.mem_map.1 hmem
          exact hrest q hq (by simp [hqp])
        · rcases List.mem_cons.1 hq with rfl | hq
          · exact hp
          · exact fun hqs => hrest q hq (by simp [hqs])

theorem countFault_eq_none {r : Request} (h : r.countFault = none) :
    1 ≤ r.minCount ∧ r.minCount ≤ r.maxCount ∧ 1 ≤ r.multiple ∧
      r.presences.length ≤ r.maxCount := by
  unfold countFault at h
  split at h
  · cases h
  · split at h
    · cases h
    · split at h
      · cases h
      · split at h
        · cases h
        · omega

theorem admitted_of_fault?_eq_none {r : Request} (h : r.fault? = none) (id query : String)
    (now : Instant) : (Ticket.ofRequest id now r query).Admitted := by
  unfold fault? at h
  split at h
  · cases h
  · rename_i hne
    obtain ⟨hpresences, hcount⟩ := Option.or_eq_none_iff.1 h
    obtain ⟨hmin, hmax, hmultiple, hlength⟩ := countFault_eq_none hcount
    have hparty : r.party.filter (fun p => !p.isEmpty) ≠ some "" := by
      intro hp
      have := (Option.filter_eq_some_iff.1 hp).2
      simp at this
    have hpres : r.presences ≠ [] := by simpa using hne
    exact ⟨hpres, (presenceFault_eq_none hpresences).1, hparty, hmin, hmax, hmultiple,
      hlength⟩

end Request

namespace Service

/-- What it takes to become a ticket, and which one it is. -/
theorem judge_eq_ok {s : Service} {now : Instant} {r : Request} {p : Pooled}
    (h : s.judge now r = .ok p) :
    r.fault? = none ∧
      p.ticket = Ticket.ofRequest (s.naming.ticket s.issued) now r (s.queryText r) ∧
      s.capFault p.ticket = none := by
  unfold judge at h
  split at h
  · cases h
  · rename_i hfault
    split at h
    · cases h
    · cases h
    · simp only at h
      split at h
      · cases h
      · rename_i hcap
        cases h
        exact ⟨hfault, rfl, hcap⟩

/-- A ticket looks for what its query says. -/
theorem read_of_judge {s : Service} {now : Instant} {r : Request} {p : Pooled}
    (h : s.judge now r = .ok p) :
    ∃ q, ParsedQuery.read p.ticket.query = .ok q ∧ q.query = p.query := by
  unfold judge at h
  split at h
  · cases h
  · split at h
    · cases h
    · cases h
    · rename_i q hread
      simp only at h
      split at h
      · cases h
      · cases h
        exact ⟨q, hread, rfl⟩

theorem admitted_of_judge {s : Service} {now : Instant} {r : Request} {p : Pooled}
    (h : s.judge now r = .ok p) : p.ticket.Admitted := by
  obtain ⟨hfault, hticket, -⟩ := judge_eq_ok h
  rw [hticket]
  exact Request.admitted_of_fault?_eq_none hfault _ _ now

theorem id_of_judge {s : Service} {now : Instant} {r : Request} {p : Pooled}
    (h : s.judge now r = .ok p) : p.id = s.naming.ticket s.issued := by
  obtain ⟨-, hticket, -⟩ := judge_eq_ok h
  rw [Pooled.id, hticket]
  rfl

/-- The judgement does not ask the clock; the reply and the state follow from it. -/
theorem perform_submit (s : Service) (at? : Option Int) (r : Request) :
    s.perform (.submit at? r) = match s.judge (s.clock.advance at?).now r with
      | .error f => (.refused f, { s with clock := s.clock.advance at? })
      | .ok p => (.submitted p.ticket, { s with clock := s.clock.advance at? }.enroll p) := by
  have hjudge : { s with clock := s.clock.advance at? }.judge (s.clock.advance at?).now r =
      s.judge (s.clock.advance at?).now r := rfl
  rw [perform, submit, hjudge]
  cases s.judge (s.clock.advance at?).now r <;> rfl

end Service

end Matchmaking
