import Matchmaking.Proofs.Mirrors
import Matchmaking.Proofs.Roster
import Matchmaking.Proofs.Runs

/-!
# Catalog and roster agree

The catalog, once its changes have taken effect, holds exactly one card for each ticket on the
roster, namely the card of that ticket; only waiting tickets are active; and the look-ups of the
roster find exactly the tickets that belong under a session or a party. All of this holds whenever
the roster is unlocked, provided that no name is given to two tickets. A pass therefore sees the
same tickets in the catalog and on the roster.
-/

namespace Matchmaking

namespace Service

/-! ## What every move keeps -/

/-- Catalog and roster hold the same tickets, all of them admitted, and only these are active. -/
structure Sound (s : Service) : Prop where
  mirrors : Mirrors s.catalog.contents s.roster.tickets
  admitted : ∀ id p, s.roster.get? id = some p → p.ticket.Admitted
  active : ∀ id, s.roster.isActive id = true → s.roster.tickets.contains id = true

theorem sound_empty (config : Config) (strategy : Strategy) (naming : Naming) :
    (empty config strategy naming).Sound where
  mirrors := .empty
  admitted id p h := by simp [empty, Roster.empty, Roster.get?] at h
  active id h := by simp [empty, Roster.empty, Roster.isActive] at h

theorem Sound.withdraw {s : Service} (h : s.Sound) (id : String) : (s.withdraw id).Sound where
  mirrors := by
    rw [Service.withdraw, Catalog.contents_remove, Roster.remove_tickets]
    exact h.mirrors.erase id
  admitted := by
    intro id' p hp
    rw [Service.withdraw, Roster.get?_remove] at hp
    split at hp
    · cases hp
    · exact h.admitted id' p hp
  active := Roster.OnlyWaitingActive.remove h.active id

theorem Move.sound {s s' : Service} (hmove : Move s s') (h : s.Sound) : s'.Sound := by
  cases hmove with
  | rest halike =>
    refine ⟨?_, ?_, ?_⟩
    · rw [halike.contents, halike.roster]
      exact h.mirrors
    · rw [halike.roster]
      exact h.admitted
    · rw [halike.roster]
      exact h.active
  | @enroll now r p hjudge =>
    refine ⟨?_, fun id q hq => ?_, Roster.OnlyWaitingActive.insert h.active p⟩
    · rw [Service.enroll, Catalog.contents_put, Roster.insert_tickets]
      exact h.mirrors.insert p
    · rw [Service.enroll, Roster.get?_insert] at hq
      split at hq
      · cases hq
        exact admitted_of_judge hjudge
      · exact h.admitted id q hq
  | withdraw id => exact h.withdraw id
  | promote id =>
    refine ⟨?_, fun id' p hp => ?_, Roster.OnlyWaitingActive.promote h.active id⟩
    · rw [Roster.promote_tickets]
      exact h.mirrors
    · rw [Roster.get?_promote] at hp
      exact h.admitted id' p hp

/-- Names are given out in the same way all the time, and never taken back. -/
theorem Move.naming {s s' : Service} (hmove : Move s s') :
    s'.naming = s.naming ∧ s.issued ≤ s'.issued := by
  cases hmove with
  | rest h => exact ⟨h.naming, Nat.le_of_eq h.issued.symm⟩
  | enroll h => exact ⟨rfl, Nat.le_succ s.issued⟩
  | withdraw id => exact ⟨rfl, Nat.le_refl s.issued⟩
  | promote id => exact ⟨rfl, Nat.le_refl s.issued⟩

/-- No two of the tickets accepted so far were given the same name. -/
def FreshNames (s : Service) : Prop :=
  ∀ m n, m < s.issued → n < s.issued → s.naming.ticket m = s.naming.ticket n → m = n

theorem FreshNames.before {s s' : Service} (h : s'.FreshNames) (hmove : Move s s') :
    s.FreshNames := by
  obtain ⟨hnaming, hissued⟩ := hmove.naming
  intro m n hm hn heq
  rw [← hnaming] at heq
  exact h m n (by omega) (by omega) heq

/-- If all numbers have different names, no name is ever given twice. -/
theorem freshNames_of_moves {s s' : Service} (h : Function.Injective s.naming.ticket)
    (hmoves : Moves s s') : s'.FreshNames := by
  have hnaming : s'.naming = s.naming := by
    induction hmoves with
    | refl => rfl
    | tail _ hmove ih => rw [hmove.naming.1, ih]
  intro m n _ _ heq
  rw [hnaming] at heq
  exact h heq

theorem FreshNames.of_moves {s s' : Service} (h : s'.FreshNames) (hmoves : Moves s s') :
    s.FreshNames := by
  induction hmoves with
  | refl => exact h
  | tail _ hmove ih => exact ih (h.before hmove)

/-- The look-ups find what is on the roster, whose names have all been given out already. -/
structure Filed (s : Service) : Prop where
  indexed : s.roster.Indexed
  named : ∀ id p, s.roster.get? id = some p → ∃ n, n < s.issued ∧ s.naming.ticket n = id

theorem filed_empty (config : Config) (strategy : Strategy) (naming : Naming) :
    (empty config strategy naming).Filed where
  indexed := Roster.indexed_empty
  named id p h := by simp [empty, Roster.empty, Roster.get?] at h

/-- A name that is given out only now is not on the roster yet. -/
theorem Filed.get?_next {s : Service} (h : s.Filed)
    (hfresh : ∀ n, n < s.issued → s.naming.ticket n ≠ s.naming.ticket s.issued) :
    s.roster.get? (s.naming.ticket s.issued) = none := by
  cases hget : s.roster.get? (s.naming.ticket s.issued) with
  | none => rfl
  | some p =>
    obtain ⟨n, hn, heq⟩ := h.named _ p hget
    exact absurd heq (hfresh n hn)

theorem Move.filed {s s' : Service} (hmove : Move s s') (hfresh : s'.FreshNames) (h : s.Filed) :
    s'.Filed := by
  cases hmove with
  | rest halike =>
    refine ⟨?_, ?_⟩
    · rw [halike.roster]
      exact h.indexed
    · rw [halike.roster, halike.issued, halike.naming]
      exact h.named
  | @enroll now r p hjudge =>
    have hid := id_of_judge hjudge
    -- the names on the roster were all given out before
    have hnew : s.roster.get? p.id = none := by
      rw [hid]
      refine h.get?_next fun n hn heq => ?_
      have := hfresh n s.issued (Nat.lt_succ_of_lt hn) (Nat.lt_succ_self s.issued) heq
      omega
    refine ⟨h.indexed.insert hnew, fun id q hq => ?_⟩
    rw [Service.enroll, Roster.get?_insert] at hq
    split at hq
    · rename_i heq
      exact ⟨s.issued, by simp [Service.enroll], by rw [heq, hid]; rfl⟩
    · obtain ⟨n, hn, heq⟩ := h.named id q hq
      exact ⟨n, by simp only [Service.enroll]; omega, heq⟩
  | withdraw id =>
    refine ⟨h.indexed.remove id, fun id' q hq => ?_⟩
    rw [Service.withdraw, Roster.get?_remove] at hq
    split at hq
    · cases hq
    · exact h.named id' q hq
  | promote id =>
    refine ⟨h.indexed.promote id, fun id' q hq => ?_⟩
    rw [Roster.get?_promote] at hq
    exact h.named id' q hq

theorem Move.filed_of_freshNames {s s' : Service} (hmove : Move s s')
    (h : s.FreshNames → s.Filed) (hfresh : s'.FreshNames) : s'.Filed :=
  hmove.filed hfresh (h (hfresh.before hmove))

theorem Reachable.sound {s : Service} (h : Reachable s) : s.Sound :=
  h.keep sound_empty fun hmove => hmove.sound

theorem Unlocked.sound {s : Service} (h : Unlocked s) : s.Sound :=
  h.keep sound_empty fun hmove => hmove.sound

theorem Unlocked.filed {s : Service} (h : Unlocked s) (hfresh : s.FreshNames) : s.Filed :=
  h.keep (P := fun s => s.FreshNames → s.Filed) (fun c t n _ => filed_empty c t n)
    (fun hmove => hmove.filed_of_freshNames) hfresh

/-! ## Agreement -/

/-- Catalog and roster agree. -/
structure Agrees (s : Service) : Prop where
  /-- Committing what has been noted leaves exactly the cards of the waiting tickets. -/
  cards : s.catalog.commit.shelf.cards.Perm
    (s.roster.tickets.values.map fun p => Card.ofTicket p.ticket)
  /-- No two of these cards are of the same ticket. -/
  oneCard : (s.catalog.commit.shelf.cards.map Card.ticketId).Nodup
  /-- Every ticket waits under its own name. -/
  keyed : ∀ id p, s.roster.get? id = some p → p.id = id
  /-- Only waiting tickets are active. -/
  active : ∀ id, s.roster.isActive id = true → ∃ p, s.roster.get? id = some p
  /-- Under a session stand exactly the tickets without a party that have a presence of it. -/
  session : ∀ x id, id ∈ s.roster.ofSession x ↔
    ∃ p, s.roster.get? id = some p ∧ p.ticket.party = none ∧ x ∈ p.ticket.sessions
  /-- Under a party stand exactly its tickets. -/
  party : ∀ x id, id ∈ s.roster.ofParty x ↔
    ∃ p, s.roster.get? id = some p ∧ p.ticket.party = some x
  /-- No session is kept without tickets. -/
  sessionKept : ∀ x ids, s.roster.bySession.get? x = some ids → ids.isEmpty = false
  /-- No party is kept without tickets. -/
  partyKept : ∀ x ids, s.roster.byParty.get? x = some ids → ids.isEmpty = false

theorem agrees_of_sound_of_filed {s : Service} (h : s.Sound) (hf : s.Filed) : s.Agrees where
  cards := by
    rw [Catalog.cards_commit]
    exact h.mirrors.perm
  oneCard := by
    rw [Catalog.cards_commit]
    exact h.mirrors.nodup
  keyed := h.mirrors.keyed
  active id hact := Table.contains_iff.1 (h.active id hact)
  session _ _ := hf.indexed.mem_ofSession
  party _ _ := hf.indexed.mem_ofParty
  sessionKept := hf.indexed.tidySession
  partyKept := hf.indexed.tidyParty

/-- A pass sees, on the shelf and on the roster, the same tickets. -/
theorem Sound.round_mirrors {s : Service} (h : s.Sound) (precision : Precision) :
    Mirrors (s.prepare.round precision).shelf.cards
      (s.prepare.round precision).tickets.tickets := by
  have hshelf : (s.prepare.round precision).shelf.cards = s.catalog.contents :=
    Catalog.cards_commit s.catalog
  rw [hshelf]
  exact h.mirrors

/-- Whenever the roster is unlocked, and as long as no two tickets were given the same name, catalog
and roster agree, and a pass that begins would find the same tickets in both. -/
theorem agrees_of_unlocked {s : Service} (h : Unlocked s) (hfresh : s.FreshNames) :
    s.Agrees ∧ ∀ precision,
      ((s.prepare.round precision).shelf.cards.map Card.ticketId).Perm
        (s.prepare.round precision).tickets.tickets.keys :=
  ⟨agrees_of_sound_of_filed h.sound (h.filed hfresh), fun precision =>
    (h.sound.round_mirrors precision).ticketId_perm⟩

/-- One of two users changes his mind while a pass forms its groups. -/
theorem agrees_of_cancel :
    (performAll [.cancel "s" "u" "I"] pairWaiting.prepare).2.roster.size = 1 ∧
      (performAll [.cancel "s" "u" "I"] pairWaiting.prepare).2.Agrees := by
  have hmoves := (alike_prepare pairWaiting).moves.trans
    (moves_performAll [.cancel "s" "u" "I"] pairWaiting.prepare)
  refine ⟨by decide +kernel, (agrees_of_unlocked (.forming reachable_pairWaiting _) ?_).1⟩
  exact freshNames_of_moves strokes_injective hmoves

end Service

end Matchmaking
