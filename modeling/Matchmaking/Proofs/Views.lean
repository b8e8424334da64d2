import Mathlib.Data.List.DropRight
import Matchmaking.Catalog.Search
import Matchmaking.Proofs.Replays

/-!
# Views of a catalog

Whoever takes a view of a catalog keeps the shelf as it is at that moment, and many views of one
catalog can be kept at the same time. A view shows one card for every name that the calls up to the
last commit have left with a ticket, namely that of the ticket put last; what was noted since then
is not to be seen. Nothing that happens later changes what a view answers. Main statement:
`view_of_operations`.
-/

namespace Matchmaking

/-! ## The ticket put last -/

namespace Writing

/-- Whether a call brings or takes away the ticket of a name. -/
def concerns (id : String) : Writing → Bool
  | .put t => t.id == id
  | .remove other => other == id
  | .removeAll ids => ids.contains id
  | .commit => false

/-- Whether a call is a commit. -/
def isCommit : Writing → Bool
  | .commit => true
  | _ => false

end Writing

/-- Of some calls, the last one about the name of a ticket is that which puts it. -/
def LastPut (calls : List Writing) (t : Ticket) : Prop :=
  ∃ before after, calls = before ++ .put t :: after ∧ ∀ w ∈ after, w.concerns t.id = false

/-- The calls up to the last commit. -/
def upToCommit (calls : List Writing) : List Writing := calls.rdropWhile fun w => !w.isCommit

section

variable {calls : List Writing} {call : Writing} {t : Ticket}

theorem lastPut_concat : LastPut (calls ++ [call]) t ↔
    call = .put t ∨ LastPut calls t ∧ call.concerns t.id = false := by
  constructor
  · rintro ⟨before, after, hcalls, hafter⟩
    rcases List.eq_nil_or_concat' after with rfl | ⟨front, last, rfl⟩
    · obtain ⟨-, hlast⟩ := List.append_inj' hcalls rfl
      exact .inl (List.cons.inj hlast).1
    · rw [← List.cons_append, ← List.append_assoc] at hcalls
      obtain ⟨rfl, hlast⟩ := List.append_inj' hcalls rfl
      obtain rfl := (List.cons.inj hlast).1
      refine .inr ⟨⟨before, front, rfl, fun w hw => ?_⟩, hafter call (by simp)⟩
      exact hafter w (List.mem_append_left _ hw)
  · rintro (rfl | ⟨⟨before, after, rfl, hafter⟩, hcall⟩)
    · exact ⟨calls, [], rfl, nofun⟩
    · refine ⟨before, after ++ [call], by simp, fun w hw => ?_⟩
      rcases List.mem_append.1 hw with hw | hw
      · exact hafter w hw
      · rwa [List.mem_singleton.1 hw]

theorem not_lastPut_nil : ¬LastPut [] t := by
  rintro ⟨before, after, hcalls, -⟩
  simp at hcalls

theorem upToCommit_concat :
    upToCommit (calls ++ [call]) =
      if call.isCommit then calls ++ [call] else upToCommit calls := by
  unfold upToCommit
  rw [List.rdropWhile_concat]
  cases call.isCommit <;> rfl

end

/-! ## The record of the calls -/

namespace Record

variable {calls : List Writing}

theorem written_concat (calls : List Writing) (call : Writing) :
    written (calls ++ [call]) = (written calls).write call := by
  simp [written, List.foldl_append]

/-- A record has noted under each name the ticket that was put last. -/
theorem get?_noted_iff {id : String} {t : Ticket} :
    (written calls).noted.get? id = some t ↔ LastPut calls t ∧ t.id = id := by
  induction calls using List.reverseRecOn with
  | nil => simp [written, empty, not_lastPut_nil]
  | append_singleton calls call ih =>
    rw [written_concat, lastPut_concat]
    cases call with
    | put other =>
      rw [write, Table.get?_insert]
      by_cases hid : id = other.id
      · simp only [hid, if_true, Option.some.injEq, Writing.put.injEq, Writing.concerns]
        grind
      · simp only [hid, if_false, ih, Writing.put.injEq, Writing.concerns]
        grind
    | remove gone =>
      rw [write, Table.get?_erase]
      simp only [Writing.concerns]
      grind
    | removeAll gone =>
      rw [write, Table.get?_foldl_erase]
      simp only [Writing.concerns]
      grind
    | commit => simp [write, ih, Writing.concerns]

/-- What was committed last is what was noted up to the last commit. -/
theorem committed_written (calls : List Writing) :
    (written calls).committed = (written (upToCommit calls)).noted := by
  induction calls using List.reverseRecOn with
  | nil => rfl
  | append_singleton calls call ih =>
    rw [written_concat, upToCommit_concat]
    cases call with
    | put _ | remove _ | removeAll _ => exact ih
    | commit => rw [Writing.isCommit, if_pos rfl, written_concat]; rfl

end Record

/-! ## Cards of the tickets put last -/

/-- A shelf has one card for each name whose ticket was put last, and no other cards. -/
structure Shelf.ShowsLast (s : Shelf) (calls : List Writing) : Prop where
  /-- No ticket has two cards. -/
  oneEach : (s.cards.map Card.ticketId).Nodup
  /-- The cards are those of the tickets put last. -/
  mem_cards : ∀ c, c ∈ s.cards ↔ ∃ t, LastPut calls t ∧ Card.ofTicket t = c

theorem showsLast_written (calls : List Writing) :
    (Catalog.written calls).shelf.ShowsLast (upToCommit calls) := by
  have h := mirrors_committed calls
  refine ⟨h.nodup, fun c => ?_⟩
  rw [h.mem_iff, Record.committed_written]
  simp only [Record.get?_noted_iff]
  constructor
  · rintro ⟨t, ⟨ht, -⟩, hc⟩
    exact ⟨t, ht, hc⟩
  · rintro ⟨t, ht, rfl⟩
    exact ⟨t, ⟨ht, rfl⟩, rfl⟩

/-! ## Operations -/

/-- What is done with a catalog. -/
inductive Operation
  /-- Something is written. -/
  | write (call : Writing)
  /-- A view is taken. -/
  | view

/-- The calls among some operations that write. -/
def writings (ops : List Operation) : List Writing :=
  ops.filterMap fun
    | .write call => some call
    | .view => none

/-- A catalog and the views that were taken of it. -/
structure Viewed where
  /-- The catalog. -/
  catalog : Catalog
  /-- The views, in the order in which they were taken. -/
  views : List Shelf

/-- What can be asked of a view. -/
inductive Question
  /-- The number of its cards. -/
  | size
  /-- The candidates of an inquiry. -/
  | search (i : Inquiry)
  /-- Whether the card of a ticket matches a query. -/
  | probe (q : Query) (id : String)

/-- What a view answers. -/
inductive Answer
  /-- The number of its cards. -/
  | size (n : Nat)
  /-- The candidates of an inquiry. -/
  | search (found : Except IndexFault (List Hit))
  /-- Whether the card of a ticket matches a query. -/
  | probe (matched : Except IndexFault Bool)

/-- What a shelf answers. -/
def Shelf.answer (s : Shelf) : Question → Answer
  | .size => .size s.size
  | .search i => .search (s.search i)
  | .probe q id => .probe (s.probe q id)

namespace Viewed

/-- A new catalog, without views. -/
def create : Viewed := ⟨.empty, []⟩

/-- The catalog and its views after an operation. -/
def operate (v : Viewed) : Operation → Viewed
  | .write call => { v with catalog := v.catalog.write call }
  | .view => { v with views := v.views ++ [v.catalog.shelf] }

/-- The catalog and its views after some operations. -/
def operateAll (v : Viewed) (ops : List Operation) : Viewed := ops.foldl operate v

/-- What the view at some place among the views answers. -/
def answer? (v : Viewed) (place : Nat) (question : Question) : Option Answer :=
  v.views[place]?.map fun s => s.answer question

variable (v : Viewed)

theorem operateAll_append (before later : List Operation) :
    v.operateAll (before ++ later) = (v.operateAll before).operateAll later :=
  List.foldl_append

/-- Taking views leaves the catalog alone. -/
theorem operateAll_catalog (ops : List Operation) :
    (v.operateAll ops).catalog = (writings ops).foldl Catalog.write v.catalog := by
  induction ops generalizing v with
  | nil => rfl
  | cons op rest ih =>
    cases op with
    | write _ | view => exact ih _

/-- A view stays in its place. -/
theorem getElem?_operateAll {n : Nat} {s : Shelf} (h : v.views[n]? = some s)
    (ops : List Operation) : (v.operateAll ops).views[n]? = some s := by
  induction ops generalizing v with
  | nil => exact h
  | cons op rest ih =>
    refine ih (v.operate op) ?_
    cases op with
    | write _ => exact h
    | view =>
      have hn := (List.getElem?_eq_some_iff.1 h).1
      rw [operate, List.getElem?_append_left hn]
      exact h

end Viewed

/-- A view that is taken after some operations shows the tickets put last of those up to the last
commit, and whatever is done later, it answers every question as it did when it was taken. -/
theorem view_of_operations (before : List Operation) :
    ∃ s : Shelf, s.ShowsLast (upToCommit (writings before)) ∧
      ∀ (later : List Operation) (question : Question),
        (Viewed.create.operateAll (before ++ .view :: later)).answer?
          (Viewed.create.operateAll before).views.length question = some (s.answer question) := by
  refine ⟨(Viewed.create.operateAll before).catalog.shelf, ?_, fun later question => ?_⟩
  · rw [Viewed.operateAll_catalog]
    exact showsLast_written (writings before)
  · rw [Viewed.operateAll_append]
    generalize Viewed.create.operateAll before = v
    have hview : (v.operate .view).views[v.views.length]? = some v.catalog.shelf := by
      simp [Viewed.operate]
    rw [Viewed.answer?, Viewed.operateAll, List.foldl_cons, ← Viewed.operateAll,
      Viewed.getElem?_operateAll _ hview, Option.map_some]

end Matchmaking
