import Matchmaking.Proofs.Deliberation
import Matchmaking.Proofs.Memory
import Matchmaking.Proofs.Mirrors

/-!
# What a pass does

Whatever the strategy, a pass does three things: it begins intervals, it asks whether two tickets
that it sees may be together, and it forms groups. None of this changes what it sees, and it recalls
only what is right. So what it is answered depends on nothing but what it reads: if all readings
between two states say the same, the answers in between are those of `agree`.
-/

namespace Matchmaking

/-- Whether two tickets may be together if the pass insists, or if it does not. -/
def agree (insists : Bool) (s : Shelf) (a b : Pooled) : Bool := !insists || suitEachOther s a b

@[simp]
theorem agree_false (s : Shelf) (a b : Pooled) : agree false s a b = true := rfl

@[simp]
theorem agree_true (s : Shelf) (a b : Pooled) : agree true s a b = suitEachOther s a b := rfl

theorem agree_iff {insists : Bool} {s : Shelf} {a b : Pooled} :
    agree insists s a b = true ↔ (insists = true → suitEachOther s a b = true) := by
  cases insists <;> simp

namespace Round

variable {r r' r'' : Round} {a b outer : Pooled}

/-! ## Acts -/

/-- A pass asks whether two tickets that it sees may be together, or it breaks down. -/
inductive Ask (r : Round) : Round → Prop
  /-- These are the two tickets. -/
  | about {a b : Pooled} (ha : r.Sees a) (hb : r.Sees b) : Ask r (r.compatible a b).2
  /-- It breaks down because of its settings. -/
  | breakDown (h : r.config.OutOfRange) (message : String) : Ask r (r.breakDown message)

/-- A pass asks some questions, one after the other. -/
abbrev Asks : Round → Round → Prop := Relation.ReflTransGen Ask

/-- One thing that a pass does. -/
inductive Act (r : Round) : Round → Prop
  /-- It begins an interval of a ticket. -/
  | interval (outer : Pooled) (active : Bool) : Act r (r.beginInterval outer active).2
  /-- It asks a question. -/
  | ask {r' : Round} (h : Ask r r') : Act r r'
  /-- It forms a group. -/
  | form (members : List Pooled) : Act r (r.form members).2

/-- What a pass does over a while. -/
abbrev Acts : Round → Round → Prop := Relation.ReflTransGen Act

theorem Asks.acts (h : Asks r r') : Acts r r' := by
  induction h with
  | refl => exact .refl
  | tail _ hask ih => exact ih.tail (.ask hask)

theorem Ask.deliberates (h : Ask r r') : Deliberates r r' := by
  cases h with
  | about ha hb => exact deliberates_compatible r _ _
  | breakDown h message => exact deliberates_breakDown h message

/-- What two states of a pass have in common, the second one being no earlier than the first. -/
structure Later (r r' : Round) : Prop where
  shelf : r'.shelf = r.shelf
  tickets : r'.tickets = r.tickets
  config : r'.config = r.config
  precision : r'.precision = r.precision
  asked : r.asked ≤ r'.asked

theorem Later.refl (r : Round) : Later r r := ⟨rfl, rfl, rfl, rfl, Nat.le_refl _⟩

theorem Later.trans (h : Later r r') (h' : Later r' r'') : Later r r'' where
  shelf := h'.shelf.trans h.shelf
  tickets := h'.tickets.trans h.tickets
  config := h'.config.trans h.config
  precision := h'.precision.trans h.precision
  asked := Nat.le_trans h.asked h'.asked

theorem Act.later (h : Act r r') : Later r r' := by
  cases h with
  | interval outer active =>
    have hdel := deliberates_beginInterval r outer active
    refine ⟨hdel.shelf, hdel.tickets, hdel.config, hdel.precision, ?_⟩
    unfold beginInterval
    simp only
    split <;> exact Nat.le_refl _
  | ask hask =>
    have hdel := hask.deliberates
    refine ⟨hdel.shelf, hdel.tickets, hdel.config, hdel.precision, ?_⟩
    cases hask with
    | about ha hb =>
      rw [asked_compatible]
      omega
    | breakDown h message => exact Nat.le_refl _
  | form members =>
    obtain ⟨consumed, sessions, h⟩ := exists_form_eq r members
    rw [h]
    exact ⟨rfl, rfl, rfl, rfl, Nat.le_refl _⟩

theorem Act.recalls (h : Act r r') (hr : r.Recalls) : r'.Recalls := by
  cases h with
  | interval outer active =>
    unfold beginInterval
    simp only
    split <;> exact hr
  | ask hask =>
    cases hask with
    | about ha hb => exact recalls_compatible hr ha hb
    | breakDown h message => exact hr
  | form members =>
    obtain ⟨consumed, sessions, h⟩ := exists_form_eq r members
    rw [h]
    exact hr

/-- A pass whose settings are in range does not break down. -/
theorem Act.breakdown (h : Act r r') (hrange : ¬ r.config.OutOfRange) :
    r'.breakdown = r.breakdown := by
  cases h with
  | interval outer active => exact (deliberates_beginInterval r outer active).breakdown hrange
  | ask hask => exact hask.deliberates.breakdown hrange
  | form members =>
    obtain ⟨consumed, sessions, h⟩ := exists_form_eq r members
    rw [h]

theorem Acts.later (h : Acts r r') : Later r r' := by
  induction h with
  | refl => exact .refl r
  | tail _ hact ih => exact ih.trans hact.later

theorem Acts.recalls (h : Acts r r') (hr : r.Recalls) : r'.Recalls := by
  induction h with
  | refl => exact hr
  | tail _ hact ih => exact hact.recalls ih

theorem Later.sees (h : Later r r') : r'.Sees a ↔ r.Sees a := by
  unfold Sees
  rw [h.tickets]

theorem Acts.sees (h : Acts r r') : r'.Sees a ↔ r.Sees a := h.later.sees

theorem Asks.deliberates (h : Asks r r') : Deliberates r r' := by
  induction h with
  | refl => exact .refl r
  | tail _ hask ih => exact ih.trans hask.deliberates

/-- Questions do not count as intervals. -/
theorem Asks.intervals (h : Asks r r') : r'.intervals = r.intervals := by
  induction h with
  | refl => rfl
  | @tail r₁ _ _ hask ih =>
    rw [← ih]
    cases hask with
    | @about a b ha hb =>
      unfold compatible
      cases r₁.precision.isOpen r₁.asked <;> rfl
    | breakDown h message => rfl

theorem acts_beginInterval (r : Round) (outer : Pooled) (active : Bool) :
    Acts r (r.beginInterval outer active).2 :=
  .single (.interval outer active)

/-! ## Passes under way -/

/-- The states that a pass comes to. -/
inductive UnderWay : Round → Prop
  /-- The pass begins. -/
  | start {shelf : Shelf} {tickets : Snapshot} (h : Clear shelf.cards tickets.tickets)
    (config : Config) (precision : Precision) (intervals : Table Nat) (token : Nat → String)
    (serial : Nat) :
    UnderWay (Round.start shelf tickets config precision intervals token serial)
  /-- It does one more thing. -/
  | act {r r' : Round} (h : UnderWay r) (hact : Act r r') : UnderWay r'

theorem recalls_start (shelf : Shelf) (tickets : Snapshot) (config : Config)
    (precision : Precision) (intervals : Table Nat) (token : Nat → String) (serial : Nat) :
    (Round.start shelf tickets config precision intervals token serial).Recalls := by
  intro a b _ _ x hx
  cases hx

theorem UnderWay.clear (h : UnderWay r) : Clear r.shelf.cards r.tickets.tickets := by
  induction h with
  | start h => exact h
  | act _ hact ih =>
    rw [hact.later.shelf, hact.later.tickets]
    exact ih

theorem UnderWay.recalls (h : UnderWay r) : r.Recalls := by
  induction h with
  | start h => exact recalls_start _ _ _ _ _ _ _
  | act _ hact ih => exact hact.recalls ih

theorem UnderWay.breakdown (h : UnderWay r) (hrange : ¬ r.config.OutOfRange) :
    r.breakdown = none := by
  induction h with
  | start h => rfl
  | act _ hact ih =>
    rw [hact.later.config] at hrange
    rw [hact.breakdown hrange]
    exact ih hrange

theorem UnderWay.acts (h : UnderWay r) (hacts : Acts r r') : UnderWay r' := by
  induction hacts with
  | refl => exact h
  | tail _ hact ih => exact ih.act hact

/-! ## Readings -/

/-- All readings between two states of a pass say the same. -/
def Reads (insists : Bool) (r r' : Round) : Prop :=
  ∀ i, r.asked ≤ i → i < r'.asked → r.precision.isOpen i = insists

variable {insists : Bool}

theorem reads_of_forall (h : ∀ i, r.precision.isOpen i = insists) (r' : Round) :
    Reads insists r r' :=
  fun i _ _ => h i

theorem Reads.left (h : Reads insists r r'') (hnext : Later r' r'') : Reads insists r r' :=
  fun i hi hi' => h i hi (Nat.lt_of_lt_of_le hi' hnext.asked)

theorem Reads.right (h : Reads insists r r'') (hbefore : Later r r') : Reads insists r' r'' := by
  intro i hi hi'
  rw [hbefore.precision]
  exact h i (Nat.le_trans hbefore.asked hi) hi'

theorem compatible_eq (hr : r.Recalls) (ha : r.Sees a) (hb : r.Sees b)
    (hreads : Reads insists r (r.compatible a b).2) :
    (r.compatible a b).1 = agree insists r.shelf a b := by
  have hnow := hreads r.asked (Nat.le_refl _) (by rw [asked_compatible]; omega)
  rw [compatible_fst hr ha hb, hnow, agree]

theorem asks_compatible (ha : r.Sees a) (hb : r.Sees b) : Asks r (r.compatible a b).2 :=
  .single (.about ha hb)

/-! ## Questions about several tickets -/

theorem asks_compatibleWithAll {others : List Pooled} (ha : r.Sees a)
    (ho : ∀ m ∈ others, r.Sees m) : Asks r (compatibleWithAll a others r).2 := by
  induction others generalizing r with
  | nil => exact .refl
  | cons m rest ih =>
    have hask := asks_compatible (ho m List.mem_cons_self) ha
    unfold compatibleWithAll
    split
    · rename_i r₁ heq
      rw [heq] at hask
      refine hask.trans (ih (hask.acts.sees.2 ha) fun n hn => ?_)
      exact hask.acts.sees.2 (ho n (List.mem_cons_of_mem m hn))
    · rename_i r₁ heq
      rw [heq] at hask
      exact hask

theorem compatibleWithAll_eq {others : List Pooled} (hr : r.Recalls) (ha : r.Sees a)
    (ho : ∀ m ∈ others, r.Sees m) (hreads : Reads insists r (compatibleWithAll a others r).2) :
    (compatibleWithAll a others r).1 = others.all fun m => agree insists r.shelf m a := by
  induction others generalizing r with
  | nil => rfl
  | cons m rest ih =>
    have hm := ho m List.mem_cons_self
    have hrest : ∀ n ∈ rest, r.Sees n := fun n hn => ho n (List.mem_cons_of_mem m hn)
    have hask := asks_compatible hm ha
    have heq := @compatible_eq r m a insists hr hm ha
    unfold compatibleWithAll at hreads ⊢
    generalize r.compatible m a = asked at hask heq hreads ⊢
    obtain ⟨answer, r₁⟩ := asked
    simp only at hask heq hreads ⊢
    have ha₁ := hask.acts.sees.2 ha
    have hrest₁ : ∀ n ∈ rest, r₁.Sees n := fun n hn => hask.acts.sees.2 (hrest n hn)
    rw [List.all_cons]
    cases answer with
    | true =>
      simp only at hreads ⊢
      have hnext := asks_compatibleWithAll ha₁ hrest₁
      rw [← heq (hreads.left hnext.acts.later), Bool.true_and,
        ih (hask.acts.recalls hr) ha₁ hrest₁ (hreads.right hask.acts.later), hask.acts.later.shelf]
    | false => rw [← heq hreads, Bool.false_and]

theorem asks_keepSuitable {cs : List Pooled} (ho : r.Sees outer) (hcs : ∀ c ∈ cs, r.Sees c) :
    Asks r (keepSuitable outer cs r).2 := by
  induction cs generalizing r with
  | nil => exact .refl
  | cons c rest ih =>
    have hrest : ∀ d ∈ rest, r.Sees d := fun d hd => hcs d (List.mem_cons_of_mem c hd)
    have hask := asks_compatible ho (hcs c List.mem_cons_self)
    unfold keepSuitable
    split
    · split
      · rename_i r₁ heq
        rw [heq] at hask
        exact hask.trans (ih (hask.acts.sees.2 ho) fun d hd => hask.acts.sees.2 (hrest d hd))
      · rename_i r₁ heq
        rw [heq] at hask
        exact hask.trans (ih (hask.acts.sees.2 ho) fun d hd => hask.acts.sees.2 (hrest d hd))
    · exact ih ho hrest

theorem keepSuitable_eq {cs : List Pooled} (hr : r.Recalls) (ho : r.Sees outer)
    (hcs : ∀ c ∈ cs, r.Sees c) (hreads : Reads insists r (keepSuitable outer cs r).2) :
    (keepSuitable outer cs r).1 =
      cs.filter fun c => r.isAvailable c && agree insists r.shelf outer c := by
  induction cs generalizing r with
  | nil => rfl
  | cons c rest ih =>
    have hc := hcs c List.mem_cons_self
    have hrest : ∀ d ∈ rest, r.Sees d := fun d hd => hcs d (List.mem_cons_of_mem c hd)
    have hask := asks_compatible ho hc
    have hdel := deliberates_compatible r outer c
    have heq := @compatible_eq r outer c insists hr ho hc
    unfold keepSuitable at hreads ⊢
    rw [List.filter_cons]
    cases havail : r.isAvailable c with
    | false =>
      rw [havail, if_neg Bool.false_ne_true] at hreads
      rw [if_neg Bool.false_ne_true, Bool.false_and, if_neg Bool.false_ne_true]
      exact ih hr ho hrest hreads
    | true =>
      rw [havail, if_pos rfl] at hreads
      rw [if_pos rfl, Bool.true_and]
      generalize r.compatible outer c = asked at hask hdel heq hreads ⊢
      obtain ⟨answer, r₁⟩ := asked
      simp only at hask hdel heq hreads ⊢
      have ho₁ := hask.acts.sees.2 ho
      have hrest₁ : ∀ d ∈ rest, r₁.Sees d := fun d hd => hask.acts.sees.2 (hrest d hd)
      have hnext := asks_keepSuitable ho₁ hrest₁
      -- nobody is used up by the question, so the same candidates remain available
      have hsame : (rest.filter fun d => r₁.isAvailable d && agree insists r₁.shelf outer d) =
          rest.filter fun d => r.isAvailable d && agree insists r.shelf outer d := by
        simp only [hdel.isAvailable, hdel.shelf]
      cases answer with
      | true =>
        simp only at hreads ⊢
        rw [← heq (hreads.left hnext.acts.later), if_pos rfl,
          ih (hask.acts.recalls hr) ho₁ hrest₁ (hreads.right hask.acts.later), hsame]
      | false =>
        simp only at hreads ⊢
        rw [← heq (hreads.left hnext.acts.later), if_neg Bool.false_ne_true,
          ih (hask.acts.recalls hr) ho₁ hrest₁ (hreads.right hask.acts.later), hsame]

end Round

end Matchmaking
