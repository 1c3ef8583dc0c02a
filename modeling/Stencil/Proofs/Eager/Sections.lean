import Stencil.Proofs.Eager.Discipline

/-! # Sections are rendered once

A slot that asks for a section for the first time has its body walked, and every later slot is
given the very chunks that the body pushed then.  That no slot ever asks for a section within
its own body rests on where the bodies are walked.  The body of a section belongs to the
document around the include: while it is walked, sections can be asked for of that document,
of those around it, and of documents that are entered meanwhile, and the section itself is
supplied to none of them.
-/

namespace Stencil

open Program (Section Block)

namespace Eager

variable {σ : Type}

/-! ## Deeds in order -/

namespace Deed

/-- The number of the include that a deed is about. -/
def number? : Deed σ → Option Nat
  | evaluation .. | call _ | round => none
  | entrance number | dispatch number _ | execution number _ | reentry number _
  | delivery number _ _ => some number

def Follows (before : List (Deed σ)) : Deed σ → Prop
  | evaluation .. | call _ | round => True
  | entrance number => ∀ deed ∈ before, deed.number? ≠ some number
  | dispatch number name =>
    .dispatch number name ∈ before → ∃ chunks, .delivery number name chunks ∈ before
  | execution number name =>
    ∃ earlier, before = earlier ++ [.dispatch number name] ∧ .dispatch number name ∉ earlier
  | reentry _ _ => False
  | delivery number name chunks => ∀ other, .delivery number name other ∈ before → other = chunks

/-- Whether a deed can answer a slot, if one has just asked. -/
def Answers (before : List (Deed σ)) (deed : Deed σ) : Prop :=
  ∀ earlier number name, before = earlier ++ [.dispatch number name] →
    (.dispatch number name ∉ earlier ∧ deed = .execution number name) ∨
    (.dispatch number name ∈ earlier ∧
      ∃ chunks, .delivery number name chunks ∈ earlier ∧ deed = .delivery number name chunks)

end Deed

/-- Every deed can stand where it stands. -/
def Ordered (deeds : List (Deed σ)) : Prop :=
  ∀ before deed after, deeds = before ++ deed :: after →
    deed.Follows before ∧ deed.Answers before

/-- No slot is waiting for an answer. -/
def Settled (deeds : List (Deed σ)) : Prop :=
  ∀ earlier number name, deeds ≠ earlier ++ [.dispatch number name]

theorem Settled.answers {deeds : List (Deed σ)} (settled : Settled deeds) (deed : Deed σ) :
    deed.Answers deeds :=
  fun earlier number name asked => absurd asked (settled earlier number name)

theorem settled_append {deeds : List (Deed σ)} {deed : Deed σ}
    (other : ∀ number name, deed ≠ .dispatch number name) : Settled (deeds ++ [deed]) := by
  intro earlier number name same
  obtain ⟨-, same⟩ := List.append_inj' same rfl
  exact other number name (List.head_eq_of_cons_eq same)

theorem Ordered.append {deeds : List (Deed σ)} (ordered : Ordered deeds) {deed : Deed σ}
    (follows : deed.Follows deeds) (answers : deed.Answers deeds) :
    Ordered (deeds ++ [deed]) := by
  intro before one after same
  -- Either the split is right at the new deed, or it was there before.
  obtain rfl | ⟨rest, last, rfl⟩ := after.eq_nil_or_concat
  · obtain ⟨rfl, last⟩ := List.append_inj' same rfl
    cases last
    exact ⟨follows, answers⟩
  · rw [List.concat_eq_append, ← List.cons_append, ← List.append_assoc] at same
    obtain ⟨same, -⟩ := List.append_inj' same rfl
    exact ordered before one rest same

theorem Deed.answers_first {deeds : List (Deed σ)} {number : Nat} {name : String}
    (first : .dispatch number name ∉ deeds) :
    (Deed.execution number name).Answers (deeds ++ [.dispatch number name]) := by
  intro earlier other otherName same
  obtain ⟨rfl, last⟩ := List.append_inj' same rfl
  cases last
  exact .inl ⟨first, rfl⟩

theorem Deed.answers_again {deeds : List (Deed σ)} {number : Nat} {name : String}
    {chunks : List String} (asked : .dispatch number name ∈ deeds)
    (delivered : .delivery number name chunks ∈ deeds) :
    (Deed.delivery number name chunks).Answers (deeds ++ [.dispatch number name]) := by
  intro earlier other otherName same
  obtain ⟨rfl, last⟩ := List.append_inj' same rfl
  cases last
  exact .inr ⟨asked, chunks, delivered, rfl⟩

/-- In what order sections are asked for, executed and delivered. -/
structure RunsOnce (deeds : List (Deed σ)) : Prop where
  /-- The body of a section is walked for the first slot that asks for it. -/
  execution : ∀ before number name after, deeds = before ++ .execution number name :: after →
    ∃ earlier, before = earlier ++ [.dispatch number name] ∧ .dispatch number name ∉ earlier
  /-- The first slot has the body walked at once. -/
  first : ∀ before number name after, deeds = before ++ .dispatch number name :: after →
    .dispatch number name ∉ before → ∀ deed ∈ after.head?, deed = .execution number name
  /-- When another slot asks for it the section has been delivered, and the same chunks are
  delivered again with nothing done in between. -/
  again : ∀ before number name after, deeds = before ++ .dispatch number name :: after →
    .dispatch number name ∈ before →
    ∃ chunks, .delivery number name chunks ∈ before ∧
      ∀ deed ∈ after.head?, deed = .delivery number name chunks
  /-- All deliveries of a section are alike. -/
  alike : ∀ number name chunks other, .delivery number name chunks ∈ deeds →
    .delivery number name other ∈ deeds → other = chunks
  /-- No section is asked for within its own body. -/
  apart : ∀ number name, .reentry number name ∉ deeds
  /-- Every include has sections of its own. -/
  fresh : ∀ before number after, deeds = before ++ .entrance number :: after →
    ∀ deed ∈ before, deed.number? ≠ some number

theorem Ordered.runsOnce {deeds : List (Deed σ)} (ordered : Ordered deeds) :
    RunsOnce deeds where
  execution before number name after split := (ordered _ _ _ split).1
  first before number name after split first := by
    -- With nothing behind it, the walk has been stopped at the slot.
    cases after with
    | nil => intro deed asked; cases asked
    | cons next rest =>
      rw [List.append_cons] at split
      intro deed asked
      cases asked
      obtain ⟨-, executed⟩ | ⟨again, -⟩ := (ordered _ _ _ split).2 before number name rfl
      · exact executed
      · exact absurd again first
  again before number name after split again := by
    cases after with
    | nil =>
      obtain ⟨chunks, delivered⟩ := (ordered _ _ _ split).1 again
      exact ⟨chunks, delivered, fun deed asked => nomatch asked⟩
    | cons next rest =>
      rw [List.append_cons] at split
      obtain ⟨first, -⟩ | ⟨-, chunks, delivered, rfl⟩ :=
        (ordered _ _ _ split).2 before number name rfl
      · exact absurd again first
      · exact ⟨chunks, delivered, fun deed asked => (Option.some.inj asked).symm⟩
  alike number name chunks other one two := by
    obtain ⟨before, after, split⟩ := List.append_of_mem one
    have follows := (ordered _ _ _ split).1
    rw [split, List.mem_append, List.mem_cons] at two
    -- Whichever of two deliveries is later follows the other.
    obtain earlier | same | later := two
    · exact follows other earlier
    · cases same
      rfl
    · obtain ⟨between, rest, rfl⟩ := List.append_of_mem later
      rw [← List.cons_append, ← List.append_assoc] at split
      exact ((ordered _ _ _ split).1 chunks (by simp)).symm
  apart number name entered := by
    obtain ⟨before, after, split⟩ := List.append_of_mem entered
    exact (ordered _ _ _ split).1
  fresh before number after split := (ordered _ _ _ split).1

/-! ## Memos of others -/

/-- What is known of the sections of an include does not change while something else is walked
that it is not around. -/
def Untouched (activation : Activation σ) (before after : Ledger σ) : Prop :=
  before.next ≤ after.next ∧ ∀ number < before.next, number ∉ activation.numbers →
    ∀ name, after.memo number name = before.memo number name

theorem Ledger.memo_marked_other {ledger : Ledger σ} {number other : Nat} (name : String)
    (memo : Memo) (different : other ≠ number) (otherName : String) :
    (ledger.marked number name memo).memo other otherName = ledger.memo other otherName := by
  simp [Ledger.marked, different]

theorem Ledger.memo_entered {ledger : Ledger σ} {number : Nat} (earlier : number < ledger.next)
    (name : String) : ledger.entered.memo number name = ledger.memo number name := by
  have different : number ≠ ledger.next := by omega
  simp [Ledger.entered, different]

theorem untouched_of_memo_eq {activation : Activation σ} {before after : Ledger σ}
    (next : after.next = before.next) (memo : after.memo = before.memo) :
    Untouched activation before after :=
  ⟨Nat.le_of_eq next.symm, fun _ _ _ _ => by rw [memo]⟩

theorem untouched_trans {activation : Activation σ} {before middle after : Ledger σ}
    (one : Untouched activation before middle) (other : Untouched activation middle after) :
    Untouched activation before after := by
  refine ⟨Nat.le_trans one.1 other.1, fun number known outside name => ?_⟩
  rw [other.2 number (by have := one.1; omega) outside, one.2 number known outside]

theorem untouched_included {activation : Activation σ} {ledger after : Ledger σ}
    {forwards : List (String × Value)} {sections : List (Section σ)} {frames : List Frame}
    (inside : Untouched (.within ledger.next forwards sections frames activation)
      ledger.entered after) : Untouched activation ledger after := by
  -- The number of the include is new, and so the earlier ones are around or outside of both.
  have larger : ledger.next + 1 ≤ after.next := inside.1
  refine ⟨by omega, fun number known outside name => ?_⟩
  rw [inside.2 number (Nat.lt_succ_of_lt known) ?_, Ledger.memo_entered known]
  simp only [Activation.numbers, List.mem_cons, not_or]
  exact ⟨by omega, outside⟩

theorem untouched_executed {number : Nat} {name : String} {forwards : List (String × Value)}
    {sections : List (Section σ)} {frames : List Frame} {outer : Activation σ}
    {ledger after : Ledger σ} (body : Untouched outer (ledger.started number name) after) :
    Untouched (.within number forwards sections frames outer) ledger after := by
  refine ⟨body.1, fun other known outside otherName => ?_⟩
  simp only [Activation.numbers, List.mem_cons, not_or] at outside
  rw [body.2 other known outside.2]
  exact Ledger.memo_marked_other name .pending outside.1 otherName

theorem untouched_completed {number : Nat} {name : String} {forwards : List (String × Value)}
    {sections : List (Section σ)} {frames : List Frame} {outer : Activation σ}
    {ledger after : Ledger σ} (body : Untouched outer (ledger.started number name) after)
    (chunks : List String) : Untouched (.within number forwards sections frames outer) ledger
      (after.completed number name chunks) := by
  refine untouched_trans (untouched_executed body)
    ⟨Nat.le_refl _, fun other _ outside otherName => ?_⟩
  simp only [Activation.numbers, List.mem_cons, not_or] at outside
  exact Ledger.memo_marked_other name (.complete chunks) outside.1 otherName

def LeavesUntouched (activation : Activation σ) (before after : World σ) : Prop :=
  Untouched activation before.ledger after.ledger

theorem untouched_discipline :
    Discipline (σ := σ) (fun _ _ => True) LeavesUntouched LeavesUntouched where
  quiet _ _ _ _ := untouched_of_memo_eq rfl rfl
  halt _ _ := untouched_of_memo_eq rfl rfl
  andThen := untouched_trans
  andStop := untouched_trans
  stopQuiet _ _ _ := id
  evaluation _ _ _ := untouched_of_memo_eq rfl rfl
  call _ _ _ _ := untouched_of_memo_eq rfl rfl
  round _ _ := untouched_of_memo_eq rfl rfl
  included := untouched_included
  includedStop := untouched_included
  executed chunks _ body := untouched_completed body chunks
  executedStop _ body := untouched_executed body
  reentered _ := untouched_of_memo_eq rfl rfl
  replayed _ := untouched_of_memo_eq rfl rfl
  replayedStop _ := untouched_of_memo_eq rfl rfl

theorem walkBody_untouched (occasion : Occasion σ) (fuel : Nat) (layers : List Layer)
    (place : Place σ) (block : Block σ) :
    Steady LeavesUntouched LeavesUntouched place.activation
      (occasion.walkBody fuel layers place block) :=
  untouched_discipline.walkBody (programFits_trivial _) fuel layers
    place block (blockFits_trivial place block)
    (activationFits_trivial place.activation)

/-! ## Memos and deeds -/

namespace Ledger

/-- A ledger whose memos tell what has been done, in the order in which it can be done. -/
structure Orderly (ledger : Ledger σ) : Prop where
  ordered : Ordered ledger.deeds
  known : ∀ deed ∈ ledger.deeds, ∀ number, deed.number? = some number → number < ledger.next
  asked : ∀ number name,
    .dispatch number name ∈ ledger.deeds ↔ ledger.memo number name ≠ none
  delivered : ∀ number name chunks,
    .delivery number name chunks ∈ ledger.deeds ↔
      ledger.memo number name = some (.complete chunks)

/-- A ledger in which the next step of a walk can be noted. -/
structure Ready (ledger : Ledger σ) (activation : Activation σ) : Prop extends
    ledger.Orderly where
  settled : Settled ledger.deeds
  distinct : activation.numbers.Nodup
  entered : ∀ number ∈ activation.numbers, number < ledger.next
  /-- No section of the documents around is being walked. -/
  idle : ∀ number ∈ activation.numbers, ∀ name, ledger.memo number name ≠ some .pending

variable {ledger : Ledger σ} {number : Nat} {name : String}

theorem known_append {next : Nat} {deeds : List (Deed σ)} {deed : Deed σ}
    (known : ∀ one ∈ deeds, ∀ number, one.number? = some number → number < next)
    (own : ∀ number, deed.number? = some number → number < next) :
    ∀ one ∈ deeds ++ [deed], ∀ number, one.number? = some number → number < next :=
  List.forall_mem_append.2 ⟨known, List.forall_mem_singleton.2 own⟩

/-- Something that has to do with no include can be noted at any time. -/
theorem Orderly.noted (orderly : ledger.Orderly) (settled : Settled ledger.deeds)
    {deed : Deed σ} (plain : deed.number? = none) : (ledger.noted deed).Orderly := by
  have follows : deed.Follows ledger.deeds := by
    cases deed <;> first | exact True.intro | cases plain
  refine ⟨orderly.ordered.append follows (settled.answers deed), ?_, ?_, ?_⟩
  · exact known_append orderly.known (by simp [plain])
  · intro number name
    have other : Deed.dispatch number name ≠ deed := by rintro rfl; cases plain
    simpa [Ledger.noted, other] using orderly.asked number name
  · intro number name chunks
    have other : Deed.delivery number name chunks ≠ deed := by rintro rfl; cases plain
    simpa [Ledger.noted, other] using orderly.delivered number name chunks

theorem Ready.noted {activation : Activation σ} (ready : ledger.Ready activation)
    {deed : Deed σ} (plain : deed.number? = none) : (ledger.noted deed).Ready activation where
  toOrderly := ready.toOrderly.noted ready.settled plain
  settled := settled_append fun number name => by rintro rfl; cases plain
  distinct := ready.distinct
  entered := ready.entered
  idle := ready.idle

/-- The sections of a document that is entered are unheard of. -/
theorem Orderly.entered (orderly : ledger.Orderly) (settled : Settled ledger.deeds) :
    ledger.entered.Orderly := by
  have fresh : ∀ deed ∈ ledger.deeds, deed.number? ≠ some ledger.next := by
    intro deed member same
    exact absurd (orderly.known deed member _ same) (Nat.lt_irrefl _)
  refine ⟨orderly.ordered.append fresh (settled.answers _), ?_, ?_, ?_⟩
  · refine known_append (fun deed member number same => ?_) fun number own => ?_
    · exact Nat.lt_succ_of_lt (orderly.known deed member number same)
    · cases own
      exact Nat.lt_succ_self _
  · intro number name
    by_cases own : number = ledger.next
    · have unheard : Deed.dispatch number name ∉ ledger.deeds :=
        fun member => fresh _ member (congrArg some own)
      simp [Ledger.entered, own ▸ unheard, own]
    · simpa [Ledger.entered, own] using orderly.asked number name
  · intro number name chunks
    by_cases own : number = ledger.next
    · have unheard : Deed.delivery number name chunks ∉ ledger.deeds :=
        fun member => fresh _ member (congrArg some own)
      simp [Ledger.entered, own ▸ unheard, own]
    · simpa [Ledger.entered, own] using orderly.delivered number name chunks

theorem Ready.included {activation : Activation σ} (ready : ledger.Ready activation)
    (forwards : List (String × Value)) (sections : List (Section σ)) (frames : List Frame) :
    ledger.entered.Ready (.within ledger.next forwards sections frames activation) where
  toOrderly := ready.toOrderly.entered ready.settled
  settled := settled_append fun _ _ => nofun
  distinct := List.nodup_cons.2
    ⟨fun member => Nat.lt_irrefl _ (ready.entered _ member), ready.distinct⟩
  entered number member := by
    obtain rfl | around := List.mem_cons.1 member
    · exact Nat.lt_succ_self _
    · exact Nat.lt_succ_of_lt (ready.entered number around)
  idle number member name := by
    obtain rfl | around := List.mem_cons.1 member
    · simp [Ledger.entered]
    · rw [memo_entered (ready.entered number around)]
      exact ready.idle number around name

/-- What is left of an included document are the documents around it. -/
theorem Ready.outer {activation : Activation σ} {forwards : List (String × Value)}
    {sections : List (Section σ)} {frames : List Frame}
    (ready : ledger.Ready (.within number forwards sections frames activation)) :
    ledger.Ready activation where
  toOrderly := ready.toOrderly
  settled := ready.settled
  distinct := (List.nodup_cons.1 ready.distinct).2
  entered other around := ready.entered other (List.mem_cons_of_mem _ around)
  idle other around := ready.idle other (List.mem_cons_of_mem _ around)

/-! ### Sections -/

theorem memo_marked (ledger : Ledger σ) (number : Nat) (name : String) (memo : Memo) :
    (ledger.marked number name memo).memo number name = some memo := by
  simp [marked]

theorem memo_marked_of_ne {memo : Memo} {other : Nat} {otherName : String}
    (different : ¬(other = number ∧ otherName = name)) :
    (ledger.marked number name memo).memo other otherName = ledger.memo other otherName :=
  if_neg different

theorem Orderly.started (orderly : ledger.Orderly) (settled : Settled ledger.deeds)
    (earlier : number < ledger.next) (unknown : ledger.memo number name = none) :
    (ledger.started number name).Orderly := by
  -- Two deeds are noted at once: between them the section has been asked for, and no memo
  -- says so yet.
  have first : Deed.dispatch number name ∉ ledger.deeds := by
    rw [orderly.asked]
    exact not_not_intro unknown
  have asked : Ordered (ledger.deeds ++ [.dispatch number name]) :=
    orderly.ordered.append (fun again => absurd again first) (settled.answers _)
  refine ⟨asked.append ⟨_, rfl, first⟩ (Deed.answers_first first), ?_, ?_, ?_⟩
  · have own : ∀ other, some number = some other → other < ledger.next := by
      rintro _ ⟨⟩
      exact earlier
    exact known_append (known_append orderly.known own) own
  · intro other otherName
    have asked := orderly.asked other otherName
    by_cases own : other = number ∧ otherName = name
    · simp [Ledger.started, Ledger.noted, marked, own]
    · simp [Ledger.started, Ledger.noted, marked, own, asked]
  · intro other otherName chunks
    have delivered := orderly.delivered other otherName chunks
    by_cases own : other = number ∧ otherName = name
    · obtain ⟨rfl, rfl⟩ := own
      simp [Ledger.started, Ledger.noted, marked, delivered, unknown]
    · simp [Ledger.started, Ledger.noted, marked, own, delivered]

theorem Orderly.completed (orderly : ledger.Orderly) (settled : Settled ledger.deeds)
    (earlier : number < ledger.next) (pending : ledger.memo number name = some .pending)
    (chunks : List String) : (ledger.completed number name chunks).Orderly := by
  -- A pending section has not been delivered, so this is the first delivery of it.
  have undelivered : ∀ other, Deed.delivery number name other ∉ ledger.deeds := by
    intro other
    rw [orderly.delivered, pending]
    exact nofun
  have follows : (Deed.delivery number name chunks).Follows ledger.deeds :=
    fun other member => absurd member (undelivered other)
  refine ⟨orderly.ordered.append follows (settled.answers _), ?_, ?_, ?_⟩
  · refine known_append orderly.known fun other own => ?_
    cases own
    exact earlier
  · intro other otherName
    have asked := orderly.asked other otherName
    by_cases own : other = number ∧ otherName = name
    · obtain ⟨rfl, rfl⟩ := own
      simp [Ledger.completed, Ledger.noted, marked, asked, pending]
    · simp [Ledger.completed, Ledger.noted, marked, own, asked]
  · intro other otherName others
    have delivered := orderly.delivered other otherName others
    by_cases own : other = number ∧ otherName = name
    · obtain ⟨rfl, rfl⟩ := own
      simp [Ledger.completed, Ledger.noted, marked, undelivered, eq_comm]
    · have different : ¬(other = number ∧ otherName = name ∧ others = chunks) :=
        fun same => own ⟨same.1, same.2.1⟩
      simp [Ledger.completed, Ledger.noted, marked, own, delivered, different]

/-- A section that is complete can be asked for again. -/
theorem Orderly.askedAgain (orderly : ledger.Orderly) (settled : Settled ledger.deeds)
    {chunks : List String} (complete : ledger.memo number name = some (.complete chunks)) :
    (ledger.noted (.dispatch number name)).Orderly := by
  have before : Deed.dispatch number name ∈ ledger.deeds := by
    rw [orderly.asked, complete]
    exact nofun
  have delivered : Deed.delivery number name chunks ∈ ledger.deeds :=
    (orderly.delivered number name chunks).2 complete
  refine ⟨orderly.ordered.append (fun _ => ⟨chunks, delivered⟩) (settled.answers _),
    ?_, ?_, ?_⟩
  · exact known_append orderly.known (orderly.known _ before)
  · intro other otherName
    have asked := orderly.asked other otherName
    by_cases own : other = number ∧ otherName = name
    · obtain ⟨rfl, rfl⟩ := own
      simp [Ledger.noted, complete]
    · simp [Ledger.noted, own, asked]
  · intro other otherName others
    simp [Ledger.noted, orderly.delivered]

theorem Orderly.deliveredAgain (orderly : ledger.Orderly) (settled : Settled ledger.deeds)
    {chunks : List String} (complete : ledger.memo number name = some (.complete chunks)) :
    ((ledger.noted (.dispatch number name)).noted (.delivery number name chunks)).Orderly := by
  have asking := orderly.askedAgain settled complete
  have before : Deed.dispatch number name ∈ ledger.deeds := by
    rw [orderly.asked, complete]
    exact nofun
  have delivered := (orderly.delivered number name chunks).2 complete
  have follows : (Deed.delivery number name chunks).Follows
      (ledger.noted (.dispatch number name)).deeds := by
    intro other member
    rw [asking.delivered] at member
    have same : some (Memo.complete other) = some (.complete chunks) := member.symm.trans complete
    cases same
    rfl
  refine ⟨asking.ordered.append follows (Deed.answers_again before delivered), ?_, ?_, ?_⟩
  · exact known_append asking.known (orderly.known _ delivered)
  · intro other otherName
    have asked := asking.asked other otherName
    simpa [Ledger.noted] using asked
  · intro other otherName others
    by_cases own : other = number ∧ otherName = name
    · obtain ⟨rfl, rfl⟩ := own
      simp [Ledger.noted, orderly.delivered, complete, eq_comm]
    · have different : ¬(other = number ∧ otherName = name ∧ others = chunks) :=
        fun same => own ⟨same.1, same.2.1⟩
      simp [Ledger.noted, orderly.delivered, different]

section Slots

variable {forwards : List (String × Value)} {sections : List (Section σ)} {frames : List Frame}
  {outer : Activation σ}

/-- While the body of a section is walked, the sections of the documents around the include are
idle, if they were before: the section is not among them. -/
theorem Ready.started (ready : ledger.Ready (.within number forwards sections frames outer))
    (unknown : ledger.memo number name = none) : (ledger.started number name).Ready outer where
  toOrderly := ready.toOrderly.started ready.settled (ready.entered number (List.mem_cons_self ..))
    unknown
  settled := settled_append fun _ _ => nofun
  distinct := ready.outer.distinct
  entered := ready.outer.entered
  idle other around otherName := by
    -- The section belongs to the include that is left, not to one around it.
    have different : other ≠ number := by
      rintro rfl
      exact (List.nodup_cons.1 ready.distinct).1 around
    rw [Ledger.started, Ledger.noted, memo_marked_other name .pending different]
    exact ready.outer.idle other around otherName

/-- Nothing that is walked with the body of a section asks for the section. -/
theorem Ready.pending_after {after : Ledger σ}
    (ready : ledger.Ready (.within number forwards sections frames outer))
    (body : Untouched outer (ledger.started number name) after) :
    number < after.next ∧ ∀ otherName,
      after.memo number otherName = (ledger.started number name).memo number otherName := by
  have earlier := ready.entered number (List.mem_cons_self ..)
  have apart : number ∉ outer.numbers := (List.nodup_cons.1 ready.distinct).1
  exact ⟨Nat.lt_of_lt_of_le earlier body.1, body.2 number earlier apart⟩

theorem Ready.completed {after : Ledger σ}
    (ready : ledger.Ready (.within number forwards sections frames outer))
    (body : Untouched outer (ledger.started number name) after) (reached : after.Ready outer)
    (chunks : List String) :
    (after.completed number name chunks).Ready (.within number forwards sections frames outer) := by
  obtain ⟨earlier, same⟩ := ready.pending_after body
  -- The body has touched no section of the include, this one among them.
  have pending : after.memo number name = some .pending :=
    (same name).trans (memo_marked _ number name .pending)
  refine ⟨reached.toOrderly.completed reached.settled earlier pending chunks,
    settled_append fun _ _ => nofun, ready.distinct, ?_, ?_⟩
  · intro other member
    obtain rfl | around := List.mem_cons.1 member
    · exact earlier
    · exact reached.entered other around
  · intro other member otherName
    show (after.marked number name _).memo other otherName ≠ _
    by_cases own : other = number ∧ otherName = name
    · obtain ⟨rfl, rfl⟩ := own
      rw [memo_marked]
      exact nofun
    · rw [memo_marked_of_ne own]
      obtain rfl | around := List.mem_cons.1 member
      · rw [same, Ledger.started, Ledger.noted, memo_marked_of_ne own]
        exact ready.idle other member otherName
      · exact reached.idle other around otherName

theorem Ready.deliveredAgain {chunks : List String}
    (ready : ledger.Ready (.within number forwards sections frames outer))
    (complete : ledger.memo number name = some (.complete chunks)) :
    ((ledger.noted (.dispatch number name)).noted (.delivery number name chunks)).Ready
      (.within number forwards sections frames outer) where
  toOrderly := ready.toOrderly.deliveredAgain ready.settled complete
  settled := settled_append fun _ _ => nofun
  distinct := ready.distinct
  entered := ready.entered
  idle := ready.idle

end Slots

/-- A rendering begins with a ledger in which everything can be noted. -/
theorem ready_start : (start : Ledger σ).Ready .root where
  ordered before deed after split := by simp [start] at split
  known := nofun
  asked _ _ := by simp [start]
  delivered _ _ _ := by simp [start]
  settled earlier number name same := by simp [start] at same
  distinct := List.nodup_nil
  entered := nofun
  idle := nofun

end Ledger

/-! ## Walks -/

/-- A ledger that is ready for the next step before a part of a walk is so afterwards. -/
def KeepsReady (activation : Activation σ) (before after : World σ) : Prop :=
  Untouched activation before.ledger after.ledger ∧
    (before.ledger.Ready activation → after.ledger.Ready activation)

/-- Wherever a walk is stopped, the ledger is orderly. -/
def StaysOrderly (activation : Activation σ) (before after : World σ) : Prop :=
  Untouched activation before.ledger after.ledger ∧
    (before.ledger.Ready activation → after.ledger.Orderly)

theorem ready_discipline : Discipline (σ := σ) (fun _ _ => True) KeepsReady StaysOrderly where
  quiet _ _ _ _ := ⟨untouched_of_memo_eq rfl rfl, id⟩
  halt _ _ := ⟨untouched_of_memo_eq rfl rfl, (·.toOrderly)⟩
  andThen one other := ⟨untouched_trans one.1 other.1, other.2 ∘ one.2⟩
  andStop one other := ⟨untouched_trans one.1 other.1, other.2 ∘ one.2⟩
  stopQuiet _ _ _ := id
  evaluation _ _ _ := ⟨untouched_of_memo_eq rfl rfl, (·.noted rfl)⟩
  call _ _ _ _ := ⟨untouched_of_memo_eq rfl rfl, (·.noted rfl)⟩
  round _ _ := ⟨untouched_of_memo_eq rfl rfl, (·.noted rfl)⟩
  included inside := ⟨untouched_included inside.1, fun ready =>
    (inside.2 (ready.included ..)).outer⟩
  includedStop inside := ⟨untouched_included inside.1, fun ready =>
    inside.2 (ready.included ..)⟩
  -- The body is walked in the document around the include, whose sections are all idle.
  executed chunks unknown body := ⟨untouched_completed body.1 chunks,
    fun ready => ready.completed body.1 (body.2 (ready.started unknown)) chunks⟩
  executedStop unknown body := ⟨untouched_executed body.1, fun ready =>
    body.2 (ready.started unknown)⟩
  -- A pending section cannot be asked for: those of the documents around are idle.
  reentered pending := ⟨untouched_of_memo_eq rfl rfl, fun ready =>
    absurd pending (ready.idle _ (List.mem_cons_self ..) _)⟩
  replayed complete := ⟨untouched_of_memo_eq rfl rfl, fun ready =>
    ready.deliveredAgain complete⟩
  replayedStop complete := ⟨untouched_of_memo_eq rfl rfl, fun ready =>
    ready.toOrderly.askedAgain ready.settled complete⟩

/-- Whatever is walked and however far, the ledger is orderly in the end. -/
theorem Occasion.walk_orderly (occasion : Occasion σ) (fuel : Nat) (document : DocId) (host : σ) :
    (occasion.walk fuel document host).2.ledger.Orderly := by
  obtain reached | halted := ready_discipline.walked
    (programFits_trivial _) fuel document host
  · exact (reached.2 Ledger.ready_start).toOrderly
  · exact halted.2 Ledger.ready_start

/-! ## Calls and rounds -/

def callsAmong (deeds : List (Deed σ)) : List Invocation :=
  deeds.filterMap fun
    | .call invocation => some invocation
    | _ => none

def roundsAmong (deeds : List (Deed σ)) : Nat :=
  deeds.countP fun
    | .round => true
    | _ => false

theorem callsAmong_append (deeds others : List (Deed σ)) :
    callsAmong (deeds ++ others) = callsAmong deeds ++ callsAmong others :=
  List.filterMap_append ..

theorem roundsAmong_append (deeds others : List (Deed σ)) :
    roundsAmong (deeds ++ others) = roundsAmong deeds + roundsAmong others :=
  List.countP_append ..

/-- The log of a world has all the calls that have been made, and all rounds that have begun. -/
def World.Logged (world : World σ) : Prop :=
  invocations world.output.events = callsAmong world.ledger.deeds ∧
    world.output.iterations = roundsAmong world.ledger.deeds

def KeepsLog (_ : Activation σ) (before after : World σ) : Prop :=
  before.Logged → after.Logged

namespace World.Logged

variable {world : World σ}

theorem quiet (logged : world.Logged) {output : Output σ} (quiet : world.output.Quiet output) :
    { world with output }.Logged :=
  ⟨quiet.1.trans logged.1, quiet.2.trans logged.2⟩

/-- What is neither a call nor a round does not count. -/
theorem noted (logged : world.Logged) {deed : Deed σ} (others : callsAmong [deed] = [])
    (still : roundsAmong [deed] = 0) : (world.noted deed).Logged := by
  constructor
  · show _ = callsAmong (world.ledger.deeds ++ [deed])
    rw [callsAmong_append, others, List.append_nil]
    exact logged.1
  · show _ = roundsAmong (world.ledger.deeds ++ [deed])
    rw [roundsAmong_append, still]
    exact logged.2

theorem called (logged : world.Logged) (invocation : Invocation) (host : σ) :
    (world.called invocation host).Logged := by
  constructor
  · show invocations (world.output.events ++ [.call invocation]) =
      callsAmong (world.ledger.deeds ++ [.call invocation])
    rw [callsAmong_append, ← logged.1]
    exact List.filterMap_append ..
  · show _ = roundsAmong (world.ledger.deeds ++ [.call invocation])
    rw [roundsAmong_append]
    exact logged.2

theorem begun (logged : world.Logged) : world.begun.Logged := by
  constructor
  · show _ = callsAmong (world.ledger.deeds ++ [.round])
    rw [callsAmong_append]
    exact logged.1.trans (List.append_nil _).symm
  · show world.output.iterations + 1 = roundsAmong (world.ledger.deeds ++ [.round])
    rw [roundsAmong_append, logged.2]
    rfl

end World.Logged

theorem logged_discipline : Discipline (σ := σ) (fun _ _ => True) KeepsLog KeepsLog where
  quiet _ _ _ quiet logged := logged.quiet quiet
  halt _ _ := id
  andThen one other := other ∘ one
  andStop one other := other ∘ one
  stopQuiet _ _ quiet stopped logged := (stopped logged).quiet quiet
  evaluation _ _ _ logged := logged.noted rfl rfl
  call _ _ invocation host logged := logged.called invocation host
  round _ _ logged := logged.begun
  included inside logged := inside (logged.noted rfl rfl)
  includedStop inside logged := inside (logged.noted rfl rfl)
  executed _ _ body logged :=
    (body ((logged.noted rfl rfl).noted rfl rfl)).noted rfl rfl
  executedStop _ body logged := body ((logged.noted rfl rfl).noted rfl rfl)
  reentered _ logged := (logged.noted rfl rfl).noted rfl rfl
  replayed _ logged := (logged.noted rfl rfl).noted rfl rfl
  replayedStop _ logged := logged.noted rfl rfl

theorem Occasion.walk_logged (occasion : Occasion σ) (fuel : Nat) (document : DocId) (host : σ) :
    (occasion.walk fuel document host).2.Logged := by
  obtain reached | halted := logged_discipline.walked
    (programFits_trivial _) fuel document host
  · exact reached ⟨rfl, rfl⟩
  · exact halted ⟨rfl, rfl⟩

end Eager

end Stencil
