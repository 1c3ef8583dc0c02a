import Stencil.Proofs.Transparency.Gathered

/-! # Flows that are put differently

A flow is revised by a second one that does the same in other words: calls that change nothing are
dropped or added, rounds of loops are no longer told, and chunks come in two pieces.  Which of this
may happen is said by a revision.

A chunk in two pieces asks for care, because constructs around it are told after each of them where
the output stands.  Only between the pieces is it known: within the line.  So the second piece meets
no construct that would put anything ahead of it, and every adaptor keeps flows revised.
-/

namespace Stencil

variable {σ α β γ δ : Type}

/-! ## What may change -/

/-- A call that always comes to the same value and leaves every host as it is. -/
def Entry.Idle : Entry σ → Prop
  | .call callable invocation (.ok value) =>
    ∀ host, (callable.run invocation.bindings).run host = (.ok value, host)
  | .call _ _ (.error _) | .chunk _ => False

structure Revision (σ : Type) where
  /-- Calls that may be made no longer. -/
  dropped : Entry σ → Prop
  /-- Calls that may be made in addition. -/
  added : Entry σ → Prop
  /-- Whether rounds may no longer be told. -/
  unrolls : Prop
  /-- Whether chunks may be put out in two pieces. -/
  splits : Prop
  idle : ∀ entry, dropped entry ∨ added entry → entry.Idle

/-- Nothing changes. -/
def Revision.unchanged : Revision σ where
  dropped _ := False
  added _ := False
  unrolls := False
  splits := False
  idle _ changed := changed.elim False.elim False.elim

/-- A text that is content of a line and does not end it. -/
structure Inline (text : String) : Prop where
  visible : text.isEmpty = false
  unbroken : isNewline text = false

theorem Inline.append {one two : String} (first : Inline one) (second : Inline two) :
    Inline (one ++ two) where
  visible := by
    have some : one ≠ "" := by simpa using first.visible
    simp [some]
  unbroken := by
    refine beq_eq_false_iff_ne.2 fun newline => ?_
    have lengths : one.length + two.length = 1 := by
      rw [← String.length_append, newline]
      rfl
    have some : one.length ≠ 0 := by simpa using first.visible
    have more : two.length ≠ 0 := by simpa using second.visible
    omega

namespace Revision

/-- Texts that are put out one after another. -/
inductive Texts (revision : Revision σ) : List String → List String → Prop where
  | nil : Texts revision [] []
  | cons (text : String) {texts others : List String} :
      Texts revision texts others → Texts revision (text :: texts) (text :: others)
  | split {one two : String} {texts others : List String} :
      revision.splits → Inline one → Inline two → Texts revision texts others →
      Texts revision ((one ++ two) :: texts) (one :: two :: others)

variable {revision : Revision σ}

theorem Texts.refl (texts : List String) : Texts revision texts texts := by
  induction texts with
  | nil => exact .nil
  | cons text _ ih => exact .cons text ih

theorem Texts.append {texts others more further : List String}
    (first : Texts revision texts others) (second : Texts revision more further) :
    Texts revision (texts ++ more) (others ++ further) := by
  induction first with
  | nil => exact second
  | cons text _ ih => exact .cons text ih
  | split allowed one two _ ih => exact .split allowed one two ih

end Revision

inductive Flow.Revised (revision : Revision σ) (results : α → β → Prop) :
    Flow σ α → Flow σ β → Prop where
  | finish {result : α} {other : β} :
      results result other → Revised revision results (.finish result) (.finish other)
  | fail (error : RenderError) : Revised revision results (.fail error) (.fail error)
  | bottomless : Revised revision results .bottomless .bottomless
  | emit {chunk : String} {resume : Bool → Flow σ α} {follow : Bool → Flow σ β} :
      (∀ atStart, Revised revision results (resume atStart) (follow atStart)) →
      Revised revision results (.emit chunk resume) (.emit chunk follow)
  | call {callable : Host.Callable σ} {invocation : Invocation} {resume : Value → Flow σ α}
      {follow : Value → Flow σ β} :
      (∀ value, Revised revision results (resume value) (follow value)) →
      Revised revision results (.call callable invocation resume)
        (.call callable invocation follow)
  | round {resume : Unit → Flow σ α} {follow : Unit → Flow σ β} :
      (∀ go, Revised revision results (resume go) (follow go)) →
      Revised revision results (.round resume) (.round follow)
  | poll {resume : Unit → Flow σ α} {follow : Unit → Flow σ β} :
      (∀ go, Revised revision results (resume go) (follow go)) →
      Revised revision results (.poll resume) (.poll follow)
  | drop {callable : Host.Callable σ} {invocation : Invocation} {value : Value}
      {resume : Value → Flow σ α} {other : Flow σ β} :
      revision.dropped (.call callable invocation (.ok value)) →
      Revised revision results (resume value) other →
      Revised revision results (.call callable invocation resume) other
  | add {callable : Host.Callable σ} {invocation : Invocation} {value : Value} {flow : Flow σ α}
      {follow : Value → Flow σ β} :
      revision.added (.call callable invocation (.ok value)) →
      Revised revision results flow (follow value) →
      Revised revision results flow (.call callable invocation follow)
  | unroll {resume : Unit → Flow σ α} {other : Flow σ β} :
      revision.unrolls → Revised revision results (resume ()) other →
      Revised revision results (.round resume) other
  | split {one two : String} {resume next follow : Bool → Flow σ _} :
      revision.splits → Inline one → Inline two → next false = .emit two follow →
      Revised revision results (resume false) (follow false) →
      Revised revision results (.emit (one ++ two) resume) (.emit one next)
  /-- The second piece of a chunk that is gathered is polled ahead of. -/
  | wait {flow : Flow σ α} {follow : Unit → Flow σ β} :
      revision.splits → Revised revision results flow (follow ()) →
      Revised revision results flow (.poll follow)

namespace Flow.Revised

variable {revision : Revision σ} {results : α → β → Prop} {flow : Flow σ α} {other : Flow σ β}

theorem bind {next : α → Flow σ γ} {follow : β → Flow σ δ} {last : γ → δ → Prop}
    (first : Revised revision results flow other)
    (second : ∀ one two, results one two → Revised revision last (next one) (follow two)) :
    Revised revision last (flow >>= next) (other >>= follow) := by
  induction first with
  | finish same => exact second _ _ same
  | fail error => exact .fail error
  | bottomless => exact .bottomless
  | emit _ ih => exact .emit ih
  | call _ ih => exact .call ih
  | round _ ih => exact .round ih
  | poll _ ih => exact .poll ih
  | drop allowed _ ih => exact .drop allowed ih
  | add allowed _ ih => exact .add allowed ih
  | unroll allowed _ ih => exact .unroll allowed ih
  | split allowed one two pieces _ ih =>
    exact .split allowed one two (congrArg (Flow.bind · follow) pieces) ih
  | wait allowed _ ih => exact .wait allowed ih

theorem mono {weaker : α → β → Prop} (revised : Revised revision results flow other)
    (weaken : ∀ one two, results one two → weaker one two) :
    Revised revision weaker flow other := by
  rw [← Flow.bind_finish flow, ← Flow.bind_finish other]
  exact revised.bind fun one two same => .finish (weaken one two same)

theorem refl (flow : Flow σ α) : Revised revision Eq flow flow := by
  induction flow with
  | finish => exact .finish rfl
  | fail error => exact .fail error
  | bottomless => exact .bottomless
  | emit _ _ ih => exact .emit ih
  | call _ _ _ ih => exact .call ih
  | round _ ih => exact .round ih
  | poll _ ih => exact .poll ih

/-- The same flow on both sides, and what comes after it. -/
theorem after (flow : Flow σ γ) {next : γ → Flow σ α} {follow : γ → Flow σ β}
    (second : ∀ result, Revised revision results (next result) (follow result)) :
    Revised revision results (flow >>= next) (flow >>= follow) := by
  refine (refl flow).bind ?_
  rintro result _ rfl
  exact second result

theorem emitAll {texts others : List String} (same : revision.Texts texts others) :
    Revised revision (fun _ _ => True) (Flow.emitAll texts : Flow σ Unit)
      (Flow.emitAll others) := by
  induction same with
  | nil => exact .finish True.intro
  | cons text _ ih => exact .emit fun _ => ih
  | split allowed one two _ ih => exact .split allowed one two rfl ih

/-! ## Adaptors -/

/-- An adaptor keeps flows revised, in states that belong together, if it does so for a chunk and
for two pieces of one. -/
theorem through {S κ : Type} {take : S → String → Flow σ (S × Bool)} {tell : S → κ}
    {adapt : {α : Type} → S → Flow σ α → Flow σ (α × κ)} (adaptor : Adaptor take tell adapt)
    (states : S → S → Prop) {related : κ → κ → Prop}
    (told : ∀ state later, states state later → related (tell state) (tell later))
    (takes : ∀ state later chunk, states state later →
      Revised revision (fun one two => states one.1 two.1 ∧ one.2 = two.2) (take state chunk)
        (take later chunk))
    (pieces : ∀ state later one two resume next follow, states state later → revision.splits →
      Inline one → Inline two → next false = .emit two follow →
      (∀ state later, states state later →
        Revised revision (fun one two => results one.1 two.1 ∧ related one.2 two.2)
          (adapt state (resume false)) (adapt later (follow false))) →
      Revised revision (fun one two => results one.1 two.1 ∧ related one.2 two.2)
        (adapt state (.emit (one ++ two) resume)) (adapt later (.emit one next)))
    (revised : Revised revision results flow other) {state later : S}
    (same : states state later) :
    Revised revision (fun one two => results one.1 two.1 ∧ related one.2 two.2)
      (adapt state flow) (adapt later other) := by
  induction revised generalizing state later with
  | finish alike =>
    rw [adaptor.finish, adaptor.finish]
    exact .finish ⟨alike, told _ _ same⟩
  | fail error =>
    rw [adaptor.fail, adaptor.fail]
    exact .fail error
  | bottomless =>
    rw [adaptor.bottomless, adaptor.bottomless]
    exact .bottomless
  | emit _ ih =>
    rw [adaptor.emit, adaptor.emit]
    refine (takes state later _ same).bind ?_
    rintro ⟨state, atStart⟩ ⟨later, _⟩ ⟨same, rfl⟩
    exact ih atStart same
  | call _ ih =>
    rw [adaptor.call, adaptor.call]
    exact .call fun value => ih value same
  | round _ ih =>
    rw [adaptor.round, adaptor.round]
    exact .round fun go => ih go same
  | poll _ ih =>
    rw [adaptor.poll, adaptor.poll]
    exact .poll fun go => ih go same
  | drop allowed _ ih =>
    rw [adaptor.call]
    exact .drop allowed (ih same)
  | add allowed _ ih =>
    rw [adaptor.call]
    exact .add allowed (ih same)
  | unroll allowed _ ih =>
    rw [adaptor.round]
    exact .unroll allowed (ih same)
  | split allowed one two split _ ih =>
    -- The second piece meets the adaptor behind the first one, which is left to each adaptor.
    exact pieces _ _ _ _ _ _ _ same allowed one two split fun _ _ same => ih same
  | wait allowed _ ih =>
    rw [adaptor.poll]
    exact .wait allowed (ih same)

/-- In the same state the same chunk is taken in the same way. -/
theorem takes_eq {S : Type} {take : S → String → Flow σ (S × Bool)} (state later : S)
    (chunk : String) (same : state = later) :
    Revised revision (fun one two => one.1 = two.1 ∧ one.2 = two.2) (take state chunk)
      (take later chunk) := by
  subst same
  refine (refl (take state chunk)).mono ?_
  rintro one _ rfl
  exact ⟨rfl, rfl⟩

/-- Chunks at the beginning of both sides, with their indentation. -/
theorem emitIndented (indentation : Option String) (atStart : Bool) {one two : String}
    {resume : Bool → Flow σ α} {follow : Bool → Flow σ β} (same : one.isEmpty = two.isEmpty)
    (rest : Revised revision results (.emit one resume) (.emit two follow)) :
    Revised revision results (Flow.emitIndented indentation atStart one resume)
      (Flow.emitIndented indentation atStart two follow) := by
  cases indentation with
  | none => exact rest
  | some text =>
    simp only [Flow.emitIndented, same]
    split
    · exact .emit fun _ => rest
    · exact rest

theorem begin (lead : String) (stage : LineStage) {next : Bool → Flow σ α}
    {follow : Bool → Flow σ β}
    (rest : ∀ atStart, Revised revision results (next atStart) (follow atStart)) :
    Revised revision results (stage.begin lead next) (stage.begin lead follow) := by
  cases stage with
  | fresh => exact .emit rest
  | begun atStart => exact rest atStart

theorem line (revised : Revised revision results flow other) (lead : String)
    (indentation : Option String) (stage : LineStage) :
    Revised revision (fun one two => results one.1 two.1 ∧ one.2 = two.2)
      (flow.line lead indentation stage) (other.line lead indentation stage) := by
  refine through (.line lead indentation) Eq (fun _ _ => congrArg _) takes_eq ?_ revised rfl
  rintro state _ one two resume next follow rfl allowed first second pieces rest
  have whole := first.append second
  simp only [Flow.line, whole.unbroken, first.unbroken, Bool.false_eq_true, if_false]
  refine .begin lead state fun atStart => .emitIndented indentation atStart ?_ ?_
  · rw [whole.visible, first.visible]
  -- Within the line, the second piece meets neither the lead nor the indentation.
  · have piece : (next false).line lead indentation (.begun false) =
        .emit two fun atStart => (follow atStart).line lead indentation (.begun atStart) := by
      rw [pieces, Flow.line, second.unbroken]
      cases indentation <;> rfl
    exact .split allowed first second piece (rest _ _ rfl)

theorem joined (revised : Revised revision results flow other) (separator : Option String)
    (hasContent : Bool) :
    Revised revision (fun one two => results one.1 two.1 ∧ one.2 = two.2)
      (flow.joined separator hasContent) (other.joined separator hasContent) := by
  refine through (.joined separator) Eq (fun _ _ => congrArg _) takes_eq ?_ revised rfl
  rintro state _ one two resume next follow rfl allowed first second pieces rest
  have whole := first.append second
  have pieces : (next false).joined separator true =
      .emit two fun atStart => (follow atStart).joined separator true := by
    rw [pieces, Flow.joined, second.unbroken]
    rfl
  simp only [Flow.joined, whole.unbroken, first.unbroken, Bool.false_eq_true, if_false]
  cases (if state then none else separator) with
  | none => exact .split allowed first second pieces (rest _ _ rfl)
  | some text => exact .emit fun _ => .split allowed first second pieces (rest _ _ rfl)

theorem recordedAfter (revised : Revised revision results flow other) {kept others : List String}
    (same : revision.Texts kept.reverse others.reverse) :
    Revised revision (fun one two => results one.1 two.1 ∧ revision.Texts one.2 two.2)
      (flow.recordedAfter kept) (other.recordedAfter others) := by
  refine through .recordedAfter (fun kept others => revision.Texts kept.reverse others.reverse)
    (fun _ _ => id) ?_ ?_ revised same
  · intro kept others chunk same
    refine .emit fun atStart => .finish ⟨?_, rfl⟩
    simp only [List.reverse_cons]
    exact same.append (.refl [chunk])
  · intro kept others one two resume next follow same allowed first second pieces rest
    refine .split allowed first second (by rw [pieces]; rfl) (rest _ _ ?_)
    simp only [List.reverse_cons, List.append_assoc]
    exact same.append (.split allowed first second .nil)

theorem gatheredAfter (revised : Revised revision results flow other) (text : String)
    (atStart : Bool) :
    Revised revision (fun one two => results one.1 two.1 ∧ one.2 = two.2)
      (flow.gatheredAfter text atStart) (other.gatheredAfter text atStart) := by
  refine through .gatheredAfter Eq (fun _ _ => congrArg _) takes_eq ?_ revised
    (Eq.refl (text, atStart))
  rintro ⟨text, atStart⟩ _ one two resume next follow rfl allowed first second pieces rest
  have whole := first.append second
  refine .poll fun _ => ?_
  simp only [whole.visible, whole.unbroken, first.visible, first.unbroken, Bool.false_eq_true,
    if_false, pieces]
  -- The second piece lets the rendering be cancelled once more.
  refine .wait allowed ?_
  simp only [second.visible, second.unbroken, Bool.false_eq_true, if_false, String.append_assoc]
  exact rest (text ++ (one ++ two), false) _ rfl

end Flow.Revised

end Stencil
