import Mathlib.Data.List.Forall2
import Stencil.Proofs.Adaptors
import Stencil.Render

/-! # Two flows side by side

Two flows are alike if they do the same things in the same order, as far as some likeness asks:
chunks may be written differently, and the first flow may be cut off where the other one goes on,
by an error or because its includes are nested too deeply.  What decides about layout, whether a
chunk is a newline and whether it is empty, is the same on both sides.  So every adaptor of chunk
streams keeps flows alike.

A likeness can also be asked of one flow by itself, which is then alike to itself: all its chunks
are kept by the likeness, as long as calls are answered as it says.
-/

namespace Stencil

variable {σ α β γ δ : Type}

/-- What two renderings may differ in. -/
structure Likeness (σ : Type) where
  /-- The answers of calls that are followed. -/
  answers : Host.Callable σ → Invocation → Value → Prop
  /-- Chunks that stand for each other. -/
  chunk : String → String → Prop
  /-- Ways of ending that may cut the first rendering off. -/
  cut : Ending → Prop
  /-- Whether includes may be nested more deeply than what is unfolded. -/
  deep : Prop
  blank : chunk "" ""
  newline : ∀ {one other}, chunk one other → isNewline one = isNewline other
  empty : ∀ {one other}, chunk one other → one.isEmpty = other.isEmpty

namespace Likeness

/-- Both renderings may put out the text. -/
abbrev Keeps (like : Likeness σ) (text : String) : Prop :=
  like.chunk text text

/-- Both renderings put out the same chunks. -/
def Exact (like : Likeness σ) : Prop :=
  ∀ one other, like.chunk one other ↔ one = other

abbrev Chunks (like : Likeness σ) : List String → List String → Prop :=
  List.Forall₂ like.chunk

/-- Both renderings put out the same chunks, until the first one is cut off. -/
def same (cut : Ending → Prop) (deep : Prop) : Likeness σ where
  answers _ _ _ := True
  chunk := Eq
  cut
  deep
  blank := rfl
  newline equal := congrArg isNewline equal
  empty equal := congrArg String.isEmpty equal

theorem same_exact (cut : Ending → Prop) (deep : Prop) : (same (σ := σ) cut deep).Exact :=
  fun _ _ => Iff.rfl

theorem Exact.chunks {like : Likeness σ} (precise : like.Exact) (texts : List String) :
    like.Chunks texts texts :=
  List.forall₂_same.2 fun text _ => (precise text text).2 rfl

end Likeness

inductive Flow.Alike (like : Likeness σ) (results : α → β → Prop) :
    Flow σ α → Flow σ β → Prop where
  | failing {error : RenderError} {other : Flow σ β} :
      like.cut (.failed error) → Alike like results (.fail error) other
  | sinking {other : Flow σ β} : like.cut .bottomless → Alike like results .bottomless other
  | finish {result : α} {other : β} :
      results result other → Alike like results (.finish result) (.finish other)
  | fail (error : RenderError) : Alike like results (.fail error) (.fail error)
  | bottomless : like.deep → Alike like results .bottomless .bottomless
  | emit {one other : String} {resume : Bool → Flow σ α} {follow : Bool → Flow σ β} :
      like.chunk one other → (∀ atStart, Alike like results (resume atStart) (follow atStart)) →
      Alike like results (.emit one resume) (.emit other follow)
  | call {callable : Host.Callable σ} {invocation : Invocation} {resume : Value → Flow σ α}
      {follow : Value → Flow σ β} :
      (∀ value, like.answers callable invocation value →
        Alike like results (resume value) (follow value)) →
      Alike like results (.call callable invocation resume) (.call callable invocation follow)
  | round {resume : Unit → Flow σ α} {follow : Unit → Flow σ β} :
      (∀ go, Alike like results (resume go) (follow go)) →
      Alike like results (.round resume) (.round follow)
  | poll {resume : Unit → Flow σ α} {follow : Unit → Flow σ β} :
      (∀ go, Alike like results (resume go) (follow go)) →
      Alike like results (.poll resume) (.poll follow)

namespace Flow.Alike

variable {like : Likeness σ} {results : α → β → Prop} {flow : Flow σ α} {other : Flow σ β}

theorem bind {next : α → Flow σ γ} {follow : β → Flow σ δ} {last : γ → δ → Prop}
    (first : Alike like results flow other)
    (second : ∀ one two, results one two → Alike like last (next one) (follow two)) :
    Alike like last (flow >>= next) (other >>= follow) := by
  induction first with
  | failing allowed => exact .failing allowed
  | sinking allowed => exact .sinking allowed
  | finish same => exact second _ _ same
  | fail error => exact .fail error
  | bottomless deep => exact .bottomless deep
  | emit same _ ih => exact .emit same ih
  | call _ ih => exact .call ih
  | round _ ih => exact .round ih
  | poll _ ih => exact .poll ih

theorem mono {weaker : α → β → Prop} (alike : Alike like results flow other)
    (weaken : ∀ one two, results one two → weaker one two) : Alike like weaker flow other := by
  rw [← Flow.bind_finish flow, ← Flow.bind_finish other]
  exact alike.bind fun one two same => .finish (weaken one two same)

/-- A flow is like itself, unless it sinks more deeply than it may. -/
theorem refl (precise : like.Exact) {flow : Flow σ α}
    (follows : flow.Follows ⟨fun _ _ => True, fun _ => True, like.deep⟩ fun _ => True) :
    Alike like Eq flow flow := by
  induction flow with
  | finish => exact .finish rfl
  | fail error => exact .fail error
  | bottomless => exact .bottomless follows
  | emit chunk resume ih =>
    exact .emit ((precise chunk chunk).2 rfl) fun atStart => ih atStart (follows atStart)
  | call callable invocation resume ih => exact .call fun value _ => ih value (follows.2 value)
  | round resume ih => exact .round fun go => ih go (follows go)
  | poll resume ih => exact .poll fun go => ih go (follows go)

theorem ofExcept {results : α → α → Prop} (refl : ∀ result, results result result)
    (result : Except RenderError α) :
    Alike like results (Flow.ofExcept result) (Flow.ofExcept result) := by
  cases result with
  | ok result => exact .finish (refl result)
  | error error => exact .fail error

theorem emitAll {texts others : List String} (same : like.Chunks texts others) :
    Alike like (fun _ _ => True) (Flow.emitAll texts) (Flow.emitAll others) := by
  induction same with
  | nil => exact .finish True.intro
  | cons first _ ih => exact .emit first fun _ => ih

/-! ## Adaptors -/

section Adaptors

variable {S κ : Type} {take : S → String → Flow σ (S × Bool)} {tell : S → κ}
  {adapt : {α : Type} → S → Flow σ α → Flow σ (α × κ)}

/-- An adaptor keeps flows alike, in states that belong together, if it takes chunks that are like
each other for chunks that are like each other. -/
theorem through (adaptor : Adaptor take tell adapt) (states : S → S → Prop)
    {related : κ → κ → Prop}
    (told : ∀ state later, states state later → related (tell state) (tell later))
    (takes : ∀ state later one two, states state later → like.chunk one two →
      Alike like (fun one two => states one.1 two.1 ∧ one.2 = two.2) (take state one)
        (take later two))
    (alike : Alike like results flow other) {state later : S} (same : states state later) :
    Alike like (fun one two => results one.1 two.1 ∧ related one.2 two.2) (adapt state flow)
      (adapt later other) := by
  induction alike generalizing state later with
  | failing allowed =>
    rw [adaptor.fail]
    exact .failing allowed
  | sinking allowed =>
    rw [adaptor.bottomless]
    exact .sinking allowed
  | finish alike =>
    rw [adaptor.finish, adaptor.finish]
    exact .finish ⟨alike, told _ _ same⟩
  | fail error =>
    rw [adaptor.fail, adaptor.fail]
    exact .fail error
  | bottomless deep =>
    rw [adaptor.bottomless, adaptor.bottomless]
    exact .bottomless deep
  | emit chunk _ ih =>
    rw [adaptor.emit, adaptor.emit]
    refine (takes state later _ _ same chunk).bind ?_
    rintro ⟨state, atStart⟩ ⟨later, _⟩ ⟨same, rfl⟩
    exact ih atStart same
  | call _ ih =>
    rw [adaptor.call, adaptor.call]
    exact .call fun value answered => ih value answered same
  | round _ ih =>
    rw [adaptor.round, adaptor.round]
    exact .round fun go => ih go same
  | poll _ ih =>
    rw [adaptor.poll, adaptor.poll]
    exact .poll fun go => ih go same

/-- If chunks have to be the same, every adaptor keeps flows alike. -/
theorem through_exact (precise : like.Exact) (adaptor : Adaptor take tell adapt)
    (alike : Alike like results flow other) (state : S) :
    Alike like (fun one two => results one.1 two.1 ∧ one.2 = two.2) (adapt state flow)
      (adapt state other) := by
  refine through adaptor Eq (fun _ _ => congrArg tell) ?_ alike rfl
  intro state _ chunk two same chunks
  cases same
  cases (precise chunk two).1 chunks
  refine (refl precise (adaptor.takes state chunk _)).mono ?_
  rintro one _ rfl
  exact ⟨rfl, rfl⟩

end Adaptors

/-- Chunks that are like each other have the same effect on where a line stands. -/
theorem emitIndented {one two : String} {indentation : Option String}
    (kept : ∀ text ∈ indentation, like.Keeps text) (atStart : Bool) (same : like.chunk one two)
    {resume : Bool → Flow σ α} {follow : Bool → Flow σ β}
    (rest : ∀ atStart, Alike like results (resume atStart) (follow atStart)) :
    Alike like results (Flow.emitIndented indentation atStart one resume)
      (Flow.emitIndented indentation atStart two follow) := by
  cases indentation with
  | none => exact .emit same rest
  | some text =>
    simp only [Flow.emitIndented, like.empty same]
    split
    · exact .emit (kept text rfl) fun _ => .emit same rest
    · exact .emit same rest

theorem begin {lead : String} (kept : like.Keeps lead) (stage : LineStage)
    {resume : Bool → Flow σ α} {follow : Bool → Flow σ β}
    (rest : ∀ atStart, Alike like results (resume atStart) (follow atStart)) :
    Alike like results (stage.begin lead resume) (stage.begin lead follow) := by
  cases stage with
  | fresh => exact .emit kept rest
  | begun atStart => exact rest atStart

theorem line (alike : Alike like results flow other) {lead : String} (led : like.Keeps lead)
    {indentation : Option String} (kept : ∀ text ∈ indentation, like.Keeps text)
    (stage : LineStage) :
    Alike like (fun one two => results one.1 two.1 ∧ one.2 = two.2)
      (flow.line lead indentation stage) (other.line lead indentation stage) := by
  refine through (.line lead indentation) Eq (fun _ _ => congrArg _) ?_ alike rfl
  rintro stage _ one two rfl same
  simp only [lineTake, like.newline same]
  split
  · exact .emit same fun atStart => .finish ⟨rfl, rfl⟩
  · exact .begin led stage fun atStart =>
      .emitIndented kept atStart same fun atStart => .finish ⟨rfl, rfl⟩

theorem joined (alike : Alike like results flow other) {separator : Option String}
    (kept : ∀ text ∈ separator, like.Keeps text) (hasContent : Bool) :
    Alike like (fun one two => results one.1 two.1 ∧ one.2 = two.2)
      (flow.joined separator hasContent) (other.joined separator hasContent) := by
  refine through (.joined separator) Eq (fun _ _ => congrArg _) ?_ alike rfl
  rintro hasContent _ one two rfl same
  simp only [joinedTake, like.newline same]
  split
  · exact .emit same fun atStart => .finish ⟨rfl, rfl⟩
  · cases hasContent with
    | true => exact .emit same fun atStart => .finish ⟨rfl, rfl⟩
    | false =>
      cases separator with
      | none => exact .emit same fun atStart => .finish ⟨rfl, rfl⟩
      | some text =>
        exact .emit (kept text rfl) fun _ => .emit same fun atStart => .finish ⟨rfl, rfl⟩

theorem recordedAfter (alike : Alike like results flow other) {kept others : List String}
    (same : like.Chunks kept others) :
    Alike like (fun one two => results one.1 two.1 ∧ like.Chunks one.2 two.2)
      (flow.recordedAfter kept) (other.recordedAfter others) :=
  through .recordedAfter like.Chunks (fun _ _ same => List.rel_reverse same)
    (fun _ _ _ _ same chunk => .emit chunk fun _ => .finish ⟨.cons chunk same, rfl⟩) alike same

theorem recorded (alike : Alike like results flow other) :
    Alike like (fun one two => results one.1 two.1 ∧ like.Chunks one.2 two.2)
      flow.recorded other.recorded :=
  alike.recordedAfter .nil

/-- Gathered texts end up in values, so the chunks have to be the same. -/
theorem gathered (precise : like.Exact) {body : Unit → Flow σ α} {others : Unit → Flow σ β}
    (alike : Alike like results (body ()) (others ())) :
    Alike like (fun one two => results one.1 two.1 ∧ one.2 = two.2)
      (Flow.gathered body) (Flow.gathered others) :=
  .poll fun _ => alike.through_exact precise .gatheredAfter ("", true)

end Flow.Alike

end Stencil
