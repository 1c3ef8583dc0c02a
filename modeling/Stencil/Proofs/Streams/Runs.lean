import Stencil.Proofs.Eager.Push

/-! # Runs of flows

A run is all that a flow does until it ends: the chunks it puts out and what it is told after each
of them, the calls and what comes of them, the rounds it begins.  A flow has many runs, one for
everything that it may be told.  Where it begins a round or lets itself be cancelled, a run may be
interrupted.
-/

namespace Stencil

variable {σ α β : Type}

namespace Flow

/-- Something that a flow does, and what it is told. -/
inductive Step (σ : Type) where
  | chunk (text : String) (atStart : Bool)
  | call (callable : Host.Callable σ) (invocation : Invocation)
      (outcome : Except RenderError Value)
  | round
  | poll

/-- How a run ends. -/
inductive Outcome (α : Type) where
  | finished (result : α)
  | failed (error : RenderError)
  | bottomless
  /-- The run is ended from outside, ahead of a round or where the flow lets itself be cancelled. -/
  | interrupted (error : RenderError)

inductive Runs : Flow σ α → List (Step σ) → Outcome α → Prop where
  | finish (result : α) : Runs (.finish result) [] (.finished result)
  | fail (error : RenderError) : Runs (.fail error) [] (.failed error)
  | bottomless : Runs .bottomless [] .bottomless
  | emit {chunk : String} {resume : Bool → Flow σ α} {steps : List (Step σ)}
      {outcome : Outcome α} (atStart : Bool) :
      Runs (resume atStart) steps outcome →
      Runs (.emit chunk resume) (.chunk chunk atStart :: steps) outcome
  | call {callable : Host.Callable σ} {invocation : Invocation} {resume : Value → Flow σ α}
      {steps : List (Step σ)} {outcome : Outcome α} (value : Value) :
      Runs (resume value) steps outcome →
      Runs (.call callable invocation resume) (.call callable invocation (.ok value) :: steps)
        outcome
  | refused {callable : Host.Callable σ} {invocation : Invocation} {resume : Value → Flow σ α}
      (error : RenderError) :
      Runs (.call callable invocation resume) [.call callable invocation (.error error)]
        (.failed error)
  | round {resume : Unit → Flow σ α} {steps : List (Step σ)} {outcome : Outcome α} :
      Runs (resume ()) steps outcome → Runs (.round resume) (.round :: steps) outcome
  | forbidden {resume : Unit → Flow σ α} (error : RenderError) :
      Runs (.round resume) [] (.interrupted error)
  | poll {resume : Unit → Flow σ α} {steps : List (Step σ)} {outcome : Outcome α} :
      Runs (resume ()) steps outcome → Runs (.poll resume) (.poll :: steps) outcome
  | cancelled {resume : Unit → Flow σ α} (error : RenderError) :
      Runs (.poll resume) [] (.interrupted error)

/-! ## Outcomes -/

namespace Outcome

def map (change : α → β) : Outcome α → Outcome β
  | finished result => .finished (change result)
  | failed error => .failed error
  | bottomless => .bottomless
  | interrupted error => .interrupted error

/-- The ways in which a run can end without a result. -/
inductive Cut : Outcome α → Outcome β → Prop where
  | failed (error : RenderError) : Cut (.failed error) (.failed error)
  | bottomless : Cut .bottomless .bottomless
  | interrupted (error : RenderError) : Cut (.interrupted error) (.interrupted error)

theorem Cut.of_map {change : α → β} {outcome : Outcome α} {γ : Type} {other : Outcome γ}
    (cut : Cut (outcome.map change) other) : Cut outcome other := by
  cases outcome <;> cases cut <;> constructor

theorem Cut.eq {one other : Outcome α} (cut : Cut one other) : one = other := by
  cases cut <;> rfl

theorem eq_finished_of_map {change : α → β} {outcome : Outcome α} {result : β}
    (finished : outcome.map change = .finished result) :
    ∃ inner, outcome = .finished inner ∧ change inner = result := by
  cases outcome <;> cases finished
  exact ⟨_, rfl, rfl⟩

end Outcome

/-! ## One flow after another -/

namespace Runs

/-- Either the first flow comes to a result and the other one goes on, or the run ends early. -/
theorem of_bind {flow : Flow σ α} {next : α → Flow σ β} {steps : List (Step σ)}
    {outcome : Outcome β} (runs : (flow >>= next).Runs steps outcome) :
    (∃ before after result, steps = before ++ after ∧ flow.Runs before (.finished result) ∧
        (next result).Runs after outcome) ∨
      ∃ early, flow.Runs steps early ∧ early.Cut outcome := by
  change (flow.bind next).Runs steps outcome at runs
  -- Either the steps reach the result of the first flow, or the second one is never begun.
  induction flow generalizing steps with
  | finish result => exact .inl ⟨[], steps, result, rfl, .finish result, runs⟩
  | fail error =>
    cases runs
    exact .inr ⟨_, .fail error, .failed error⟩
  | bottomless =>
    cases runs
    exact .inr ⟨_, .bottomless, .bottomless⟩
  | emit chunk resume ih =>
    cases runs with
    | emit atStart runs =>
      obtain ⟨before, after, result, rfl, first, second⟩ | ⟨early, first, cut⟩ := ih atStart runs
      · exact .inl ⟨_ :: before, after, result, rfl, .emit atStart first, second⟩
      · exact .inr ⟨early, .emit atStart first, cut⟩
  | call callable invocation resume ih =>
    cases runs with
    | call value runs =>
      obtain ⟨before, after, result, rfl, first, second⟩ | ⟨early, first, cut⟩ := ih value runs
      · exact .inl ⟨_ :: before, after, result, rfl, .call value first, second⟩
      · exact .inr ⟨early, .call value first, cut⟩
    | refused error => exact .inr ⟨_, .refused error, .failed error⟩
  | round resume ih =>
    cases runs with
    | round runs =>
      obtain ⟨before, after, result, rfl, first, second⟩ | ⟨early, first, cut⟩ := ih () runs
      · exact .inl ⟨_ :: before, after, result, rfl, .round first, second⟩
      · exact .inr ⟨early, .round first, cut⟩
    | forbidden error => exact .inr ⟨_, .forbidden error, .interrupted error⟩
  | poll resume ih =>
    cases runs with
    | poll runs =>
      obtain ⟨before, after, result, rfl, first, second⟩ | ⟨early, first, cut⟩ := ih () runs
      · exact .inl ⟨_ :: before, after, result, rfl, .poll first, second⟩
      · exact .inr ⟨early, .poll first, cut⟩
    | cancelled error => exact .inr ⟨_, .cancelled error, .interrupted error⟩

end Runs

/-- The flows of a sequence are run one after another, each with the progress that the one before
it has come to, up to the first one that comes to no result.  The turns are the steps of each. -/
inductive RunsInTurn {progress : Type} :
    List (progress → Flow σ progress) → progress → List (List (Step σ)) → Outcome progress → Prop
  where
  | done (made : progress) : RunsInTurn [] made [] (.finished made)
  | next {flow : progress → Flow σ progress} {flows : List (progress → Flow σ progress)}
      {before after : progress} {turn : List (Step σ)} {turns : List (List (Step σ))}
      {outcome : Outcome progress} :
      (flow before).Runs turn (.finished after) → RunsInTurn flows after turns outcome →
      RunsInTurn (flow :: flows) before (turn :: turns) outcome
  | last {flow : progress → Flow σ progress} {flows : List (progress → Flow σ progress)}
      {before : progress} {turn : List (Step σ)} {outcome : Outcome progress} :
      (flow before).Runs turn outcome → outcome.Cut outcome →
      RunsInTurn (flow :: flows) before [turn] outcome

end Flow

/-! ## Chunks -/

namespace Flow.Step

/-- What a step puts out. -/
def text? : Step σ → Option String
  | chunk text _ => some text
  | call .. | round | poll => none

/-- A chunk is content unless it is a newline, and content also if it is empty. -/
def isContent : Step σ → Bool
  | chunk text _ => !isNewline text
  | call .. | round | poll => false

end Flow.Step

namespace Flow

def chunksOf (steps : List (Step σ)) : List String :=
  steps.filterMap Step.text?

theorem chunksOf_append (steps others : List (Step σ)) :
    chunksOf (steps ++ others) = chunksOf steps ++ chunksOf others :=
  List.filterMap_append ..

end Flow

end Stencil
