import Stencil.Proofs.Accounts
import Stencil.Proofs.Streams.Runs

/-! # Courses of renderings

The course of a flow is the run that it takes on a host, from one standing on and under some
limits.  It has everything that an account tells, and also what no reader can see: empty chunks,
the rounds that begin, and the moments at which the flow might have been cancelled.
-/

namespace Stencil

open Eager (Surroundings)

variable {σ α : Type}

structure Course (σ α : Type) where
  steps : List (Flow.Step σ)
  outcome : Flow.Outcome α
  host : σ

namespace Course

def last (outcome : Flow.Outcome α) (host : σ) : Course σ α :=
  ⟨[], outcome, host⟩

def after (step : Flow.Step σ) (course : Course σ α) : Course σ α :=
  { course with steps := step :: course.steps }

end Course

/-- The course of a flow, given how many chunks there have been before. -/
def Flow.course (around : Surroundings σ) :
    (answered : Nat) → Standing → Flow σ α → σ → Course σ α
  | _, _, .finish result, host => .last (.finished result) host
  | _, _, .bottomless, host => .last .bottomless host
  | _, _, .fail error, host => .last (.failed error) host
  | answered, standing, .emit chunk resume, host =>
    let standing := standing.afterChunk chunk
    Course.after (.chunk chunk standing.atStart) <|
      if chunk.isEmpty then
        if around.isCancelled host then .last (.interrupted .cancelled) host
        else (resume standing.atStart).course around answered standing host
      else
        let host := around.meanwhile answered host
        if around.isCancelled host then .last (.interrupted .cancelled) host
        else (resume standing.atStart).course around (answered + 1) standing host
  | answered, standing, .call callable invocation resume, host =>
    match (callable.run invocation.bindings).run host with
    | (.ok value, host) =>
      ((resume value).course around answered standing host).after
        (.call callable invocation (.ok value))
    | (.error error, host) =>
      (Course.last (.failed error) host).after (.call callable invocation (.error error))
  | answered, standing, .round resume, host =>
    match standing.afterRound around.toLimits with
    | .ok standing => ((resume ()).course around answered standing host).after .round
    | .error error => .last (.interrupted error) host
  | answered, standing, .poll resume, host =>
    if around.isCancelled host then .last (.interrupted .cancelled) host
    else ((resume ()).course around answered standing host).after .poll

/-! ## What an account tells of a course -/

namespace Flow

def Step.seen? : Step σ → Option (Entry σ)
  | .chunk text _ => if text.isEmpty then none else some (.chunk text)
  | .call callable invocation outcome => some (.call callable invocation outcome)
  | .round | .poll => none

def Outcome.ending : Outcome α → Ending
  | .finished _ => .complete
  | .failed error | .interrupted error => .failed error
  | .bottomless => .bottomless

end Flow

def Course.account (course : Course σ α) : Account σ :=
  ⟨course.steps.filterMap Flow.Step.seen?, course.outcome.ending, course.host⟩

theorem Course.account_seen {step : Flow.Step σ} {entry : Entry σ} (seen : step.seen? = some entry)
    (course : Course σ α) : (course.after step).account = course.account.after entry := by
  rw [account, after, List.filterMap_cons_some seen]
  rfl

theorem Course.account_unseen {step : Flow.Step σ} (unseen : step.seen? = none)
    (course : Course σ α) : (course.after step).account = course.account := by
  rw [account, after, List.filterMap_cons_none unseen]
  rfl

theorem Flow.course_account (around : Surroundings σ) (flow : Flow σ α) (answered : Nat)
    (standing : Standing) (host : σ) :
    (flow.course around answered standing host).account =
      flow.account around answered standing host := by
  induction flow generalizing answered standing host with
  | finish | fail | bottomless => rfl
  | emit chunk resume ih =>
    by_cases empty : chunk.isEmpty
    · have unseen atStart : (Step.chunk chunk atStart : Step σ).seen? = none := if_pos empty
      simp only [course, account, empty, if_true, Course.account_unseen (unseen _), ← ih]
      split <;> rfl
    · have seen atStart : (Step.chunk chunk atStart : Step σ).seen? = some (.chunk chunk) :=
        if_neg empty
      simp only [course, account, empty, Bool.false_eq_true, if_false,
        Course.account_seen (seen _), ← ih]
      split <;> rfl
  | call callable invocation resume ih =>
    simp only [course, account]
    rcases (callable.run invocation.bindings).run host with ⟨outcome, host⟩
    cases outcome with
    | ok value => exact congrArg (Account.after _) (ih value answered standing host)
    | error error => rfl
  | round resume ih =>
    simp only [course, account]
    cases standing.afterRound around.toLimits with
    | ok standing => exact ih () answered standing host
    | error error => rfl
  | poll resume ih =>
    simp only [course, account]
    split
    · rfl
    · exact ih () answered standing host

/-! ## What a course is told -/

/-- No chunk begins a round. -/
theorem Standing.iterations_afterChunk (standing : Standing) (chunk : String) :
    (standing.afterChunk chunk).iterations = standing.iterations := by
  rw [afterChunk]
  split <;> rfl

/-- Where the output stands within its line does not depend on the rounds that have begun. -/
theorem Standing.atStart_afterChunk {standing other : Standing}
    (same : standing.atStart = other.atStart) (chunk : String) :
    (standing.afterChunk chunk).atStart = (other.afterChunk chunk).atStart := by
  simp only [afterChunk]
  split
  · exact same
  · rfl

namespace Flow

/-- After every chunk a flow is told where the output then stands, if it began at a standing. -/
def Heard : Standing → List (Step σ) → Prop
  | _, [] => True
  | standing, .chunk text atStart :: steps =>
    atStart = (standing.afterChunk text).atStart ∧ Heard (standing.afterChunk text) steps
  | standing, .call .. :: steps | standing, .round :: steps | standing, .poll :: steps =>
    Heard standing steps

/-- The rounds that have begun do not matter. -/
theorem Heard.restart {standing other : Standing} {steps : List (Step σ)}
    (heard : Heard standing steps) (same : standing.atStart = other.atStart) :
    Heard other steps := by
  induction steps generalizing standing other with
  | nil => exact True.intro
  | cons step steps ih =>
    cases step with
    | chunk text atStart =>
      have later := Standing.atStart_afterChunk same text
      exact ⟨heard.1.trans later, ih heard.2 later⟩
    | call | round | poll => exact ih heard same

theorem Heard.append {standing : Standing} {before after : List (Step σ)}
    (heard : Heard standing (before ++ after)) :
    Heard ((chunksOf before).foldl Standing.afterChunk standing) after := by
  induction before generalizing standing with
  | nil => exact heard
  | cons step before ih =>
    cases step with
    | chunk text atStart => exact ih heard.2
    | call | round | poll => exact ih heard

/-- An empty chunk is told what the chunk before it has been told. -/
theorem Heard.marker {standing : Standing} {before after : List (Step σ)} {text : String}
    {heard atStart : Bool}
    (told : Heard standing (before ++ .chunk text heard :: .chunk "" atStart :: after)) :
    atStart = heard ∧ (text ≠ "" → heard = isNewline text) := by
  obtain ⟨rfl, rfl, -⟩ := told.append
  refine ⟨rfl, fun visible => ?_⟩
  have nonempty : ¬text.isEmpty := by rwa [String.isEmpty_iff]
  rw [Standing.afterChunk, if_neg nonempty]

end Flow

/-- In a course everything is told as it is. -/
theorem Flow.course_heard (around : Surroundings σ) (flow : Flow σ α) (answered : Nat)
    (standing : Standing) (host : σ) :
    Heard standing (flow.course around answered standing host).steps := by
  induction flow generalizing answered standing host with
  | finish | fail | bottomless => exact True.intro
  | emit chunk resume ih =>
    simp only [course]
    refine ⟨rfl, ?_⟩
    split <;> split
    · exact True.intro
    · exact ih _ _ _ _
    · exact True.intro
    · exact ih _ _ _ _
  | call callable invocation resume ih =>
    simp only [course]
    rcases (callable.run invocation.bindings).run host with ⟨outcome, host⟩
    cases outcome with
    | ok value => exact ih value _ _ _
    | error error => exact True.intro
  | round resume ih =>
    simp only [course]
    cases begun : standing.afterRound around.toLimits with
    | ok later => exact (ih () answered later host).restart (Eager.atStart_of_afterRound begun)
    | error error => exact True.intro
  | poll resume ih =>
    simp only [course]
    split
    · exact True.intro
    · exact ih () _ _ _

/-! ## Courses are runs -/

/-- A course that nobody cancels is a run. -/
theorem Flow.course_runs {around : Surroundings σ}
    (uncancelled : ∀ host, around.isCancelled host = false) (flow : Flow σ α) (answered : Nat)
    (standing : Standing) (host : σ) :
    flow.Runs (flow.course around answered standing host).steps
      (flow.course around answered standing host).outcome := by
  induction flow generalizing answered standing host with
  | finish result => exact .finish result
  | fail error => exact .fail error
  | bottomless => exact .bottomless
  | emit chunk resume ih =>
    simp only [course, uncancelled, Bool.false_eq_true, if_false]
    split
    · exact .emit _ (ih _ _ _ _)
    · exact .emit _ (ih _ _ _ _)
  | call callable invocation resume ih =>
    simp only [course]
    rcases (callable.run invocation.bindings).run host with ⟨outcome, host⟩
    cases outcome with
    | ok value => exact .call value (ih _ _ _ _)
    | error error => exact .refused error
  | round resume ih =>
    simp only [course]
    cases standing.afterRound around.toLimits with
    | ok standing => exact .round (ih _ _ _ _)
    | error error => exact .forbidden error
  | poll resume ih =>
    simp only [course, uncancelled, Bool.false_eq_true, if_false]
    exact .poll (ih _ _ _ _)

/-- What is rendered of a flow is one of its runs, in which everything is told as it is. -/
structure Flow.Rendered (flow : Flow σ α) (around : Surroundings σ) (answered : Nat)
    (standing : Standing) (host : σ) : Prop where
  runs : flow.Runs (flow.course around answered standing host).steps
    (flow.course around answered standing host).outcome
  heard : Heard standing (flow.course around answered standing host).steps
  account : (flow.course around answered standing host).account =
    flow.account around answered standing host

theorem Flow.rendered {around : Surroundings σ}
    (uncancelled : ∀ host, around.isCancelled host = false) (flow : Flow σ α) (answered : Nat)
    (standing : Standing) (host : σ) : flow.Rendered around answered standing host :=
  ⟨flow.course_runs uncancelled answered standing host, course_heard .., course_account ..⟩

end Stencil
