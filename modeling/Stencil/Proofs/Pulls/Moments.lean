import Stencil.Render

/-! # What happens within a pull

Asked for an answer, a rendering goes from moment to moment until it has one.  It makes calls,
begins rounds, lets itself be cancelled, and drops empty chunks.  A moment at which an error is
raised is the last one: the error may be the flow's own, that of a call, or that of a limit.
-/

namespace Stencil

variable {σ α : Type}

/-- A flow in the middle of a rendering. -/
structure Moment (σ α : Type) where
  standing : Standing
  flow : Flow σ α
  host : σ

namespace Moment

/-- The rendering goes on to another moment, and makes these calls for it. -/
inductive Reaches (limits : Limits σ) : Moment σ α → List Invocation → Moment σ α → Prop where
  | here {moment : Moment σ α} : Reaches limits moment [] moment
  /-- After an empty chunk the rendering can be cancelled. -/
  | empty {standing : Standing} {chunk : String} {resume : Bool → Flow σ α} {host : σ}
      {calls : List Invocation} {last : Moment σ α} :
      chunk.isEmpty →
      Reaches limits ⟨standing, .poll fun _ => resume standing.atStart, host⟩ calls last →
      Reaches limits ⟨standing, .emit chunk resume, host⟩ calls last
  | call {standing : Standing} {callable : Host.Callable σ} {invocation : Invocation}
      {resume : Value → Flow σ α} {host after : σ} {value : Value} {calls : List Invocation}
      {last : Moment σ α} :
      (callable.run invocation.bindings).run host = (.ok value, after) →
      Reaches limits ⟨standing, resume value, after⟩ calls last →
      Reaches limits ⟨standing, .call callable invocation resume, host⟩ (invocation :: calls) last
  | round {standing after : Standing} {resume : Unit → Flow σ α} {host : σ}
      {calls : List Invocation} {last : Moment σ α} :
      standing.afterRound limits = .ok after →
      Reaches limits ⟨after, resume (), host⟩ calls last →
      Reaches limits ⟨standing, .round resume, host⟩ calls last
  | poll {standing : Standing} {resume : Unit → Flow σ α} {host : σ} {calls : List Invocation}
      {last : Moment σ α} :
      ¬limits.isCancelled host →
      Reaches limits ⟨standing, resume (), host⟩ calls last →
      Reaches limits ⟨standing, .poll resume, host⟩ calls last

/-- An error is raised, with the calls that are made for it and the host afterwards. -/
inductive Raises (limits : Limits σ) :
    Moment σ α → List Invocation → RenderError → σ → Prop where
  | fail {standing : Standing} {error : RenderError} {host : σ} :
      Raises limits ⟨standing, .fail error, host⟩ [] error host
  | call {standing : Standing} {callable : Host.Callable σ} {invocation : Invocation}
      {resume : Value → Flow σ α} {host after : σ} {error : RenderError} :
      (callable.run invocation.bindings).run host = (.error error, after) →
      Raises limits ⟨standing, .call callable invocation resume, host⟩ [invocation] error after
  | round {standing : Standing} {resume : Unit → Flow σ α} {host : σ} {error : RenderError} :
      standing.afterRound limits = .error error →
      Raises limits ⟨standing, .round resume, host⟩ [] error host
  | cancelled {standing : Standing} {resume : Unit → Flow σ α} {host : σ} :
      limits.isCancelled host →
      Raises limits ⟨standing, .poll resume, host⟩ [] .cancelled host

/-- The next answer. -/
def pull (limits : Limits σ) (moment : Moment σ Progress) : Pulled σ :=
  moment.flow.pull limits moment.standing moment.host

variable {limits : Limits σ}

theorem pull_empty {standing : Standing} {chunk : String} (empty : chunk.isEmpty)
    (resume : Bool → Flow σ Progress) (host : σ) :
    (Moment.mk standing (.emit chunk resume) host).pull limits =
      (Moment.mk standing (.poll fun _ => resume standing.atStart) host).pull limits := by
  simp [pull, Flow.pull, Standing.afterChunk, empty]

/-! ## Errors raised and errors answered -/

/-- What is answered at a later moment of a pull is the answer, behind all calls up to then. -/
theorem Reaches.pull {moment last : Moment σ Progress} {calls : List Invocation}
    (reaches : moment.Reaches limits calls last) :
    moment.pull limits =
      { last.pull limits with calls := calls ++ (last.pull limits).calls } := by
  induction reaches with
  | here => rfl
  | empty empty _ ih => exact (pull_empty empty _ _).trans ih
  | call ran _ ih =>
    rw [Moment.pull, Flow.pull, ran]
    exact congrArg (Pulled.afterCall _) ih
  | round begun _ ih =>
    rw [Moment.pull, Flow.pull, begun]
    exact ih
  | poll going _ ih =>
    rw [Moment.pull, Flow.pull, if_neg going]
    exact ih

theorem Raises.pull {moment : Moment σ Progress} {calls : List Invocation} {error : RenderError}
    {host : σ} (raises : moment.Raises limits calls error host) :
    moment.pull limits = ⟨calls, .error error, .finished, host⟩ := by
  cases raises with
  | fail => rfl
  | call ran =>
    rw [Moment.pull, Flow.pull, ran]
    rfl
  | round refused =>
    rw [Moment.pull, Flow.pull, refused]
    rfl
  | cancelled cancelled =>
    rw [Moment.pull, Flow.pull, if_pos cancelled]
    rfl

/-! ## What a pull comes to -/

/-- The last moment of a pull, and what is answered at it. -/
inductive Concludes (limits : Limits σ) : Moment σ Progress → Pulled σ → Prop where
  | chunk {standing : Standing} {chunk : String} {resume : Bool → Flow σ Progress} {host : σ} :
      ¬chunk.isEmpty →
      Concludes limits ⟨standing, .emit chunk resume, host⟩
        ⟨[], .chunk chunk, .suspended limits (standing.afterChunk chunk)
          fun _ => resume (standing.afterChunk chunk).atStart, host⟩
  | error {moment : Moment σ Progress} {calls : List Invocation} {error : RenderError} {host : σ} :
      moment.Raises limits calls error host →
      Concludes limits moment ⟨calls, .error error, .finished, host⟩
  | complete {standing : Standing} {progress : Progress} {host : σ} :
      Concludes limits ⟨standing, .finish progress, host⟩ (.last .ended host)
  | bottomless {standing : Standing} {host : σ} :
      Concludes limits ⟨standing, .bottomless, host⟩ (.last .ended host)

/-- A pull reaches a moment at which it is concluded. -/
inductive Arrives (limits : Limits σ) (moment : Moment σ Progress) (pulled : Pulled σ) : Prop where
  | intro {calls : List Invocation} {last : Moment σ Progress} {final : Pulled σ} :
      moment.Reaches limits calls last → last.Concludes limits final →
      pulled = { final with calls := calls ++ final.calls } → Arrives limits moment pulled

theorem Arrives.here {moment : Moment σ Progress} {pulled : Pulled σ}
    (concludes : moment.Concludes limits pulled) : moment.Arrives limits pulled :=
  .intro .here concludes rfl

theorem Arrives.raised {moment : Moment σ Progress} {calls : List Invocation}
    {error : RenderError} {host : σ} (raises : moment.Raises limits calls error host) :
    moment.Arrives limits ⟨calls, .error error, .finished, host⟩ :=
  .here (.error raises)

theorem pull_arrives (flow : Flow σ Progress) (standing : Standing) (host : σ) :
    (Moment.mk standing flow host).Arrives limits (flow.pull limits standing host) := by
  induction flow generalizing standing host with
  | finish => exact .here .complete
  | bottomless => exact .here .bottomless
  | fail error => exact .raised .fail
  | emit chunk resume ih =>
    by_cases empty : chunk.isEmpty
    -- An empty chunk is passed as if the rendering were only polled.
    · have same : (Flow.emit chunk resume).pull limits standing host =
          (Flow.poll fun _ => resume standing.atStart).pull limits standing host :=
        pull_empty empty resume host
      rw [same, Flow.pull]
      by_cases cancelled : limits.isCancelled host
      · rw [if_pos cancelled]
        exact .intro (.empty empty .here) (.error (.cancelled cancelled)) rfl
      · rw [if_neg cancelled]
        obtain ⟨reaches, concludes, same⟩ := ih standing.atStart standing host
        exact .intro (.empty empty (.poll cancelled reaches)) concludes same
    · rw [Flow.pull, if_neg empty]
      exact .here (.chunk empty)
  | call callable invocation resume ih =>
    rw [Flow.pull]
    rcases ran : (callable.run invocation.bindings).run host with ⟨outcome, later⟩
    cases outcome with
    | error error => exact .raised (.call ran)
    | ok value =>
      obtain ⟨reaches, concludes, same⟩ := ih value standing later
      exact .intro (.call ran reaches) concludes (congrArg (Pulled.afterCall invocation) same)
  | round resume ih =>
    rw [Flow.pull]
    cases begun : standing.afterRound limits with
    | error error => exact .raised (.round begun)
    | ok later =>
      obtain ⟨reaches, concludes, same⟩ := ih () later host
      exact .intro (.round begun reaches) concludes same
  | poll resume ih =>
    rw [Flow.pull]
    by_cases cancelled : limits.isCancelled host
    · rw [if_pos cancelled]
      exact .raised (.cancelled cancelled)
    · rw [if_neg cancelled]
      obtain ⟨reaches, concludes, same⟩ := ih () standing host
      exact .intro (.poll cancelled reaches) concludes same

/-- Every error that is answered has been raised in the course of the pull. -/
theorem Arrives.raises {moment : Moment σ Progress} {pulled : Pulled σ}
    (arrives : moment.Arrives limits pulled) {error : RenderError}
    (answered : pulled.answer = .error error) :
    ∃ calls last made after, moment.Reaches limits calls last ∧
      last.Raises limits made error after ∧
      pulled = ⟨calls ++ made, .error error, .finished, after⟩ := by
  obtain ⟨reaches, concludes, rfl⟩ := arrives
  cases concludes with
  | error raises =>
    cases answered
    exact ⟨_, _, _, _, reaches, raises, rfl⟩
  | chunk | complete | bottomless => cases answered

end Moment

end Stencil
