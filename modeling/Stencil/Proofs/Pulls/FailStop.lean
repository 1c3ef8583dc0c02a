import Stencil.Proofs.Eager.Rendering
import Stencil.Proofs.Pulls.Nesting

/-! # Renderings stop at their first error

Asked again and again, a rendering answers chunks, then at most one error, and then nothing for
ever.  The error is the one that has been raised in the course of that answer, by a call or by any
construct however deeply nested, and no call is made after it.  What is left of a rendering can
also be collected into one text, which comes to the same.
-/

namespace Stencil

variable {σ : Type}

/-! ## Sequences of answers -/

/-- The answers of a rendering.  Ahead of each of them others change the host. -/
def Render.pulls : List (σ → σ) → Render σ → σ → List (Pulled σ)
  | [], _, _ => []
  | change :: changes, render, host =>
    let pulled := render.next (change host)
    pulled :: pulled.render.pulls changes pulled.host

/-- What is left of a rendering after so many answers. -/
def Render.left : List (σ → σ) → Render σ → σ → Render σ
  | [], render, _ => render
  | change :: changes, render, host =>
    let pulled := render.next (change host)
    pulled.render.left changes pulled.host

/-- An answer and those that follow it. -/
def Pulled.onward (changes : List (σ → σ)) (pulled : Pulled σ) : List (Pulled σ) :=
  pulled :: pulled.render.pulls changes pulled.host

/-- The moment at which a rendering is asked.  First of all it can be cancelled. -/
inductive Render.Asked : Render σ → σ → Limits σ → Moment σ Progress → Prop where
  | suspended {limits : Limits σ} {standing : Standing} {rest : Unit → Flow σ Progress}
      {host : σ} : Asked (.suspended limits standing rest) host limits ⟨standing, .poll rest, host⟩

/-- There are some chunks, none of them empty, then at most one error, and then nothing. -/
def Answer.Ordered (answers : List Answer) : Prop :=
  ∃ (texts : List String) (errors : List RenderError) (count : Nat),
    answers = texts.map .chunk ++ (errors.map .error ++ List.replicate count .ended) ∧
      (∀ text ∈ texts, text ≠ "") ∧ errors.length ≤ 1

/-- The texts of all answers until there is no more, as one text, or else the first error. -/
def Answer.collect : List Answer → Except RenderError String
  | .chunk text :: answers => (text ++ ·) <$> collect answers
  | .error reason :: _ => .error reason
  | .ended :: _ | [] => .ok ""

/-- A rendering that is asked on some host stops at its first error. -/
structure Render.FailStop (render : Render σ) (host : σ) : Prop where
  answers : ∀ changes, Answer.Ordered ((render.pulls changes host).map Pulled.answer)
  /-- After the first answer that is no chunk no calls are made any more. -/
  silent : ∀ changes before pulled after,
    render.pulls changes host = before ++ pulled :: after →
    (∀ text, pulled.answer ≠ .chunk text) → ∀ later ∈ after, later.calls = []
  /-- An error that is raised, by the flow that has been reached or by one that is nested in it,
  is the answer, and the calls are those that have been made until then. -/
  raised : ∀ limits start calls moment (α : Type) (part : Flow σ α) made error after,
    render.Asked host limits start → start.Reaches limits calls moment →
    part.Within moment.flow →
    (Moment.mk moment.standing part moment.host).Raises limits made error after →
    render.next host = ⟨calls ++ made, .error error, .finished, after⟩
  /-- No other error is ever the answer. -/
  answered : ∀ error, (render.next host).answer = .error error →
    ∃ limits start calls moment made after,
      render.Asked host limits start ∧ start.Reaches limits calls moment ∧
        moment.Raises limits made error after
  /-- All that is left, collected into one text, is what is answered from now on with nobody else
  at the host, and the same calls are made for it. -/
  collected : ∃ least, ∀ count, least ≤ count →
    let pulls := render.pulls (List.replicate count id) host
    (render.drain host).toText = Answer.collect (pulls.map Pulled.answer) ∧
      (render.drain host).calls = pulls.flatMap Pulled.calls

/-! ## Chunks, errors, and nothing -/

theorem Render.finished_pulls (changes : List (σ → σ)) (host : σ) :
    ((Render.finished : Render σ).pulls changes host).map Pulled.answer =
        List.replicate changes.length .ended ∧
      ∀ pulled ∈ (Render.finished : Render σ).pulls changes host, pulled.calls = [] := by
  induction changes generalizing host with
  | nil => exact ⟨rfl, nofun⟩
  | cons change changes ih =>
    obtain ⟨answers, calls⟩ := ih (change host)
    exact ⟨congrArg (Answer.ended :: ·) answers, List.forall_mem_cons.2 ⟨rfl, calls⟩⟩

/-- What is left after an answer depends on what the answer is. -/
inductive Pulled.Settled : Pulled σ → Prop where
  | chunk {calls : List Invocation} {text : String} {render : Render σ} {host : σ} :
      text ≠ "" → Settled ⟨calls, .chunk text, render, host⟩
  | error {calls : List Invocation} {error : RenderError} {host : σ} :
      Settled ⟨calls, .error error, .finished, host⟩
  | ended {calls : List Invocation} {host : σ} : Settled ⟨calls, .ended, .finished, host⟩

theorem Moment.Arrives.settled {limits : Limits σ} {moment : Moment σ Progress}
    {pulled : Pulled σ} (arrives : moment.Arrives limits pulled) : pulled.Settled := by
  obtain ⟨-, concludes, rfl⟩ := arrives
  cases concludes with
  | chunk nonempty => exact .chunk fun same => nonempty (by rw [same]; rfl)
  | error => exact .error
  | complete | bottomless => exact .ended

theorem Render.next_settled (render : Render σ) (host : σ) : (render.next host).Settled := by
  cases render with
  | finished => exact .ended
  | suspended limits standing rest =>
    exact (Moment.pull_arrives (.poll rest) standing host).settled

theorem Render.pulls_ordered (changes : List (σ → σ)) (render : Render σ) (host : σ) :
    Answer.Ordered ((render.pulls changes host).map Pulled.answer) := by
  induction changes generalizing render host with
  | nil => exact ⟨[], [], 0, rfl, nofun, Nat.zero_le 1⟩
  | cons change changes ih =>
    rw [Render.pulls]
    rcases pulled : render.next (change host) with ⟨calls, answer, left, after⟩
    cases pulled ▸ render.next_settled (change host) with
    | @chunk _ text _ _ nonempty =>
      obtain ⟨texts, errors, count, answers, nonempties, few⟩ := ih left after
      exact ⟨text :: texts, errors, count, congrArg (Answer.chunk text :: ·) answers,
        List.forall_mem_cons.2 ⟨nonempty, nonempties⟩, few⟩
    | @error _ error =>
      exact ⟨[], [error], changes.length,
        congrArg (Answer.error error :: ·) (finished_pulls changes after).1, nofun,
        Nat.le_refl 1⟩
    | ended =>
      exact ⟨[], [], changes.length + 1,
        congrArg (Answer.ended :: ·) (finished_pulls changes after).1, nofun, Nat.zero_le 1⟩

theorem Render.pulls_silent (changes : List (σ → σ)) (render : Render σ) (host : σ)
    (before : List (Pulled σ)) (pulled : Pulled σ) (after : List (Pulled σ))
    (split : render.pulls changes host = before ++ pulled :: after)
    (last : ∀ text, pulled.answer ≠ .chunk text) : ∀ later ∈ after, later.calls = [] := by
  -- The induction is on the answers ahead of the last one, each of which is a pull.
  induction before generalizing changes render host with
  | nil =>
    cases changes with
    | nil => cases split
    | cons change changes =>
      obtain ⟨same, rest⟩ := List.cons.inj split
      subst same
      subst rest
      rcases pulled : render.next (change host) with ⟨calls, answer, left, later⟩
      rw [pulled] at last
      cases pulled ▸ render.next_settled (change host) with
      | @chunk _ text => exact absurd rfl (last text)
      | error | ended => exact (finished_pulls changes later).2
  | cons first before ih =>
    cases changes with
    | nil => cases split
    | cons change changes => exact ih changes _ _ (List.cons.inj split).2

/-! ## Collecting -/

/-- What is drained is what is answered one after another. -/
structure Drained.Collects (drained : Drained σ) (pulls : List (Pulled σ)) : Prop where
  text : drained.toText = Answer.collect (pulls.map Pulled.answer)
  calls : drained.calls = pulls.flatMap Pulled.calls

namespace Drained.Collects

/-- With the last answer there is nothing left. -/
theorem last {ending : Ending} {answer : Answer} {host : σ} {changes : List (σ → σ)}
    (same : (Drained.last ending host).toText = Answer.collect [answer])
    (final : ∀ answers, Answer.collect (answer :: answers) = Answer.collect [answer]) :
    (Drained.last ending host).Collects ((Pulled.last answer host).onward changes) where
  text := same.trans (final _).symm
  calls := by
    have silent := (Render.finished_pulls changes host).2
    exact (List.flatMap_eq_nil_iff.2 silent).symm

theorem afterCall {drained : Drained σ} {pulled : Pulled σ} {changes : List (σ → σ)}
    (collects : drained.Collects (pulled.onward changes)) (invocation : Invocation) :
    (drained.afterCall invocation).Collects ((pulled.afterCall invocation).onward changes) where
  text := collects.text
  calls := congrArg (invocation :: ·) collects.calls

theorem afterChunk {drained : Drained σ} {chunk : String} {render : Render σ} {host : σ}
    {changes : List (σ → σ)} (nonempty : ¬chunk.isEmpty)
    (collects : drained.Collects (render.pulls changes host)) :
    (drained.afterChunk chunk).Collects
      ((Pulled.mk [] (.chunk chunk) render host).onward changes) where
  text := by
    rw [Drained.afterChunk, if_neg nonempty]
    refine Eq.trans ?_ (congrArg ((chunk ++ ·) <$> ·) collects.text)
    rw [toText, toText]
    cases drained.ending with
    | failed error => rfl
    | complete | bottomless => exact congrArg Except.ok (String.join_cons ..)
  calls := by
    rw [Drained.afterChunk, if_neg nonempty]
    exact collects.calls

end Drained.Collects

theorem Flow.drain_collects (limits : Limits σ) (flow : Flow σ Progress) (standing : Standing)
    (host : σ) : ∃ least, ∀ count, least ≤ count →
      (flow.drain limits standing host).Collects
        ((flow.pull limits standing host).onward (List.replicate count id)) := by
  induction flow generalizing standing host with
  | finish | bottomless => exact ⟨0, fun _ _ => .last rfl fun _ => rfl⟩
  | fail error => exact ⟨0, fun _ _ => .last rfl fun _ => rfl⟩
  | emit chunk resume ih =>
    obtain ⟨least, collects⟩ := ih (standing.afterChunk chunk).atStart
      (standing.afterChunk chunk) host
    by_cases empty : chunk.isEmpty
    · refine ⟨least, fun count enough => ?_⟩
      simp only [drain, pull, Drained.afterChunk, empty, if_true]
      split
      · exact .last rfl fun _ => rfl
      · exact collects count enough
    -- The chunk is an answer of its own, and so takes one pull more.
    · refine ⟨least + 1, fun count enough => ?_⟩
      obtain ⟨count, rfl⟩ : ∃ fewer, count = fewer + 1 := ⟨count - 1, by omega⟩
      simp only [drain, pull, empty, Bool.false_eq_true, if_false]
      refine .afterChunk empty ?_
      rw [List.replicate_succ, Render.pulls, Render.next, id]
      split
      · exact .last rfl fun _ => rfl
      · exact collects count (by omega)
  | call callable invocation resume ih =>
    simp only [drain, pull]
    rcases (callable.run invocation.bindings).run host with ⟨outcome, later⟩
    cases outcome with
    | ok value =>
      obtain ⟨least, collects⟩ := ih value standing later
      exact ⟨least, fun count enough => (collects count enough).afterCall invocation⟩
    | error error =>
      refine ⟨0, fun count _ => ?_⟩
      have failed : (Drained.last (.failed error) later).Collects
          ((Pulled.last (.error error) later).onward (List.replicate count id)) :=
        .last rfl fun _ => rfl
      exact failed.afterCall invocation
  | round resume ih =>
    simp only [drain, pull]
    cases standing.afterRound limits with
    | ok later => exact ih () later host
    | error error => exact ⟨0, fun _ _ => .last rfl fun _ => rfl⟩
  | poll resume ih =>
    simp only [drain, pull]
    split
    · exact ⟨0, fun _ _ => .last rfl fun _ => rfl⟩
    · exact ih () standing host

theorem Render.drain_collects (render : Render σ) (host : σ) : ∃ least, ∀ count, least ≤ count →
    (render.drain host).Collects (render.pulls (List.replicate count id) host) := by
  suffices first : ∃ least, ∀ count, least ≤ count →
      (render.drain host).Collects ((render.next host).onward (List.replicate count id)) by
    obtain ⟨least, collects⟩ := first
    refine ⟨least + 1, fun count enough => ?_⟩
    obtain ⟨count, rfl⟩ : ∃ fewer, count = fewer + 1 := ⟨count - 1, by omega⟩
    exact collects count (by omega)
  cases render with
  | finished => exact ⟨0, fun _ _ => .last rfl fun _ => rfl⟩
  | suspended limits standing rest =>
    -- A rendering can be cancelled when it is asked, as a flow that begins with a poll.
    exact Flow.drain_collects limits (.poll rest) standing host

/-! ## Stopping -/

theorem Render.failStop (render : Render σ) (host : σ) : render.FailStop host where
  answers changes := render.pulls_ordered changes host
  silent changes := render.pulls_silent changes host
  raised limits start calls moment α part made error after asked reaches within raises := by
    cases asked with
    | suspended =>
      have whole := (within.raises raises).pull
      exact reaches.pull.trans (by rw [whole])
  answered error answer := by
    cases render with
    | finished => cases answer
    | suspended limits standing rest =>
      obtain ⟨calls, last, made, after, reaches, raises, -⟩ :=
        (Moment.pull_arrives (.poll rest) standing host).raises answer
      exact ⟨limits, _, calls, last, made, after, .suspended, reaches, raises⟩
  collected := by
    obtain ⟨least, collects⟩ := render.drain_collects host
    refine ⟨least, fun count enough => ?_⟩
    exact ⟨(collects count enough).text, (collects count enough).calls⟩

/-- Whatever has been answered before and whatever others have done to the host, a rendering stops
at its first error.  What it comes to as a whole, with the error that ends it, is what the walk
over the constructs of the document comes to. -/
theorem renders_fail_stop (occasion : Eager.Occasion σ) (document : DocId)
    (changes : List (σ → σ)) (host present : σ) :
    ((occasion.program.render document occasion.options).left changes host).FailStop present ∧
      ∀ fuel, occasion.nesting document ≤ fuel → occasion.Mirrors fuel document host :=
  ⟨Render.failStop _ present, fun _ enough => occasion.mirrors document host enough⟩

end Stencil
