import Stencil.Proofs.Eager.Pushed

/-! # Pulling and pushing

A rendering that is asked again and again until it ends answers in the end what the same flow
pushes at once, with the same calls in between.  Others may use the host between two answers:
the eager rendering lets them have it whenever it has given a chunk to the reader.

Only a flow whose includes are nested too deeply to be followed is different.  To the reader
it looks complete, and so it has to be left out.
-/

namespace Stencil

open Eager

variable {σ α : Type}

/-! ## Asking until the end -/

/-- What all further answers amount to, from one answer on.  Before each of them others do to
the host what `meanwhile` says, given the number of chunks so far. -/
inductive Pulled.Drains (meanwhile : Nat → σ → σ) : Nat → Pulled σ → Drained σ → Prop where
  | ended {answered : Nat} {calls : List Invocation} {render : Render σ} {host : σ} :
      Drains meanwhile answered ⟨calls, .ended, render, host⟩
        ⟨calls.map .call, .complete, host⟩
  | failed {answered : Nat} {calls : List Invocation} {error : RenderError}
      {render : Render σ} {host : σ} :
      Drains meanwhile answered ⟨calls, .error error, render, host⟩
        ⟨calls.map .call, .failed error, host⟩
  | chunk {answered : Nat} {calls : List Invocation} {text : String} {render : Render σ}
      {host : σ} {rest : Drained σ} :
      Drains meanwhile (answered + 1) (render.next (meanwhile answered host)) rest →
      Drains meanwhile answered ⟨calls, .chunk text, render, host⟩
        ⟨calls.map .call ++ .chunk text :: rest.events, rest.ending, rest.host⟩

namespace Pulled.Drains

variable {meanwhile : Nat → σ → σ} {answered : Nat}

theorem afterCall {pulled : Pulled σ} {drained : Drained σ}
    (drains : pulled.Drains meanwhile answered drained) (invocation : Invocation) :
    (pulled.afterCall invocation).Drains meanwhile answered (drained.afterCall invocation) := by
  cases drains with
  | ended => exact .ended
  | failed => exact .failed
  | chunk rest => exact .chunk rest

end Pulled.Drains

namespace Eager

/-- How a rendering has ended when an act has. -/
def ending : Except Stop α → Ending
  | .ok _ => .complete
  | .error (.failed error) => .failed error
  | .error .exhausted => .bottomless

/-- What has come of an act is what was there before, and then something drained. -/
structure Adds (before : Output σ) (done : Except Stop α × Output σ)
    (drained : Drained σ) : Prop where
  events : done.2.events = before.events ++ drained.events
  host : done.2.host = drained.host
  ending : Eager.ending done.1 = drained.ending

theorem Adds.afterCall {before : Output σ} {invocation : Invocation} {host : σ}
    {done : Except Stop α × Output σ} {drained : Drained σ}
    (adds : Adds (before.called invocation host) done drained) :
    Adds before done (drained.afterCall invocation) where
  events := by rw [adds.events, Output.called, List.append_assoc]; rfl
  host := adds.host
  ending := adds.ending

/-- Where the output of an eager rendering stands. -/
def Output.standing (output : Output σ) : Standing :=
  ⟨output.front.atStart, output.iterations⟩

/-- The output after a chunk for the reader. -/
def Output.answer (around : Surroundings σ) (chunk : String) (output : Output σ) : Output σ where
  host := around.meanwhile output.answered output.host
  iterations := output.iterations
  answered := output.answered + 1
  events := output.events ++ [.chunk chunk]
  front := { output.front with atStart := isNewline chunk }

theorem poll_bind (around : Surroundings σ) (next : Unit → Act (Output σ) α)
    (output : Output σ) :
    (poll around >>= next) output =
      if around.isCancelled output.host then (.error (.failed .cancelled), output)
      else next () output := by
  rw [Act.bind_apply, poll]
  by_cases cancelled : around.isCancelled output.host <;> simp [cancelled]

/-- A text outside of all constructs is kept, and then the rendering can be cancelled. -/
theorem sink_bind (around : Surroundings σ) (text : String) (next : Unit → Act (Output σ) α)
    (output : Output σ) :
    (push around [] text >>= next) output = (poll around >>= next) (output.keep around text) := by
  rw [Act.bind_apply, Act.bind_apply]
  rfl

theorem callHost_bind (callable : Host.Callable σ) (invocation : Invocation)
    (next : Value → Act (Output σ) α) (output : Output σ) :
    (callHost callable invocation >>= next) output =
      match (callable.run invocation.bindings).run output.host with
      | (.ok value, host) => next value (output.called invocation host)
      | (.error error, host) => (.error (.failed error), output.called invocation host) := by
  rw [Act.bind_apply, callHost]
  cases (callable.run invocation.bindings).run output.host with
  | mk outcome host => cases outcome <;> rfl

theorem countRound_bind (around : Surroundings σ) (next : Unit → Act (Output σ) α)
    (output : Output σ) :
    (countRound around >>= next) output =
      match output.standing.afterRound around.toLimits with
      | .ok standing => next () { output with iterations := standing.iterations }
      | .error error => (.error (.failed error), output) := by
  rw [Act.bind_apply, countRound, Output.standing]
  cases (Standing.mk output.front.atStart output.iterations).afterRound around.toLimits <;> rfl

/-- A round does not change where the output stands within its line. -/
theorem atStart_of_afterRound {limits : Limits σ} {standing later : Standing}
    (begun : standing.afterRound limits = .ok later) : later.atStart = standing.atStart := by
  simp only [Standing.afterRound] at begun
  cases limited : limits.maxIterations with
  | none =>
    rw [limited] at begun
    cases begun
    rfl
  | some limit =>
    rw [limited] at begun
    by_cases exceeded : limit < standing.iterations + 1
    · simp [exceeded] at begun
    · simp only [exceeded, if_false] at begun
      cases begun
      rfl

theorem Output.standing_afterRound {limits : Limits σ} {output : Output σ}
    {standing : Standing} (begun : output.standing.afterRound limits = .ok standing) :
    { output with iterations := standing.iterations }.standing = standing := by
  have same : standing.atStart = output.front.atStart := atStart_of_afterRound begun
  simp only [Output.standing, ← same]

theorem Output.keep_empty (around : Surroundings σ) {chunk : String} (empty : chunk.isEmpty)
    (output : Output σ) : output.keep around chunk = output := by
  simp [keep, empty]

theorem Output.keep_answer (around : Surroundings σ) {chunk : String}
    (nonempty : ¬chunk.isEmpty) {output : Output σ} (outside : output.front.gathered = none) :
    output.keep around chunk = output.answer around chunk := by
  simp [keep, nonempty, outside, answer]

end Eager

/-! ## Pushing is draining -/

namespace Flow

/-- An empty chunk leaves the output as it is, and then the rendering can be cancelled. -/
theorem pushed_emit_empty (around : Surroundings σ) {chunk : String} (empty : chunk.isEmpty)
    (resume : Bool → Flow σ α) (output : Output σ) :
    (emit chunk resume).pushed around [] output =
      if around.isCancelled output.host then (.error (.failed .cancelled), output)
      else (resume output.front.atStart).pushed around [] output := by
  rw [pushed, sink_bind, Output.keep_empty around empty, poll_bind]
  rfl

/-- Any other chunk is given to the reader, and then the rendering can be cancelled. -/
theorem pushed_emit_answer (around : Surroundings σ) {chunk : String}
    (nonempty : ¬chunk.isEmpty) (resume : Bool → Flow σ α) {output : Output σ}
    (outside : output.front.gathered = none) :
    (emit chunk resume).pushed around [] output =
      if around.isCancelled (output.answer around chunk).host then
        (.error (.failed .cancelled), output.answer around chunk)
      else (resume (isNewline chunk)).pushed around [] (output.answer around chunk) := by
  rw [pushed, sink_bind, Output.keep_answer around nonempty outside, poll_bind]
  rfl

/-- A flow pushed to the output, with nobody else at the host, does what it does when it is
drained. -/
theorem adds_drain {around : Surroundings σ}
    (alone : ∀ answered host, around.meanwhile answered host = host) (flow : Flow σ Progress)
    (output : Output σ) (outside : output.front.gathered = none) :
    Adds output (flow.pushed around [] output)
      (flow.drain around.toLimits output.standing output.host) := by
  induction flow generalizing output with
  | finish | fail | bottomless => exact ⟨(List.append_nil _).symm, rfl, rfl⟩
  | emit chunk resume ih =>
    by_cases empty : chunk.isEmpty
    · have same : output.standing.afterChunk chunk = output.standing := by
        simp [Standing.afterChunk, empty]
      rw [pushed_emit_empty _ empty, drain, same, Drained.afterChunk, if_pos empty]
      by_cases cancelled : around.isCancelled output.host
      · rw [if_pos cancelled, if_pos cancelled]
        exact ⟨(List.append_nil _).symm, rfl, rfl⟩
      · rw [if_neg cancelled, if_neg cancelled]
        exact ih _ output outside
    -- With nobody else at the host, the reader finds it as the flow has left it.
    · have stands : output.standing.afterChunk chunk =
          (output.answer around chunk).standing := by
        simp [Standing.afterChunk, empty, Output.standing, Output.answer]
      have host : (output.answer around chunk).host = output.host := alone _ _
      have after := ih (isNewline chunk) (output.answer around chunk) outside
      rw [pushed_emit_answer _ empty _ outside, drain, stands, Drained.afterChunk, if_neg empty,
        host]
      by_cases cancelled : around.isCancelled output.host
      · rw [if_pos cancelled, if_pos cancelled]
        exact ⟨rfl, host, rfl⟩
      · rw [if_neg cancelled, if_neg cancelled]
        rw [host] at after
        refine ⟨?_, after.host, after.ending⟩
        rw [after.events, Output.answer, List.append_assoc]
        rfl
  | call callable invocation resume ih =>
    rw [pushed, callHost_bind, drain]
    cases (callable.run invocation.bindings).run output.host with
    | mk outcome host =>
      cases outcome with
      | ok value => exact (ih value (output.called invocation host) outside).afterCall
      | error error => exact Adds.afterCall ⟨(List.append_nil _).symm, rfl, rfl⟩
  | round resume ih =>
    rw [pushed, countRound_bind, drain]
    cases begun : output.standing.afterRound around.toLimits with
    | error error => exact ⟨(List.append_nil _).symm, rfl, rfl⟩
    | ok standing =>
      have after := ih () { output with iterations := standing.iterations } outside
      rw [Output.standing_afterRound begun] at after
      exact ⟨after.events, after.host, after.ending⟩
  | poll resume ih =>
    rw [pushed, poll_bind, drain]
    by_cases cancelled : around.isCancelled output.host
    · rw [if_pos cancelled, if_pos cancelled]
      exact ⟨(List.append_nil _).symm, rfl, rfl⟩
    · rw [if_neg cancelled, if_neg cancelled]
      exact ih () output outside

/-- A flow pushed to the output does what it does when it is pulled until it ends. -/
theorem drains_pushed (around : Surroundings σ) (flow : Flow σ Progress) (output : Output σ)
    (outside : output.front.gathered = none)
    (followed : (flow.pushed around [] output).1 ≠ .error .exhausted) :
    ∃ drained, Adds output (flow.pushed around [] output) drained ∧
      (flow.pull around.toLimits output.standing output.host).Drains around.meanwhile
        output.answered drained := by
  induction flow generalizing output with
  | finish result =>
    exact ⟨.last .complete output.host, ⟨(List.append_nil _).symm, rfl, rfl⟩, .ended⟩
  | fail error =>
    exact ⟨.last (.failed error) output.host, ⟨(List.append_nil _).symm, rfl, rfl⟩, .failed⟩
  -- To the reader this would look like the end, so it is left out.
  | bottomless => exact absurd rfl followed
  | emit chunk resume ih =>
    by_cases empty : chunk.isEmpty
    · have same : output.standing.afterChunk chunk = output.standing := by
        simp [Standing.afterChunk, empty]
      rw [pushed_emit_empty _ empty] at followed ⊢
      rw [pull, same, if_pos empty]
      by_cases cancelled : around.isCancelled output.host
      · rw [if_pos cancelled, if_pos cancelled]
        exact ⟨.last (.failed .cancelled) output.host, ⟨(List.append_nil _).symm, rfl, rfl⟩,
          .failed⟩
      · rw [if_neg cancelled] at followed
        rw [if_neg cancelled, if_neg cancelled]
        exact ih _ output outside followed
    · have stands : output.standing.afterChunk chunk =
          (output.answer around chunk).standing := by
        simp [Standing.afterChunk, empty, Output.standing, Output.answer]
      rw [pushed_emit_answer _ empty _ outside] at followed ⊢
      rw [pull, stands, if_neg empty]
      -- Whatever is answered next is asked for behind this chunk.
      suffices next : ∃ rest, Adds (output.answer around chunk)
            (if around.isCancelled (output.answer around chunk).host then
              (.error (.failed .cancelled), output.answer around chunk)
            else (resume (isNewline chunk)).pushed around [] (output.answer around chunk)) rest ∧
          ((Render.suspended around.toLimits (output.answer around chunk).standing
              fun _ => resume (output.answer around chunk).standing.atStart).next
            (output.answer around chunk).host).Drains around.meanwhile (output.answered + 1)
            rest by
        obtain ⟨rest, adds, drains⟩ := next
        refine ⟨⟨.chunk chunk :: rest.events, rest.ending, rest.host⟩, ⟨?_, adds.host,
          adds.ending⟩, .chunk drains⟩
        rw [adds.events, Output.answer, List.append_assoc]
        rfl
      rw [Render.next]
      by_cases cancelled : around.isCancelled (output.answer around chunk).host
      · rw [if_pos cancelled, if_pos cancelled]
        exact ⟨.last (.failed .cancelled) _, ⟨(List.append_nil _).symm, rfl, rfl⟩, .failed⟩
      · rw [if_neg cancelled] at followed
        rw [if_neg cancelled, if_neg cancelled]
        exact ih _ (output.answer around chunk) outside followed
  | call callable invocation resume ih =>
    rw [pushed, callHost_bind] at followed ⊢
    rw [pull]
    cases ran : (callable.run invocation.bindings).run output.host with
    | mk outcome host =>
      cases outcome with
      | ok value =>
        rw [ran] at followed
        obtain ⟨drained, adds, drains⟩ :=
          ih value (output.called invocation host) outside followed
        exact ⟨_, adds.afterCall, drains.afterCall invocation⟩
      | error error =>
        -- A failed call has been made all the same, and comes before the error.
        have failed : (Pulled.last (.error error) host).Drains around.meanwhile output.answered
            (.last (.failed error) host) := .failed
        exact ⟨_, Adds.afterCall ⟨(List.append_nil _).symm, rfl, rfl⟩,
          failed.afterCall invocation⟩
  | round resume ih =>
    rw [pushed, countRound_bind] at followed ⊢
    rw [pull]
    cases begun : output.standing.afterRound around.toLimits with
    | error error =>
      exact ⟨.last (.failed error) output.host, ⟨(List.append_nil _).symm, rfl, rfl⟩, .failed⟩
    | ok standing =>
      rw [begun] at followed
      have after := ih () { output with iterations := standing.iterations } outside followed
      rw [Output.standing_afterRound begun] at after
      obtain ⟨drained, adds, drains⟩ := after
      exact ⟨drained, ⟨adds.events, adds.host, adds.ending⟩, drains⟩
  | poll resume ih =>
    rw [pushed, poll_bind] at followed ⊢
    rw [pull]
    by_cases cancelled : around.isCancelled output.host
    · rw [if_pos cancelled, if_pos cancelled]
      exact ⟨.last (.failed .cancelled) output.host, ⟨(List.append_nil _).symm, rfl, rfl⟩,
        .failed⟩
    · rw [if_neg cancelled] at followed
      rw [if_neg cancelled, if_neg cancelled]
      exact ih () output outside followed

end Flow

end Stencil
