import Stencil.Proofs.Adaptors
import Stencil.Proofs.Eager.Push

/-! # Flows that are pushed

A flow can be run by pushing its chunks outward as they come.  This turns one flow after
another into one act after another, and every adaptor of a flow into something done inside a
construct: a flow with the lead and indentation of a line is pushed as the bare flow is
inside the line, and the like for loops, records and gathered texts.

Calls, rounds and polls have nothing to do with where texts go.  They are the acts aside.
-/

namespace Stencil

open Eager

variable {σ α β S : Type}

/-- Runs a flow, pushing its chunks through the constructs around it. -/
def Flow.pushed (around : Surroundings σ) (layers : List Layer) :
    Flow σ α → Act (Output σ) α
  | .finish result => pure result
  | .fail error => throw (.failed error)
  | .bottomless => throw .exhausted
  | .emit chunk resume => do
    push around layers chunk
    let atStart ← atStart
    (resume atStart).pushed around layers
  | .call callable invocation resume => do
    let value ← callHost callable invocation
    (resume value).pushed around layers
  | .round resume => do
    countRound around
    (resume ()).pushed around layers
  | .poll resume => do
    Eager.poll around
    (resume ()).pushed around layers

namespace Eager

/-! ## Acts aside -/

/-- An act that neither looks at the front of the output nor changes it. -/
def Aside (act : Act (Output σ) α) : Prop :=
  ∀ output front, act { output with front } =
    ((act output).1, { (act output).2 with front })

theorem Aside.front_eq {act : Act (Output σ) α} (aside : Aside act) (output : Output σ) :
    (act output).2.front = output.front := by
  have same := aside output output.front
  exact congrArg (·.2.front) same

theorem Aside.enter {act : Act (Output σ) α} (aside : Aside act) (texts : List String)
    (output : Output σ) :
    act (output.enter texts) = ((act output).1, (act output).2.enter texts) := by
  rw [Output.enter, aside, Output.enter, aside.front_eq]

theorem Aside.gathering {act : Act (Output σ) α} (aside : Aside act) (text : String)
    (atStart : Bool) (output : Output σ) :
    act (output.gathering text atStart) =
      ((act output).1, (act output).2.gathering text atStart) := by
  rw [Output.gathering, aside, Output.gathering, aside.front_eq]

theorem aside_poll (around : Surroundings σ) : Aside (poll around) := by
  intro output front
  simp only [poll]
  split <;> rfl

theorem aside_callHost (callable : Host.Callable σ) (invocation : Invocation) :
    Aside (callHost callable invocation) := by
  intro output front
  simp only [callHost]
  cases (callable.run invocation.bindings).run output.host with
  | mk outcome host => cases outcome <;> rfl

theorem aside_countRound (around : Surroundings σ) : Aside (countRound around) := by
  intro output front
  simp only [countRound, Standing.afterRound]
  cases around.maxIterations with
  | none => rfl
  | some limit =>
    by_cases exceeded : limit < output.iterations + 1 <;> simp [exceeded]

/-! ## Acts inside a construct -/

theorem map_apply (g : α → β) (act : Act S α) (state : S) :
    (g <$> act) state = ((act state).1.map g, (act state).2) := by
  rw [map_eq_pure_bind, Act.bind_apply]
  cases act state with
  | mk outcome after => cases outcome <;> rfl

theorem enclosedFrom_aside_bind {act : Act (Output σ) α} (aside : Aside act)
    (next : α → Act (Output σ) β) (texts : List String) (output : Output σ) :
    enclosedFrom texts (act >>= next) output =
      (act >>= fun result => enclosedFrom texts (next result)) output := by
  simp only [enclosedFrom, Act.bind_apply, aside.enter]
  cases act output with
  | mk outcome after => cases outcome <;> rfl

theorem gatheredFrom_aside_bind {act : Act (Output σ) α} (aside : Aside act)
    (next : α → Act (Output σ) β) (text : String) (atStart : Bool) (output : Output σ) :
    gatheredFrom text atStart (act >>= next) output =
      (act >>= fun result => gatheredFrom text atStart (next result)) output := by
  have front := aside.front_eq output
  simp only [gatheredFrom, Act.bind_apply, aside.gathering]
  generalize act output = done at front ⊢
  obtain ⟨outcome, after⟩ := done
  -- What is restored is the front, and the act has not changed it.
  have restored : output.restore = after.restore := by
    funext later
    simp only [Output.restore, ← front]
  cases outcome with
  | error stop => simp only [restored]; rfl
  | ok result => simp only [restored]

/-- Inside a construct, a text is first relayed and then remembered. -/
theorem push_enter (around : Surroundings σ) (layer : Layer) (layers : List Layer)
    (text : String) (texts : List String) (output : Output σ) :
    push around (layer :: layers) text (output.enter texts) =
      match layer.relay (push around layers) texts text output with
      | (.ok _, after) => (.ok (), after.enter (text :: texts))
      | (.error stop, after) => (.error stop, after.enter texts) := by
  simp only [push, own, Act.bind_apply, outward, Output.own_enter, Output.leave_enter]
  cases layer.relay (push around layers) texts text output with
  | mk outcome after => cases outcome <;> rfl

/-- A text that is pushed inside a construct, with what follows on it. -/
theorem enclosedFrom_push_bind (around : Surroundings σ) (layer : Layer) (layers : List Layer)
    (text : String) (texts : List String) (next : Bool → Act (Output σ) α)
    (output : Output σ) :
    enclosedFrom texts (push around (layer :: layers) text >>= fun _ => atStart >>= next)
        output =
      (layer.relay (push around layers) texts text >>= fun _ => atStart >>= fun atStart =>
        enclosedFrom (text :: texts) (next atStart)) output := by
  simp only [enclosedFrom, Act.bind_apply, push_enter]
  cases layer.relay (push around layers) texts text output with
  | mk outcome after => cases outcome <;> rfl

/-- Chunks that are pushed inside a record are pushed as they are, and remembered. -/
theorem enclosedFrom_pushAll (around : Surroundings σ) (layers : List Layer)
    (chunks texts : List String) (output : Output σ) :
    enclosedFrom texts (pushAll around (.record :: layers) chunks) output =
      ((fun done => (done, chunks.reverse ++ texts)) <$> pushAll around layers chunks) output := by
  induction chunks generalizing texts output with
  | nil => rfl
  | cons chunk chunks ih =>
    have rest := fun output => ih (chunk :: texts) output
    simp only [enclosedFrom, map_apply] at rest
    simp only [enclosedFrom, map_apply, pushAll, Act.bind_apply, push_enter, Layer.relay]
    generalize push around layers chunk output = done
    obtain ⟨outcome, after⟩ := done
    cases outcome with
    | error stop => rfl
    | ok _ => simp only [rest, List.reverse_cons, List.append_assoc, List.singleton_append]

end Eager

namespace Flow

/-! ## Flows one after another -/

@[simp] theorem pushed_finish (around : Surroundings σ) (layers : List Layer) (result : α) :
    (finish result : Flow σ α).pushed around layers = pure result := rfl

theorem pushed_bind (around : Surroundings σ) (layers : List Layer) (flow : Flow σ α)
    (next : α → Flow σ β) :
    (flow >>= next).pushed around layers =
      flow.pushed around layers >>= fun result => (next result).pushed around layers := by
  show (flow.bind next).pushed around layers = _
  induction flow with
  | finish result => rw [bind, pushed_finish, pure_bind]
  | fail | bottomless => rfl
  | emit chunk resume ih => simp only [bind, pushed, ih, LawfulMonad.bind_assoc]
  | call callable invocation resume ih => simp only [bind, pushed, ih, LawfulMonad.bind_assoc]
  | round resume ih => simp only [bind, pushed, ih, LawfulMonad.bind_assoc]
  | poll resume ih => simp only [bind, pushed, ih, LawfulMonad.bind_assoc]

theorem pushed_emitAll (around : Surroundings σ) (layers : List Layer) (chunks : List String) :
    (emitAll chunks).pushed around layers = pushAll around layers chunks := by
  induction chunks with
  | nil => rfl
  | cons chunk chunks ih =>
    rw [emitAll, pushed, ih, pushAll]
    rfl

/-! ## Adaptors -/

/-- An adaptor does the work of a construct: in its state for the texts that have been pushed and
for where the output stands, it takes a chunk for what the construct relays, and in the end it tells
of the texts. -/
structure Relays {T κ : Type} (around : Surroundings σ) (layers : List Layer) (layer : Layer)
    (take : T → String → Flow σ (T × Bool)) (tell : T → κ) (state : List String → Bool → T)
    (give : List String → κ) : Prop where
  told : ∀ texts atStart, tell (state texts atStart) = give texts
  takes : ∀ texts chunk (output : Output σ),
    (take (state texts output.front.atStart) chunk).pushed around layers output =
      (layer.relay (push around layers) texts chunk >>= fun _ => Eager.atStart >>= fun atStart =>
        pure (state (chunk :: texts) atStart, atStart)) output

/-- What is aside leaves an adaptor where it is. -/
theorem enclosedFrom_aside_step {γ : Type} {act : Act (Output σ) γ} (aside : Aside act)
    {adapted : γ → Act (Output σ) β} {bare : γ → Act (Output σ) α}
    {give : α × List String → β} {texts : List String} {output : Output σ}
    (follows : ∀ result after, after.front = output.front →
      adapted result after = (give <$> enclosedFrom texts (bare result)) after) :
    (act >>= adapted) output = (give <$> enclosedFrom texts (act >>= bare)) output := by
  have front := aside.front_eq output
  rw [map_apply, enclosedFrom_aside_bind aside]
  simp only [Act.bind_apply]
  generalize act output = done at front ⊢
  obtain ⟨outcome, after⟩ := done
  cases outcome with
  | error stop => rfl
  | ok result => exact (follows result after front).trans (map_apply ..)

/-- An adapted flow is pushed as the bare flow is inside the construct. -/
theorem Relays.pushed {T κ : Type} {around : Surroundings σ} {layers : List Layer} {layer : Layer}
    {take : T → String → Flow σ (T × Bool)} {tell : T → κ} {state : List String → Bool → T}
    {give : List String → κ} {adapt : {α : Type} → T → Flow σ α → Flow σ (α × κ)}
    (relays : Relays around layers layer take tell state give) (adaptor : Adaptor take tell adapt)
    (flow : Flow σ α) (texts : List String) (output : Output σ) :
    (adapt (state texts output.front.atStart) flow).pushed around layers output =
      ((fun (result, texts) => (result, give texts)) <$>
        enclosedFrom texts (flow.pushed around (layer :: layers))) output := by
  induction flow generalizing texts output with
  | finish result =>
    rw [adaptor.finish, relays.told, map_apply]
    rfl
  | fail error =>
    rw [adaptor.fail]
    rfl
  | bottomless =>
    rw [adaptor.bottomless]
    rfl
  | emit chunk resume ih =>
    -- Here the adaptor does what the construct does, and is then one text further.
    rw [adaptor.emit, pushed_bind, Act.bind_apply, relays.takes, map_apply, Flow.pushed,
      enclosedFrom_push_bind]
    simp only [Act.bind_apply]
    generalize layer.relay (push around layers) texts chunk output = done
    obtain ⟨outcome, after⟩ := done
    cases outcome with
    | error stop => rfl
    | ok _ => exact (ih after.front.atStart (chunk :: texts) after).trans (map_apply ..)
  | call callable invocation resume ih =>
    rw [adaptor.call, Flow.pushed, Flow.pushed]
    exact enclosedFrom_aside_step (aside_callHost callable invocation)
      fun value after front => front ▸ ih value texts after
  | round resume ih =>
    rw [adaptor.round, Flow.pushed, Flow.pushed]
    exact enclosedFrom_aside_step (aside_countRound around)
      fun _ after front => front ▸ ih () texts after
  | poll resume ih =>
    rw [adaptor.poll, Flow.pushed, Flow.pushed]
    exact enclosedFrom_aside_step (aside_poll around)
      fun _ after front => front ▸ ih () texts after

/-! ### Lines -/

/-- Where a line stands when some texts have been pushed through it. -/
def LineStage.of (texts : List String) (atStart : Bool) : LineStage :=
  if Eager.hasContent texts then .begun atStart else .fresh

theorem LineStage.hasContent_of (texts : List String) (atStart : Bool) :
    (LineStage.of texts atStart).hasContent = Eager.hasContent texts := by
  by_cases content : Eager.hasContent texts <;>
    simp [LineStage.of, content, LineStage.hasContent]

theorem LineStage.of_newline {chunk : String} (newline : isNewline chunk) (texts : List String)
    (before atStart : Bool) :
    LineStage.of (chunk :: texts) atStart = (LineStage.of texts before).afterNewline atStart := by
  have same : Eager.hasContent (chunk :: texts) = Eager.hasContent texts := by
    simp [Eager.hasContent, newline]
  by_cases content : Eager.hasContent texts <;>
    simp [LineStage.of, same, content, LineStage.afterNewline]

theorem LineStage.of_content {chunk : String} (content : ¬isNewline chunk)
    (texts : List String) (atStart : Bool) :
    LineStage.of (chunk :: texts) atStart = .begun atStart := by
  simp [LineStage.of, Eager.hasContent, content]

/-- A chunk behind its indentation is pushed behind its indentation. -/
theorem pushed_emitIndented (around : Surroundings σ) (layers : List Layer)
    (indentation : Option String) (chunk : String) (resume : Bool → Flow σ α)
    (output : Output σ) :
    (emitIndented indentation output.front.atStart chunk resume).pushed around layers output =
      (indent (push around layers) indentation chunk >>= fun _ =>
        push around layers chunk >>= fun _ =>
        Eager.atStart >>= fun atStart => (resume atStart).pushed around layers) output := by
  simp only [indent, LawfulMonad.bind_assoc]
  rw [Act.bind_apply]
  simp only [Eager.atStart, emitIndented]
  cases indentation with
  | none => rfl
  | some indentation =>
    dsimp only
    split
    · rfl
    · rw [LawfulMonad.pure_bind]; rfl

/-- A chunk with content is pushed behind the lead of its line and its indentation. -/
theorem pushed_begin (around : Surroundings σ) (layers : List Layer) (lead : String)
    (indentation : Option String) {chunk : String} (content : ¬isNewline chunk)
    (resume : Bool → Flow σ α) (texts : List String) (output : Output σ) :
    ((LineStage.of texts output.front.atStart).begin lead fun atStart =>
        emitIndented indentation atStart chunk resume).pushed around layers output =
      ((Layer.line lead indentation).relay (push around layers) texts chunk >>= fun _ =>
        Eager.atStart >>= fun atStart => (resume atStart).pushed around layers) output := by
  simp only [LineStage.of, Layer.relay, content, Bool.false_eq_true, if_false]
  -- The lead stands only ahead of the first content.
  by_cases begun : Eager.hasContent texts
  · simp only [begun, if_true, LineStage.begin, LawfulMonad.bind_assoc]
    exact pushed_emitIndented around layers indentation chunk resume output
  · simp only [begun, Bool.false_eq_true, if_false, LineStage.begin, LawfulMonad.bind_assoc,
      Flow.pushed]
    rw [Act.bind_apply, Act.bind_apply]
    generalize push around layers lead output = led
    obtain ⟨outcome, after⟩ := led
    cases outcome with
    | error stop => rfl
    | ok result => exact pushed_emitIndented around layers indentation chunk resume after

theorem relays_line (around : Surroundings σ) (layers : List Layer) (lead : String)
    (indentation : Option String) :
    Relays around layers (.line lead indentation) (lineTake lead indentation)
      LineStage.hasContent LineStage.of Eager.hasContent where
  told := LineStage.hasContent_of
  takes texts chunk output := by
    rw [lineTake]
    by_cases newline : isNewline chunk
    · simp only [newline, if_true, Flow.pushed, Layer.relay,
        LineStage.of_newline newline texts output.front.atStart]
    · simp only [newline, LineStage.of_content newline, Bool.false_eq_true, if_false]
      exact pushed_begin around layers lead indentation newline _ texts output

/-- A flow with the lead and the indentation of a line is pushed as it is inside the line. -/
theorem pushed_line (around : Surroundings σ) (layers : List Layer) (lead : String)
    (indentation : Option String) (flow : Flow σ α) :
    (flow.line lead indentation .fresh).pushed around layers =
      (fun (result, texts) => (result, Eager.hasContent texts)) <$>
        enclosedFrom [] (flow.pushed around (.line lead indentation :: layers)) :=
  funext fun output =>
    (relays_line around layers lead indentation).pushed (.line lead indentation) flow [] output

/-! ### Rounds -/

theorem relays_joined (around : Surroundings σ) (layers : List Layer)
    (separator : Option String) :
    Relays around layers (.round separator) (joinedTake separator) id
      (fun texts _ => Eager.hasContent texts) Eager.hasContent where
  told _ _ := rfl
  takes texts chunk output := by
    rw [joinedTake]
    by_cases newline : isNewline chunk
    · simp only [newline, if_true, Flow.pushed, Layer.relay, Bool.true_or, Eager.hasContent,
        List.any_cons, Bool.not_true, Bool.false_or]
    · have content : Eager.hasContent (chunk :: texts) = true := by
        simp [Eager.hasContent, newline]
      simp only [newline, Bool.false_eq_true, if_false, Layer.relay, Bool.false_or, content]
      by_cases begun : Eager.hasContent texts
      · simp only [begun, if_true]
        rfl
      · cases separator with
        | none => simp only [begun, Bool.false_eq_true, if_false]; rfl
        | some separator =>
          simp only [begun, Bool.false_eq_true, if_false, LawfulMonad.bind_assoc]
          rfl

/-- A flow with the separator of a loop is pushed as it is inside the round. -/
theorem pushed_joined (around : Surroundings σ) (layers : List Layer)
    (separator : Option String) (flow : Flow σ α) :
    (flow.joined separator false).pushed around layers =
      (fun (result, texts) => (result, Eager.hasContent texts)) <$>
        enclosedFrom [] (flow.pushed around (.round separator :: layers)) :=
  funext fun output =>
    (relays_joined around layers separator).pushed (.joined separator) flow [] output

/-! ### Records -/

theorem relays_recorded (around : Surroundings σ) (layers : List Layer) :
    Relays around layers .record recordedTake List.reverse (fun texts _ => texts)
      List.reverse where
  told _ _ := rfl
  takes _ _ _ := rfl

/-- A recorded flow is pushed as it is inside the record. -/
theorem pushed_recorded (around : Surroundings σ) (layers : List Layer) (flow : Flow σ α) :
    flow.recorded.pushed around layers =
      (fun (result, texts) => (result, texts.reverse)) <$>
        enclosedFrom [] (flow.pushed around (.record :: layers)) :=
  funext fun output => (relays_recorded around layers).pushed .recordedAfter flow [] output

/-! ### Gathered texts -/

theorem pushed_gatheredAfter (around : Surroundings σ) (layers : List Layer)
    (flow : Flow σ α) (text : String) (atStart : Bool) (output : Output σ) :
    (flow.gatheredAfter text atStart).pushed around layers output =
      gatheredFrom text atStart (flow.pushed around []) output := by
  induction flow generalizing text atStart output with
  | finish | fail | bottomless => rfl
  | emit chunk resume ih =>
    rw [gatheredAfter, Flow.pushed, Flow.pushed, Act.bind_apply, gatheredFrom, Act.bind_apply]
    -- The gathered flow polls ahead of a chunk, the sink behind it: both ask the same host.
    by_cases empty : chunk.isEmpty
    · have kept : (output.gathering text atStart).keep around chunk =
          output.gathering text atStart := by
        simp only [Output.keep, empty, if_true]
      simp only [push, sink, kept, empty, if_true]
      by_cases cancelled : around.isCancelled output.host
      · simp [Eager.poll, Output.gathering, cancelled, Except.map, Output.restore]
      · simp only [Eager.poll, Output.gathering, cancelled, Bool.false_eq_true, if_false, ih]
        rfl
    · have kept : (output.gathering text atStart).keep around chunk =
          output.gathering (text ++ chunk) (isNewline chunk) := by
        simp only [Output.keep, empty, Bool.false_eq_true, if_false, Output.gathering]
      simp only [push, sink, kept, empty, Bool.false_eq_true, if_false]
      by_cases cancelled : around.isCancelled output.host
      · simp [Eager.poll, Output.gathering, cancelled, Except.map, Output.restore]
      · simp only [Eager.poll, Output.gathering, cancelled, Bool.false_eq_true, if_false, ih]
        rfl
  | call callable invocation resume ih =>
    rw [Flow.pushed, gatheredFrom_aside_bind (aside_callHost callable invocation)]
    simp only [gatheredAfter, Flow.pushed, Act.bind_apply, ih]
  | round resume ih =>
    rw [Flow.pushed, gatheredFrom_aside_bind (aside_countRound around)]
    simp only [gatheredAfter, Flow.pushed, Act.bind_apply, ih]
  | poll resume ih =>
    rw [Flow.pushed, gatheredFrom_aside_bind (aside_poll around)]
    simp only [gatheredAfter, Flow.pushed, Act.bind_apply, ih]

/-- A flow whose chunks are gathered is pushed as it is in front of a sink of its own. -/
theorem pushed_gathered (around : Surroundings σ) (layers : List Layer)
    (flow : Unit → Flow σ α) :
    (gathered flow).pushed around layers =
      Eager.poll around >>= fun _ => gatheredFrom "" true ((flow ()).pushed around []) := by
  rw [gathered, Flow.pushed]
  exact congrArg _ (funext fun _ =>
    funext fun output => pushed_gatheredAfter around layers (flow ()) "" true output)

end Flow

end Stencil
