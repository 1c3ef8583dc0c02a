import Stencil.Proofs.Eager.Pushed
import Stencil.Proofs.Eager.Walk

/-! # Where walks lead

A part of a walk leads from one world to others, wherever it comes to its end and wherever it
is stopped.  The rules below follow it step by step.  What only puts out texts is quiet: it
calls nobody and begins no round, and the ledger stays as it is.
-/

namespace Stencil

namespace Eager

variable {σ α β : Type}

/-! ## Quiet acts -/

/-- The calls among some events. -/
def invocations (events : List Event) : List Invocation :=
  events.filterMap fun
    | .call invocation => some invocation
    | .chunk _ => none

/-- No call has been made and no round has begun in between. -/
def Output.Quiet (before after : Output σ) : Prop :=
  invocations after.events = invocations before.events ∧ after.iterations = before.iterations

theorem Output.Quiet.trans {before middle after : Output σ} (one : before.Quiet middle)
    (other : middle.Quiet after) : before.Quiet after :=
  ⟨other.1.trans one.1, other.2.trans one.2⟩

/-- An act that calls nobody and begins no round, and is not exhausted. -/
def Act.Quiet (act : Act (Output σ) α) : Prop :=
  ∀ output, output.Quiet (act output).2 ∧ (act output).1 ≠ .error .exhausted

namespace Act.Quiet

theorem bind {act : Act (Output σ) α} {next : α → Act (Output σ) β} (first : Quiet act)
    (second : ∀ result, Quiet (next result)) : Quiet (act >>= next) := by
  intro output
  have one := first output
  revert one
  rw [Act.bind_apply]
  cases act output with
  | mk outcome after =>
    cases outcome with
    | ok result =>
      intro one
      have other := second result after
      exact ⟨one.1.trans other.1, other.2⟩
    | error stop => exact fun one => ⟨one.1, fun same => one.2 (congrArg Except.error
        (Except.error.inj same))⟩

theorem pure (result : α) : Quiet (Pure.pure result : Act (Output σ) α) :=
  fun _ => ⟨⟨rfl, rfl⟩, nofun⟩

theorem poll (around : Surroundings σ) : Quiet (Eager.poll around) := by
  intro output
  rw [Eager.poll]
  split
  · exact ⟨⟨rfl, rfl⟩, failed_ne_exhausted _⟩
  · exact ⟨⟨rfl, rfl⟩, ok_ne_exhausted _⟩

theorem keep (around : Surroundings σ) (text : String) (output : Output σ) :
    output.Quiet (output.keep around text) := by
  rw [Output.keep]
  split
  · exact ⟨rfl, rfl⟩
  · split
    · exact ⟨rfl, rfl⟩
    · refine ⟨?_, rfl⟩
      simp only [invocations, List.filterMap_append]
      exact List.append_nil _

theorem outward {act : Act (Output σ) Unit} (quiet : Quiet act) : Quiet (Eager.outward act) :=
  fun output => quiet output.leave

theorem indent {out : String → Act (Output σ) Unit} (quiet : ∀ text, Quiet (out text))
    (indentation : Option String) (text : String) :
    Quiet (Eager.indent out indentation text) := by
  refine bind (fun _ => ⟨⟨rfl, rfl⟩, nofun⟩) fun atStart => ?_
  cases indentation with
  | none => exact pure ()
  | some indentation =>
    dsimp only
    split
    · exact quiet indentation
    · exact pure ()

theorem relay {out : String → Act (Output σ) Unit} (quiet : ∀ text, Quiet (out text))
    (layer : Layer) (texts : List String) (text : String) :
    Quiet (layer.relay out texts text) := by
  cases layer with
  | record => exact quiet text
  | line lead indentation =>
    simp only [Layer.relay]
    split
    · exact quiet text
    · have rest := bind (indent quiet indentation text) fun _ => quiet text
      split
      · exact rest
      · exact bind (quiet lead) fun _ => rest
  | round separator =>
    simp only [Layer.relay]
    split
    · exact quiet text
    · cases separator with
      | none => exact quiet text
      | some separator => exact bind (quiet separator) fun _ => quiet text

/-- Texts are pushed quietly, however many constructs there are around them. -/
theorem push (around : Surroundings σ) (layers : List Layer) (text : String) :
    Quiet (Eager.push around layers text) := by
  induction layers generalizing text with
  | nil =>
    intro output
    have polled := poll around (output.keep around text)
    exact ⟨(keep around text output).trans polled.1, polled.2⟩
  | cons layer layers ih =>
    refine bind (fun _ => ⟨⟨rfl, rfl⟩, nofun⟩) fun texts => ?_
    exact bind (outward (relay ih layer texts text)) fun _ _ => ⟨⟨rfl, rfl⟩, nofun⟩

theorem pushAll (around : Surroundings σ) (layers : List Layer) (texts : List String) :
    Quiet (Eager.pushAll around layers texts) := by
  induction texts with
  | nil => exact pure ()
  | cons text texts ih => exact bind (push around layers text) fun _ => ih

end Act.Quiet

/-! ## From one world -/

/-- From a world a walk leads to its result and worlds as described, and if it is stopped to
some other worlds. -/
def Walk.Leads (world : World σ) (walk : Walk σ α) (done : α → World σ → Prop)
    (stopped : World σ → Prop) : Prop :=
  match walk world with
  | (.ok result, after) => done result after
  | (.error _, after) => stopped after

namespace Walk.Leads

variable {world : World σ} {walk : Walk σ α} {done done' : α → World σ → Prop}
  {stopped stopped' : World σ → Prop}

theorem mono (leads : Leads world walk done stopped)
    (ends : ∀ result after, done result after → done' result after)
    (stops : ∀ after, stopped after → stopped' after) : Leads world walk done' stopped' := by
  revert leads
  simp only [Leads]
  cases walk world with
  | mk outcome after =>
    cases outcome with
    | ok result => exact ends result after
    | error stop => exact stops after

theorem bind {next : α → Walk σ β} {last : β → World σ → Prop}
    (first : Leads world walk done stopped)
    (second : ∀ result after, done result after → Leads after (next result) last stopped) :
    Leads world (walk >>= next) last stopped := by
  revert first
  simp only [Leads]
  rw [Act.bind_apply]
  cases walk world with
  | mk outcome after =>
    cases outcome with
    | ok result => exact second result after
    | error stop => exact id

section Stepwise

variable {last : β → World σ → Prop}

theorem keeps_bind {change : Ledger σ → Ledger σ} {next : Unit → Walk σ β}
    (leads : Leads { world with ledger := change world.ledger } (next ()) last stopped) :
    Leads world (Walk.keeps change >>= next) last stopped :=
  leads

theorem note_bind {deed : Deed σ} {next : Unit → Walk σ β}
    (leads : Leads (world.noted deed) (next ()) last stopped) :
    Leads world (Walk.note deed >>= next) last stopped :=
  leads

theorem known_bind {number : Nat} {name : String} {next : Option Memo → Walk σ β}
    (leads : Leads world (next (world.ledger.memo number name)) last stopped) :
    Leads world (Walk.known number name >>= next) last stopped :=
  leads

theorem enter_bind {next : Nat → Walk σ β}
    (leads : Leads { world with ledger := world.ledger.entered } (next world.ledger.next) last
      stopped) : Leads world (Walk.enter >>= next) last stopped :=
  leads

end Stepwise

theorem note {deed : Deed σ} {done : Unit → World σ → Prop}
    (holds : done () (world.noted deed)) : Leads world (Walk.note deed) done stopped :=
  holds

theorem pure {result : α} (holds : done result world) :
    Leads world (Pure.pure result) done stopped :=
  holds

theorem throw {stop : Stop} (holds : stopped world) :
    Leads world (MonadExcept.throw stop : Walk σ α) done stopped :=
  holds

/-- A call is noted and made, and whatever comes of it the host has been called. -/
theorem call {callable : Host.Callable σ} {invocation : Invocation}
    {done : Value → World σ → Prop}
    (ends : ∀ value host, done value (world.called invocation host))
    (stops : ∀ host, stopped (world.called invocation host)) :
    Leads world (Walk.note (.call invocation) >>= fun _ =>
      Walk.outputs (callHost callable invocation)) done stopped := by
  refine note_bind ?_
  simp only [Leads, Walk.outputs, callHost]
  rcases (callable.run invocation.bindings).run (world.noted (.call invocation)).output.host
    with ⟨outcome, host⟩
  cases outcome with
  | ok value => exact ends value host
  | error error => exact stops host

/-- A round begins, or the limit does not allow it. -/
theorem beginRound {around : Surroundings σ} {done : Unit → World σ → Prop}
    (ends : done () world.begun) (stops : stopped world) :
    Leads world (Walk.beginRound around) done stopped := by
  simp only [Leads, Walk.beginRound, Act.bind_apply, Walk.outputs, countRound,
    Standing.afterRound]
  cases around.maxIterations with
  | none => exact ends
  | some limit =>
    by_cases exceeded : limit < world.output.iterations + 1
    · simp only [exceeded, if_true]
      exact stops
    · simp only [exceeded, if_false]
      exact ends

theorem outputs {act : Act (Output σ) α} (quiet : act.Quiet)
    (ends : ∀ result output, world.output.Quiet output → done result { world with output })
    (stops : ∀ output, world.output.Quiet output → stopped { world with output }) :
    Leads world (Walk.outputs act) done stopped := by
  have one := (quiet world.output).1
  revert one
  simp only [Leads, Walk.outputs]
  cases act world.output with
  | mk outcome after =>
    cases outcome with
    | ok result => exact ends result after
    | error stop => exact stops after

theorem enclosed {done : α × List String → World σ → Prop}
    (leads : Leads { world with output := world.output.enter [] } walk
      (fun result after => ∀ texts, done (result, texts)
        { after with output := after.output.leave })
      fun after => stopped { after with output := after.output.leave }) :
    Leads world (Walk.enclosed walk) done stopped := by
  revert leads
  simp only [Leads, Walk.enclosed]
  cases walk { world with output := world.output.enter [] } with
  | mk outcome after =>
    cases outcome with
    | ok result => exact fun holds => holds _
    | error stop => exact id

theorem gathered {done : α × String → World σ → Prop}
    (leads : Leads { world with output := world.output.gathering "" true } walk
      (fun result after => ∀ text, done (result, text)
        { after with output := world.output.restore after.output })
      fun after => stopped { after with output := world.output.restore after.output }) :
    Leads world (Walk.gathered walk) done stopped := by
  revert leads
  simp only [Leads, Walk.gathered]
  cases walk { world with output := world.output.gathering "" true } with
  | mk outcome after =>
    cases outcome with
    | ok result => exact fun holds => holds _
    | error stop => exact id

end Walk.Leads

/-! ## Replays -/

theorem Walk.enclosed_outputs (act : Act (Output σ) α) :
    Walk.enclosed (Walk.outputs act) = Walk.outputs (enclosedFrom [] act) := rfl

/-- A replay puts out the chunks as they are, and delivers them. -/
theorem Walk.replay_eq (around : Surroundings σ) (layers : List Layer) (number : Nat)
    (name : String) (chunks : List String) :
    Walk.replay around layers number name chunks =
      Walk.outputs (pushAll around layers chunks) >>= fun _ =>
        Walk.note (.delivery number name chunks) := by
  funext world
  rw [Walk.replay, Walk.enclosed_outputs, Act.bind_apply, Act.bind_apply]
  simp only [Walk.outputs, enclosedFrom_pushAll, map_apply]
  cases pushAll around layers chunks world.output with
  | mk outcome after =>
    cases outcome with
    | error stop => rfl
    | ok done =>
      simp only [Except.map, List.append_nil, List.reverse_reverse]

end Eager

end Stencil
