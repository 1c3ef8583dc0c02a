import Stencil.Proofs.Eager.Fitting
import Stencil.Proofs.Eager.Leads

/-! # What walks do

What is true of all walks is shown once for each single step, as a discipline that the step
keeps, and then follows for documents and sections of any size, however they include and supply
each other.
-/

namespace Stencil

open Program (Routine Line Section Block Expression)

namespace Eager

variable {σ α β : Type}

/-- Two relations that worlds are in before and after any part of a walk within an activation:
one for where it ends, and one for where it is stopped.  They are kept as long as all
expressions fit the places where they are evaluated. -/
structure Discipline (fits : Place σ → Expression σ → Prop)
    (between stopped : Activation σ → World σ → World σ → Prop) : Prop where
  quiet : ∀ activation (world : World σ) output, world.output.Quiet output →
    between activation world { world with output }
  halt : ∀ activation world, stopped activation world world
  andThen : ∀ {activation before middle after},
    between activation before middle → between activation middle after →
      between activation before after
  andStop : ∀ {activation before middle after},
    between activation before middle → stopped activation middle after →
      stopped activation before after
  stopQuiet : ∀ {activation before} (after : World σ) output, after.output.Quiet output →
    stopped activation before after → stopped activation before { after with output }
  evaluation : ∀ {place} (world : World σ) {expression}, fits place expression →
    between place.activation world (world.noted (.evaluation expression place.scope))
  call : ∀ activation (world : World σ) invocation host,
    between activation world (world.called invocation host)
  round : ∀ activation (world : World σ), between activation world world.begun
  included : ∀ {activation} {world after : World σ} {forwards sections frames},
    between (.within world.ledger.next forwards sections frames activation)
      { world with ledger := world.ledger.entered } after →
      between activation world after
  includedStop : ∀ {activation} {world after : World σ} {forwards sections frames},
    stopped (.within world.ledger.next forwards sections frames activation)
      { world with ledger := world.ledger.entered } after →
      stopped activation world after
  executed : ∀ {number name forwards sections frames outer} {world after : World σ} chunks,
    world.ledger.memo number name = none →
      between outer { world with ledger := world.ledger.started number name } after →
      between (.within number forwards sections frames outer) world
        { after with ledger := after.ledger.completed number name chunks }
  executedStop : ∀ {number name forwards sections frames outer} {world after : World σ},
    world.ledger.memo number name = none →
      stopped outer { world with ledger := world.ledger.started number name } after →
      stopped (.within number forwards sections frames outer) world after
  reentered : ∀ {number name forwards sections frames outer} {world : World σ},
    world.ledger.memo number name = some .pending →
      stopped (.within number forwards sections frames outer) world
        ((world.noted (.dispatch number name)).noted (.reentry number name))
  replayed : ∀ {number name forwards sections frames outer} {world : World σ} {chunks},
    world.ledger.memo number name = some (.complete chunks) →
      between (.within number forwards sections frames outer) world
        ((world.noted (.dispatch number name)).noted (.delivery number name chunks))
  replayedStop : ∀ {number name forwards sections frames outer} {world : World σ} {chunks},
    world.ledger.memo number name = some (.complete chunks) →
      stopped (.within number forwards sections frames outer) world
        (world.noted (.dispatch number name))

/-- A part of a walk within an activation keeps a discipline from every world on. -/
def Steady (between stopped : Activation σ → World σ → World σ → Prop)
    (activation : Activation σ) (walk : Walk σ α) : Prop :=
  ∀ world, Walk.Leads world walk (fun _ => between activation world) (stopped activation world)

namespace Discipline

variable {fits : Place σ → Expression σ → Prop}
  {between stopped : Activation σ → World σ → World σ → Prop}
  {activation : Activation σ} {walk : Walk σ α} {next : α → Walk σ β}
  (discipline : Discipline fits between stopped)

include discipline

/-! ### One part after another -/

theorem bind (first : Steady between stopped activation walk)
    (second : ∀ result, Steady between stopped activation (next result)) :
    Steady between stopped activation (walk >>= next) := by
  intro world
  refine (first world).bind fun result middle reached => ?_
  refine (second result middle).mono (fun _ _ => ?_) fun _ => ?_
  · exact discipline.andThen reached
  · exact discipline.andStop reached

theorem pure (result : α) : Steady between stopped activation (Pure.pure result) :=
  fun world => .pure (discipline.quiet activation world world.output ⟨rfl, rfl⟩)

theorem throw (stop : Stop) :
    Steady between stopped activation (MonadExcept.throw stop : Walk σ α) :=
  fun world => .throw (discipline.halt activation world)

theorem outputs {act : Act (Output σ) α} (quiet : act.Quiet) :
    Steady between stopped activation (Walk.outputs act) := by
  intro world
  -- A quiet act that is stopped has gone some way before.
  refine .outputs quiet (fun _ => discipline.quiet activation world) fun output same => ?_
  exact discipline.andStop (discipline.quiet activation world output same)
    (discipline.halt activation _)

theorem enclosed (steady : Steady between stopped activation walk) :
    Steady between stopped activation (Walk.enclosed walk) := by
  intro world
  have entered := discipline.quiet activation world (world.output.enter []) ⟨rfl, rfl⟩
  refine .enclosed ((steady _).mono (fun _ after reached _ => ?_) fun after halted => ?_)
  · exact discipline.andThen entered (discipline.andThen reached
      (discipline.quiet activation after after.output.leave ⟨rfl, rfl⟩))
  · exact discipline.andStop entered
      (discipline.stopQuiet after after.output.leave ⟨rfl, rfl⟩ halted)

theorem gathered (steady : Steady between stopped activation walk) :
    Steady between stopped activation (Walk.gathered walk) := by
  intro world
  have entered := discipline.quiet activation world (world.output.gathering "" true) ⟨rfl, rfl⟩
  refine .gathered ((steady _).mono (fun _ after reached _ => ?_) fun after halted => ?_)
  · exact discipline.andThen entered (discipline.andThen reached
      (discipline.quiet activation after (world.output.restore after.output) ⟨rfl, rfl⟩))
  · exact discipline.andStop entered
      (discipline.stopQuiet after (world.output.restore after.output) ⟨rfl, rfl⟩ halted)

/-! ### Single steps -/

theorem evaluate {place : Place σ} {expression : Expression σ} (fitting : fits place expression) :
    Steady between stopped place.activation (Walk.evaluate place expression) := by
  refine discipline.bind (fun world => .note (discipline.evaluation world fitting)) fun _ => ?_
  cases expression.bindings place.scope with
  | error error => exact discipline.throw _
  | ok bindings =>
    intro world
    refine .call (fun _ => discipline.call _ world _) fun host => ?_
    exact discipline.andStop (discipline.call _ world _ host) (discipline.halt _ _)

theorem evaluateAll {place : Place σ} (expressions : List (String × Expression σ))
    (fitting : ∀ named ∈ expressions, fits place named.2) :
    Steady between stopped place.activation (Walk.evaluateAll place expressions) := by
  induction expressions with
  | nil => exact discipline.pure _
  | cons named rest ih =>
    refine discipline.bind (discipline.evaluate (fitting named (List.mem_cons_self ..)))
      fun _ => ?_
    exact discipline.bind (ih fun other member => fitting other (List.mem_cons_of_mem _ member))
      fun _ => discipline.pure _

theorem boundValue {place : Place σ} (name : String) (expression : Option (Expression σ))
    (fitting : ∀ value ∈ expression, fits place value) :
    Steady between stopped place.activation (Walk.boundValue place name expression) := by
  cases expression with
  | some expression => exact discipline.evaluate (fitting expression rfl)
  | none =>
    simp only [Walk.boundValue]
    cases place.scope.context.forwarded name with
    | ok value => exact discipline.pure value
    | error error => exact discipline.throw _

theorem rounds (around : Surroundings σ) (layers : List Layer) (separator : Option String)
    {body : List Layer → Nat → Value → Walk σ Unit}
    (steady : ∀ layers position element,
      Steady between stopped activation (body layers position element))
    (position : Nat) (hasContent : Bool) (elements : List Value) :
    Steady between stopped activation
      (Walk.rounds around layers separator body position hasContent elements) := by
  induction elements generalizing position hasContent with
  | nil => exact discipline.pure ()
  | cons element elements ih =>
    refine discipline.bind (fun world => .beginRound ?_ ?_) fun _ => ?_
    · exact discipline.round activation world
    · exact discipline.halt activation world
    · exact discipline.bind (discipline.enclosed (steady _ _ _)) fun _ => ih _ _

/-! ### Sections and includes -/

theorem dispatch {number : Nat} {name : String} {forwards : List (String × Value)}
    {sections : List (Section σ)} {frames : List Frame} {outer : Activation σ}
    (around : Surroundings σ) (layers : List Layer) {body : Walk σ Unit}
    (steady : Steady between stopped outer body) :
    Steady between stopped (.within number forwards sections frames outer)
      (Walk.dispatch around layers number name body) := by
  intro world
  refine .note_bind (.known_bind ?_)
  show Walk.Leads _ (Walk.respond _ _ _ _ _ (world.ledger.memo number name)) _ _
  cases memo : world.ledger.memo number name with
  | none =>
    -- The first time: the body is walked from the ledger in which the section is pending.
    have walked := (discipline.enclosed steady)
      { world with ledger := world.ledger.started number name }
    refine .keeps_bind (.note_bind (.bind (walked.mono (fun _ _ => id) ?_) ?_))
    · exact fun _ => discipline.executedStop memo
    · exact fun _ _ reached => .keeps_bind (.note (discipline.executed _ memo reached))
  | some found =>
    cases found with
    | pending => exact .note_bind (.throw (discipline.reentered memo))
    | complete chunks =>
      show Walk.Leads _ (Walk.replay around layers number name chunks) _ _
      -- A replay only puts out texts, which may still be stopped by a cancellation.
      rw [Walk.replay_eq]
      have put : Walk.Leads (world.noted (.dispatch number name))
          (Walk.outputs (pushAll around layers chunks))
          (fun _ after => ∃ output, world.output.Quiet output ∧
            after = { world.noted (.dispatch number name) with output })
          (stopped (.within number forwards sections frames outer) world) :=
        .outputs (.pushAll around layers chunks) (fun _ output quiet => ⟨output, quiet, rfl⟩)
          fun output quiet => discipline.stopQuiet _ output quiet (discipline.replayedStop memo)
      refine put.bind ?_
      rintro _ _ ⟨output, quiet, rfl⟩
      exact .note (discipline.andThen (discipline.replayed memo)
        (discipline.quiet _ _ output quiet))

section Walking

variable {occasion : Occasion σ} {run : List Layer → Place σ → Block σ → Walk σ Unit}

theorem walkInclusion (programFits : ProgramFits fits occasion.program)
    (running : ∀ layers place block, BlockFits fits place block →
      ActivationFits fits place.activation →
      Steady between stopped place.activation (run layers place block))
    (layers : List Layer) (place : Place σ) (around : ActivationFits fits place.activation)
    (target : DocId) (forwards : List (String × Expression σ)) (sections : List (Section σ))
    (fitting : RoutineFits fits place (.inclusion target forwards sections)) :
    Steady between stopped place.activation
      (occasion.walkInclusion run layers place target forwards sections) := by
  rw [Occasion.walkInclusion]
  cases admitted : occasion.access place.activation.depth target with
  | error stop => exact discipline.throw stop
  | ok block =>
    refine discipline.bind (discipline.evaluateAll forwards fitting.1) fun values world => ?_
    -- The expressions fit in the document, and those of the sections fit at the include.
    have document := (Occasion.access_ok admitted).2
    have entered := running layers
      ⟨[], .within world.ledger.next values sections place.frames place.activation⟩ block
      (programFits target block document _) ⟨fitting.2, around⟩
    refine .enter_bind ((entered _).mono ?_ ?_)
    · exact fun _ _ => discipline.included
    · exact fun _ => discipline.includedStop

theorem walkSlot
    (running : ∀ layers place block, BlockFits fits place block →
      ActivationFits fits place.activation →
      Steady between stopped place.activation (run layers place block))
    (layers : List Layer) (activation : Activation σ) (around : ActivationFits fits activation)
    (name : String) :
    Steady between stopped activation (occasion.walkSlot run layers activation name) := by
  cases activation with
  | root => exact discipline.pure ()
  | within number forwards sections frames outer =>
    simp only [Occasion.walkSlot]
    cases found : (Activation.within number forwards sections frames outer).context.section?
        name with
    | none => exact discipline.pure ()
    | some body =>
      obtain ⟨part, supplied, rfl⟩ := section?_mem found
      exact discipline.dispatch _ layers
        (running _ ⟨frames, outer⟩ part.body (around.1.body part supplied) around.2)

mutual

theorem walkRoutine (programFits : ProgramFits fits occasion.program)
    (running : ∀ layers place block, BlockFits fits place block →
      ActivationFits fits place.activation →
      Steady between stopped place.activation (run layers place block))
    (layers : List Layer) (place : Place σ) (around : ActivationFits fits place.activation) :
    (routine : Routine σ) → RoutineFits fits place routine →
    Steady between stopped place.activation (occasion.walkRoutine run layers place routine)
  | .literal text, _ => discipline.outputs (.push _ _ _)
  | .output expression raw, fitting =>
    discipline.bind (discipline.evaluate fitting) fun _ => discipline.outputs (.pushAll _ _ _)
  | .effect expression, fitting =>
    discipline.bind (discipline.evaluate fitting) fun _ => discipline.pure ()
  | .binding name expression body, fitting =>
    discipline.bind (discipline.boundValue name expression fitting.1) fun value =>
      walkBlock programFits running layers (place.extend _) around false body (fitting.2 value)
  | .choice condition body otherwise, fitting => by
    refine discipline.bind (discipline.evaluate fitting.1) fun value => ?_
    cases value.isTruthy with
    | true => exact walkBlock programFits running layers place around false body fitting.2.1
    | false => exact walkBlock programFits running layers place around false otherwise fitting.2.2
  | .loop item index iterable separator body fallback, fitting => by
    refine discipline.bind (discipline.evaluate fitting.1) fun value => ?_
    cases value.items? with
    | none => exact discipline.throw _
    | some elements =>
      cases elements with
      | nil => exact walkBlock programFits running layers place around false fallback fitting.2.2
      | cons element elements =>
        refine discipline.rounds _ _ _ (fun layers position element => ?_) _ _ _
        exact walkBlock programFits running layers (place.extend _) around false body
          (fitting.2.1 position element)
  | .transform expression body, fitting =>
    discipline.bind (discipline.outputs (.poll _)) fun _ =>
      discipline.bind (discipline.gathered
        (walkBlock programFits running [] place around false body fitting.1)) fun result =>
        discipline.bind (discipline.evaluate (fitting.2 result.2)) fun _ =>
          discipline.outputs (.pushAll _ _ _)
  | .inclusion target forwards sections, fitting =>
    discipline.walkInclusion programFits running layers place around target forwards sections
      fitting
  | .slot name, _ => discipline.walkSlot running layers place.activation around name

theorem walkChildren (programFits : ProgramFits fits occasion.program)
    (running : ∀ layers place block, BlockFits fits place block →
      ActivationFits fits place.activation →
      Steady between stopped place.activation (run layers place block))
    (layers : List Layer) (place : Place σ) (around : ActivationFits fits place.activation) :
    (children : List (Routine σ)) → ChildrenFit fits place children →
    Steady between stopped place.activation (occasion.walkChildren run layers place children)
  | [], _ => discipline.pure ()
  | child :: children, fitting =>
    discipline.bind (walkRoutine programFits running layers place around child fitting.1)
      fun _ => walkChildren programFits running layers place around children fitting.2

theorem walkBlock (programFits : ProgramFits fits occasion.program)
    (running : ∀ layers place block, BlockFits fits place block →
      ActivationFits fits place.activation →
      Steady between stopped place.activation (run layers place block))
    (layers : List Layer) (place : Place σ) (around : ActivationFits fits place.activation)
    (hasContent : Bool) : (lines : List (Line σ)) → BlockFits fits place lines →
    Steady between stopped place.activation
      (occasion.walkBlock run layers place hasContent lines)
  | [], _ => discipline.pure ()
  | ⟨children, _, _⟩ :: lines, fitting =>
    discipline.bind (discipline.enclosed
      (walkChildren programFits running _ place around children fitting.1)) fun _ =>
        walkBlock programFits running layers place around _ lines fitting.2

end

end Walking

/-- The bodies of documents and sections are walked as the discipline says. -/
theorem walkBody {occasion : Occasion σ} (programFits : ProgramFits fits occasion.program)
    (fuel : Nat) (layers : List Layer) (place : Place σ) (block : Block σ)
    (fitting : BlockFits fits place block) (around : ActivationFits fits place.activation) :
    Steady between stopped place.activation (occasion.walkBody fuel layers place block) := by
  -- The recursion of the bodies is on the fuel, that within a body on its lines.
  induction fuel generalizing layers place block with
  | zero => exact discipline.throw _
  | succ fuel ih =>
    exact discipline.walkBlock programFits ih layers place around false block fitting

/-- So are documents that are rendered directly. -/
theorem walkDocument {occasion : Occasion σ} (programFits : ProgramFits fits occasion.program)
    (fuel : Nat) (document : DocId) :
    Steady between stopped .root (occasion.walkDocument fuel document) := by
  refine discipline.bind (discipline.outputs (.poll _)) fun _ => ?_
  cases found : occasion.program.document? document with
  | none => exact discipline.throw _
  | some block =>
    exact discipline.walkBody programFits fuel [] ⟨[], .root⟩ block
      (programFits document block found .root) True.intro

/-- Where a walk over a document leads from the start. -/
theorem walked {occasion : Occasion σ} (programFits : ProgramFits fits occasion.program)
    (fuel : Nat) (document : DocId) (host : σ) :
    between .root (.start host) (occasion.walk fuel document host).2 ∨
      stopped .root (.start host) (occasion.walk fuel document host).2 := by
  have leads := discipline.walkDocument programFits fuel document (.start host)
  rw [Occasion.walk]
  revert leads
  simp only [Walk.Leads]
  cases occasion.walkDocument fuel document (.start host) with
  | mk outcome after =>
    cases outcome with
    | ok _ => exact .inl
    | error _ => exact .inr

end Discipline

end Eager

end Stencil
