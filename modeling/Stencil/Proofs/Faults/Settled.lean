import Stencil.Proofs.Faults.Rendering

/-! # Laying blame changes nothing

With every blame settled as its error, a rendering that lays blame is the rendering itself.
-/

namespace Stencil

open Program (Routine Line Section Block Expression)

variable {σ β : Type}

def BlamingSection.settled (body : BlamingSection σ) : SectionFlow σ :=
  fun progress => Blaming.settled (body progress)

def Context.settled (context : Context (BlamingSection σ)) : Context (SectionFlow σ) :=
  ⟨context.depth, context.forwards,
    context.sections.map fun part => (part.1, BlamingSection.settled part.2)⟩

def Scope.settled (scope : Scope (BlamingSection σ)) : Scope (SectionFlow σ) :=
  ⟨scope.frames, scope.context.settled⟩

/-- The documents are entered in the same way. -/
inductive BlamingEntrance.Settles : BlamingEntrance σ → Entrance σ → Prop where
  | admitted {render : Scope (BlamingSection σ) → BlamingSection σ}
      {other : Scope (SectionFlow σ) → SectionFlow σ} :
      (∀ scope, BlamingSection.settled (render scope) = other scope.settled) →
      Settles (.admitted render) (.admitted other)
  | refused (fault : Fault σ) : Settles (.refused fault) (.refused fault.error)
  | bottomless : Settles .bottomless .bottomless

structure BlamingSetting.Settles (blaming : BlamingSetting σ) (setting : Setting σ) : Prop where
  escape : blaming.escape = setting.escape
  enter : ∀ target, (blaming.enter target).Settles (setting.enter target)

theorem Context.section?_settled (context : Context (BlamingSection σ)) (name : String) :
    context.settled.section? name = (context.section? name).map BlamingSection.settled := by
  simp only [section?, settled]
  induction context.sections with
  | nil => rfl
  | cons part sections ih =>
    obtain ⟨key, body⟩ := part
    simp only [List.map_cons, List.lookup_cons, ih]
    cases name == key <;> rfl

namespace Blaming

/-! ## Single steps -/

section Steps

variable (document : DocId) (routine : Routine σ) (scope : Scope (BlamingSection σ))

@[simp]
theorem settled_evaluate (expression : Expression σ) :
    settled (evaluate document routine scope expression) =
      expression.evaluate scope.settled := by
  -- Only the context is settled, and names are read from the frames.
  have same : Expression.readName scope.settled = Expression.readName scope := rfl
  rw [evaluate, Expression.evaluate]
  cases read : expression.reads.mapM (Expression.readName scope) with
  | error error =>
    have failed : expression.bindings scope.settled = .error error := by
      rw [Expression.bindings, same, read]
      rfl
    rw [failed]
    rfl
  | ok entries =>
    have given : expression.bindings scope.settled =
        (expression.parameters.forM (Expression.checkParameter (entries.map (·.2))) >>=
          fun _ => pure ⟨entries⟩) := by
      rw [Expression.bindings, same, read]
      rfl
    rw [given]
    dsimp only
    cases expression.parameters.forM (Expression.checkParameter (entries.map (·.2))) <;> rfl

@[simp]
theorem settled_evaluateAll (expressions : List (String × Expression σ)) :
    settled (evaluateAll document routine scope expressions) =
      Expression.evaluateAll scope.settled expressions := by
  induction expressions with
  | nil => rfl
  | cons named rest ih =>
    simp only [evaluateAll, Expression.evaluateAll, settled_bind, settled_pure, settled_evaluate,
      ih]

@[simp]
theorem settled_boundValue (name : String) (expression : Option (Expression σ)) :
    settled (boundValue document routine scope name expression) =
      Program.boundValue scope.settled name expression := by
  cases expression with
  | some expression => exact settled_evaluate document routine scope expression
  | none =>
    have same : scope.settled.context.forwarded? name = scope.context.forwarded? name := rfl
    simp only [boundValue, Program.boundValue, Context.forwarded, same]
    cases scope.context.forwarded? name with
    | none => rfl
    | some value => rfl

end Steps

@[simp]
theorem settled_emitAll (texts : List String) :
    settled (emitAll texts : Blaming σ Unit) = Flow.emitAll texts :=
  settled_lift _

theorem settled_gathered (blaming : Unit → Blaming σ β) :
    settled (gathered blaming) = Flow.gathered fun go => settled (blaming go) :=
  congrArg Flow.poll (funext fun go => settled_through .gatheredAfter ("", true) (blaming go))

theorem settled_rounds (separator : Option String) {body : Nat → Value → BlamingSection σ}
    {others : Nat → Value → SectionFlow σ}
    (same : ∀ position element progress,
      settled (body position element progress) = others position element progress)
    (position : Nat) (hasContent : Bool) (elements : List Value) (progress : Progress) :
    settled (rounds separator body position hasContent elements progress) =
      Flow.rounds separator others position hasContent elements progress := by
  induction elements generalizing position hasContent progress with
  | nil => rfl
  | cons element elements ih =>
    refine congrArg Flow.round (funext fun _ => (settled_bind _ _).trans ?_)
    simp only [settled_through (.joined _), same, ih]

theorem settled_slot (context : Context (BlamingSection σ)) (name : String)
    (progress : Progress) :
    settled (slot context name progress) = Flow.slot context.settled name progress := by
  simp only [slot, Flow.slot, Context.section?_settled]
  cases context.section? name with
  | none => rfl
  | some body =>
    simp only [Option.map_some]
    cases progress.own.lookup name with
    | none =>
      simp only [settled_bind, settled_through .recordedAfter, settled_pure,
        BlamingSection.settled, Flow.recorded]
    | some chunks => simp only [settled_bind, settled_emitAll, settled_pure]

/-! ## Routines -/

section Routines

variable {blaming : BlamingSetting σ} {setting : Setting σ}

mutual

theorem settled_routineFlow (settles : blaming.Settles setting) (document : DocId)
    (scope : Scope (BlamingSection σ)) (progress : Progress) : (routine : Routine σ) →
    settled (routineFlow blaming document scope progress routine) =
      Program.routineFlow setting scope.settled progress routine
  | .literal text => rfl
  | .output expression raw => by
    simp only [routineFlow, settled_bind, settled_evaluate, settled_emitAll, settled_pure,
      settles.escape]
    rfl
  | .effect expression => by
    simp only [routineFlow, settled_bind, settled_evaluate, settled_pure]
    rfl
  | .binding name expression body => by
    simp only [routineFlow, settled_bind, settled_boundValue,
      settled_blockFlow settles document _ false _ body]
    rfl
  | .choice condition body otherwise => by
    simp only [routineFlow, settled_bind, settled_evaluate]
    refine congrArg (Flow.bind _) (funext fun value => ?_)
    cases value.isTruthy with
    | true => exact settled_blockFlow settles document scope false progress body
    | false => exact settled_blockFlow settles document scope false progress otherwise
  | .loop item index iterable separator body fallback => by
    simp only [routineFlow, settled_bind, settled_evaluate]
    refine congrArg (Flow.bind _) (funext fun value => ?_)
    cases value.items? with
    | none => rfl
    | some elements =>
      cases elements with
      | nil => exact settled_blockFlow settles document scope false progress fallback
      | cons element elements =>
        refine settled_rounds separator (fun position element progress => ?_) 0 false _ progress
        exact settled_blockFlow settles document
          (scope.extend (loopFrame item index position element)) false progress body
  | .transform expression body => by
    simp only [routineFlow, settled_bind, settled_gathered, settled_evaluate, settled_emitAll,
      settled_pure, settled_blockFlow settles document scope false progress body, settles.escape]
    rfl
  | .inclusion target forwards sections => by
    have entered := settles.enter target
    simp only [routineFlow, Program.routineFlow]
    revert entered
    generalize blaming.enter target = one
    generalize setting.enter target = other
    rintro (same | ⟨fault⟩ | _)
    case admitted render others =>
      simp only [settled_bind, settled_evaluateAll, settled_pure]
      refine congrArg (Flow.bind _) (funext fun values => ?_)
      -- The sections go along into the included document and are settled there.
      have supplied := settled_sectionFlows settles document scope sections
      have context :
          Context.settled
              (scope.context.within values (sectionFlows blaming document scope sections)) =
            .within scope.settled.context values
              (Program.sectionFlows setting scope.settled sections) := by
        simp only [Context.settled, Context.within, Scope.settled, List.map_reverse, supplied]
      rw [← context]
      exact congrArg (Flow.bind · _) (congrFun (same (.root _)) (progress.enter []))
    case refused => rfl
    case bottomless => rfl
  | .slot name => settled_slot scope.context name progress

theorem settled_childrenFlow (settles : blaming.Settles setting) (document : DocId)
    (scope : Scope (BlamingSection σ)) (progress : Progress) : (children : List (Routine σ)) →
    settled (childrenFlow blaming document scope progress children) =
      Program.childrenFlow setting scope.settled progress children
  | [] => rfl
  | child :: children => by
    simp only [childrenFlow, Program.childrenFlow, settled_bind,
      settled_routineFlow settles document scope progress child]
    refine congrArg (Flow.bind _) (funext fun progress => ?_)
    exact settled_childrenFlow settles document scope progress children

theorem settled_blockFlow (settles : blaming.Settles setting) (document : DocId)
    (scope : Scope (BlamingSection σ)) (hasContent : Bool) (progress : Progress) :
    (lines : List (Line σ)) →
    settled (blockFlow blaming document scope hasContent progress lines) =
      Program.blockFlow setting scope.settled hasContent progress lines
  | [] => rfl
  | ⟨children, terminator, indentation⟩ :: lines => by
    simp only [blockFlow, Program.blockFlow, settled_bind, settled_through (.line _ _),
      settled_childrenFlow settles document scope progress children]
    refine congrArg (Flow.bind _) (funext fun result => ?_)
    exact settled_blockFlow settles document scope (hasContent || result.2) result.1 lines

theorem settled_sectionFlows (settles : blaming.Settles setting) (document : DocId)
    (scope : Scope (BlamingSection σ)) : (sections : List (Section σ)) →
    (sectionFlows blaming document scope sections).map
        (fun part => (part.1, BlamingSection.settled part.2)) =
      Program.sectionFlows setting scope.settled sections
  | [] => rfl
  | ⟨name, body⟩ :: sections => by
    simp only [sectionFlows, Program.sectionFlows, List.map_cons,
      settled_sectionFlows settles document scope sections]
    refine congrArg (fun body => (name, body) :: _) (funext fun progress => ?_)
    exact settled_blockFlow settles document scope false progress body

end

end Routines

/-! ## Documents -/

variable (program : Program σ) (options : Render.Options σ)

theorem entrance_settles (levels : Nat) (target : DocId) :
    (entrance program options levels target).Settles
      (program.entrance options levels target) := by
  induction levels generalizing target with
  | zero =>
    simp only [entrance, Program.entrance]
    cases options.maxIncludeDepth with
    | none => exact .bottomless
    | some limit => exact .refused _
  | succ levels ih =>
    simp only [entrance, Program.entrance]
    cases program.document? target with
    | none => exact .refused _
    | some block =>
      refine .admitted fun scope => funext fun progress => ?_
      exact settled_blockFlow ⟨rfl, ih⟩ target scope false progress block

/-- The flow of a document is what lays blame, with the blame settled. -/
theorem settled_documentFlow {document : DocId} {block : Block σ}
    (found : program.document? document = some block) :
    settled (documentFlow program options document block) = program.flow options document := by
  rw [Program.flow, found]
  exact settled_blockFlow ⟨rfl, entrance_settles program options _⟩ document _ false .start block

end Blaming

end Stencil
