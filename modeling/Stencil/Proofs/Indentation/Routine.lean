import Stencil.Proofs.Indentation.Marked
import Stencil.Render.Document

/-! # Marked renderings

The routines of a program with marks on all that they put out.  Without its marks a marked
rendering is the rendering itself.
-/

namespace Stencil

open Program (Routine Line Section Expression)

variable {σ : Type}

/-- A section that marks what it puts out. -/
abbrev MarkedSection (σ : Type) := Progress → Marked σ Progress

inductive MarkedEntrance (σ : Type) where
  | admitted (render : Scope (MarkedSection σ) → MarkedSection σ)
  | refused (error : RenderError)
  | bottomless

structure MarkedSetting (σ : Type) where
  escape : Escape
  enter : DocId → MarkedEntrance σ

namespace Marked

open Program (blockName boundValue)

def rounds (separator : Option String) (body : (position : Nat) → Value → MarkedSection σ) :
    (position : Nat) → (hasContent : Bool) → List Value → MarkedSection σ
  | _, _, [], progress => finish progress
  | position, hasContent, element :: elements, progress =>
    round fun _ => do
      let (progress, roundHasContent) ←
        (body position element progress).joined (if hasContent then separator else none) false
      rounds separator body (position + 1) (hasContent || roundHasContent) elements progress

def slot (context : Context (MarkedSection σ)) (name : String) : MarkedSection σ := fun progress =>
  match context.section? name with
  | none => finish progress
  | some body =>
    match progress.own.lookup name with
    | some chunks => do
      emitAll .replay chunks
      return progress
    | none => do
      let (outer, chunks) ← (body progress.leave).recorded
      return outer.enter ((name, chunks) :: progress.own)

mutual

def routineFlow (setting : MarkedSetting σ) (scope : Scope (MarkedSection σ))
    (progress : Progress) : Routine σ → Marked σ Progress
  | .literal text => emit (.bare .content text) fun _ => finish progress
  | .output expression raw => do
    let value ← ofFlow (expression.evaluate scope)
    emitAll .content (value.chunks raw setting.escape)
    return progress
  | .effect expression => do
    let _ ← ofFlow (expression.evaluate scope)
    return progress
  | .binding name expression body => do
    let value ← ofFlow (boundValue scope name expression)
    blockFlow setting (scope.extend [(name, value)]) false progress body
  | .choice condition body otherwise => do
    let value ← ofFlow (condition.evaluate scope)
    if value.isTruthy then blockFlow setting scope false progress body
    else blockFlow setting scope false progress otherwise
  | .loop item index iterable separator body fallback => do
    let value ← ofFlow (iterable.evaluate scope)
    match value.items? with
    | none => fail (.notIterable value.typeName)
    | some [] => blockFlow setting scope false progress fallback
    | some elements =>
      rounds separator
        (fun position element progress =>
          blockFlow setting (scope.extend (loopFrame item index position element)) false
            progress body)
        0 false elements progress
  | .transform expression body => do
    let (progress, text) ← gathered fun _ => blockFlow setting scope false progress body
    let value ← ofFlow (expression.evaluate (scope.extend [(blockName, .text text)]))
    emitAll .content (value.chunks true setting.escape)
    return progress
  | .inclusion target forwards sections =>
    match setting.enter target with
    | .admitted render => do
      let values ← ofFlow (Expression.evaluateAll scope forwards)
      let context := scope.context.within values (sectionFlows setting scope sections)
      let progress ← render (.root context) (progress.enter [])
      return progress.leave
    | .refused error => fail error
    | .bottomless => bottomless
  | .slot name => slot scope.context name progress

def childrenFlow (setting : MarkedSetting σ) (scope : Scope (MarkedSection σ))
    (progress : Progress) : List (Routine σ) → Marked σ Progress
  | [] => finish progress
  | child :: children => do
    let progress ← routineFlow setting scope progress child
    childrenFlow setting scope progress children

def blockFlow (setting : MarkedSetting σ) (scope : Scope (MarkedSection σ)) (hasContent : Bool)
    (progress : Progress) : List (Line σ) → Marked σ Progress
  | [] => finish progress
  | ⟨children, terminator, indentation⟩ :: lines => do
    let (progress, lineHasContent) ←
      (childrenFlow setting scope progress children).line (Flow.leadOf terminator hasContent)
        indentation .fresh
    blockFlow setting scope (hasContent || lineHasContent) progress lines

def sectionFlows (setting : MarkedSetting σ) (scope : Scope (MarkedSection σ)) :
    List (Section σ) → List (String × MarkedSection σ)
  | [] => []
  | ⟨name, body⟩ :: sections =>
    (name, fun progress => blockFlow setting scope false progress body)
      :: sectionFlows setting scope sections

end

def entrance (program : Program σ) (options : Render.Options σ) :
    (levels : Nat) → DocId → MarkedEntrance σ
  | 0, target =>
    match options.maxIncludeDepth with
    | some limit => .refused (.includeTooDeep target limit)
    | none => .bottomless
  | levels + 1, target =>
    match program.document? target with
    | some block =>
      .admitted fun scope progress =>
        blockFlow ⟨options.escape, entrance program options levels⟩ scope false progress block
    | none => .refused (.unknownDocument target)

def flow (program : Program σ) (options : Render.Options σ) (document : DocId) :
    Marked σ Progress :=
  match program.document? document with
  | some block =>
    blockFlow
      ⟨options.escape, entrance program options (options.maxIncludeDepth.getD Program.horizon)⟩
      (.root .root) false .start block
  | none => fail (.unknownDocument document)

end Marked

/-! ## Without marks -/

def MarkedSection.bare (body : MarkedSection σ) : SectionFlow σ :=
  fun progress => (body progress).bare

def Context.bare (context : Context (MarkedSection σ)) : Context (SectionFlow σ) :=
  ⟨context.depth, context.forwards, context.sections.map fun part => (part.1, part.2.bare)⟩

def Scope.bare (scope : Scope (MarkedSection σ)) : Scope (SectionFlow σ) :=
  ⟨scope.frames, scope.context.bare⟩

/-- Without marks the documents are entered in the same way. -/
inductive MarkedEntrance.Bares : MarkedEntrance σ → Entrance σ → Prop where
  | admitted {render : Scope (MarkedSection σ) → MarkedSection σ}
      {other : Scope (SectionFlow σ) → SectionFlow σ} :
      (∀ scope, (render scope).bare = other scope.bare) →
      Bares (.admitted render) (.admitted other)
  | refused (error : RenderError) : Bares (.refused error) (.refused error)
  | bottomless : Bares .bottomless .bottomless

structure MarkedSetting.Bares (marked : MarkedSetting σ) (setting : Setting σ) : Prop where
  escape : marked.escape = setting.escape
  enter : ∀ target, (marked.enter target).Bares (setting.enter target)

theorem Context.section?_bare (context : Context (MarkedSection σ)) (name : String) :
    context.bare.section? name = (context.section? name).map MarkedSection.bare := by
  simp only [section?, bare]
  induction context.sections with
  | nil => rfl
  | cons part sections ih =>
    obtain ⟨key, body⟩ := part
    simp only [List.map_cons, List.lookup_cons, ih]
    cases name == key <;> rfl

namespace Marked

theorem bare_boundValue (scope : Scope (MarkedSection σ)) (name : String)
    (expression : Option (Expression σ)) :
    Program.boundValue scope.bare name expression = Program.boundValue scope name expression := by
  cases expression <;> rfl

theorem bare_evaluateAll (scope : Scope (MarkedSection σ))
    (expressions : List (String × Expression σ)) :
    Expression.evaluateAll scope.bare expressions = Expression.evaluateAll scope expressions := by
  induction expressions with
  | nil => rfl
  | cons named rest ih =>
    simp only [Expression.evaluateAll, ih]
    rfl

theorem bare_rounds (separator : Option String) {body : Nat → Value → MarkedSection σ}
    {others : Nat → Value → SectionFlow σ}
    (same : ∀ position element progress,
      (body position element progress).bare = others position element progress)
    (position : Nat) (hasContent : Bool) (elements : List Value) (progress : Progress) :
    (rounds separator body position hasContent elements progress).bare =
      Flow.rounds separator others position hasContent elements progress := by
  induction elements generalizing position hasContent progress with
  | nil => rfl
  | cons element elements ih =>
    refine congrArg Flow.round (funext fun _ => ?_)
    simp only [bare_bind, bare_joined, same, ih]

theorem bare_slot (context : Context (MarkedSection σ)) (name : String) (progress : Progress) :
    (slot context name progress).bare = Flow.slot context.bare name progress := by
  simp only [slot, Flow.slot, Context.section?_bare]
  cases context.section? name with
  | none => rfl
  | some body =>
    simp only [Option.map_some]
    cases progress.own.lookup name with
    | none => simp only [bare_bind, bare_recorded, bare_pure, MarkedSection.bare]
    | some chunks => simp only [bare_bind, bare_emitAll, bare_pure]

section Routines

variable {marked : MarkedSetting σ} {setting : Setting σ}

mutual

theorem bare_routineFlow (settings : marked.Bares setting) (scope : Scope (MarkedSection σ))
    (progress : Progress) : (routine : Routine σ) →
    (routineFlow marked scope progress routine).bare =
      Program.routineFlow setting scope.bare progress routine
  | .literal text => rfl
  | .output expression raw => by
    simp only [routineFlow, bare_bind, bare_ofFlow, bare_emitAll, bare_pure, settings.escape]
    rfl
  | .effect expression => by
    simp only [routineFlow, bare_bind, bare_ofFlow, bare_pure]
    rfl
  | .binding name expression body => by
    simp only [routineFlow, bare_bind, bare_ofFlow, ← bare_boundValue,
      bare_blockFlow settings _ false _ body]
    rfl
  | .choice condition body otherwise => by
    simp only [routineFlow, bare_bind, bare_ofFlow]
    refine congrArg (Flow.bind _) (funext fun value => ?_)
    cases value.isTruthy with
    | true => exact bare_blockFlow settings scope false progress body
    | false => exact bare_blockFlow settings scope false progress otherwise
  | .loop item index iterable separator body fallback => by
    simp only [routineFlow, bare_bind, bare_ofFlow]
    refine congrArg (Flow.bind _) (funext fun value => ?_)
    cases value.items? with
    | none => rfl
    | some elements =>
      cases elements with
      | nil => exact bare_blockFlow settings scope false progress fallback
      | cons element elements =>
        refine bare_rounds separator (fun position element progress => ?_) 0 false _ progress
        exact bare_blockFlow settings (scope.extend (loopFrame item index position element)) false
          progress body
  | .transform expression body => by
    simp only [routineFlow, bare_bind, bare_gathered, bare_ofFlow, bare_emitAll, bare_pure,
      bare_blockFlow settings scope false progress body]
    rfl
  | .inclusion target forwards sections => by
    have entered := settings.enter target
    simp only [routineFlow, Program.routineFlow]
    revert entered
    generalize marked.enter target = one
    generalize setting.enter target = other
    rintro (same | ⟨error⟩ | _)
    case admitted render others =>
      simp only [bare_bind, bare_ofFlow, bare_pure, ← bare_evaluateAll]
      refine congrArg (Flow.bind _) (funext fun values => ?_)
      have supplied := bare_sectionFlows settings scope sections
      have context :
          Context.bare (scope.context.within values (sectionFlows marked scope sections)) =
            .within scope.bare.context values
              (Program.sectionFlows setting scope.bare sections) := by
        simp only [Context.bare, Context.within, Scope.bare, List.map_reverse, supplied]
      rw [← context]
      exact congrArg (Flow.bind · _) (congrFun (same (.root _)) (progress.enter []))
    case refused => rfl
    case bottomless => rfl
  | .slot name => bare_slot scope.context name progress

theorem bare_childrenFlow (settings : marked.Bares setting) (scope : Scope (MarkedSection σ))
    (progress : Progress) : (children : List (Routine σ)) →
    (childrenFlow marked scope progress children).bare =
      Program.childrenFlow setting scope.bare progress children
  | [] => rfl
  | child :: children => by
    simp only [childrenFlow, Program.childrenFlow, bare_bind,
      bare_routineFlow settings scope progress child]
    refine congrArg (Flow.bind _) (funext fun progress => ?_)
    exact bare_childrenFlow settings scope progress children

theorem bare_blockFlow (settings : marked.Bares setting) (scope : Scope (MarkedSection σ))
    (hasContent : Bool) (progress : Progress) : (lines : List (Line σ)) →
    (blockFlow marked scope hasContent progress lines).bare =
      Program.blockFlow setting scope.bare hasContent progress lines
  | [] => rfl
  | ⟨children, terminator, indentation⟩ :: lines => by
    simp only [blockFlow, Program.blockFlow, bare_bind, bare_line,
      bare_childrenFlow settings scope progress children]
    refine congrArg (Flow.bind _) (funext fun result => ?_)
    exact bare_blockFlow settings scope (hasContent || result.2) result.1 lines

theorem bare_sectionFlows (settings : marked.Bares setting) (scope : Scope (MarkedSection σ)) :
    (sections : List (Section σ)) →
    (sectionFlows marked scope sections).map (fun part => (part.1, part.2.bare)) =
      Program.sectionFlows setting scope.bare sections
  | [] => rfl
  | ⟨name, body⟩ :: sections => by
    simp only [sectionFlows, Program.sectionFlows, List.map_cons,
      bare_sectionFlows settings scope sections]
    refine congrArg (fun body => (name, body) :: _) (funext fun progress => ?_)
    exact bare_blockFlow settings scope false progress body

end

end Routines

/-! ## Documents -/

variable (program : Program σ) (options : Render.Options σ)

theorem entrance_bares (levels : Nat) (target : DocId) :
    (entrance program options levels target).Bares (program.entrance options levels target) := by
  induction levels generalizing target with
  | zero =>
    simp only [entrance, Program.entrance]
    cases options.maxIncludeDepth with
    | none => exact .bottomless
    | some limit => exact .refused _
  | succ levels ih =>
    simp only [entrance, Program.entrance]
    cases program.document? target with
    | none => exact .refused _
    | some block =>
      refine .admitted fun scope => funext fun progress => ?_
      exact bare_blockFlow ⟨rfl, ih⟩ scope false progress block

/-- A marked rendering without its marks is the rendering. -/
theorem bare_flow (document : DocId) :
    (flow program options document).bare = program.flow options document := by
  simp only [flow, Program.flow]
  cases program.document? document with
  | none => rfl
  | some block =>
    exact bare_blockFlow ⟨rfl, entrance_bares program options _⟩ _ false .start block

end Marked

end Stencil
