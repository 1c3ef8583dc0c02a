import Stencil.Proofs.Faults.Blame

/-! # Documents that lay blame

What routines put out, with blame for all that they do wrong themselves.  Each routine knows the
document in which it stands, and the context of its scope is that of the include under which
this document is being rendered, also where it is part of a section that another document puts
out.
-/

namespace Stencil

open Program (Routine Line Section Block Expression)

variable {σ α β : Type}

/-- A section that lays blame. -/
abbrev BlamingSection (σ : Type) := Progress → Blaming σ Progress

inductive BlamingEntrance (σ : Type) where
  | admitted (render : Scope (BlamingSection σ) → BlamingSection σ)
  | refused (fault : Fault σ)
  | bottomless

structure BlamingSetting (σ : Type) where
  escape : Escape
  enter : DocId → BlamingEntrance σ

namespace Blaming

open Program (blockName)

/-! ## Single steps -/

section Steps

variable (document : DocId) (routine : Routine σ) (scope : Scope β)

/-- The routine is to blame, in the context of its scope. -/
def blame (fault : Fault σ) : Blaming σ α :=
  throw ⟨document, scope.context.forwards.map (·.1), routine, fault⟩

def evaluate (expression : Expression σ) : Blaming σ Value :=
  match expression.reads.mapM (Expression.readName scope) with
  | .error error => blame document routine scope (.unresolved expression error)
  | .ok entries =>
    match expression.parameters.forM (Expression.checkParameter (entries.map (·.2))) with
    | .error error => blame document routine scope (.refused expression ⟨entries⟩ error)
    | .ok _ => ExceptT.lift (.call expression.callable ⟨expression.source, ⟨entries⟩⟩ .finish)

def evaluateAll : List (String × Expression σ) → Blaming σ (List (String × Value))
  | [] => pure []
  | (name, expression) :: rest => do
    let value ← evaluate document routine scope expression
    let values ← evaluateAll rest
    return (name, value) :: values

def boundValue (name : String) : Option (Expression σ) → Blaming σ Value
  | some expression => evaluate document routine scope expression
  | none =>
    match scope.context.forwarded? name with
    | some value => pure value
    | none => blame document routine scope (.unforwarded name)

end Steps

def emitAll (texts : List String) : Blaming σ Unit :=
  ExceptT.lift (Flow.emitAll texts)

def gathered (blaming : Unit → Blaming σ β) : Blaming σ (β × String) :=
  ExceptT.mk (.poll fun go => through (Flow.gatheredAfter "" true) (blaming go))

def rounds (separator : Option String) (body : (position : Nat) → Value → BlamingSection σ) :
    (position : Nat) → (hasContent : Bool) → List Value → BlamingSection σ
  | _, _, [], progress => pure progress
  | position, hasContent, element :: elements, progress =>
    ExceptT.mk (.round fun _ => ExceptT.run do
      let (progress, roundHasContent) ←
        through (Flow.joined (if hasContent then separator else none) false)
          (body position element progress)
      rounds separator body (position + 1) (hasContent || roundHasContent) elements progress)

def slot (context : Context (BlamingSection σ)) (name : String) : BlamingSection σ :=
  fun progress =>
  match context.section? name with
  | none => pure progress
  | some body =>
    match progress.own.lookup name with
    | some chunks => do
      emitAll chunks
      return progress
    | none => do
      let (outer, chunks) ← through (Flow.recordedAfter []) (body progress.leave)
      return outer.enter ((name, chunks) :: progress.own)

/-! ## Routines -/

mutual

/-- What a routine of a document does. -/
def routineFlow (setting : BlamingSetting σ) (document : DocId)
    (scope : Scope (BlamingSection σ)) (progress : Progress) (routine : Routine σ) :
    Blaming σ Progress :=
  match routine with
  | .literal text => do
    emitAll [text]
    return progress
  | .output expression raw => do
    let value ← evaluate document routine scope expression
    emitAll (value.chunks raw setting.escape)
    return progress
  | .effect expression => do
    let _ ← evaluate document routine scope expression
    return progress
  | .binding name expression body => do
    let value ← boundValue document routine scope name expression
    blockFlow setting document (scope.extend [(name, value)]) false progress body
  | .choice condition body otherwise => do
    let value ← evaluate document routine scope condition
    if value.isTruthy then blockFlow setting document scope false progress body
    else blockFlow setting document scope false progress otherwise
  | .loop item index iterable separator body fallback => do
    let value ← evaluate document routine scope iterable
    match value.items? with
    | none => blame document routine scope (.notList value)
    | some [] => blockFlow setting document scope false progress fallback
    | some elements =>
      rounds separator
        (fun position element progress =>
          blockFlow setting document (scope.extend (loopFrame item index position element)) false
            progress body)
        0 false elements progress
  | .transform expression body => do
    let (progress, text) ←
      gathered fun _ => blockFlow setting document scope false progress body
    let value ← evaluate document routine (scope.extend [(blockName, .text text)]) expression
    emitAll (value.chunks true setting.escape)
    return progress
  | .inclusion target forwards sections =>
    match setting.enter target with
    | .admitted render => do
      let values ← evaluateAll document routine scope forwards
      let context := scope.context.within values (sectionFlows setting document scope sections)
      let progress ← render (.root context) (progress.enter [])
      return progress.leave
    | .refused fault => blame document routine scope fault
    | .bottomless => ExceptT.lift .bottomless
  | .slot name => slot scope.context name progress

def childrenFlow (setting : BlamingSetting σ) (document : DocId)
    (scope : Scope (BlamingSection σ)) (progress : Progress) :
    List (Routine σ) → Blaming σ Progress
  | [] => pure progress
  | child :: children => do
    let progress ← routineFlow setting document scope progress child
    childrenFlow setting document scope progress children

def blockFlow (setting : BlamingSetting σ) (document : DocId)
    (scope : Scope (BlamingSection σ)) (hasContent : Bool) (progress : Progress) :
    List (Line σ) → Blaming σ Progress
  | [] => pure progress
  | ⟨children, terminator, indentation⟩ :: lines => do
    let (progress, lineHasContent) ←
      through (Flow.line (Flow.leadOf terminator hasContent) indentation .fresh)
        (childrenFlow setting document scope progress children)
    blockFlow setting document scope (hasContent || lineHasContent) progress lines

/-- The sections that an include supplies stand in the document of the include. -/
def sectionFlows (setting : BlamingSetting σ) (document : DocId)
    (scope : Scope (BlamingSection σ)) : List (Section σ) → List (String × BlamingSection σ)
  | [] => []
  | ⟨name, body⟩ :: sections =>
    (name, fun progress => blockFlow setting document scope false progress body)
      :: sectionFlows setting document scope sections

end

/-! ## Documents -/

def entrance (program : Program σ) (options : Render.Options σ) :
    (levels : Nat) → DocId → BlamingEntrance σ
  | 0, target =>
    match options.maxIncludeDepth with
    | some limit => .refused (.tooDeep target limit)
    | none => .bottomless
  | levels + 1, target =>
    match program.document? target with
    | some block =>
      .admitted fun scope progress =>
        blockFlow ⟨options.escape, entrance program options levels⟩ target scope false progress
          block
    | none => .refused (.dangling target)

def setting (program : Program σ) (options : Render.Options σ) : BlamingSetting σ :=
  ⟨options.escape, entrance program options (options.maxIncludeDepth.getD Program.horizon)⟩

/-- A document of a program that is rendered directly. -/
def documentFlow (program : Program σ) (options : Render.Options σ) (document : DocId)
    (block : Block σ) : Blaming σ Progress :=
  blockFlow (setting program options) document (.root .root) false .start block

end Blaming

end Stencil
