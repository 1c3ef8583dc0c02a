import Stencil.Flow.Gather
import Stencil.Flow.Join
import Stencil.Flow.Line
import Stencil.Render.Evaluate
import Stencil.Render.Progress
import Stencil.Value.Flattening

/-! # What routines put out

Every routine means a flow, in the scope in which it stands and with the progress made so
far.  The flow of an include is the flow of the included document; how one gets in there is
left to the setting.
-/

namespace Stencil

open Program (Routine Line Section Expression)

variable {σ : Type}

/-- What comes of the attempt to enter a document by an include. -/
inductive Entrance (σ : Type) where
  | admitted (render : Scope (SectionFlow σ) → Progress → Flow σ Progress)
  | refused (error : RenderError)
  /-- The include lies deeper than what is unfolded. -/
  | bottomless

structure Setting (σ : Type) where
  escape : Escape
  enter : DocId → Entrance σ

def loopFrame (item : String) (index : Option String) (position : Nat) (element : Value) :
    Frame :=
  (item, element) :: (index.map fun name => (name, Value.ofNat position)).toList

/-- The rounds of a loop over the elements from a position on, given whether an earlier round
had content and what a round does. -/
def Flow.rounds (separator : Option String)
    (body : (position : Nat) → Value → Progress → Flow σ Progress) :
    (position : Nat) → (hasContent : Bool) → List Value → Progress → Flow σ Progress
  | _, _, [], progress => .finish progress
  | position, hasContent, element :: elements, progress =>
    .round fun _ => do
      -- The separator is left to the round, which may come to nothing.
      let (progress, roundHasContent) ←
        (body position element progress).joined (if hasContent then separator else none) false
      Flow.rounds separator body (position + 1) (hasContent || roundHasContent) elements progress

/-- What a line puts out ahead of its first content: its terminator, if an earlier line of the
block has content, or else an empty marker. -/
def Flow.leadOf (terminator : Option String) (hasContent : Bool) : String :=
  if hasContent then terminator.getD "" else ""

namespace Program

/-- The value that a binding gives to its name: that of its expression, or without one the
value that the including document forwards under the name. -/
def boundValue {β : Type} (scope : Scope β) (name : String) :
    Option (Expression σ) → Flow σ Value
  | some expression => expression.evaluate scope
  | none => Flow.ofExcept (scope.context.forwarded name)

mutual

def routineFlow (setting : Setting σ) (scope : Scope (SectionFlow σ)) (progress : Progress) :
    Routine σ → Flow σ Progress
  | .literal text => .emit text fun _ => .finish progress
  | .output expression raw => do
    let value ← expression.evaluate scope
    Flow.emitAll (value.chunks raw setting.escape)
    return progress
  | .effect expression => do
    let _ ← expression.evaluate scope
    return progress
  | .binding name expression body => do
    let value ← boundValue scope name expression
    blockFlow setting (scope.extend [(name, value)]) false progress body
  | .choice condition body otherwise => do
    let value ← condition.evaluate scope
    if value.isTruthy then blockFlow setting scope false progress body
    else blockFlow setting scope false progress otherwise
  | .loop item index iterable separator body fallback => do
    let value ← iterable.evaluate scope
    match value.items? with
    | none => .fail (.notIterable value.typeName)
    | some [] => blockFlow setting scope false progress fallback
    | some elements =>
      Flow.rounds separator
        (fun position element progress =>
          blockFlow setting (scope.extend (loopFrame item index position element)) false
            progress body)
        0 false elements progress
  | .transform expression body => do
    let (progress, text) ←
      Flow.gathered fun _ => blockFlow setting scope false progress body
    -- The block has been escaped already, so what becomes of it is put out as it is.
    let value ← expression.evaluate (scope.extend [(blockName, .text text)])
    Flow.emitAll (value.chunks true setting.escape)
    return progress
  | .inclusion target forwards sections =>
    -- A document that cannot be entered is refused before anything is evaluated for it.
    match setting.enter target with
    | .admitted render => do
      let values ← Expression.evaluateAll scope forwards
      let context := scope.context.within values (sectionFlows setting scope sections)
      let progress ← render (.root context) (progress.enter [])
      return progress.leave
    | .refused error => .fail error
    | .bottomless => .bottomless
  | .slot name => Flow.slot scope.context name progress

def childrenFlow (setting : Setting σ) (scope : Scope (SectionFlow σ)) (progress : Progress) :
    List (Routine σ) → Flow σ Progress
  | [] => .finish progress
  | child :: children => do
    let progress ← routineFlow setting scope progress child
    childrenFlow setting scope progress children

/-- The flow of the lines of a block, given whether an earlier line had content. -/
def blockFlow (setting : Setting σ) (scope : Scope (SectionFlow σ)) (hasContent : Bool)
    (progress : Progress) : List (Line σ) → Flow σ Progress
  | [] => .finish progress
  | ⟨children, terminator, indentation⟩ :: lines => do
    let (progress, lineHasContent) ←
      (childrenFlow setting scope progress children).line (Flow.leadOf terminator hasContent)
        indentation .fresh
    blockFlow setting scope (hasContent || lineHasContent) progress lines

/-- The sections that an include supplies, each to be rendered in the scope of the include. -/
def sectionFlows (setting : Setting σ) (scope : Scope (SectionFlow σ)) :
    List (Section σ) → List (String × SectionFlow σ)
  | [] => []
  | ⟨name, body⟩ :: sections =>
    (name, fun progress => blockFlow setting scope false progress body)
      :: sectionFlows setting scope sections

end

end Program

end Stencil
