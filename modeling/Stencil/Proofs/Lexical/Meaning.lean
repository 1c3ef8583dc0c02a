import Stencil.Program.Compile
import Stencil.Render.Document

/-! # Templates by name

What a template means without being compiled.  A fragment is evaluated with the names that are
bound around it in its own document, the innermost binding first: the name of a binding in its
body, the element and the position of a loop in its body, the rendered block of a transform in
the transform's expression.  The bodies of sections keep what is bound around their include.
There are no frames and no addresses.

Not every template means something.  What ends a rendering where a template has no meaning is
left open here as `absent`.
-/

namespace Stencil

open Host (Bindings Interpretation Parameter)
open Template (Fragment Node Document)

namespace Lexical

/-- Names with their values, the innermost first. -/
abbrev Environment := List (String × Value)

variable {σ : Type} (interpretation : Interpretation σ) (absent : RenderError)

/-- Checks the value that a parameter has by its name. -/
def checkNamed (bindings : Bindings) (parameter : Parameter) : Except RenderError Unit :=
  match bindings.find? parameter.name with
  | some value => parameter.check value
  | none => .ok ()

/-- The value of a fragment: what is bound to its names is handed to the callable that the host
gives for it. -/
def evaluate (environment : Environment) (fragment : Fragment) : Flow σ Value :=
  match interpretation fragment with
  | .error _ => .fail absent
  | .ok callable =>
    match fragment.names.mapM fun name => (environment.lookup name).map (name, ·) with
    | none => .fail absent
    | some entries =>
      match callable.signature.parameters.forM (checkNamed ⟨entries⟩) with
      | .ok _ => .call callable ⟨fragment.source, ⟨entries⟩⟩ .finish
      | .error error => .fail error

/-- The values of named fragments in order. -/
def evaluateAll (environment : Environment) :
    List (String × Fragment) → Flow σ (List (String × Value))
  | [] => .finish []
  | (name, fragment) :: rest => do
    let value ← evaluate interpretation absent environment fragment
    let values ← evaluateAll environment rest
    return (name, value) :: values

/-- The value that a binding gives to its name. -/
def boundValue (context : Context (SectionFlow σ)) (environment : Environment) (name : String) :
    Option Fragment → Flow σ Value
  | some fragment => evaluate interpretation absent environment fragment
  | none => Flow.ofExcept (context.forwarded name)

mutual

/-- The flow of a node. -/
def nodeFlow (setting : Setting σ) (context : Context (SectionFlow σ))
    (environment : Environment) (progress : Progress) : Node → Flow σ Progress
  | .line _ | .stray _ => .fail absent
  | .literal text => .emit text fun _ => .finish progress
  | .expression kind fragment => do
    let value ← evaluate interpretation absent environment fragment
    match kind with
    | .normal => do
      Flow.emitAll (value.chunks false setting.escape)
      return progress
    | .inject => do
      Flow.emitAll (value.chunks true setting.escape)
      return progress
    | .effect => return progress
  | .binding name fragment body => do
    let value ← boundValue interpretation absent context environment name fragment
    blockFlow setting context ((name, value) :: environment) false progress body
  | .choice condition body otherwise => do
    let value ← evaluate interpretation absent environment condition
    if value.isTruthy then blockFlow setting context environment false progress body
    else blockFlow setting context environment false progress otherwise
  | .loop item index iterable separator body fallback => do
    let value ← evaluate interpretation absent environment iterable
    match value.items? with
    | none => .fail (.notIterable value.typeName)
    | some [] => blockFlow setting context environment false progress fallback
    | some elements =>
      Flow.rounds separator
        (fun position element progress =>
          blockFlow setting context (loopFrame item index position element ++ environment) false
            progress body)
        0 false elements progress
  | .transform fragment body => do
    let (progress, text) ←
      Flow.gathered fun _ => blockFlow setting context environment false progress body
    let value ← evaluate interpretation absent
      ((Program.blockName, .text text) :: environment) fragment
    Flow.emitAll (value.chunks true setting.escape)
    return progress
  | .inclusion target forwards sections =>
    match setting.enter target with
    | .admitted render => do
      let values ← evaluateAll interpretation absent environment forwards
      let inner := context.within values (sectionFlows setting context environment sections)
      let progress ← render (.root inner) (progress.enter [])
      return progress.leave
    | .refused error => .fail error
    | .bottomless => .bottomless
  | .slot name => Flow.slot context name progress

/-- The flow of the children of a line.  Stray sections among them are passed over. -/
def childrenFlow (setting : Setting σ) (context : Context (SectionFlow σ))
    (environment : Environment) (progress : Progress) : List Node → Flow σ Progress
  | [] => .finish progress
  | .stray _ :: rest => childrenFlow setting context environment progress rest
  | node :: rest => do
    let progress ← nodeFlow setting context environment progress node
    childrenFlow setting context environment progress rest

/-- The flow of a line, given whether an earlier line of the block had content. -/
def lineFlow (setting : Setting σ) (context : Context (SectionFlow σ))
    (environment : Environment) (hasContent : Bool) (progress : Progress) :
    Template.Line → Flow σ (Progress × Bool)
  | ⟨children, isNewline, source, indentation⟩ =>
    (childrenFlow setting context environment progress children).line
      (Flow.leadOf (if isNewline then some source else none) hasContent) indentation .fresh

/-- The flow of a block, all of whose members must be lines. -/
def blockFlow (setting : Setting σ) (context : Context (SectionFlow σ))
    (environment : Environment) (hasContent : Bool) (progress : Progress) :
    List Node → Flow σ Progress
  | [] => .finish progress
  | .line line :: rest => do
    let (progress, lineHasContent) ←
      lineFlow setting context environment hasContent progress line
    blockFlow setting context environment (hasContent || lineHasContent) progress rest
  | _ :: _ => .fail absent

/-- The sections that an include supplies, with what is bound around the include. -/
def sectionFlows (setting : Setting σ) (context : Context (SectionFlow σ))
    (environment : Environment) : List Template.Section → List (String × SectionFlow σ)
  | [] => []
  | ⟨name, body⟩ :: rest =>
    (name, fun progress => blockFlow setting context environment false progress body)
      :: sectionFlows setting context environment rest

end

/-- How a document is entered by an include when so many levels of includes are left.  Nothing
is bound in it at the beginning. -/
def entrance (documents : List Document) (options : Render.Options σ) :
    (levels : Nat) → DocId → Entrance σ
  | 0, target =>
    match options.maxIncludeDepth with
    | some limit => .refused (.includeTooDeep target limit)
    | none => .bottomless
  | levels + 1, target =>
    match documents[target.index]? with
    | some document =>
      .admitted fun scope progress =>
        blockFlow interpretation absent ⟨options.escape, entrance documents options levels⟩
          scope.context [] false progress document
    | none => .refused (.unknownDocument target)

/-- The flow of a document that is rendered directly. -/
def flow (documents : List Document) (options : Render.Options σ) (document : DocId) :
    Flow σ Progress :=
  match documents[document.index]? with
  | some nodes =>
    blockFlow interpretation absent
      ⟨options.escape, entrance interpretation absent documents options
        (options.maxIncludeDepth.getD Program.horizon)⟩
      .root [] false .start nodes
  | none => .fail (.unknownDocument document)

end Lexical

end Stencil
