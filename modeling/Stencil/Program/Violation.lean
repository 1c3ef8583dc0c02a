import Stencil.Template.Tag

/-! # Violations

The ways in which a document can fail its static checks.
-/

namespace Stencil.Program

open Template (Tag)

/-- A place that may hold lines only. -/
inductive Place where
  | document
  | binding
  | choice
  | otherwise
  | loop
  | fallback
  | transform
  | part
  deriving Repr, DecidableEq

def Place.phrase : Place → String
  | document => "a document"
  | binding => "a let"
  | choice => "an if"
  | otherwise => "an else"
  | loop => "an each"
  | fallback => "an each fallback"
  | transform => "a transform"
  | part => "a section"

/-- What a static check can object to. -/
inductive Violation where
  /-- A node that is no line stands where only lines may stand. -/
  | foreign (found : Tag) (place : Place)
  | nestedLine
  /-- A section is used as if it were a node with output of its own. -/
  | misplacedSection (name : String)
  | unknownTarget (target : DocId)
  | refused (error : CompileError)
  /-- The callable for the fragment `source` reads a name that the fragment does not
  declare. -/
  | undeclared (name source : String)
  /-- A free name of the fragment `source` is not in scope. -/
  | unbound (name source : String)
  deriving Repr, DecidableEq

def Violation.toError : Violation → CompileError
  | foreign found place => .structural found.word place.phrase
  | nestedLine =>
    { kind := .structuralViolation
      message := "a line cannot appear directly inside another line" }
  | misplacedSection name =>
    { kind := .structuralViolation
      message := "section `" ++ name ++ "` must be declared on an include" }
  | unknownTarget target =>
    { kind := .unknownDocument
      message := "include of unknown document " ++ target.toText }
  | refused error => error
  | undeclared name source => .undeclaredName name source
  | unbound name source => (CompileError.unboundName name source).withHint
    "only names bound by an enclosing let, each or transform are visible"

structure Refusal where
  document : DocId
  violation : Violation
  deriving Repr, DecidableEq

/-- A refusal as an error: the message says which document is meant. -/
def Refusal.toError (refusal : Refusal) : CompileError :=
  let error := refusal.violation.toError
  { error with
    message := "in document " ++ refusal.document.toText ++ ": " ++ error.message }

end Stencil.Program
