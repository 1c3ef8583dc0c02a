/-! # Compile errors

What is wrong with a template before anything of it has been rendered.  An error has a kind
for programs, a message for people, and sometimes a hint on what to do about it.
-/

namespace Stencil

/-- The ways in which a template can be refused. -/
inductive CompileError.Kind where
  /-- A node stands where only lines may stand, or a line where none may. -/
  | structuralViolation
  | unrecognizedNodeKind
  | unrecognizedExpressionKind
  /-- A free name of an expression has no binding around it. -/
  | unboundName
  | undeclaredName
  | unknownExpression
  | unknownDocument
  deriving Repr, DecidableEq

structure CompileError where
  kind : CompileError.Kind
  message : String
  hint : Option String := none
  deriving Repr, DecidableEq

namespace CompileError

def withHint (e : CompileError) (hint : String) : CompileError :=
  { e with hint := some hint }

/-- The message, and below it the hint. -/
def formatted (e : CompileError) : String :=
  match e.hint with
  | some hint => "Error: " ++ e.message ++ "\n  = hint: " ++ hint
  | none => "Error: " ++ e.message

/-! ## Common errors -/

def structural (found block : String) : CompileError where
  kind := .structuralViolation
  message := "expected only lines within " ++ block ++ ", found " ++ found

def unboundName (name source : String) : CompileError where
  kind := .unboundName
  message := "unbound name `" ++ name ++ "` in expression `" ++ source ++ "`"

/-- The callable for the expression `source` reads a name that the expression does not
declare. -/
def undeclaredName (name source : String) : CompileError where
  kind := .undeclaredName
  message :=
    "expression `" ++ source ++ "` reads `" ++ name ++ "`, which is not among its free names"

def unknownExpression (source : String) : CompileError where
  kind := .unknownExpression
  message := "no evaluator registered for expression `" ++ source ++ "`"

end CompileError

end Stencil
