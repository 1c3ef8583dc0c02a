/-! # Render errors

What can go wrong while a document is being rendered.  Callables of the host raise errors of
any kind; the renderer raises the ones built here.
-/

namespace Stencil

inductive RenderError.Kind where
  | unboundName
  | typeError
  | notIterable
  /-- An expression failed of its own accord. -/
  | evaluation
  /-- A section was entered again before its first rendering was complete. -/
  | reentrantSection
  | recursionLimit
  | unknownDocument
  | resourceLimit
  /-- The rendering was cancelled from outside. -/
  | cancelled
  deriving Repr, DecidableEq

/-- An error raised during a rendering, with the message of its cause if it has one. -/
structure RenderError where
  kind : RenderError.Kind
  message : String
  cause : Option String := none
  deriving Repr, DecidableEq

namespace RenderError

def withCause (e : RenderError) (cause : String) : RenderError :=
  { e with cause := some cause }

def unboundName (name : String) : RenderError where
  kind := .unboundName
  message := "unbound name: " ++ name

def typeError (expected got : String) : RenderError where
  kind := .typeError
  message := "expected " ++ expected ++ ", got " ++ got

def parameterType (parameter expected got : String) : RenderError where
  kind := .typeError
  message := "parameter `" ++ parameter ++ "` expected " ++ expected ++ ", got " ++ got

def notIterable (got : String) : RenderError where
  kind := .notIterable
  message := "each requires an array, got " ++ got

def evaluation (message : String) : RenderError where
  kind := .evaluation
  message := message

/-- More than `limit` iterations would have to be run. -/
def tooManyIterations (limit : Nat) : RenderError where
  kind := .resourceLimit
  message := "render exceeded maximum of " ++ toString limit ++ " loop iterations"

def cancelled : RenderError where
  kind := .cancelled
  message := "render cancelled"

end RenderError

end Stencil
