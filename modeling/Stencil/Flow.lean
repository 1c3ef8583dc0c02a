import Stencil.Host.Callable

/-! # Flows

A flow is a rendering that has not happened yet: a tree of everything it may still do.  It
puts out chunks, calls into the host, begins rounds of loops, and ends.  After a chunk it is
told whether the output now stands at the start of a line, after a call it gets the value,
and it goes on depending on these answers.  An error, from the flow itself or from a call,
ends it.  Whether it is cancelled or runs too many rounds is decided by whoever runs it.

Nothing in a flow depends on who asks for its chunks or when, and every flow is a finite tree
in which each step has only smaller flows behind it.  So functions on flows are defined by
recursion on them, and each adaptor of a chunk stream is such a function.
-/

namespace Stencil

open Host (Bindings Callable)

/-- A call into the host as an observer sees it: the source of the expression, and the values
of its free names. -/
structure Invocation where
  source : String
  bindings : Bindings

/-- A rendering that comes to an `α`, if it comes to its end. -/
inductive Flow (σ : Type) (α : Type) : Type where
  | finish (result : α)
  | fail (error : RenderError)
  /-- The end of what is unfolded of a rendering whose includes may nest without bound. -/
  | bottomless
  /-- Puts out a chunk, and goes on when it is known whether the output then stands at the
  start of a line. -/
  | emit (chunk : String) (resume : Bool → Flow σ α)
  /-- Calls into the host, and goes on with the value.  If the call fails, so does the
  flow. -/
  | call (callable : Callable σ) (invocation : Invocation) (resume : Value → Flow σ α)
  /-- Begins one more round of a loop, if no limit forbids it. -/
  | round (resume : Unit → Flow σ α)
  /-- Lets itself be cancelled, and goes on otherwise. -/
  | poll (resume : Unit → Flow σ α)

namespace Flow

variable {σ α β : Type}

def bind : Flow σ α → (α → Flow σ β) → Flow σ β
  | finish result, next => next result
  | fail error, _ => fail error
  | bottomless, _ => bottomless
  | emit chunk resume, next => emit chunk fun atStart => (resume atStart).bind next
  | call callable invocation resume, next =>
    call callable invocation fun value => (resume value).bind next
  | round resume, next => round fun go => (resume go).bind next
  | poll resume, next => poll fun go => (resume go).bind next

instance : Monad (Flow σ) where
  pure := finish
  bind := bind

theorem bind_finish (flow : Flow σ α) : flow.bind finish = flow := by
  induction flow with
  | finish | fail | bottomless => rfl
  | emit chunk resume ih => exact congrArg (emit chunk) (funext ih)
  | call callable invocation resume ih => exact congrArg (call callable invocation) (funext ih)
  | round resume ih => exact congrArg round (funext ih)
  | poll resume ih => exact congrArg poll (funext ih)

theorem bind_assoc {γ : Type} (flow : Flow σ α) (next : α → Flow σ β) (last : β → Flow σ γ) :
    (flow.bind next).bind last = flow.bind fun result => (next result).bind last := by
  induction flow with
  | finish | fail | bottomless => rfl
  | emit chunk resume ih => exact congrArg (emit chunk) (funext ih)
  | call callable invocation resume ih => exact congrArg (call callable invocation) (funext ih)
  | round resume ih => exact congrArg round (funext ih)
  | poll resume ih => exact congrArg poll (funext ih)

instance : LawfulMonad (Flow σ) :=
  LawfulMonad.mk' (Flow σ) bind_finish (fun _ _ => rfl) bind_assoc

def ofExcept : Except RenderError α → Flow σ α
  | .ok result => finish result
  | .error error => fail error

def emitAll : List String → Flow σ Unit
  | [] => finish ()
  | chunk :: chunks => emit chunk fun _ => emitAll chunks

end Flow

/-- Whether a chunk ends a line: only the newline by itself does. -/
def isNewline (chunk : String) : Bool :=
  chunk == "\n"

end Stencil
