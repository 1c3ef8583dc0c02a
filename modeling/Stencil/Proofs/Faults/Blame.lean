import Stencil.Proofs.Adaptors
import Stencil.Render.Document

/-! # Renderings that lay blame

Where a rendering fails of its own accord, an error tells only what went wrong.  A rendering that
lays blame also tells which routine of which document has failed, what kind of step it was, and
what has been forwarded to the document by the include under which it was being rendered.  It is
a flow that ends, and the blame is what it comes to.  With the blame settled as an error it is
the rendering itself, for a construct does with a blame what it does with an error.
-/

namespace Stencil

open Program (Expression Routine)

variable {σ α β κ : Type}

/-- What goes wrong when a routine fails of its own accord. -/
inductive Fault (σ : Type) where
  /-- The address of a name leads nowhere. -/
  | unresolved (expression : Expression σ) (error : RenderError)
  /-- A value may not be handed over as the parameter that it is. -/
  | refused (expression : Expression σ) (bindings : Host.Bindings) (error : RenderError)
  /-- A binding without an expression has a name that is not forwarded. -/
  | unforwarded (name : String)
  /-- What a loop is to run over is no list. -/
  | notList (value : Value)
  /-- An include lies too deep. -/
  | tooDeep (target : DocId) (limit : Nat)
  /-- An include names a document that is not there. -/
  | dangling (target : DocId)

/-- The error that is raised. -/
def Fault.error : Fault σ → RenderError
  | unresolved _ error | refused _ _ error => error
  | unforwarded name => .unboundName name
  | notList value => .notIterable value.typeName
  | tooDeep target limit => .includeTooDeep target limit
  | dangling target => .unknownDocument target

/-- A fault and where it is. -/
structure Blame (σ : Type) where
  /-- The document in which the routine stands. -/
  document : DocId
  /-- The names that are forwarded by the include under which this document is rendered. -/
  forwarded : List String
  routine : Routine σ
  fault : Fault σ

/-- A rendering that lays blame where it fails of its own accord. -/
abbrev Blaming (σ α : Type) := ExceptT (Blame σ) (Flow σ) α

namespace Blaming

/-- What the rendering does when the blame is settled. -/
def outcome : Except (Blame σ) α → Flow σ α
  | .ok result => .finish result
  | .error blame => .fail blame.fault.error

/-- The rendering with an error for the blame. -/
def settled (blaming : Blaming σ α) : Flow σ α :=
  blaming.run >>= outcome

/-- A blame is handed on with nothing else. -/
def paired (entry : Except (Blame σ) α × κ) : Except (Blame σ) (α × κ) :=
  entry.1.map fun result => (result, entry.2)

/-- What a construct does with the chunks of a rendering that lays blame. -/
def through (adapt : Flow σ (Except (Blame σ) α) → Flow σ (Except (Blame σ) α × κ))
    (blaming : Blaming σ α) : Blaming σ (α × κ) :=
  ExceptT.mk (paired <$> adapt blaming.run)

/-! ## Settling -/

@[simp]
theorem settled_pure (result : α) : settled (pure result : Blaming σ α) = pure result := rfl

@[simp]
theorem settled_bind (blaming : Blaming σ α) (next : α → Blaming σ β) :
    settled (blaming >>= next) = settled blaming >>= fun result => settled (next result) := by
  simp only [settled, ExceptT.run_bind, bind_assoc]
  refine bind_congr fun result => ?_
  cases result <;> rfl

@[simp]
theorem settled_lift (flow : Flow σ α) : settled (ExceptT.lift flow : Blaming σ α) = flow := by
  simp only [settled, ExceptT.run_lift, bind_map_left]
  exact bind_pure flow

/-- A construct does with a blame what it does with an error. -/
theorem settled_through {S : Type} {take : S → String → Flow σ (S × Bool)} {tell : S → κ}
    {adapt : {α : Type} → S → Flow σ α → Flow σ (α × κ)} (adaptor : Flow.Adaptor take tell adapt)
    (state : S) (blaming : Blaming σ α) :
    settled (blaming.through (adapt state)) = adapt state (settled blaming) := by
  simp only [settled, through, ExceptT.run_mk, bind_map_left]
  change Flow.bind _ _ = adapt state (Flow.bind _ _)
  generalize blaming.run = flow
  induction flow generalizing state with
  | finish result =>
    rw [adaptor.finish]
    cases result with
    | ok result => exact (adaptor.finish state result).symm
    | error blame => exact (adaptor.fail state _).symm
  | fail error =>
    rw [adaptor.fail]
    exact (adaptor.fail state error).symm
  | bottomless =>
    rw [adaptor.bottomless]
    exact (adaptor.bottomless state).symm
  | emit chunk resume ih =>
    rw [Flow.bind, adaptor.emit, adaptor.emit]
    refine (Flow.bind_assoc ..).trans ?_
    exact congrArg (Flow.bind _) (funext fun next => ih next.2 next.1)
  | call callable invocation resume ih =>
    rw [Flow.bind, adaptor.call, adaptor.call]
    exact congrArg (Flow.call callable invocation) (funext fun value => ih value state)
  | round resume ih =>
    rw [Flow.bind, adaptor.round, adaptor.round]
    exact congrArg Flow.round (funext fun go => ih go state)
  | poll resume ih =>
    rw [Flow.bind, adaptor.poll, adaptor.poll]
    exact congrArg Flow.poll (funext fun go => ih go state)

end Blaming

end Stencil
