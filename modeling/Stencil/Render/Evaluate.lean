import Stencil.Flow
import Stencil.Program.Basic
import Stencil.Scope

/-! # Evaluation

An expression is evaluated by a single call into the host.  The call is made only if every
name has a value and every value may be handed over as the parameter that it is.
-/

namespace Stencil

namespace Program.Expression

open Host (Bindings Parameter)

variable {σ β : Type}

def readName (scope : Scope β) (read : String × Address) :
    Except RenderError (String × Value) :=
  match scope.resolve? read.2 with
  | some value => .ok (read.1, value)
  | none => .error (.unboundName read.1)

def checkParameter (values : List Value) (placed : Nat × Parameter) : Except RenderError Unit :=
  match values[placed.1]? with
  | some value => placed.2.check value
  -- The place of a compiled parameter is never beyond the values.
  | none => .ok ()

/-- What is handed to the callable: the declared names with their values in a scope, after a
check of every parameter in the order of the signature. -/
def bindings (expression : Expression σ) (scope : Scope β) : Except RenderError Bindings := do
  let entries ← expression.reads.mapM (readName scope)
  expression.parameters.forM (checkParameter (entries.map (·.2)))
  return ⟨entries⟩

def evaluate (expression : Expression σ) (scope : Scope β) : Flow σ Value :=
  match expression.bindings scope with
  | .ok bindings => .call expression.callable ⟨expression.source, bindings⟩ .finish
  | .error error => .fail error

def evaluateAll (scope : Scope β) : List (String × Expression σ) → Flow σ (List (String × Value))
  | [] => .finish []
  | (name, expression) :: rest => do
    let value ← expression.evaluate scope
    let values ← evaluateAll scope rest
    return (name, value) :: values

end Program.Expression

end Stencil
