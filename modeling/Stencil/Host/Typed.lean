import Stencil.Host.Callable

/-! # Functions with typed parameters

A function of Lean becomes a callable once its parameters have names and types.  The
callable takes each parameter from its bindings in order, and fails at the first that is
missing or has another type.
-/

namespace Stencil.Host

abbrev Telescope := List (String × ValueType)

@[reducible] def Telescope.Function : Telescope → Type
  | [] => Except RenderError Value
  | (_, type) :: rest => type.Content → Telescope.Function rest

/-- Applies a function to the parameters found among some bindings. -/
def Telescope.apply : (telescope : Telescope) → telescope.Function → Bindings →
    Except RenderError Value
  | [], result, _ => result
  | (name, type) :: rest, function, bindings =>
    match bindings.get name with
    | .error e => .error e
    | .ok value =>
      match type.extract? value with
      | some content => Telescope.apply rest (function content) bindings
      | none => .error (.typeError type.name value.typeName)

/-- A function with a source text and typed parameters, all of them required. -/
structure TypedFunction where
  source : String
  telescope : Telescope
  function : telescope.Function

namespace TypedFunction

def signature (f : TypedFunction) : Signature :=
  ⟨f.source, f.telescope.map fun (name, type) => ⟨name, some type, true⟩⟩

/-- The function as a callable, which leaves the state of the host alone. -/
def callable {σ : Type} (f : TypedFunction) : Callable σ where
  signature := f.signature
  run bindings := liftM (f.telescope.apply f.function bindings)

end TypedFunction

end Stencil.Host
