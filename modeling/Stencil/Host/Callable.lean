import Stencil.Host.Bindings
import Stencil.Host.Signature
import Stencil.Template.Basic
import Stencil.CompileError

/-! # Callables

The library never looks into the source of an expression.  A host interprets it: for each
fragment of a template it gives a callable, which computes a value from the fragment's
bindings and may change the state of the host, even when it fails.
-/

namespace Stencil.Host

/-- What a callable does on a host with states `σ`. -/
abbrev Action (σ α : Type) := ExceptT RenderError (StateM σ) α

structure Callable (σ : Type) where
  signature : Signature
  run : Bindings → Action σ Value

/-- How a host understands the fragments of templates. -/
abbrev Interpretation (σ : Type) := Template.Fragment → Except CompileError (Callable σ)

namespace Callable

variable {σ : Type}

def untyped (source : String) (run : Bindings → Action σ Value) : Callable σ :=
  ⟨⟨source, []⟩, run⟩

def read (name : String) : Callable σ where
  signature := ⟨name, [⟨name, some .any, true⟩]⟩
  run bindings := liftM (bindings.get name)

end Callable

end Stencil.Host
