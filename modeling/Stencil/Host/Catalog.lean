import Stencil.Host.Callable
import Stencil.Text.Blank

/-! # Catalogs

The usual way for a host to interpret fragments: a list of callables, each found by exactly
the source text it implements.  A fragment that is just one of its own free names needs no
entry; it reads that name.
-/

namespace Stencil.Host

/-- Callables by their source, the latest first. -/
structure Catalog (σ : Type) where
  callables : List (Callable σ)

namespace Catalog

variable {σ : Type}

def empty : Catalog σ := ⟨[]⟩

/-- Adds a callable, in place of any other with the same source. -/
def register (catalog : Catalog σ) (callable : Callable σ) : Catalog σ :=
  ⟨callable :: catalog.callables⟩

def find? (catalog : Catalog σ) (source : String) : Option (Callable σ) :=
  catalog.callables.find? (·.signature.source == source)

def interpret (catalog : Catalog σ) : Interpretation σ := fun fragment =>
  match catalog.find? fragment.source with
  | some callable => .ok callable
  | none =>
    let name := Text.trim fragment.source
    if fragment.names.contains name then .ok (.read name)
    else .error ((CompileError.unknownExpression fragment.source).withHint
      "register a callable for this source with `Registry::register`")

end Catalog

/-- Refuses the listed sources, each with the first error listed for it, and leaves all
others to another interpretation. -/
def Interpretation.refusing {σ : Type} (interpretation : Interpretation σ)
    (refusals : List (String × CompileError)) : Interpretation σ := fun fragment =>
  match refusals.lookup fragment.source with
  | some refusal => .error refusal
  | none => interpretation fragment

end Stencil.Host
