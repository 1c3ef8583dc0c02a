import Stencil.RenderError
import Stencil.Value.Inspect

/-! # Bindings

What a callable gets to see: the free names of its expression with their values, in the
order in which the expression declares them.
-/

namespace Stencil.Host

structure Bindings where
  entries : List (String × Value)

namespace Bindings

def ofNames (names : List String) (values : List Value) : Bindings :=
  ⟨names.zip values⟩

/-- The value of a name; where a name is declared twice, the first of its values. -/
def find? (bindings : Bindings) (name : String) : Option Value :=
  bindings.entries.lookup name

/-- The value of a name, which has to be among the bindings. -/
def get (bindings : Bindings) (name : String) : Except RenderError Value :=
  match bindings.find? name with
  | some value => .ok value
  | none => .error (.unboundName name)

def inspect (bindings : Bindings) : String :=
  "\x7b" ++ ", ".intercalate (bindings.entries.map fun (name, value) =>
    Text.quote name ++ ": " ++ value.inspect) ++ "\x7d"

end Bindings

end Stencil.Host
