import Stencil.Host.ValueType
import Stencil.RenderError

/-! # Signatures

A signature says which source text a callable implements and which names it reads.
-/

namespace Stencil.Host

structure Parameter where
  name : String
  /-- The type its value must have, if one is asked for. -/
  type : Option ValueType
  /-- Whether `nothing` is held against the type as well. -/
  required : Bool
  deriving Repr, DecidableEq

structure Signature where
  source : String
  parameters : List Parameter
  deriving Repr, DecidableEq

namespace Parameter

/-- Whether a value may be handed over: `nothing` for a parameter that is not required,
anything where no type is asked for, and otherwise a value of the type. -/
def accepts (parameter : Parameter) (value : Value) : Bool :=
  match parameter.required, value, parameter.type with
  | false, .nothing, _ => true
  | _, _, none => true
  | _, value, some type => type.admits value

def check (parameter : Parameter) (value : Value) : Except RenderError Unit :=
  match parameter.type with
  | some type =>
    if parameter.accepts value then .ok ()
    else .error (.parameterType parameter.name type.name value.typeName)
  | none => .ok ()

end Parameter

end Stencil.Host
