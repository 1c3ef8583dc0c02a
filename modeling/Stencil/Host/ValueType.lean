import Stencil.Value

/-! # Types of parameters

The types that a host can declare for what its expressions read.
-/

namespace Stencil.Host

/-- A type that a value may be asked to have. -/
inductive ValueType where
  | string
  | number
  | bool
  | array
  /-- Any value at all, also `nothing`. -/
  | any
  deriving Repr, DecidableEq

namespace ValueType

def name : ValueType → String
  | string => "string"
  | number => "number"
  | bool => "bool"
  | array => "array"
  | any => "any"

@[reducible] def Content : ValueType → Type
  | string => String
  | number => Float
  | bool => Bool
  | array => List Value
  | any => Value

def extract? : (type : ValueType) → Value → Option type.Content
  | string, .text content => some content
  | number, .number amount => some amount
  | bool, .bool truth => some truth
  | array, .list items => some items
  | any, value => some value
  | _, _ => none

def admits : ValueType → Value → Bool
  | string, .text _ => true
  | number, .number _ => true
  | bool, .bool _ => true
  | array, .list _ => true
  | any, _ => true
  | _, _ => false

/-- A value has a type exactly if its content can be taken out at that type. -/
theorem isSome_extract? (type : ValueType) (value : Value) :
    (type.extract? value).isSome = type.admits value := by
  cases type <;> cases value <;> rfl

end ValueType

end Stencil.Host
