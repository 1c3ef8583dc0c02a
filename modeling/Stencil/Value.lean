/-! # Values

What an expression computes: a text, a number, a truth value, a list of values, or nothing.
Values are bound in scopes, decide branches, drive loops and end up as chunks of text.
-/

namespace Stencil

/-- A dynamic value.  `nothing` leaves no trace in the output. -/
inductive Value where
  | text (content : String)
  | number (amount : Float)
  | bool (truth : Bool)
  | list (items : List Value)
  | nothing

instance : Inhabited Value := ⟨.nothing⟩

namespace Value

def typeName : Value → String
  | text _ => "string"
  | number _ => "number"
  | bool _ => "bool"
  | list _ => "array"
  | nothing => "none"

/-- Whether a condition with this value holds.  The empty text, zero of either sign, the
number that is no number, `false` and `nothing` do not; every list does, also an empty one. -/
def isTruthy : Value → Bool
  | text content => !content.isEmpty
  | number amount => amount != 0 && !amount.isNaN
  | bool truth => truth
  | list _ => true
  | nothing => false

def number? : Value → Option Float
  | number amount => some amount
  | _ => none

def items? : Value → Option (List Value)
  | list items => some items
  | _ => none

/-! ## Equality

Numbers are equal as numbers: zero equals its negative, and the number that is no number
differs from itself. -/

mutual

def beq : Value → Value → Bool
  | text a, text b => a == b
  | number a, number b => a == b
  | bool a, bool b => a == b
  | list a, list b => beqItems a b
  | nothing, nothing => true
  | _, _ => false

def beqItems : List Value → List Value → Bool
  | [], [] => true
  | a :: as, b :: bs => beq a b && beqItems as bs
  | _, _ => false

end

instance : BEq Value := ⟨beq⟩

/-! ## Values of other types -/

/-- A whole number, rounded to the nearest double. -/
def ofInt (n : Int) : Value :=
  number (.ofInt n)

/-- A count or position, rounded to the nearest double. -/
def ofNat (n : Nat) : Value :=
  number (.ofNat n)

def ofOption {α : Type} (toValue : α → Value) : Option α → Value
  | some a => toValue a
  | none => nothing

def ofList {α : Type} (toValue : α → Value) (items : List α) : Value :=
  list (items.map toValue)

end Value

end Stencil
