import Stencil.Value.Text
import Stencil.Text.Quoted

/-! # Values for the eye of a developer

`Value.inspect` writes a value with its constructor, so that the text `1` and the number 1
look different.
-/

namespace Stencil.Value

/-- Inspected numbers always show that they are doubles: whole ones end in a point and a
zero, zero has its sign, and very large and very small ones an exponent. -/
def inspectFormat : Decimal.Format where
  nan := "NaN"
  infinity := "inf"
  signedZero := true
  pointZero := true
  positional := some (-4, 15)

mutual

def inspect : Value → String
  | text content => "String(" ++ Text.quote content ++ ")"
  | number amount => "Number(" ++ inspectFormat.write amount ++ ")"
  | bool truth => "Bool(" ++ boolText truth ++ ")"
  | list items => "Array([" ++ ", ".intercalate (inspectItems items) ++ "])"
  | nothing => "None"

def inspectItems : List Value → List String
  | [] => []
  | item :: items => item.inspect :: inspectItems items

end

end Stencil.Value
