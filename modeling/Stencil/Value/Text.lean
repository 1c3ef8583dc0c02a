import Stencil.Value
import Stencil.Decimal.Format

/-! # The text of a value

`Value.toText` is what a value contributes to the output when nothing is escaped.  The text
of a list is the text of its elements one after another, just as their chunks would follow
each other.
-/

namespace Stencil.Value

/-- Numbers are always written positionally, whole ones without a point, and zero without a
sign. -/
def numberFormat : Decimal.Format where
  nan := "NaN"
  infinity := "Infinity"
  signedZero := false
  pointZero := false
  positional := none

def boolText (truth : Bool) : String :=
  if truth then "true" else "false"

mutual

def toText : Value → String
  | text content => content
  | number amount => numberFormat.write amount
  | bool truth => boolText truth
  | list items => itemsText items
  | nothing => ""

def itemsText : List Value → String
  | [] => ""
  | item :: items => item.toText ++ itemsText items

end

end Stencil.Value
