import Stencil.Decimal.Shortest

/-! # Written numbers

A number is written from its shortest digits in one of two layouts: positionally, with
zeros filled in up to the point, or with an exponent.  A `Format` records which layout
applies when, and how the numbers without digits are spelt.
-/

namespace Stencil.Decimal

/-- Significant digits without zeros at the end, and where the point stands: behind the
first `point` digits, so that `⟨['1', '5'], 1⟩` is 1.5 and `⟨['1', '5'], 0⟩` is 0.15. -/
structure Numeral where
  digits : List Char
  point : Int
  deriving Repr, DecidableEq

def Scientific.numeral (decimal : Scientific) : Numeral :=
  let digits := Nat.toDigits 10 decimal.coefficient
  ⟨(digits.reverse.dropWhile (· == '0')).reverse, digits.length + decimal.exponent⟩

structure Format where
  nan : String
  infinity : String
  /-- Whether the zero below zero keeps its sign. -/
  signedZero : Bool
  /-- Whether a whole number written positionally ends in a point and a zero. -/
  pointZero : Bool
  /-- The least and the greatest exponent of the first digit that are written
  positionally; without bounds every number is. -/
  positional : Option (Int × Int)
  deriving Repr, DecidableEq

namespace Format

/-- Digits in their places, with zeros up to the point. -/
def writePositional (format : Format) (n : Numeral) : List Char :=
  let length : Int := n.digits.length
  if n.point ≤ 0 then
    '0' :: '.' :: List.replicate (-n.point).toNat '0' ++ n.digits
  else if length ≤ n.point then
    n.digits ++ List.replicate (n.point - length).toNat '0'
      ++ if format.pointZero then ['.', '0'] else []
  else
    n.digits.take n.point.toNat ++ '.' :: n.digits.drop n.point.toNat

/-- One digit, the others behind a point, and the exponent of the first digit. -/
def writeExponential (n : Numeral) : List Char :=
  let exponent := n.point - 1
  let power := (if exponent < 0 then ['-'] else []) ++ Nat.toDigits 10 exponent.natAbs
  match n.digits with
  | [] => []
  | [digit] => digit :: 'e' :: power
  | digit :: others => digit :: '.' :: others ++ 'e' :: power

def writeNumeral (format : Format) (n : Numeral) : List Char :=
  let exponent := n.point - 1
  match format.positional with
  | none => format.writePositional n
  | some (least, greatest) =>
    if least ≤ exponent ∧ exponent ≤ greatest then format.writePositional n
    else writeExponential n

/-- Zero, which has no leading digit. -/
def writeZero (format : Format) : List Char :=
  '0' :: if format.pointZero then ['.', '0'] else []

def writeReading (format : Format) : Reading → String
  | .nan => format.nan
  | .infinite negative => (if negative then "-" else "") ++ format.infinity
  | .finite negative magnitude =>
    if magnitude.significand = 0 then
      String.ofList ((if negative && format.signedZero then ['-'] else []) ++ format.writeZero)
    else
      String.ofList ((if negative then ['-'] else [])
        ++ format.writeNumeral magnitude.shortest.numeral)

def write (format : Format) (x : Float) : String :=
  format.writeReading (.ofBits x.toBits)

end Format

end Stencil.Decimal
