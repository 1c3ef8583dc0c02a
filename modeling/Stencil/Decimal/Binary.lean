/-! # Doubles as exact numbers

A double is read from its 64 bits: one bit of sign, eleven of exponent, 52 of
fraction.  A finite one is `significand * 2 ^ exponent` up to its sign, so everything
that has to be decided about its decimal text can be decided in whole numbers.
-/

namespace Stencil.Decimal

/-- The absolute value `significand * 2 ^ exponent` of a finite double. -/
structure Magnitude where
  significand : Nat
  exponent : Int
  /-- Whether the next smaller double is only half as far away as the next larger one,
  which happens where the exponent steps. -/
  closerBelow : Bool
  deriving Repr, DecidableEq

inductive Reading where
  | nan
  | infinite (negative : Bool)
  | finite (negative : Bool) (magnitude : Magnitude)
  deriving Repr, DecidableEq

def Reading.ofBits (bits : UInt64) : Reading :=
  let word := bits.toNat
  let fraction : Nat := word % Nat.pow 2 52
  let field : Nat := word / Nat.pow 2 52 % Nat.pow 2 11
  let negative := word / Nat.pow 2 63 == 1
  if field = 2047 then
    if fraction = 0 then .infinite negative else .nan
  else if field = 0 then
    -- Without the hidden bit, and with the exponent of the least normal number.
    .finite negative ⟨fraction, -1074, false⟩
  else
    .finite negative ⟨Nat.pow 2 52 + fraction, (field : Int) - 1075, fraction = 0 && 1 < field⟩

/-! ## The numbers that round to a double

A quarter of the double's own step is the unit in which the value and both ends of its
rounding interval are whole numbers. -/

/-- A positive fraction `value / denominator` with the ends of the interval around it. -/
structure Neighbourhood where
  lower : Nat
  value : Nat
  upper : Nat
  denominator : Nat
  /-- Whether the ends themselves belong to the interval. -/
  closed : Bool
  deriving Repr, DecidableEq

/-- The reals that round to a double: half a step to either side, a quarter of one below
where the doubles get denser.  A number half way between two doubles goes to the one with
the even significand, so the ends belong to the interval exactly in that case. -/
def Magnitude.neighbourhood (m : Magnitude) : Neighbourhood :=
  let scale := m.exponent - 2
  let unit := Nat.pow 2 scale.toNat
  { lower := (4 * m.significand - if m.closerBelow then 1 else 2) * unit
    value := 4 * m.significand * unit
    upper := (4 * m.significand + 2) * unit
    denominator := Nat.pow 2 (-scale).toNat
    closed := m.significand % 2 == 0 }

end Stencil.Decimal
