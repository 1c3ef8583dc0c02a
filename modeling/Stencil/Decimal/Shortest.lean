import Stencil.Decimal.Binary

/-! # The fewest digits that read back

Among the decimals that round to a given double, `Magnitude.shortest` takes one with the
fewest significant digits, and of those the one nearest to the double.  For each number of
digits only the two neighbours of the double on that decimal grid have to be looked at: if
any point of the grid lies in the rounding interval, one of these two does.
-/

namespace Stencil.Decimal

/-- The decimal `coefficient * 10 ^ exponent`. -/
structure Scientific where
  coefficient : Nat
  exponent : Int
  deriving Repr, DecidableEq

namespace Neighbourhood

def holds (n : Neighbourhood) (coefficient : Nat) (exponent : Int) : Bool :=
  let decimal := coefficient * Nat.pow 10 exponent.toNat * n.denominator
  let scale := Nat.pow 10 (-exponent).toNat
  if n.closed then n.lower * scale ≤ decimal && decimal ≤ n.upper * scale
  else n.lower * scale < decimal && decimal < n.upper * scale

/-- The exponent of the first digit: the greatest `k` with `10 ^ k` at most the value. -/
def leadingExponent (n : Neighbourhood) : Int :=
  if n.denominator ≤ n.value then
    (Nat.toDigits 10 (n.value / n.denominator)).length - 1
  else
    let digits := (Nat.toDigits 10 (n.denominator / n.value)).length
    if n.value * Nat.pow 10 (digits - 1) = n.denominator then 1 - digits else -digits

/-- The multiple of `10 ^ exponent` just below or at the value, as a coefficient. -/
def floorAt (n : Neighbourhood) (exponent : Int) : Nat :=
  n.value * Nat.pow 10 (-exponent).toNat / (n.denominator * Nat.pow 10 exponent.toNat)

/-- Whether the value is less than half a step above the lower of its two neighbours on the
grid of `10 ^ exponent`. -/
def isNearFloor (n : Neighbourhood) (exponent : Int) : Bool :=
  2 * (n.value * Nat.pow 10 (-exponent).toNat)
    < (2 * n.floorAt exponent + 1) * (n.denominator * Nat.pow 10 exponent.toNat)

/-- The nearest of the value's two neighbours on one decimal grid that lies in the interval;
at equal distance the greater one. -/
def nearestAt (n : Neighbourhood) (exponent : Int) : Option Scientific :=
  let below := n.floorAt exponent
  match n.holds below exponent, n.holds (below + 1) exponent with
  | true, true => some ⟨if n.isNearFloor exponent then below else below + 1, exponent⟩
  | true, false => some ⟨below, exponent⟩
  | false, true => some ⟨below + 1, exponent⟩
  | false, false => none

/-- Tries finer and finer grids, `budget` of them at most. -/
def search (n : Neighbourhood) : (budget : Nat) → (exponent : Int) → Scientific
  | 0, exponent => ⟨n.floorAt exponent, exponent⟩
  | budget + 1, exponent =>
    match n.nearestAt exponent with
    | some decimal => decimal
    | none => n.search budget (exponent - 1)

end Neighbourhood

/-- The shortest decimal that reads back as the given magnitude.  Seventeen digits tell all
doubles apart, so the search ends within seventeen grids. -/
def Magnitude.shortest (m : Magnitude) : Scientific :=
  let n := m.neighbourhood
  if m.significand = 0 then ⟨0, 0⟩ else n.search 17 n.leadingExponent

end Stencil.Decimal
