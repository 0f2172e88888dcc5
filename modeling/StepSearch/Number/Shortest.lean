import StepSearch.Number.Binary64

/-!
# Shortest decimal text of binary64 numbers

A number is written with the fewest decimal digits that still read back as the same number; among
several such decimals the nearest one is taken, and of two equally near ones the greater.
-/

namespace StepSearch

/-- The decimal number `digits * 10 ^ exponent`. -/
structure Decimal where
  digits : Nat
  exponent : Int
deriving DecidableEq, Repr

namespace Decimal

/-- The multiple of a grid step that lies in the interval from `low` to `high` and is nearest to
`value`, counted in grid steps. The ends of the interval belong to it only if `closed`. -/
def nearestOnGrid? (step low value high : Nat) (closed : Bool) : Option Nat :=
  let below := value / step
  let lowFits := if closed then low ≤ below * step else low < below * step
  let highFits := if closed then (below + 1) * step ≤ high else (below + 1) * step < high
  match decide lowFits, decide highFits with
  | true, true => some ((2 * value + step) / (2 * step))
  | true, false => some below
  | false, true => some (below + 1)
  | false, false => none

/-- The shortest decimal that reads back as the positive finite number with the given bits. The
numbers that are rounded to it reach half way to its neighbours; the lower neighbour of a power of
two is twice as near. All lengths are counted in quarters of a unit. -/
def shortest (magnitude : Nat) : Decimal :=
  let exponent := magnitude / Nat.pow 2 52
  let ulp := Nat.pow 2 (exponent - 1)
  let value := 4 * Binary64.unitsOf magnitude
  let high := value + 2 * ulp
  let low := if magnitude % Nat.pow 2 52 = 0 ∧ 1 < exponent then value - ulp else value - 2 * ulp
  let closed := magnitude % 2 = 0
  -- From coarse grids to fine ones: the first grid that has a point in the interval is taken.
  let onGrid (k : Nat) : Option Decimal :=
    let power : Int := 309 - (k : Int)
    let scale := Nat.pow 10 (-power).toNat
    let step := Nat.pow 10 power.toNat * (4 * Binary64.unitsPerOne)
    (nearestOnGrid? step (low * scale) (value * scale) (high * scale) closed).map fun d =>
      ⟨d, power⟩
  ((List.range 634).findSome? onGrid).getD ⟨0, 0⟩

def zeros (n : Nat) : String :=
  String.ofList (List.replicate n '0')

/-- The decimal without an exponent. -/
def positional (d : Decimal) : String :=
  let text := toString d.digits
  let places := (-d.exponent).toNat
  if places = 0 then text ++ zeros d.exponent.toNat
  else if places < text.length then
    let split := text.length - places
    String.ofList (text.toList.take split) ++ "." ++ String.ofList (text.toList.drop split)
  else "0." ++ zeros (places - text.length) ++ text

/-- The decimal with one digit before the point and an exponent. -/
def scientific (d : Decimal) : String :=
  let text := (toString d.digits).toList
  let mantissa := match text with
    | first :: second :: rest => String.ofList (first :: '.' :: second :: rest)
    | short => String.ofList short
  mantissa ++ "e" ++ toString (d.exponent + ((text.length : Int) - 1))

end Decimal

namespace Binary64

/-- The text of a number whose finite positive values are written by `write`. -/
def signedText (zero : String) (write : Nat → String) (x : Binary64) : String :=
  match x.view with
  | .nan => "NaN"
  | .infinite negative => if negative then "-inf" else "inf"
  | .finite negative units =>
    (if negative then "-" else "") ++ if units = 0 then zero else write x.magnitudeBits

/-- Plain text: the shortest decimal, never with an exponent, whole numbers without a point. -/
def plainText (x : Binary64) : String :=
  x.signedText "0" fun magnitude => (Decimal.shortest magnitude).positional

/-- Whether marked text writes a positive number with an exponent: it does below `10 ^ -4` and from
`10 ^ 16` on. -/
def needsExponent (units : Nat) : Bool :=
  units * Nat.pow 10 4 < unitsPerOne || Nat.pow 10 16 * unitsPerOne ≤ units

/-- Text that tells a floating-point number from a whole one: whole numbers end in `.0`, and very
small and very large numbers have an exponent. -/
def markedText (x : Binary64) : String :=
  x.signedText "0.0" fun magnitude =>
    let d := Decimal.shortest magnitude
    if needsExponent (unitsOf magnitude) then d.scientific
    else if d.exponent < 0 then d.positional
    else d.positional ++ ".0"

end Binary64

end StepSearch
