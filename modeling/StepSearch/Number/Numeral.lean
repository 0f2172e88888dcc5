import StepSearch.Number.Binary64

/-!
# Numerals

Reading of decimal numerals: natural numbers with an optional sign, and floating-point numerals with
an optional fraction and exponent. A floating-point numeral gives the binary64 number nearest to its
exact value.
-/

namespace StepSearch

namespace Numeral

def digit? (c : Char) : Option Nat :=
  if '0' ≤ c ∧ c ≤ '9' then some (c.toNat - '0'.toNat) else none

/-- The value of a run of digits that continues the number `n`. -/
def extend (n : Nat) (digits : List Char) : Nat :=
  digits.foldl (fun n c => 10 * n + (c.toNat - '0'.toNat)) n

def spanDigits (cs : List Char) : List Char × List Char :=
  cs.span fun c => (digit? c).isSome

/-- Splits off a sign; without one the number is positive. -/
def spanSign : List Char → Bool × List Char
  | '-' :: cs => (true, cs)
  | '+' :: cs => (false, cs)
  | cs => (false, cs)

/-- The value of a text that consists of at least one digit. -/
def digits? (cs : List Char) : Option Nat :=
  match spanDigits cs with
  | (ds@(_ :: _), []) => some (extend 0 ds)
  | _ => none

/-- Reads an integer: digits after an optional sign. -/
def int? (cs : List Char) : Option Int :=
  let (negative, cs) := spanSign cs
  (digits? cs).map fun n => if negative then -(n : Int) else n

/-- Reads a natural number: digits after an optional plus sign. -/
def nat? : List Char → Option Nat
  | '+' :: cs => digits? cs
  | cs => digits? cs

end Numeral

namespace Binary64

open Numeral

/-- The number nearest to `digits * 10 ^ exponent`. Values far outside the range of the finite
numbers are told by the length of `digits`, so that no huge power is computed. -/
def ofDecimal (negative : Bool) (digits : Nat) (exponent : Int) : Binary64 :=
  let order := exponent + (Nat.toDigits 10 digits).length
  if digits = 0 ∨ order < -400 then signedZero negative
  else if order > 400 then infinity negative
  else ofRatio negative (digits * Nat.pow 10 exponent.toNat) (Nat.pow 10 (-exponent).toNat)

/-- Reads the exponent part of a numeral: nothing, or `e` and an integer. -/
def exponent? : List Char → Option Int
  | [] => some 0
  | c :: cs => if c = 'e' ∨ c = 'E' then int? cs else none

/-- Reads an unsigned decimal numeral: digits with at most one point among them, at least one digit,
and an optional exponent. -/
def unsigned? (negative : Bool) (cs : List Char) : Option Binary64 := do
  let (whole, rest) := spanDigits cs
  let (fraction, rest) := match rest with
    | '.' :: rest => spanDigits rest
    | rest => ([], rest)
  if whole.isEmpty && fraction.isEmpty then none
  let exponent ← exponent? rest
  return ofDecimal negative (extend (extend 0 whole) fraction) (exponent - fraction.length)

/-- Reads a floating-point numeral: a decimal numeral, `inf`, `infinity` or `nan` in letters of
either case, each after an optional sign. -/
def parse? (text : String) : Option Binary64 :=
  let (negative, cs) := spanSign text.toList
  match String.ofList (cs.map Char.toLower) with
  | "inf" | "infinity" => some (infinity negative)
  | "nan" => some nan
  | _ => unsigned? negative cs

end Binary64

end StepSearch
