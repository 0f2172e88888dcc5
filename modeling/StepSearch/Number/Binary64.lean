/-!
# Binary64 numbers

The 64-bit binary floating-point numbers with exact arithmetic. Every finite number is a whole
multiple of the smallest positive one, `2 ^ -1074`; that multiple is called its units. An operation
computes its exact rational result in units and rounds it once to the nearest number, ties going to
the even neighbour.
-/

namespace StepSearch

/-- A binary64 number, given by its bits: sign, 11 bits of exponent, 52 bits of fraction. -/
structure Binary64 where
  bits : UInt64
deriving DecidableEq, Repr

namespace Binary64

/-- What the bits mean. A finite number is `units * 2 ^ -1074` with the given sign. -/
inductive View where
  | nan
  | infinite (negative : Bool)
  | finite (negative : Bool) (units : Nat)
deriving DecidableEq, Repr

def unitsPerOne : Nat := Nat.pow 2 1074

/-- The bits of positive infinity. They bound the bits of the finite numbers from above. -/
def infinityBits : Nat := 0x7FF * Nat.pow 2 52

def magnitudeBits (x : Binary64) : Nat :=
  x.bits.toNat % Nat.pow 2 63

def isNegative (x : Binary64) : Bool :=
  Nat.pow 2 63 ≤ x.bits.toNat

/-- The units of the finite number with the given bits, sign left out. The exponents 0 and 1 both
count single units; from there on every exponent doubles the weight of the fraction. -/
def unitsOf (magnitude : Nat) : Nat :=
  let exponent := magnitude / Nat.pow 2 52
  let fraction := magnitude % Nat.pow 2 52
  if exponent = 0 then fraction else (Nat.pow 2 52 + fraction) * Nat.pow 2 (exponent - 1)

def view (x : Binary64) : View :=
  if x.magnitudeBits > infinityBits then .nan
  else if x.magnitudeBits = infinityBits then .infinite x.isNegative
  else .finite x.isNegative (unitsOf x.magnitudeBits)

/-- The number with the given sign and the given remaining bits. -/
def ofMagnitude (negative : Bool) (magnitude : Nat) : Binary64 :=
  ⟨UInt64.ofNat (magnitude + if negative then Nat.pow 2 63 else 0)⟩

/-- The NaN that operations answer. -/
def nan : Binary64 := ⟨0x7FF8000000000000⟩

def infinity (negative : Bool) : Binary64 :=
  ofMagnitude negative infinityBits

def signedZero (negative : Bool) : Binary64 :=
  ofMagnitude negative 0

/-! ### Rounding -/

/-- The natural number nearest to `num / den`, the even one of two that are equally near. -/
def nearestEven (num den : Nat) : Nat :=
  let quotient := num / den
  let remainder := num % den
  if 2 * remainder < den then quotient
  else if 2 * remainder > den then quotient + 1
  else quotient + quotient % 2

/-- The bits, sign left out, of the number nearest to `num / den` units. With 53 significant binary
digits the bits of the numbers of one exponent are consecutive, and a result rounded up to the next
power of two carries into the exponent. -/
def roundUnits (num den : Nat) : Nat :=
  let shift := (num / den).log2 - 52
  min infinityBits (shift * Nat.pow 2 52 + nearestEven num (den * Nat.pow 2 shift))

/-- The number nearest to `num / den`, with the given sign. -/
def ofRatio (negative : Bool) (num den : Nat) : Binary64 :=
  ofMagnitude negative (roundUnits (num * unitsPerOne) den)

def ofNat (n : Nat) : Binary64 :=
  ofRatio false n 1

def one : Binary64 := ofNat 1

def zero : Binary64 := signedZero false

/-! ### Arithmetic -/

/-- The units of a finite number with their sign. -/
def signedUnits (negative : Bool) (units : Nat) : Int :=
  if negative then -(units : Int) else units

def neg (x : Binary64) : Binary64 :=
  ofMagnitude (!x.isNegative) x.magnitudeBits

/-- The rounded sum. A sum of zero is positive unless both operands are negative zeros. -/
def add (x y : Binary64) : Binary64 :=
  match x.view, y.view with
  | .nan, _ | _, .nan => nan
  | .infinite s, .infinite t => if s = t then infinity s else nan
  | .infinite s, .finite .. => infinity s
  | .finite .., .infinite t => infinity t
  | .finite s m, .finite t n =>
    let sum := signedUnits s m + signedUnits t n
    if sum = 0 then signedZero (s && t)
    else ofMagnitude (sum < 0) (roundUnits sum.natAbs 1)

def sub (x y : Binary64) : Binary64 :=
  x.add y.neg

def mul (x y : Binary64) : Binary64 :=
  match x.view, y.view with
  | .nan, _ | _, .nan => nan
  | .infinite s, .infinite t => infinity (s != t)
  | .infinite s, .finite t n => if n = 0 then nan else infinity (s != t)
  | .finite s m, .infinite t => if m = 0 then nan else infinity (s != t)
  | .finite s m, .finite t n => ofMagnitude (s != t) (roundUnits (m * n) unitsPerOne)

def div (x y : Binary64) : Binary64 :=
  match x.view, y.view with
  | .nan, _ | _, .nan => nan
  | .infinite _, .infinite _ => nan
  | .infinite s, .finite t _ => infinity (s != t)
  | .finite s _, .infinite t => signedZero (s != t)
  | .finite s m, .finite t n =>
    if n = 0 then if m = 0 then nan else infinity (s != t)
    else ofMagnitude (s != t) (roundUnits (m * unitsPerOne) n)

/-! ### Order -/

def isNaN (x : Binary64) : Bool :=
  x.view = .nan

/-- Whether `x` is at most `y`. Both zeros are equal, and no NaN is comparable. -/
def le (x y : Binary64) : Bool :=
  match x.view, y.view with
  | .nan, _ | _, .nan => false
  | .infinite true, _ => true
  | _, .infinite false => true
  | .infinite false, _ => false
  | _, .infinite true => false
  | .finite s m, .finite t n => signedUnits s m ≤ signedUnits t n

def lt (x y : Binary64) : Bool :=
  x.le y && !y.le x

/-- Whether the number lies between zero and one, ends included. -/
def isUnit (x : Binary64) : Bool :=
  zero.le x && x.le one

/-- The nearest number between zero and one. NaN stays, and so does a negative zero. -/
def clampUnit (x : Binary64) : Binary64 :=
  if x.lt zero then zero else if one.lt x then one else x

/-! ### Whole numbers -/

def maxWord : Nat := Nat.pow 2 64 - 1

/-- The least whole number that is not below `x`, as a 64-bit natural number: too small values and
NaN give zero, too large ones the greatest. -/
def ceilToNat (x : Binary64) : Nat :=
  match x.view with
  | .nan => 0
  | .infinite negative => if negative then 0 else maxWord
  | .finite negative units =>
    if negative then 0 else min maxWord ((units + (unitsPerOne - 1)) / unitsPerOne)

/-- The whole part of `x * 2 ^ 64` for a number in `[0, 1)`, and `none` for all other numbers. -/
def fraction64? (x : Binary64) : Option Nat :=
  match x.view with
  | .finite negative units =>
    if units = 0 then some 0
    else if negative || unitsPerOne ≤ units then none
    else some (units * Nat.pow 2 64 / unitsPerOne)
  | _ => none

end Binary64

end StepSearch
