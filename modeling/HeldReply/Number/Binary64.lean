/-!
# Binary floating-point numbers of 64 bits

A finite number is kept exactly, as a sign and `mantissa * 2 ^ exponent`.  The mantissa has at most
53 bits and the exponent is at least `-1074`; it is the smallest exponent for which the mantissa
fits, so each number has one form.  All arithmetic rounds an exact quotient of natural numbers to
the nearest number, a tie to the even mantissa.

* `Binary64` — the type;
* `roundQuotient` — the nearest number to a quotient, `none` beyond the greatest number;
* `ofNat`, `mul`, `div`, `tenPower` — the operations that reading a decimal needs.
-/

namespace HeldReply.Number

/-- A finite **floating-point number**: `mantissa * 2 ^ exponent`, negated if `negative`. -/
structure Binary64 where
  negative : Bool
  mantissa : Nat
  exponent : Int
  deriving DecidableEq, Repr, Inhabited

namespace Binary64

/-- The least exponent. -/
def minExponent : Int := -1074

/-- The greatest exponent. -/
def maxExponent : Int := 971

/-- Zero with the given sign. -/
def zero (negative : Bool) : Binary64 := ⟨negative, 0, minExponent⟩

/-- Whether the number is a zero of either sign. -/
def isZero (x : Binary64) : Bool := x.mantissa == 0

/-- The same number with the given sign. -/
def withSign (x : Binary64) (negative : Bool) : Binary64 := { x with negative := negative }

/-- The nearest natural number to a quotient, a tie to the even one. -/
def roundHalfEven (num den : Nat) : Nat :=
  let q := num / den
  let r := num % den
  if 2 * r < den then q
  else if den < 2 * r then q + 1
  else if q % 2 = 0 then q else q + 1

/-- `num * 2 ^ (-e) / den`, as a numerator and a denominator. -/
def scaled (num den : Nat) (e : Int) : Nat × Nat :=
  if 0 ≤ e then (num, den * Nat.pow 2 e.toNat) else (num * Nat.pow 2 (-e).toNat, den)

/-- The exponent at which the positive quotient `num / den` has a mantissa of 53 bits, or the least
exponent if that is greater. -/
def exponentOf (num den : Nat) : Int :=
  let e := (Nat.log2 num : Int) - (Nat.log2 den : Int) - 53
  let (n, d) := scaled num den e
  max minExponent (if n < Nat.pow 2 53 * d then e else e + 1)

/-- The **nearest** number to `num / den`; `none` if it lies beyond the greatest number. -/
def roundQuotient (num den : Nat) : Option Binary64 :=
  if num = 0 then some (zero false)
  else
    let e := exponentOf num den
    let (n, d) := scaled num den e
    let m := roundHalfEven n d
    let (m, e) := if m = Nat.pow 2 53 then (Nat.pow 2 52, e + 1) else (m, e)
    if maxExponent < e then none else some ⟨false, m, e⟩

/-- The nearest number to `m * 2 ^ e / den`. -/
def roundScaled (m : Nat) (e : Int) (den : Nat) : Option Binary64 :=
  if 0 ≤ e then roundQuotient (m * Nat.pow 2 e.toNat) den
  else roundQuotient m (den * Nat.pow 2 (-e).toNat)

/-- The nearest number to a natural number. -/
def ofNat (n : Nat) : Option Binary64 := roundQuotient n 1

/-- The rounded product of the magnitudes. -/
def mul (x y : Binary64) : Option Binary64 :=
  roundScaled (x.mantissa * y.mantissa) (x.exponent + y.exponent) 1

/-- The rounded quotient of the magnitudes; the divisor is no zero. -/
def div (x y : Binary64) : Option Binary64 :=
  roundScaled x.mantissa (x.exponent - y.exponent) y.mantissa

/-- The nearest number to a power of ten. -/
def tenPower (k : Nat) : Option Binary64 := ofNat (Nat.pow 10 k)

/-- The nearest number to `d * 10 ^ e`. -/
def ofDecimal (d : Nat) (e : Int) : Option Binary64 :=
  if 0 ≤ e then roundQuotient (d * Nat.pow 10 e.toNat) 1
  else roundQuotient d (Nat.pow 10 (-e).toNat)

end Binary64

end HeldReply.Number
