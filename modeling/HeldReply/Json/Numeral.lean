import HeldReply.Json.Basic
import HeldReply.Number.Whole

/-!
# Reading JSON numbers

A numeral is an optional minus sign, an integer without leading zeros, an optional fraction and an
optional exponent.  Its value is an integer if it has neither fraction nor exponent and 64 bits hold
it.  Otherwise it is a floating-point number, found in two roundings: the digits are gathered into
64 bits as far as they fit, and the result is then scaled by a power of ten.

* `Numeral`, `scanNumeral` — the parts of a numeral, and how they are found in a text;
* `Numeral.value` — the number it stands for, `none` beyond the greatest floating-point number.
-/

namespace HeldReply.Json

open HeldReply.Number (Binary64 isDigit digitValue? pushDigit maxWord)

/-- The parts of a **numeral**. -/
structure Numeral where
  negative : Bool
  whole : List Char
  fraction : Option (List Char)
  /-- Whether the exponent is negative, and its digits. -/
  exponent : Option (Bool × List Char)
  deriving Repr

/-- The sign of an exponent, and what follows it. -/
def scanSign : List Char → Bool × List Char
  | '+' :: cs => (false, cs)
  | '-' :: cs => (true, cs)
  | cs => (false, cs)

/-- The optional exponent at the head of a text. -/
def scanExponent (cs : List Char) : Option (Option (Bool × List Char) × List Char) :=
  match cs with
  | c :: rest =>
    if c = 'e' ∨ c = 'E' then
      let (negative, rest) := scanSign rest
      match rest.takeWhile isDigit with
      | [] => none
      | ds => some (some (negative, ds), rest.dropWhile isDigit)
    else some (none, cs)
  | [] => some (none, [])

/-- The optional fraction at the head of a text. -/
def scanFraction (cs : List Char) : Option (Option (List Char) × List Char) :=
  match cs with
  | '.' :: rest =>
    match rest.takeWhile isDigit with
    | [] => none
    | ds => some (some ds, rest.dropWhile isDigit)
  | _ => some (none, cs)

/-- The integer at the head of a text: digits without a leading zero. -/
def scanWhole (cs : List Char) : Option (List Char × List Char) :=
  match cs.takeWhile isDigit with
  | [] => none
  | '0' :: _ :: _ => none
  | ds => some (ds, cs.dropWhile isDigit)

/-- The **numeral** at the head of a text, and what follows it. -/
def scanNumeral (cs : List Char) : Option (Numeral × List Char) := do
  let (negative, cs) := match cs with
    | '-' :: rest => (true, rest)
    | _ => (false, cs)
  let (whole, cs) ← scanWhole cs
  let (fraction, cs) ← scanFraction cs
  let (exponent, cs) ← scanExponent cs
  return (⟨negative, whole, fraction, exponent⟩, cs)

/-- Gather digits after those of `acc` as long as 64 bits hold the number; the second component
counts the digits that were gathered. -/
def gather (acc : Nat) : List Char → Nat × Nat
  | [] => (acc, 0)
  | c :: cs =>
    match digitValue? c with
    | none => (acc, 0)
    | some d =>
      if pushDigit acc d ≤ maxWord then
        let (n, k) := gather (pushDigit acc d) cs
        (n, k + 1)
      else (acc, 0)

/-- The greatest power of ten that scales in one step. -/
def greatestStep : Nat := 308

/-- Divide by `10 ^ e`; as long as `e` is beyond the greatest step, divide by `p`, which stands for
the power of ten of that step. -/
def scaleDown (p x : Binary64) (e : Nat) : Option Binary64 :=
  if e ≤ greatestStep then do x.div (← Binary64.tenPower e)
  else if x.isZero then some x
  else
    match x.div p with
    | none => none
    | some y => scaleDown p y (e - greatestStep)
termination_by e
decreasing_by simp only [greatestStep] at *; omega

/-- `significand * 10 ^ e`, found by scaling the rounded significand. -/
def scaleBy (significand : Nat) (e : Int) : Option Binary64 := do
  let x ← Binary64.ofNat significand
  if 0 ≤ e then
    if e.toNat ≤ greatestStep then x.mul (← Binary64.tenPower e.toNat)
    else if x.isZero then some x
    else none
  else scaleDown (← Binary64.tenPower greatestStep) x (-e).toNat

/-- The number that a list of digits stands for. -/
def digitsValue (ds : List Char) : Nat :=
  (Number.ofDigits ds).getD 0

/-- The **value** of a numeral; `none` if it lies beyond the greatest floating-point number. -/
def Numeral.value (n : Numeral) : Option Json.Number :=
  let (significand, kept) := gather 0 n.whole
  let beyond : Nat := n.whole.length - kept
  match n.fraction, n.exponent, beyond with
  | none, none, 0 =>
    if !n.negative then some (.int significand)
    else if 1 ≤ significand ∧ significand ≤ 0x8000000000000000 then some (.int (-significand))
    else (Binary64.ofNat significand).map fun x => .float (x.withSign true)
  | fraction, exponent, beyond =>
    let (significand, places) := gather significand (fraction.getD [])
    let e : Int := (beyond : Int) - places + match exponent with
      | none => 0
      | some (true, ds) => -(digitsValue ds : Int)
      | some (false, ds) => digitsValue ds
    (scaleBy significand e).map fun x => .float (x.withSign n.negative)

end HeldReply.Json
