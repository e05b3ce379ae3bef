import HeldReply.Number.Binary64
import HeldReply.Number.Digits

/-!
# The fewest digits that read back

A floating-point number is written with the fewest decimal digits from which it can be read again;
of several such decimals the nearest one is taken.

* `Decimal` — `digits * 10 ^ exponent`;
* `readsBack` — a decimal lies among the reals that round to the number: between the midpoints to
  its two neighbours, ends included if the mantissa is even;
* `shortest` — the first grid of 1, 2, … 17 digits on which a neighbour of the number reads back;
* `Layout`, `Layout.write` — where positional notation ends and how an exponent is written.
-/

namespace HeldReply.Number

/-- A **decimal**: `digits * 10 ^ exponent`. -/
structure Decimal where
  digits : Nat
  exponent : Int
  deriving DecidableEq, Repr

/-- Which of two equally near decimals is taken. -/
inductive Tie where
  | toEven
  | upward
  deriving DecidableEq, Repr

/-- Compare `a * 10 ^ i` with `n * 2 ^ j`, exactly. -/
def compareScaled (a : Nat) (i : Int) (n : Nat) (j : Int) : Ordering :=
  compare (a * Nat.pow 10 i.toNat * Nat.pow 2 (-j).toNat)
    (n * Nat.pow 2 j.toNat * Nat.pow 10 (-i).toNat)

namespace Binary64

/-- Below a power of two the gap to the next number is half as wide as above it. -/
def narrowBelow (x : Binary64) : Bool :=
  x.mantissa == Nat.pow 2 52 && minExponent < x.exponent

/-- A decimal **reads back** as the magnitude of `x`: it lies among the reals that round to it. -/
def readsBack (x : Binary64) (d : Decimal) : Bool :=
  let low := if x.narrowBelow then 4 * x.mantissa - 1 else 4 * x.mantissa - 2
  let high := 4 * x.mantissa + 2
  let ends := x.mantissa % 2 == 0
  let l := compareScaled d.digits d.exponent low (x.exponent - 2)
  let h := compareScaled d.digits d.exponent high (x.exponent - 2)
  (l == .gt || (ends && l == .eq)) && (h == .lt || (ends && h == .eq))

/-- The greatest multiple of `10 ^ e` that is at most the magnitude of `x`, in units of `10 ^ e`. -/
def floorAt (x : Binary64) (e : Int) : Nat :=
  x.mantissa * Nat.pow 2 x.exponent.toNat * Nat.pow 10 (-e).toNat /
    (Nat.pow 2 (-x.exponent).toNat * Nat.pow 10 e.toNat)

/-- Raise `k` until the magnitude of `x` is below `10 ^ k`. -/
def raiseScale (x : Binary64) (k : Int) : Nat → Int
  | 0 => k
  | fuel + 1 =>
    if compareScaled 1 k x.mantissa x.exponent == .gt then k else raiseScale x (k + 1) fuel

/-- The least `k` for which the magnitude of `x` is below `10 ^ k`: an estimate from the binary
logarithm that is never too great, raised by at most two steps. -/
def scale (x : Binary64) : Int :=
  let bits : Int := (Nat.log2 x.mantissa : Int) + x.exponent
  raiseScale x (bits * 1233 / 4096 - 1) 4

/-- The neighbours of `x` on a grid that read back; of two the nearer, of two equally near ones the
one that `tie` names. -/
def nearestOn (tie : Tie) (x : Binary64) (e : Int) : Option Decimal :=
  let lower := x.floorAt e
  let down : Decimal := ⟨lower, e⟩
  let up : Decimal := ⟨lower + 1, e⟩
  match x.readsBack down, x.readsBack up with
  | false, false => none
  | true, false => some down
  | false, true => some up
  | true, true =>
    match compareScaled (2 * lower + 1) e (2 * x.mantissa) x.exponent, tie with
    | .gt, _ => some down
    | .lt, _ => some up
    | .eq, .toEven => some (if lower % 2 = 0 then down else up)
    | .eq, .upward => some up

/-- The magnitude of `x` as a decimal, exactly. -/
def exact (x : Binary64) : Decimal :=
  if 0 ≤ x.exponent then ⟨x.mantissa * Nat.pow 2 x.exponent.toNat, 0⟩
  else ⟨x.mantissa * Nat.pow 5 (-x.exponent).toNat, x.exponent⟩

end Binary64

/-- Move trailing zeros of the digits into the exponent. -/
def Decimal.stripZeros (d : Decimal) : Nat → Decimal
  | 0 => d
  | fuel + 1 =>
    if d.digits ≠ 0 ∧ d.digits % 10 = 0 then
      Decimal.stripZeros ⟨d.digits / 10, d.exponent + 1⟩ fuel
    else d

/-- The **shortest** decimal that reads back as the magnitude of `x`, without trailing zeros. -/
def Binary64.shortest (tie : Tie) (x : Binary64) : Decimal :=
  if x.mantissa = 0 then ⟨0, 0⟩
  else
    let k := x.scale
    let found := (List.range 17).findSome? fun n => x.nearestOn tie (k - (n + 1 : Nat))
    (found.getD x.exact).stripZeros 800

/-- How a decimal is laid out. -/
structure Layout where
  /-- The tie rule of the digits. -/
  tie : Tie
  /-- The least exponent of the leading digit that is written positionally; `none`: all are. -/
  positional : Option (Int × Int)

/-- The digits `ds` of a positive decimal whose leading digit has exponent `lead`, with a point. -/
def positionalText (ds : List Char) (lead : Int) : List Char :=
  if lead < 0 then
    '0' :: '.' :: List.replicate (-lead - 1).toNat '0' ++ ds
  else
    let whole := lead.toNat + 1
    let before := ds.take whole ++ List.replicate (whole - ds.length) '0'
    let after := ds.drop whole
    before ++ '.' :: (if after.isEmpty then ['0'] else after)

/-- The digits `ds` of a decimal with one digit before the point and a signed exponent. -/
def scientificText (ds : List Char) (lead : Int) : List Char :=
  let point := match ds.drop 1 with
    | [] => []
    | rest => '.' :: rest
  let sign := if 0 ≤ lead then '+' else '-'
  ds.take 1 ++ point ++ 'e' :: sign :: digits lead.natAbs

/-- A floating-point number in the given layout. -/
def Layout.write (l : Layout) (x : Binary64) : List Char :=
  let d := x.shortest l.tie
  let ds := digits d.digits
  let lead := d.exponent + ds.length - 1
  let sign := if x.negative then ['-'] else []
  let body := match l.positional with
    | none => positionalText ds lead
    | some (low, high) =>
      if x.isZero || (low ≤ lead && lead < high) then positionalText ds lead
      else scientificText ds lead
  sign ++ body

end HeldReply.Number
