import HeldReply.Number.Digits

/-!
# Whole numbers typed by people

A count or a number of milliseconds comes as text: an optional plus sign and decimal digits, no
more than 64 bits wide.

* `WholeFault` — the three ways in which a text is no such number, with their wording;
* `readWhole` — the number, or the first fault met from left to right.
-/

namespace HeldReply.Number

/-- The largest number of 64 bits. -/
def maxWord : Nat := 0xFFFFFFFFFFFFFFFF

/-- Why a text is no whole number of 64 bits. -/
inductive WholeFault where
  | empty
  | notADigit
  | tooLarge
  deriving DecidableEq, Repr

/-- The wording of a fault. -/
def WholeFault.message : WholeFault → String
  | .empty => "cannot parse integer from empty string"
  | .notADigit => "invalid digit found in string"
  | .tooLarge => "number too large to fit in target type"

/-- Read digits after those of `acc`, from left to right, up to the first fault. -/
def readWholeFrom (acc : Nat) : List Char → Except WholeFault Nat
  | [] => .ok acc
  | c :: cs =>
    match digitValue? c with
    | none => .error .notADigit
    | some d =>
      if pushDigit acc d ≤ maxWord then readWholeFrom (pushDigit acc d) cs else .error .tooLarge

/-- Read a **whole number** of 64 bits: an optional plus sign, then at least one digit. -/
def readWhole (s : String) : Except WholeFault Nat :=
  match s.toList with
  | [] => .error .empty
  | ['+'] => .error .notADigit
  | '+' :: cs => readWholeFrom 0 cs
  | cs => readWholeFrom 0 cs

end HeldReply.Number
