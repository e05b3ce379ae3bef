import HeldReply.Toml.Basic
import HeldReply.Number.Digits

/-!
# TOML scalars

Strings, numbers, dates and times at the head of a text.

* `basicString`, `literalString`, `longBasic`, `longLiteral` — the four kinds of string, after their
  opening quotes;
* `scanInteger`, `scanReal` — numbers, whose digits may be parted by single underscores;
* `scanMoment` — dates, times and both.

Every scan gives the value and what follows it.
-/

namespace HeldReply.Toml

open HeldReply.Number (Binary64 isDigit digitValue? pushDigit)

/-! ### Characters -/

/-- Space or tab. -/
def isGap (c : Char) : Bool := c = ' ' || c = '\t'

/-- Characters that may stand in a comment: the tab, and all that is no control character. -/
def isShown (c : Char) : Bool :=
  c = '\t' || (0x20 ≤ c.toNat && c.toNat ≠ 0x7f)

/-- What follows a line end at the head of a text: a line feed, or carriage return and line feed. -/
def afterLineEnd : List Char → Option (List Char)
  | '\n' :: cs => some cs
  | '\r' :: '\n' :: cs => some cs
  | _ => none

/-- What follows spaces and tabs. -/
def skipGap (cs : List Char) : List Char := cs.dropWhile isGap

/-- What follows spaces, tabs and line ends. -/
def skipLines : List Char → List Char
  | '\n' :: cs => skipLines cs
  | '\r' :: '\n' :: cs => skipLines cs
  | c :: cs => if isGap c then skipLines cs else c :: cs
  | [] => []

/-! ### Strings -/

/-- The value of a digit of base sixteen, in either case. -/
def hexDigit? (c : Char) : Option Nat :=
  if '0' ≤ c ∧ c ≤ '9' then some (c.toNat - '0'.toNat)
  else if 'a' ≤ c ∧ c ≤ 'f' then some (c.toNat - 'a'.toNat + 10)
  else if 'A' ≤ c ∧ c ≤ 'F' then some (c.toNat - 'A'.toNat + 10)
  else none

/-- The character whose number is written with exactly `width` digits of base sixteen. -/
def scanCodePoint (width : Nat) (cs : List Char) : Option (Char × List Char) := do
  let ds ← (cs.take width).mapM hexDigit?
  if ds.length ≠ width then none
  else
    let n := ds.foldl (fun n d => 16 * n + d) 0
    if n.isValidChar then some (Char.ofNat n, cs.drop width) else none

/-- The character of an escape after its backslash. -/
def scanEscape : List Char → Option (Char × List Char)
  | 'b' :: cs => some ('\x08', cs)
  | 't' :: cs => some ('\t', cs)
  | 'n' :: cs => some ('\n', cs)
  | 'f' :: cs => some ('\x0c', cs)
  | 'r' :: cs => some ('\r', cs)
  | '"' :: cs => some ('"', cs)
  | '\\' :: cs => some ('\\', cs)
  | 'u' :: cs => scanCodePoint 4 cs
  | 'U' :: cs => scanCodePoint 8 cs
  | _ => none

/-- The rest of a **basic string** after its quote.  The fuel bounds its length. -/
def basicString : Nat → List Char → Option (List Char × List Char)
  | 0, _ => none
  | _ + 1, '"' :: cs => some ([], cs)
  | fuel + 1, '\\' :: cs => do
    let (c, cs) ← scanEscape cs
    let (s, cs) ← basicString fuel cs
    return (c :: s, cs)
  | fuel + 1, c :: cs =>
    if isShown c then do
      let (s, cs) ← basicString fuel cs
      return (c :: s, cs)
    else none
  | _ + 1, [] => none

/-- The rest of a **literal string** after its quote. -/
def literalString : List Char → Option (List Char × List Char)
  | '\'' :: cs => some ([], cs)
  | c :: cs =>
    if isShown c then do
      let (s, cs) ← literalString cs
      return (c :: s, cs)
    else none
  | [] => none

/-- The end of a string in three quotes: up to two more quotes right before it belong to it. -/
def longEnd (quote : Char) (cs : List Char) : Option (List Char × List Char) :=
  let quotes := (cs.take 5).takeWhile (· = quote)
  if 3 ≤ quotes.length then some (List.replicate (quotes.length - 3) quote, cs.drop quotes.length)
  else none

/-- What follows a backslash that ends a line: all blanks and line ends up to the next character. -/
def afterLineJoin (cs : List Char) : Option (List Char) :=
  (afterLineEnd (skipGap cs)).map skipLines

/-- The rest of a **basic string in three quotes**.  Line ends become line feeds. -/
def longBasic : Nat → List Char → Option (List Char × List Char)
  | 0, _ => none
  | fuel + 1, cs =>
    match longEnd '"' cs with
    | some found => some found
    | none =>
      match afterLineEnd cs with
      | some cs => do
        let (s, cs) ← longBasic fuel cs
        return ('\n' :: s, cs)
      | none =>
        match cs with
        | '\\' :: cs =>
          match afterLineJoin cs with
          | some cs => longBasic fuel cs
          | none => do
            let (c, cs) ← scanEscape cs
            let (s, cs) ← longBasic fuel cs
            return (c :: s, cs)
        | c :: cs =>
          if isShown c then do
            let (s, cs) ← longBasic fuel cs
            return (c :: s, cs)
          else none
        | [] => none

/-- The rest of a **literal string in three quotes**.  Line ends become line feeds. -/
def longLiteral : Nat → List Char → Option (List Char × List Char)
  | 0, _ => none
  | fuel + 1, cs =>
    match longEnd '\'' cs with
    | some found => some found
    | none =>
      match afterLineEnd cs with
      | some cs => do
        let (s, cs) ← longLiteral fuel cs
        return ('\n' :: s, cs)
      | none =>
        match cs with
        | c :: cs =>
          if isShown c then do
            let (s, cs) ← longLiteral fuel cs
            return (c :: s, cs)
          else none
        | [] => none

/-- What follows a line end that comes right after three opening quotes. -/
def afterOpening (cs : List Char) : List Char :=
  (afterLineEnd cs).getD cs

/-- A **string** of any of the four kinds. -/
def scanString (cs : List Char) : Option (String × List Char) := do
  let (s, rest) ← match cs with
    | '"' :: '"' :: '"' :: cs => longBasic (cs.length + 1) (afterOpening cs)
    | '"' :: cs => basicString (cs.length + 1) cs
    | '\'' :: '\'' :: '\'' :: cs => longLiteral (cs.length + 1) (afterOpening cs)
    | '\'' :: cs => literalString cs
    | _ => none
  return (String.ofList s, rest)

/-! ### Numbers -/

/-- Digits at the head of a text after a first one, single underscores between them; the
underscores are left out. -/
def moreDigits (isOne : Char → Bool) : List Char → Option (List Char × List Char)
  | '_' :: c :: cs =>
    if isOne c then do
      let (ds, rest) ← moreDigits isOne cs
      return (c :: ds, rest)
    else none
  | ['_'] => none
  | c :: cs =>
    if isOne c then do
      let (ds, rest) ← moreDigits isOne cs
      return (c :: ds, rest)
    else some ([], c :: cs)
  | [] => some ([], [])

/-- One or more digits at the head of a text. -/
def someDigits (isOne : Char → Bool) : List Char → Option (List Char × List Char)
  | [] => none
  | c :: cs =>
    if isOne c then do
      let (ds, rest) ← moreDigits isOne cs
      return (c :: ds, rest)
    else none

/-- An optional sign: whether it is a minus, and what follows. -/
def scanSign : List Char → Bool × List Char
  | '+' :: cs => (false, cs)
  | '-' :: cs => (true, cs)
  | cs => (false, cs)

/-- A decimal integer: a zero, or digits that do not start with one. -/
def scanDecimal (cs : List Char) : Option (List Char × List Char) :=
  match cs with
  | '0' :: rest => some (['0'], rest)
  | cs => someDigits isDigit cs

/-- The number of a list of digits in a base. -/
def baseValue (base : Nat) (ds : List Char) : Nat :=
  ds.foldl (fun n c => base * n + (hexDigit? c).getD 0) 0

/-- An integer if 64 bits with a sign hold it. -/
def inRange (i : Int) : Option Int :=
  if -0x8000000000000000 ≤ i ∧ i < 0x8000000000000000 then some i else none

/-- Whether a character is a digit of a base up to sixteen. -/
def isBaseDigit (base : Nat) (c : Char) : Bool :=
  ((hexDigit? c).filter (· < base)).isSome

/-- An integer in a base that its start names. -/
def scanBased (base : Nat) (cs : List Char) : Option (Int × List Char) := do
  let (ds, rest) ← someDigits (isBaseDigit base) cs
  return (← inRange (baseValue base ds), rest)

/-- An **integer**. -/
def scanInteger (cs : List Char) : Option (Int × List Char) :=
  match cs with
  | '0' :: 'x' :: cs => scanBased 16 cs
  | '0' :: 'o' :: cs => scanBased 8 cs
  | '0' :: 'b' :: cs => scanBased 2 cs
  | cs => do
    let (negative, cs) := scanSign cs
    let (ds, rest) ← scanDecimal cs
    let n : Int := baseValue 10 ds
    return (← inRange (if negative then -n else n), rest)

/-- The exponent at the head of a text. -/
def scanExponent (cs : List Char) : Option (Int × List Char) :=
  match cs with
  | c :: cs =>
    if c = 'e' ∨ c = 'E' then do
      let (negative, cs) := scanSign cs
      let (ds, rest) ← someDigits isDigit cs
      let n : Int := baseValue 10 ds
      return (if negative then -n else n, rest)
    else none
  | [] => none

/-- Whether an exponent starts here. -/
def atExponent : List Char → Bool
  | c :: _ => c = 'e' || c = 'E'
  | [] => false

/-- `ds * 10 ^ e` as a floating-point value, rounded once.  Far beyond the ends of the range the
digits do not matter. -/
def realOf (negative : Bool) (ds : List Char) (e : Int) : Real :=
  let n := baseValue 10 ds
  let lead := e + (Number.digits n).length
  if n = 0 ∨ lead < -400 then .finite (Binary64.zero negative)
  else if 400 < lead then .infinite negative
  else
    match Binary64.ofDecimal n e with
    | some x => .finite (x.withSign negative)
    | none => .infinite negative

/-- A floating-point value with a fraction, an exponent or both.  Positive infinity cannot be
written this way. -/
def scanPlainReal (cs : List Char) : Option (Real × List Char) := do
  let (negative, cs) := scanSign cs
  let (whole, cs) ← scanDecimal cs
  let (fraction, cs) ← match cs with
    | '.' :: cs => someDigits isDigit cs
    | cs => if atExponent cs then some ([], cs) else none
  let (e, cs) ← if atExponent cs then scanExponent cs else some (0, cs)
  let x := realOf negative (whole ++ fraction) (e - fraction.length)
  if x = .infinite false then none else some (x, cs)

/-- One of the named floating-point values. -/
def scanNamedReal (cs : List Char) : Option (Real × List Char) :=
  let (negative, cs) := scanSign cs
  match cs with
  | 'i' :: 'n' :: 'f' :: cs => some (.infinite negative, cs)
  | 'n' :: 'a' :: 'n' :: cs => some (.notANumber, cs)
  | _ => none

/-- Whether a number at the head of a text has a fraction or an exponent. -/
def looksReal (cs : List Char) : Bool :=
  match scanDecimal (scanSign cs).2 with
  | some (_, '.' :: _) => true
  | some (_, rest) => atExponent rest
  | none => false

/-! ### Dates and times -/

/-- A number of exactly `width` digits within bounds. -/
def scanField (width low high : Nat) (cs : List Char) : Option (Nat × List Char) :=
  let ds := cs.take width
  if ds.length = width && ds.all isDigit then
    let n := baseValue 10 ds
    if low ≤ n && n ≤ high then some (n, cs.drop width) else none
  else none

/-- What follows a given character. -/
def afterChar (c : Char) : List Char → Option (List Char)
  | [] => none
  | d :: cs => if d = c then some cs else none

/-- The number of days of a month. -/
def daysIn (year month : Nat) : Nat :=
  if month = 2 then
    if year % 4 = 0 ∧ (year % 100 ≠ 0 ∨ year % 400 = 0) then 29 else 28
  else if month = 4 ∨ month = 6 ∨ month = 9 ∨ month = 11 then 30
  else 31

/-- What follows a date. -/
def afterDate (cs : List Char) : Option (List Char) := do
  let (year, cs) ← scanField 4 0 9999 cs
  let (month, cs) ← scanField 2 1 12 (← afterChar '-' cs)
  let (_, cs) ← scanField 2 1 (daysIn year month) (← afterChar '-' cs)
  return cs

/-- What follows a time of day; the seconds may have a fraction. -/
def afterTime (cs : List Char) : Option (List Char) := do
  let (_, cs) ← scanField 2 0 23 cs
  let (_, cs) ← scanField 2 0 59 (← afterChar ':' cs)
  let (_, cs) ← scanField 2 0 60 (← afterChar ':' cs)
  match cs with
  | '.' :: rest =>
    match rest.takeWhile isDigit with
    | [] => return cs
    | _ => return rest.dropWhile isDigit
  | _ => return cs

/-- What follows an optional offset from universal time. -/
def afterOffset (cs : List Char) : Option (List Char) :=
  match cs with
  | [] => some []
  | c :: rest =>
    if c = 'Z' ∨ c = 'z' then some rest
    else if c = '+' ∨ c = '-' then do
      let (_, cs) ← scanField 2 0 23 rest
      let (_, cs) ← scanField 2 0 59 (← afterChar ':' cs)
      return cs
    else some cs

/-- What follows the time after a date, if there is one. -/
def afterDateTime (cs : List Char) : Option (List Char) :=
  match cs with
  | [] => some []
  | c :: rest =>
    if (c = 'T' ∨ c = 't' ∨ c = ' ') ∧ (rest.head?.map isDigit).getD false then
      (afterTime rest).bind afterOffset
    else some cs

/-- What follows a **date, a time or both**. -/
def scanMoment (cs : List Char) : Option (List Char) :=
  match afterDate cs with
  | some rest => afterDateTime rest
  | none => afterTime cs

/-- Whether a date or a time starts here: four digits and a minus, or two digits and a colon. -/
def looksMoment (cs : List Char) : Bool :=
  match cs with
  | a :: b :: c :: rest =>
    isDigit a && isDigit b &&
      (c = ':' || (isDigit c && match rest with
        | d :: e :: _ => isDigit d && e = '-'
        | _ => false))
  | _ => false

end HeldReply.Toml
