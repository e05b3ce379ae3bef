import HeldReply.Number.Digits

/-!
# Endpoints

The address and port on which the service listens, in the usual two notations: `1.2.3.4:80`, and
`[1:2::3%4]:80` for an address of eight groups with an optional zone.

* `Endpoint` — the two kinds;
* `Endpoint.read` — an endpoint from its text, which it must fill;
* `Endpoint.toText` — its text: in lower case, the first longest run of two or more zero groups left
  out.
-/

namespace HeldReply

open Number (digitValue? digits)

/-- An **endpoint**: an address of four bytes, or of eight groups of 16 bits with a zone; and a
port. -/
inductive Endpoint where
  | four (a b c d port : Nat)
  | six (groups : List Nat) (zone port : Nat)
  deriving DecidableEq, Repr, Inhabited

namespace Endpoint

/-- The value of a digit of base ten or sixteen, in either case. -/
def baseDigit? (base : Nat) (c : Char) : Option Nat :=
  let v :=
    if '0' ≤ c ∧ c ≤ '9' then some (c.toNat - '0'.toNat)
    else if 'a' ≤ c ∧ c ≤ 'f' then some (c.toNat - 'a'.toNat + 10)
    else if 'A' ≤ c ∧ c ≤ 'F' then some (c.toNat - 'A'.toNat + 10)
    else none
  v.filter (· < base)

/-- The digit values at the head of a text, and what follows them. -/
def scanDigits (base : Nat) : List Char → List Nat × List Char
  | [] => ([], [])
  | c :: cs =>
    match baseDigit? base c with
    | none => ([], c :: cs)
    | some d =>
      let (ds, rest) := scanDigits base cs
      (d :: ds, rest)

/-- The number of a list of digit values. -/
def valueOf (base : Nat) (ds : List Nat) : Nat :=
  ds.foldl (fun n d => base * n + d) 0

/-- A number of at most `width` digits at the head of a text. -/
def scanShort (base width : Nat) (cs : List Char) : Option (Nat × List Char) :=
  match scanDigits base cs with
  | ([], _) => none
  | (ds, rest) => if ds.length ≤ width then some (valueOf base ds, rest) else none

/-- A byte in base ten, without leading zeros, at the head of a text. -/
def scanByte (cs : List Char) : Option (Nat × List Char) := do
  let (n, rest) ← scanShort 10 3 cs
  let leadingZero := cs.head? == some '0' && rest.length + 1 < cs.length
  if n ≤ 255 && !leadingZero then some (n, rest) else none

/-- A number in base ten of any length, at most `limit`, at the head of a text. -/
def scanUpTo (limit : Nat) (cs : List Char) : Option (Nat × List Char) :=
  match scanDigits 10 cs with
  | ([], _) => none
  | (ds, rest) => if valueOf 10 ds ≤ limit then some (valueOf 10 ds, rest) else none

/-- What follows a given character at the head of a text. -/
def after (c : Char) : List Char → Option (List Char)
  | [] => none
  | d :: rest => if d = c then some rest else none

/-- An address of four bytes at the head of a text. -/
def scanFour (cs : List Char) : Option ((Nat × Nat × Nat × Nat) × List Char) := do
  let (a, cs) ← scanByte cs
  let (b, cs) ← scanByte (← after '.' cs)
  let (c, cs) ← scanByte (← after '.' cs)
  let (d, cs) ← scanByte (← after '.' cs)
  return ((a, b, c, d), cs)

/-- What follows the colon before a group, which only the first group does not have. -/
def afterColon (first : Bool) (cs : List Char) : Option (List Char) :=
  if first then some cs else after ':' cs

/-- At most `limit` groups at the head of a text, the last two possibly written as four bytes, and
whether they were. -/
def scanGroups (first : Bool) (cs : List Char) : Nat → List Nat × Bool × List Char
  | 0 => ([], false, cs)
  | limit + 1 =>
    let bytes := if limit = 0 then none else (afterColon first cs).bind scanFour
    match bytes with
    | some ((a, b, c, d), rest) => ([256 * a + b, 256 * c + d], true, rest)
    | none =>
      match (afterColon first cs).bind (scanShort 16 4) with
      | none => ([], false, cs)
      | some (g, rest) =>
        let (gs, embedded, rest) := scanGroups false rest limit
        (g :: gs, embedded, rest)

/-- An address of eight groups at the head of a text; a double colon stands for one or more zero
groups. -/
def scanSix (cs : List Char) : Option (List Nat × List Char) :=
  let (front, embedded, rest) := scanGroups true cs 8
  if front.length = 8 then some (front, rest)
  else if embedded then none
  else do
    let rest ← after ':' (← after ':' rest)
    let (back, _, rest) := scanGroups true rest (7 - front.length)
    return (front ++ List.replicate (8 - front.length - back.length) 0 ++ back, rest)

/-- The port at the head of a text, after a colon. -/
def scanPort (cs : List Char) : Option (Nat × List Char) := do
  scanUpTo 65535 (← after ':' cs)

/-- The zone at the head of a text, after a percent sign; zero if there is none. -/
def scanZone (cs : List Char) : Nat × List Char :=
  ((after '%' cs).bind (scanUpTo 0xFFFFFFFF)).getD (0, cs)

/-- An endpoint in the first notation. -/
def readFour (cs : List Char) : Option Endpoint := do
  let ((a, b, c, d), cs) ← scanFour cs
  let (port, cs) ← scanPort cs
  if cs.isEmpty then some (.four a b c d port) else none

/-- An endpoint in the second notation. -/
def readSix (cs : List Char) : Option Endpoint := do
  let (groups, cs) ← scanSix (← after '[' cs)
  let (zone, cs) := scanZone cs
  let (port, cs) ← scanPort (← after ']' cs)
  if cs.isEmpty then some (.six groups zone port) else none

/-- The **endpoint** of a text. -/
def read (s : String) : Option Endpoint :=
  (readFour s.toList).or (readSix s.toList)

/-- Four bytes with points between them. -/
def fourText (a b c d : Nat) : List Char :=
  digits a ++ '.' :: digits b ++ '.' :: digits c ++ '.' :: digits d

/-- Groups in base sixteen with colons between them. -/
def groupsText : List Nat → List Char
  | [] => []
  | [g] => Nat.toDigits 16 g
  | g :: gs => Nat.toDigits 16 g ++ ':' :: groupsText gs

/-- The start and length of the first longest run of zeros in `gs`, whose first element stands at
`i`; `best` is the longest run before it and `run` the run that ends right before it. -/
def longestZeros (gs : List Nat) (i : Nat) (best run : Nat × Nat) : Nat × Nat :=
  match gs with
  | [] => best
  | g :: gs =>
    if g = 0 then
      let run := if run.2 = 0 then (i, 1) else (run.1, run.2 + 1)
      longestZeros gs (i + 1) (if best.2 < run.2 then run else best) run
    else longestZeros gs (i + 1) best (0, 0)

/-- An address of eight groups. -/
def sixText (groups : List Nat) : List Char :=
  match groups with
  | [0, 0, 0, 0, 0, 0xffff, g, h] =>
    "::ffff:".toList ++ fourText (g / 256) (g % 256) (h / 256) (h % 256)
  | _ =>
    let (start, length) := longestZeros groups 0 (0, 0) (0, 0)
    if 1 < length then
      groupsText (groups.take start) ++ "::".toList ++ groupsText (groups.drop (start + length))
    else groupsText groups

/-- The **text** of an endpoint. -/
def toText : Endpoint → String
  | .four a b c d port => String.ofList (fourText a b c d ++ ':' :: digits port)
  | .six groups zone port =>
    let zone := if zone = 0 then [] else '%' :: digits zone
    String.ofList ('[' :: sixText groups ++ zone ++ "]:".toList ++ digits port)

end Endpoint

end HeldReply
