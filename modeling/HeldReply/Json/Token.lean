import HeldReply.Json.Numeral

/-!
# JSON tokens

A JSON text is cut into tokens before it is read as a value: punctuation, the three literals,
numbers and strings.  Blanks between tokens are space, tab, line feed and carriage return.

* `Token` — the tokens;
* `scanString` — the rest of a string after its opening quote;
* `scan` — all tokens of a text, `none` if some part of it is no token.
-/

namespace HeldReply.Json

/-- A JSON **token**. -/
inductive Token where
  | openArray
  | closeArray
  | openObject
  | closeObject
  | comma
  | colon
  | null
  | bool (b : Bool)
  | number (n : Json.Number)
  | text (s : String)
  deriving Repr

/-- The value of a digit of base sixteen, in either case. -/
def hexValue? (c : Char) : Option Nat :=
  if '0' ≤ c ∧ c ≤ '9' then some (c.toNat - '0'.toNat)
  else if 'a' ≤ c ∧ c ≤ 'f' then some (c.toNat - 'a'.toNat + 10)
  else if 'A' ≤ c ∧ c ≤ 'F' then some (c.toNat - 'A'.toNat + 10)
  else none

/-- The number of four digits of base sixteen. -/
def hexFour? (a b c d : Char) : Option Nat := do
  return 4096 * (← hexValue? a) + 256 * (← hexValue? b) + 16 * (← hexValue? c) + (← hexValue? d)

/-- The character of a short escape. -/
def unescape? (c : Char) : Option Char :=
  if c = '"' ∨ c = '\\' ∨ c = '/' then some c
  else if c = 'b' then some '\x08'
  else if c = 'f' then some '\x0c'
  else if c = 'n' then some '\n'
  else if c = 'r' then some '\r'
  else if c = 't' then some '\t'
  else none

/-- Whether a number of 16 bits is the first half of a pair. -/
def isHighHalf (n : Nat) : Bool := 0xd800 ≤ n && n ≤ 0xdbff

/-- Whether a number of 16 bits is the second half of a pair. -/
def isLowHalf (n : Nat) : Bool := 0xdc00 ≤ n && n ≤ 0xdfff

/-- The rest of a **string** after its opening quote: its characters, and what follows the closing
quote.  A half of a pair must stand beside its other half; control characters must be escaped. -/
def scanString : List Char → Option (List Char × List Char)
  | '"' :: rest => some ([], rest)
  | '\\' :: 'u' :: a :: b :: c :: d :: rest =>
    match hexFour? a b c d with
    | none => none
    | some n =>
      if isHighHalf n then
        match rest with
        | '\\' :: 'u' :: e :: f :: g :: h :: rest =>
          match hexFour? e f g h with
          | none => none
          | some m =>
            if isLowHalf m then do
              let (s, rest) ← scanString rest
              return (Char.ofNat (0x10000 + (n - 0xd800) * 0x400 + (m - 0xdc00)) :: s, rest)
            else none
        | _ => none
      else if isLowHalf n then none
      else do
        let (s, rest) ← scanString rest
        return (Char.ofNat n :: s, rest)
  | '\\' :: c :: rest =>
    match unescape? c with
    | none => none
    | some c => do
      let (s, rest) ← scanString rest
      return (c :: s, rest)
  | c :: rest =>
    if c = '\\' ∨ c.toNat < 0x20 then none
    else do
      let (s, rest) ← scanString rest
      return (c :: s, rest)
  | [] => none

/-- Whether a character may stand between tokens. -/
def isSpace (c : Char) : Bool :=
  c = ' ' || c = '\t' || c = '\n' || c = '\r'

/-- The punctuation token of a character. -/
def punctuation? (c : Char) : Option Token :=
  if c = '[' then some .openArray
  else if c = ']' then some .closeArray
  else if c = '\x7b' then some .openObject
  else if c = '\x7d' then some .closeObject
  else if c = ',' then some .comma
  else if c = ':' then some .colon
  else none

/-- The number at the head of a text, and what follows it. -/
def scanNumber (cs : List Char) : Option (Token × List Char) := do
  let (n, rest) ← scanNumeral cs
  return (.number (← n.value), rest)

/-- The **token** at the head of a text that starts with no blank, and what follows it. -/
def scanToken : List Char → Option (Token × List Char)
  | 'n' :: 'u' :: 'l' :: 'l' :: rest => some (.null, rest)
  | 't' :: 'r' :: 'u' :: 'e' :: rest => some (.bool true, rest)
  | 'f' :: 'a' :: 'l' :: 's' :: 'e' :: rest => some (.bool false, rest)
  | '"' :: rest => do
    let (s, rest) ← scanString rest
    return (.text (String.ofList s), rest)
  | c :: rest =>
    match punctuation? c with
    | some t => some (t, rest)
    | none => scanNumber (c :: rest)
  | [] => none

/-- All tokens of a text.  The fuel bounds their number. -/
def scanWith : Nat → List Char → Option (List Token)
  | 0, _ => none
  | fuel + 1, cs =>
    match cs.dropWhile isSpace with
    | [] => some []
    | c :: rest => do
      let (t, rest) ← scanToken (c :: rest)
      let ts ← scanWith fuel rest
      return t :: ts

/-- All **tokens** of a text; `none` if some part of it is no token.  A token has at least one
character, so the length of the text bounds their number. -/
def scan (cs : List Char) : Option (List Token) :=
  scanWith (cs.length + 1) cs

end HeldReply.Json
