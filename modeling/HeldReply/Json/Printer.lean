import HeldReply.Json.Basic
import HeldReply.Number.Shortest

/-!
# Compact JSON text

The text of a JSON value without any blank: the form in which answers go to the client.

* `Json.floatLayout` — how floating-point numbers are laid out;
* `Json.escapeChar`, `Json.quotedChars` — strings;
* `Json.chars`, `Json.compact` — values, as characters and as text.
-/

namespace HeldReply.Json

open HeldReply.Number (Layout digits digitsInt)

/-- Floating-point numbers have the fewest digits, an exact tie going to the even digit; they are
positional from `0.00001` up to, but not including, `1e+16`. -/
def floatLayout : Layout where
  tie := .toEven
  positional := some (-5, 16)

/-- The characters of a number. -/
def Number.chars : Json.Number → List Char
  | .int i => digitsInt i
  | .float x => floatLayout.write x

/-- A digit of base sixteen, lower case. -/
def hexDigit (n : Nat) : Char :=
  Nat.digitChar (n % 16)

/-- The character of a short escape, for the control characters that have one. -/
def shortEscape? (c : Char) : Option Char :=
  if c = '\x08' then some 'b'
  else if c = '\t' then some 't'
  else if c = '\n' then some 'n'
  else if c = '\x0c' then some 'f'
  else if c = '\r' then some 'r'
  else none

/-- **One character of a string**: the quote, the backslash and the control characters are escaped,
all else stands for itself. -/
def escapeChar (c : Char) : List Char :=
  if c = '"' ∨ c = '\\' then ['\\', c]
  else if c.toNat < 0x20 then
    match shortEscape? c with
    | some e => ['\\', e]
    | none => ['\\', 'u', '0', '0', hexDigit (c.toNat / 16), hexDigit c.toNat]
  else [c]

/-- A string between its quotes. -/
def quotedChars (s : String) : List Char :=
  '"' :: s.toList.flatMap escapeChar ++ ['"']

mutual

/-- The characters of a **value**. -/
def chars : Json → List Char
  | .null => "null".toList
  | .bool true => "true".toList
  | .bool false => "false".toList
  | .number n => n.chars
  | .text s => quotedChars s
  | .array items => '[' :: charsItems items ++ [']']
  | .object members => '\x7b' :: charsMembers members ++ ['\x7d']

/-- The characters of the items of an array, with commas between them. -/
def charsItems : List Json → List Char
  | [] => []
  | [v] => chars v
  | v :: vs => chars v ++ ',' :: charsItems vs

/-- The characters of the members of an object, with commas between them. -/
def charsMembers : List (String × Json) → List Char
  | [] => []
  | [(k, v)] => quotedChars k ++ ':' :: chars v
  | (k, v) :: ms => quotedChars k ++ ':' :: chars v ++ ',' :: charsMembers ms

end

/-- The compact text of a value. -/
def compact (v : Json) : String :=
  String.ofList v.chars

end HeldReply.Json
