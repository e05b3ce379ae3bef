import HeldReply.Text.Hidden

/-!
# Quoted texts

How a text is shown inside a diagnostic: between double quotes, with the quote, the backslash and
the control characters escaped.

* `escape` — the shown form of one character;
* `quoted` — the shown form of a text;
* `ticked` — a name or a number between single back quotes, as it is.
-/

namespace HeldReply.Text

/-- The digits of a number in base sixteen, lower case, without leading zeros. -/
def hexDigits (n : Nat) : List Char :=
  Nat.toDigits 16 n

/-- The **shown form** of one character inside quotes. -/
def escape (c : Char) : List Char :=
  if c = '"' then ['\\', '"']
  else if c = '\\' then ['\\', '\\']
  else if c = '\t' then ['\\', 't']
  else if c = '\r' then ['\\', 'r']
  else if c = '\n' then ['\\', 'n']
  else if c = '\x00' then ['\\', '0']
  else if c.toNat < 0x20 || isHidden c then
    ['\\', 'u', '\x7b'] ++ hexDigits c.toNat ++ ['\x7d']
  else [c]

/-- A text between double quotes, each character in its shown form. -/
def quoted (s : String) : String :=
  String.ofList ('"' :: s.toList.flatMap escape ++ ['"'])

/-- A text between single back quotes. -/
def ticked (s : String) : String := "\x60" ++ s ++ "\x60"

end HeldReply.Text
