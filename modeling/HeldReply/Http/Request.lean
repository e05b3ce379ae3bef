import HeldReply.Http.Target

/-!
# Requests

What is kept of a request: its method, the path of its target, the credential in its first
authorization field, and the pieces of its body.

* `isMethod` — the methods that may stand in a request;
* `isFieldValue`, `visibleText` — the values that a field may have, and the text of one that can be
  compared;
* `Body` — the pieces of a body and the fault at its end, if there is one;
* `Request`, `Request.ofParts` — a request, and how it is made from its parts.
-/

namespace HeldReply.Http

/-- The characters of a **method**. -/
def isMethodChar (c : Char) : Bool :=
  isAlphanumeric c
    || c ∈ ['!', '#', '$', '%', '&', '\'', '*', '+', '-', '.', '^', '_', '\x60', '|', '~']

/-- Whether a text may be a **method**. -/
def isMethod (s : String) : Bool :=
  !s.isEmpty && s.toList.all isMethodChar

/-- Whether bytes may be the **value of a field**: no control characters but the tab. -/
def isFieldValue (bytes : List UInt8) : Bool :=
  bytes.all fun b => b == 9 || (32 ≤ b && b != 127)

/-- The **text** of a value of visible ASCII characters, blanks and tabs; other values have none. -/
def visibleText (bytes : List UInt8) : Option String :=
  if bytes.all fun b => b == 9 || (32 ≤ b && b < 127) then
    some (String.ofList (bytes.map fun b => Char.ofNat b.toNat))
  else none

/-- The **body** of a request as it arrives: pieces, and possibly a fault after the last one. -/
structure Body where
  pieces : List ByteArray
  fault : Option String := none

/-- All the bytes of a body, or the fault at its end. -/
def Body.read (b : Body) : Except String ByteArray :=
  match b.fault with
  | some fault => .error fault
  | none => .ok (b.pieces.foldl (· ++ ·) .empty)

/-- A **request**. -/
structure Request where
  method : String
  path : String
  /-- The first authorization field, if it can be compared. -/
  credential : Option String
  body : Body

/-- A request **from its parts**, the values of the authorization fields in their order; `none` if
one of the parts is malformed. -/
def Request.ofParts (method target : String) (authorization : List (List UInt8)) (body : Body) :
    Option Request := do
  let path ← targetPath target
  if isMethod method && authorization.all isFieldValue then
    some { method, path, credential := authorization.head?.bind visibleText, body }
  else none

end HeldReply.Http
