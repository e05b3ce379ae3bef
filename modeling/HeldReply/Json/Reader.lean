import HeldReply.Json.Token

/-!
# Reading JSON texts

Tokens are read from left to right.  The reader keeps the arrays and objects that are still open,
innermost first, and what may come next.

* `Pending`, `Progress` — an open array or object, and how far the reading has come;
* `Progress.step` — the effect of one token, `none` if it may not come;
* `Json.read`, `Json.readBytes` — a whole text, and one that arrives as bytes of UTF-8.

At most `maxDepth` arrays and objects may be open at once.
-/

namespace HeldReply.Json

/-- How many arrays and objects may be open at once. -/
def maxDepth : Nat := 127

/-- An **open** array with the items read so far, last first, or an open object with its members so
far and the key of the next one. -/
inductive Pending where
  | array (items : List Json)
  | object (members : List (String × Json)) (key : String)
  deriving Repr

/-- **How far** the reading of a text has come; `around` are the open arrays and objects. -/
inductive Progress where
  /-- A value must come. -/
  | value (around : List Pending)
  /-- An array was opened: a value or its end must come. -/
  | arrayStart (around : List Pending)
  /-- An item of an array was read: a comma or its end must come. -/
  | afterItem (items : List Json) (around : List Pending)
  /-- An object was opened: a key or its end must come. -/
  | objectStart (around : List Pending)
  /-- A comma in an object was read: a key must come. -/
  | nextKey (members : List (String × Json)) (around : List Pending)
  /-- A key was read: a colon must come. -/
  | colon (members : List (String × Json)) (key : String) (around : List Pending)
  /-- A member of an object was read: a comma or its end must come. -/
  | afterMember (members : List (String × Json)) (around : List Pending)
  /-- The whole value was read: nothing may come. -/
  | finished (v : Json)
  deriving Repr

namespace Progress

/-- The progress after a value that stands where `around` says. -/
def put (v : Json) : List Pending → Progress
  | [] => .finished v
  | .array items :: around => .afterItem (v :: items) around
  | .object members key :: around => .afterMember (insertMember key v members) around

/-- The effect of a token where a value must come. -/
def startValue (around : List Pending) : Token → Option Progress
  | .null => some (put .null around)
  | .bool b => some (put (.bool b) around)
  | .number n => some (put (.number n) around)
  | .text s => some (put (.text s) around)
  | .openArray => if around.length < maxDepth then some (.arrayStart around) else none
  | .openObject => if around.length < maxDepth then some (.objectStart around) else none
  | _ => none

/-- The **effect of a token**; `none` if it may not come. -/
def step : Progress → Token → Option Progress
  | .value around, t => startValue around t
  | .arrayStart around, .closeArray => some (put (.array []) around)
  | .arrayStart around, t => startValue (.array [] :: around) t
  | .afterItem items around, .comma => some (.value (.array items :: around))
  | .afterItem items around, .closeArray => some (put (.array items.reverse) around)
  | .objectStart around, .closeObject => some (put (.object []) around)
  | .objectStart around, .text k => some (.colon [] k around)
  | .nextKey members around, .text k => some (.colon members k around)
  | .colon members key around, .colon => some (.value (.object members key :: around))
  | .afterMember members around, .comma => some (.nextKey members around)
  | .afterMember members around, .closeObject => some (put (.object members) around)
  | _, _ => none

/-- The effect of several tokens. -/
def steps (p : Progress) (ts : List Token) : Option Progress :=
  ts.foldlM step p

end Progress

/-- Read a **whole text** as one value, with blanks around it allowed. -/
def read (cs : List Char) : Option Json := do
  match ← (Progress.value []).steps (← scan cs) with
  | .finished v => some v
  | _ => none

/-- Read bytes of UTF-8 as one value. -/
def readBytes (bytes : ByteArray) : Option Json := do
  read (← String.fromUTF8? bytes).toList

end HeldReply.Json
