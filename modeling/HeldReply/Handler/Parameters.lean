import HeldReply.Json.Printer
import HeldReply.Text.Quoted

/-!
# Typed parameters

A handler may ask for a record of whole numbers.  A JSON object gives the fields by name, others
being passed over; a JSON array gives them in their order, neither more nor fewer.

* `Json.shownKind` — how a value is described when it is of the wrong kind;
* `ParameterFault` — why a value is no such record, with the wording;
* `Width`, `Width.read` — the two kinds of whole numbers;
* `Shape`, `Shape.read` — a record with its fields, and how one is read.
-/

namespace HeldReply

open Text (ticked)

/-- How a value is **described** when it is of the wrong kind. -/
def Json.shownKind : Json → String
  | .null => "null"
  | .bool b => "boolean " ++ ticked (if b then "true" else "false")
  | .number (.int i) => "integer " ++ ticked (Number.decimalInt i)
  | .number (.float x) => "floating point " ++ ticked (String.ofList (Json.floatLayout.write x))
  | .text s => "string " ++ Text.quoted s
  | .array _ => "sequence"
  | .object _ => "map"

/-- Why a value **cannot be used** as a parameter. -/
inductive ParameterFault where
  | wrongKind (v : Json) (expected : String)
  | outOfRange (i : Int) (expected : String)
  | missing (field : String)
  | tooFew (length : Nat) (shape : String) (wanted : Nat)
  | tooMany (length : Nat)
  deriving Repr

/-- The wording of a fault. -/
def ParameterFault.message : ParameterFault → String
  | .wrongKind v expected => "invalid type: " ++ v.shownKind ++ ", expected " ++ expected
  | .outOfRange i expected =>
    "invalid value: integer " ++ ticked (Number.decimalInt i) ++ ", expected " ++ expected
  | .missing field => "missing field " ++ ticked field
  | .tooFew length shape wanted =>
    "invalid length " ++ Number.decimal length ++ ", expected " ++ shape ++ " with "
      ++ Number.decimal wanted ++ (if wanted = 1 then " element" else " elements")
  | .tooMany length =>
    "invalid length " ++ Number.decimal length ++ ", expected fewer elements in array"

/-- The **kinds of whole numbers**: 64 bits with a sign or without. -/
inductive Width where
  | signed
  | unsigned
  deriving DecidableEq, Repr

namespace Width

/-- The name of a kind. -/
def name : Width → String
  | .signed => "i64"
  | .unsigned => "u64"

/-- Whether a number is of the kind. -/
def holds : Width → Int → Bool
  | .signed, i => -0x8000000000000000 ≤ i && i < 0x8000000000000000
  | .unsigned, i => 0 ≤ i && i < 0x10000000000000000

/-- The number of a value. -/
def read (w : Width) (v : Json) : Except ParameterFault Int :=
  match v with
  | .number (.int i) => if w.holds i then .ok i else .error (.outOfRange i w.name)
  | v => .error (.wrongKind v w.name)

end Width

/-- A **record** of whole numbers. -/
structure Shape where
  name : String
  fields : List (String × Width)
  deriving Repr

namespace Shape

/-- The name of a record in messages. -/
def title (s : Shape) : String := "struct " ++ s.name

/-- The fields among the members of an object, in the order of the members. -/
def readMembers (s : Shape) : List (String × Json) → Except ParameterFault (List (String × Int))
  | [] => .ok []
  | (key, v) :: rest =>
    match s.fields.lookup key with
    | none => s.readMembers rest
    | some w => do
      let i ← w.read v
      return (key, i) :: (← s.readMembers rest)

/-- Every field must have been found; the first one that was not is the fault. -/
def requireAll (s : Shape) (found : List (String × Int)) : Except ParameterFault Unit :=
  match s.fields.find? fun f => (found.lookup f.1).isNone with
  | some f => .error (.missing f.1)
  | none => .ok ()

/-- The fields by position, of which `position` were read before; items that are left over are not
looked at. -/
def readItems (s : Shape) (position : Nat) :
    List (String × Width) → List Json → Except ParameterFault (List (String × Int))
  | [], _ => .ok []
  | _ :: _, [] => .error (.tooFew position s.title s.fields.length)
  | (key, w) :: fields, v :: vs => do
    let i ← w.read v
    return (key, i) :: (← s.readItems (position + 1) fields vs)

/-- The **fields** of a value. -/
def readFields (s : Shape) (v : Json) : Except ParameterFault (List (String × Int)) :=
  match v with
  | .object members => do
    let found ← s.readMembers members
    s.requireAll found
    return found
  | .array items => do
    let found ← s.readItems 0 s.fields items
    if s.fields.length < items.length then .error (.tooMany items.length) else return found
  | v => .error (.wrongKind v s.title)

/-- A value as a **record**: an object with the fields and nothing else. -/
def read (s : Shape) (v : Json) : Except ParameterFault Json := do
  let found ← s.readFields v
  return .ofMembers (found.map fun f => (f.1, Json.ofInt f.2))

end Shape

end HeldReply
