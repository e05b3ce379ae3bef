import HeldReply.Number.Binary64

/-!
# JSON values

Requests and answers are JSON values.  An object is kept as the list of its members in ascending
order of their keys, each key once; an integer is kept exactly if 64 bits hold it, with or without a
sign, and any other number as a floating-point number.

* `Json.Number`, `Json` — numbers and values;
* `Json.insertMember` — put a member into its place, over an earlier one with the same key;
* `Json.ofMembers` — an object from members in any order, the last of a key counting;
* `Json.get?` — a member of an object;
* `Json.depth` — how deep arrays and objects nest.
-/

namespace HeldReply

/-- A JSON **number**. -/
inductive Json.Number where
  | int (i : Int)
  | float (x : HeldReply.Number.Binary64)
  deriving DecidableEq, Repr, Inhabited

/-- A JSON **value**. -/
inductive Json where
  | null
  | bool (b : Bool)
  | number (n : Json.Number)
  | text (s : String)
  | array (items : List Json)
  | object (members : List (String × Json))
  deriving Repr, Inhabited

namespace Json

/-- The integer of a value; there is none if it is no integer. -/
def int? : Json → Option Int
  | .number (.int i) => some i
  | _ => none

/-- An integer as a value. -/
def ofInt (i : Int) : Json := .number (.int i)

/-- A natural number as a value. -/
def ofNat (n : Nat) : Json := .number (.int n)

/-- **Put a member** into its place by key, over an earlier one with the same key. -/
def insertMember (key : String) (value : Json) : List (String × Json) → List (String × Json)
  | [] => [(key, value)]
  | (k, v) :: rest =>
    if key < k then (key, value) :: (k, v) :: rest
    else if key = k then (key, value) :: rest
    else (k, v) :: insertMember key value rest

/-- An object from members in any order; of members with the same key the last counts. -/
def ofMembers (members : List (String × Json)) : Json :=
  .object (members.foldl (fun ms m => insertMember m.1 m.2 ms) [])

/-- A member of an object; other values have none. -/
def get? (v : Json) (key : String) : Option Json :=
  match v with
  | .object members => members.lookup key
  | _ => none

mutual

/-- How deep arrays and objects nest; a value that is neither has depth zero. -/
def depth : Json → Nat
  | .array items => depthItems items + 1
  | .object members => depthMembers members + 1
  | _ => 0

/-- The greatest depth of a list of values. -/
def depthItems : List Json → Nat
  | [] => 0
  | v :: vs => max (depth v) (depthItems vs)

/-- The greatest depth of the values of a list of members. -/
def depthMembers : List (String × Json) → Nat
  | [] => 0
  | (_, v) :: ms => max (depth v) (depthMembers ms)

end

mutual

/-- Whether two values are the same. -/
def same : Json → Json → Bool
  | .null, .null => true
  | .bool a, .bool b => a == b
  | .number a, .number b => decide (a = b)
  | .text a, .text b => a == b
  | .array a, .array b => sameItems a b
  | .object a, .object b => sameMembers a b
  | _, _ => false

/-- Whether two lists of values are the same. -/
def sameItems : List Json → List Json → Bool
  | [], [] => true
  | a :: as, b :: bs => same a b && sameItems as bs
  | _, _ => false

/-- Whether two lists of members are the same. -/
def sameMembers : List (String × Json) → List (String × Json) → Bool
  | [], [] => true
  | (k, a) :: as, (l, b) :: bs => k == l && same a b && sameMembers as bs
  | _, _ => false

end

instance : BEq Json := ⟨same⟩

end Json

end HeldReply
