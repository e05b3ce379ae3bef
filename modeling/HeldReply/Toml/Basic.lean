import HeldReply.Number.Shortest

/-!
# TOML tables

A TOML document is a table of named nodes.  How a table came about decides what may still be added
to it, so each table carries that as its standing.

* `Toml.Real`, `Toml.Node` — floating-point values, and all nodes of a document;
* `Toml.Standing` — how a table came about;
* `Toml.descend` — change the table at the end of a path, with the rules on who may extend whom;
* `Toml.putAt` — add one named value, which must be new.
-/

namespace HeldReply.Toml

open HeldReply.Number (Binary64 Layout)

/-- A **floating-point value** of a document. -/
inductive Real where
  | finite (x : Binary64)
  | infinite (negative : Bool)
  | notANumber
  deriving DecidableEq, Repr

/-- Floating-point values are written positionally, an exact tie of the digits going up. -/
def realLayout : Layout where
  tie := .upward
  positional := none

/-- The text of a floating-point value. -/
def Real.toText : Real → String
  | .finite x => String.ofList (realLayout.write x)
  | .infinite false => "inf"
  | .infinite true => "-inf"
  | .notANumber => "NaN"

/-- How a **table came about**. -/
inductive Standing where
  /-- A header of its own. -/
  | headed
  /-- A longer header went through its name. -/
  | implied
  /-- A dotted key went through its name. -/
  | dotted
  /-- Written between braces: nothing can be added from outside. -/
  | enclosed
  deriving DecidableEq, Repr

/-- Whether a table was only mentioned and never written out. -/
def Standing.isMentioned : Standing → Bool
  | .implied | .dotted => true
  | _ => false

/-- A **node** of a document. -/
inductive Node where
  | text (s : String)
  | integer (i : Int)
  | real (x : Real)
  | bool (b : Bool)
  /-- A date, a time or both. -/
  | moment
  | array (items : List Node)
  | table (standing : Standing) (entries : List (String × Node))
  /-- Tables that share a doubly bracketed header, last one last. -/
  | tables (elements : List (List (String × Node)))
  deriving Repr

/-- The entries of a table, in the order in which their names came. -/
abbrev Entries := List (String × Node)

/-- Replace the node of a name that is there. -/
def replace (name : String) (node : Node) : Entries → Entries
  | [] => []
  | (n, old) :: rest => if n = name then (n, node) :: rest else (n, old) :: replace name node rest

/-- Remove a name. -/
def remove (name : String) (es : Entries) : Entries :=
  es.filter fun e => e.1 ≠ name

/-- **Change the table** at the end of a path by `act`, which also gives a result; tables that are
missing on the way are mentioned by it.  A dotted path may not go through a table that was written
out, and no path goes through a value. -/
def descend {α : Type} (through : Standing)
    (act : Standing → Entries → Option (α × Entries)) :
    List String → Standing → Entries → Option (α × Entries)
  | [], standing, es => act standing es
  | name :: path, _, es =>
    match es.lookup name with
    | none => do
      let (x, inner) ← descend through act path through []
      return (x, es ++ [(name, .table through inner)])
    | some (.table s inner) =>
      if s = .enclosed ∨ (through = .dotted ∧ ¬ s.isMentioned) then none
      else do
        let (x, inner) ← descend through act path s inner
        return (x, replace name (.table s inner) es)
    | some (.tables elements) =>
      match elements.reverse with
      | [] => none
      | last :: before => do
        let (x, last) ← descend through act path .headed last
        return (x, replace name (.tables (before.reverse ++ [last])) es)
    | some _ => none

/-- Add a value under a new name to a table.  With a dotted key the table is one that dotted keys
made; with a plain key it is any other. -/
def putNew (plain : Bool) (name : String) (node : Node) (standing : Standing) (es : Entries) :
    Option (Unit × Entries) :=
  if decide (standing = .dotted) = plain then none
  else
    match es.lookup name with
    | none => some ((), es ++ [(name, node)])
    | some _ => none

/-- **Add a value** under a key, which is a path and a name. -/
def putAt (path : List String) (name : String) (node : Node) (standing : Standing) (es : Entries) :
    Option Entries :=
  (descend .dotted (putNew path.isEmpty name node) path standing es).map (·.2)

end HeldReply.Toml
