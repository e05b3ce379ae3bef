import HeldReply.Toml.Scalar

/-!
# Reading TOML documents

A document is read whole, line by line: blank lines and comments, headers in single and double
brackets, and keys with their values.

* `scanKey` — a key: names with dots between them;
* `scanValue` — a value; arrays and braced tables nest less than `maxDepth` deep;
* `Draft` — the tables written so far and the one that is being filled;
* `Toml.read` — the entries of a whole document in order, `none` if it is no TOML.
-/

namespace HeldReply.Toml

open HeldReply.Number (isDigit)

/-- Arrays and braced tables nest less deep than this, and a key has fewer names. -/
def maxDepth : Nat := 80

/-! ### Keys -/

/-- Characters of a name without quotes. -/
def isBare (c : Char) : Bool :=
  ('a' ≤ c && c ≤ 'z') || ('A' ≤ c && c ≤ 'Z') || isDigit c || c = '-' || c = '_'

/-- One name of a key. -/
def scanName (cs : List Char) : Option (String × List Char) :=
  match cs with
  | '"' :: rest => do
    let (s, rest) ← basicString (rest.length + 1) rest
    return (String.ofList s, rest)
  | '\'' :: rest => do
    let (s, rest) ← literalString rest
    return (String.ofList s, rest)
  | cs =>
    match cs.takeWhile isBare with
    | [] => none
    | name => some (String.ofList name, cs.dropWhile isBare)

/-- The names of a key with the gaps around them.  The fuel bounds their number. -/
def scanNames : Nat → List Char → Option (List String × List Char)
  | 0, _ => none
  | fuel + 1, cs => do
    let (name, rest) ← scanName (skipGap cs)
    match skipGap rest with
    | '.' :: rest =>
      let (names, rest) ← scanNames fuel rest
      return (name :: names, rest)
    | rest => return ([name], rest)

/-- A **key** as the path to its table and its last name. -/
def scanKey (cs : List Char) : Option ((List String × String) × List Char) := do
  let (names, rest) ← scanNames (maxDepth - 1) cs
  match names.reverse with
  | [] => none
  | name :: path => return ((path.reverse, name), rest)

/-! ### Values -/

/-- What follows a comment at the head of a text, up to the end of its line. -/
def skipComment : List Char → List Char
  | '#' :: cs => cs.dropWhile isShown
  | cs => cs

/-- What follows blanks, line ends and comments; a comment must end its line.  The fuel bounds the
number of lines. -/
def skipAll : Nat → List Char → List Char
  | 0, cs => cs
  | fuel + 1, cs =>
    match skipLines cs with
    | '#' :: rest =>
      match afterLineEnd (rest.dropWhile isShown) with
      | some rest => skipAll fuel rest
      | none => '#' :: rest
    | cs => cs

mutual

/-- A **value** inside `depth` arrays and braced tables.  The fuel bounds the number of values. -/
def scanValue : Nat → Nat → List Char → Option (Node × List Char)
  | 0, _, _ => none
  | fuel + 1, depth, cs =>
    match cs with
    | [] => none
    | c :: rest =>
      if c = '"' ∨ c = '\'' then do
        let (s, rest) ← scanString cs
        return (.text s, rest)
      else if c = '[' then
        if depth + 1 < maxDepth then do
          let (items, rest) ← scanItems fuel (depth + 1) rest
          return (.array items, rest)
        else none
      else if c = '\x7b' then
        if depth + 1 < maxDepth then do
          let (es, rest) ← scanBraced fuel (depth + 1) (skipGap rest)
          return (.table .enclosed es, rest)
        else none
      else if c = 't' then
        match cs with
        | 't' :: 'r' :: 'u' :: 'e' :: rest => some (.bool true, rest)
        | _ => none
      else if c = 'f' then
        match cs with
        | 'f' :: 'a' :: 'l' :: 's' :: 'e' :: rest => some (.bool false, rest)
        | _ => none
      else if looksMoment cs then do
        let rest ← scanMoment cs
        return (.moment, rest)
      else
        match scanNamedReal cs with
        | some (x, rest) => some (.real x, rest)
        | none =>
          if looksReal cs then do
            let (x, rest) ← scanPlainReal cs
            return (.real x, rest)
          else do
            let (i, rest) ← scanInteger cs
            return (.integer i, rest)

/-- The items of an array after its bracket or a comma, and what follows its closing bracket. -/
def scanItems : Nat → Nat → List Char → Option (List Node × List Char)
  | 0, _, _ => none
  | fuel + 1, depth, cs =>
    match skipAll cs.length cs with
    | ']' :: rest => some ([], rest)
    | cs => do
      let (v, rest) ← scanValue fuel depth cs
      match skipAll rest.length rest with
      | ',' :: rest =>
        let (vs, rest) ← scanItems fuel depth rest
        return (v :: vs, rest)
      | ']' :: rest => return ([v], rest)
      | _ => none

/-- The entries of a braced table after its brace, and what follows its closing brace. -/
def scanBraced : Nat → Nat → List Char → Option (Entries × List Char)
  | 0, _, _ => none
  | fuel + 1, depth, cs =>
    match cs with
    | '\x7d' :: rest => some ([], rest)
    | cs => do
      let (pairs, rest) ← scanPairs fuel depth cs
      let es ← pairs.foldlM (fun es p => putAt p.1.1 p.1.2 p.2 .enclosed es) []
      return (es, rest)

/-- Keys and values of a braced table, with commas between them, and what follows its closing
brace. -/
def scanPairs : Nat → Nat → List Char →
    Option (List ((List String × String) × Node) × List Char)
  | 0, _, _ => none
  | fuel + 1, depth, cs => do
    let (key, rest) ← scanKey cs
    let rest ← afterChar '=' rest
    let (v, rest) ← scanValue fuel depth (skipGap rest)
    match skipGap rest with
    | ',' :: rest =>
      let (pairs, rest) ← scanPairs fuel depth rest
      return ((key, v) :: pairs, rest)
    | '\x7d' :: rest => return ([(key, v)], rest)
    | _ => none

end

/-! ### Documents -/

/-- **Where a table belongs**: it is the outermost one, or its header is a path and a name, in
single or in double brackets. -/
inductive Place where
  | outermost
  | single (path : List String) (name : String)
  | double (path : List String) (name : String)
  deriving Repr

/-- The **draft** of a document: the tables that are complete, and the one that is being filled. -/
structure Draft where
  complete : Entries
  place : Place
  current : Entries
  deriving Repr

namespace Draft

/-- At the start the outermost table is being filled. -/
def start : Draft := ⟨[], .outermost, []⟩

/-- Add a finished table to the one where it belongs. -/
def addTable (name : String) (table : Entries) (es : Entries) : Option (Unit × Entries) :=
  match es.lookup name with
  | none => some ((), es ++ [(name, .table .headed table)])
  | some _ => none

/-- Add a finished table after those that share its header. -/
def addElement (name : String) (table : Entries) (es : Entries) : Option (Unit × Entries) :=
  match es.lookup name with
  | some (.tables elements) => some ((), replace name (.tables (elements ++ [table])) es)
  | _ => none

/-- The complete tables once the current one is **finished**. -/
def finish (d : Draft) : Option Entries :=
  match d.place with
  | .outermost => some d.current
  | .single path name =>
    (descend .implied (fun _ es => addTable name d.current es) path .headed d.complete).map (·.2)
  | .double path name =>
    (descend .implied (fun _ es => addElement name d.current es) path .headed d.complete).map (·.2)

/-- Take out the table that a header opens: a new one, or one that was only mentioned by longer
headers. -/
def takeTable (name : String) (es : Entries) : Option (Entries × Entries) :=
  match es.lookup name with
  | none => some ([], es)
  | some (.table .implied inner) => some (inner, remove name es)
  | some _ => none

/-- Make room for the tables that share a doubly bracketed header. -/
def makeRoom (name : String) (es : Entries) : Option (Entries × Entries) :=
  match es.lookup name with
  | none => some ([], es ++ [(name, .tables [])])
  | some (.tables _) => some ([], es)
  | some _ => none

/-- The draft after a **header**. -/
def openTable (d : Draft) (place : Place) : Option Draft := do
  let complete ← d.finish
  match place with
  | .outermost => none
  | .single path name =>
    let (current, complete) ←
      descend .implied (fun _ es => takeTable name es) path .headed complete
    return ⟨complete, place, current⟩
  | .double path name =>
    let (current, complete) ←
      descend .implied (fun _ es => makeRoom name es) path .headed complete
    return ⟨complete, place, current⟩

/-- The draft after a **key and value**. -/
def put (d : Draft) (path : List String) (name : String) (node : Node) : Option Draft := do
  return { d with current := ← putAt path name node .headed d.current }

end Draft

/-- What follows the rest of a line: gaps, a comment, and the line end or the end of the text. -/
def afterLine (cs : List Char) : Option (List Char) :=
  match skipComment (skipGap cs) with
  | [] => some []
  | cs => afterLineEnd cs

/-- The place that a header names, and what follows the header. -/
def scanHeader (cs : List Char) : Option (Place × List Char) :=
  match cs with
  | '[' :: '[' :: cs => do
    let ((path, name), rest) ← scanKey cs
    return (.double path name, ← afterChar ']' (← afterChar ']' rest))
  | '[' :: cs => do
    let ((path, name), rest) ← scanKey cs
    return (.single path name, ← afterChar ']' rest)
  | _ => none

/-- A key with its value, and what follows them. -/
def scanPair (cs : List Char) : Option (((List String × String) × Node) × List Char) := do
  let (key, rest) ← scanKey cs
  let cs := skipGap (← afterChar '=' rest)
  let (node, rest) ← scanValue (2 * cs.length + 2) 0 cs
  return ((key, node), rest)

/-- Read lines into a draft.  The fuel bounds the number of lines. -/
def readLines : Nat → Draft → List Char → Option Draft
  | 0, _, _ => none
  | fuel + 1, d, cs =>
    match skipGap cs with
    | [] => some d
    | '#' :: rest => do readLines fuel d (← afterLine ('#' :: rest))
    | '[' :: rest => do
      let (place, rest) ← scanHeader ('[' :: rest)
      let rest ← afterLine rest
      readLines fuel (← d.openTable place) rest
    | c :: rest =>
      match afterLineEnd (c :: rest) with
      | some rest => readLines fuel d rest
      | none => do
        let (((path, name), node), rest) ← scanPair (c :: rest)
        let rest ← afterLine rest
        readLines fuel (← d.put path name node) rest

/-- The **entries** of a document, in the order in which their names came; `none` if the text is no
TOML.  A mark of the byte order at its start is ignored. -/
def read (s : String) : Option Entries :=
  let cs := match s.toList with
    | '\ufeff' :: cs => cs
    | cs => cs
  (readLines (cs.length + 1) .start cs).bind Draft.finish

end HeldReply.Toml
