/-!
# Request targets

The first line of a request names its target: a path with an optional query and fragment, an
absolute address with a scheme and an authority, an authority alone, or an asterisk.  Only the path
decides which handler answers.

* `isPathChar`, `isQueryChar`, `isSchemeChar`, `isAuthorityChar` — the characters of each part;
* `pathPart` — the path at the head of a text, if the text is a path with query and fragment;
* `AuthorityScan` — the rules for an authority, one character at a time;
* `Target.path` — the path of a target, `none` if the target is malformed.
-/

namespace HeldReply.Http

/-- How many bytes a target may have. -/
def maxTargetBytes : Nat := 65534

/-- How many characters a scheme may have. -/
def maxSchemeLength : Nat := 64

/-- How many colons may stand in a row of parts of an authority. -/
def maxColons : Nat := 8

/-- The characters between two character codes. -/
def within (lo hi : Nat) (c : Char) : Bool :=
  lo ≤ c.toNat && c.toNat ≤ hi

/-- The characters of a **path**; those beyond ASCII are let through. -/
def isPathChar (c : Char) : Bool :=
  c == '!' || within 0x24 0x3b c || c == '=' || within 0x40 0x5f c || within 0x61 0x7a c
    || c == '|' || c == '~' || 0x80 ≤ c.toNat || c == '"' || c == '\x7b' || c == '\x7d'

/-- The characters of a **query**; those beyond ASCII are let through. -/
def isQueryChar (c : Char) : Bool :=
  c == '!' || within 0x24 0x3b c || c == '=' || within 0x3f 0x7e c || 0x80 ≤ c.toNat

/-- The letters and digits of ASCII. -/
def isAlphanumeric (c : Char) : Bool :=
  within 0x30 0x39 c || within 0x41 0x5a c || within 0x61 0x7a c

/-- The characters of a **scheme**. -/
def isSchemeChar (c : Char) : Bool :=
  isAlphanumeric c || c ∈ ['+', '-', '.', '~']

/-- The characters of an **authority** that have no meaning of their own there. -/
def isAuthorityChar (c : Char) : Bool :=
  isAlphanumeric c
    || c ∈ ['!', '$', '&', '\'', '(', ')', '*', '+', ',', '-', '.', ';', '=', '_', '~']

/-- The **path** at the head of a text that consists of a path, an optional query after a question
mark and an optional fragment after a number sign; nothing is asked of the fragment. -/
def pathPart (cs : List Char) : Option (List Char) :=
  let path := cs.takeWhile fun c => c != '?' && c != '#'
  let query :=
    match cs.dropWhile fun c => c != '?' && c != '#' with
    | '?' :: rest => rest.takeWhile (· != '#')
    | _ => []
  if path.all isPathChar && query.all isQueryChar then some path else none

/-- **How far** the reading of an authority has come. -/
structure AuthorityScan where
  /-- The colons since the last bracket or at sign. -/
  colons : Nat := 0
  /-- A bracket was opened. -/
  opened : Bool := false
  /-- The bracket was closed. -/
  closed : Bool := false
  /-- A percent sign stands where only a user name or a bracket may hold one. -/
  percent : Bool := false
  /-- The last character is an at sign. -/
  atSign : Bool := false

namespace AuthorityScan

/-- The effect of one character; `none` if it may not come. -/
def step (a : AuthorityScan) (c : Char) : Option AuthorityScan :=
  let a := { a with atSign := false }
  if c = ':' then if a.colons < maxColons then some { a with colons := a.colons + 1 } else none
  else if c = '[' then if a.percent || a.opened then none else some { a with opened := true }
  else if c = ']' then
    if !a.opened || a.closed then none
    else some { a with closed := true, colons := 0, percent := false }
  else if c = '@' then some { a with atSign := true, colons := 0, percent := false }
  else if c = '%' then some { a with percent := true }
  else if isAuthorityChar c then some a
  else none

/-- Whether the authority may end here. -/
def complete (a : AuthorityScan) : Bool :=
  a.opened == a.closed && a.colons ≤ 1 && !a.atSign && !a.percent

end AuthorityScan

/-- Whether a character ends an authority. -/
def endsAuthority (c : Char) : Bool :=
  c == '/' || c == '?' || c == '#'

/-- What follows the **authority** at the head of a text, and whether the authority is empty. -/
def afterAuthority (cs : List Char) : Option (Bool × List Char) := do
  let authority := cs.takeWhile fun c => !endsAuthority c
  let scan ← authority.foldlM AuthorityScan.step {}
  if scan.complete then some (authority.isEmpty, cs.dropWhile fun c => !endsAuthority c) else none

/-- What follows the **scheme** and its two slashes at the head of a text; `none` if there is no
scheme. -/
def afterScheme (cs : List Char) : Option (List Char) :=
  match cs.dropWhile isSchemeChar with
  | ':' :: '/' :: '/' :: rest => some rest
  | _ => none

/-- The **path** of a target that starts with neither a slash nor an asterisk.  An authority alone
has the empty path, an absolute address at least a slash. -/
def absolutePath (cs : List Char) : Option (List Char) := do
  match afterScheme cs with
  | none =>
    let (isEmpty, rest) ← afterAuthority cs
    if isEmpty || !rest.isEmpty then none else some []
  | some rest =>
    if maxSchemeLength < (cs.takeWhile isSchemeChar).length then none
    else
      let (isEmpty, rest) ← afterAuthority rest
      if isEmpty then none
      else
        let path ← pathPart rest
        some (if path.isEmpty then ['/'] else path)

/-- The **path** of a target; `none` if the target is malformed. -/
def targetPath (target : String) : Option String :=
  if maxTargetBytes < target.utf8ByteSize then none
  else
    match target.toList with
    | [] => none
    | ['*'] => some "*"
    | '/' :: cs => (pathPart ('/' :: cs)).map String.ofList
    | cs => (absolutePath cs).map String.ofList

end HeldReply.Http
