import HeldReply.Settings.Basic
import HeldReply.Toml.Reader

/-!
# Settings from a document

A TOML document may set all six settings by name.  The document is read whole; then its names and
the kinds of their values are checked in the order in which they stand in it; then the settings are
made and the rules tried.

* `Field` — the six names;
* `Toml.Node.shownKind` — how a value is described when it is of the wrong kind;
* `Fields`, `Fields.ofEntries` — the values of a document by name, or the first complaint;
* `Settings.ofFields`, `Settings.ofDocument` — the settings they make.
-/

namespace HeldReply

open Text (ticked)

/-- The **names** that a document may use. -/
inductive Field where
  | token
  | heartbeatMillis
  | authScheme
  | basePath
  | workerThreads
  | bindAddr
  deriving DecidableEq, Repr

namespace Field

/-- The spelling of a name. -/
def spelling : Field → String
  | .token => "token"
  | .heartbeatMillis => "heartbeat_millis"
  | .authScheme => "auth_scheme"
  | .basePath => "base_path"
  | .workerThreads => "worker_threads"
  | .bindAddr => "bind_addr"

/-- All names, in the order in which they are listed to the user. -/
def all : List Field :=
  [.token, .heartbeatMillis, .authScheme, .basePath, .workerThreads, .bindAddr]

/-- The name of a spelling. -/
def ofSpelling (s : String) : Option Field :=
  all.find? fun f => f.spelling == s

end Field

/-- How a **value is described** when it is of the wrong kind. -/
def Toml.Node.shownKind : Toml.Node → String
  | .text s => "string " ++ Text.quoted s
  | .integer i => "integer " ++ ticked (Number.decimalInt i)
  | .real x => "floating point " ++ ticked x.toText
  | .bool b => "boolean " ++ ticked (if b then "true" else "false")
  | .moment => "map"
  | .array _ => "sequence"
  | .table _ _ => "map"
  | .tables _ => "sequence"

/-- Why the entries of a document are **refused**. -/
inductive DocumentFault where
  | unknownField (name : String)
  | wrongKind (node : Toml.Node) (expected : String)
  | negative (i : Int) (expected : String)
  deriving Repr

/-- The wording of a fault. -/
def DocumentFault.message : DocumentFault → String
  | .unknownField name =>
    "unknown field " ++ ticked name ++ ", expected one of "
      ++ String.intercalate ", " (Field.all.map fun f => ticked f.spelling)
  | .wrongKind node expected => "invalid type: " ++ node.shownKind ++ ", expected " ++ expected
  | .negative i expected =>
    "invalid value: integer " ++ ticked (Number.decimalInt i) ++ ", expected " ++ expected

/-- The values of a document by **name**. -/
structure Fields where
  token : Option String := none
  heartbeatMillis : Option Nat := none
  authScheme : Option String := none
  basePath : Option String := none
  workerThreads : Option Nat := none
  bindAddr : Option String := none
  deriving DecidableEq, Repr

namespace Fields

/-- The text of a value. -/
def textOf : Toml.Node → Except DocumentFault String
  | .text s => .ok s
  | node => .error (.wrongKind node "a string")

/-- The natural number of a value. -/
def naturalOf (expected : String) : Toml.Node → Except DocumentFault Nat
  | .integer (.ofNat n) => .ok n
  | .integer i => .error (.negative i expected)
  | node => .error (.wrongKind node expected)

/-- Take over one entry. -/
def put (fs : Fields) (name : String) (node : Toml.Node) : Except DocumentFault Fields :=
  match Field.ofSpelling name with
  | none => .error (.unknownField name)
  | some .token => do return { fs with token := some (← textOf node) }
  | some .heartbeatMillis => do return { fs with heartbeatMillis := some (← naturalOf "u64" node) }
  | some .authScheme => do return { fs with authScheme := some (← textOf node) }
  | some .basePath => do return { fs with basePath := some (← textOf node) }
  | some .workerThreads => do return { fs with workerThreads := some (← naturalOf "usize" node) }
  | some .bindAddr => do return { fs with bindAddr := some (← textOf node) }

/-- The values of all entries, or the first complaint. -/
def ofEntries (es : Toml.Entries) : Except DocumentFault Fields :=
  es.foldlM (fun fs e => fs.put e.1 e.2) {}

end Fields

namespace Settings

/-- The **settings** that the values of a document make.  An empty secret counts as none. -/
def ofFields (processors : Nat) (fs : Fields) : Except SettingsFault Settings := do
  let b := base processors
  let endpoint ← match fs.bindAddr with
    | none => pure b.endpoint
    | some text => readEndpoint text
  checked
    { token := fs.token.filter fun token => !token.isEmpty
      heartbeat := (fs.heartbeatMillis.map Span.ofMillis).getD b.heartbeat
      scheme := fs.authScheme.getD b.scheme
      basePath := fs.basePath.getD b.basePath
      workers := fs.workerThreads.getD b.workers
      endpoint := endpoint }

/-- The settings of a **document**. -/
def ofDocument (processors : Nat) (content : String) : Except Failure Settings := do
  let es ← match Toml.read content with
    | none => .error (.badToml none)
    | some es => .ok es
  let fs ← (Fields.ofEntries es).mapError fun fault => .badToml (some fault.message)
  (ofFields processors fs).mapError SettingsFault.toFailure

end Settings

end HeldReply
