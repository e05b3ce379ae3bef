import HeldReply.Settings.Basic

/-!
# Settings from the environment

Four variables of the environment may set the secret, the heartbeat, the number of worker threads
and the endpoint.  They are read in this order, and the first fault ends the reading.

* `Environment` — the four variables;
* `Settings.ofEnvironment` — the settings they make.
-/

namespace HeldReply

/-- The variables of the **environment**; a variable that is not set, or holds no text, is
`none`. -/
structure Environment where
  token : Option String
  heartbeat : Option String
  workers : Option String
  endpoint : Option String
  deriving Repr

namespace Settings

/-- A whole number with blanks around it, under the given fault. -/
def readNumber (fault : Number.WholeFault → SettingsFault) (text : String) :
    Except SettingsFault Nat :=
  (Number.readWhole (Text.trim text)).mapError fault

/-- The **settings** that an environment makes; the variables are read in the order of the fields.
An empty secret counts as none. -/
def ofEnvironment (processors : Nat) (env : Environment) : Except SettingsFault Settings := do
  let b := base processors
  let token := match env.token with
    | some token => if token.isEmpty then none else some token
    | none => none
  let heartbeat ← match env.heartbeat with
    | some text => (readNumber .heartbeatText text).map Span.ofMillis
    | none => .ok b.heartbeat
  let workers ← match env.workers with
    | some text => readNumber .workersText text
    | none => .ok b.workers
  let endpoint ← match env.endpoint with
    | some text => readEndpoint text
    | none => .ok b.endpoint
  checked { b with token, heartbeat, workers, endpoint }

end Settings

end HeldReply
