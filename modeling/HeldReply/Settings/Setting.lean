import HeldReply.Settings.Basic

/-!
# Settings from code

A program that holds the service sets what it wants to be otherwise, one setting after the other.
What it sets is taken as it is, and the rules are tried only when the service begins.

* `Setting` — one setting with its value;
* `Settings.set`, `Settings.build` — one setting is made, and several are.
-/

namespace HeldReply

/-- One **setting** with its value. -/
inductive Setting where
  | token (text : String)
  | heartbeat (span : Span)
  | scheme (text : String)
  | basePath (path : String)
  | workers (count : Nat)
  | endpoint (e : Endpoint)
  deriving DecidableEq, Repr

namespace Settings

/-- **Set** one thing. -/
def set (s : Settings) : Setting → Settings
  | .token text => { s with token := some text }
  | .heartbeat span => { s with heartbeat := span }
  | .scheme text => { s with scheme := text }
  | .basePath path => { s with basePath := path }
  | .workers count => { s with workers := count }
  | .endpoint e => { s with endpoint := e }

/-- Set one thing after the other. -/
def build (s : Settings) (settings : List Setting) : Settings :=
  settings.foldl set s

end Settings

end HeldReply
