import HeldReply.Endpoint
import HeldReply.Failure
import HeldReply.Span
import HeldReply.Number.Whole
import HeldReply.Text.Blank
import HeldReply.Text.Quoted

/-!
# Settings of the service

The settings are read once, before the service starts.

* `Settings`, `Settings.base` — the settings, and those that hold where nothing is said;
* `SettingsFault` — why settings are refused, with the wording;
* `Settings.check` — the four rules, in the order in which they are tried;
* `Settings.credential` — what a client must send to prove that it knows the secret;
* `Settings.ioTimeout` — how long one write may take;
* `Settings.shown` — the settings as one line for a diagnostic.
-/

namespace HeldReply

/-- The **settings** of the service. -/
structure Settings where
  /-- The shared secret; without one no request is authorized. -/
  token : Option String
  /-- The time between two heartbeats. -/
  heartbeat : Span
  /-- The word before the secret in a client's credential. -/
  scheme : String
  /-- The path under which the handlers are mounted. -/
  basePath : String
  /-- The number of worker threads that never leave. -/
  workers : Nat
  /-- Where the service listens. -/
  endpoint : Endpoint
  deriving DecidableEq, Repr

/-- Why settings are **refused**. -/
inductive SettingsFault where
  | heartbeatText (fault : Number.WholeFault)
  | workersText (fault : Number.WholeFault)
  | endpointText (text : String)
  | zeroHeartbeat
  | zeroWorkers
  | relativeBasePath (path : String)
  | blankScheme
  deriving DecidableEq, Repr

/-- The wording of a fault. -/
def SettingsFault.message : SettingsFault → String
  | .heartbeatText fault => "TOOLBOX_HEARTBEAT_MILLIS 不是合法的毫秒数: " ++ fault.message
  | .workersText fault => "TOOLBOX_WORKER_THREADS 不是合法的线程数: " ++ fault.message
  | .endpointText text => "无效的监听地址 '" ++ text ++ "': invalid socket address syntax"
  | .zeroHeartbeat => "心跳间隔必须大于 0"
  | .zeroWorkers => "工作线程数必须大于 0"
  | .relativeBasePath path => "服务路径必须以 '/' 开头: " ++ path
  | .blankScheme => "Authorization 前缀不能为空"

/-- A fault as a failure. -/
def SettingsFault.toFailure (fault : SettingsFault) : Failure :=
  .misconfigured fault.message

namespace Settings

/-- The settings that hold where nothing is said, on a machine with so many processors. -/
def base (processors : Nat) : Settings where
  token := none
  heartbeat := .ofMillis 5000
  scheme := "toolbox"
  basePath := "/api/toolbox"
  workers := max processors 1
  endpoint := .four 127 0 0 1 63342

/-- The **rules** for settings, in the order in which they are tried. -/
def check (s : Settings) : Except SettingsFault Unit :=
  if s.heartbeat.isZero then .error .zeroHeartbeat
  else if s.workers = 0 then .error .zeroWorkers
  else if s.basePath.toList.head? ≠ some '/' then .error (.relativeBasePath s.basePath)
  else if (Text.trim s.scheme).isEmpty then .error .blankScheme
  else .ok ()

/-- The settings, if they keep the rules. -/
def checked (s : Settings) : Except SettingsFault Settings := do
  s.check
  return s

/-- What a client must send to prove that it knows the secret. -/
def credential (s : Settings) : Option String :=
  s.token.map fun token => s.scheme ++ " " ++ token

/-- How long one write may take at the given time between heartbeats: one lost heartbeat does not
end the session. -/
def ioTimeoutFor (heartbeat : Span) : Span := heartbeat.twice

/-- How long one write may take. -/
def ioTimeout (s : Settings) : Span := ioTimeoutFor s.heartbeat

/-- An endpoint from its text, with blanks around it allowed. -/
def readEndpoint (text : String) : Except SettingsFault Endpoint :=
  match Endpoint.read (Text.trim text) with
  | some e => .ok e
  | none => .error (.endpointText text)

/-- An optional text for a diagnostic. -/
def shownOption : Option String → String
  | none => "None"
  | some s => "Some(" ++ Text.quoted s ++ ")"

/-- The settings as one line. -/
def shown (s : Settings) : String :=
  "TunnelConfig \x7b token: " ++ shownOption s.token
    ++ ", heartbeat: " ++ s.heartbeat.toText
    ++ ", auth_scheme: " ++ Text.quoted s.scheme
    ++ ", base_path: " ++ Text.quoted s.basePath
    ++ ", worker_threads: " ++ Number.decimal s.workers
    ++ ", bind_addr: " ++ s.endpoint.toText ++ " \x7d"

end Settings

end HeldReply
