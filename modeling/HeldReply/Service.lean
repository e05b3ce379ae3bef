import HeldReply.Exchange

/-!
# The service

The service receives requests by its settings and its handlers.  Every accepted request leads to an
exchange, and every exchange whose body is pulled to one session, whose handler is given to the
workers once.

* `Service`, `Service.create` — the service, and how it begins;
* `Service.handle` — a request is received;
* `Service.start` — the task that starts the session of an exchange runs;
* `Service.settle`, `Service.sleep` — what happens by itself, now and up to a time;
* `Service.onExchange`, `Service.onSession` — something is done to one exchange, or to its session.
-/

namespace HeldReply

/-- The **service**. -/
structure Service where
  settings : Settings
  routes : Routes Handler
  /-- The time in milliseconds. -/
  now : Nat := 0
  /-- The number of sessions started. -/
  started : Nat := 0
  /-- The exchanges, in the order in which their requests were accepted. -/
  exchanges : List Exchange := []
  /-- The exchanges whose handlers were given to the workers, by number. -/
  jobs : List Nat := []

namespace Service

/-- The service **begins**, unless its settings break a rule. -/
def create (settings : Settings) (routes : Routes Handler) : Except Failure Service := do
  settings.check.mapError SettingsFault.toFailure
  return { settings, routes }

/-- **Receive** a request. -/
def handle (s : Service) (r : Http.Request) : Service × Decision :=
  let d := receive s.settings s.routes r
  match d.result with
  | .ok a => ({ s with exchanges := s.exchanges ++ [.ofAccepted a s.now] }, d)
  | .error _ => (s, d)

/-- **The task that starts the session** of an exchange runs. -/
def start (s : Service) (i : Nat) : Service :=
  match s.exchanges[i]? with
  | none => s
  | some e =>
    let (e, starts) := e.start (s.started + 1)
    let s := { s with exchanges := s.exchanges.set i e }
    if starts then { s with started := s.started + 1, jobs := s.jobs ++ [i] } else s

/-- Whether the task that starts the session of an exchange can go on. -/
def canStart (s : Service) (i : Nat) : Bool :=
  s.exchanges[i]?.any Exchange.canStart

/-- What happens by itself to one exchange. -/
def settleAt (s : Service) (i : Nat) : Service :=
  let s := s.start i
  { s with exchanges := s.exchanges.modify i Timed.settle }

/-- **What happens by itself** at this time. -/
def settle (s : Service) : Service :=
  (List.range s.exchanges.length).foldl settleAt s

/-- **The clock moves** by so many milliseconds.  The exchanges have nothing to do with each
other. -/
def sleep (s : Service) (ms : Nat) : Service :=
  let goal := (Span.ofMillis ms).restUntil s.now
  { s with
    now := goal
    exchanges := s.exchanges.map fun e => Timed.advance e s.now goal }

/-- Do something to an exchange, if there is one of this number. -/
def onExchange {α : Type} (s : Service) (i : Nat) (act : Exchange → Exchange × α) :
    Service × Option α :=
  match s.exchanges[i]? with
  | none => (s, none)
  | some e =>
    let (e, a) := act e
    ({ s with exchanges := s.exchanges.set i e }, some a)

/-- Do something to the session of an exchange, if it started. -/
def onSession {α : Type} (s : Service) (i : Nat) (act : Session Channel → Session Channel × α) :
    Service × Option α :=
  let (s, a) := s.onExchange i fun e => e.onSession act
  (s, a.join)

end Service

end HeldReply
