import HeldReply.Link.Channel
import HeldReply.Reception
import HeldReply.Session.Run

/-!
# Exchanges

An exchange is what follows once a request is accepted.  The head of the reply goes out first, and
only when the body is pulled for the first time the session starts.  If the body goes away before
that, the session never starts.

* `Exchange.Stage`, `Exchange` — how far an exchange has come, and what the client's side does;
* `Exchange.ofAccepted` — an exchange begins;
* `Exchange.pull`, `Exchange.leave` — the body is pulled, and goes away;
* `Exchange.start` — the task that starts the session runs;
* `Exchange.beginReading`, `Exchange.resume`, `Exchange.read` — the client reads;
* the instance of `Timed`.
-/

namespace HeldReply

/-- **How far** an exchange has come. -/
inductive Exchange.Stage where
  /-- The task that starts the session waits for the first pull. -/
  | waiting (line : Line Channel)
  /-- The session started, and its handler ended in some way. -/
  | running (s : Session Channel) (ending : Ending)
  /-- The body went away before it was pulled. -/
  | abandoned (line : Line Channel)

/-- What the **client's side** does with the body. -/
inductive Exchange.Reader where
  /-- It reads nothing for the time being. -/
  | stalled
  /-- It reads whatever there is. -/
  | reading
  /-- It got the last frame, or went away. -/
  | over
  deriving DecidableEq, Repr, Inhabited

/-- An **exchange**. -/
structure Exchange where
  accepted : Accepted
  stage : Exchange.Stage
  reader : Exchange.Reader := .stalled
  /-- What the client got, with the times. -/
  got : List (Nat × Pull) := []

namespace Exchange

/-- An exchange **begins** at a time. -/
def ofAccepted (a : Accepted) (now : Nat) : Exchange where
  accepted := a
  stage := .waiting { now, link := { timeout := Settings.ioTimeoutFor a.interval } }

/-- The line to the client. -/
def line (e : Exchange) : Line Channel :=
  match e.stage with
  | .waiting line | .abandoned line => line
  | .running s _ => s.desk.around

/-- Put a line in place of the line. -/
def withLine (e : Exchange) (line : Line Channel) : Exchange :=
  { e with
    stage := match e.stage with
      | .waiting _ => .waiting line
      | .running s ending => .running { s with desk.around := line } ending
      | .abandoned _ => .abandoned line }

/-- The channel. -/
def channel (e : Exchange) : Channel := e.line.link

/-- The time. -/
def now (e : Exchange) : Nat := e.line.now

/-- Put a channel in place of the channel. -/
def withChannel (e : Exchange) (link : Channel) : Exchange :=
  e.withLine { e.line with link }

/-- The session, if it started. -/
def session? (e : Exchange) : Option (Session Channel) :=
  match e.stage with
  | .running s _ => some s
  | _ => none

/-- How the handler ended, if the session started. -/
def ending? (e : Exchange) : Option Ending :=
  match e.stage with
  | .running _ ending => some ending
  | _ => none

/-- Do something to the session, if it started. -/
def onSession {α : Type} (e : Exchange) (act : Session Channel → Session Channel × α) :
    Exchange × Option α :=
  match e.stage with
  | .running s ending =>
    let (s, a) := act s
    ({ e with stage := .running s ending }, some a)
  | _ => (e, none)

/-! ### The body -/

/-- The body is **pulled**. -/
def pull (e : Exchange) : Exchange × Pull :=
  let (channel, p) := e.channel.pull
  (e.withChannel channel, p)

/-- The body **goes away**. -/
def leave (e : Exchange) : Exchange :=
  { e.withChannel e.channel.dropBody with reader := .over }

/-! ### The start -/

/-- Whether the task that starts the session can go on. -/
def canStart (e : Exchange) : Bool :=
  match e.stage with
  | .waiting line => line.link.opened || line.link.closed
  | _ => false

/-- **The task that starts the session runs**; the second component tells whether the session
started.  That the body was pulled counts before its going away. -/
def start (e : Exchange) (id : Nat) : Exchange × Bool :=
  match e.stage with
  | .waiting line =>
    if line.link.opened then
      let (s, ending) := Session.launch line id e.accepted.interval e.accepted.prepared
      ({ e with stage := .running s ending }, true)
    else if line.link.closed then ({ e with stage := .abandoned line }, false)
    else (e, false)
  | _ => (e, false)

/-! ### The client -/

/-- Keep what a pull gave.  An abort frame and the end are the last things that the client gets. -/
def keep (e : Exchange) (p : Pull) : Exchange :=
  match p with
  | .pending => e
  | .frame (.data _) => { e with got := e.got ++ [(e.now, p)] }
  | .frame .abort | .finished => { e with got := e.got ++ [(e.now, p)], reader := .over }

/-- The client **reads once**. -/
def readOnce (e : Exchange) : Exchange :=
  let (e, p) := e.pull
  e.keep p

/-- The client **begins to read**: it reads once, and then stalls or goes on. -/
def beginReading (e : Exchange) (stalls : Bool) : Exchange :=
  { e with reader := if stalls then .stalled else .reading }.readOnce

/-- The client goes on to read if it stalled. -/
def resume (e : Exchange) : Exchange :=
  { e with reader := if e.reader = .stalled then .reading else e.reader }

/-- Whether the client gets something by reading. -/
def canRead (e : Exchange) : Bool :=
  e.reader == .reading && e.channel.canPull

/-- What the client got, and the exchange without it. -/
def takeGot (e : Exchange) : List (Nat × Pull) × Exchange :=
  (e.got, { e with got := [] })

/-! ### The clock -/

/-- Whether neither the client nor a task of the session can go on. -/
def isQuiet (e : Exchange) : Bool :=
  !e.canRead && e.session?.all Session.isQuiet

/-- The tasks of the session have a turn, and then the client. -/
def takeTurns (e : Exchange) : Exchange :=
  let e := (e.onSession fun s => (s.takeTurns, ())).1
  if e.canRead then e.readOnce else e

instance : Timed Exchange where
  atTime now e := e.withLine { e.line with now }
  isQuiet := isQuiet
  takeTurns := takeTurns
  nextDue after e := e.session?.bind fun s => s.nextDue after

end Exchange

end HeldReply
