import HeldReply.Link.Basic
import HeldReply.Span

/-!
# Links under a script

A link that does what it was told beforehand, for trying out sessions: its writes take given times,
fail from a given one on or crash at a given one, and its end may fail.  It keeps a record of what
happened.

* `LinkEvent`, `Scripted` — an entry of the record, and the link;
* `Scripted.start`, `Scripted.poll`, `Scripted.close`, `Scripted.disconnect` — its calls, and the
  peer going away;
* the instance of `Link`.
-/

namespace HeldReply

/-- **What happened** on a link. -/
inductive LinkEvent where
  | began (chunk : String)
  | wrote (chunk : String)
  | writeFailed (chunk : String)
  | finished
  | finishFailed
  | closed
  deriving DecidableEq, Repr, Inhabited

/-- A write in flight, the numbers of writes counting from one. -/
structure Scripted.Flight where
  number : Nat
  chunk : String
  due : Nat
  deriving DecidableEq, Repr, Inhabited

/-- A link under a **script**. -/
structure Scripted where
  /-- The time of a write that has none of its own. -/
  delay : Nat := 0
  /-- The times of the first writes. -/
  delays : List (Option Nat) := []
  /-- The number of the first write that fails; zero for none. -/
  failFrom : Nat := 0
  /-- The number of the write that crashes; zero for none. -/
  crashOn : Nat := 0
  finishFails : Bool := false
  closed : Bool := false
  /-- The writes begun. -/
  writes : Nat := 0
  flights : List Scripted.Flight := []
  /-- What happened, with the times. -/
  record : List (Nat × LinkEvent) := []
  deriving Repr, Inhabited

namespace Scripted

/-- The failure of every call that fails. -/
def failure : Failure := .transport "connection closed"

/-- One more entry of the record. -/
def note (l : Scripted) (now : Nat) (e : LinkEvent) : Scripted :=
  { l with record := l.record ++ [(now, e)] }

/-- How long a write takes. -/
def timeOf (l : Scripted) (number : Nat) : Nat :=
  ((l.delays[number - 1]?).join).getD l.delay

/-- A write whose time is over. -/
def land (l : Scripted) (now number : Nat) (chunk : String) : Scripted × Reply :=
  if l.closed || (l.failFrom != 0 && l.failFrom ≤ number) then
    (l.note now (.writeFailed chunk), .refused failure)
  else (l.note now (.wrote chunk), .done)

/-- Start a write. -/
def startWrite (l : Scripted) (now : Nat) (chunk : String) : Scripted × Started :=
  let number := l.writes + 1
  let l := { l with writes := number }
  if number = l.crashOn then (l, .answered (.crashed (.text "write panicked")))
  else if l.timeOf number = 0 then
    let (l, reply) := l.land now number chunk
    (l, .answered reply)
  else
    let flight := { number, chunk, due := (Span.ofMillis (l.timeOf number)).restUntil now }
    ({ l.note now (.began chunk) with flights := l.flights ++ [flight] }, .inFlight number)

/-- End in good order, which takes no time. -/
def finish (l : Scripted) (now : Nat) : Scripted × Reply :=
  if l.closed || l.finishFails then (l.note now .finishFailed, .refused failure)
  else ({ l.note now .finished with closed := true }, .done)

/-- Start a call. -/
def start (now : Nat) (call : Call) (l : Scripted) : Scripted × Started :=
  match call with
  | .write chunk => l.startWrite now chunk
  | .finish =>
    let (l, reply) := l.finish now
    (l, .answered reply)

/-- The write in flight with the given number. -/
def flight? (l : Scripted) (number : Nat) : Option Flight :=
  l.flights.find? fun f => f.number == number

/-- Ask for a write. -/
def poll (now number : Nat) (l : Scripted) : Scripted × Option Reply :=
  match l.flight? number with
  | none => (l, none)
  | some f =>
    if f.due ≤ now then
      let l := { l with flights := l.flights.filter fun f => f.number != number }
      let (l, reply) := l.land now number f.chunk
      (l, some reply)
    else (l, none)

/-- Whether the time of a write is over. -/
def isReady (now number : Nat) (l : Scripted) : Bool :=
  (l.flight? number).any fun f => f.due ≤ now

/-- Close in disorder. -/
def close (now : Nat) (l : Scripted) : Scripted :=
  { l.note now .closed with closed := true }

/-- The **peer goes away**. -/
def disconnect (l : Scripted) : Scripted :=
  { l with closed := true }

/-- The entries of the record so far, and the link with an empty record. -/
def takeRecord (l : Scripted) : List (Nat × LinkEvent) × Scripted :=
  (l.record, { l with record := [] })

instance : Link Scripted where
  start := start
  poll := poll
  isReady := isReady
  dueAt number l := (l.flight? number).map Flight.due
  close now l := (l.close now, none)
  isClosed := closed
  tellsClosed := closed

end Scripted

end HeldReply
