import HeldReply.Desk
import HeldReply.Link.Basic
import HeldReply.Span

/-!
# Sessions

A session holds one reply open.  Three tasks work on it: the *beat* writes a blank at every interval
for as long as the handler works; the *closing* waits for the outcome, stops the beat and writes the
last chunk; the *watcher* disposes of the scope when the link is closed.  Whoever disposes of the
scope, the other tasks find out and end.

In its turn a task runs until it has to wait; what it waits for is part of its state.

* `Line` — the link with the clock and the cancelling of the beat, as surroundings of a desk;
* `Beat`, `Closing`, `SessionEnd`, `Watcher`, `Stop` — what the tasks do, and how a session ends;
* `Session` — the desk with the tasks;
* `Session.pollBeat`, `Session.pollClosing`, `Session.pollWatcher`, `Session.pollStop` — a task
  runs;
* `Session.stopWithin`, `Session.stop` — a call from outside stops the beat;
* `Task`, `Session.poll`, `Session.isRunnable`, `Session.dueAt` — the tasks by name, which of them
  can go on, and the timers for which they wait.
-/

namespace HeldReply

/-- A link with the **clock** and the cancelling of the beat. -/
structure Line (σ : Type) where
  /-- The time in milliseconds. -/
  now : Nat := 0
  link : σ
  /-- The beat is cancelled. -/
  cancelled : Bool := false
  deriving Repr, Inhabited

instance {σ : Type} [Link σ] : Surroundings (Line σ) where
  closeLink l := { l with link := (Link.close l.now l.link).1 }
  cancelBeat l := { l with cancelled := true }
  linkClosed l := Link.isClosed l.link
  beatCancelled := Line.cancelled

/-- What the **beat** does. -/
inductive Beat where
  | fresh
  /-- It rests until a time. -/
  | resting (wakeAt : Nat)
  /-- It writes. -/
  | writing (ticket : Nat)
  | ended
  | crashed
  deriving DecidableEq, Repr, Inhabited

/-- Whether the beat is over. -/
def Beat.isOver : Beat → Bool
  | .ended | .crashed => true
  | _ => false

/-- How many times may come for the beat in one turn.  A beat that never has to wait so often in a
row lets the other tasks have their turns. -/
def Beat.stint : Nat := 128

/-- **How a session ends.** -/
inductive SessionEnd where
  /-- The last chunk was written and the reply ended in good order. -/
  | delivered
  /-- The session was ended before; the outcome does not count. -/
  | discarded
  /-- The last chunk could not be written, or the reply not be ended. -/
  | writeFailed
  deriving DecidableEq, Repr, Inhabited

/-- What the **closing** does. -/
inductive Closing where
  /-- There is no such task. -/
  | absent
  | fresh
  /-- It knows the outcome, and starts at a time. -/
  | delayed (startAt : Nat) (o : Outcome)
  /-- It waits for the outcome and for the disposal. -/
  | waiting
  /-- It waits for the beat to be over; if it has an outcome, it goes on to write it. -/
  | stopping (deadline : Nat) (o : Option Outcome)
  /-- It writes the last chunk. -/
  | writing (ticket : Nat)
  /-- It ends the reply. -/
  | finishing (ticket : Nat)
  | over (e : SessionEnd)
  | crashed
  deriving Inhabited

/-- A closing that knows the outcome, and starts so many milliseconds after the beginning. -/
def Closing.after (ms : Nat) (o : Outcome) : Closing :=
  .delayed ((Span.ofMillis ms).restUntil 0) o

/-- What the **watcher** does. -/
inductive Watcher where
  /-- There is no such task. -/
  | absent
  | fresh
  | waiting
  | ended
  deriving DecidableEq, Repr, Inhabited

/-- A call from outside that **stops the beat** and waits for it to be over. -/
inductive Stop where
  | waiting (deadline : Nat)
  /-- It returned; the answer tells whether the beat was over in time. -/
  | answered (inTime : Bool)
  deriving DecidableEq, Repr, Inhabited

/-- A **session** on a link of type `σ`. -/
structure Session (σ : Type) where
  desk : Desk (Line σ)
  /-- The time between two beats. -/
  interval : Span
  /-- How long the closing waits for the beat to be over. -/
  patience : Span
  beat : Beat := .fresh
  /-- The beats written. -/
  beats : Nat := 0
  /-- Someone waits, or has waited, for the beat to be over. -/
  joined : Bool := false
  closing : Closing := .fresh
  watcher : Watcher := .fresh
  stops : List Stop := []

namespace Session

variable {σ : Type} [Link σ]

/-- The chunk of a beat. -/
def beatChunk : String := " "

/-! ### The surroundings -/

/-- The time. -/
def now (s : Session σ) : Nat := s.desk.around.now

/-- The link. -/
def link (s : Session σ) : σ := s.desk.around.link

/-- Whether the beat is cancelled. -/
def isCancelled (s : Session σ) : Bool := s.desk.around.cancelled

/-- Set the clock. -/
def atTime (s : Session σ) (now : Nat) : Session σ :=
  { s with desk.around.now := now }

/-- Put a link in place of the link. -/
def withLink (s : Session σ) (link : σ) : Session σ :=
  { s with desk.around.link := link }

/-- Cancel the beat. -/
def cancel (s : Session σ) : Session σ :=
  { s with desk.around.cancelled := true }

/-- Start a call on the link. -/
def startCall (s : Session σ) (call : Call) : Session σ × Started :=
  let (link, started) := Link.start s.now call s.link
  (s.withLink link, started)

/-- Ask for a call in flight. -/
def pollCall (s : Session σ) (ticket : Nat) : Session σ × Option Reply :=
  let (link, reply) := Link.poll s.now ticket s.link
  (s.withLink link, reply)

/-- Close the link; the second component is the crash of the task that closes it. -/
def closeLink (s : Session σ) : Session σ × Option Crash :=
  let (link, crash) := Link.close s.now s.link
  (s.withLink link, crash)

/-- Dispose of the scope; the second component tells whether this call did it. -/
def dispose (s : Session σ) : Session σ × Bool :=
  let (desk, first) := s.desk.dispose
  ({ s with desk }, first)

/-- Whether the disposal of the scope has started. -/
def isDisposed (s : Session σ) : Bool := s.desk.scope.isDisposed

/-- Whether a task that waits for the disposal is told of it: a fresh task as soon as the disposal
has started, any other when it has ended. -/
def tellsDisposed (s : Session σ) (isFresh : Bool) : Bool :=
  if isFresh then s.isDisposed else s.desk.scope.flag.called

/-! ### The beat -/

/-- **Rest** until the next beat, unless the beat is cancelled. -/
def rest (s : Session σ) : Session σ :=
  { s with beat := if s.isCancelled then .ended else .resting (s.interval.restUntil s.now) }

/-- Go on after a beat.  One that could not be written disposes of the scope. -/
def afterBeat (s : Session σ) : Reply → Session σ
  | .done => { s with beats := s.beats + 1 }.rest
  | .refused _ => { s.dispose.1 with beat := .ended }
  | .crashed _ => { s with beat := .crashed }

/-- Write a beat. -/
def writeBeat (s : Session σ) : Session σ :=
  match s.startCall (.write beatChunk) with
  | (s, .answered reply) => s.afterBeat reply
  | (s, .inFlight ticket) => { s with beat := .writing ticket }

/-- Whether the beat can go on. -/
def beatRunnable (s : Session σ) : Bool :=
  match s.beat with
  | .fresh => true
  | .resting wakeAt => s.isCancelled || wakeAt ≤ s.now
  | .writing ticket => Link.isReady s.now ticket s.link
  | .ended | .crashed => false

/-- The beat goes on to the next rest or write.  Being cancelled counts before the time, and never
cuts off a write. -/
def stepBeat (s : Session σ) : Session σ :=
  match s.beat with
  | .fresh => s.rest
  | .resting wakeAt =>
    if s.isCancelled then { s with beat := .ended }
    else if wakeAt ≤ s.now then s.writeBeat
    else s
  | .writing ticket =>
    match s.pollCall ticket with
    | (s, some reply) => s.afterBeat reply
    | (s, none) => s
  | .ended | .crashed => s

/-- At most so many steps of the beat, until it has to wait. -/
def stepBeatFor (s : Session σ) : Nat → Session σ
  | 0 => s
  | n + 1 => if s.beatRunnable then s.stepBeat.stepBeatFor n else s

/-- **The beat runs.** -/
def pollBeat (s : Session σ) : Session σ :=
  match s.beat with
  | .fresh => s.rest.stepBeatFor Beat.stint
  | _ => s.stepBeatFor Beat.stint

/-! ### The closing -/

/-- End the session: dispose of the scope. -/
def endWith (s : Session σ) (e : SessionEnd) : Session σ :=
  { s.dispose.1 with closing := .over e }

/-- Go on after the link was closed, which may have crashed the closing. -/
def afterClose (s : Session σ) : Option Crash → Session σ
  | none => { s with closing := .over .discarded }
  | some _ => { s with closing := .crashed }

/-- End the session without a last chunk: only the link is closed. -/
def discard (s : Session σ) : Session σ :=
  let (s, crash) := s.cancel.closeLink
  s.afterClose crash

/-- Ending the session so **comes to an end**, if closing the link does not crash the closing. -/
theorem discard_cases (s : Session σ) :
    (s.cancel.closeLink.2 = none ∧
      s.discard = { s.cancel.closeLink.1 with closing := .over .discarded }) ∨
    (∃ crash, s.cancel.closeLink.2 = some crash ∧
      s.discard = { s.cancel.closeLink.1 with closing := .crashed }) := by
  unfold discard
  rcases s.cancel.closeLink with ⟨v, _ | crash⟩
  · exact .inl ⟨rfl, rfl⟩
  · exact .inr ⟨crash, rfl, rfl⟩

/-- Go on after the end of the reply. -/
def afterFinish (s : Session σ) : Reply → Session σ
  | .done => s.endWith .delivered
  | .refused _ => s.endWith .writeFailed
  | .crashed _ => { s with closing := .crashed }

/-- Go on after the last chunk. -/
def afterPayload (s : Session σ) : Reply → Session σ
  | .done =>
    match s.startCall .finish with
    | (s, .answered reply) => s.afterFinish reply
    | (s, .inFlight ticket) => { s with closing := .finishing ticket }
  | .refused _ => s.endWith .writeFailed
  | .crashed _ => { s with closing := .crashed }

/-- Write the last chunk. -/
def writePayload (s : Session σ) (o : Outcome) : Session σ :=
  match s.startCall (.write o.payload) with
  | (s, .answered reply) => s.afterPayload reply
  | (s, .inFlight ticket) => { s with closing := .writing ticket }

/-- Go on after the beat is stopped, or was waited for in vain.  If the scope was disposed of in the
meantime, the outcome does not count. -/
def afterStop (s : Session σ) : Option Outcome → Session σ
  | none => s.discard
  | some o => if s.isDisposed then s.discard else s.writePayload o

/-- **Stop the beat** and wait for it to be over; if someone else waits or has waited for that, it
is taken to be over. -/
def stopBeat (s : Session σ) (o : Option Outcome) : Session σ :=
  let s := s.cancel
  if s.joined then s.afterStop o
  else
    let s := { s with joined := true }
    if s.beat.isOver || s.patience.isZero then s.afterStop o
    else { s with closing := .stopping (s.patience.waitUntil s.now) o }

/-- The closing asks for the outcome, which counts before the disposal. -/
def askOutcome (s : Session σ) (isFresh : Bool) : Session σ :=
  let (promise, outcome) := s.desk.promise.poll
  let s := { s with desk.promise := promise }
  match outcome with
  | some o => s.stopBeat (some o)
  | none => if s.tellsDisposed isFresh then s.stopBeat none else { s with closing := .waiting }

/-- **The closing runs.** -/
def pollClosing (s : Session σ) : Session σ :=
  match s.closing with
  | .fresh => s.askOutcome true
  | .waiting => s.askOutcome false
  | .delayed startAt o => if startAt ≤ s.now then s.stopBeat (some o) else s
  | .stopping deadline o => if s.beat.isOver || deadline ≤ s.now then s.afterStop o else s
  | .writing ticket =>
    match s.pollCall ticket with
    | (s, some reply) => s.afterPayload reply
    | (s, none) => s
  | .finishing ticket =>
    match s.pollCall ticket with
    | (s, some reply) => s.afterFinish reply
    | (s, none) => s
  | .absent | .over _ | .crashed => s

/-! ### The watcher and calls from outside -/

/-- The watcher looks at the link and at the scope. -/
def watch (s : Session σ) (isFresh : Bool) : Session σ :=
  if Link.tellsClosed s.link then { s.dispose.1 with watcher := .ended }
  else if s.tellsDisposed isFresh then { s with watcher := .ended }
  else { s with watcher := .waiting }

/-- **The watcher runs.** -/
def pollWatcher (s : Session σ) : Session σ :=
  match s.watcher with
  | .fresh => s.watch true
  | .waiting => s.watch false
  | .absent | .ended => s

/-- What comes of a call that stops the beat.  It waits only if it is the first one, the beat is not
over and there is a time to wait. -/
def stopCall (s : Session σ) (wait : Span) : Stop :=
  if s.joined || s.beat.isOver then .answered true
  else if wait.isZero then .answered false
  else .waiting (wait.waitUntil s.now)

/-- A call from outside that **stops the beat** and waits for so long, and its number. -/
def stopWithin (s : Session σ) (wait : Span) : Session σ × Nat :=
  let s := s.cancel
  ({ s with joined := true, stops := s.stops ++ [s.stopCall wait] }, s.stops.length)

/-- A call from outside that stops the beat and waits for so many milliseconds, and its number. -/
def stop (s : Session σ) (wait : Nat) : Session σ × Nat :=
  s.stopWithin (.ofMillis wait)

/-- Whether a call from outside that waits can return, and its answer. -/
def stopAnswer? (s : Session σ) (deadline : Nat) : Option Bool :=
  if s.beat.isOver then some true else if deadline ≤ s.now then some false else none

/-- **A call from outside runs.** -/
def pollStop (s : Session σ) (i : Nat) : Session σ :=
  match s.stops[i]? with
  | some (.waiting deadline) =>
    match s.stopAnswer? deadline with
    | some inTime => { s with stops := s.stops.set i (.answered inTime) }
    | none => s
  | _ => s

end Session

/-! ### The tasks by name -/

/-- The **tasks** of a session, and the calls from outside by number. -/
inductive Task where
  | watcher
  | beat
  | closing
  | stop (i : Nat)
  deriving DecidableEq, Repr, Inhabited

namespace Session

variable {σ : Type} [Link σ]

/-- **A task runs.** -/
def poll (s : Session σ) : Task → Session σ
  | .watcher => s.pollWatcher
  | .beat => s.pollBeat
  | .closing => s.pollClosing
  | .stop i => s.pollStop i

/-- Whether the closing can go on. -/
def closingRunnable (s : Session σ) : Bool :=
  match s.closing with
  | .fresh => true
  | .waiting => s.desk.promise.stage.outcome?.isSome || s.tellsDisposed false
  | .delayed startAt _ => startAt ≤ s.now
  | .stopping deadline _ => s.beat.isOver || deadline ≤ s.now
  | .writing ticket | .finishing ticket => Link.isReady s.now ticket s.link
  | .absent | .over _ | .crashed => false

/-- Whether the watcher can go on. -/
def watcherRunnable (s : Session σ) : Bool :=
  match s.watcher with
  | .fresh => true
  | .waiting => Link.tellsClosed s.link || s.tellsDisposed false
  | .absent | .ended => false

/-- Whether a call from outside can go on. -/
def stopRunnable (s : Session σ) (i : Nat) : Bool :=
  match s.stops[i]? with
  | some (.waiting deadline) => (s.stopAnswer? deadline).isSome
  | _ => false

/-- Whether a task **can go on**: it never ran, or what it waits for has come. -/
def isRunnable (s : Session σ) : Task → Bool
  | .watcher => s.watcherRunnable
  | .beat => s.beatRunnable
  | .closing => s.closingRunnable
  | .stop i => s.stopRunnable i

/-- **The timer** for which a task waits. -/
def dueAt (s : Session σ) : Task → Option Nat
  | .watcher => none
  | .beat =>
    match s.beat with
    | .resting wakeAt => some wakeAt
    | .writing ticket => Link.dueAt ticket s.link
    | _ => none
  | .closing =>
    match s.closing with
    | .delayed t _ | .stopping t _ => some t
    | .writing ticket | .finishing ticket => Link.dueAt ticket s.link
    | _ => none
  | .stop i =>
    match s.stops[i]? with
    | some (.waiting deadline) => some deadline
    | _ => none

/-- Whether the closing set its timer before the beat set that for which it waits.  A closing that
starts after some time sets its timer at the beginning, when the beat has just set its first. -/
def closingFirst (s : Session σ) : Bool :=
  match s.closing, s.beat with
  | .delayed _ _, .resting _ => s.beats != 0
  | .delayed _ _, .writing _ => s.beats != 0 || !s.interval.isZero
  | _, _ => false

/-- All tasks, in the order in which they take turns: the calls from outside come first, and of two
timers that come at one time the one that was set first. -/
def tasks (s : Session σ) : List Task :=
  (List.range s.stops.length).map .stop ++
    (if s.closingFirst then [.watcher, .closing, .beat] else [.watcher, .beat, .closing])

/-- The next timer after a time, if one is set. -/
def nextDue (s : Session σ) (after : Nat) : Option Nat :=
  ((s.tasks.filterMap s.dueAt).filter (after < ·)).min?

end Session

end HeldReply
