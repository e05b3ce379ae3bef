import HeldReply.Handler.Basic
import HeldReply.Session.Basic
import HeldReply.Settings.Basic
import HeldReply.Timed

/-!
# Running a session

A session is a system under a clock.  It starts with the execution of its handler, and much can be
done to it from outside.

* `Session.takeTurns`, `Session.isQuiet`, `Session.sleep` — the tasks take turns, and the clock
  moves;
* `Session.launch` — a session starts, and its handler is executed;
* `Session.beatOnly`, `Session.closingOnly` — the tasks alone, without a handler;
* `Session.deliver`, `Session.release`, `Session.register`, `Session.stopAndWait` — what can be done
  to a session from outside;
* `Session.endAs?` — how the session ended.
-/

namespace HeldReply.Session

variable {σ : Type} [Link σ]

/-- Every task has one turn. -/
def takeTurns (s : Session σ) : Session σ :=
  s.tasks.foldl (fun s t => if s.isRunnable t then s.poll t else s) s

/-- Whether no task can go on. -/
def isQuiet (s : Session σ) : Bool :=
  s.tasks.all fun t => !s.isRunnable t

instance : Timed (Session σ) where
  atTime now s := s.atTime now
  isQuiet := isQuiet
  takeTurns := takeTurns
  nextDue after s := s.nextDue after

/-- **The clock moves** by so many milliseconds. -/
def sleep (s : Session σ) (ms : Nat) : Session σ :=
  Timed.advance s s.now ((Span.ofMillis ms).restUntil s.now)

/-! ### The start -/

/-- The label of the scope of a session. -/
def labelOf (p : Prepared) : String := "toolbox:" ++ p.name

/-- **Start** a session on a link: the scope owns the closing of the link and the cancelling of the
beat, which happen in the opposite order, and the handler is executed. -/
def launch (line : Line σ) (id : Nat) (interval : Span) (p : Prepared) : Session σ × Ending :=
  let scope : Scope Cleanup := { id, label := labelOf p, queue := [.closeLink, .cancelBeat] }
  let desk : Desk (Line σ) := { scope, around := line }
  let (desk, ending) := desk.execute p.name p.program
  ({ desk, interval, patience := Settings.ioTimeoutFor interval }, ending)

/-- **The beat alone**, on a scope that may be disposed of already. -/
def beatOnly (link : σ) (interval : Span) (disposed : Bool) : Session σ :=
  let scope : Scope Cleanup := { id := 1, label := "heartbeat" }
  let desk : Desk (Line σ) := { scope, around := { link } }
  let desk :=
    if disposed then desk.dispose.1.runCleanup .cancelBeat else desk.push .cancelBeat
  { desk, interval, patience := Settings.ioTimeoutFor interval, closing := .absent,
    watcher := .absent }

/-- **The beat and the closing alone**: nothing watches the link, and no clean-up closes it. -/
def closingOnly (link : σ) (interval patience : Span) (closing : Closing) : Session σ :=
  { beatOnly link interval false with patience, closing }

/-! ### What is done from outside -/

/-- Answer the callback. -/
def deliver (s : Session σ) (o : Outcome) : Session σ × Bool :=
  let (desk, first) := s.desk.deliver o
  ({ s with desk }, first)

/-- Let go of a callback. -/
def release (s : Session σ) : Session σ :=
  { s with desk := s.desk.release }

/-- Register a clean-up; the second component tells whether it was queued. -/
def register (s : Session σ) (cleanup : Program) : Session σ × Bool :=
  let (desk, queued) := s.desk.register cleanup
  ({ s with desk }, queued)

/-- The answer of a call that stops the beat, once it has returned. -/
def answered? (s : Session σ) (i : Nat) : Option Bool :=
  match s.stops[i]? with
  | some (.answered inTime) => some inTime
  | _ => none

/-- **Stop the beat** and let the clock move until the call returns. -/
def stopAndWait (s : Session σ) (wait : Nat) : Session σ × Bool :=
  let (s, i) := s.stop wait
  let returned (s : Session σ) : Bool := (s.answered? i).isSome
  let s := Timed.advanceUntil returned (Timed.settle s) s.now ((Span.ofMillis wait).waitUntil s.now)
  (s, (s.answered? i).getD false)

/-- **How the session ended.**  A closing that crashed counts as one that discarded the outcome. -/
def endAs? (s : Session σ) : Option SessionEnd :=
  match s.closing with
  | .over e => some e
  | .crashed => some .discarded
  | _ => none

end HeldReply.Session
