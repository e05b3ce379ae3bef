import HeldReply.Handler.Program
import HeldReply.Promise
import HeldReply.Scope.Basic

/-!
# The desk of a session

The desk is what a handler, its clean-ups and the tasks of a session share: the scope, the promise
of the outcome, and the surroundings with the connection and the heartbeat.

* `Surroundings` — what a scope's own clean-ups and a program's look around need;
* `Cleanup` — the clean-ups of a session: close the connection, cancel the heartbeat, a program;
* `Desk.interpret` — run a program, given how to dispose of the scope;
* `Desk.dispose` — dispose of the scope, as one step, out of `Desk.begin`, `Desk.runCleanup` and
  `Desk.announce`;
* `Desk.run`, `Desk.execute` — run a program, and run a handler's program with what follows from its
  ending.
-/

namespace HeldReply

/-- Surroundings with a connection and a heartbeat. -/
class Surroundings (ω : Type) where
  closeLink : ω → ω
  cancelBeat : ω → ω
  linkClosed : ω → Bool
  beatCancelled : ω → Bool

/-- Surroundings without either. -/
instance : Surroundings Unit where
  closeLink := id
  cancelBeat := id
  linkClosed _ := false
  beatCancelled _ := false

/-- A **clean-up** of a session. -/
inductive Cleanup where
  | closeLink
  | cancelBeat
  | program (p : Program)

/-- What the parts of a session **share**. -/
structure Desk (ω : Type) where
  scope : Scope Cleanup
  promise : Promise := {}
  around : ω
  /-- What programs noted, in order. -/
  notes : List String := []

namespace Desk

variable {ω : Type} [Surroundings ω]

/-- What a program sees. -/
def view (d : Desk ω) : View where
  label := d.scope.label
  disposed := d.scope.isDisposed
  pending := d.scope.pending
  cancelled := Surroundings.beatCancelled d.around
  closed := Surroundings.linkClosed d.around

/-- Answer the callback. -/
def deliver (d : Desk ω) (o : Outcome) : Desk ω × Bool :=
  let (promise, first) := d.promise.deliver o
  ({ d with promise }, first)

/-- One callback more. -/
def keep (d : Desk ω) : Desk ω :=
  { d with promise := d.promise.share }

/-- One callback less. -/
def release (d : Desk ω) : Desk ω :=
  { d with promise := d.promise.release }

/-- One note more. -/
def note (d : Desk ω) (text : String) : Desk ω :=
  { d with notes := d.notes ++ [text] }

/-- Queue a clean-up. -/
def push (d : Desk ω) (c : Cleanup) : Desk ω :=
  { d with scope := d.scope.push c }

/-- **Run a program**; `dispose` says what its calls for a disposal do.  A clean-up that it
registers on a scope that is disposed of runs at once, and a crash ends only that clean-up. -/
def interpret (dispose : Desk ω → Desk ω × Bool) : Program → Desk ω → Desk ω × Ending
  | .finish remark, d => (d, .finished remark)
  | .crash c, d => (d, .crashed c)
  | .deliver o next, d =>
    let (d, first) := d.deliver o
    interpret dispose (next first) d
  | .keep next, d => interpret dispose next d.keep
  | .release next, d => interpret dispose next d.release
  | .inspect next, d => interpret dispose (next d.view) d
  | .register cleanup next, d =>
    if d.scope.isDisposed then
      let (d, _) := interpret dispose cleanup d
      interpret dispose (next false) d
    else interpret dispose (next true) (d.push (.program cleanup))
  | .dispose next, d =>
    let (d, first) := dispose d
    interpret dispose (next first) d
  | .note text next, d => interpret dispose next (d.note text)

/-- Run a **clean-up** of a scope that is disposed of, so that it can do nothing by disposing
again. -/
def runCleanup (d : Desk ω) : Cleanup → Desk ω
  | .closeLink => { d with around := Surroundings.closeLink d.around }
  | .cancelBeat => { d with around := Surroundings.cancelBeat d.around }
  | .program p => (interpret (fun d => (d, false)) p d).1

/-- **Start** a disposal: the clean-ups to be run; `none` if there was one already. -/
def begin (d : Desk ω) : Option (Desk ω × List Cleanup) :=
  d.scope.begin.map fun p => ({ d with scope := p.1 }, p.2)

/-- **End** a disposal. -/
def announce (d : Desk ω) : Desk ω :=
  { d with scope := d.scope.announce }

/-- **Dispose** of the scope; the second component tells whether this call did it. -/
def dispose (d : Desk ω) : Desk ω × Bool :=
  match d.begin with
  | some (d, cleanups) => ((cleanups.foldl runCleanup d).announce, true)
  | none => (d, false)

/-- **Run** a program. -/
def run (d : Desk ω) (p : Program) : Desk ω × Ending :=
  interpret dispose p d

/-- **Register** a clean-up; the second component tells whether it was queued. -/
def register (d : Desk ω) (cleanup : Program) : Desk ω × Bool :=
  if d.scope.isDisposed then (d.runCleanup (.program cleanup), false)
  else (d.push (.program cleanup), true)

/-- The failure of a handler that crashed. -/
def crashed (name : String) (c : Crash) : Failure :=
  .handlerFailed (name ++ " 处理器发生 panic: " ++ c.message)

/-- **Execute** a handler's program.  A crash counts as an answer; in the end the callback that the
program was given goes. -/
def execute (d : Desk ω) (name : String) (p : Program) : Desk ω × Ending :=
  match d.run p with
  | (d, .finished remark) => (d.release, .finished remark)
  | (d, .crashed c) => ((d.deliver (.error (crashed name c))).1.release, .crashed c)

end Desk

end HeldReply
