/-!
# A scope among threads

Several threads register clean-ups on one scope and dispose of it at the same time.  What one thread
does in one go is a step: a registration takes the lock and looks at the flag, and pushes in a step
of its own before it lets the lock go; putting the flag up is one exchange without the lock, taking
the queue needs the lock again, and every clean-up is a step of its own.  Threads take their steps in
any order.

* `Chore` — a clean-up with a number, which may crash when it runs;
* `Caller` — what a thread has still to do;
* `Shared`, `Shared.step` — the scope with its callers, and one step of one of them;
* `Shared.follow` — the steps of a whole schedule; `Shared.roundRobin` — a schedule that lets all
  callers finish.
-/

namespace HeldReply

/-- A clean-up with a **number**; a crash ends it like a return. -/
structure Chore where
  number : Nat
  crashes : Bool := false
  deriving DecidableEq, Repr, Inhabited

/-- **What a thread has still to do.** -/
inductive Caller where
  /-- Call for a registration. -/
  | register (c : Chore)
  /-- The flag was down when the lock was taken: push the clean-up, and let the lock go. -/
  | push (c : Chore)
  /-- The scope is disposed of: run the clean-up here. -/
  | runHere (c : Chore)
  /-- Call for a disposal. -/
  | dispose
  /-- This thread put the flag up: take the queue. -/
  | take
  /-- Run the clean-ups that were taken. -/
  | drain (rest : List Chore)
  /-- The call has returned. -/
  | returned (answer : Bool)
  deriving DecidableEq, Repr, Inhabited

/-- A **scope** and the threads that use it. -/
structure Shared where
  raised : Bool := false
  called : Bool := false
  /-- The clean-ups queued, in the order in which they were pushed. -/
  queue : List Chore := []
  /-- The clean-ups run, in the order in which they ran. -/
  runs : List Chore := []
  callers : List Caller := []
  deriving DecidableEq, Repr, Inhabited

namespace Shared

/-- A thread that has something else to do now. -/
def goOn (s : Shared) (i : Nat) (c : Caller) : Shared :=
  { s with callers := s.callers.set i c }

/-- Whether a thread holds the lock of the queue. -/
def isLocked (s : Shared) : Bool :=
  s.callers.any fun
    | .push _ => true
    | _ => false

/-- **One step** of a thread; `none` if it has nothing to do, or waits for the lock. -/
def step (s : Shared) (i : Nat) : Option Shared :=
  match s.callers[i]? with
  | none | some (.returned _) => none
  | some (.register c) =>
    if s.isLocked then none
    else some (s.goOn i (if s.raised then .runHere c else .push c))
  | some (.push c) => some ({ s with queue := s.queue ++ [c] }.goOn i (.returned true))
  | some (.runHere c) => some ({ s with runs := s.runs ++ [c] }.goOn i (.returned false))
  | some .dispose =>
    if s.raised then some (s.goOn i (.returned false))
    else some ({ s with raised := true }.goOn i .take)
  | some .take =>
    if s.isLocked then none
    else some ({ s with queue := [] }.goOn i (.drain s.queue.reverse))
  | some (.drain (c :: cs)) => some ({ s with runs := s.runs ++ [c] }.goOn i (.drain cs))
  | some (.drain []) => some ({ s with called := true }.goOn i (.returned true))

/-- The steps of a **schedule**; a thread that cannot go on is passed over. -/
def follow (s : Shared) (schedule : List Nat) : Shared :=
  schedule.foldl (fun s i => (s.step i).getD s) s

/-- A schedule in which all threads take turns, long enough for each of them to finish. -/
def roundRobin (s : Shared) : List Nat :=
  (List.replicate (s.queue.length + s.callers.length + 3) (List.range s.callers.length)).flatten

/-- How many disposals were done by their caller. -/
def winners (s : Shared) (disposers : List Nat) : Nat :=
  disposers.countP fun i => s.callers[i]? == some (.returned true)

/-- How often a clean-up ran. -/
def runsOf (s : Shared) (number : Nat) : Nat :=
  s.runs.countP fun c => c.number == number

end Shared

end HeldReply
