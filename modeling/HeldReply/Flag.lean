/-!
# One-shot flags

A flag is raised once and never lowered.  Others may wait for it.  Raising and calling the waiters
are two steps, and between them the rest of the program goes on.  A waiter enrols for the next call,
looks at the flag, and parks if the flag is down; so whoever looks too early is enrolled already.

* `Waiter` — what a waiter has done since it last asked;
* `Flag` — the flag, whether the waiters were called, and the waiters by number;
* `Flag.raise`, `Flag.call`, `Flag.set` — the two steps of setting the flag, and both at once;
* `Flag.join`, `Flag.enroll`, `Flag.look`, `Flag.park`, `Flag.poll`, `Flag.quit` — a waiter comes,
  asks in three steps or in one, and goes.
-/

namespace HeldReply

/-- What a waiter has **done** since it last asked; `called` tells that a call came after it
enrolled. -/
inductive Waiter.Stage where
  /-- It never asked. -/
  | fresh
  /-- It is enrolled for the next call. -/
  | enrolled (called : Bool)
  /-- It is enrolled, and saw that the flag was down. -/
  | looked (called : Bool)
  /-- It was told to wait. -/
  | parked (called : Bool)
  /-- It was told that the flag is up. -/
  | ready
  /-- It went away. -/
  | gone
  deriving DecidableEq, Repr, Inhabited

/-- A **waiter** and how often it was woken. -/
structure Waiter where
  stage : Waiter.Stage := .fresh
  wakes : Nat := 0
  deriving DecidableEq, Repr, Inhabited

namespace Waiter

/-- A call reaches a waiter that is enrolled; it wakes the waiter if that was told to wait. -/
def hear (w : Waiter) : Waiter :=
  match w.stage with
  | .enrolled _ => { w with stage := .enrolled true }
  | .looked _ => { w with stage := .looked true }
  | .parked false => { stage := .parked true, wakes := w.wakes + 1 }
  | _ => w

/-- Enrol for the next call: at the first question, and when asking again after a call. -/
def enroll (w : Waiter) : Waiter :=
  match w.stage with
  | .fresh | .parked true => { w with stage := .enrolled false }
  | _ => w

/-- Look at the flag. -/
def look (raised : Bool) (w : Waiter) : Waiter :=
  match w.stage with
  | .enrolled called => { w with stage := if raised then .ready else .looked called }
  | _ => w

/-- Park, unless a call came since: then begin again. -/
def park (w : Waiter) : Waiter :=
  match w.stage with
  | .looked false => { w with stage := .parked false }
  | .looked true => { w with stage := .enrolled false }
  | _ => w

end Waiter

/-- A **flag** and its waiters. -/
structure Flag where
  /-- The flag is up. -/
  raised : Bool := false
  /-- The waiters were called. -/
  called : Bool := false
  waiters : List Waiter := []
  deriving DecidableEq, Repr, Inhabited

namespace Flag

/-- **Raise** the flag; the second component tells whether it was down. -/
def raise (f : Flag) : Flag × Bool :=
  ({ f with raised := true }, !f.raised)

/-- **Call** all waiters that are enrolled. -/
def call (f : Flag) : Flag :=
  { f with called := true, waiters := f.waiters.map Waiter.hear }

/-- Raise the flag and, if it was down, call the waiters. -/
def set (f : Flag) : Flag :=
  match f.raise with
  | (f, true) => f.call
  | (f, false) => f

/-- One waiter more, and its number. -/
def join (f : Flag) : Flag × Nat :=
  ({ f with waiters := f.waiters ++ [{}] }, f.waiters.length)

/-- A waiter enrols. -/
def enroll (f : Flag) (i : Nat) : Flag :=
  { f with waiters := f.waiters.modify i Waiter.enroll }

/-- A waiter looks at the flag. -/
def look (f : Flag) (i : Nat) : Flag :=
  { f with waiters := f.waiters.modify i (Waiter.look f.raised) }

/-- A waiter parks. -/
def park (f : Flag) (i : Nat) : Flag :=
  { f with waiters := f.waiters.modify i Waiter.park }

/-- A waiter goes away. -/
def quit (f : Flag) (i : Nat) : Flag :=
  { f with waiters := f.waiters.modify i fun w => { w with stage := .gone } }

/-- Whether a waiter was told that the flag is up. -/
def isReady (f : Flag) (i : Nat) : Bool :=
  f.waiters[i]?.any fun w => w.stage == .ready

/-- A waiter **asks**, in all three steps; the second component tells whether the flag is up. -/
def poll (f : Flag) (i : Nat) : Flag × Bool :=
  let f := ((f.enroll i).look i).park i
  (f, f.isReady i)

/-- How often a waiter was woken. -/
def wakesOf (f : Flag) (i : Nat) : Nat :=
  (f.waiters[i]?.map Waiter.wakes).getD 0

/-- How often all the waiters together were woken. -/
def wakes (f : Flag) : Nat :=
  f.waiters.foldr (fun w n => w.wakes + n) 0

end Flag

end HeldReply
