import HeldReply.Outcome

/-!
# What a handler does

A handler that was given its parameters runs as a program: it answers its callback, keeps copies of
it or lets them go, looks at its scope, registers clean-ups and disposes of the scope.  A clean-up
is such a program too.

* `View` — what a program sees of its surroundings;
* `Program` — the calls that a program makes, each with what it does with the answer;
* `Ending` — how a program ends.
-/

namespace HeldReply

/-- What a program **sees** of its surroundings. -/
structure View where
  /-- The label of the scope. -/
  label : String
  /-- The disposal of the scope has started. -/
  disposed : Bool
  /-- The clean-ups queued. -/
  pending : Nat
  /-- The heartbeat is cancelled. -/
  cancelled : Bool
  /-- The connection is closed. -/
  closed : Bool
  deriving DecidableEq, Repr

/-- The **calls** of a program, one after another. -/
inductive Program where
  /-- Return, with a remark for whoever watches. -/
  | finish (remark : String)
  | crash (c : Crash)
  /-- Answer the callback; go on with whether the answer counts. -/
  | deliver (o : Outcome) (next : Bool → Program)
  /-- Keep a copy of the callback beyond the end of the program. -/
  | keep (next : Program)
  /-- Let go of a copy that was kept. -/
  | release (next : Program)
  | inspect (next : View → Program)
  /-- Register a clean-up; go on with whether it was queued. -/
  | register (cleanup : Program) (next : Bool → Program)
  /-- Dispose of the scope; go on with whether this call did it. -/
  | dispose (next : Bool → Program)
  /-- Note a text for whoever watches. -/
  | note (text : String) (next : Program)

/-- **How a program ends.** -/
inductive Ending where
  | finished (remark : String)
  | crashed (c : Crash)
  deriving DecidableEq, Repr, Inhabited

/-- The remark of a program that returned. -/
def Ending.remark? : Ending → Option String
  | .finished remark => some remark
  | .crashed _ => none

end HeldReply
