import HeldReply.Outcome
import HeldReply.Text.Quoted

/-!
# Promises

A promise connects the callbacks of a handler with the one listener that waits for its outcome.
Callbacks may be copied and let go.  The first answer counts: it takes the right to answer, and then
sends the outcome.  If the last callback goes and nobody took the right, the promise is broken.

* `Promise` — the right to answer, the callbacks alive, the listener and its wake-ups;
* `Promise.claim`, `Promise.send`, `Promise.deliver` — the two steps of an answer, and both at once;
* `Promise.share`, `Promise.release` — one callback more, one less;
* `Promise.poll`, `Promise.leave` — the listener asks, and goes away.
-/

namespace HeldReply

/-- **How far** the answer of a promise has come. -/
inductive Promise.Stage where
  /-- Nobody took the right to answer. -/
  | unclaimed
  /-- The right is taken, and the outcome not yet sent. -/
  | claimed (o : Outcome)
  | sent (o : Outcome)
  /-- All callbacks went without an answer. -/
  | broken
  deriving Inhabited

/-- What the **listener** does. -/
inductive Promise.Listener where
  /-- It has not asked yet. -/
  | idle
  /-- It asked too early and waits to be woken. -/
  | waiting
  /-- It has the outcome. -/
  | served
  /-- It went away. -/
  | gone
  deriving DecidableEq, Repr, Inhabited

/-- A **promise** of one outcome. -/
structure Promise where
  stage : Promise.Stage := .unclaimed
  /-- The callbacks alive. -/
  holders : Nat := 1
  listener : Promise.Listener := .idle
  /-- How often the waiting listener was woken. -/
  wakes : Nat := 0
  deriving Inhabited

namespace Promise

/-- The outcome that the listener gets when it asks; `none` as long as it has to wait. -/
def Stage.outcome? : Stage → Option Outcome
  | .sent o => some o
  | .broken => some .unanswered
  | _ => none

/-- Whether the right to answer is **taken**. -/
def isClaimed (p : Promise) : Bool :=
  match p.stage with
  | .claimed _ | .sent _ => true
  | _ => false

/-- Reach a stage that has an outcome, and wake a listener that waits. -/
def settle (p : Promise) (stage : Stage) : Promise :=
  { p with stage, wakes := if p.listener = .waiting then p.wakes + 1 else p.wakes }

/-- **Take the right** to answer; the second component tells whether it was still there. -/
def claim (p : Promise) (o : Outcome) : Promise × Bool :=
  match p.stage with
  | .unclaimed => ({ p with stage := .claimed o }, true)
  | _ => (p, false)

/-- **Send** the outcome of the answer that took the right. -/
def send (p : Promise) : Promise :=
  match p.stage with
  | .claimed o => p.settle (.sent o)
  | _ => p

/-- **Answer**: both steps at once, and whether the answer counts. -/
def deliver (p : Promise) (o : Outcome) : Promise × Bool :=
  let (p, first) := p.claim o
  (p.send, first)

/-- One callback more. -/
def share (p : Promise) : Promise :=
  { p with holders := p.holders + 1 }

/-- One callback less; if it was the last and nobody took the right, the promise is **broken**. -/
def release (p : Promise) : Promise :=
  let p := { p with holders := p.holders - 1 }
  match p.stage with
  | .unclaimed => if p.holders = 0 then p.settle .broken else p
  | _ => p

/-- The listener **asks**: the outcome, or `none` if it has to wait.  After it got the outcome or
went away it does not ask. -/
def poll (p : Promise) : Promise × Option Outcome :=
  match p.stage.outcome? with
  | some o => ({ p with listener := .served }, some o)
  | none => ({ p with listener := .waiting }, none)

/-- Whether there is still a listener that may ask. -/
def isHeard (p : Promise) : Bool :=
  p.listener == .idle || p.listener == .waiting

/-- The listener **goes away**. -/
def leave (p : Promise) : Promise :=
  { p with listener := .gone }

/-- A callback as a diagnostic shows it. -/
def shown (p : Promise) (label : String) : String :=
  "ResultCallback \x7b label: " ++ Text.quoted label
    ++ ", completed: " ++ (if p.isClaimed then "true" else "false") ++ " \x7d"

end Promise

end HeldReply
