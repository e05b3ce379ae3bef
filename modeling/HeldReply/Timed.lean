/-!
# Systems under a clock

At any time the parts of a system take turns until none of them can go on; only then the clock
moves, and it moves to the next timer.

* `Timed` — what a system under a clock is;
* `Timed.settle` — the parts take turns at one time;
* `Timed.advanceUntil`, `Timed.advance` — the clock moves from timer to timer.
-/

namespace HeldReply

/-- A system **under a clock**, which counts milliseconds. -/
class Timed (τ : Type) where
  /-- Set the clock. -/
  atTime : Nat → τ → τ
  /-- Whether no part can go on at this time. -/
  isQuiet : τ → Bool
  /-- Every part that can go on has one turn. -/
  takeTurns : τ → τ
  /-- The next timer after a time, if one is set. -/
  nextDue : Nat → τ → Option Nat

namespace Timed

variable {τ : Type} [Timed τ]

/-- At most so many turns, until no part can go on. -/
def settleFor (s : τ) : Nat → τ
  | 0 => s
  | n + 1 => if isQuiet s then s else settleFor (takeTurns s) n

/-- More turns than the parts need at one time; parts that never wait would never let the clock
move. -/
def turns : Nat := 0x100000000

/-- The parts take turns **until none of them can go on**. -/
def settle (s : τ) : τ :=
  settleFor s turns

/-- **The clock moves** from timer to timer until the system is as wished, but not beyond the
goal. -/
def advanceUntil (wish : τ → Bool) (s : τ) (now goal : Nat) : τ :=
  if wish s then s
  else
    match nextDue now s with
    | none => settle (atTime goal s)
    | some due =>
      if now < due ∧ due ≤ goal then advanceUntil wish (settle (atTime due s)) due goal
      else settle (atTime goal s)
termination_by goal - now

/-- **The clock moves** from timer to timer up to the goal. -/
def advance (s : τ) (now goal : Nat) : τ :=
  advanceUntil (fun _ => false) s now goal

end Timed

end HeldReply
