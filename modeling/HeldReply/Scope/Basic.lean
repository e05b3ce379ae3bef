import HeldReply.Flag
import HeldReply.Number.Digits
import HeldReply.Text.Quoted

/-!
# Scopes

A scope owns the clean-ups of one session.  It is disposed of once: the flag goes up, the queued
clean-ups are taken and run from last to first, and then the waiters are called.  A clean-up that
comes later is not queued but run at once, by whoever brings it.

* `Scope` — the flag and the queue, for clean-ups of any kind;
* `Scope.isDisposed`, `Scope.pending` — whether the flag is up, and how many clean-ups are queued;
* `Scope.push`, `Scope.begin`, `Scope.announce` — queue a clean-up, start and end a disposal;
* `Scope.name`, `Scope.shown` — the scope in messages and in diagnostics.
-/

namespace HeldReply

/-- A **scope** with clean-ups of type `κ`. -/
structure Scope (κ : Type) where
  id : Nat
  label : String
  /-- Goes up when the disposal starts; the waiters are called when it ends. -/
  flag : Flag := {}
  /-- The clean-ups to be run, in the order in which they came. -/
  queue : List κ := []
  deriving Inhabited

namespace Scope

variable {κ : Type}

/-- Whether the disposal **has started**. -/
def isDisposed (s : Scope κ) : Bool :=
  s.flag.raised

/-- How many clean-ups are queued. -/
def pending (s : Scope κ) : Nat :=
  s.queue.length

/-- Queue a clean-up. -/
def push (s : Scope κ) (c : κ) : Scope κ :=
  { s with queue := s.queue ++ [c] }

/-- Put the flag up; the second component tells whether it was down. -/
def raise (s : Scope κ) : Scope κ × Bool :=
  let (flag, first) := s.flag.raise
  ({ s with flag }, first)

/-- **Take** the queued clean-ups, the last one first. -/
def takeQueue (s : Scope κ) : Scope κ × List κ :=
  ({ s with queue := [] }, s.queue.reverse)

/-- **Start** a disposal: the clean-ups to be run, the last one first; `none` if there was one
already. -/
def begin (s : Scope κ) : Option (Scope κ × List κ) :=
  match s.raise with
  | (s, true) => some s.takeQueue
  | (_, false) => none

/-- **End** a disposal: the waiters are called. -/
def announce (s : Scope κ) : Scope κ :=
  { s with flag := s.flag.call }

/-- The scope in messages. -/
def name (s : Scope κ) : String :=
  s.label ++ "#" ++ Number.decimal s.id

/-- The scope as a diagnostic shows it. -/
def shown (s : Scope κ) : String :=
  "Lifetime \x7b id: " ++ Number.decimal s.id
    ++ ", label: " ++ Text.quoted s.label
    ++ ", disposed: " ++ (if s.isDisposed then "true" else "false") ++ " \x7d"

end Scope

end HeldReply
