import HeldReply.Link.Basic

/-!
# Links that follow a plan

A link may do with its writes what it likes: each takes some time, and goes well or fails.  Whatever
it does with writes that come one after another is a plan, and a link that follows a plan also tells
when its writes began and ended.

* `Plan`, `Plan.steady`, `Planned` — a plan, one without surprises, and a link that follows a plan;
* `Plan.beginsAt`, `Plan.endsAt` — when the writes begin and end if there is a rest before each.
-/

namespace HeldReply

/-- A **plan** of writes by number: how long each takes, and the failure in which it ends, if it
does. -/
structure Plan where
  takes : Nat → Nat
  failure? : Nat → Option Failure := fun _ => none

namespace Plan

/-- The plan whose writes all go well, and take the same time. -/
def steady (time : Nat) : Plan where
  takes _ := time

/-- Whether a write goes well. -/
def succeeds (p : Plan) (k : Nat) : Bool :=
  (p.failure? k).isNone

/-- The answer to a write. -/
def reply (p : Plan) (k : Nat) : Reply :=
  match p.failure? k with
  | none => .done
  | some f => .refused f

/-- When a write **begins** if there is a rest before each, and nothing else is waited for. -/
def beginsAt (p : Plan) (rest : Nat) : Nat → Nat
  | 0 => rest
  | k + 1 => p.beginsAt rest k + p.takes k + rest

/-- When a write **ends**. -/
def endsAt (p : Plan) (rest k : Nat) : Nat :=
  p.beginsAt rest k + p.takes k

theorem beginsAt_succ (p : Plan) (rest k : Nat) :
    p.beginsAt rest (k + 1) = p.endsAt rest k + rest :=
  rfl

theorem beginsAt_le_endsAt (p : Plan) (rest k : Nat) : p.beginsAt rest k ≤ p.endsAt rest k :=
  Nat.le_add_right _ _

theorem beginsAt_mono (p : Plan) (rest : Nat) {j k : Nat} (h : j ≤ k) :
    p.beginsAt rest j ≤ p.beginsAt rest k := by
  induction h with
  | refl => exact Nat.le_refl _
  | @step k _ ih =>
    have hend := p.beginsAt_le_endsAt rest k
    show p.beginsAt rest j ≤ p.endsAt rest k + rest
    omega

end Plan

/-- A link that **follows a plan**, one write after another. -/
structure Planned where
  plan : Plan
  /-- When the writes began. -/
  begun : List Nat := []
  /-- When they ended. -/
  ended : List Nat := []

namespace Planned

/-- A write begins. -/
def begin (l : Planned) (now : Nat) : Planned :=
  { l with begun := l.begun ++ [now] }

/-- A write ends. -/
def land (l : Planned) (now : Nat) : Planned :=
  { l with ended := l.ended ++ [now] }

/-- Start a write; one that takes no time ends at once. -/
def startWrite (l : Planned) (now : Nat) : Planned × Started :=
  let k := l.begun.length
  if l.plan.takes k = 0 then ((l.begin now).land now, .answered (l.plan.reply k))
  else (l.begin now, .inFlight k)

/-- When a write in flight is over. -/
def due? (l : Planned) (k : Nat) : Option Nat :=
  if k = l.ended.length then l.begun[k]?.map (· + l.plan.takes k) else none

/-- Start a call; to end the reply takes no time. -/
def start (now : Nat) (call : Call) (l : Planned) : Planned × Started :=
  match call with
  | .write _ => l.startWrite now
  | .finish => (l, .answered .done)

/-- Ask for a write. -/
def poll (now k : Nat) (l : Planned) : Planned × Option Reply :=
  if (l.due? k).any (· ≤ now) then (l.land now, some (l.plan.reply k)) else (l, none)

instance : Link Planned where
  start := start
  poll := poll
  isReady now k l := (l.due? k).any (· ≤ now)
  dueAt k l := l.due? k
  close _ l := (l, none)
  isClosed _ := false
  tellsClosed _ := false

end Planned

end HeldReply
