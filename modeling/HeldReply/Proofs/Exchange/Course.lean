import HeldReply.Exchange
import HeldReply.Proofs.Session.Others

/-!
# The course of an exchange

In an exchange the task that starts the session, the tasks of the session, the client and others
have their turns at any time and in any order.  The client may read as slowly as it likes and go away
whenever it likes.  The handler and whoever else holds a callback or the scope may do what they are
able to do.  Only the clock waits: it moves when no task can go on, and never beyond a timer.

* `Session.timers` — the timers for which the tasks wait;
* `Exchange.Act`, `Exchange.Course.step` — **the steps of all who take part** in an exchange;
* `Exchange.Course.Reachable` — **what an exchange can come to**.
-/

namespace HeldReply

/-! ### Timers -/

namespace Session

/-- A time that is not beyond the next timer is not beyond any timer to come. -/
theorem le_due_of_nextDue {σ : Type} [Link σ] {s : Session σ} {t : Task} {now due : Nat}
    (h : (s.nextDue s.now).all (fun due => decide (now ≤ due)) = true)
    (ht : t ∈ s.tasks) (hd : s.dueAt t = some due) (hlt : s.now < due) : now ≤ due := by
  have hmem : due ∈ (s.tasks.filterMap s.dueAt).filter (s.now < ·) := by
    simp only [List.mem_filter, decide_eq_true_eq]
    exact ⟨List.mem_filterMap.2 ⟨t, ht, hd⟩, hlt⟩
  cases hm : ((s.tasks.filterMap s.dueAt).filter (s.now < ·)).min? with
  | none =>
    rw [List.min?_eq_none_iff] at hm
    rw [hm] at hmem
    cases hmem
  | some first =>
    have hle : first ≤ due := (List.min?_eq_some_iff.1 hm).2 due hmem
    have hnext : s.nextDue s.now = some first := hm
    rw [hnext, Option.all_some, decide_eq_true_eq] at h
    omega

variable {s : Session Channel} {t : Task} {now due other : Nat}

/-- The **timers** for which the tasks wait. -/
def timers (s : Session Channel) : List Nat :=
  s.tasks.filterMap s.dueAt

/-- Timers that are apart: the beat and the closing do not wait for the same time. -/
theorem due_ne_due (h : s.timers.Nodup) (hb : s.dueAt .beat = some due)
    (hc : s.dueAt .closing = some other) : due ≠ other := by
  have hw : s.dueAt .watcher = none := rfl
  unfold timers tasks at h
  rw [List.filterMap_append, List.nodup_append] at h
  have hrest := h.2.1
  intro he
  -- The closing stands before the other two tasks, or behind them.
  by_cases hfirst : s.closingFirst = true
  · simp [hfirst, hw, hb, hc, he] at hrest
  · simp [hfirst, hw, hb, hc, he] at hrest

end Session

/-! ### All who take part -/

namespace Exchange

/-- What is **done** in an exchange. -/
inductive Act where
  /-- The task that starts the session has its turn. -/
  | start (id : Nat)
  /-- A task of the session has its turn. -/
  | poll (t : Task)
  /-- The clock moves. -/
  | tick (now : Nat)
  /-- The client reads once. -/
  | read
  /-- The body goes away. -/
  | leave
  | other (m : Desk.Move)

/-- **An exchange in its course**, with the disposal from outside that may be going on. -/
structure Course where
  exchange : Exchange
  outside : Outside := .none

namespace Course

/-- Whether the clock may move to a time: no task can go on, and no timer comes before. -/
def mayTick (c : Course) (now : Nat) : Bool :=
  decide (c.exchange.now ≤ now) && !c.exchange.canStart &&
    c.exchange.session?.all fun s => s.isQuiet && (s.nextDue s.now).all fun due => now ≤ due

/-- Whether **no two timers** are due at one time. -/
def isOrderly (c : Course) : Bool :=
  c.exchange.session?.all fun s => decide s.timers.Nodup

/-- **One step**; `none` if it is not possible. -/
def step (c : Course) : Act → Option Course
  | .start id => some { c with exchange := (c.exchange.start id).1 }
  | .poll t => some { c with exchange := (c.exchange.onSession fun s => (s.poll t, ())).1 }
  | .tick now =>
    if c.mayTick now then some { c with exchange := Timed.atTime now c.exchange } else none
  | .read =>
    if c.exchange.channel.hasBody then some { c with exchange := c.exchange.readOnce } else none
  | .leave => some { c with exchange := c.exchange.leave }
  | .other m =>
    match c.exchange.stage with
    | .running s ending =>
      (s.desk.move c.outside m).map fun (desk, outside) =>
        { exchange := { c.exchange with stage := .running { s with desk } ending }, outside }
    | _ => none

/-- **What an exchange can come to** while something always holds. -/
inductive Reachable (start : Course) (always : Course → Prop) : Course → Prop
  | start (ha : always start) : Reachable start always start
  | step {c v : Course} (h : Reachable start always c) (a : Act) (hs : c.step a = some v)
      (ha : always v) : Reachable start always v

variable {c v : Course} {start : Course} {always : Course → Prop}

theorem Reachable.holds (h : Reachable start always c) : always c := by
  cases h with
  | start ha => exact ha
  | step _ _ _ ha => exact ha

/-- Steps that follow one another, as long as something holds. -/
def stepsWhile (always : Course → Prop) [DecidablePred always] (c : Course) (as : List Act) :
    Option Course :=
  as.foldlM (fun (c : Course) a => (c.step a).filter fun v => always v) c

theorem Reachable.stepsWhile [DecidablePred always] (h : Reachable start always c)
    (as : List Act) (hs : c.stepsWhile always as = some v) : Reachable start always v := by
  unfold Course.stepsWhile at hs
  induction as generalizing c with
  | nil =>
    cases hs
    exact h
  | cons a as ih =>
    rw [List.foldlM_cons] at hs
    obtain ⟨u, hu, hs⟩ := Option.bind_eq_some_iff.1 hs
    obtain ⟨hstep, ha⟩ := Option.filter_eq_some_iff.1 hu
    exact ih (h.step a hstep (of_decide_eq_true ha)) hs

end Course

end Exchange

end HeldReply
