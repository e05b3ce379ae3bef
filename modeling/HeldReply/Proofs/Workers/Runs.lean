import HeldReply.Proofs.Workers.Moves

/-!
# What workers and callers can come to

Callers come at any time, and whoever is there takes steps in any order.  The states that can be
reached so are what every theorem on the workers is about.  Most of them count workers by what they
do and callers by how far they are, and one step changes one worker or one caller.

* `Workers.Reachable`, `Workers.start_induction` — what the workers can come to, and what holds of them
  when they are started;
* `Workers.countStage`, `Workers.countCalls` — how many workers do a thing, and how many callers are
  so far, with a lemma for each way in which one of them changes;
* `Workers.Moves.isOpen` — workers that take no job any more never take one again.
-/

namespace HeldReply.Workers

/-- **What workers can come to** that were started with so many that never leave. -/
inductive Reachable (name : String) (core : Nat) : Workers → Prop
  | start {w : Workers} (h : Workers.start name core = .ok w) : Reachable name core w
  /-- A caller comes with a job. -/
  | submit {w : Workers} (h : Reachable name core w) (job : Nat) :
      Reachable name core { w with submissions := w.submissions ++ [.arrived job] }
  /-- A caller comes who shuts the workers down. -/
  | shutdown {w : Workers} (h : Reachable name core w) :
      Reachable name core { w with shutdowns := w.shutdowns ++ [.arrived] }
  | step {w v : Workers} (h : Reachable name core w) (e : Event) (hs : w.step e = some v) :
      Reachable name core v

variable {w v : Workers} {i : Nat} {t : Worker}

/-- Steps that follow one another. -/
theorem Reachable.steps {name : String} {core : Nat} (h : Reachable name core w) (es : List Event)
    (hs : es.foldlM Workers.step w = some v) : Reachable name core v := by
  induction es generalizing w with
  | nil =>
    cases hs
    exact h
  | cons e es ih =>
    rw [List.foldlM_cons] at hs
    obtain ⟨u, hu, hs⟩ := Option.bind_eq_some_iff.1 hs
    exact ih (h.step e hu) hs

/-- **What goes on holding** when one more worker is started that never leaves, holds when all are. -/
theorem spawnCore_induction {P : Workers → Prop} (h : P w)
    (hmore : ∀ w, P w → P ((w.spawn true).keepHandle w.workers.length)) (n : Nat) :
    P (w.spawnCore n) := by
  induction n generalizing w with
  | zero => exact h
  | succ n ih => exact ih (hmore w h)

/-- **What holds of workers that were started**: it holds when there is none, and goes on holding. -/
theorem start_induction {P : Workers → Prop} {name : String} {core : Nat}
    (h : Workers.start name core = .ok w) (hnone : P { name })
    (hmore : ∀ w, P w → P ((w.spawn true).keepHandle w.workers.length)) : P w := by
  rw [Workers.start] at h
  split at h
  · cases h
  · cases h
    exact spawnCore_induction hnone hmore core

/-! ### Counting -/

/-- How many workers do a thing. -/
def countStage (p : Worker.Stage → Bool) (w : Workers) : Nat :=
  w.workers.countP fun t => p t.stage

/-- How many callers that hand in a job are so far. -/
def countCalls (p : Submission → Bool) (w : Workers) : Nat :=
  w.submissions.countP p

/-- What one entry of a list does to a count. -/
theorem countP_set_add {α : Type} (p : α → Bool) (b : α) {l : List α} {i : Nat} {a : α}
    (h : l[i]? = some a) :
    (l.set i b).countP p + (p a).toNat = l.countP p + (p b).toNat := by
  induction l generalizing i with
  | nil => cases h
  | cons x l ih =>
    cases i with
    | zero =>
      obtain rfl : x = a := Option.some.inj h
      rw [List.set_cons_zero, List.countP_cons, List.countP_cons]
      cases p x <;> cases p b <;> simp
    | succ i =>
      rw [List.set_cons_succ, List.countP_cons, List.countP_cons]
      have := ih h
      omega

/-- One worker changes what it does. -/
theorem countStage_become (p : Worker.Stage → Bool) {stage : Worker.Stage}
    (h : w.workers[i]? = some t) (hv : v.workers = (w.become i stage).workers) :
    v.countStage p + (p t.stage).toNat = w.countStage p + (p stage).toNat := by
  rw [countStage, hv, become, List.modify_eq_set]
  have := countP_set_add (fun t => p t.stage) { t with stage } h
  rwa [h]

/-- One caller goes on. -/
theorem countCalls_submission (p : Submission → Bool) {b c : Submission}
    (h : w.submissions[i]? = some b) (hv : v.submissions = (w.submission i c).submissions) :
    v.countCalls p + (p b).toNat = w.countCalls p + (p c).toNat := by
  rw [countCalls, hv]
  exact countP_set_add p c h

theorem countStage_spawn (p : Worker.Stage → Bool) (core : Bool)
    (hv : v.workers = (w.spawn core).workers) :
    v.countStage p = w.countStage p + (p (.waiting w.moment)).toNat := by
  rw [countStage, hv, spawn, List.countP_append, List.countP_singleton]
  cases p (.waiting w.moment) <;> rfl

/-- A caller comes with a job. -/
theorem countCalls_arrived (p : Submission → Bool) {job : Nat} (hp : p (.arrived job) = false) :
    countCalls p { w with submissions := w.submissions ++ [.arrived job] } = w.countCalls p := by
  rw [countCalls, List.countP_append, List.countP_singleton, hp]
  rfl

/-! ### The end of all jobs -/

/-- **Workers that take no job any more never take one again.** -/
theorem Moves.isOpen {es : List JobEvent} (hm : Moves w es v) (hv : v.closed = false) :
    w.closed = false := by
  cases hm with
  | close => cases hv
  | send | refuse | count | grow | keep | fetch | join | leaveJoin | receive | begin | finish
  | uncount | wait | decide | leave | expire | hangUp => exact hv

end HeldReply.Workers
