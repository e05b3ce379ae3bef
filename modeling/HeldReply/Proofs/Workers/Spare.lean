import HeldReply.Proofs.Workers.Runs
import Mathlib.Tactic.Set

/-!
# Enough workers wait for the jobs in the queue

One counter stands for two things that change at other moments than it does: the workers that wait
and the jobs that are queued.  Whoever is in the middle of a step owes it a change.  With what is
owed the counter is always right, and it is never further below zero than callers and workers are
about to make good.  So when nobody is in the middle of a step, the workers that wait are at least as
many as the jobs in the queue, however many jobs never end.

* `Worker.Stage.isCredited`, `isWaiting`, `isExpired`, `isStaying` there, `Submission.isQueued`,
  `Submission.isGrowing` — who is counted, and who owes the counter a change;
* `Workers.Balanced` — **the invariant**: the counter is right but for what is owed;
* `Workers.Balanced.moves`, `Workers.Reachable.balanced` — a step and a run keep it;
* `Workers.enough_wait` — **enough workers wait**.
-/

namespace HeldReply

/-- Whether a worker is counted as spare. -/
def Worker.Stage.isCredited : Worker.Stage → Bool
  | .waiting _ | .expired => true
  | _ => false

/-- Whether a worker waits for a job. -/
def Worker.Stage.isWaiting : Worker.Stage → Bool
  | .waiting _ => true
  | _ => false

/-- Whether a worker waited in vain and is still counted. -/
def Worker.Stage.isExpired : Worker.Stage → Bool
  | .expired => true
  | _ => false

/-- Whether a worker stays, and is still to be counted again. -/
def Worker.Stage.isStaying : Worker.Stage → Bool
  | .staying => true
  | _ => false

/-- Whether a caller has queued its job, and the counter is still to be lowered. -/
def Submission.isQueued : Submission → Bool
  | .queued _ => true
  | _ => false

/-- Whether a caller is about to start one more worker. -/
def Submission.isGrowing : Submission → Bool
  | .growing _ => true
  | _ => false

namespace Workers

open Worker.Stage Submission

variable {w v : Workers} {i : Nat}

/-- **The counter is right**, but for what callers and workers still owe it. -/
structure Balanced (w : Workers) : Prop where
  /-- The workers counted, less the jobs queued, and the jobs for which it was not lowered yet. -/
  spare_eq : w.spare = w.countStage isCredited - w.queue.length + w.countCalls isQueued
  /-- For whatever is missing someone comes. -/
  covered : 0 ≤ w.spare + w.countCalls isGrowing + w.countStage isStaying

/-! ### One step -/

/-- A worker changes what it does, and with it what it is counted for and what it owes. -/
theorem Balanced.of_worker {t : Worker} {stage : Worker.Stage} (h : Balanced w)
    (hi : w.workers[i]? = some t) (hw : v.workers = (w.become i stage).workers)
    (hc : v.submissions = w.submissions)
    (heq : v.spare + v.queue.length + (isCredited t.stage).toNat =
      w.spare + w.queue.length + (isCredited stage).toNat)
    (hle : w.spare + (isStaying t.stage).toNat ≤ v.spare + (isStaying stage).toNat ∨
      0 ≤ v.spare) : Balanced v := by
  have hcredited := countStage_become isCredited hi hw
  have hstaying := countStage_become isStaying hi hw
  have hqueued : v.countCalls isQueued = w.countCalls isQueued := by rw [countCalls, hc, countCalls]
  have hgrowing : v.countCalls isGrowing = w.countCalls isGrowing := by
    rw [countCalls, hc, countCalls]
  have hs := h.spare_eq
  have hz := h.covered
  constructor
  · omega
  · rw [hgrowing]
    rcases hle with hle | hle <;> omega

/-- A caller goes on, and with it what it owes. -/
theorem Balanced.of_call {b c : Submission} (h : Balanced w) (hi : w.submissions[i]? = some b)
    (hc : v.submissions = (w.submission i c).submissions) (hw : v.workers = w.workers)
    (heq : v.spare + v.queue.length + (isQueued b).toNat =
      w.spare + w.queue.length + (isQueued c).toNat)
    (hle : w.spare + (isGrowing b).toNat ≤ v.spare + (isGrowing c).toNat ∨ 0 ≤ v.spare) :
    Balanced v := by
  have hqueued := countCalls_submission isQueued hi hc
  have hgrowing := countCalls_submission isGrowing hi hc
  have hcredited : v.countStage isCredited = w.countStage isCredited := by
    rw [countStage, hw, countStage]
  have hstaying : v.countStage isStaying = w.countStage isStaying := by
    rw [countStage, hw, countStage]
  have hs := h.spare_eq
  have hz := h.covered
  constructor
  · omega
  · rw [hstaying]
    rcases hle with hle | hle <;> omega

/-- **A step keeps the balance** as long as jobs are taken.  A caller that finds no spare worker owes
one from then on, until it has started it; and a worker that is to stay although it waited in vain owes
itself, until it is counted again. -/
theorem Balanced.moves {es : List JobEvent} (h : Balanced w) (hm : Moves w es v)
    (hv : v.closed = false) : Balanced v := by
  cases hm with
  | @send i job hi =>
    refine h.of_call hi rfl rfl ?_ (.inl (Int.le_refl _))
    show w.spare + ((w.queue ++ [job]).length : Int) + 0 = w.spare + w.queue.length + 1
    rw [List.length_append, List.length_singleton]
    omega
  | refuse hi | keep hi => exact h.of_call hi rfl rfl rfl (.inl (Int.le_refl _))
  | count hi =>
    -- Nobody was spare, and the caller owes a worker, or the counter does not fall below zero.
    split
    · refine h.of_call hi rfl rfl ?_ (.inl ?_)
      · show w.spare - 1 + (w.queue.length : Int) + 1 = w.spare + w.queue.length + 0
        omega
      · show w.spare + 0 ≤ w.spare - 1 + 1
        omega
    · refine h.of_call hi rfl rfl ?_ (.inr ?_)
      · show w.spare - 1 + (w.queue.length : Int) + 1 = w.spare + w.queue.length + 0
        omega
      · show 0 ≤ w.spare - 1
        omega
  | @grow i job hi =>
    set v := (w.spawn false).submission i (.keeping job w.workers.length)
    have hcredited := countStage_spawn (v := v) isCredited false rfl
    have hstaying := countStage_spawn (v := v) isStaying false rfl
    have hqueued := countCalls_submission (v := v) isQueued hi rfl
    have hgrowing := countCalls_submission (v := v) isGrowing hi rfl
    simp only [isCredited, isStaying, isQueued, isGrowing, Bool.toNat_true, Bool.toNat_false]
      at hcredited hstaying hqueued hgrowing
    have hspare : v.spare = w.spare + 1 := rfl
    have hqueue : v.queue = w.queue := rfl
    have hs := h.spare_eq
    have hz := h.covered
    constructor
    · rw [hqueue]
      omega
    · omega
  | close => cases hv
  | fetch | join | leaveJoin => exact ⟨h.spare_eq, h.covered⟩
  | @receive i since job core rest hi hq =>
    -- The worker is no longer counted, and the job no longer queued.
    refine h.of_worker hi rfl rfl ?_ (.inl (Int.le_refl _))
    rw [hq]
    show w.spare + (rest.length : Int) + 1 = w.spare + ((job :: rest).length : Int) + 0
    rw [List.length_cons]
    omega
  | begin hi | finish hi | uncount hi | leave hi | expire hi =>
    exact h.of_worker hi rfl rfl rfl (.inl (Int.le_refl _))
  | wait hi hs =>
    obtain rfl | rfl := hs
    · refine h.of_worker hi rfl rfl ?_ (.inl ?_)
      · show w.spare + 1 + (w.queue.length : Int) + 0 = w.spare + w.queue.length + 1
        omega
      · show w.spare + 0 ≤ w.spare + 1 + 0
        omega
    · refine h.of_worker hi rfl rfl ?_ (.inl ?_)
      · show w.spare + 1 + (w.queue.length : Int) + 0 = w.spare + w.queue.length + 1
        omega
      · show w.spare + 1 ≤ w.spare + 1 + 0
        omega
  | decide hi =>
    -- The worker leaves only if the counter does not fall below zero; else it owes itself.
    split
    · refine h.of_worker hi rfl rfl ?_ (.inr ?_)
      · show w.spare - 1 + (w.queue.length : Int) + 1 = w.spare + w.queue.length + 0
        omega
      · show 0 ≤ w.spare - 1
        omega
    · refine h.of_worker hi rfl rfl ?_ (.inl ?_)
      · show w.spare - 1 + (w.queue.length : Int) + 1 = w.spare + w.queue.length + 0
        omega
      · show w.spare + 0 ≤ w.spare - 1 + 1
        omega
  | hangUp _ _ hc => cases hc.symm.trans hv

/-! ### A whole run -/

/-- Workers with no jobs and no callers wait one and all. -/
theorem balanced_start {name : String} {core : Nat} (h : Workers.start name core = .ok w) :
    Balanced w := by
  refine start_induction h ⟨rfl, Int.le_refl _⟩ fun w h => ?_
  have hcredited := countStage_spawn (v := w.spawn true) isCredited true rfl
  have hstaying := countStage_spawn (v := w.spawn true) isStaying true rfl
  simp only [isCredited, isStaying, Bool.toNat_true, Bool.toNat_false] at hcredited hstaying
  have hs := h.spare_eq
  have hz := h.covered
  constructor
  · show w.spare + 1 =
      ((w.spawn true).countStage isCredited : Int) - w.queue.length + w.countCalls isQueued
    omega
  · show 0 ≤ w.spare + 1 + (w.countCalls isGrowing : Int) + (w.spawn true).countStage isStaying
    omega

/-- **The balance holds in every run** until no job is taken any more. -/
theorem Reachable.balanced {name : String} {core : Nat} (h : Reachable name core w)
    (hw : w.closed = false) : Balanced w := by
  induction h with
  | start h => exact balanced_start h
  | @submit w _ job ih =>
    have hb := ih hw
    constructor
    · rw [countCalls_arrived isQueued rfl]
      exact hb.spare_eq
    · rw [countCalls_arrived isGrowing rfl]
      exact hb.covered
  | shutdown _ ih => exact ⟨(ih hw).spare_eq, (ih hw).covered⟩
  | step _ e hs ih => exact (ih ((moves_of_step hs).isOpen hw)).moves (moves_of_step hs) hw

/-- Workers that are counted wait, or waited in vain. -/
theorem countStage_isCredited (w : Workers) :
    w.countStage isCredited = w.countStage isWaiting + w.countStage isExpired := by
  unfold countStage
  induction w.workers with
  | nil => rfl
  | cons t ts ih =>
    rw [List.countP_cons, List.countP_cons, List.countP_cons, ih]
    cases t.stage <;> simp [isCredited, isWaiting, isExpired] <;> omega

/-- **Enough workers wait.**  In every state that workers and callers can come to while jobs are
taken, the counter is the number of workers counted as waiting, less the jobs queued, and the jobs
for which it was not lowered yet; with the callers about to start a worker and the workers about to
be counted again it is never below zero.  So when nobody is in the middle of such a step, at least as
many workers wait as jobs are queued. -/
theorem enough_wait (name : String) (core : Nat) (w : Workers) (h : Reachable name core w)
    (hw : w.closed = false) :
    w.spare = w.countStage isCredited - w.queue.length + w.countCalls isQueued ∧
    0 ≤ w.spare + w.countCalls isGrowing + w.countStage isStaying ∧
    (w.countCalls isQueued = 0 → w.countCalls isGrowing = 0 → w.countStage isExpired = 0 →
      w.countStage isStaying = 0 → w.queue.length ≤ w.countStage isWaiting) := by
  obtain ⟨hspare, hcovered⟩ := h.balanced hw
  refine ⟨hspare, hcovered, fun hq hg he hs => ?_⟩
  have hcredited := countStage_isCredited w
  omega

/-- The only worker there was is held up by a job, and another one waits for the next. -/
theorem enough_wait_beside_blocked_job :
    ∃ w : Workers, Reachable "jobs" 1 w ∧ w.workers = [⟨true, .running 7⟩, ⟨false, .waiting 1⟩] ∧
      w.queue = [8] ∧ w.queue.length ≤ w.countStage isWaiting := by
  let first : Workers := ({ name := "jobs" } : Workers).spawnCore 1
  let second : Workers := { first with
    spare := 0, active := 1, moment := 1, submissions := [.accepted 7, .arrived 8]
    workers := [⟨true, .running 7⟩] }
  let third : Workers := { second with
    live := 2, moment := 2, handles := [0, 1], queue := [8]
    submissions := [.accepted 7, .accepted 8]
    workers := [⟨true, .running 7⟩, ⟨false, .waiting 1⟩] }
  have hfirst : Reachable "jobs" 1 first := .start rfl
  have hsecond : Reachable "jobs" 1 second := by
    refine Reachable.submit (w := { second with submissions := [.accepted 7] }) ?_ 8
    exact (hfirst.submit 7).steps [.submit 0, .receive 0, .proceed 0, .submit 0] rfl
  have hthird : Reachable "jobs" 1 third :=
    hsecond.steps [.submit 1, .submit 1, .submit 1, .submit 1] rfl
  obtain ⟨-, -, hwait⟩ := enough_wait "jobs" 1 third hthird rfl
  exact ⟨third, hthird, rfl, rfl, hwait rfl rfl rfl rfl⟩

end Workers

end HeldReply
