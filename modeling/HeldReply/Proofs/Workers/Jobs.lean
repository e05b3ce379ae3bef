import HeldReply.Proofs.Workers.Runs

/-!
# A job that is handed in once runs at most once

A job that was handed in and not refused is queued, with a worker, or over.  A step takes it from one
of these places to the next and never puts it in two of them, also when no job is taken any more.

* `Submission.job`, `Submission.hasSent` — the job of a caller, and whether the caller has queued it;
* `Worker.Stage.holds`, `Worker.Stage.runs` — the workers that have a job, and those that run it;
* `Workers.executions` — how often a job was begun;
* `Workers.Accounted` — **the invariant**: every job that was queued is in one place;
* `Workers.Reachable.executions_le` — **no job is begun more often than it is handed in**.
-/

namespace HeldReply

/-- The **job** that a caller hands in. -/
def Submission.job : Submission → Nat
  | .arrived job | .queued job | .growing job | .keeping job _ | .accepted job | .refused job => job

/-- Whether a caller has queued a job. -/
def Submission.hasSent (job : Nat) : Submission → Bool
  | .arrived _ | .refused _ => false
  | .queued j | .growing j | .keeping j _ | .accepted j => j == job

/-- Whether a worker has a job that is not over. -/
def Worker.Stage.holds (job : Nat) : Worker.Stage → Bool
  | .taken j | .running j => j == job
  | _ => false

/-- Whether a worker runs a job. -/
def Worker.Stage.runs (job : Nat) : Worker.Stage → Bool
  | .running j => j == job
  | _ => false

namespace Workers

open Worker.Stage Submission

variable {w v : Workers} {i job : Nat} {t : Worker}

/-- How often a job was **begun**: it runs, or it is over. -/
def executions (w : Workers) (job : Nat) : Nat :=
  w.countStage (runs job) + w.ended.count job

/-- **Every job that was queued is in one place**: in the queue, with a worker, or over. -/
def Accounted (w : Workers) (job : Nat) : Prop :=
  w.countCalls (hasSent job) =
    w.queue.count job + w.countStage (holds job) + w.ended.count job

/-! ### One step -/

/-- A worker changes what it does, and the job goes with it. -/
theorem Accounted.of_worker {stage : Worker.Stage} (h : w.Accounted job)
    (hi : w.workers[i]? = some t) (hw : v.workers = (w.become i stage).workers)
    (hc : v.submissions = w.submissions)
    (heq : v.queue.count job + (holds job stage).toNat + v.ended.count job =
      w.queue.count job + (holds job t.stage).toNat + w.ended.count job) : v.Accounted job := by
  have hholds := countStage_become (holds job) hi hw
  have hsent : v.countCalls (hasSent job) = w.countCalls (hasSent job) := by
    rw [countCalls, hc, countCalls]
  unfold Accounted at h ⊢
  omega

/-- A caller goes on, and its job is queued if it was not before. -/
theorem Accounted.of_call {b c : Submission} (h : w.Accounted job)
    (hi : w.submissions[i]? = some b) (hc : v.submissions = (w.submission i c).submissions)
    (hw : v.countStage (holds job) = w.countStage (holds job)) (he : v.ended = w.ended)
    (heq : v.queue.count job + (hasSent job b).toNat =
      w.queue.count job + (hasSent job c).toNat) : v.Accounted job := by
  have hsent := countCalls_submission (hasSent job) hi hc
  unfold Accounted at h ⊢
  rw [he]
  omega

/-- **A step keeps every job in one place.** -/
theorem Accounted.moves {es : List JobEvent} (h : w.Accounted job) (hm : Moves w es v) :
    v.Accounted job := by
  cases hm with
  | @send i j hi =>
    refine h.of_call hi rfl rfl rfl ?_
    show (w.queue ++ [j]).count job + 0 = w.queue.count job + (j == job).toNat
    rw [List.count_append, List.count_singleton]
    cases j == job <;> rfl
  | refuse hi | keep hi => exact h.of_call hi rfl rfl rfl rfl
  | count hi =>
    refine h.of_call hi rfl rfl rfl ?_
    split <;> rfl
  | grow hi =>
    exact h.of_call hi rfl (countStage_spawn (v := w.spawn false) (holds job) false rfl) rfl rfl
  | close | fetch | join | leaveJoin => exact h
  | @receive i since j core rest hi hq =>
    -- A job that a worker takes is no longer queued.
    refine h.of_worker hi rfl rfl ?_
    rw [hq, List.count_cons]
    show rest.count job + (j == job).toNat + _ = rest.count job + _ + 0 + _
    cases j == job <;> rfl
  | begin hi | uncount hi | leave hi | expire hi | hangUp hi => exact h.of_worker hi rfl rfl rfl
  | @finish i j core hi =>
    refine h.of_worker hi rfl rfl ?_
    show w.queue.count job + 0 + (w.ended ++ [j]).count job =
      w.queue.count job + (j == job).toNat + w.ended.count job
    rw [List.count_append, List.count_singleton]
    cases j == job
    · rfl
    · show w.queue.count job + 0 + (w.ended.count job + 1) = w.queue.count job + 1 + _
      omega
  | wait hi hs =>
    refine h.of_worker hi rfl rfl ?_
    obtain rfl | rfl := hs <;> rfl
  | decide hi =>
    refine h.of_worker hi rfl rfl ?_
    split <;> rfl

/-! ### A whole run -/

theorem Reachable.accounted {name : String} {core : Nat} (h : Reachable name core w) (job : Nat) :
    w.Accounted job := by
  induction h with
  | start h =>
    refine start_induction (P := fun w => w.Accounted job) h (Eq.refl 0) fun w h => ?_
    show w.countCalls (hasSent job) =
      w.queue.count job + (w.spawn true).countStage (holds job) + w.ended.count job
    rw [countStage_spawn (v := w.spawn true) (holds job) true rfl]
    exact h
  | @submit w _ j ih =>
    unfold Accounted
    rw [countCalls_arrived (hasSent job) rfl]
    exact ih
  | shutdown _ ih => exact ih
  | step _ e hs ih => exact ih.moves (moves_of_step hs)

/-- A worker that runs a job has it. -/
theorem countStage_runs_le (w : Workers) (job : Nat) :
    w.countStage (runs job) ≤ w.countStage (holds job) := by
  refine List.countP_mono_left fun t _ ht => ?_
  cases hs : t.stage <;> simp_all [runs, holds]

/-- No job is queued more often than it is handed in. -/
theorem countCalls_hasSent_le (w : Workers) (job : Nat) :
    w.countCalls (hasSent job) ≤ (w.submissions.map Submission.job).count job := by
  rw [List.count, List.countP_map]
  refine List.countP_mono_left fun c _ hc => ?_
  cases c <;> simp_all [hasSent, Submission.job]

/-- **No job is begun more often than it is handed in.** -/
theorem Reachable.executions_le {name : String} {core : Nat} (h : Reachable name core w)
    (job : Nat) : w.executions job ≤ (w.submissions.map Submission.job).count job := by
  have haccounted : w.countCalls (hasSent job) =
      w.queue.count job + w.countStage (holds job) + w.ended.count job := h.accounted job
  have hruns := countStage_runs_le w job
  have hsent := countCalls_hasSent_le w job
  unfold executions
  omega

end Workers

end HeldReply
