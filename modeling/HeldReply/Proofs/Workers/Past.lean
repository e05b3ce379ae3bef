import HeldReply.Proofs.Workers.Jobs
import HeldReply.Proofs.Workers.Staff

/-!
# What becomes of the jobs

Jobs return, or they crash.  Whatever callers and workers do, and however many crash, each job that
was queued is begun once by one worker and ends there, and a job that was refused is never begun.
When no worker can take a step any more, no job is left.

* `Workers.begun`, `Workers.finished` — the jobs that were begun, and those that ended;
* `Workers.Past` — **what workers can come to** with jobs that return or crash, with all beginnings
  and ends;
* `Workers.sent`, `Workers.held` — the jobs that were queued, and those with a worker;
* `Workers.crash_eq`, `Workers.waits_after_crash` — **what a crash does**;
* `Workers.Past.begun_eq`, `Workers.Past.finished_eq` — every job that runs or is over was begun, and
  every job that is over ended;
* `Workers.atRest`, `Workers.Staffed.queue_eq_nil` — workers of whom **none can take a step**, and
  that they left no job in the queue;
* `Workers.Past.jobs_run_once` — **what becomes of each job**.
-/

namespace HeldReply

/-- The **job** of a worker that is not over. -/
def Worker.Stage.job? : Worker.Stage → Option Nat
  | .taken job | .running job => some job
  | _ => none

/-- Whether a worker has a job that is not over. -/
def Worker.Stage.hasJob (stage : Worker.Stage) : Bool :=
  stage.job?.isSome

/-- Whether a worker is about to **count** its job as running, or to take that back. -/
def Worker.Stage.isUpdating : Worker.Stage → Bool
  | .taken _ | .ended _ => true
  | _ => false

/-- The **job** that a caller has queued. -/
def Submission.sent? : Submission → Option Nat
  | .arrived _ | .refused _ => none
  | .queued job | .growing job | .keeping job _ | .accepted job => some job

namespace Workers

open Worker.Stage Submission

variable {w v : Workers} {i job : Nat} {t : Worker} {name : String} {core : Nat}
  {log es : List JobEvent}

/-- The job that an event tells the beginning of. -/
def JobEvent.begun? : JobEvent → Option Nat
  | .began _ job => some job
  | _ => none

/-- The job that an event tells the end of. -/
def JobEvent.finished? : JobEvent → Option Nat
  | .returned _ job | .crashed _ job _ => some job
  | .began _ _ => none

/-- The jobs that were **begun**, in order. -/
def begun (log : List JobEvent) : List Nat :=
  log.filterMap JobEvent.begun?

/-- The jobs that **ended**, in order. -/
def finished (log : List JobEvent) : List Nat :=
  log.filterMap JobEvent.finished?

/-- The jobs that were **queued**, by caller. -/
def sent (w : Workers) : List Nat :=
  w.submissions.filterMap Submission.sent?

/-- The jobs **with a worker** that are not over. -/
def held (w : Workers) : List Nat :=
  w.workers.filterMap fun t => t.stage.job?

/-- Whether **no worker can take a step**. -/
def atRest (w : Workers) : Bool :=
  (List.range w.workers.length).all fun i =>
    [.receive i, .expire i, .hangUp i, .proceed i].all fun e => (w.step e).isNone

/-- **What workers can come to** with jobs that return or crash, and the beginnings and ends of jobs
on the way. -/
inductive Past (name : String) (core : Nat) : Workers → List JobEvent → Prop
  | start {w : Workers} (h : Workers.start name core = .ok w) : Past name core w []
  /-- A caller comes with a job. -/
  | submit {w : Workers} {log : List JobEvent} (h : Past name core w log) (job : Nat) :
      Past name core { w with submissions := w.submissions ++ [.arrived job] } log
  /-- A caller comes who shuts the workers down. -/
  | shutdown {w : Workers} {log : List JobEvent} (h : Past name core w log) :
      Past name core { w with shutdowns := w.shutdowns ++ [.arrived] } log
  | step {w v : Workers} {log : List JobEvent} (h : Past name core w log) (e : Event)
      (hs : w.step e = some v) : Past name core v (log ++ w.tells e)
  /-- The job of a worker crashes. -/
  | crash {w v : Workers} {log : List JobEvent} (h : Past name core w log) {i job : Nat}
      {core' : Bool} (hi : w.workers[i]? = some ⟨core', .running job⟩) (c : Crash)
      (hs : w.crash i = some v) : Past name core v (log ++ [.crashed i job c])

/-- One step with what it tells. -/
def stepTelling (p : Workers × List JobEvent) (e : Event) : Option (Workers × List JobEvent) :=
  (p.1.step e).map fun v => (v, p.2 ++ p.1.tells e)

/-- Steps that follow one another, with what they tell. -/
theorem Past.steps {log' : List JobEvent} (h : Past name core w log) (events : List Event)
    (hs : events.foldlM stepTelling (w, log) = some (v, log')) : Past name core v log' := by
  induction events generalizing w log with
  | nil =>
    cases hs
    exact h
  | cons e events ih =>
    rw [List.foldlM_cons] at hs
    obtain ⟨p, hp, hs⟩ := Option.bind_eq_some_iff.1 hs
    obtain ⟨u, hu, rfl⟩ := Option.map_eq_some_iff.1 hp
    exact ih (h.step e hu) hs

/-! ### A job that crashes -/

/-- A crash leaves the workers **as a return does**. -/
theorem crash_eq {core' : Bool} (hi : w.workers[i]? = some ⟨core', .running job⟩) :
    w.crash i = w.step (.proceed i) := by
  rw [crash, step, hi]
  rfl

/-- So crashes bring the workers nowhere else. -/
theorem Past.reachable (h : Past name core w log) : Reachable name core w := by
  induction h with
  | start h => exact .start h
  | submit _ job ih => exact ih.submit job
  | shutdown _ ih => exact ih.shutdown
  | step _ e hs ih => exact ih.step e hs
  | crash _ hi c hs ih =>
    rw [crash_eq hi] at hs
    exact ih.step _ hs

/-- What a worker does is what it was last told to do. -/
theorem getElem?_become (stage : Worker.Stage) (hi : w.workers[i]? = some t) :
    (w.become i stage).workers[i]? = some { t with stage } := by
  rw [become, List.getElem?_modify_eq, hi]
  rfl

/-- What a worker does last counts. -/
theorem modify_modify (ts : List Worker) (i : Nat) (stage stage' : Worker.Stage) :
    ((ts.modify i fun t => { t with stage }).modify i fun t => { t with stage := stage' }) =
      ts.modify i fun t => { t with stage := stage' } := by
  rw [List.modify_modify_eq]
  rfl

/-- **The worker of a job that crashed** waits for the next one after two more of its own steps, and
nobody else is touched. -/
theorem waits_after_crash {core' : Bool} (hi : w.workers[i]? = some ⟨core', .running job⟩) :
    ∃ v, w.crash i = some v ∧ [Event.proceed i, .proceed i].foldlM step v = some { w with
      ended := w.ended ++ [job]
      active := w.active - 1
      spare := w.spare + 1
      moment := w.moment + 1
      workers := w.workers.modify i fun t => { t with stage := .waiting w.moment } } := by
  have hcrash : w.crash i = some ({ w with ended := w.ended ++ [job] }.become i (.ended job)) := by
    rw [crash, hi]
  refine ⟨_, hcrash, ?_⟩
  have hended : ({ w with ended := w.ended ++ [job] }.become i (.ended job)).workers[i]? =
      some ⟨core', .ended job⟩ :=
    getElem?_become (w := { w with ended := w.ended ++ [job] }) _ hi
  have hfirst : ({ w with ended := w.ended ++ [job] }.become i (.ended job)).step (.proceed i) =
      some ({ w with ended := w.ended ++ [job], active := w.active - 1 }.become i .idle) := by
    rw [step, hended]
    show some _ = some _
    simp only [become, modify_modify]
  have hidle : ({ w with ended := w.ended ++ [job], active := w.active - 1 }.become i
      .idle).workers[i]? = some ⟨core', .idle⟩ :=
    getElem?_become (w := { w with ended := w.ended ++ [job], active := w.active - 1 }) _ hi
  have hsecond :
      ({ w with ended := w.ended ++ [job], active := w.active - 1 }.become i .idle).step
        (.proceed i) = some { w with
          ended := w.ended ++ [job]
          active := w.active - 1
          spare := w.spare + 1
          moment := w.moment + 1
          workers := w.workers.modify i fun t => { t with stage := .waiting w.moment } } := by
    rw [step, hidle]
    show some _ = some _
    simp only [Workers.wait, become, modify_modify]
  rw [List.foldlM_cons, hfirst]
  show List.foldlM step _ [Event.proceed i] = _
  rw [List.foldlM_cons, hsecond]
  rfl

/-! ### What was begun, and what ended -/

/-- **What a step begins and ends** is what it tells. -/
structure Follows (w v : Workers) (es : List JobEvent) (job : Nat) : Prop where
  begun_eq : v.executions job = w.executions job + (begun es).count job
  finished_eq : v.ended.count job = w.ended.count job + (finished es).count job

/-- A worker changes what it does. -/
theorem Follows.of_worker {stage : Worker.Stage} (hi : w.workers[i]? = some t)
    (hw : v.workers = (w.become i stage).workers)
    (hruns : (runs job stage).toNat + (finished es).count job =
      (runs job t.stage).toNat + (begun es).count job)
    (he : v.ended.count job = w.ended.count job + (finished es).count job) :
    Follows w v es job := by
  have hcount := countStage_become (runs job) hi hw
  constructor
  · rw [executions, executions]
    omega
  · exact he

/-- Callers go on, and no worker does. -/
theorem Follows.of_call (hw : v.countStage (runs job) = w.countStage (runs job))
    (he : v.ended = w.ended) : Follows w v [] job := by
  constructor
  · rw [executions, executions, hw, he]
    rfl
  · rw [he]
    rfl

theorem count_singleton (j job : Nat) : [j].count job = (j == job).toNat := by
  rw [List.count_singleton]
  cases j == job <;> rfl

/-- **Every step begins and ends what it tells.** -/
theorem Moves.follows (hm : Moves w es v) (job : Nat) : Follows w v es job := by
  cases hm with
  | send | refuse | count | keep | close | fetch | join | leaveJoin => exact .of_call rfl rfl
  | grow => exact .of_call (countStage_spawn (v := w.spawn false) (runs job) false rfl) rfl
  | receive hi | uncount hi | leave hi | expire hi | hangUp hi => exact .of_worker hi rfl rfl rfl
  | @begin i j core hi =>
    refine .of_worker hi rfl ?_ rfl
    show (j == job).toNat + 0 = 0 + [j].count job
    rw [count_singleton]
    omega
  | @finish i j core hi =>
    refine .of_worker hi rfl ?_ ?_
    · show 0 + [j].count job = (j == job).toNat + 0
      rw [count_singleton]
      omega
    · show (w.ended ++ [j]).count job = w.ended.count job + [j].count job
      rw [List.count_append]
  | wait hi hs =>
    refine .of_worker hi rfl ?_ rfl
    obtain rfl | rfl := hs <;> rfl
  | decide hi =>
    refine .of_worker hi rfl ?_ rfl
    split <;> rfl

theorem begun_append (log es : List JobEvent) : begun (log ++ es) = begun log ++ begun es := by
  rw [begun, List.filterMap_append]
  rfl

theorem finished_append (log es : List JobEvent) :
    finished (log ++ es) = finished log ++ finished es := by
  rw [finished, List.filterMap_append]
  rfl

/-- What was begun and what ended is carried on by a step. -/
theorem Follows.append (h : Follows w v es job)
    (hb : (begun log).count job = w.executions job)
    (hf : (finished log).count job = w.ended.count job) :
    (begun (log ++ es)).count job = v.executions job ∧
      (finished (log ++ es)).count job = v.ended.count job := by
  rw [begun_append, List.count_append, finished_append, List.count_append, hb, hf]
  exact ⟨h.begun_eq.symm, h.finished_eq.symm⟩

/-- **All that was begun runs or is over, and all that ended is over.** -/
theorem Past.told (h : Past name core w log) (job : Nat) :
    (begun log).count job = w.executions job ∧
      (finished log).count job = w.ended.count job := by
  induction h with
  | start h =>
    refine start_induction (P := fun w => 0 = w.executions job ∧ 0 = w.ended.count job) h
      ⟨rfl, rfl⟩ fun w h => ⟨?_, h.2⟩
    show 0 = (w.spawn true).countStage (runs job) + w.ended.count job
    rw [countStage_spawn (v := w.spawn true) (runs job) true rfl]
    exact h.1
  | submit _ _ ih => exact ih
  | shutdown _ ih => exact ih
  | step _ e hs ih => exact ((moves_of_step hs).follows job).append ih.1 ih.2
  | @crash w v log _ i j core' hi c hs ih =>
    -- A crash leaves the workers as a return does, and ends the same job.
    have hreturn : Follows w v [.returned i j] job := by
      rw [Workers.crash, hi] at hs
      cases hs
      exact (Moves.finish hi).follows job
    have hcrash : Follows w v [.crashed i j c] job :=
      ⟨hreturn.begun_eq, hreturn.finished_eq⟩
    exact hcrash.append ih.1 ih.2

/-! ### Where the jobs are -/

theorem count_sent (w : Workers) (job : Nat) : w.sent.count job = w.countCalls (hasSent job) := by
  rw [sent, List.count_filterMap, countCalls]
  refine List.countP_congr fun c _ => ?_
  cases c <;> simp [sent?, hasSent]

theorem count_held (w : Workers) (job : Nat) : w.held.count job = w.countStage (holds job) := by
  rw [held, List.count_filterMap, countStage]
  refine List.countP_congr fun t _ => ?_
  cases hs : t.stage <;> simp [job?, holds]

/-- **The jobs that were queued** are those in the queue, with a worker, or over. -/
theorem Reachable.sent_perm (h : Reachable name core w) :
    w.sent.Perm (w.queue ++ w.held ++ w.ended) := by
  refine List.perm_iff_count.2 fun job => ?_
  rw [List.count_append, List.count_append, count_sent, count_held]
  exact h.accounted job

/-- A job that was begun was queued. -/
theorem executions_le_sent (h : Reachable name core w) (job : Nat) :
    w.executions job ≤ w.sent.count job := by
  have haccounted : w.countCalls (hasSent job) =
      w.queue.count job + w.countStage (holds job) + w.ended.count job := h.accounted job
  have hruns := countStage_runs_le w job
  rw [count_sent, executions]
  omega

/-! ### Workers at rest -/

/-- No worker at rest can take a step. -/
theorem step_of_atRest (h : w.atRest = true) (hi : w.workers[i]? = some t) {e : Event}
    (he : e ∈ [.receive i, .expire i, .hangUp i, .proceed i]) : w.step e = none := by
  have hlt : i < w.workers.length := (List.getElem?_eq_some_iff.1 hi).1
  exact Option.isNone_iff_eq_none.1
    (List.all_eq_true.1 (List.all_eq_true.1 h i (List.mem_range.2 hlt)) e he)

/-- A worker at rest waits for a job, or has left. -/
theorem waiting_or_gone_of_atRest (h : w.atRest = true) (hi : w.workers[i]? = some t) :
    (∃ since, t.stage = .waiting since) ∨ t.stage = .gone := by
  have hproceed : w.step (.proceed i) = none := step_of_atRest h hi (by simp)
  rw [step, hi] at hproceed
  obtain ⟨core, stage⟩ := t
  cases stage with
  | waiting since => exact .inl ⟨since, rfl⟩
  | gone => exact .inr rfl
  | taken | running | ended | idle | expired | staying | leaving => cases hproceed

/-- A worker that waits leaves no job in the queue. -/
theorem queue_eq_nil_of_waiting {core' : Bool} {since : Nat} (h : w.atRest = true)
    (hi : w.workers[i]? = some ⟨core', .waiting since⟩) : w.queue = [] := by
  have hreceive : w.step (.receive i) = none := step_of_atRest h hi (by simp)
  rw [step, hi] at hreceive
  cases hq : w.queue with
  | nil => rfl
  | cons job rest =>
    simp [stepReceive, hq] at hreceive

/-- **Workers at rest left no job in the queue**: one of those that stay is there to take it. -/
theorem Staffed.queue_eq_nil (h : Staffed w) (hr : w.atRest = true) : w.queue = [] := by
  obtain ⟨t, ht, hcore⟩ := h.hasCore
  obtain ⟨i, hi⟩ := List.mem_iff_getElem?.1 ht
  obtain ⟨since, hs⟩ | hs := waiting_or_gone_of_atRest hr hi
  · obtain ⟨core', stage⟩ := t
    cases hs
    exact queue_eq_nil_of_waiting hr hi
  · have hleaving : t.stage.isLeaving = true := by
      rw [hs]
      rfl
    exact (h.last t ht hcore hleaving).2

/-- **Workers at rest have no job.** -/
theorem held_eq_nil (hr : w.atRest = true) : w.held = [] := by
  refine List.filterMap_eq_nil_iff.2 fun t ht => ?_
  obtain ⟨i, hi⟩ := List.mem_iff_getElem?.1 ht
  obtain ⟨since, hs⟩ | hs := waiting_or_gone_of_atRest hr hi
  · rw [hs]
    rfl
  · rw [hs]
    rfl

/-! ### What becomes of each job -/

/-- A job of which every caller was refused was not queued. -/
theorem count_sent_of_refused (h : ∀ c ∈ w.submissions, c.job = job → c = .refused job) :
    w.sent.count job = 0 := by
  rw [count_sent, countCalls, List.countP_eq_zero]
  intro c hc hsent
  have hjob : c.job = job := by
    cases c with
    | arrived | refused => cases hsent
    | queued j | growing j | keeping j _ | accepted j => exact eq_of_beq hsent
  rw [h c hc hjob] at hsent
  cases hsent

/-- No job is queued more often than it is handed in. -/
theorem count_sent_le (job : Nat) :
    w.sent.count job ≤ (w.submissions.map Submission.job).count job := by
  rw [count_sent]
  exact countCalls_hasSent_le w job

/-- A job that one caller handed in, and that was taken, was queued once. -/
theorem count_sent_of_accepted (hone : (w.submissions.map Submission.job).count job = 1)
    (ha : .accepted job ∈ w.submissions) : w.sent.count job = 1 := by
  have hle := count_sent_le (w := w) job
  rw [count_sent, countCalls] at hle ⊢
  have hpos : 0 < w.submissions.countP (hasSent job) :=
    List.countP_pos_iff.2 ⟨_, ha, beq_self_eq_true job⟩
  omega

/-- When nobody is about to count, the jobs counted as running are those with a worker. -/
theorem countStage_hasJob (h : w.countStage isUpdating = 0) :
    w.countStage isCounted = w.countStage hasJob := by
  refine List.countP_congr fun t ht => ?_
  have hnot := List.countP_eq_zero.1 h t ht
  cases hs : t.stage <;> simp_all [isUpdating, isCounted, hasJob, job?]

/-- **What becomes of each job.**  No job is begun more often than it was queued, so one that is
handed in once is begun at most once and by one worker.  A job that was refused is not begun.  The
jobs that were queued are those in the queue, with a worker, or over, and those that are over are
those that ended.  The jobs counted as running are those with a worker, but for the workers that are
about to count.  A job that crashes leaves everything as one that returns, and its worker waits for
the next one.  When no worker can take a step, no job is in the queue, and every job that was taken
was begun once and ended once. -/
theorem Past.jobs_run_once (h : Past name core w log) :
    (∀ job, (begun log).count job ≤ w.sent.count job ∧
      w.sent.count job ≤ (w.submissions.map Submission.job).count job) ∧
    (∀ job, (∀ c ∈ w.submissions, c.job = job → c = .refused job) → job ∉ begun log) ∧
    (w.sent.Perm (w.queue ++ w.held ++ w.ended) ∧ (finished log).Perm w.ended) ∧
    (w.countStage isUpdating = 0 → w.active = w.countStage hasJob) ∧
    (∀ i job core', w.workers[i]? = some ⟨core', .running job⟩ →
      w.crash i = w.step (.proceed i) ∧
      ∃ v, w.crash i = some v ∧ [Event.proceed i, .proceed i].foldlM Workers.step v = some { w with
        ended := w.ended ++ [job]
        active := w.active - 1
        spare := w.spare + 1
        moment := w.moment + 1
        workers := w.workers.modify i fun t => { t with stage := .waiting w.moment } }) ∧
    (w.atRest = true → w.queue = [] ∧ (begun log).Perm w.sent ∧ (finished log).Perm w.sent ∧
      ∀ job, (w.submissions.map Submission.job).count job = 1 → .accepted job ∈ w.submissions →
        (begun log).count job = 1 ∧ (finished log).count job = 1) := by
  have hreachable := h.reachable
  have hbegun : ∀ job, (begun log).count job ≤ w.sent.count job := by
    intro job
    rw [(h.told job).1]
    exact executions_le_sent hreachable job
  have hfinished : (finished log).Perm w.ended :=
    List.perm_iff_count.2 fun job => (h.told job).2
  refine ⟨fun job => ⟨hbegun job, ?_⟩, ?_, ⟨hreachable.sent_perm, hfinished⟩, ?_, ?_, ?_⟩
  · exact count_sent_le job
  · intro job hrefused
    have hnone := hbegun job
    rw [count_sent_of_refused hrefused] at hnone
    exact List.count_eq_zero.1 (Nat.le_zero.1 hnone)
  · intro hnone
    rw [hreachable.staffed.active_eq, countStage_hasJob hnone]
  · intro i job core' hi
    exact ⟨crash_eq hi, waits_after_crash hi⟩
  · intro hrest
    have hqueue := hreachable.staffed.queue_eq_nil hrest
    have hsent := hreachable.sent_perm
    rw [hqueue, held_eq_nil hrest] at hsent
    have hended : (finished log).Perm w.sent := hfinished.trans hsent.symm
    -- What ended was begun, and no more was begun than queued.
    have hall : (begun log).Perm w.sent := by
      refine List.perm_iff_count.2 fun job => Nat.le_antisymm (hbegun job) ?_
      rw [(h.told job).1, executions, ← (h.told job).2, hended.count_eq]
      exact Nat.le_add_left _ _
    refine ⟨hqueue, hall, hended, ?_⟩
    intro job hone haccepted
    rw [hall.count_eq, hended.count_eq]
    exact ⟨count_sent_of_accepted hone haccepted, count_sent_of_accepted hone haccepted⟩

/-- A job crashes beside one that returns, a third one is refused, and both workers leave. -/
theorem jobs_run_once_beside_crash :
    ∃ (w : Workers) (log : List JobEvent), Past "jobs" 1 w log ∧ w.atRest = true ∧
      w.submissions = [.accepted 7, .accepted 8, .refused 9] ∧ w.queue = [] ∧
      ((begun log).count 7 = 1 ∧ (finished log).count 7 = 1) ∧
      ((begun log).count 8 = 1 ∧ (finished log).count 8 = 1) ∧ 9 ∉ begun log := by
  let first : Workers := ({ name := "jobs" } : Workers).spawnCore 1
  let busy : Workers := { first with
    spare := 0, live := 2, active := 2, moment := 2, handles := [0, 1]
    submissions := [.accepted 7, .accepted 8]
    workers := [⟨true, .running 7⟩, ⟨false, .running 8⟩] }
  let crashed : Workers := { busy with
    ended := [7], workers := [⟨true, .ended 7⟩, ⟨false, .running 8⟩] }
  let closed : Workers := { busy with
    spare := 2, active := 0, moment := 4, ended := [7, 8], closed := true, shutdowns := [.closed]
    workers := [⟨true, .waiting 2⟩, ⟨false, .waiting 3⟩] }
  let rest : Workers := { closed with
    live := 0, submissions := [.accepted 7, .accepted 8, .refused 9]
    workers := [⟨true, .gone⟩, ⟨false, .gone⟩] }
  have hfirst : Past "jobs" 1 first [] := .start rfl
  have hbusy : Past "jobs" 1 busy [.began 0 7, .began 1 8] :=
    ((hfirst.submit 7).submit 8).steps [.submit 0, .submit 0, .receive 0, .proceed 0,
      .submit 1, .submit 1, .submit 1, .submit 1, .receive 1, .proceed 1] rfl
  have hcrashed : Past "jobs" 1 crashed [.began 0 7, .began 1 8, .crashed 0 7 .other] :=
    hbusy.crash (i := 0) rfl .other rfl
  have hclosed : Past "jobs" 1 closed
      [.began 0 7, .began 1 8, .crashed 0 7 .other, .returned 1 8] :=
    hcrashed.shutdown.steps
      [.proceed 0, .proceed 0, .proceed 1, .proceed 1, .proceed 1, .close 0] rfl
  have hrest : Past "jobs" 1 rest
      [.began 0 7, .began 1 8, .crashed 0 7 .other, .returned 1 8] :=
    (hclosed.submit 9).steps [.submit 2, .hangUp 0, .hangUp 1, .proceed 0, .proceed 1] rfl
  obtain ⟨-, hrefused, -, -, -, hall⟩ := hrest.jobs_run_once
  obtain ⟨hqueue, -, -, honce⟩ := hall rfl
  refine ⟨rest, _, hrest, rfl, rfl, hqueue, honce 7 rfl ?_, honce 8 rfl ?_, hrefused 9 ?_⟩
  · exact List.mem_cons_self
  · exact List.mem_cons_of_mem _ List.mem_cons_self
  · show ∀ c ∈ [Submission.accepted 7, .accepted 8, .refused 9], c.job = 9 → c = .refused 9
    decide

end Workers

end HeldReply
