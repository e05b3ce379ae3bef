import HeldReply.Failure
import HeldReply.Number.Digits

/-!
# Workers

Handlers may block, so they run on worker threads.  A fixed number of workers never leaves.  A job
that finds no spare worker starts one more, which leaves again after it has waited for a job in vain
for some time.  One counter tells how many workers are spare: those that wait, less the jobs queued.

Callers and workers run at the same time.  What one of them does in one go is a step, and steps may
come in any order.

* `Submission`, `Shutdown` — a caller that hands in a job, and one that shuts the workers down;
* `Worker` — a worker thread and what it does;
* `Workers` — the counters, the queue, the threads and the callers;
* `Workers.Event`, `Workers.step` — one step of one of them, `none` if it is not possible;
* `Workers.crash` — the job of a worker crashes;
* `Workers.start` — the workers that never leave, waiting for jobs.
-/

namespace HeldReply

/-- **A caller that hands in a job.** -/
inductive Submission where
  | arrived (job : Nat)
  /-- The job is queued, and the counter still to be lowered. -/
  | queued (job : Nat)
  /-- No worker was spare: one more is to be started. -/
  | growing (job : Nat)
  /-- The new worker runs, and its handle is still to be kept. -/
  | keeping (job worker : Nat)
  | accepted (job : Nat)
  | refused (job : Nat)
  deriving DecidableEq, Repr, Inhabited

/-- **A caller that shuts the workers down.** -/
inductive Shutdown where
  | arrived
  /-- No job is taken any more: the handles are to be fetched. -/
  | closed
  /-- The workers that have still to leave. -/
  | joining (rest : List Nat)
  | over
  deriving DecidableEq, Repr, Inhabited

/-- **What a worker does.** -/
inductive Worker.Stage where
  /-- It waits for a job, since the given moment, and is counted as spare. -/
  | waiting (since : Nat)
  /-- It took a job. -/
  | taken (job : Nat)
  | running (job : Nat)
  /-- The job is over. -/
  | ended (job : Nat)
  /-- It has work no more, and is not yet counted as spare. -/
  | idle
  /-- It waited in vain, and is still counted as spare. -/
  | expired
  /-- It waited in vain but a job counts on it; it is not counted as spare. -/
  | staying
  | leaving
  | gone
  deriving DecidableEq, Repr, Inhabited

/-- A **worker thread**; `core` tells that it never leaves for lack of jobs. -/
structure Worker where
  core : Bool
  stage : Worker.Stage
  deriving DecidableEq, Repr, Inhabited

/-- The **workers** with their callers; a worker's place in the list is its number. -/
structure Workers where
  name : String
  /-- The workers that wait, less the jobs that are queued. -/
  spare : Int := 0
  /-- The workers that are alive. -/
  live : Nat := 0
  /-- The jobs that are running. -/
  active : Nat := 0
  queue : List Nat := []
  closed : Bool := false
  /-- The handles kept, by worker. -/
  handles : List Nat := []
  workers : List Worker := []
  submissions : List Submission := []
  shutdowns : List Shutdown := []
  /-- The jobs that are over. -/
  ended : List Nat := []
  /-- How often a worker began to wait. -/
  moment : Nat := 0
  deriving Repr, Inhabited

/-- A **step** by number of the worker or caller that takes it. -/
inductive Workers.Event where
  | submit (caller : Nat)
  | close (caller : Nat)
  /-- A worker that waits takes the first job. -/
  | receive (worker : Nat)
  /-- A worker that may leave has waited long enough. -/
  | expire (worker : Nat)
  /-- A worker finds that no job will come any more. -/
  | hangUp (worker : Nat)
  /-- A worker goes on with what it does. -/
  | proceed (worker : Nat)
  deriving DecidableEq, Repr, Inhabited

namespace Workers

/-- The failure of a job that comes too late. -/
def closedFailure (w : Workers) : Failure :=
  .misconfigured ("工作线程池 " ++ w.name ++ " 已关闭")

/-- The name of a worker thread. -/
def threadName (w : Workers) (i : Nat) : String :=
  w.name ++ "-" ++ Number.decimal i

/-- Change what a worker does. -/
def become (w : Workers) (i : Nat) (stage : Worker.Stage) : Workers :=
  { w with workers := w.workers.modify i fun t => { t with stage } }

/-- A worker begins to wait. -/
def wait (w : Workers) (i : Nat) : Workers :=
  { w.become i (.waiting w.moment) with moment := w.moment + 1 }

/-- Change what a caller does. -/
def submission (w : Workers) (i : Nat) (s : Submission) : Workers :=
  { w with submissions := w.submissions.set i s }

/-- Change what a caller does. -/
def shutdownCaller (w : Workers) (i : Nat) (c : Shutdown) : Workers :=
  { w with shutdowns := w.shutdowns.set i c }

/-- **One worker more**, counted as spare before it begins to wait. -/
def spawn (w : Workers) (core : Bool) : Workers :=
  { w with
    spare := w.spare + 1
    live := w.live + 1
    workers := w.workers ++ [{ core, stage := .waiting w.moment }]
    moment := w.moment + 1 }

/-- Whether a worker has left. -/
def isGone (w : Workers) (i : Nat) : Bool :=
  w.workers[i]?.any fun t => t.stage == .gone

/-- Keep the handle of a worker, and let those go whose workers have left. -/
def keepHandle (w : Workers) (i : Nat) : Workers :=
  { w with handles := w.handles.filter (fun j => !w.isGone j) ++ [i] }

/-- A step of a caller that hands in a job. -/
def stepSubmission (w : Workers) (i : Nat) : Submission → Option Workers
  | .arrived job =>
    if w.closed then some (w.submission i (.refused job))
    else some ({ w with queue := w.queue ++ [job] }.submission i (.queued job))
  | .queued job =>
    some ({ w with spare := w.spare - 1 }.submission i
      (if w.spare ≤ 0 then .growing job else .accepted job))
  | .growing job => some ((w.spawn false).submission i (.keeping job w.workers.length))
  | .keeping job worker => some ((w.keepHandle worker).submission i (.accepted job))
  | .accepted _ | .refused _ => none

/-- A step of a caller that shuts the workers down. -/
def stepShutdown (w : Workers) (i : Nat) : Shutdown → Option Workers
  | .arrived => some ({ w with closed := true }.shutdownCaller i .closed)
  | .closed => some ({ w with handles := [] }.shutdownCaller i (.joining w.handles))
  | .joining (j :: rest) => if w.isGone j then some (w.shutdownCaller i (.joining rest)) else none
  | .joining [] => some (w.shutdownCaller i .over)
  | .over => none

/-- A worker that waits takes the first job. -/
def stepReceive (w : Workers) (i : Nat) : Worker.Stage → Option Workers
  | .waiting _ =>
    match w.queue with
    | [] => none
    | job :: rest => some ({ w with queue := rest }.become i (.taken job))
  | _ => none

/-- A worker goes on with what it does. -/
def stepWorker (w : Workers) (i : Nat) : Worker.Stage → Option Workers
  | .taken job => some ({ w with active := w.active + 1 }.become i (.running job))
  | .running job => some ({ w with ended := w.ended ++ [job] }.become i (.ended job))
  | .ended _ => some ({ w with active := w.active - 1 }.become i .idle)
  | .idle | .staying => some ({ w with spare := w.spare + 1 }.wait i)
  | .expired =>
    some ({ w with spare := w.spare - 1 }.become i (if 0 < w.spare then .leaving else .staying))
  | .leaving => some ({ w with live := w.live - 1 }.become i .gone)
  | .waiting _ | .gone => none

/-- **One step**; `none` if it is not possible. -/
def step (w : Workers) : Event → Option Workers
  | .submit i => w.submissions[i]?.bind (w.stepSubmission i)
  | .close i => w.shutdowns[i]?.bind (w.stepShutdown i)
  | .receive i => w.workers[i]?.bind fun t => w.stepReceive i t.stage
  | .proceed i => w.workers[i]?.bind fun t => w.stepWorker i t.stage
  | .expire i =>
    match w.workers[i]?, w.queue with
    | some ⟨false, .waiting _⟩, [] => if w.closed then none else some (w.become i .expired)
    | _, _ => none
  | .hangUp i =>
    match w.workers[i]?, w.queue with
    | some ⟨_, .waiting _⟩, [] => if w.closed then some (w.become i .leaving) else none
    | _, _ => none

/-- The job of a worker **crashes**.  The crash is caught, and the worker goes on as after any job. -/
def crash (w : Workers) (i : Nat) : Option Workers :=
  match w.workers[i]? with
  | some ⟨_, .running job⟩ => some ({ w with ended := w.ended ++ [job] }.become i (.ended job))
  | _ => none

/-- The workers that never leave, with their handles. -/
def spawnCore (w : Workers) : Nat → Workers
  | 0 => w
  | n + 1 => (w.spawn true |>.keepHandle w.workers.length).spawnCore n

/-- **Start** the workers that never leave; there must be one at least. -/
def start (name : String) (core : Nat) : Except Failure Workers :=
  if core = 0 then .error (.misconfigured "工作线程数必须大于 0")
  else .ok (({ name } : Workers).spawnCore core)

end Workers

end HeldReply
