import HeldReply.Workers.Basic

/-!
# Workers under a script

A script uses the workers step by step from one caller: it hands in jobs, some of which block until
they are released and some of which crash, pauses until every idle worker that may leave has left,
and shuts down.  Before its next step everything happens that can happen without it.

* `Workers.Script` — the workers with the jobs that block and those that crash;
* `Workers.goOn` — a worker goes on, or its job crashes;
* `Workers.next`, `Workers.settle` — what happens by itself, the worker that waits longest taking a
  job first;
* `Workers.Script.submit`, `release`, `pause`, `shutdown` there — the steps of a script;
* `Workers.Script.threads` — the names of the threads that run blocking jobs, if all threads do.
-/

namespace HeldReply

namespace Workers

/-- A caller's or a worker's step by number, if it is possible. -/
def firstStep (w : Workers) (count : Nat) (event : Nat → Event) : Option Workers :=
  (List.range count).findSome? fun i => w.step (event i)

/-- Whether what a worker does next happens by itself: only the end of a blocking job does not. -/
def isFree (blocked : List Nat) : Worker.Stage → Bool
  | .running job => !blocked.contains job
  | _ => true

/-- A worker goes on with what it does; its job crashes if it is one of those that do. -/
def goOn (crashing : List Nat) (w : Workers) (i : Nat) : Option Workers :=
  match w.workers[i]? with
  | some ⟨_, .running job⟩ => if crashing.contains job then w.crash i else w.step (.proceed i)
  | _ => w.step (.proceed i)

/-- The worker that waits longest. -/
def longestWaiting (w : Workers) : Option Nat :=
  let waiting := w.workers.zipIdx.filterMap fun (t, i) =>
    match t.stage with
    | .waiting since => some (since, i)
    | _ => none
  (waiting.foldl (fun best x =>
    match best with
    | none => some x
    | some y => some (if x.1 < y.1 then x else y)) none).map Prod.snd

/-- **What happens next** by itself, if anything does; `hasty` tells that a worker that may leave
does not wait for a job at all. -/
def next (blocked crashing : List Nat) (hasty : Bool) (w : Workers) : Option Workers :=
  let worker := (List.range w.workers.length).findSome? fun i =>
    if w.workers[i]?.any fun t => isFree blocked t.stage then w.goOn crashing i else none
  (w.firstStep w.submissions.length .submit)
    |>.or worker
    |>.or (w.longestWaiting.bind fun i => w.step (.receive i))
    |>.or (if hasty then w.firstStep w.workers.length .expire else none)
    |>.or (w.firstStep w.workers.length .hangUp)
    |>.or (w.firstStep w.shutdowns.length .close)

/-- Let at most so many steps happen. -/
def settleFor (blocked crashing : List Nat) (hasty : Bool) (w : Workers) : Nat → Workers
  | 0 => w
  | n + 1 =>
    match next blocked crashing hasty w with
    | none => w
    | some w => settleFor blocked crashing hasty w n

/-- More steps than can happen by themselves. -/
def patience (w : Workers) : Nat :=
  8 * (w.submissions.length + w.workers.length + w.shutdowns.length + 1)
    * (w.submissions.length + w.workers.length + 1)

/-- Let **everything happen** that can happen by itself. -/
def settle (blocked crashing : List Nat) (hasty : Bool) (w : Workers) : Workers :=
  w.settleFor blocked crashing hasty w.patience

/-- The callers that have their answer go. -/
def dismiss (w : Workers) : Workers :=
  { w with submissions := [], shutdowns := [] }

end Workers

/-- The workers with the **blocking jobs**, by their names in the script, and those that crash. -/
structure Workers.Script where
  workers : Workers
  /-- The workers that may leave do not wait for a job at all. -/
  hasty : Bool := false
  blocked : List (String × Nat) := []
  crashing : List Nat := []
  /-- The number of the next job. -/
  nextJob : Nat := 0

namespace Workers.Script

/-- The jobs that block. -/
def blockedJobs (s : Script) : List Nat :=
  s.blocked.map Prod.snd

/-- Let everything happen that can happen by itself. -/
def settle (s : Script) : Script :=
  { s with workers := s.workers.settle s.blockedJobs s.crashing s.hasty }

/-- **Hand in** a job, which blocks if it has a name, and may crash. -/
def submit (s : Script) (gate : Option String) (crashes : Bool) :
    Script × Except Failure Unit :=
  let job := s.nextJob
  let blocked := match gate with
    | some name => (name, job) :: s.blocked.filter (fun b => b.1 != name)
    | none => s.blocked
  let crashing := if crashes then job :: s.crashing else s.crashing
  let w := { s.workers with submissions := [.arrived job] }
  let t := settle { s with workers := w, blocked, crashing, nextJob := job + 1 }
  match t.workers.submissions with
  | [.accepted _] => ({ t with workers := t.workers.dismiss }, .ok ())
  | _ => ({ s with nextJob := job + 1 }, .error s.workers.closedFailure)

/-- **Release** a blocking job by name; `none` if there is none. -/
def release (s : Script) (name : String) : Option Script :=
  if (s.blocked.lookup name).isSome then
    some (settle { s with blocked := s.blocked.filter fun b => b.1 != name })
  else none

/-- **Pause** for so long that every idle worker that may leave leaves. -/
def pause (s : Script) : Script :=
  (List.range s.workers.workers.length).foldl (fun s i =>
    match s.workers.step (.expire i) with
    | some w => settle { s with workers := w }
    | none => s) s

/-- **Shut down**, all blocking jobs being released first. -/
def shutdown (s : Script) : Script :=
  let s := settle { s with blocked := [] }
  let s := settle { s with workers := { s.workers with shutdowns := [.arrived] } }
  { s with workers := s.workers.dismiss }

/-- The workers that run blocking jobs. -/
def gateWorkers (s : Script) : List Nat :=
  (List.range s.workers.workers.length).filter fun i =>
    match s.workers.workers[i]? with
    | some ⟨_, .running job⟩ => s.blockedJobs.contains job
    | _ => false

/-- The **names of the threads** that run blocking jobs, in order, if all threads do. -/
def threads (s : Script) : Option (List String) :=
  let names := s.gateWorkers.map s.workers.threadName
  if names.length = s.workers.live then some (names.mergeSort fun a b => decide (a ≤ b)) else none

end Workers.Script

end HeldReply
