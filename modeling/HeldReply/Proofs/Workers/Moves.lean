import HeldReply.Workers.Basic

/-!
# Everything that a step can do

A step changes one worker or one caller.  Everything that it can do is said once, with what it asks
for, and every invariant of the workers is kept case by case of that.

* `Workers.JobEvent`, `Workers.tells` — the beginnings and ends of jobs, and what a step tells of them;
* `Workers.Moves`, `Workers.moves_of_step` — **everything that a step can do**.
-/

namespace HeldReply

/-- A **beginning or an end** of a job at a worker. -/
inductive Workers.JobEvent where
  | began (worker job : Nat)
  | returned (worker job : Nat)
  | crashed (worker job : Nat) (c : Crash)
  deriving DecidableEq, Repr

/-- What a worker **tells** of its job as it goes on: it begins it, or the job returns. -/
def Worker.Stage.tells (i : Nat) : Worker.Stage → List Workers.JobEvent
  | .taken job => [.began i job]
  | .running job => [.returned i job]
  | _ => []

namespace Workers

variable {w v : Workers} {i : Nat} {t : Worker}

/-- What a step tells of a job. -/
def tells (w : Workers) : Event → List JobEvent
  | .proceed i => w.workers[i]?.elim [] fun t => t.stage.tells i
  | _ => []

/-- **Everything that a step can do**, with what it asks for and what it tells. -/
inductive Moves (w : Workers) : List JobEvent → Workers → Prop
  /-- A job is queued. -/
  | send {i job : Nat} (hi : w.submissions[i]? = some (.arrived job)) (hc : w.closed = false) :
      Moves w [] ({ w with queue := w.queue ++ [job] }.submission i (.queued job))
  | refuse {i job : Nat} (hi : w.submissions[i]? = some (.arrived job)) (hc : w.closed = true) :
      Moves w [] (w.submission i (.refused job))
  /-- A caller lowers the counter, and knows whether a worker was spare. -/
  | count {i job : Nat} (hi : w.submissions[i]? = some (.queued job)) :
      Moves w [] ({ w with spare := w.spare - 1 }.submission i
        (if w.spare ≤ 0 then .growing job else .accepted job))
  | grow {i job : Nat} (hi : w.submissions[i]? = some (.growing job)) :
      Moves w [] ((w.spawn false).submission i (.keeping job w.workers.length))
  | keep {i job worker : Nat} (hi : w.submissions[i]? = some (.keeping job worker)) :
      Moves w [] ((w.keepHandle worker).submission i (.accepted job))
  /-- No job is taken from now on. -/
  | close {i : Nat} (hi : w.shutdowns[i]? = some .arrived) :
      Moves w [] ({ w with closed := true }.shutdownCaller i .closed)
  | fetch {i : Nat} (hi : w.shutdowns[i]? = some .closed) :
      Moves w [] ({ w with handles := [] }.shutdownCaller i (.joining w.handles))
  | join {i j : Nat} {rest : List Nat} (hi : w.shutdowns[i]? = some (.joining (j :: rest)))
      (hj : w.isGone j = true) : Moves w [] (w.shutdownCaller i (.joining rest))
  | leaveJoin {i : Nat} (hi : w.shutdowns[i]? = some (.joining [])) :
      Moves w [] (w.shutdownCaller i .over)
  | receive {i since job : Nat} {core : Bool} {rest : List Nat}
      (hi : w.workers[i]? = some ⟨core, .waiting since⟩) (hq : w.queue = job :: rest) :
      Moves w [] ({ w with queue := rest }.become i (.taken job))
  | begin {i job : Nat} {core : Bool} (hi : w.workers[i]? = some ⟨core, .taken job⟩) :
      Moves w [.began i job] ({ w with active := w.active + 1 }.become i (.running job))
  | finish {i job : Nat} {core : Bool} (hi : w.workers[i]? = some ⟨core, .running job⟩) :
      Moves w [.returned i job] ({ w with ended := w.ended ++ [job] }.become i (.ended job))
  | uncount {i job : Nat} {core : Bool} (hi : w.workers[i]? = some ⟨core, .ended job⟩) :
      Moves w [] ({ w with active := w.active - 1 }.become i .idle)
  | wait {i : Nat} {core : Bool} {stage : Worker.Stage}
      (hi : w.workers[i]? = some ⟨core, stage⟩) (hs : stage = .idle ∨ stage = .staying) :
      Moves w [] ({ w with spare := w.spare + 1 }.wait i)
  /-- A worker that waited in vain lowers the counter, and knows whether a job counts on it. -/
  | decide {i : Nat} {core : Bool} (hi : w.workers[i]? = some ⟨core, .expired⟩) :
      Moves w [] ({ w with spare := w.spare - 1 }.become i
        (if 0 < w.spare then .leaving else .staying))
  | leave {i : Nat} {core : Bool} (hi : w.workers[i]? = some ⟨core, .leaving⟩) :
      Moves w [] ({ w with live := w.live - 1 }.become i .gone)
  | expire {i since : Nat} (hi : w.workers[i]? = some ⟨false, .waiting since⟩)
      (hq : w.queue = []) (hc : w.closed = false) : Moves w [] (w.become i .expired)
  | hangUp {i since : Nat} {core : Bool} (hi : w.workers[i]? = some ⟨core, .waiting since⟩)
      (hq : w.queue = []) (hc : w.closed = true) : Moves w [] (w.become i .leaving)

theorem moves_of_stepSubmission {c : Submission} (hi : w.submissions[i]? = some c)
    (hs : w.stepSubmission i c = some v) : Moves w [] v := by
  cases c with
  | arrived job =>
    rw [stepSubmission] at hs
    by_cases hc : w.closed = true
    · rw [if_pos hc] at hs
      cases hs
      exact .refuse hi hc
    · rw [if_neg hc] at hs
      cases hs
      exact .send hi (by simpa using hc)
  | queued job =>
    cases hs
    exact .count hi
  | growing job =>
    cases hs
    exact .grow hi
  | keeping job worker =>
    cases hs
    exact .keep hi
  | accepted | refused => cases hs

theorem moves_of_stepShutdown {c : Shutdown} (hi : w.shutdowns[i]? = some c)
    (hs : w.stepShutdown i c = some v) : Moves w [] v := by
  unfold stepShutdown at hs
  split at hs
  · cases hs
    exact .close hi
  · cases hs
    exact .fetch hi
  · rename_i j rest
    by_cases hj : w.isGone j = true
    · rw [if_pos hj] at hs
      cases hs
      exact .join hi hj
    · rw [if_neg hj] at hs
      cases hs
  · cases hs
    exact .leaveJoin hi
  · cases hs

theorem moves_of_stepWorker (hi : w.workers[i]? = some t)
    (hs : w.stepWorker i t.stage = some v) : Moves w (t.stage.tells i) v := by
  obtain ⟨core, stage⟩ := t
  cases stage with
  | taken job =>
    cases hs
    exact .begin hi
  | running job =>
    cases hs
    exact .finish hi
  | ended job =>
    cases hs
    exact .uncount hi
  | idle =>
    cases hs
    exact .wait hi (.inl rfl)
  | staying =>
    cases hs
    exact .wait hi (.inr rfl)
  | expired =>
    cases hs
    exact .decide hi
  | leaving =>
    cases hs
    exact .leave hi
  | waiting | gone => cases hs

theorem moves_of_stepReceive (hi : w.workers[i]? = some t)
    (hs : w.stepReceive i t.stage = some v) : Moves w [] v := by
  obtain ⟨core, stage⟩ := t
  cases stage with
  | waiting since =>
    rw [stepReceive] at hs
    split at hs
    · cases hs
    · rename_i job rest hq
      cases hs
      exact .receive hi hq
  | taken | running | ended | idle | expired | staying | leaving | gone => cases hs

/-- **A step does one of these things.** -/
theorem moves_of_step {e : Event} (hs : w.step e = some v) : Moves w (w.tells e) v := by
  cases e with
  | submit i =>
    obtain ⟨c, hi, hs⟩ := Option.bind_eq_some_iff.1 hs
    exact moves_of_stepSubmission hi hs
  | close i =>
    obtain ⟨c, hi, hs⟩ := Option.bind_eq_some_iff.1 hs
    exact moves_of_stepShutdown hi hs
  | receive i =>
    obtain ⟨t, hi, hs⟩ := Option.bind_eq_some_iff.1 hs
    exact moves_of_stepReceive hi hs
  | proceed i =>
    obtain ⟨t, hi, hs⟩ := Option.bind_eq_some_iff.1 hs
    rw [tells, hi]
    exact moves_of_stepWorker hi hs
  | expire i =>
    rw [step] at hs
    split at hs
    · rename_i since hi hq
      by_cases hc : w.closed = true
      · rw [if_pos hc] at hs
        cases hs
      · rw [if_neg hc] at hs
        cases hs
        exact .expire hi hq (by simpa using hc)
    · cases hs
  | hangUp i =>
    rw [step] at hs
    split at hs
    · rename_i core since hi hq
      by_cases hc : w.closed = true
      · rw [if_pos hc] at hs
        cases hs
        exact .hangUp hi hq hc
      · rw [if_neg hc] at hs
        cases hs
    · cases hs

end Workers

end HeldReply
