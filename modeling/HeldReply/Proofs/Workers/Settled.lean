import HeldReply.Workers.Script
import HeldReply.Proofs.Workers.Effort
import HeldReply.Proofs.Workers.Past

/-!
# Workers that have settled

Between two steps of a script everything happens that can happen by itself, in any order: whichever
worker waits takes a job, and a job that does not block returns or crashes.  What holds when nothing
can happen any more does not depend on the order.  Every caller has its answer, and every worker waits,
has left, or is held up by a job that blocks.

* `Workers.Happens`, `Workers.IsSettled` — what **can happen by itself**, and that nothing can;
* `Workers.Way` — one thing after the other, with the number of running jobs after each;
* `Workers.exists_settled`, `Workers.Way.length_le` — **workers settle**, and do so in so many steps;
* `Workers.IsSettled.live_eq`, `Workers.IsSettled.active_eq` — who is there when they have;
* `Workers.IsSettled.held_perm`, `Workers.IsSettled.active_eq_length` — **the jobs that run are those
  that block**;
* `Workers.IsSettled.executions_eq` — a job that was taken was begun once;
* `Workers.happens_of_next`, `Workers.isSettled_of_next`, `Workers.exists_way_settleFor` — what **a
  script lets happen** is one of the ways, and ends when nothing can.
-/

namespace HeldReply

/-- Whether a caller has its answer. -/
def Submission.isOver : Submission → Bool
  | .accepted _ | .refused _ => true
  | .arrived _ | .queued _ | .growing _ | .keeping _ _ => false

/-- Whether a worker is **held up** by a job that blocks. -/
def Worker.Stage.isHeldUp (blocked : List Nat) (stage : Worker.Stage) : Bool :=
  !Workers.isFree blocked stage

namespace Workers

open Worker.Stage Submission

variable {w v u : Workers} {i job : Nat} {t : Worker} {name : String} {core : Nat}
  {es : List JobEvent} {expires : Bool} {blocked seen : List Nat}

/-- Whether a step is taken without anybody's doing.  A job that blocks does not end, and workers that
wait give up only when they have the time for it. -/
def isAllowed (expires : Bool) (blocked : List Nat) (w : Workers) : Event → Bool
  | .expire _ => expires
  | .proceed i => w.workers[i]?.all fun t => isFree blocked t.stage
  | _ => true

/-- **What can happen by itself.** -/
inductive Happens (expires : Bool) (blocked : List Nat) (w : Workers) : Workers → Prop
  | step {v : Workers} (e : Event) (ha : w.isAllowed expires blocked e = true)
      (hs : w.step e = some v) : Happens expires blocked w v
  /-- A job that does not block crashes. -/
  | crash {v : Workers} {i job : Nat} {core : Bool}
      (hi : w.workers[i]? = some ⟨core, .running job⟩) (hb : isFree blocked (.running job) = true)
      (hs : w.crash i = some v) : Happens expires blocked w v

/-- **Nothing can happen** by itself. -/
def IsSettled (expires : Bool) (blocked : List Nat) (w : Workers) : Prop :=
  ∀ v, ¬ Happens expires blocked w v

/-- **One thing happens after the other**, with the numbers of jobs that were running on the way. -/
inductive Way (expires : Bool) (blocked : List Nat) (w : Workers) : List Nat → Workers → Prop
  | refl : Way expires blocked w [] w
  | step {v u : Workers} {seen : List Nat} (h : Way expires blocked w seen v)
      (hs : Happens expires blocked v u) : Way expires blocked w (u.active :: seen) u

/-! ### What happens is a step -/

/-- Whoever is held up runs a job that blocks. -/
theorem isHeldUp_iff {stage : Worker.Stage} :
    stage.isHeldUp blocked = true ↔ ∃ job ∈ blocked, stage = .running job := by
  cases stage <;> simp [isHeldUp, isFree]

/-- A crash is a step like a return. -/
theorem Happens.exists_step (h : Happens expires blocked w v) :
    ∃ e, w.isAllowed expires blocked e = true ∧ w.step e = some v := by
  cases h with
  | step e ha hs => exact ⟨e, ha, hs⟩
  | @crash i job core hi hb hs =>
    refine ⟨.proceed i, ?_, ?_⟩
    · rw [isAllowed, hi]
      exact hb
    · rw [← crash_eq hi, hs]

theorem Happens.reachable (h : Happens expires blocked w v) (hr : Reachable name core w) :
    Reachable name core v := by
  obtain ⟨e, -, hs⟩ := h.exists_step
  exact hr.step e hs

/-- A worker does something else, and does not give up waiting. -/
theorem countStage_le_of_become (p : Worker.Stage → Bool) {stage : Worker.Stage}
    (hi : w.workers[i]? = some t) (hw : v.workers = (w.become i stage).workers)
    (hp : p stage = false) : v.countStage p ≤ w.countStage p := by
  have hcount := countStage_become p hi hw
  rw [hp] at hcount
  exact Nat.le.intro hcount

/-- Only a worker that gives up waiting is one more that waited in vain. -/
theorem countStage_isExpired_le {e : Event} (he : ∀ i, e ≠ .expire i) (hs : w.step e = some v) :
    v.countStage isExpired ≤ w.countStage isExpired := by
  cases e with
  | submit i =>
    obtain ⟨c, -, hs⟩ := Option.bind_eq_some_iff.1 hs
    cases c with
    | arrived job =>
      rw [stepSubmission] at hs
      split at hs <;> cases hs <;> exact Nat.le_refl _
    | queued | keeping =>
      cases hs
      exact Nat.le_refl _
    | growing job =>
      cases hs
      exact Nat.le_of_eq (countStage_spawn (v := w.spawn false) isExpired false rfl)
    | accepted | refused => cases hs
  | close i =>
    obtain ⟨c, -, hs⟩ := Option.bind_eq_some_iff.1 hs
    unfold stepShutdown at hs
    split at hs
    · cases hs
      exact Nat.le_refl _
    · cases hs
      exact Nat.le_refl _
    · split at hs <;> cases hs
      exact Nat.le_refl _
    · cases hs
      exact Nat.le_refl _
    · cases hs
  | receive i =>
    obtain ⟨t, hi, hs⟩ := Option.bind_eq_some_iff.1 hs
    unfold stepReceive at hs
    split at hs
    · split at hs <;> cases hs
      exact countStage_le_of_become isExpired hi rfl rfl
    · cases hs
  | proceed i =>
    obtain ⟨t, hi, hs⟩ := Option.bind_eq_some_iff.1 hs
    cases ht : t.stage with
    | taken | running | ended | idle | staying | leaving =>
      rw [ht] at hs
      cases hs
      exact countStage_le_of_become isExpired hi rfl rfl
    | expired =>
      rw [ht] at hs
      cases hs
      refine countStage_le_of_become isExpired hi rfl ?_
      split <;> rfl
    | waiting | gone =>
      rw [ht] at hs
      cases hs
  | hangUp i =>
    rw [step] at hs
    split at hs
    · rename_i hi _
      split at hs <;> cases hs
      exact countStage_le_of_become isExpired hi rfl rfl
    · cases hs
  | expire i => exact absurd rfl (he i)

/-- **What happens by itself is a move** that ends no job that blocks, and that makes nobody give up
waiting who has the time. -/
theorem Happens.moves (h : Happens expires blocked w v) :
    ∃ es, Moves w es v ∧ (∀ i job, .returned i job ∈ es → job ∉ blocked) ∧
      (expires = false → v.countStage isExpired ≤ w.countStage isExpired) := by
  obtain ⟨e, ha, hs⟩ := h.exists_step
  refine ⟨w.tells e, moves_of_step hs, ?_, ?_⟩
  · intro i job hmem
    cases e with
    | proceed k =>
      obtain ⟨t, hk, -⟩ := Option.bind_eq_some_iff.1 hs
      rw [isAllowed, hk] at ha
      rw [tells, hk] at hmem
      change isFree blocked t.stage = true at ha
      change _ ∈ t.stage.tells k at hmem
      cases ht : t.stage <;> simp_all [Worker.Stage.tells, isFree]
    | submit | close | receive | expire | hangUp => cases hmem
  · intro hnever
    refine countStage_isExpired_le ?_ hs
    rintro i rfl
    rw [isAllowed, hnever] at ha
    cases ha

/-! ### Ways come to an end -/

theorem Way.reachable (h : Way expires blocked w seen v) (hr : Reachable name core w) :
    Reachable name core v := by
  induction h with
  | refl => exact hr
  | step _ hs ih => exact hs.reachable ih

/-- **No way is longer** than what there is to be done. -/
theorem Way.length_le (h : Way expires blocked w seen v) (hr : Reachable name core w) :
    seen.length + v.effort ≤ w.effort := by
  induction h with
  | refl => simp
  | step h hs ih =>
    obtain ⟨e, -, hstep⟩ := hs.exists_step
    have hless := (h.reachable hr).effort_lt hstep
    rw [List.length_cons]
    omega

/-- A way can be gone on until nothing can happen any more. -/
theorem Way.exists_settled (h : Way expires blocked w seen v) (hr : Reachable name core w) :
    ∃ seen u, Way expires blocked w seen u ∧ IsSettled expires blocked u := by
  induction hn : v.effort using Nat.strongRecOn generalizing v seen with
  | ind n ih =>
    by_cases hsettled : IsSettled expires blocked v
    · exact ⟨seen, v, h, hsettled⟩
    · obtain ⟨u, hu⟩ : ∃ u, Happens expires blocked v u := by
        simpa [IsSettled] using hsettled
      obtain ⟨e, -, hstep⟩ := hu.exists_step
      have hless := (h.reachable hr).effort_lt hstep
      exact ih u.effort (hn ▸ hless) (h.step hu) rfl

/-- **Workers settle.** -/
theorem exists_settled (expires : Bool) (blocked : List Nat) (hr : Reachable name core w) :
    ∃ seen u, Way expires blocked w seen u ∧ IsSettled expires blocked u :=
  Way.refl.exists_settled hr

/-! ### When nothing can happen any more -/

/-- **Every caller has its answer.** -/
theorem IsSettled.isOver (h : IsSettled expires blocked w) {c : Submission}
    (hc : c ∈ w.submissions) : c.isOver = true := by
  obtain ⟨i, hi⟩ := List.mem_iff_getElem?.1 hc
  have hnone : ∀ v, w.stepSubmission i c ≠ some v := by
    intro v hs
    refine h v (.step (.submit i) rfl ?_)
    rw [step, hi]
    exact hs
  cases c with
  | arrived job =>
    rw [stepSubmission] at hnone
    split at hnone
    · exact absurd rfl (hnone _)
    · exact absurd rfl (hnone _)
  | queued | growing | keeping => exact absurd rfl (hnone _)
  | accepted | refused => rfl

/-- **Every worker** waits, has left, or is held up. -/
theorem IsSettled.stage (h : IsSettled expires blocked w) (ht : t ∈ w.workers) :
    t.stage.isWaiting = true ∨ t.stage = .gone ∨ t.stage.isHeldUp blocked = true := by
  obtain ⟨i, hi⟩ := List.mem_iff_getElem?.1 ht
  cases hfree : isFree blocked t.stage with
  | false => exact .inr (.inr (by rw [isHeldUp, hfree]; rfl))
  | true =>
    have hnone : ∀ v, w.stepWorker i t.stage ≠ some v := by
      intro v hs
      refine h v (.step (.proceed i) ?_ ?_)
      · rw [isAllowed, hi]
        exact hfree
      · rw [step, hi]
        exact hs
    cases hs : t.stage with
    | waiting since => exact .inl rfl
    | gone => exact .inr (.inl rfl)
    | taken | running | ended | idle | expired | staying | leaving =>
      rw [hs] at hnone
      exact absurd rfl (hnone _)

/-- A worker that waits leaves no job in the queue. -/
theorem IsSettled.queue_eq_nil_of_waiting (h : IsSettled expires blocked w) (ht : t ∈ w.workers)
    (hwaits : t.stage.isWaiting = true) : w.queue = [] := by
  obtain ⟨i, hi⟩ := List.mem_iff_getElem?.1 ht
  cases hq : w.queue with
  | nil => rfl
  | cons job rest =>
    refine absurd (Happens.step (.receive i) rfl ?_) (h ({ w with queue := rest }.become i
      (.taken job)))
    rw [step, hi]
    cases hs : t.stage <;> rw [hs] at hwaits <;> simp_all [isWaiting, stepReceive]

/-- When no job is taken any more, no worker waits. -/
theorem IsSettled.isOpen_of_waiting (h : IsSettled expires blocked w) (ht : t ∈ w.workers)
    (hwaits : t.stage.isWaiting = true) : w.closed = false := by
  obtain ⟨i, hi⟩ := List.mem_iff_getElem?.1 ht
  have hqueue := h.queue_eq_nil_of_waiting ht hwaits
  cases hc : w.closed with
  | false => rfl
  | true =>
    refine absurd (Happens.step (.hangUp i) rfl ?_) (h (w.become i .leaving))
    obtain ⟨core, stage⟩ := t
    cases stage <;> simp_all [isWaiting, step]

/-- When workers that wait give up, those that still do never leave. -/
theorem IsSettled.core_of_waiting (h : IsSettled true blocked w) (ht : t ∈ w.workers)
    (hwaits : t.stage.isWaiting = true) : t.core = true := by
  obtain ⟨i, hi⟩ := List.mem_iff_getElem?.1 ht
  have hqueue := h.queue_eq_nil_of_waiting ht hwaits
  have hopen := h.isOpen_of_waiting ht hwaits
  obtain ⟨core, stage⟩ := t
  cases core with
  | true => rfl
  | false =>
    refine absurd (Happens.step (.expire i) rfl ?_) (h (w.become i .expired))
    cases stage <;> simp_all [isWaiting, step]

/-- Whoever shuts the workers down has done so, or waits for a worker that has not left. -/
theorem IsSettled.shutdown (h : IsSettled expires blocked w) {c : Shutdown}
    (hc : c ∈ w.shutdowns) :
    c = .over ∨ ∃ j rest, c = .joining (j :: rest) ∧ w.isGone j = false := by
  obtain ⟨i, hi⟩ := List.mem_iff_getElem?.1 hc
  have hnone : ∀ v, w.stepShutdown i c ≠ some v := by
    intro v hs
    refine h v (.step (.close i) rfl ?_)
    rw [step, hi]
    exact hs
  unfold stepShutdown at hnone
  split at hnone
  · exact absurd rfl (hnone _)
  · exact absurd rfl (hnone _)
  · rename_i j rest
    cases hj : w.isGone j with
    | false => exact .inr ⟨j, rest, rfl, hj⟩
    | true =>
      rw [hj] at hnone
      exact absurd rfl (hnone _)
  · exact absurd rfl (hnone _)
  · exact .inl rfl

/-- What is true of each entry is true of how many there are. -/
theorem countP_eq_add {α : Type} {p q r : α → Bool} {l : List α}
    (h : ∀ a ∈ l, (p a).toNat = (q a).toNat + (r a).toNat) :
    l.countP p = l.countP q + l.countP r := by
  have hone : ∀ b : Bool, (if b = true then 1 else 0) = b.toNat := by
    intro b
    cases b <;> rfl
  induction l with
  | nil => rfl
  | cons a l ih =>
    have hhead := h a List.mem_cons_self
    have htail := ih fun b hb => h b (List.mem_cons_of_mem _ hb)
    simp only [List.countP_cons, hone]
    omega

/-- **The workers that are alive** wait or are held up. -/
theorem IsSettled.live_eq (h : IsSettled expires blocked w) (hr : Reachable name core w) :
    w.live = w.countStage isWaiting + w.countStage (isHeldUp blocked) := by
  rw [hr.staffed.live_eq]
  refine countP_eq_add fun t ht => ?_
  have hstage := h.stage ht
  cases hs : t.stage <;> simp_all [isAlive, isWaiting, isHeldUp, isFree]

/-- **The jobs that are running** hold a worker up. -/
theorem IsSettled.active_eq (h : IsSettled expires blocked w) (hr : Reachable name core w) :
    w.active = w.countStage (isHeldUp blocked) := by
  rw [hr.staffed.active_eq]
  refine List.countP_congr fun t ht => ?_
  have hstage := h.stage ht
  cases hs : t.stage <;> simp_all [isCounted, isWaiting, isHeldUp, isFree]

/-- **Nobody owes the counter a change.** -/
theorem IsSettled.nobody_owes (h : IsSettled expires blocked w) :
    w.countCalls isQueued = 0 ∧ w.countCalls isGrowing = 0 ∧ w.countStage isExpired = 0 ∧
      w.countStage isStaying = 0 := by
  have hcalls : ∀ p : Submission → Bool, (∀ c, c.isOver = true → p c = false) →
      w.countCalls p = 0 := by
    intro p hp
    refine List.countP_eq_zero.2 fun c hc => ?_
    rw [hp c (h.isOver hc)]
    exact Bool.false_ne_true
  have hstages : ∀ p : Worker.Stage → Bool, p .gone = false →
      (∀ since, p (.waiting since) = false) → (∀ job, p (.running job) = false) →
      w.countStage p = 0 := by
    intro p hgone hwaiting hrunning
    refine List.countP_eq_zero.2 fun t ht => ?_
    obtain hs | hs | hs := h.stage ht
    · cases hstage : t.stage <;> simp_all [isWaiting]
    · simp [hs, hgone]
    · obtain ⟨job, -, hs⟩ := isHeldUp_iff.1 hs
      simp [hs, hrunning]
  refine ⟨hcalls _ ?_, hcalls _ ?_, hstages _ rfl ?_ ?_, hstages _ rfl ?_ ?_⟩
  · intro c
    cases c <;> simp [Submission.isOver, isQueued]
  · intro c
    cases c <;> simp [Submission.isOver, isGrowing]
  all_goals exact fun _ => rfl

/-- **No job is queued** as long as jobs are taken. -/
theorem IsSettled.queue_eq_nil (h : IsSettled expires blocked w) (hr : Reachable name core w)
    (hopen : w.closed = false) : w.queue = [] := by
  obtain ⟨hspare, hcovered⟩ := hr.balanced hopen
  obtain ⟨hqueued, hgrowing, hexpired, hstaying⟩ := h.nobody_owes
  have hcredited := countStage_isCredited w
  by_cases hwaits : w.countStage isWaiting = 0
  · exact List.eq_nil_of_length_eq_zero (by omega)
  · obtain ⟨t, ht, hwaiting⟩ := List.countP_pos_iff.1 (Nat.pos_of_ne_zero hwaits)
    exact h.queue_eq_nil_of_waiting ht hwaiting

/-- **The counter** says how many workers wait. -/
theorem IsSettled.spare_eq (h : IsSettled expires blocked w) (hr : Reachable name core w)
    (hopen : w.closed = false) : w.spare = w.countStage isWaiting := by
  have hspare := (hr.balanced hopen).spare_eq
  obtain ⟨hqueued, -, hexpired, -⟩ := h.nobody_owes
  have hcredited := countStage_isCredited w
  rw [h.queue_eq_nil hr hopen, hqueued] at hspare
  simp only [List.length_nil] at hspare
  omega

/-! ### The jobs that block -/

/-- Jobs that were handed in once were queued once. -/
theorem nodup_sent (h : (w.submissions.map Submission.job).Nodup) : w.sent.Nodup :=
  List.nodup_iff_count.2 fun job =>
    Nat.le_trans (count_sent_le job) (List.nodup_iff_count.1 h job)

/-- The jobs with a worker block. -/
theorem IsSettled.held_perm (h : IsSettled expires blocked w) (hr : Reachable name core w)
    (hqueue : w.queue = []) (hjobs : (w.submissions.map Submission.job).Nodup)
    (hnodup : blocked.Nodup) (haccepted : ∀ job ∈ blocked, .accepted job ∈ w.submissions)
    (hlasting : ∀ job ∈ blocked, job ∉ w.ended) : w.held.Perm blocked := by
  have hsent := hr.sent_perm
  rw [hqueue, List.nil_append] at hsent
  have hheld : w.held.Nodup := (List.nodup_append.1 (hsent.nodup_iff.1 (nodup_sent hjobs))).1
  refine (List.perm_ext_iff_of_nodup hheld hnodup).2 fun job => ⟨?_, ?_⟩
  · intro hmem
    obtain ⟨t, ht, hjob⟩ := List.mem_filterMap.1 hmem
    obtain hs | hs | hs := h.stage ht
    · cases hstage : t.stage <;> simp_all [isWaiting, job?]
    · rw [hs] at hjob
      cases hjob
    · obtain ⟨job', hmem', hs⟩ := isHeldUp_iff.1 hs
      rw [hs] at hjob
      cases hjob
      exact hmem'
  · intro hmem
    have hqueued : job ∈ w.sent := List.mem_filterMap.2 ⟨_, haccepted job hmem, rfl⟩
    exact (List.mem_append.1 (hsent.mem_iff.1 hqueued)).resolve_right (hlasting job hmem)

/-- **As many jobs run as block.** -/
theorem IsSettled.active_eq_length (h : IsSettled expires blocked w) (hr : Reachable name core w)
    (hheld : w.held.Perm blocked) : w.active = blocked.length := by
  rw [h.active_eq hr, ← hheld.length_eq, held, List.length_filterMap_eq_countP]
  refine List.countP_congr fun t ht => ?_
  have hstage := h.stage ht
  cases hs : t.stage <;> simp_all [isHeldUp, isFree, isWaiting, job?]

/-- **A job that was taken was begun once.** -/
theorem IsSettled.executions_eq (h : IsSettled expires blocked w) (hr : Reachable name core w)
    (hqueue : w.queue = []) (hjobs : (w.submissions.map Submission.job).Nodup)
    (hmem : .accepted job ∈ w.submissions) : w.executions job = 1 := by
  have hone : (w.submissions.map Submission.job).count job = 1 := by
    rw [hjobs.count]
    exact if_pos (List.mem_map.2 ⟨_, hmem, rfl⟩)
  have hsent := count_sent_of_accepted hone hmem
  have haccounted : w.countCalls (hasSent job) =
      w.queue.count job + w.countStage (holds job) + w.ended.count job := hr.accounted job
  have hruns : w.countStage (holds job) = w.countStage (runs job) := by
    refine List.countP_congr fun t ht => ?_
    have hstage := h.stage ht
    cases hs : t.stage <;> simp_all [holds, runs, isWaiting, isHeldUp, isFree]
  rw [← count_sent, hsent, hqueue, hruns] at haccounted
  rw [executions]
  simpa using haccounted.symm

/-! ### What a script lets happen -/

/-- A step by number that is taken is one of them. -/
theorem exists_of_firstStep {count : Nat} {event : Nat → Event}
    (h : w.firstStep count event = some v) : ∃ i, w.step (event i) = some v := by
  obtain ⟨i, -, hi⟩ := List.exists_of_findSome?_eq_some h
  exact ⟨i, hi⟩

/-- If none is taken, none is possible. -/
theorem step_of_firstStep {count : Nat} {event : Nat → Event}
    (h : w.firstStep count event = none) (hi : i < count) : w.step (event i) = none :=
  List.findSome?_eq_none_iff.1 h i (List.mem_range.2 hi)

/-- A worker that goes on does so by itself. -/
theorem happens_of_goOn {crashing : List Nat} (hi : w.workers[i]? = some t)
    (hfree : isFree blocked t.stage = true) (hs : w.goOn crashing i = some v) :
    Happens expires blocked w v := by
  have hallowed : w.isAllowed expires blocked (.proceed i) = true := by
    rw [isAllowed, hi]
    exact hfree
  rw [goOn] at hs
  split at hs
  · rename_i job hrun
    split at hs
    · rw [hi] at hrun
      cases hrun
      exact .crash hi hfree hs
    · exact .step _ hallowed hs
  · exact .step _ hallowed hs

/-- **What a script lets happen** can happen by itself. -/
theorem happens_of_next {crashing : List Nat} (h : next blocked crashing expires w = some v) :
    Happens expires blocked w v := by
  simp only [next, Option.or_eq_some_iff] at h
  obtain ((((h | ⟨-, h⟩) | ⟨-, h⟩) | ⟨-, h⟩) | ⟨-, h⟩) | ⟨-, h⟩ := h
  · obtain ⟨i, hs⟩ := exists_of_firstStep h
    exact .step (.submit i) rfl hs
  · obtain ⟨i, -, hi⟩ := List.exists_of_findSome?_eq_some h
    split at hi
    · rename_i hany
      obtain ⟨t, ht, hfree⟩ := (Option.any_eq_true _ _).1 hany
      exact happens_of_goOn ht hfree hi
    · cases hi
  · obtain ⟨i, -, hs⟩ := Option.bind_eq_some_iff.1 h
    exact .step (.receive i) rfl hs
  · split at h
    · rename_i hexp
      obtain ⟨i, hs⟩ := exists_of_firstStep h
      exact .step (.expire i) hexp hs
    · cases h
  · obtain ⟨i, hs⟩ := exists_of_firstStep h
    exact .step (.hangUp i) rfl hs
  · obtain ⟨i, hs⟩ := exists_of_firstStep h
    exact .step (.close i) rfl hs

/-- The first of two that is not worse, over a list. -/
theorem foldl_longest (l : List (Nat × Nat)) (y : Nat × Nat) :
    ∃ z, l.foldl (fun best x =>
      match best with
      | none => some x
      | some y => some (if x.1 < y.1 then x else y)) (some y) = some z ∧ (z = y ∨ z ∈ l) := by
  induction l generalizing y with
  | nil => exact ⟨y, rfl, .inl rfl⟩
  | cons x l ih =>
    obtain ⟨z, hz, hmem⟩ := ih (if x.1 < y.1 then x else y)
    refine ⟨z, hz, ?_⟩
    obtain rfl | hmem := hmem
    · split
      · exact .inr List.mem_cons_self
      · exact .inl rfl
    · exact .inr (List.mem_cons_of_mem _ hmem)

/-- The moment since when a worker waits, and its number. -/
def waitsSince (p : Worker × Nat) : Option (Nat × Nat) :=
  match p.1.stage with
  | .waiting since => some (since, p.2)
  | _ => none

/-- If a worker waits, the one that waits longest does. -/
theorem exists_longestWaiting (ht : t ∈ w.workers) (hwaits : t.stage.isWaiting = true) :
    ∃ i u, w.longestWaiting = some i ∧ w.workers[i]? = some u ∧ u.stage.isWaiting = true := by
  obtain ⟨j, hj⟩ := List.mem_iff_getElem?.1 ht
  have hwaiting : ∀ x ∈ w.workers.zipIdx.filterMap waitsSince, ∃ u, w.workers[x.2]? = some u ∧
      u.stage.isWaiting = true := by
    intro x hx
    obtain ⟨p, hp, hsince⟩ := List.mem_filterMap.1 hx
    have hu := List.mem_zipIdx_iff_getElem?.1 hp
    cases hs : p.1.stage <;> simp only [waitsSince, hs, reduceCtorEq, Option.some.injEq] at hsince
    subst hsince
    exact ⟨p.1, hu, by rw [hs]; rfl⟩
  cases hl : w.workers.zipIdx.filterMap waitsSince with
  | nil =>
    have hnone := List.filterMap_eq_nil_iff.1 hl (t, j) (List.mem_zipIdx_iff_getElem?.2 hj)
    cases hs : t.stage <;> simp_all [waitsSince, isWaiting]
  | cons y l =>
    obtain ⟨z, hz, hmem⟩ := foldl_longest l y
    have hin : z ∈ w.workers.zipIdx.filterMap waitsSince := by
      rw [hl]
      obtain rfl | hmem := hmem
      · exact List.mem_cons_self
      · exact List.mem_cons_of_mem _ hmem
    obtain ⟨u, hu, hstage⟩ := hwaiting z hin
    refine ⟨z.2, u, ?_, hu, hstage⟩
    show ((w.workers.zipIdx.filterMap waitsSince).foldl _ none).map Prod.snd = some z.2
    rw [hl]
    exact congrArg (Option.map Prod.snd) hz

/-- When some worker can take a job, the one that waits longest can. -/
theorem longestWaiting_receives (hs : w.step (.receive i) = some v) :
    ∃ j x, w.longestWaiting = some j ∧ w.step (.receive j) = some x := by
  obtain ⟨t, hi, hs⟩ := Option.bind_eq_some_iff.1 hs
  cases hstage : t.stage with
  | waiting since =>
    obtain ⟨j, u, hlongest, hj, hwaits⟩ :=
      exists_longestWaiting (List.mem_of_getElem? hi) (by rw [hstage]; rfl)
    rw [hstage, stepReceive] at hs
    -- Both read the same queue, so there is a job for the other one as well.
    cases hq : w.queue with
    | nil =>
      rw [hq] at hs
      cases hs
    | cons job rest =>
      refine ⟨j, { w with queue := rest }.become j (.taken job), hlongest, ?_⟩
      simp only [step, hj, Option.bind_some]
      cases hu : u.stage with
      | waiting _ =>
        rw [stepReceive, hq]
      | taken | running | ended | idle | expired | staying | leaving | gone =>
        rw [hu] at hwaits
        cases hwaits
  | taken | running | ended | idle | expired | staying | leaving | gone =>
    rw [hstage] at hs
    cases hs

/-- **A script stops when nothing can happen** any more. -/
theorem isSettled_of_next {crashing : List Nat} (h : next blocked crashing expires w = none) :
    IsSettled expires blocked w := by
  simp only [next, Option.or_eq_none_iff] at h
  obtain ⟨⟨⟨⟨⟨hsubmit, hworker⟩, hreceive⟩, hexpire⟩, hhangUp⟩, hclose⟩ := h
  intro v hv
  obtain ⟨e, ha, hs⟩ := hv.exists_step
  cases e with
  | submit i =>
    obtain ⟨c, hi, -⟩ := Option.bind_eq_some_iff.1 hs
    rw [step_of_firstStep hsubmit (List.getElem?_eq_some_iff.1 hi).1] at hs
    cases hs
  | close i =>
    obtain ⟨c, hi, -⟩ := Option.bind_eq_some_iff.1 hs
    rw [step_of_firstStep hclose (List.getElem?_eq_some_iff.1 hi).1] at hs
    cases hs
  | receive i =>
    obtain ⟨j, x, hlongest, hj⟩ := longestWaiting_receives hs
    rw [hlongest] at hreceive
    cases hreceive.symm.trans hj
  | expire i =>
    have hexp : expires = true := ha
    rw [if_pos hexp] at hexpire
    cases hi : w.workers[i]? with
    | none => simp [step, hi] at hs
    | some t =>
      rw [step_of_firstStep hexpire (List.getElem?_eq_some_iff.1 hi).1] at hs
      cases hs
  | hangUp i =>
    cases hi : w.workers[i]? with
    | none => simp [step, hi] at hs
    | some t =>
      rw [step_of_firstStep hhangUp (List.getElem?_eq_some_iff.1 hi).1] at hs
      cases hs
  | proceed i =>
    obtain ⟨t, hi, -⟩ := Option.bind_eq_some_iff.1 hs
    rw [isAllowed, hi] at ha
    have hfree : isFree blocked t.stage = true := ha
    have hnone := List.findSome?_eq_none_iff.1 hworker i
      (List.mem_range.2 (List.getElem?_eq_some_iff.1 hi).1)
    rw [hi, Option.any_some, if_pos hfree, goOn] at hnone
    split at hnone
    · rename_i hrun
      split at hnone
      · rw [crash_eq hrun, hs] at hnone
        cases hnone
      · rw [hs] at hnone
        cases hnone
    · rw [hs] at hnone
      cases hnone

/-- One way after the other. -/
theorem Way.trans {way : List Nat} (h : Way expires blocked w seen v)
    (h' : Way expires blocked v way u) : Way expires blocked w (way ++ seen) u := by
  induction h' with
  | refl => exact h
  | step _ hs ih => exact ih.step hs

/-- **What a script settles by** is one of the ways. -/
theorem exists_way_settleFor (crashing : List Nat) (n : Nat) (w : Workers) :
    ∃ way, Way expires blocked w way (w.settleFor blocked crashing expires n) := by
  induction n generalizing w with
  | zero => exact ⟨[], .refl⟩
  | succ n ih =>
    rw [settleFor]
    cases hnext : next blocked crashing expires w with
    | none => exact ⟨[], .refl⟩
    | some v =>
      obtain ⟨way, hway⟩ := ih v
      exact ⟨_, (Way.refl.step (happens_of_next hnext)).trans hway⟩

end Workers

end HeldReply
