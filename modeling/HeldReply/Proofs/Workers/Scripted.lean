import HeldReply.Proofs.Workers.Growth

/-!
# How many workers a script needs

A script hands in jobs, releases those that block, pauses and shuts down, one after the other, and
before its next step everything happens that can happen by itself.  A job never waits for one that
blocks: it takes a worker that waits, or one more is started for it.  So there are as many workers as
jobs were ever running at once, unless more of them never leave; and a pause takes those away that are
not needed.  Who does not wait for a job at all is gone again as soon as its own is over.

* `Workers.Order`, `Workers.Obeys`, `Workers.Scripted` — the **steps of a script**, what becomes of the
  workers in one of them, and what they can come to;
* `Workers.Fits`, `Workers.Scripted.fits` — **the invariant** of a script;
* `Workers.Fits.live_of_submit`, `Workers.Fits.live_of_pause`, `Workers.Fits.live_of_closed` — how many
  workers there are after each step;
* `Workers.Scripted.size` — **how many workers a script needs**.
-/

namespace HeldReply

namespace Workers

open Worker.Stage Submission

/-- A **step of a script**. -/
inductive Order where
  /-- A job is handed in; one that does not block returns or crashes. -/
  | submit (blocks : Bool)
  /-- A job that blocks is released. -/
  | release (job : Nat)
  /-- Workers have the time to give up waiting. -/
  | pause
  | shutdown
  deriving DecidableEq, Repr

/-- Who comes with it. -/
def Order.arrives (w : Workers) : Order → Workers
  | .submit _ => { w with submissions := w.submissions ++ [.arrived w.submissions.length] }
  | .shutdown => { w with shutdowns := w.shutdowns ++ [.arrived] }
  | .release _ | .pause => w

/-- The jobs that block from then on. -/
def Order.blocks (w : Workers) (blocked : List Nat) : Order → List Nat
  | .submit true => if w.closed then blocked else w.submissions.length :: blocked
  | .release job => blocked.erase job
  | .submit false | .pause | .shutdown => blocked

/-- Whether workers give up waiting: in a pause, or at any time if they do not wait at all. -/
def Order.expires (hasty : Bool) : Order → Bool
  | .pause => true
  | .submit _ | .release _ | .shutdown => hasty

variable {w v u : Workers} {i job : Nat} {t : Worker} {name : String} {core : Nat}
  {es : List JobEvent} {expires hasty : Bool} {blocked seen way : List Nat} {o : Order}

/-- **What becomes of the workers** in one step: everything happens that can, in any order. -/
structure Obeys (hasty : Bool) (blocked : List Nat) (w : Workers) (o : Order) (way : List Nat)
    (v : Workers) : Prop where
  way : Way (o.expires hasty) (o.blocks w blocked) (o.arrives w) way v
  settled : IsSettled (o.expires hasty) (o.blocks w blocked) v

/-- **What the workers can come to** under a script, with the jobs that block, and the numbers of jobs
that were running at any time. -/
inductive Scripted (name : String) (core : Nat) (hasty : Bool) :
    List Nat → List Nat → Workers → Prop
  | start {w : Workers} (h : Workers.start name core = .ok w) : Scripted name core hasty [] [] w
  | obey {blocked seen way : List Nat} {w v : Workers}
      (h : Scripted name core hasty blocked seen w) (o : Order)
      (ho : Obeys hasty blocked w o way v) :
      Scripted name core hasty (o.blocks w blocked) (way ++ seen) v

/-! ### What holds under a script -/

/-- **The invariant of a script.** -/
structure Fits (name : String) (core : Nat) (hasty : Bool) (blocked seen : List Nat)
    (w : Workers) : Prop where
  reachable : Reachable name core w
  settled : IsSettled hasty blocked w
  /-- Jobs are numbered as they come. -/
  numbered : w.submissions.map Submission.job = List.range w.submissions.length
  queue : w.queue = []
  nodup : blocked.Nodup
  accepted : ∀ job ∈ blocked, .accepted job ∈ w.submissions
  lasting : ∀ job ∈ blocked, job ∉ w.ended
  size : w.closed = false → w.live ≤ seen.foldr max core
  shut : w.closed = false ∧ w.shutdowns = [] ∨ w.closed = true ∧ Awaits w 0

theorem Fits.jobs_nodup (h : Fits name core hasty blocked seen w) :
    (w.submissions.map Submission.job).Nodup := by
  rw [h.numbered]
  exact List.nodup_range

/-- **The jobs that run are those that block.** -/
theorem Fits.active_eq (h : Fits name core hasty blocked seen w) : w.active = blocked.length :=
  h.settled.active_eq_length h.reachable
    (h.settled.held_perm h.reachable h.queue h.jobs_nodup h.nodup h.accepted h.lasting)

/-- A job has a number below the next one. -/
theorem Fits.lt_of_mem (h : Fits name core hasty blocked seen w) {c : Submission}
    (hc : c ∈ w.submissions) : c.job < w.submissions.length := by
  have hmem : c.job ∈ w.submissions.map Submission.job := List.mem_map.2 ⟨c, hc, rfl⟩
  rw [h.numbered] at hmem
  exact List.mem_range.1 hmem

/-- The next job was not begun. -/
theorem Fits.executions_eq_zero (h : Fits name core hasty blocked seen w) :
    w.executions w.submissions.length = 0 := by
  have hle := h.reachable.executions_le w.submissions.length
  rw [h.numbered, List.count_eq_zero_of_not_mem List.not_mem_range_self] at hle
  exact Nat.le_zero.1 hle

/-- Nor is it over. -/
theorem Fits.not_mem_ended (h : Fits name core hasty blocked seen w) :
    w.submissions.length ∉ w.ended := by
  have hnone := h.executions_eq_zero
  rw [executions] at hnone
  exact List.count_eq_zero.1 (by omega)

theorem Order.reachable (hr : Reachable name core w) (o : Order) :
    Reachable name core (o.arrives w) := by
  cases o with
  | submit blocks => exact hr.submit _
  | release job => exact hr
  | pause => exact hr
  | shutdown => exact hr.shutdown

theorem Obeys.reachable (ho : Obeys hasty blocked w o way v) (hr : Reachable name core w) :
    Reachable name core v :=
  ho.way.reachable (o.reachable hr)

/-- Who blocked before and is not released blocks. -/
theorem Order.mem_blocks (hmem : job ∈ o.blocks w blocked) :
    job ∈ blocked ∨ w.closed = false ∧ o = .submit true ∧ job = w.submissions.length := by
  cases o with
  | submit blocks =>
    cases blocks with
    | false => exact .inl hmem
    | true =>
      rw [Order.blocks] at hmem
      split at hmem
      · exact .inl hmem
      · rename_i hopen
        obtain rfl | hmem := List.mem_cons.1 hmem
        · exact .inr ⟨by simpa using hopen, rfl, rfl⟩
        · exact .inl hmem
  | release job' => exact .inl (List.mem_of_mem_erase hmem)
  | pause => exact .inl hmem
  | shutdown => exact .inl hmem

theorem Fits.nodup_blocks (h : Fits name core hasty blocked seen w) (o : Order) :
    (o.blocks w blocked).Nodup := by
  cases o with
  | submit blocks =>
    cases blocks with
    | false => exact h.nodup
    | true =>
      rw [Order.blocks]
      split
      · exact h.nodup
      · refine List.nodup_cons.2 ⟨fun hmem => ?_, h.nodup⟩
        exact Nat.lt_irrefl _ (h.lt_of_mem (h.accepted _ hmem))
  | release job => exact h.nodup.erase job
  | pause => exact h.nodup
  | shutdown => exact h.nodup

/-- Callers come one after the other. -/
theorem Fits.numbered_of_obeys (h : Fits name core hasty blocked seen w)
    (ho : Obeys hasty blocked w o way v) :
    v.submissions.map Submission.job = List.range v.submissions.length := by
  have hcome : (o.arrives w).submissions.map Submission.job =
      List.range (o.arrives w).submissions.length := by
    cases o with
    | submit blocks =>
      show (w.submissions ++ [_]).map _ = List.range (w.submissions ++ [_]).length
      rw [List.map_append, h.numbered, List.length_append]
      exact List.range_succ.symm
    | release job => exact h.numbered
    | pause => exact h.numbered
    | shutdown => exact h.numbered
  have hsame := ho.way.jobs_eq
  have hlen := congrArg List.length hsame
  rw [List.length_map, List.length_map] at hlen
  rw [hsame, hcome, hlen]

/-- **As long as nobody shuts the workers down**, jobs are taken. -/
theorem Way.isOpen (h : Way expires blocked w way v) (hopen : w.closed = false)
    (hnobody : w.shutdowns = []) : v.closed = false ∧ v.shutdowns = [] := by
  induction h with
  | refl => exact ⟨hopen, hnobody⟩
  | @step v u way _ hs ih =>
    have hnone : ∀ {i : Nat} {b : Shutdown}, v.shutdowns[i]? ≠ some b := by
      intro i b hi
      rw [ih.2] at hi
      cases hi
    obtain ⟨es, hm, -, -⟩ := hs.moves
    cases hm with
    | close hi | fetch hi | join hi | leaveJoin hi => exact absurd hi hnone
    | send | refuse | count | grow | keep | receive | begin | finish | uncount | wait | decide
    | leave | expire | hangUp => exact ih

/-- Jobs that are taken were taken before. -/
theorem Obeys.wasOpen (ho : Obeys hasty blocked w o way v) (hv : v.closed = false) :
    w.closed = false := by
  have hstart : (o.arrives w).closed = false := by
    have hway := ho.way
    clear ho
    induction hway with
    | refl => exact hv
    | step _ hs ih =>
      obtain ⟨es, hm, -, -⟩ := hs.moves
      exact ih (hm.isOpen hv)
  cases o <;> exact hstart

/-- Jobs are taken until somebody shuts the workers down. -/
theorem Fits.nobody (h : Fits name core hasty blocked seen w) (hopen : w.closed = false) :
    w.shutdowns = [] := by
  obtain ⟨-, hnobody⟩ | ⟨hclosed, -⟩ := h.shut
  · exact hnobody
  · cases hopen.symm.trans hclosed

/-- **A job that is handed in is taken** as long as jobs are. -/
theorem Fits.accepted_of_submit {blocks : Bool} (h : Fits name core hasty blocked seen w)
    (hopen : w.closed = false) (ho : Obeys hasty blocked w (.submit blocks) way v) :
    .accepted w.submissions.length ∈ v.submissions := by
  obtain ⟨hstill, -⟩ := ho.way.isOpen hopen (h.nobody hopen)
  have hmem : w.submissions.length ∈ v.submissions.map Submission.job := by
    rw [ho.way.jobs_eq]
    exact List.mem_map.2 ⟨_, List.mem_append_right _ (List.mem_singleton.2 rfl), rfl⟩
  obtain ⟨c, hc, hjob⟩ := List.mem_map.1 hmem
  have hover := ho.settled.isOver hc
  have hfair := (ho.reachable h.reachable).isFair hstill c hc
  cases c with
  | accepted job =>
    cases hjob
    exact hc
  | refused job => exact absurd rfl (hfair job)
  | arrived | queued | growing | keeping => cases hover

/-- When nobody hands in a job that is taken, every caller has its answer. -/
theorem Fits.silent (h : Fits name core hasty blocked seen w)
    (ho : w.closed = true ∨ ∀ blocks, o ≠ .submit blocks) : IsSilent (o.arrives w) := by
  have hover : IsSilent w := fun c hc => .inl (h.settled.isOver hc)
  cases o with
  | submit blocks =>
    obtain hclosed | hne := ho
    · intro c hc
      obtain hc | hc := List.mem_append.1 hc
      · exact hover c hc
      · exact .inr ⟨hclosed, _, List.mem_singleton.1 hc⟩
    · exact absurd rfl (hne blocks)
  | release job => exact hover
  | pause => exact hover
  | shutdown => exact hover

/-- **A job that is handed in is refused** as soon as none is taken any more. -/
theorem Fits.refused_of_submit {blocks : Bool} (h : Fits name core hasty blocked seen w)
    (hclosed : w.closed = true) (ho : Obeys hasty blocked w (.submit blocks) way v) :
    .refused w.submissions.length ∈ v.submissions := by
  have hmem : w.submissions.length ∈ v.submissions.map Submission.job := by
    rw [ho.way.jobs_eq]
    exact List.mem_map.2 ⟨_, List.mem_append_right _ (List.mem_singleton.2 rfl), rfl⟩
  obtain ⟨c, hc, hjob⟩ := List.mem_map.1 hmem
  have hover := ho.settled.isOver hc
  have htaken := (ho.way.silent (h.silent (.inl hclosed))).2.2.2
  cases c with
  | refused job =>
    cases hjob
    exact hc
  | accepted job =>
    cases hjob
    -- Only a caller that came before has its job taken.
    obtain hbefore | hlast := List.mem_append.1 (htaken _ hc)
    · exact absurd (h.lt_of_mem hbefore) (Nat.lt_irrefl _)
    · cases List.mem_singleton.1 hlast
  | arrived | queued | growing | keeping => cases hover

/-- **No job is queued** when all has happened. -/
theorem Fits.queue_of_obeys (h : Fits name core hasty blocked seen w)
    (ho : Obeys hasty blocked w o way v) : v.queue = [] := by
  have hqueue : (o.arrives w).queue = [] := by
    rw [← h.queue]
    cases o <;> rfl
  cases hclosed : w.closed with
  | true => exact (ho.way.silent (h.silent (.inl hclosed))).2.2.1 hqueue
  | false =>
    cases o with
    | submit blocks =>
      exact ho.settled.queue_eq_nil (ho.reachable h.reachable)
        (ho.way.isOpen hclosed (h.nobody hclosed)).1
    | release | pause | shutdown =>
      exact (ho.way.silent (h.silent (.inr fun _ => Order.noConfusion))).2.2.1 hqueue

/-- **Jobs that block were taken.** -/
theorem Fits.accepted_of_obeys (h : Fits name core hasty blocked seen w)
    (ho : Obeys hasty blocked w o way v) (hmem : job ∈ o.blocks w blocked) :
    .accepted job ∈ v.submissions := by
  obtain hold | ⟨hopen, rfl, rfl⟩ := o.mem_blocks hmem
  · refine ho.way.mem_of_isOver ?_ rfl
    have hbefore := h.accepted job hold
    cases o with
    | submit blocks => exact List.mem_append_left _ hbefore
    | release job' => exact hbefore
    | pause => exact hbefore
    | shutdown => exact hbefore
  · exact h.accepted_of_submit hopen ho

/-- **Jobs that block are not over.** -/
theorem Fits.lasting_of_obeys (h : Fits name core hasty blocked seen w)
    (ho : Obeys hasty blocked w o way v) (hmem : job ∈ o.blocks w blocked) : job ∉ v.ended := by
  refine ho.way.not_mem_ended hmem ?_
  have hsame : (o.arrives w).ended = w.ended := by cases o <;> rfl
  rw [hsame]
  obtain hold | ⟨-, -, rfl⟩ := Order.mem_blocks hmem
  · exact h.lasting job hold
  · exact h.not_mem_ended

/-! ### After a job was handed in -/

/-- At rest nobody thinks of leaving. -/
theorem IsSettled.isCalm (h : IsSettled expires blocked w) : IsCalm w := by
  intro t ht
  have hstage := h.stage ht
  cases hs : t.stage <;> simp_all [isRestless, isWaiting, isHeldUp, isFree]

/-- The jobs that block when one more comes. -/
theorem Order.subset_blocks {blocks : Bool} (hmem : job ∈ blocked) :
    job ∈ (Order.submit blocks).blocks w blocked := by
  cases blocks with
  | false => exact hmem
  | true =>
    rw [Order.blocks]
    split
    · exact hmem
    · exact List.mem_cons_of_mem _ hmem

/-- Who is held up is held up when more jobs block. -/
theorem isHeldUp_mono {blocked' : List Nat} {stage : Worker.Stage}
    (hle : ∀ job ∈ blocked, job ∈ blocked') (h : stage.isHeldUp blocked = true) :
    stage.isHeldUp blocked' = true := by
  obtain ⟨job, hmem, rfl⟩ := isHeldUp_iff.1 h
  exact isHeldUp_iff.2 ⟨job, hle job hmem, rfl⟩

/-- **If a worker waits, it takes the job**, and no other is started. -/
theorem Fits.live_of_spared {blocks : Bool} (h : Fits name core hasty blocked seen w)
    (hopen : w.closed = false) (hwaits : 0 < w.countStage isWaiting)
    (ho : Obeys hasty blocked w (.submit blocks) way v) : v.live = w.live := by
  have hover : ∀ c ∈ w.submissions, c.isOver = true := fun c hc => h.settled.isOver hc
  have hspare : 0 < w.spare := by
    rw [h.settled.spare_eq h.reachable hopen]
    exact Int.natCast_pos.2 hwaits
  have hstart : Spared hasty ((Order.submit blocks).blocks w blocked) w
      ((Order.submit blocks).arrives w) := by
    refine ⟨hopen, h.nobody hopen, ⟨_, rfl, .inr ⟨rfl, hspare⟩⟩, rfl, h.settled.isCalm, ?_⟩
    rintro rfl t ht hcore
    obtain hwaiting | hgone | hheld := h.settled.stage ht
    · cases hcore.symm.trans (h.settled.core_of_waiting ht hwaiting)
    · exact .inl hgone
    · exact .inr (isHeldUp_mono (fun _ => Order.subset_blocks) hheld)
  have hend : Spared hasty ((Order.submit blocks).blocks w blocked) w v := by
    have hway := ho.way
    clear ho
    induction hway with
    | refl => exact hstart
    | step _ hs ih => exact ih.happens hover hs
  exact hend.live_eq

/-- **If none waits, one more is started.** -/
theorem Fits.live_of_grown {blocks : Bool} (h : Fits name core false blocked seen w)
    (hopen : w.closed = false) (hnone : w.countStage isWaiting = 0)
    (ho : Obeys false blocked w (.submit blocks) way v) : v.live = w.live + 1 := by
  have hover : ∀ c ∈ w.submissions, c.isOver = true := fun c hc => h.settled.isOver hc
  have hspare : w.spare ≤ 0 := by
    rw [h.settled.spare_eq h.reachable hopen, hnone]
    exact Int.le_refl 0
  have hstuck : ∀ t ∈ w.workers,
      t.stage = .gone ∨ t.stage.isHeldUp ((Order.submit blocks).blocks w blocked) = true := by
    intro t ht
    obtain hwaiting | hgone | hheld := h.settled.stage ht
    · exact absurd hwaiting (List.countP_eq_zero.1 hnone t ht)
    · exact .inl hgone
    · exact .inr (isHeldUp_mono (fun _ => Order.subset_blocks) hheld)
  have hstart : Grown w ((Order.submit blocks).arrives w) :=
    ⟨hopen, h.nobody hopen, h.settled.isCalm, _, rfl, .inl ⟨.inl ⟨rfl, hspare⟩, rfl, rfl⟩⟩
  have hend : Grown w v := by
    have hway := ho.way
    clear ho
    induction hway with
    | refl => exact hstart
    | step _ hs ih => exact ih.happens hover hstuck hs
  obtain ⟨c, hc, hphase⟩ := hend.call
  have hlast : c.isOver = true := ho.settled.isOver (by rw [hc]; simp)
  obtain ⟨hearly, -⟩ | ⟨-, hlive⟩ := hphase
  · cases c <;> simp_all [Submission.isOver, isUncounted, isGrowing]
  · exact hlive

/-- **If none waits and nobody waits for jobs at all**, no more are left than run a job. -/
theorem Fits.live_of_hasty {blocks : Bool} (h : Fits name core true blocked seen w)
    (hopen : w.closed = false) (hnone : w.countStage isWaiting = 0)
    (ho : Obeys true blocked w (.submit blocks) way v) : v.live = v.active := by
  have hv := ho.reachable h.reachable
  obtain ⟨hstill, -⟩ := ho.way.isOpen hopen (h.nobody hopen)
  have hcore : w.countHeldUp id ((Order.submit blocks).blocks w blocked) = core := by
    rw [← h.reachable.countCore_eq]
    refine List.countP_congr fun t ht => ?_
    obtain hwaiting | hgone | hheld := h.settled.stage ht
    · exact absurd hwaiting (List.countP_eq_zero.1 hnone t ht)
    · simp [h.reachable.staffed.not_core_of_gone hopen ht hgone]
    · have hstill : t.stage.isHeldUp ((Order.submit blocks).blocks w blocked) = true :=
        isHeldUp_mono (fun _ => Order.subset_blocks) hheld
      simp [hstill]
  have hstay : core ≤ v.countHeldUp id ((Order.submit blocks).blocks w blocked) := by
    rw [← hcore]
    exact ho.way.countHeldUp_le id
  -- Those that never leave are held up, and only they would still wait.
  have hsplit : v.countCore = v.countHeldUp id ((Order.submit blocks).blocks w blocked) +
      v.countStage isWaiting := by
    refine countP_eq_add fun t ht => ?_
    have hstage := ho.settled.stage ht
    have hwaits := ho.settled.core_of_waiting ht
    have hgone := hv.staffed.not_core_of_gone hstill ht
    cases hs : t.stage <;> simp_all [isWaiting, isHeldUp, isFree]
  rw [hv.countCore_eq] at hsplit
  rw [ho.settled.live_eq hv, ho.settled.active_eq hv]
  omega

/-- As many jobs block as run when all has happened. -/
theorem Fits.active_of_obeys (h : Fits name core hasty blocked seen w)
    (ho : Obeys hasty blocked w o way v) : v.active = (o.blocks w blocked).length := by
  have hv := ho.reachable h.reachable
  have hjobs : (v.submissions.map Submission.job).Nodup := by
    rw [h.numbered_of_obeys ho]
    exact List.nodup_range
  refine ho.settled.active_eq_length hv (ho.settled.held_perm hv (h.queue_of_obeys ho) hjobs
    (h.nodup_blocks o) ?_ ?_)
  · exact fun job hmem => h.accepted_of_obeys ho hmem
  · exact fun job hmem => h.lasting_of_obeys ho hmem

/-- **How many workers there are after a job was handed in**: one for it and one for each job that
blocks, unless there were more; but the one that was started for it is gone again if it does not wait
at all, and the job is over. -/
theorem Fits.live_of_submit {blocks : Bool} (h : Fits name core hasty blocked seen w)
    (hopen : w.closed = false) (ho : Obeys hasty blocked w (.submit blocks) way v) :
    v.live = if hasty && !blocks then w.live else max w.live (w.active + 1) := by
  have hlive := h.settled.live_eq h.reachable
  rw [← h.settled.active_eq h.reachable] at hlive
  by_cases hwaits : 0 < w.countStage isWaiting
  · rw [h.live_of_spared hopen hwaits ho]
    split <;> omega
  · have hnone : w.countStage isWaiting = 0 := Nat.eq_zero_of_not_pos hwaits
    cases hasty with
    | false =>
      rw [h.live_of_grown hopen hnone ho, Bool.false_and, if_neg Bool.false_ne_true]
      omega
    | true =>
      rw [h.live_of_hasty hopen hnone ho, h.active_of_obeys ho]
      have hactive := h.active_eq
      cases blocks with
      | false =>
        show blocked.length = w.live
        omega
      | true =>
        show (if w.closed = true then blocked else w.submissions.length :: blocked).length =
          max w.live (w.active + 1)
        rw [if_neg (by rw [hopen]; exact Bool.false_ne_true), List.length_cons]
        omega

/-- **The job that came last was begun once**, and is not over if it blocks. -/
theorem Fits.executions_of_submit {blocks : Bool} (h : Fits name core hasty blocked seen w)
    (hopen : w.closed = false) (ho : Obeys hasty blocked w (.submit blocks) way v) :
    v.executions w.submissions.length = 1 ∧
      (blocks = true → w.submissions.length ∉ v.ended) := by
  constructor
  · refine ho.settled.executions_eq (ho.reachable h.reachable) (h.queue_of_obeys ho) ?_
      (h.accepted_of_submit hopen ho)
    rw [h.numbered_of_obeys ho]
    exact List.nodup_range
  · rintro rfl
    refine h.lasting_of_obeys ho ?_
    rw [Order.blocks, if_neg (by rw [hopen]; exact Bool.false_ne_true)]
    exact List.mem_cons_self

/-- **It ran beside all those that block.** -/
theorem Fits.exists_active {blocks : Bool} (h : Fits name core hasty blocked seen w)
    (hopen : w.closed = false) (ho : Obeys hasty blocked w (.submit blocks) way v) :
    ∃ n ∈ way, w.active + 1 ≤ n := by
  have hbegun := (h.executions_of_submit hopen ho).1
  obtain ⟨n, hn, hle⟩ := ho.way.exists_active
    (h.reachable.submit _) h.executions_eq_zero (by omega)
  refine ⟨n, hn, Nat.le_trans (Nat.succ_le_succ ?_) hle⟩
  rw [h.settled.active_eq h.reachable]
  exact List.countP_mono_left fun t _ => isHeldUp_mono fun _ => Order.subset_blocks

/-! ### How many there ever are -/

/-- The largest of some numbers and another is not below that one. -/
theorem le_foldr_max (l : List Nat) (n : Nat) : n ≤ l.foldr max n := by
  induction l with
  | nil => exact Nat.le_refl n
  | cons m l ih => exact Nat.le_trans ih (Nat.le_max_right _ _)

/-- Nor below any of them. -/
theorem le_foldr_max_of_mem {l : List Nat} {m : Nat} (n : Nat) (h : m ∈ l) :
    m ≤ l.foldr max n := by
  induction l with
  | nil => cases h
  | cons k l ih =>
    obtain rfl | h := List.mem_cons.1 h
    · exact Nat.le_max_left _ _
    · exact Nat.le_trans (ih h) (Nat.le_max_right _ _)

/-- **There are never more workers than never leave, or jobs that ran at once.** -/
theorem Fits.size_of_obeys (h : Fits name core hasty blocked seen w)
    (ho : Obeys hasty blocked w o way v) (hv : v.closed = false) :
    v.live ≤ (way ++ seen).foldr max core := by
  rw [List.foldr_append]
  have hbefore := le_foldr_max way (seen.foldr max core)
  have hopen : w.closed = false := ho.wasOpen hv
  have hsize := h.size hopen
  cases o with
  | submit blocks =>
    obtain ⟨n, hn, hle⟩ := h.exists_active hopen ho
    have hmax := le_foldr_max_of_mem (seen.foldr max core) hn
    rw [h.live_of_submit hopen ho]
    split <;> omega
  | release job =>
    have hless : v.live ≤ w.live :=
      (ho.way.silent (h.silent (.inr fun _ => Order.noConfusion))).2.1
    omega
  | pause =>
    have hless : v.live ≤ w.live :=
      (ho.way.silent (h.silent (.inr fun _ => Order.noConfusion))).2.1
    omega
  | shutdown =>
    have hless : v.live ≤ w.live :=
      (ho.way.silent (h.silent (.inr fun _ => Order.noConfusion))).2.1
    omega

/-! ### Shutting down -/

/-- **What becomes of the first who shuts the workers down**: it comes, no job is taken any more, and it
waits for all workers. -/
def IsShutting (w : Workers) : Prop :=
  w.shutdowns = [.arrived] ∧ w.closed = false ∨ w.shutdowns = [.closed] ∧ w.closed = true ∨
    Awaits w 0

/-- **Whatever happens**, it goes on so. -/
theorem IsShutting.moves (h : IsShutting w) (hr : Reachable name core w) (hsilent : IsSilent w)
    (hm : Moves w es v) : IsShutting v := by
  have hawaits : Awaits w 0 → IsShutting v := fun hw => .inr (.inr (hw.moves hm))
  have hfirst : ∀ {i : Nat} {b c : Shutdown}, w.shutdowns = [c] → w.shutdowns[i]? = some b →
      b = c ∧ i = 0 := by
    intro i b c hw hi
    rw [hw] at hi
    cases i with
    | zero => exact ⟨(Option.some.inj hi).symm, rfl⟩
    | succ i => cases hi
  cases hm with
  | close hi =>
    obtain ⟨hw, -⟩ | ⟨hw, -⟩ | hw := h
    · obtain ⟨-, rfl⟩ := hfirst hw hi
      refine .inr (.inl ⟨?_, rfl⟩)
      rw [shutdownCaller, hw]
      rfl
    · cases (hfirst hw hi).1
    · exact hawaits hw
  | fetch hi =>
    obtain ⟨hw, -⟩ | ⟨hw, hclosed⟩ | hw := h
    · cases (hfirst hw hi).1
    · -- The handles of all workers are kept.
      obtain ⟨-, rfl⟩ := hfirst hw hi
      refine .inr (.inr ⟨hclosed, ?_, .inl ⟨w.handles, ?_, ?_⟩⟩)
      · intro c hc
        obtain hover | ⟨-, job, rfl⟩ := hsilent c hc
        · cases c <;> simp_all [Submission.isOver, isOnTheWay]
        · rfl
      · rw [shutdownCaller, hw]
        rfl
      · intro j hj
        obtain hgone | hkept | ⟨job, hkeeping⟩ | ⟨rest, hjoining, -⟩ := hr.tracked j hj
        · exact .inl hgone
        · exact .inr hkept
        · obtain hover | ⟨-, job', harrived⟩ := hsilent _ hkeeping
          · cases hover
          · cases harrived
        · rw [hw] at hjoining
          cases List.mem_singleton.1 hjoining
    · exact hawaits hw
  | join hi | leaveJoin hi =>
    obtain ⟨hw, -⟩ | ⟨hw, -⟩ | hw := h
    · cases (hfirst hw hi).1
    · cases (hfirst hw hi).1
    · exact hawaits hw
  | send | refuse | count | grow | keep | receive | begin | finish | uncount | wait | decide
  | leave | expire | hangUp =>
    obtain hw | hw | hw := h
    · exact .inl hw
    · exact .inr (.inl hw)
    · exact hawaits hw

/-- **Whatever comes later** than a step comes later than what was before it. -/
theorem Way.later (h : Way expires blocked v way u) (hl : Later w v) : Later w u := by
  induction h with
  | refl => exact hl
  | step _ hs ih =>
    obtain ⟨e, -, hstep⟩ := hs.exists_step
    exact ih.step e hstep

theorem Order.later (w : Workers) (o : Order) : Later w (o.arrives w) := by
  cases o with
  | submit blocks => exact Later.refl.submit _
  | release job => exact .refl
  | pause => exact .refl
  | shutdown => exact Later.refl.shutdown

/-- **After a shutdown** no job is taken any more, and it returns when all workers have left. -/
theorem Fits.awaits_of_shutdown (h : Fits name core hasty blocked seen w)
    (hopen : w.closed = false) (ho : Obeys hasty blocked w .shutdown way v) : Awaits v 0 := by
  have hstart : IsShutting (Order.shutdown.arrives w) := by
    refine .inl ⟨?_, hopen⟩
    show w.shutdowns ++ [.arrived] = _
    rw [h.nobody hopen]
    rfl
  have hend : IsShutting v ∧ IsSilent v := by
    have hway := ho.way
    clear ho
    induction hway with
    | refl => exact ⟨hstart, h.silent (.inr fun _ => Order.noConfusion)⟩
    | step hway hs ih =>
      obtain ⟨es, hm, -, -⟩ := hs.moves
      have hreachable := hway.reachable (Order.shutdown.reachable h.reachable)
      exact ⟨ih.1.moves hreachable ih.2 hm, (ih.2.moves hm).1⟩
  obtain ⟨hw, -⟩ | ⟨hw, -⟩ | hw := hend.1
  · obtain hover | ⟨j, rest, hjoining, -⟩ :=
      ho.settled.shutdown (c := .arrived) (by rw [hw]; exact List.mem_cons_self)
    · cases hover
    · cases hjoining
  · obtain hover | ⟨j, rest, hjoining, -⟩ :=
      ho.settled.shutdown (c := .closed) (by rw [hw]; exact List.mem_cons_self)
    · cases hover
    · cases hjoining
  · exact hw

/-- Whoever shut the workers down first waits for all of them. -/
theorem Fits.shut_of_obeys (h : Fits name core hasty blocked seen w)
    (ho : Obeys hasty blocked w o way v) :
    v.closed = false ∧ v.shutdowns = [] ∨ v.closed = true ∧ Awaits v 0 := by
  obtain ⟨hopen, hnobody⟩ | ⟨-, hawaits⟩ := h.shut
  · cases o with
    | shutdown =>
      have hv := h.awaits_of_shutdown hopen ho
      exact .inr ⟨hv.closed, hv⟩
    | submit blocks => exact .inl (ho.way.isOpen hopen hnobody)
    | release job => exact .inl (ho.way.isOpen hopen hnobody)
    | pause => exact .inl (ho.way.isOpen hopen hnobody)
  · have hv := (ho.way.later (o.later w)).awaits hawaits
    exact .inr ⟨hv.closed, hv⟩

/-! ### A whole script -/

/-- **Each step keeps the invariant.** -/
theorem Fits.obey (h : Fits name core hasty blocked seen w) (ho : Obeys hasty blocked w o way v) :
    Fits name core hasty (o.blocks w blocked) (way ++ seen) v where
  reachable := ho.reachable h.reachable
  settled := by
    refine ho.settled.mono fun hexp => ?_
    cases o <;> simp [Order.expires, hexp]
  numbered := h.numbered_of_obeys ho
  queue := h.queue_of_obeys ho
  nodup := h.nodup_blocks o
  accepted := fun _ hmem => h.accepted_of_obeys ho hmem
  lasting := fun _ hmem => h.lasting_of_obeys ho hmem
  size := h.size_of_obeys ho
  shut := h.shut_of_obeys ho

/-- What the workers are that were just started: all of them wait. -/
structure IsFresh (w : Workers) : Prop where
  submissions : w.submissions = []
  shutdowns : w.shutdowns = []
  queue : w.queue = []
  isOpen : w.closed = false
  ended : w.ended = []
  waiting : ∀ t ∈ w.workers, t.core = true ∧ t.stage.isWaiting = true

theorem isFresh_start (h : Workers.start name core = .ok w) : IsFresh w := by
  refine start_induction h ?_ ?_
  · exact ⟨rfl, rfl, rfl, rfl, rfl, fun t ht => absurd ht List.not_mem_nil⟩
  · intro w h
    refine ⟨h.submissions, h.shutdowns, h.queue, h.isOpen, h.ended, ?_⟩
    intro t ht
    obtain ht | ht := List.mem_append.1 ht
    · exact h.waiting t ht
    · rw [List.mem_singleton.1 ht]
      exact ⟨rfl, rfl⟩

/-- Nothing happens to them by itself. -/
theorem IsFresh.isSettled (h : IsFresh w) : IsSettled hasty blocked w := by
  intro v hv
  obtain ⟨es, hm, -, -⟩ := hv.moves
  have hcall : ∀ {i : Nat} {c : Submission}, w.submissions[i]? ≠ some c := by
    intro i c hi
    rw [h.submissions] at hi
    cases hi
  have hshut : ∀ {i : Nat} {c : Shutdown}, w.shutdowns[i]? ≠ some c := by
    intro i c hi
    rw [h.shutdowns] at hi
    cases hi
  cases hm with
  | send hi | refuse hi | count hi | grow hi | keep hi => exact hcall hi
  | close hi | fetch hi | join hi | leaveJoin hi => exact hshut hi
  | receive _ hq => cases h.queue.symm.trans hq
  | begin hi | finish hi | uncount hi | decide hi | leave hi =>
    cases (h.waiting _ (List.mem_of_getElem? hi)).2
  | wait hi hstage =>
    have hwaits := (h.waiting _ (List.mem_of_getElem? hi)).2
    obtain rfl | rfl := hstage <;> cases hwaits
  | expire hi => cases (h.waiting _ (List.mem_of_getElem? hi)).1
  | hangUp _ _ hclosed => cases h.isOpen.symm.trans hclosed

/-- **What holds of workers under a script.** -/
theorem Scripted.fits (h : Scripted name core hasty blocked seen w) :
    Fits name core hasty blocked seen w := by
  induction h with
  | @start w hstart =>
    have hfresh := isFresh_start hstart
    have hreachable : Reachable name core w := .start hstart
    refine ⟨hreachable, hfresh.isSettled, ?_, hfresh.queue, List.nodup_nil, ?_, ?_, ?_, ?_⟩
    · rw [hfresh.submissions]
      rfl
    · exact fun job hmem => absurd hmem List.not_mem_nil
    · exact fun job hmem => absurd hmem List.not_mem_nil
    · intro _
      have hsettled : IsSettled true [] w := hfresh.isSettled
      have hlive := hsettled.live_le_of_expires hreachable
      have hactive := hsettled.active_eq hreachable
      have hnone : w.countStage (isHeldUp []) = 0 := by
        refine List.countP_eq_zero.2 fun t _ hheld => ?_
        obtain ⟨job, hmem, -⟩ := isHeldUp_iff.1 hheld
        cases hmem
      show w.live ≤ core
      omega
    · exact .inl ⟨hfresh.isOpen, hfresh.shutdowns⟩
  | obey _ o ho ih => exact ih.obey ho

/-- **After a pause** those that wait never leave. -/
theorem Fits.live_of_pause (h : Fits name core hasty blocked seen w)
    (hopen : w.closed = false) (ho : Obeys hasty blocked w .pause way v) :
    (∀ t ∈ v.workers, t.stage.isWaiting = true → t.core = true) ∧ v.live ≤ core + v.active ∧
      (v.active = 0 → v.live = core) := by
  have hv := ho.reachable h.reachable
  have hmany := (ho.settled.live_le_of_expires hv)
  have hcore := hv.core_le_live (ho.way.isOpen hopen (h.nobody hopen)).1
  refine ⟨fun t ht => ho.settled.core_of_waiting ht, hmany, ?_⟩
  intro hnone
  omega

/-- **After a shutdown** only the workers are left that are held up, and it has returned if none is. -/
theorem Fits.live_of_closed (h : Fits name core hasty blocked seen w)
    (hclosed : w.closed = true) :
    w.live = blocked.length ∧ (blocked = [] → ∀ c ∈ w.shutdowns, c = .over) ∧
      (w.shutdowns[0]? = some .over → w.live = 0) := by
  have hlive : w.live = blocked.length := by
    rw [h.settled.live_eq_active h.reachable hclosed, h.active_eq]
  refine ⟨hlive, ?_, ?_⟩
  · rintro rfl c hc
    obtain hover | ⟨j, rest, rfl, hj⟩ := h.settled.shutdown hc
    · exact hover
    · -- A worker that is waited for would be alive.
      have hlt := h.reachable.isKnown.joining _ hc j List.mem_cons_self
      have ht : w.workers[j]? = some w.workers[j] := List.getElem?_eq_getElem hlt
      rw [h.reachable.staffed.live_eq] at hlive
      have hdead := List.countP_eq_zero.1 hlive _ (List.mem_of_getElem? ht)
      rw [isGone_eq ht] at hj
      simp_all
  · intro hover
    obtain ⟨hopen, -⟩ | ⟨-, hawaits⟩ := h.shut
    · cases hopen.symm.trans hclosed
    · obtain ⟨rest, hjoining, -⟩ | ⟨-, hgone⟩ := hawaits.waits
      · cases hjoining.symm.trans hover
      · exact (h.reachable.all_over hgone).1

/-- What a script lets happen is one of the ways to obey. -/
theorem exists_obeys (crashing : List Nat) (n : Nat)
    (hnext : (next (o.blocks w blocked) crashing (o.expires hasty)
      ((o.arrives w).settleFor (o.blocks w blocked) crashing (o.expires hasty) n)).isNone = true) :
    ∃ way, Obeys hasty blocked w o way
      ((o.arrives w).settleFor (o.blocks w blocked) crashing (o.expires hasty) n) := by
  obtain ⟨way, hway⟩ := exists_way_settleFor crashing n (o.arrives w)
  exact ⟨way, hway, isSettled_of_next (Option.isNone_iff_eq_none.1 hnext)⟩

/-- **How many workers a script needs.**  Whatever a script did, and in whichever order things happened
on the way:

* the jobs that run are those that block;
* as long as jobs are taken, there are no fewer workers than never leave, and no more than that or than
  jobs were ever running at once;
* a job that is handed in is taken and begun at once, however many block, and goes on running if it
  blocks.  Afterwards there are as many workers as before, or one more than jobs were running if that
  is more; but if workers do not wait for a job at all, and the job does not block, there are as many as
  before;
* after a pause the workers that wait are those that never leave, so that there are no more workers than
  those and the jobs that run, and just those if none does;
* after a shutdown no job is taken, and only the workers are left whose jobs block: none if all are
  released, and the shutdown returns then, and not before;
* every step comes to an end, however things happen. -/
theorem Scripted.size (name : String) (core : Nat) (hasty : Bool) (blocked seen : List Nat)
    (w : Workers) (h : Scripted name core hasty blocked seen w) :
    w.active = blocked.length ∧
    (w.closed = false → core ≤ w.live ∧ w.live ≤ seen.foldr max core) ∧
    (∀ blocks way v, w.closed = false → Obeys hasty blocked w (.submit blocks) way v →
      .accepted w.submissions.length ∈ v.submissions ∧
      v.executions w.submissions.length = 1 ∧
      (blocks = true → w.submissions.length ∉ v.ended) ∧
      v.live = if hasty && !blocks then w.live else max w.live (w.active + 1)) ∧
    (∀ way v, w.closed = false → Obeys hasty blocked w .pause way v →
      (∀ t ∈ v.workers, t.stage.isWaiting = true → t.core = true) ∧
      v.live ≤ core + v.active ∧ (v.active = 0 → v.live = core)) ∧
    (∀ way v, Obeys hasty blocked w .shutdown way v → v.closed = true) ∧
    (w.closed = true → w.live = blocked.length ∧
      (blocked = [] → ∀ c ∈ w.shutdowns, c = .over) ∧
      (w.shutdowns[0]? = some .over → w.live = 0) ∧
      ∀ blocks way v, Obeys hasty blocked w (.submit blocks) way v →
        v.closed = true ∧ .refused w.submissions.length ∈ v.submissions) ∧
    (∀ o : Order, (∃ way v, Obeys hasty blocked w o way v) ∧
      ∀ way v, Way (o.expires hasty) (o.blocks w blocked) (o.arrives w) way v →
        way.length ≤ (o.arrives w).effort) := by
  have hfits := h.fits
  refine ⟨hfits.active_eq, ?_, ?_, ?_, ?_, ?_, ?_⟩
  · exact fun hopen => ⟨hfits.reachable.core_le_live hopen, hfits.size hopen⟩
  · intro blocks way v hopen ho
    obtain ⟨hbegun, hlasting⟩ := hfits.executions_of_submit hopen ho
    exact ⟨hfits.accepted_of_submit hopen ho, hbegun, hlasting, hfits.live_of_submit hopen ho⟩
  · exact fun way v hopen ho => hfits.live_of_pause hopen ho
  · intro way v ho
    obtain ⟨hopen, -⟩ | ⟨hclosed, -⟩ := hfits.shut_of_obeys ho
    · exact (hfits.awaits_of_shutdown (ho.wasOpen hopen) ho).closed
    · exact hclosed
  · intro hclosed
    obtain ⟨hlive, hover, hgone⟩ := hfits.live_of_closed hclosed
    refine ⟨hlive, hover, hgone, fun blocks way v ho => ⟨?_, hfits.refused_of_submit hclosed ho⟩⟩
    cases hv : v.closed with
    | true => rfl
    | false => cases hclosed.symm.trans (ho.wasOpen hv)
  · intro o
    have hcome := o.reachable hfits.reachable
    constructor
    · obtain ⟨way, v, hway, hsettled⟩ := exists_settled (o.expires hasty) (o.blocks w blocked) hcome
      exact ⟨way, v, hway, hsettled⟩
    · exact fun way v hway => Nat.le_trans (Nat.le_add_right _ _) (hway.length_le hcome)

/-- One worker never leaves and is held up by a job; another one is started for the next job. -/
theorem size_beside_blocked_job :
    ∃ seen w, Scripted "jobs" 1 false [0] seen w ∧ w.active = 1 ∧ w.live = 1 ∧
      ∃ way v, Obeys false [0] w (.submit false) way v ∧ v.executions 1 = 1 ∧ v.live = 2 := by
  let first : Workers := ({ name := "jobs" } : Workers).spawnCore 1
  let second : Workers :=
    ((Order.submit true).arrives first).settleFor [0] [] false 10
  let third : Workers :=
    ((Order.submit false).arrives second).settleFor [0] [] false 10
  have hfirst : Scripted "jobs" 1 false [] [] first := .start rfl
  obtain ⟨way, ho⟩ : ∃ way, Obeys false [] first (.submit true) way second :=
    exists_obeys [] 10 (by decide +kernel)
  have hsecond : Scripted "jobs" 1 false [0] _ second := hfirst.obey _ ho
  obtain ⟨way', ho'⟩ : ∃ way, Obeys false [0] second (.submit false) way third :=
    exists_obeys [] 10 (by decide +kernel)
  obtain ⟨hactive, -, hsubmit, -⟩ := Scripted.size "jobs" 1 false [0] _ second hsecond
  obtain ⟨-, hbegun, -, hlive⟩ := hsubmit false way' third (by decide +kernel) ho'
  have hone : second.live = 1 := by decide +kernel
  rw [hone, hactive] at hlive
  exact ⟨_, second, hsecond, hactive, hone, way', third, ho', hbegun, hlive⟩

/-- **A worker that does not wait at all**: one job blocks, and the worker that was started for the next
one is gone when that is over, so there is one worker and not two. -/
theorem size_of_hasty_workers :
    ∃ seen w way v, Scripted "z" 1 true [0] seen w ∧ w.closed = false ∧
      Obeys true [0] w (.submit false) way v ∧ w.live = 1 ∧ w.active = 1 ∧ v.live = 1 ∧
      v.live ≠ max w.live (w.active + 1) := by
  let first : Workers := ({ name := "z" } : Workers).spawnCore 1
  let second : Workers :=
    ((Order.submit true).arrives first).settleFor [0] [] true 10
  let third : Workers :=
    ((Order.submit false).arrives second).settleFor [0] [] true 20
  have hfirst : Scripted "z" 1 true [] [] first := .start rfl
  obtain ⟨way, ho⟩ : ∃ way, Obeys true [] first (.submit true) way second :=
    exists_obeys [] 10 (by decide +kernel)
  have hsecond : Scripted "z" 1 true [0] _ second := hfirst.obey _ ho
  obtain ⟨way', ho'⟩ : ∃ way, Obeys true [0] second (.submit false) way third :=
    exists_obeys [] 20 (by decide +kernel)
  have hone : second.live = 1 := by decide +kernel
  have hactive : second.active = 1 := by decide +kernel
  have hlive : third.live = 1 := by decide +kernel
  have hopen : second.closed = false := by decide +kernel
  refine ⟨_, second, way', third, hsecond, hopen, ho', hone, hactive, hlive, ?_⟩
  rw [hone, hactive, hlive]
  decide

end Workers

end HeldReply
