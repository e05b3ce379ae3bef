import HeldReply.Proofs.Workers.Steady

/-!
# A worker for every job

A job that is handed in when all has happened takes a worker that waits, or one more is started for it,
whatever happens meanwhile and in whichever order.  The counter says at the right moment whether one
waits, since nobody owes it a change then but the caller itself.

* `Workers.Reachable.core_le_live`, `Workers.IsSettled.live_le_of_expires`,
  `Workers.IsSettled.live_eq_active` — how many workers there are **at rest**;
* `Workers.IsCalm`, `Workers.IsCalm.moves` — as long as nobody gives up waiting, **nobody leaves**;
* `Workers.Spared`, `Workers.Spared.happens` — **if a worker waits**, no other is started;
* `Workers.Grown`, `Workers.Grown.happens` — **if none waits**, one more is.
-/

namespace HeldReply

/-- Whether a caller has still to lower the counter. -/
def Submission.isUncounted : Submission → Bool
  | .arrived _ | .queued _ => true
  | .growing _ | .keeping _ _ | .accepted _ | .refused _ => false

/-- Whether a caller has started a worker whose handle it has still to keep. -/
def Submission.isKeeping : Submission → Bool
  | .keeping _ _ => true
  | _ => false

/-- Whether a worker is about to leave, or thinks of it. -/
def Worker.Stage.isRestless : Worker.Stage → Bool
  | .expired | .staying | .leaving => true
  | _ => false

namespace Workers

open Worker.Stage Submission

variable {w v w₀ : Workers} {i : Nat} {t : Worker} {name : String} {core : Nat}
  {es : List JobEvent} {expires hasty : Bool} {blocked : List Nat}

/-! ### How many workers there are at rest -/

/-- A worker that never leaves has not left as long as jobs are taken. -/
theorem Staffed.not_core_of_gone (h : Staffed w) (hopen : w.closed = false) (ht : t ∈ w.workers)
    (hgone : t.stage = .gone) : t.core = false := by
  cases hcore : t.core with
  | false => rfl
  | true =>
    have hlast := h.last t ht hcore (by rw [hgone]; rfl)
    cases hopen.symm.trans hlast.1

/-- **Workers that never leave are there** as long as jobs are taken. -/
theorem Reachable.core_le_live (hr : Reachable name core w) (hopen : w.closed = false) :
    core ≤ w.live := by
  rw [hr.staffed.live_eq, ← hr.countCore_eq]
  refine List.countP_mono_left fun t ht hcore => ?_
  cases hs : t.stage with
  | gone => cases hcore.symm.trans (hr.staffed.not_core_of_gone hopen ht hs)
  | waiting | taken | running | ended | idle | expired | staying | leaving => rfl

/-- When workers that wait give up, those that do not run a job never leave. -/
theorem IsSettled.live_le_of_expires (h : IsSettled true blocked w) (hr : Reachable name core w) :
    w.live ≤ core + w.active := by
  have hwaiting : w.countStage isWaiting ≤ w.countCore :=
    List.countP_mono_left fun t ht hwaits => h.core_of_waiting ht hwaits
  rw [hr.countCore_eq] at hwaiting
  rw [h.live_eq hr, h.active_eq hr]
  omega

/-- When no job is taken any more, only those are left that are held up. -/
theorem IsSettled.live_eq_active (h : IsSettled expires blocked w) (hr : Reachable name core w)
    (hclosed : w.closed = true) : w.live = w.active := by
  have hnone : w.countStage isWaiting = 0 := by
    refine List.countP_eq_zero.2 fun t ht hwaits => ?_
    cases hclosed.symm.trans (h.isOpen_of_waiting ht hwaits)
  rw [h.live_eq hr, h.active_eq hr, hnone, Nat.zero_add]

/-- Workers that settle where nobody has the time settle where they have it not. -/
theorem IsSettled.mono (h : IsSettled expires blocked w)
    (hle : hasty = true → expires = true) : IsSettled hasty blocked w := by
  intro v hv
  obtain ⟨e, ha, hs⟩ := hv.exists_step
  refine h v (.step e ?_ hs)
  cases e with
  | expire => exact hle ha
  | submit | close | receive | hangUp | proceed => exact ha

/-! ### Nobody thinks of leaving -/

/-- Whether **nobody thinks of leaving**. -/
def IsCalm (w : Workers) : Prop :=
  ∀ t ∈ w.workers, t.stage.isRestless = false

/-- Workers that may not give up waiting do not. -/
theorem Happens.ne_expired {since : Nat} (h : Happens expires blocked w v)
    (hnot : expires = true → ∀ t ∈ w.workers, t.core = false → t.stage.isWaiting = false)
    (hi : w.workers[i]? = some ⟨false, .waiting since⟩) : v ≠ w.become i .expired := by
  rintro rfl
  cases hexp : expires with
  | true => cases hnot hexp _ (List.mem_of_getElem? hi) rfl
  | false =>
    obtain ⟨-, -, -, hle⟩ := h.moves
    have hcount : (w.become i .expired).countStage isExpired + _ = w.countStage isExpired + _ :=
      countStage_become isExpired hi rfl
    have hle := hle hexp
    simp only [isExpired, Bool.toNat_true, Bool.toNat_false] at hcount
    omega

/-- What holds of all workers, and of what one of them does next, holds of all of them then. -/
theorem forall_mem_become {P : Worker → Prop} {stage : Worker.Stage}
    (hi : w.workers[i]? = some t) (h : ∀ u ∈ w.workers, P u) (hnew : P { t with stage }) :
    ∀ u ∈ (w.become i stage).workers, P u := by
  intro u hu
  obtain hu | rfl := mem_become hi hu
  · exact h u hu
  · exact hnew

/-- **Nobody thinks of leaving** as long as jobs are taken and nobody gives up waiting. -/
theorem IsCalm.moves (h : IsCalm w) (hopen : w.closed = false) (hm : Moves w es v)
    (hnot : ∀ i since, w.workers[i]? = some ⟨false, .waiting since⟩ → v ≠ w.become i .expired) :
    IsCalm v := by
  cases hm with
  | send | refuse | count | keep | close | fetch | join | leaveJoin => exact h
  | grow =>
    intro u hu
    obtain hu | hu := List.mem_append.1 hu
    · exact h u hu
    · rw [List.mem_singleton.1 hu]
      rfl
  | receive hi | begin hi | finish hi | uncount hi | wait hi | leave hi =>
    exact forall_mem_become hi h rfl
  | decide hi => cases h _ (List.mem_of_getElem? hi)
  | @expire i since hi => exact absurd rfl (hnot i since hi)
  | hangUp _ _ hc => cases hopen.symm.trans hc

/-! ### The caller that came last -/

/-- When all other callers have their answer, it is the last one that goes on. -/
theorem last_caller {pre : List Submission} {b c d : Submission}
    (hpre : ∀ c ∈ pre, c.isOver = true) (hi : (pre ++ [c])[i]? = some b)
    (hb : b.isOver = false) : b = c ∧ (pre ++ [c]).set i d = pre ++ [d] := by
  obtain hlt | hle := Nat.lt_or_ge i pre.length
  · rw [List.getElem?_append_left hlt] at hi
    rw [hpre b (List.mem_of_getElem? hi)] at hb
    cases hb
  · rw [List.getElem?_append_right hle] at hi
    cases hsub : i - pre.length with
    | succ n =>
      rw [hsub] at hi
      cases hi
    | zero =>
      rw [hsub] at hi
      cases hi
      refine ⟨rfl, ?_⟩
      rw [List.set_append_right _ _ hle, hsub]
      rfl

/-- So it takes its place. -/
theorem submission_last {pre : List Submission} {b c : Submission} (d : Submission)
    (hpre : ∀ c ∈ pre, c.isOver = true) (hw : w.submissions = pre ++ [c])
    (hi : w.submissions[i]? = some b) (hb : b.isOver = false) :
    b = c ∧ (w.submission i d).submissions = pre ++ [d] := by
  rw [hw] at hi
  obtain ⟨rfl, hset⟩ := last_caller (d := d) hpre hi hb
  refine ⟨rfl, ?_⟩
  rw [submission, hw]
  exact hset

/-- While nothing shuts the workers down there is no such call to go on with. -/
theorem no_shutdown {b : Shutdown} (h : w.shutdowns = []) : w.shutdowns[i]? ≠ some b := by
  intro hi
  rw [h] at hi
  cases hi

/-- **A worker waits for the job that came last**: no other is started for it. -/
structure Spared (expires : Bool) (blocked : List Nat) (w₀ w : Workers) : Prop where
  isOpen : w.closed = false
  nobody : w.shutdowns = []
  call : ∃ c, w.submissions = w₀.submissions ++ [c] ∧
    (c.isOver = true ∨ c.isUncounted = true ∧ 0 < w.spare)
  live_eq : w.live = w₀.live
  calm : IsCalm w
  /-- Those that may leave have left, or are held up. -/
  stuck : expires = true → ∀ t ∈ w.workers, t.core = false →
    t.stage = .gone ∨ t.stage.isHeldUp blocked = true

/-- The caller goes on. -/
theorem Spared.of_call (h : Spared expires blocked w₀ w) {c : Submission}
    (hw : v.workers = w.workers) (hclosed : v.closed = w.closed)
    (hd : v.shutdowns = w.shutdowns) (hl : v.live = w.live)
    (hs : v.submissions = w₀.submissions ++ [c])
    (hc : c.isOver = true ∨ c.isUncounted = true ∧ 0 < v.spare) :
    Spared expires blocked w₀ v := by
  refine ⟨hclosed.trans h.isOpen, hd.trans h.nobody, ⟨c, hs, hc⟩, hl.trans h.live_eq, ?_, ?_⟩
  · rw [IsCalm, hw]
    exact h.calm
  · rw [hw]
    exact h.stuck

/-- A worker that is not held up goes on. -/
theorem Spared.of_worker (h : Spared expires blocked w₀ w) {stage : Worker.Stage}
    (hi : w.workers[i]? = some t) (hw : v.workers = (w.become i stage).workers)
    (hclosed : v.closed = w.closed) (hs : v.submissions = w.submissions)
    (hd : v.shutdowns = w.shutdowns) (hl : v.live = w.live) (hspare : w.spare ≤ v.spare)
    (hfree : t.stage.isHeldUp blocked = false) (ht : t.stage ≠ .gone)
    (hcalm : stage.isRestless = false) : Spared expires blocked w₀ v := by
  refine ⟨hclosed.trans h.isOpen, hd.trans h.nobody, ?_, hl.trans h.live_eq, ?_, ?_⟩
  · obtain ⟨c, hc, hphase⟩ := h.call
    refine ⟨c, hs.trans hc, hphase.imp_right fun hearly => ⟨hearly.1, ?_⟩⟩
    have := hearly.2
    omega
  · rw [IsCalm, hw]
    exact forall_mem_become hi h.calm hcalm
  · intro hexp
    rw [hw]
    refine forall_mem_become (P := fun u => u.core = false → u.stage = .gone ∨ _) hi
      (h.stuck hexp) fun hcore => ?_
    obtain hgone | hheld := h.stuck hexp t (List.mem_of_getElem? hi) hcore
    · exact absurd hgone ht
    · cases hheld.symm.trans hfree

/-- **Whatever happens, no other worker is started.** -/
theorem Spared.happens (h : Spared expires blocked w₀ w)
    (hover : ∀ c ∈ w₀.submissions, c.isOver = true) (hs : Happens expires blocked w v) :
    Spared expires blocked w₀ v := by
  obtain ⟨c, hc, hphase⟩ := h.call
  have hcaller : ∀ {i : Nat} {b : Submission} (d : Submission), w.submissions[i]? = some b →
      b.isOver = false → (w.submission i d).submissions = w₀.submissions ++ [d] ∧
        b.isUncounted = true ∧ 0 < w.spare := by
    intro i b d hi hb
    obtain ⟨rfl, hset⟩ := submission_last d hover hc hi hb
    refine ⟨hset, hphase.resolve_left ?_⟩
    rw [hb]
    exact Bool.false_ne_true
  have hexpired : ∀ i since, w.workers[i]? = some ⟨false, .waiting since⟩ →
      v ≠ w.become i .expired := by
    intro i since
    refine hs.ne_expired fun hexp t ht hcore => ?_
    obtain hgone | hheld := h.stuck hexp t ht hcore
    · rw [hgone]
      rfl
    · obtain ⟨job, -, hrun⟩ := isHeldUp_iff.1 hheld
      rw [hrun]
      rfl
  obtain ⟨es, hm, hkeeps, -⟩ := hs.moves
  cases hm with
  | @send i job hi =>
    obtain ⟨hset, -, hspare⟩ := hcaller (.queued job) hi rfl
    exact h.of_call rfl rfl rfl rfl hset (.inr ⟨rfl, hspare⟩)
  | refuse _ hclosed => cases h.isOpen.symm.trans hclosed
  | @count i job hi =>
    obtain ⟨hset, -, hspare⟩ := hcaller (.accepted job) hi rfl
    rw [if_neg (by omega)]
    exact h.of_call rfl rfl rfl rfl hset (.inl rfl)
  | @grow i job hi | @keep i job worker hi => cases (hcaller (.accepted job) hi rfl).2.1
  | close hi | fetch hi | join hi | leaveJoin hi => exact absurd hi (no_shutdown h.nobody)
  | receive hi | begin hi | uncount hi =>
    exact h.of_worker hi rfl rfl rfl rfl rfl (Int.le_refl _) rfl Worker.Stage.noConfusion rfl
  | @finish i job core hi =>
    refine h.of_worker hi rfl rfl rfl rfl rfl (Int.le_refl _) ?_ Worker.Stage.noConfusion rfl
    have hnot := hkeeps i job List.mem_cons_self
    simp [isHeldUp, isFree, hnot]
  | @wait i core stage hi hstage =>
    have hspare : w.spare ≤ w.spare + 1 := by omega
    obtain rfl | rfl := hstage
    · exact h.of_worker hi rfl rfl rfl rfl rfl hspare rfl Worker.Stage.noConfusion rfl
    · exact h.of_worker hi rfl rfl rfl rfl rfl hspare rfl Worker.Stage.noConfusion rfl
  | decide hi | leave hi => cases h.calm _ (List.mem_of_getElem? hi)
  | @expire i since hi => exact absurd rfl (hexpired i since hi)
  | hangUp _ _ hclosed => cases h.isOpen.symm.trans hclosed

/-- **No worker waits for the job that came last**: one more is started for it. -/
structure Grown (w₀ w : Workers) : Prop where
  isOpen : w.closed = false
  nobody : w.shutdowns = []
  calm : IsCalm w
  call : ∃ c, w.submissions = w₀.submissions ++ [c] ∧
    ((c.isUncounted = true ∧ w.spare ≤ 0 ∨ c.isGrowing = true) ∧ w.workers = w₀.workers ∧
        w.live = w₀.live ∨
      (c.isOver = true ∨ c.isKeeping = true) ∧ w.live = w₀.live + 1)

/-- A worker goes on: it is the one that was started. -/
theorem Grown.of_worker (h : Grown w₀ w)
    (hstuck : ∀ t ∈ w₀.workers, t.stage = .gone ∨ t.stage.isHeldUp blocked = true)
    (hi : w.workers[i]? = some t) (hfree : t.stage.isHeldUp blocked = false)
    (ht : t.stage ≠ .gone) (hclosed : v.closed = w.closed) (hs : v.submissions = w.submissions)
    (hd : v.shutdowns = w.shutdowns) (hl : v.live = w.live) (hcalm : IsCalm v) : Grown w₀ v := by
  obtain ⟨c, hc, hphase⟩ := h.call
  refine ⟨hclosed.trans h.isOpen, hd.trans h.nobody, hcalm, c, hs.trans hc, .inr ?_⟩
  obtain ⟨-, hw, -⟩ | ⟨hlate, hlive⟩ := hphase
  · rw [hw] at hi
    obtain hgone | hheld := hstuck t (List.mem_of_getElem? hi)
    · exact absurd hgone ht
    · cases hheld.symm.trans hfree
  · exact ⟨hlate, hl.trans hlive⟩

/-- **Whatever happens, one more worker is started.** -/
theorem Grown.happens (h : Grown w₀ w) (hover : ∀ c ∈ w₀.submissions, c.isOver = true)
    (hstuck : ∀ t ∈ w₀.workers, t.stage = .gone ∨ t.stage.isHeldUp blocked = true)
    (hs : Happens false blocked w v) : Grown w₀ v := by
  obtain ⟨c, hc, hphase⟩ := h.call
  have hexpired : ∀ i since, w.workers[i]? = some ⟨false, .waiting since⟩ →
      v ≠ w.become i .expired :=
    fun i since => hs.ne_expired Bool.noConfusion
  obtain ⟨es, hm, hkeeps, -⟩ := hs.moves
  have hcalm : IsCalm v := h.calm.moves h.isOpen hm hexpired
  cases hm with
  | @send i job hi =>
    obtain ⟨rfl, hset⟩ := submission_last (.queued job) hover hc hi rfl
    refine ⟨h.isOpen, h.nobody, hcalm, _, hset, .inl ?_⟩
    obtain ⟨⟨-, hspare⟩ | hgrow, hsame⟩ | ⟨hlate | hlate, -⟩ := hphase
    · exact ⟨.inl ⟨rfl, hspare⟩, hsame⟩
    · cases hgrow
    · cases hlate
    · cases hlate
  | refuse _ hclosed => cases h.isOpen.symm.trans hclosed
  | @count i job hi =>
    obtain ⟨rfl, hset⟩ := submission_last (.growing job) hover hc hi rfl
    obtain ⟨⟨-, hspare⟩ | hgrow, hsame⟩ | ⟨hlate | hlate, -⟩ := hphase
    · rw [if_pos hspare] at hcalm ⊢
      exact ⟨h.isOpen, h.nobody, hcalm, _, hset, .inl ⟨.inr rfl, hsame⟩⟩
    · cases hgrow
    · cases hlate
    · cases hlate
  | @grow i job hi =>
    obtain ⟨rfl, hset⟩ := submission_last (.keeping job w.workers.length) hover hc hi rfl
    refine ⟨h.isOpen, h.nobody, hcalm, _, hset, .inr ⟨.inr rfl, ?_⟩⟩
    obtain ⟨-, -, hlive⟩ | ⟨hlate | hlate, -⟩ := hphase
    · show w.live + 1 = _
      rw [hlive]
    · cases hlate
    · cases hlate
  | @keep i job worker hi =>
    obtain ⟨rfl, hset⟩ := submission_last (.accepted job) hover hc hi rfl
    refine ⟨h.isOpen, h.nobody, hcalm, _, hset, .inr ⟨.inl rfl, ?_⟩⟩
    obtain ⟨⟨hearly, -⟩ | hgrow, -⟩ | ⟨-, hlive⟩ := hphase
    · cases hearly
    · cases hgrow
    · exact hlive
  | close hi | fetch hi | join hi | leaveJoin hi => exact absurd hi (no_shutdown h.nobody)
  | receive hi | begin hi | uncount hi =>
    exact h.of_worker hstuck hi rfl Worker.Stage.noConfusion rfl rfl rfl rfl hcalm
  | @finish i job core hi =>
    refine h.of_worker hstuck hi ?_ Worker.Stage.noConfusion rfl rfl rfl rfl hcalm
    have hnot := hkeeps i job List.mem_cons_self
    simp [isHeldUp, isFree, hnot]
  | wait hi hstage =>
    obtain rfl | rfl := hstage
    · exact h.of_worker hstuck hi rfl Worker.Stage.noConfusion rfl rfl rfl rfl hcalm
    · exact h.of_worker hstuck hi rfl Worker.Stage.noConfusion rfl rfl rfl rfl hcalm
  | decide hi | leave hi => cases h.calm _ (List.mem_of_getElem? hi)
  | @expire i since hi => exact absurd rfl (hexpired i since hi)
  | hangUp _ _ hclosed => cases h.isOpen.symm.trans hclosed

end Workers

end HeldReply
