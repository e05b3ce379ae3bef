import HeldReply.Proofs.Workers.Settled
import HeldReply.Proofs.Workers.Shutdown

/-!
# What happens by itself leaves as it is

Whatever happens between two steps of a script, and in whichever order, callers keep their jobs and
their answers, the workers that never leave are as many as before, and who is held up stays so.  So a
job that is begun on the way runs beside all those that block.  When nobody hands in a job, no worker is
started, and no job queued.

* `Workers.Moves.jobs_eq`, `Workers.Reachable.countCore_eq`, `Workers.Reachable.isFair` — what **no
  step changes**;
* `Workers.countHeldUp`, `Workers.Happens.countHeldUp_le`, `Workers.Way.exists_active` — who is **held
  up**, and what runs beside them;
* `Workers.IsSilent`, `Workers.Way.silent` — when **nobody hands in a job**;
* `Workers.IsKnown`, `Workers.Reachable.isKnown` — all handles are those of workers.
-/

namespace HeldReply

namespace Workers

open Worker.Stage Submission

variable {w v u : Workers} {i job : Nat} {t : Worker} {name : String} {core : Nat}
  {es : List JobEvent} {expires hasty : Bool} {blocked seen way : List Nat}

/-! ### What no step changes -/

/-- An entry is replaced by one that looks the same. -/
theorem map_set_eq {α β : Type} (f : α → β) {l : List α} {a b : α} (hi : l[i]? = some a)
    (hf : f b = f a) : (l.set i b).map f = l.map f := by
  rw [List.map_set, hf]
  refine List.ext_getElem? fun j => ?_
  by_cases hij : i = j
  · subst hij
    have hlt : i < (l.map f).length := by
      rw [List.length_map]
      exact (List.getElem?_eq_some_iff.1 hi).1
    rw [List.getElem?_set_self hlt, List.getElem?_map, hi]
    rfl
  · rw [List.getElem?_set_ne hij]

/-- Callers keep their jobs. -/
theorem Moves.jobs_eq (hm : Moves w es v) :
    v.submissions.map Submission.job = w.submissions.map Submission.job := by
  cases hm with
  | send hi | refuse hi | grow hi | keep hi => exact map_set_eq Submission.job hi rfl
  | count hi =>
    refine map_set_eq Submission.job hi ?_
    split <;> rfl
  | close | fetch | join | leaveJoin | receive | begin | finish | uncount | wait | decide | leave
  | expire | hangUp => rfl

/-- The workers that never leave for lack of jobs. -/
def countCore (w : Workers) : Nat :=
  w.workers.countP Worker.core

/-- A worker does something else. -/
theorem countCore_become {stage : Worker.Stage} (hi : w.workers[i]? = some t) :
    (w.become i stage).countCore = w.countCore := by
  have hcount := countP_set_add Worker.core { t with stage } hi
  rw [countCore, become, List.modify_eq_set, hi]
  exact Nat.add_right_cancel hcount

/-- No step makes workers of the kind that never leaves more or fewer. -/
theorem Moves.countCore_eq (hm : Moves w es v) : v.countCore = w.countCore := by
  cases hm with
  | send | refuse | count | keep | close | fetch | join | leaveJoin => rfl
  | grow =>
    show (w.spawn false).workers.countP Worker.core = _
    rw [spawn, List.countP_append]
    rfl
  | receive hi | begin hi | finish hi | uncount hi | wait hi | decide hi | leave hi | expire hi
  | hangUp hi => exact countCore_become (w := w) hi

theorem countCore_spawnCore (w : Workers) (n : Nat) :
    (w.spawnCore n).countCore = w.countCore + n := by
  induction n generalizing w with
  | zero => rfl
  | succ n ih =>
    rw [spawnCore, ih]
    show (w.spawn true).workers.countP Worker.core + n = _
    rw [spawn, List.countP_append]
    show w.countCore + 1 + n = _
    omega

/-- **There are as many workers that never leave as were asked for.** -/
theorem Reachable.countCore_eq (h : Reachable name core w) : w.countCore = core := by
  induction h with
  | start h =>
    rw [Workers.start] at h
    split at h
    · cases h
    · cases h
      rw [countCore_spawnCore]
      exact Nat.zero_add core
  | submit _ _ ih | shutdown _ ih => exact ih
  | step _ e hs ih => exact (moves_of_step hs).countCore_eq.trans ih

/-- Whether **no caller was refused** as long as jobs are taken. -/
def IsFair (w : Workers) : Prop :=
  w.closed = false → ∀ c ∈ w.submissions, ∀ job, c ≠ .refused job

theorem IsFair.moves (h : IsFair w) (hm : Moves w es v) : IsFair v := by
  intro hopen c hc job
  have hfair := h (hm.isOpen hopen)
  cases hm with
  | send hi | grow hi | keep hi =>
    obtain hc | rfl := List.mem_or_eq_of_mem_set hc
    · exact hfair c hc job
    · exact Submission.noConfusion
  | count hi =>
    obtain hc | rfl := List.mem_or_eq_of_mem_set hc
    · exact hfair c hc job
    · split <;> exact Submission.noConfusion
  | refuse hi hclosed => cases hclosed.symm.trans hopen
  | close => cases hopen
  | fetch | join | leaveJoin | receive | begin | finish | uncount | wait | decide | leave
  | expire | hangUp => exact hfair c hc job

theorem Reachable.isFair (h : Reachable name core w) : IsFair w := by
  induction h with
  | start h =>
    refine start_induction h ?_ fun _ h => h
    intro _ c hc
    cases hc
  | submit _ job ih =>
    intro hopen c hc job'
    obtain hc | hc := List.mem_append.1 hc
    · exact ih hopen c hc job'
    · rw [List.mem_singleton.1 hc]
      exact Submission.noConfusion
  | shutdown _ ih => exact ih
  | step _ e hs ih => exact ih.moves (moves_of_step hs)

/-! ### What happens to those who are held up -/

/-- The workers of a kind that are **held up**. -/
def countHeldUp (kind : Bool → Bool) (blocked : List Nat) (w : Workers) : Nat :=
  w.workers.countP fun t => kind t.core && t.stage.isHeldUp blocked

/-- **Who is held up stays so.** -/
theorem Happens.countHeldUp_le (kind : Bool → Bool) (h : Happens expires blocked w v) :
    w.countHeldUp kind blocked ≤ v.countHeldUp kind blocked := by
  obtain ⟨es, hm, hkeeps, -⟩ := h.moves
  have hbecome : ∀ (i : Nat) (t : Worker) (stage : Worker.Stage), w.workers[i]? = some t →
      t.stage.isHeldUp blocked = false →
      w.countHeldUp kind blocked ≤ (w.become i stage).countHeldUp kind blocked := by
    intro i t stage hi hfree
    have hcount := countP_set_add (fun t => kind t.core && t.stage.isHeldUp blocked)
      { t with stage } hi
    rw [countHeldUp, countHeldUp, become, List.modify_eq_set, hi]
    simp only [hfree, Bool.and_false, Bool.toNat_false] at hcount
    exact Nat.le.intro hcount.symm
  cases hm with
  | send | refuse | count | keep | close | fetch | join | leaveJoin => exact Nat.le_refl _
  | grow =>
    show _ ≤ (w.spawn false).countHeldUp kind blocked
    rw [countHeldUp, countHeldUp, spawn, List.countP_append]
    exact Nat.le_add_right _ _
  | @finish i job core hi =>
    refine hbecome i _ (.ended job) hi ?_
    have hnot := hkeeps i job List.mem_cons_self
    simp [isHeldUp, isFree, hnot]
  | receive hi | begin hi | uncount hi | decide hi | leave hi | expire hi | hangUp hi =>
    exact hbecome _ _ _ hi rfl
  | wait hi hs =>
    refine hbecome _ _ _ hi ?_
    obtain rfl | rfl := hs <;> rfl

/-- Those who are held up stay so on the whole way. -/
theorem Way.countHeldUp_le (kind : Bool → Bool) (h : Way expires blocked w way v) :
    w.countHeldUp kind blocked ≤ v.countHeldUp kind blocked := by
  induction h with
  | refl => exact Nat.le_refl _
  | step _ hs ih => exact Nat.le_trans ih (hs.countHeldUp_le kind)

/-- Who is held up is counted. -/
theorem countStage_isHeldUp_le_active (hr : Reachable name core w) :
    w.countStage (isHeldUp blocked) ≤ w.active := by
  rw [hr.staffed.active_eq]
  refine List.countP_mono_left fun t _ ht => ?_
  obtain ⟨job, -, hs⟩ := isHeldUp_iff.1 ht
  rw [hs]
  rfl

/-- A job that is begun is counted. -/
theorem Moves.active_of_begun (hm : Moves w es v) (hb : begun es ≠ []) :
    v.active = w.active + 1 := by
  cases hm with
  | begin => rfl
  | send | refuse | count | grow | keep | close | fetch | join | leaveJoin | receive | finish
  | uncount | wait | decide | leave | expire | hangUp => exact absurd rfl hb

/-- **A job that is begun on the way runs beside all that are held up.** -/
theorem Way.exists_active (h : Way expires blocked w way v) (hr : Reachable name core w)
    (hbefore : w.executions job = 0) (hafter : 0 < v.executions job) :
    ∃ n ∈ way, w.countStage (isHeldUp blocked) + 1 ≤ n := by
  induction h with
  | refl => omega
  | @step v u way h hs ih =>
    by_cases hv : 0 < v.executions job
    · obtain ⟨n, hn, hle⟩ := ih hv
      exact ⟨n, List.mem_cons_of_mem _ hn, hle⟩
    · refine ⟨u.active, List.mem_cons_self, ?_⟩
      obtain ⟨es, hm, -, -⟩ := hs.moves
      have hbegun : begun es ≠ [] := by
        intro hnone
        have hsame := (hm.follows job).begun_eq
        rw [hnone, List.count_nil] at hsame
        omega
      rw [hm.active_of_begun hbegun]
      have hstay : w.countStage (isHeldUp blocked) ≤ v.countStage (isHeldUp blocked) :=
        h.countHeldUp_le fun _ => true
      have hcounted : v.countStage (isHeldUp blocked) ≤ v.active :=
        countStage_isHeldUp_le_active (h.reachable hr)
      omega

/-- A job that blocks does not end. -/
theorem Way.not_mem_ended (h : Way expires blocked w way v) (hb : job ∈ blocked)
    (hw : job ∉ w.ended) : job ∉ v.ended := by
  induction h with
  | refl => exact hw
  | @step v u way _ hs ih =>
    obtain ⟨es, hm, hkeeps, -⟩ := hs.moves
    cases hm with
    | @finish i j core hi =>
      have hne : job ≠ j := by
        rintro rfl
        exact hkeeps i job List.mem_cons_self hb
      show job ∉ v.ended ++ [j]
      simp [ih, hne]
    | send | refuse | count | grow | keep | close | fetch | join | leaveJoin | receive | begin
    | uncount | wait | decide | leave | expire | hangUp => exact ih

/-- Callers that have their answer keep it. -/
theorem Moves.mem_of_isOver {c : Submission} (hm : Moves w es v) (hc : c ∈ w.submissions)
    (hover : c.isOver = true) : c ∈ v.submissions := by
  cases hm with
  | send hi | refuse hi | count hi | grow hi | keep hi =>
    refine mem_set_of_ne hi hc ?_
    rintro rfl
    cases hover
  | close | fetch | join | leaveJoin | receive | begin | finish | uncount | wait | decide | leave
  | expire | hangUp => exact hc

theorem Way.mem_of_isOver {c : Submission} (h : Way expires blocked w way v)
    (hc : c ∈ w.submissions) (hover : c.isOver = true) : c ∈ v.submissions := by
  induction h with
  | refl => exact hc
  | step _ hs ih =>
    obtain ⟨es, hm, -, -⟩ := hs.moves
    exact hm.mem_of_isOver ih hover

theorem Way.jobs_eq (h : Way expires blocked w way v) :
    v.submissions.map Submission.job = w.submissions.map Submission.job := by
  induction h with
  | refl => rfl
  | step _ hs ih =>
    obtain ⟨es, hm, -, -⟩ := hs.moves
    exact hm.jobs_eq.trans ih

/-! ### When nobody hands in a job -/

/-- Every caller **has its answer**, or will be refused. -/
def IsSilent (w : Workers) : Prop :=
  ∀ c ∈ w.submissions, c.isOver = true ∨ w.closed = true ∧ ∃ job, c = .arrived job

/-- Then no job is taken, none is queued, and no worker is started. -/
theorem IsSilent.moves (h : IsSilent w) (hm : Moves w es v) :
    IsSilent v ∧ v.live ≤ w.live ∧ (w.queue = [] → v.queue = []) ∧
      ∀ job, .accepted job ∈ v.submissions → .accepted job ∈ w.submissions := by
  have hdeny : ∀ {i : Nat} {c : Submission}, w.submissions[i]? = some c → c.isOver = false →
      w.closed = true ∧ ∃ job, c = .arrived job := by
    intro i c hi hc
    refine (h c (List.mem_of_getElem? hi)).resolve_left ?_
    rw [hc]
    exact Bool.false_ne_true
  cases hm with
  | send hi hopen =>
    have hclosed := (hdeny hi rfl).1
    cases hopen.symm.trans hclosed
  | refuse hi hclosed =>
    refine ⟨?_, Nat.le_refl _, id, ?_⟩
    · intro c hc
      obtain hc | rfl := List.mem_or_eq_of_mem_set hc
      · exact h c hc
      · exact .inl rfl
    · intro job hc
      obtain hc | hc := List.mem_or_eq_of_mem_set hc
      · exact hc
      · cases hc
  | count hi | grow hi | keep hi =>
    obtain ⟨-, job, harrived⟩ := hdeny hi rfl
    cases harrived
  | close =>
    refine ⟨fun c hc => ?_, Nat.le_refl _, id, fun _ => id⟩
    exact (h c hc).imp_right fun hwill => ⟨rfl, hwill.2⟩
  | receive hi hq =>
    refine ⟨h, Nat.le_refl _, ?_, fun _ => id⟩
    intro hnone
    cases hnone.symm.trans hq
  | leave => exact ⟨h, Nat.sub_le _ _, id, fun _ => id⟩
  | fetch | join | leaveJoin | begin | finish | uncount | wait | decide | expire | hangUp =>
    exact ⟨h, Nat.le_refl _, id, fun _ => id⟩

/-- On the whole way no job is taken, none is queued, and no worker is started. -/
theorem Way.silent (h : Way expires blocked w way v) (hsilent : IsSilent w) :
    IsSilent v ∧ v.live ≤ w.live ∧ (w.queue = [] → v.queue = []) ∧
      ∀ job, .accepted job ∈ v.submissions → .accepted job ∈ w.submissions := by
  induction h with
  | refl => exact ⟨hsilent, Nat.le_refl _, id, fun _ => id⟩
  | step _ hs ih =>
    obtain ⟨es, hm, -, -⟩ := hs.moves
    obtain ⟨hstill, hlive, hqueue, htaken⟩ := ih.1.moves hm
    refine ⟨hstill, Nat.le_trans hlive ih.2.1, hqueue ∘ ih.2.2.1, ?_⟩
    exact fun job hmem => ih.2.2.2 job (htaken job hmem)

/-! ### Handles -/

/-- Whether all handles are **those of workers**. -/
structure IsKnown (w : Workers) : Prop where
  kept : ∀ j ∈ w.handles, j < w.workers.length
  keeping : ∀ job j, .keeping job j ∈ w.submissions → j < w.workers.length
  joining : ∀ rest, .joining rest ∈ w.shutdowns → ∀ j ∈ rest, j < w.workers.length

/-- Workers change what they do. -/
theorem IsKnown.of_worker {stage : Worker.Stage} (h : IsKnown w)
    (hw : v.workers = (w.become i stage).workers) (hh : v.handles = w.handles)
    (hs : v.submissions = w.submissions) (hd : v.shutdowns = w.shutdowns) : IsKnown v := by
  have hlen : v.workers.length = w.workers.length := by rw [hw, become, List.length_modify]
  constructor
  · rw [hh, hlen]
    exact h.kept
  · rw [hs, hlen]
    exact h.keeping
  · rw [hd, hlen]
    exact h.joining

/-- A caller goes on, and keeps no handle. -/
theorem IsKnown.of_call {c : Submission} (h : IsKnown w) (hw : v.workers = w.workers)
    (hh : v.handles = w.handles) (hs : v.submissions = (w.submission i c).submissions)
    (hd : v.shutdowns = w.shutdowns) (hc : ∀ job j, c ≠ .keeping job j) : IsKnown v := by
  constructor
  · rw [hh, hw]
    exact h.kept
  · intro job j hmem
    rw [hs] at hmem
    rw [hw]
    obtain hmem | hmem := List.mem_or_eq_of_mem_set hmem
    · exact h.keeping job j hmem
    · exact absurd hmem.symm (hc job j)
  · rw [hd, hw]
    exact h.joining

/-- Who shuts the workers down goes on. -/
theorem IsKnown.of_shutdown {c : Shutdown} (h : IsKnown w) (hw : v.workers = w.workers)
    (hh : ∀ j ∈ v.handles, j ∈ w.handles) (hs : v.submissions = w.submissions)
    (hd : v.shutdowns = (w.shutdownCaller i c).shutdowns)
    (hc : ∀ rest, c = .joining rest → ∀ j ∈ rest, j < w.workers.length) : IsKnown v := by
  constructor
  · intro j hj
    rw [hw]
    exact h.kept j (hh j hj)
  · rw [hs, hw]
    exact h.keeping
  · intro rest hmem
    rw [hd] at hmem
    rw [hw]
    obtain hmem | hmem := List.mem_or_eq_of_mem_set hmem
    · exact h.joining rest hmem
    · exact hc rest hmem.symm

/-- One worker more. -/
theorem IsKnown.spawn (h : IsKnown w) (isCore : Bool) : IsKnown (w.spawn isCore) := by
  have hlen : w.workers.length ≤ (w.spawn isCore).workers.length := by
    rw [Workers.spawn, List.length_append]
    exact Nat.le_add_right _ _
  constructor
  · exact fun j hj => Nat.lt_of_lt_of_le (h.kept j hj) hlen
  · exact fun job j hmem => Nat.lt_of_lt_of_le (h.keeping job j hmem) hlen
  · exact fun rest hmem j hj => Nat.lt_of_lt_of_le (h.joining rest hmem j hj) hlen

/-- The last worker has a number. -/
theorem lt_length_spawn (w : Workers) (isCore : Bool) :
    w.workers.length < (w.spawn isCore).workers.length := by
  rw [Workers.spawn, List.length_append]
  exact Nat.lt_succ_self _

/-- A handle is kept. -/
theorem IsKnown.keepHandle {j : Nat} (h : IsKnown w) (hj : j < w.workers.length) :
    IsKnown (w.keepHandle j) := by
  refine ⟨?_, h.keeping, h.joining⟩
  intro k hk
  obtain hk | hk := List.mem_append.1 hk
  · exact h.kept k (List.mem_filter.1 hk).1
  · rw [List.mem_singleton.1 hk]
    exact hj

theorem IsKnown.moves (h : IsKnown w) (hm : Moves w es v) : IsKnown v := by
  cases hm with
  | send | refuse => exact h.of_call rfl rfl rfl rfl fun _ _ => Submission.noConfusion
  | count =>
    refine h.of_call rfl rfl rfl rfl fun _ _ => ?_
    split <;> exact Submission.noConfusion
  | @grow i job hi =>
    have hspawn := h.spawn false
    refine ⟨hspawn.kept, ?_, hspawn.joining⟩
    intro job' j hmem
    obtain hmem | hmem := List.mem_or_eq_of_mem_set hmem
    · exact hspawn.keeping job' j hmem
    · cases hmem
      exact lt_length_spawn w false
  | @keep i job worker hi =>
    have hkeep := h.keepHandle (h.keeping job worker (List.mem_of_getElem? hi))
    exact hkeep.of_call rfl rfl rfl rfl fun _ _ => Submission.noConfusion
  | close => exact h.of_shutdown rfl (fun _ => id) rfl rfl fun _ => Shutdown.noConfusion
  | fetch =>
    refine h.of_shutdown rfl (fun _ hj => absurd hj List.not_mem_nil) rfl rfl ?_
    intro rest he
    cases he
    exact h.kept
  | @join i j rest hi =>
    refine h.of_shutdown rfl (fun _ => id) rfl rfl ?_
    intro rest' he
    cases he
    exact fun k hk => h.joining _ (List.mem_of_getElem? hi) k (List.mem_cons_of_mem _ hk)
  | leaveJoin => exact h.of_shutdown rfl (fun _ => id) rfl rfl fun _ => Shutdown.noConfusion
  | receive | begin | finish | uncount | wait | decide | leave | expire | hangUp =>
    exact h.of_worker rfl rfl rfl rfl

theorem Reachable.isKnown (h : Reachable name core w) : IsKnown w := by
  induction h with
  | start h =>
    refine start_induction h ?_ fun w h => (h.spawn true).keepHandle (lt_length_spawn w true)
    constructor
    · exact fun j hj => absurd hj List.not_mem_nil
    · exact fun job j hmem => absurd hmem List.not_mem_nil
    · exact fun rest hmem => absurd hmem List.not_mem_nil
  | submit _ job ih =>
    refine ⟨ih.kept, ?_, ih.joining⟩
    intro job' j hmem
    obtain hmem | hmem := List.mem_append.1 hmem
    · exact ih.keeping job' j hmem
    · cases List.mem_singleton.1 hmem
  | shutdown _ ih =>
    refine ⟨ih.kept, ih.keeping, ?_⟩
    intro rest hmem
    obtain hmem | hmem := List.mem_append.1 hmem
    · exact ih.joining rest hmem
    · cases List.mem_singleton.1 hmem
  | step _ e hs ih => exact ih.moves (moves_of_step hs)

end Workers

end HeldReply
