import HeldReply.Proofs.Workers.Past

/-!
# What a shutdown waits for

Who shuts the workers down fetches all handles that are kept, and waits for their workers to leave.
A worker whose handle is not kept yet is not waited for, and neither is one whose handle somebody
else has fetched.  There are no other workers: the handle of every worker that has not left is kept,
or about to be kept, or waited for.  So a shutdown waits for all that was queued, unless it meets
another one or a call that is on its way.

* `Workers.IsTracked`, `Workers.Tracked` — whether the handle of a worker is **somewhere**, and the
  invariant that it is until the worker has left;
* `Workers.Tracked.moves`, `Workers.Reachable.tracked` — a step and a run keep it;
* `Workers.all_over_iff` — **when all is over**;
* `Workers.Later`, `Workers.Awaits`, `Workers.Awaits.moves` — what comes after a state, a shutdown that
  waits for all workers, and that no step ends that too soon;
* `Workers.shutdown_waits` — **a shutdown by itself** waits for all that was queued;
* `Workers.shutdown_beside_shutdown`, `Workers.shutdown_beside_submission` — beside another one, or
  beside a call that is on its way, it returns while a job is running.
-/

namespace HeldReply

/-- Whether a caller has queued its job, and its call has **not returned** yet. -/
def Submission.isOnTheWay : Submission → Bool
  | .queued _ | .growing _ | .keeping _ _ => true
  | .arrived _ | .accepted _ | .refused _ => false

namespace Workers

open Worker.Stage

variable {w v : Workers} {i j : Nat} {t : Worker} {name : String} {core : Nat} {es : List JobEvent}

/-- Whether the handle of a worker is **somewhere**: kept, about to be kept, or waited for. -/
def IsTracked (w : Workers) (i : Nat) : Prop :=
  i ∈ w.handles ∨ (∃ job, .keeping job i ∈ w.submissions) ∨
    ∃ rest, .joining rest ∈ w.shutdowns ∧ i ∈ rest

/-- **The handle of every worker** that has not left is somewhere. -/
def Tracked (w : Workers) : Prop :=
  ∀ i < w.workers.length, w.isGone i = true ∨ w.IsTracked i

/-! ### One step -/

/-- What stands elsewhere in a list stays. -/
theorem mem_set_of_ne {α : Type} {l : List α} {a b c : α} (hi : l[i]? = some b) (hc : c ∈ l)
    (hne : c ≠ b) : c ∈ l.set i a := by
  obtain ⟨j, hj⟩ := List.mem_iff_getElem?.1 hc
  have hij : i ≠ j := by
    intro he
    rw [he, hj] at hi
    exact hne (Option.some.inj hi)
  refine List.mem_of_getElem? (i := j) ?_
  rw [List.getElem?_set_ne hij, hj]

/-- A caller goes on that did not keep a handle. -/
theorem IsTracked.submission {b c : Submission} (h : w.IsTracked j)
    (hi : w.submissions[i]? = some b) (hb : ∀ job, .keeping job j ≠ b) :
    (w.submission i c).IsTracked j := by
  refine h.imp_right (Or.imp_left ?_)
  intro ⟨job, hmem⟩
  exact ⟨job, mem_set_of_ne hi hmem (hb job)⟩

/-- A caller goes on that did not wait for the worker. -/
theorem IsTracked.shutdownCaller {b c : Shutdown} (h : w.IsTracked j)
    (hi : w.shutdowns[i]? = some b) (hb : ∀ rest, j ∈ rest → .joining rest ≠ b) :
    (w.shutdownCaller i c).IsTracked j := by
  refine h.imp_right (Or.imp_right ?_)
  intro ⟨rest, hmem, hj⟩
  exact ⟨rest, mem_set_of_ne hi hmem (hb rest hj), hj⟩

/-- A worker that has left stays away. -/
theorem isGone_of_worker {stage : Worker.Stage} (hi : w.workers[i]? = some t)
    (ht : t.stage ≠ .gone) (hw : v.workers = (w.become i stage).workers)
    (hgone : w.isGone j = true) : v.isGone j = true := by
  have hij : i ≠ j := by
    intro he
    rw [isGone, ← he, hi] at hgone
    exact ht (eq_of_beq hgone)
  rw [isGone, hw, become, List.getElem?_modify_ne _ _ hij]
  exact hgone

/-- A worker that was not gone does something else. -/
theorem Tracked.of_worker {stage : Worker.Stage} (h : Tracked w) (hi : w.workers[i]? = some t)
    (ht : t.stage ≠ .gone) (hw : v.workers = (w.become i stage).workers)
    (hkept : ∀ j, w.IsTracked j → v.IsTracked j) : Tracked v := by
  intro j hj
  rw [hw, become, List.length_modify] at hj
  exact (h j hj).imp (isGone_of_worker hi ht hw) (hkept j)

/-- Callers go on, and no worker does. -/
theorem Tracked.of_call (h : Tracked w) (hw : v.workers = w.workers)
    (hkept : ∀ j, w.isGone j = false → w.IsTracked j → v.IsTracked j) : Tracked v := by
  intro j hj
  have hgone : v.isGone j = w.isGone j := by rw [isGone, hw, isGone]
  rw [hgone]
  cases hg : w.isGone j with
  | true => exact .inl rfl
  | false =>
    rw [hw] at hj
    obtain hgone | htracked := h j hj
    · rw [hg] at hgone
      cases hgone
    · exact .inr (hkept j hg htracked)

/-- When a worker is started, the others are as they were. -/
theorem spawn_cases (w : Workers) (core : Bool) (hj : j < (w.spawn core).workers.length) :
    j = w.workers.length ∨ j < w.workers.length ∧ (w.spawn core).isGone j = w.isGone j := by
  rw [spawn, List.length_append, List.length_singleton] at hj
  obtain hj | rfl := Nat.lt_succ_iff_lt_or_eq.1 hj
  · refine .inr ⟨hj, ?_⟩
    rw [isGone, spawn, List.getElem?_append_left hj, isGone]
  · exact .inl rfl

/-- A worker is started, and its handle is still to be kept. -/
theorem Tracked.grow {job : Nat} (h : Tracked w) (hi : w.submissions[i]? = some (.growing job)) :
    Tracked ((w.spawn false).submission i (.keeping job w.workers.length)) := by
  intro j hj
  obtain rfl | ⟨hj, hsame⟩ := spawn_cases w false hj
  · refine .inr (.inr (.inl ⟨job, ?_⟩))
    exact List.mem_set (List.getElem?_eq_some_iff.1 hi).1 _
  · show (w.spawn false).isGone j = true ∨ _
    rw [hsame]
    refine (h j hj).imp_right fun htracked => ?_
    exact IsTracked.submission (w := w.spawn false) htracked hi fun _ => Submission.noConfusion

/-- The handle of the new worker is kept, and those of workers that left go. -/
theorem Tracked.keep {job worker : Nat} (h : Tracked w)
    (hi : w.submissions[i]? = some (.keeping job worker)) :
    Tracked ((w.keepHandle worker).submission i (.accepted job)) := by
  refine h.of_call rfl fun j hgone htracked => ?_
  by_cases hj : j = worker
  · refine .inl (List.mem_append_right _ ?_)
    rw [hj]
    exact List.mem_singleton.2 rfl
  · obtain hmem | ⟨job', hmem⟩ | hmem := htracked
    · refine .inl (List.mem_append_left _ (List.mem_filter.2 ⟨hmem, ?_⟩))
      rw [hgone]
      rfl
    · refine .inr (.inl ⟨job', mem_set_of_ne hi hmem ?_⟩)
      intro he
      cases he
      exact hj rfl
    · exact .inr (.inr hmem)

/-- The handles are fetched, to be waited for. -/
theorem Tracked.fetch (h : Tracked w) (hi : w.shutdowns[i]? = some .closed) :
    Tracked ({ w with handles := [] }.shutdownCaller i (.joining w.handles)) := by
  refine h.of_call rfl fun j _ htracked => ?_
  obtain hmem | hmem | ⟨rest, hmem, hj⟩ := htracked
  · refine .inr (.inr ⟨w.handles, ?_, hmem⟩)
    exact List.mem_set (List.getElem?_eq_some_iff.1 hi).1 _
  · exact .inr (.inl hmem)
  · exact .inr (.inr ⟨rest, mem_set_of_ne hi hmem Shutdown.noConfusion, hj⟩)

/-- Somebody waited for a worker that has left. -/
theorem Tracked.join {k : Nat} {rest : List Nat} (h : Tracked w)
    (hi : w.shutdowns[i]? = some (.joining (k :: rest))) (hk : w.isGone k = true) :
    Tracked (w.shutdownCaller i (.joining rest)) := by
  refine h.of_call rfl fun j hgone htracked => ?_
  obtain hmem | hmem | ⟨others, hmem, hj⟩ := htracked
  · exact .inl hmem
  · exact .inr (.inl hmem)
  · by_cases he : others = k :: rest
    · rw [he] at hj
      obtain rfl | hj := List.mem_cons.1 hj
      · rw [hk] at hgone
        cases hgone
      · refine .inr (.inr ⟨rest, ?_, hj⟩)
        exact List.mem_set (List.getElem?_eq_some_iff.1 hi).1 _
    · refine .inr (.inr ⟨others, mem_set_of_ne hi hmem ?_, hj⟩)
      exact fun hsame => he (Shutdown.joining.inj hsame)

/-- **A step** loses no handle. -/
theorem Tracked.moves (h : Tracked w) (hm : Moves w es v) : Tracked v := by
  cases hm with
  | send hi | refuse hi | count hi =>
    exact h.of_call rfl fun j _ hj => IsTracked.submission (w := { w with }) hj hi
      fun job => Submission.noConfusion
  | grow hi => exact h.grow hi
  | keep hi => exact h.keep hi
  | close hi =>
    exact h.of_call rfl fun j _ hj => IsTracked.shutdownCaller (w := { w with }) hj hi
      fun _ _ => Shutdown.noConfusion
  | fetch hi => exact h.fetch hi
  | join hi hk => exact h.join hi hk
  | leaveJoin hi =>
    refine h.of_call rfl fun j _ htracked => htracked.shutdownCaller hi ?_
    intro rest hj he
    rw [Shutdown.joining.inj he] at hj
    cases hj
  | receive hi | begin hi | finish hi | uncount hi | decide hi | leave hi | expire hi
  | hangUp hi => exact h.of_worker hi Worker.Stage.noConfusion rfl fun _ => id
  | wait hi hs =>
    refine h.of_worker hi ?_ rfl fun _ => id
    intro hgone
    obtain rfl | rfl := hs <;> cases hgone

/-! ### A whole run -/

/-- The handles of the first workers are kept. -/
theorem Tracked.spawnCore (h : Tracked w) :
    Tracked ((w.spawn true).keepHandle w.workers.length) := by
  intro j hj
  obtain rfl | ⟨hj, hsame⟩ := spawn_cases w true hj
  · exact .inr (.inl (List.mem_append_right _ (List.mem_singleton.2 rfl)))
  · show (w.spawn true).isGone j = true ∨ _
    rw [hsame]
    cases hg : w.isGone j with
    | true => exact .inl rfl
    | false =>
      obtain hgone | hmem | hmem := h j hj
      · rw [hg] at hgone
        cases hgone
      · refine .inr (.inl (List.mem_append_left _ (List.mem_filter.2 ⟨hmem, ?_⟩)))
        rw [hsame, hg]
        rfl
      · exact .inr (.inr hmem)

/-- **In every run** the handle of every worker that has not left is somewhere. -/
theorem Reachable.tracked (h : Reachable name core w) : Tracked w := by
  induction h with
  | start h =>
    refine start_induction h ?_ fun w h => h.spawnCore
    exact fun j hj => absurd hj (Nat.not_lt_zero j)
  | submit _ job ih =>
    intro j hj
    refine (ih j hj).imp_right (Or.imp_right (Or.imp_left ?_))
    intro hmem
    obtain ⟨job', hmem⟩ := hmem
    exact ⟨job', List.mem_append_left _ hmem⟩
  | shutdown _ ih =>
    intro j hj
    refine (ih j hj).imp_right (Or.imp_right (Or.imp_right ?_))
    intro hmem
    obtain ⟨rest, hmem, hj⟩ := hmem
    exact ⟨rest, List.mem_append_left _ hmem, hj⟩
  | step _ e hs ih => exact ih.moves (moves_of_step hs)

/-! ### When all is over -/

/-- A worker that has left is not alive. -/
theorem isGone_eq (hi : w.workers[i]? = some t) : w.isGone i = !t.stage.isAlive := by
  rw [isGone, hi]
  cases hs : t.stage <;> simp [isAlive, hs]

/-- When all workers have left, **nothing is left to be done**. -/
theorem Reachable.all_over (h : Reachable name core w)
    (hgone : ∀ i < w.workers.length, w.isGone i = true) :
    w.live = 0 ∧ w.active = 0 ∧ w.queue = [] ∧ w.sent.Perm w.ended := by
  have hall : ∀ t ∈ w.workers, t.stage = .gone := by
    intro t ht
    obtain ⟨i, hi⟩ := List.mem_iff_getElem?.1 ht
    have hnot := hgone i (List.getElem?_eq_some_iff.1 hi).1
    rw [isGone, hi] at hnot
    exact eq_of_beq hnot
  have hstaffed := h.staffed
  have hnone : ∀ p : Worker.Stage → Bool, p .gone = false → w.countStage p = 0 := by
    intro p hp
    refine List.countP_eq_zero.2 fun t ht => ?_
    rw [hall t ht, hp]
    exact Bool.false_ne_true
  have hqueue : w.queue = [] := by
    obtain ⟨t, ht, hcore⟩ := hstaffed.hasCore
    have hleaving : t.stage.isLeaving = true := by
      rw [hall t ht]
      rfl
    exact (hstaffed.last t ht hcore hleaving).2
  have hheld : w.held = [] := by
    refine List.filterMap_eq_nil_iff.2 fun t ht => ?_
    rw [hall t ht]
    rfl
  refine ⟨?_, ?_, hqueue, ?_⟩
  · rw [hstaffed.live_eq, hnone isAlive rfl]
  · rw [hstaffed.active_eq, hnone isCounted rfl]
  · have hsent := h.sent_perm
    rw [hqueue, hheld] at hsent
    exact hsent

/-- **When all is over.**  No worker is alive, no job is running or queued, and all jobs that were
queued have ended, exactly if every worker has left whose handle is kept, or about to be kept by a
caller that started it, or waited for by somebody who shuts the workers down. -/
theorem all_over_iff (name : String) (core : Nat) (w : Workers) (h : Reachable name core w) :
    (w.live = 0 ∧ w.active = 0 ∧ w.queue = [] ∧ w.sent.Perm w.ended) ↔
      ∀ i < w.workers.length, w.IsTracked i → w.isGone i = true := by
  constructor
  · intro hover i hi _
    have hlive := hover.1
    rw [h.staffed.live_eq] at hlive
    have ht : w.workers[i]? = some w.workers[i] := List.getElem?_eq_getElem hi
    have hdead := List.countP_eq_zero.1 hlive _ (List.mem_of_getElem? ht)
    rw [isGone_eq ht]
    simpa using hdead
  · intro hgone
    refine h.all_over fun i hi => ?_
    obtain hleft | htracked := h.tracked i hi
    · exact hleft
    · exact hgone i hi htracked

/-! ### A shutdown that waits -/

/-- **What comes after** a state of workers and callers. -/
inductive Later (w : Workers) : Workers → Prop
  | refl : Later w w
  | submit {v : Workers} (h : Later w v) (job : Nat) :
      Later w { v with submissions := v.submissions ++ [.arrived job] }
  | shutdown {v : Workers} (h : Later w v) :
      Later w { v with shutdowns := v.shutdowns ++ [.arrived] }
  | step {v u : Workers} (h : Later w v) (e : Event) (hs : v.step e = some u) : Later w u

/-- Steps that follow one another. -/
theorem Later.steps {u : Workers} (h : Later w v) (events : List Event)
    (hs : events.foldlM Workers.step v = some u) : Later w u := by
  induction events generalizing v with
  | nil =>
    cases hs
    exact h
  | cons e events ih =>
    rw [List.foldlM_cons] at hs
    obtain ⟨v', hv', hs⟩ := Option.bind_eq_some_iff.1 hs
    exact ih (h.step e hv') hs

theorem Later.reachable (hl : Later w v) (h : Reachable name core w) : Reachable name core v := by
  induction hl with
  | refl => exact h
  | submit _ job ih => exact ih.submit job
  | shutdown _ ih => exact ih.shutdown
  | step _ e hs ih => exact ih.step e hs

/-- **A shutdown waits for all workers**: no caller is about to start one more, and the others are
waited for. -/
structure Awaits (w : Workers) (i : Nat) : Prop where
  closed : w.closed = true
  settled : ∀ c ∈ w.submissions, c.isOnTheWay = false
  waits : (∃ rest, w.shutdowns[i]? = some (.joining rest) ∧
      ∀ j < w.workers.length, w.isGone j = true ∨ j ∈ rest) ∨
    w.shutdowns[i]? = some .over ∧ ∀ j < w.workers.length, w.isGone j = true

/-- Somebody else goes on, and the workers that left stay away. -/
theorem Awaits.of_same (h : Awaits w i) (hclosed : v.closed = true)
    (hsettled : ∀ c ∈ v.submissions, c.isOnTheWay = false)
    (hi : v.shutdowns[i]? = w.shutdowns[i]?) (hlen : v.workers.length = w.workers.length)
    (hgone : ∀ j, w.isGone j = true → v.isGone j = true) : Awaits v i := by
  refine ⟨hclosed, hsettled, ?_⟩
  rw [hi, hlen]
  refine h.waits.imp ?_ ?_
  · intro ⟨rest, hrest, hall⟩
    exact ⟨rest, hrest, fun j hj => (hall j hj).imp_left (hgone j)⟩
  · intro ⟨hover, hall⟩
    exact ⟨hover, fun j hj => hgone j (hall j hj)⟩

/-- Somebody else who shuts the workers down goes on. -/
theorem Awaits.of_other {k : Nat} {c : Shutdown} (h : Awaits w i) (hne : k ≠ i)
    (hv : v.shutdowns = (w.shutdownCaller k c).shutdowns) (hclosed : v.closed = true)
    (hcalls : v.submissions = w.submissions) (hw : v.workers = w.workers) : Awaits v i := by
  refine h.of_same hclosed ?_ ?_ (by rw [hw]) fun j hj => ?_
  · rw [hcalls]
    exact h.settled
  · rw [hv]
    exact List.getElem?_set_ne hne
  · rw [isGone, hw]
    exact hj

/-- Somebody who has not fetched the handles yet is somebody else. -/
theorem Awaits.ne_of_early {k : Nat} {b : Shutdown} (h : Awaits w i)
    (hk : w.shutdowns[k]? = some b) (hb : b = .arrived ∨ b = .closed) : k ≠ i := by
  intro he
  rw [he] at hk
  obtain ⟨rest, hi, -⟩ | ⟨hi, -⟩ := h.waits
  · rw [hi] at hk
    obtain rfl | rfl := hb <;> cases hk
  · rw [hi] at hk
    obtain rfl | rfl := hb <;> cases hk

/-- **A step** does not end the waiting before all workers have left. -/
theorem Awaits.moves (h : Awaits w i) (hm : Moves w es v) : Awaits v i := by
  cases hm with
  | send _ hc =>
    rw [h.closed] at hc
    cases hc
  | refuse hk =>
    refine h.of_same h.closed ?_ rfl rfl fun _ => id
    intro c hc
    obtain hc | rfl := List.mem_or_eq_of_mem_set hc
    · exact h.settled c hc
    · rfl
  | count hk | grow hk | keep hk =>
    have hsettled := h.settled _ (List.mem_of_getElem? hk)
    cases hsettled
  | close hk => exact h.of_other (h.ne_of_early hk (.inl rfl)) rfl rfl rfl rfl
  | fetch hk => exact h.of_other (h.ne_of_early hk (.inr rfl)) rfl h.closed rfl rfl
  | @join k j rest hk hj =>
    by_cases hne : k = i
    · subst hne
      obtain ⟨others, hi, hall⟩ | ⟨hi, -⟩ := h.waits
      · rw [hi] at hk
        cases hk
        refine ⟨h.closed, h.settled, .inl ⟨rest, ?_, ?_⟩⟩
        · exact List.getElem?_set_self (List.getElem?_eq_some_iff.1 hi).1
        · intro j' hj'
          obtain hgone | hmem := hall j' hj'
          · exact .inl hgone
          · obtain rfl | hmem := List.mem_cons.1 hmem
            · exact .inl hj
            · exact .inr hmem
      · rw [hi] at hk
        cases hk
    · exact h.of_other hne rfl h.closed rfl rfl
  | @leaveJoin k hk =>
    by_cases hne : k = i
    · subst hne
      obtain ⟨others, hi, hall⟩ | ⟨hi, -⟩ := h.waits
      · rw [hi] at hk
        cases hk
        refine ⟨h.closed, h.settled, .inr ⟨?_, ?_⟩⟩
        · exact List.getElem?_set_self (List.getElem?_eq_some_iff.1 hi).1
        · intro j hj
          exact (hall j hj).resolve_right List.not_mem_nil
      · rw [hi] at hk
        cases hk
    · exact h.of_other hne rfl h.closed rfl rfl
  | receive hi | begin hi | finish hi | uncount hi | decide hi | leave hi | expire hi
  | hangUp hi =>
    exact h.of_same h.closed h.settled rfl (List.length_modify _ _ _)
      fun _ => isGone_of_worker hi Worker.Stage.noConfusion rfl
  | wait hi hs =>
    refine h.of_same h.closed h.settled rfl (List.length_modify _ _ _)
      fun _ => isGone_of_worker hi ?_ rfl
    intro hgone
    obtain rfl | rfl := hs <;> cases hgone

/-- **Whatever comes later** does not end the waiting before all workers have left. -/
theorem Later.awaits (hl : Later w v) (h : Awaits w i) : Awaits v i := by
  induction hl with
  | refl => exact h
  | submit _ job ih =>
    refine ih.of_same ih.closed ?_ rfl rfl fun _ => id
    intro c hc
    obtain hc | hc := List.mem_append.1 hc
    · exact ih.settled c hc
    · rw [List.mem_singleton.1 hc]
      rfl
  | @shutdown v _ ih =>
    have hlt : i < v.shutdowns.length := by
      obtain ⟨rest, hi, -⟩ | ⟨hi, -⟩ := ih.waits
      · exact (List.getElem?_eq_some_iff.1 hi).1
      · exact (List.getElem?_eq_some_iff.1 hi).1
    exact ih.of_same ih.closed ih.settled (List.getElem?_append_left hlt) rfl fun _ => id
  | step _ e hs ih => exact ih.moves (moves_of_step hs)

/-- Whether **no job is taken** any more as soon as anybody got on with shutting the workers down. -/
def IsShutBy (w : Workers) : Prop :=
  ∀ c ∈ w.shutdowns, c ≠ .arrived → w.closed = true

theorem IsShutBy.moves (h : IsShutBy w) (hm : Moves w es v) : IsShutBy v := by
  cases hm with
  | close => exact fun _ _ _ => rfl
  | fetch hi | join hi | leaveJoin hi =>
    intro c hc hne
    obtain hc | rfl := List.mem_or_eq_of_mem_set hc
    · exact h c hc hne
    · exact h _ (List.mem_of_getElem? hi) Shutdown.noConfusion
  | send | refuse | count | grow | keep | receive | begin | finish | uncount | wait | decide | leave
  | expire | hangUp => exact h

theorem Reachable.isShutBy (h : Reachable name core w) : IsShutBy w := by
  induction h with
  | start h =>
    refine start_induction h ?_ fun _ h => h
    intro c hc
    cases hc
  | submit _ _ ih => exact ih
  | shutdown _ ih =>
    intro c hc hne
    obtain hc | hc := List.mem_append.1 hc
    · exact ih c hc hne
    · exact absurd (List.mem_singleton.1 hc) hne
  | step _ e hs ih => exact ih.moves (moves_of_step hs)

/-- **A shutdown waits for all that was queued**, if it fetches the handles when no call that queued a
job is on its way, and nobody else waits for a worker that has not left.  Once it has returned, no
worker is alive, no job is running or queued, and all jobs that were queued have ended. -/
theorem shutdown_waits (name : String) (core : Nat) (w : Workers) (h : Reachable name core w)
    (i : Nat) (hi : w.shutdowns[i]? = some .closed)
    (hsettled : ∀ c ∈ w.submissions, c.isOnTheWay = false)
    (hothers : ∀ rest, .joining rest ∈ w.shutdowns → ∀ j ∈ rest, w.isGone j = true)
    (v : Workers) (hs : w.step (.close i) = some v) (u : Workers) (hl : Later v u)
    (hover : u.shutdowns[i]? = some .over) :
    u.live = 0 ∧ u.active = 0 ∧ u.queue = [] ∧ u.sent.Perm u.ended := by
  have hclosed := h.isShutBy _ (List.mem_of_getElem? hi) Shutdown.noConfusion
  have hv : v = { w with handles := [] }.shutdownCaller i (.joining w.handles) := by
    rw [step, hi] at hs
    exact (Option.some.inj hs).symm
  have hawaits : Awaits v i := by
    rw [hv]
    refine ⟨hclosed, hsettled, .inl ⟨w.handles, ?_, ?_⟩⟩
    · exact List.getElem?_set_self (List.getElem?_eq_some_iff.1 hi).1
    · intro j hj
      obtain hgone | hmem | ⟨job, hmem⟩ | ⟨rest, hmem, hj⟩ := h.tracked j hj
      · exact .inl hgone
      · exact .inr hmem
      · cases hsettled _ hmem
      · exact .inl (hothers rest hmem j hj)
  refine (hl.reachable (h.step _ hs)).all_over ?_
  obtain ⟨rest, hu, -⟩ | ⟨-, hall⟩ := (hl.awaits hawaits).waits
  · rw [hu] at hover
    cases hover
  · exact hall

/-- One job runs and another one is queued when the handles are fetched; both have ended in the end. -/
theorem shutdown_waits_for_queued_job :
    ∃ u, Reachable "jobs" 1 u ∧ u.shutdowns = [.over] ∧ u.live = 0 ∧ u.sent = [7, 8] ∧
      u.sent.Perm u.ended := by
  have hfirst : Reachable "jobs" 1 (({ name := "jobs" } : Workers).spawnCore 1) := .start rfl
  have hrun : ∃ w, [Event.submit 0, .submit 0, .receive 0, .proceed 0, .submit 1, .submit 1,
      .submit 1, .submit 1, .close 0].foldlM Workers.step
        { ({ name := "jobs" } : Workers).spawnCore 1 with
          submissions := [.arrived 7, .arrived 8], shutdowns := [.arrived] } = some w ∧
      w.submissions = [.accepted 7, .accepted 8] ∧ w.shutdowns = [.closed] ∧
      ∃ v, w.step (.close 0) = some v ∧ ∃ u, [Event.receive 1, .proceed 0, .proceed 0, .proceed 0,
        .proceed 1, .proceed 1, .proceed 1, .proceed 1, .hangUp 0, .hangUp 1, .proceed 0,
        .proceed 1, .close 0, .close 0, .close 0].foldlM Workers.step v = some u ∧
      u.shutdowns = [.over] ∧ u.sent = [7, 8] := by
    refine ⟨_, rfl, rfl, rfl, _, rfl, _, rfl, ?_⟩
    exact ⟨rfl, rfl⟩
  obtain ⟨w, hrun, hcalls, hclosed, v, hv, u, hu, hover, hsent⟩ := hrun
  have hw : Reachable "jobs" 1 w := (((hfirst.submit 7).submit 8).shutdown).steps _ hrun
  have hl : Later v u := Later.refl.steps _ hu
  obtain ⟨hlive, -, -, hall⟩ := shutdown_waits "jobs" 1 w hw 0 (by rw [hclosed]; rfl)
    (by rw [hcalls]; decide) (by rw [hclosed]; simp) v hv u hl (by rw [hover]; rfl)
  exact ⟨u, hl.reachable (hw.step _ hv), hover, hlive, hsent, hall⟩

/-- **Two shutdowns at a time**: the second one finds no handle, and returns while a job is running. -/
theorem shutdown_beside_shutdown :
    ∃ w, Reachable "jobs" 1 w ∧ w.submissions = [.accepted 7] ∧
      w.shutdowns = [.joining [0], .over] ∧ w.live = 1 ∧ w.active = 1 := by
  have hfirst : Reachable "jobs" 1 (({ name := "jobs" } : Workers).spawnCore 1) := .start rfl
  have hrun : ∃ w, [Event.submit 0, .submit 0, .receive 0, .proceed 0, .close 0, .close 0, .close 1,
      .close 1, .close 1].foldlM Workers.step { ({ name := "jobs" } : Workers).spawnCore 1 with
        submissions := [.arrived 7], shutdowns := [.arrived, .arrived] } = some w ∧
      w.submissions = [.accepted 7] ∧ w.shutdowns = [.joining [0], .over] ∧ w.live = 1 ∧
      w.active = 1 := by
    refine ⟨_, rfl, ?_⟩
    exact ⟨rfl, rfl, rfl, rfl⟩
  obtain ⟨w, hrun, hw⟩ := hrun
  exact ⟨w, ((hfirst.submit 7).shutdown.shutdown).steps _ hrun, hw⟩

/-- **A shutdown between two steps of a caller** that started a worker: it returns while that worker
runs the job. -/
theorem shutdown_beside_submission :
    ∃ w, Reachable "jobs" 1 w ∧ w.submissions = [.accepted 7, .keeping 8 1] ∧
      w.shutdowns = [.over] ∧ w.live = 1 ∧ w.active = 1 := by
  have hfirst : Reachable "jobs" 1 (({ name := "jobs" } : Workers).spawnCore 1) := .start rfl
  have hrun : ∃ w, [Event.submit 0, .submit 0, .receive 0, .proceed 0, .submit 1, .submit 1,
      .submit 1, .receive 1, .proceed 1, .close 0, .close 0, .proceed 0, .proceed 0, .proceed 0,
      .hangUp 0, .proceed 0, .close 0, .close 0].foldlM Workers.step
        { ({ name := "jobs" } : Workers).spawnCore 1 with
          submissions := [.arrived 7, .arrived 8], shutdowns := [.arrived] } = some w ∧
      w.submissions = [.accepted 7, .keeping 8 1] ∧ w.shutdowns = [.over] ∧ w.live = 1 ∧
      w.active = 1 := by
    refine ⟨_, rfl, ?_⟩
    exact ⟨rfl, rfl, rfl, rfl⟩
  obtain ⟨w, hrun, hw⟩ := hrun
  exact ⟨w, ((hfirst.submit 7).submit 8).shutdown.steps _ hrun, hw⟩

end Workers

end HeldReply
