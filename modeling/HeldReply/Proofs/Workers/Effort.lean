import HeldReply.Proofs.Workers.Spare
import Mathlib.Algebra.Ring.Nat

/-!
# Workers come to rest

When nobody comes any more, callers and workers do not go on for ever, whoever of them goes first.
What each of them has still to do is counted, and a step lowers the count.  Two things may add to what
others have to do.  A job that is queued, or a shutdown, may make workers stay that were about to
leave; and a handle that is kept is one more to wait for.  Who has still to do such a thing has the
whole of it ahead.

* `Worker.Stage.ahead`, `Submission.ahead`, `Shutdown.ahead` — the steps that each has ahead by itself;
* `Workers.effort` — **what is still to be done**;
* `Workers.effort_lt_of_moves`, `Workers.Reachable.effort_lt` — **every step lowers it**.
-/

namespace HeldReply

/-- The steps that a worker has ahead until it waits or has left.  One that waited in vain leaves if all
is quiet, and may have to stay if not. -/
def Worker.Stage.ahead (quiet : Bool) : Worker.Stage → Nat
  | .gone => 0
  | .leaving => 1
  | .expired => if quiet then 2 else 5
  | .waiting _ => 3
  | .idle | .staying => 4
  | .ended _ => 5
  | .running _ => 6
  | .taken _ => 7

/-- The steps that a caller has ahead, with those of its job and of a worker started for it. -/
def Submission.ahead : Submission → Nat
  | .arrived _ => 12
  | .queued _ => 6
  | .growing _ => 5
  | .keeping _ _ => 1
  | .accepted _ | .refused _ => 0

/-- The steps that a caller has ahead who shuts the workers down, but for the handles to be fetched. -/
def Shutdown.ahead : Shutdown → Nat
  | .arrived => 3
  | .closed => 2
  | .joining rest => rest.length + 1
  | .over => 0

/-- Whether a caller has still to hand in its job. -/
def Submission.isArrived : Submission → Bool
  | .arrived _ => true
  | _ => false

/-- Whether a caller may start one more worker. -/
def Submission.mayGrow : Submission → Bool
  | .arrived _ | .queued _ | .growing _ => true
  | .keeping _ _ | .accepted _ | .refused _ => false

/-- Whether a caller may keep one more handle. -/
def Submission.mayKeep : Submission → Bool
  | .arrived _ | .queued _ | .growing _ | .keeping _ _ => true
  | .accepted _ | .refused _ => false

/-- Whether a caller has still to shut the workers down. -/
def Shutdown.isArrived : Shutdown → Bool
  | .arrived => true
  | _ => false

/-- Whether a caller has still to fetch the handles. -/
def Shutdown.isEarly : Shutdown → Bool
  | .arrived | .closed => true
  | .joining _ | .over => false

namespace Workers

open Worker.Stage

variable {w v : Workers} {i : Nat} {t : Worker} {es : List JobEvent}

/-- Whether all is **quiet**: jobs are taken, and none is queued. -/
def isQuiet (w : Workers) : Bool :=
  !w.closed && w.queue.isEmpty

/-- What the workers have ahead. -/
def toil (quiet : Bool) (w : Workers) : Nat :=
  (w.workers.map fun t => t.stage.ahead quiet).sum

/-- What workers and callers have ahead, each by itself. -/
def labour (w : Workers) : Nat :=
  w.toil w.isQuiet + 5 * w.queue.length + (w.submissions.map Submission.ahead).sum +
    (w.shutdowns.map Shutdown.ahead).sum

/-- How many callers may still make workers stay. -/
def alarms (w : Workers) : Nat :=
  w.countCalls Submission.isArrived + w.shutdowns.countP Shutdown.isArrived

/-- How many workers there are, or may be. -/
def staff (w : Workers) : Nat :=
  w.workers.length + w.countCalls Submission.mayGrow

/-- How many callers have still to fetch the handles. -/
def fetches (w : Workers) : Nat :=
  w.shutdowns.countP Shutdown.isEarly

/-- How many handles are kept, or may be. -/
def grip (w : Workers) : Nat :=
  w.handles.length + w.countCalls Submission.mayKeep

/-- **What is still to be done**, if nobody comes any more. -/
def effort (w : Workers) : Nat :=
  w.labour + w.alarms * (3 * w.staff) + w.fetches * w.grip

/-! ### What one of them does to the whole -/

/-- What one entry of a list does to a sum. -/
theorem sum_map_set_add {α : Type} (f : α → Nat) (b : α) {l : List α} {i : Nat} {a : α}
    (h : l[i]? = some a) : ((l.set i b).map f).sum + f a = (l.map f).sum + f b := by
  induction l generalizing i with
  | nil => cases h
  | cons x l ih =>
    cases i with
    | zero =>
      obtain rfl : x = a := Option.some.inj h
      simp only [List.set_cons_zero, List.map_cons, List.sum_cons]
      omega
    | succ i =>
      simp only [List.set_cons_succ, List.map_cons, List.sum_cons]
      have := ih h
      omega

/-- One worker changes what it does. -/
theorem toil_become (quiet : Bool) {stage : Worker.Stage} (hi : w.workers[i]? = some t)
    (hw : v.workers = (w.become i stage).workers) :
    v.toil quiet + t.stage.ahead quiet = w.toil quiet + stage.ahead quiet := by
  rw [toil, hw, become, List.modify_eq_set, hi]
  exact sum_map_set_add (fun t => t.stage.ahead quiet) { t with stage } hi

/-- A worker has less ahead when all is quiet, and three steps less at most. -/
theorem ahead_le (stage : Worker.Stage) :
    stage.ahead true ≤ stage.ahead false ∧ stage.ahead false ≤ stage.ahead true + 3 := by
  cases stage <;> simp [ahead]

/-- Workers have no more ahead when all is quiet. -/
theorem toil_le_of_quiet {quiet still : Bool} (h : quiet = true → still = true) (w : Workers) :
    w.toil still ≤ w.toil quiet := by
  unfold toil
  induction w.workers with
  | nil => exact Nat.le_refl _
  | cons t ts ih =>
    have := ahead_le t.stage
    simp only [List.map_cons, List.sum_cons]
    cases quiet with
    | false => cases still <;> omega
    | true =>
      obtain rfl : still = true := h rfl
      exact Nat.le_refl _

/-- When it gets loud, each worker has three steps more ahead at most. -/
theorem toil_le_add (quiet still : Bool) (w : Workers) :
    w.toil still ≤ w.toil quiet + 3 * w.workers.length := by
  unfold toil
  induction w.workers with
  | nil => exact Nat.zero_le _
  | cons t ts ih =>
    have := ahead_le t.stage
    simp only [List.map_cons, List.sum_cons, List.length_cons]
    cases quiet <;> cases still <;> omega

/-- **The effort falls** when what each has ahead by itself falls, and nobody comes who adds to it. -/
theorem effort_lt (hlabour : v.labour < w.labour) (halarms : v.alarms ≤ w.alarms)
    (hstaff : v.staff ≤ w.staff) (hfetches : v.fetches ≤ w.fetches) (hgrip : v.grip ≤ w.grip) :
    v.effort < w.effort := by
  have hstay := Nat.mul_le_mul halarms (Nat.mul_le_mul_left 3 hstaff)
  have hwait := Nat.mul_le_mul hfetches hgrip
  unfold effort
  omega

/-- Who may make workers stay does so. -/
theorem effort_lt_of_alarm (hlabour : v.labour < w.labour + 3 * w.staff)
    (halarms : v.alarms + 1 = w.alarms) (hstaff : v.staff = w.staff)
    (hfetches : v.fetches = w.fetches) (hgrip : v.grip = w.grip) : v.effort < w.effort := by
  have hstay : w.alarms * (3 * w.staff) = v.alarms * (3 * v.staff) + 3 * w.staff := by
    rw [← halarms, Nat.succ_mul, hstaff]
  unfold effort
  rw [hfetches, hgrip]
  omega

/-- Who has still to fetch the handles does so. -/
theorem effort_lt_of_fetch (hlabour : v.labour < w.labour + w.grip)
    (halarms : v.alarms = w.alarms) (hstaff : v.staff = w.staff)
    (hfetches : v.fetches + 1 = w.fetches) (hgrip : v.grip ≤ w.grip) : v.effort < w.effort := by
  have hwait : v.fetches * v.grip + w.grip ≤ w.fetches * w.grip := by
    rw [← hfetches, Nat.succ_mul]
    exact Nat.add_le_add_right (Nat.mul_le_mul_left _ hgrip) _
  unfold effort
  rw [halarms, hstaff]
  omega

/-- A worker changes what it does, and nobody else. -/
theorem effort_lt_of_worker {stage : Worker.Stage} (hi : w.workers[i]? = some t)
    (hw : v.workers = (w.become i stage).workers) (hs : v.submissions = w.submissions)
    (hd : v.shutdowns = w.shutdowns) (hh : v.handles = w.handles)
    (hquiet : w.isQuiet = true → v.isQuiet = true)
    (hlt : stage.ahead w.isQuiet + 5 * v.queue.length <
      t.stage.ahead w.isQuiet + 5 * w.queue.length) : v.effort < w.effort := by
  have htoil := toil_become w.isQuiet hi hw
  have hstill := toil_le_of_quiet hquiet v
  have hlen : v.workers.length = w.workers.length := by rw [hw, become, List.length_modify]
  refine effort_lt ?_ ?_ ?_ ?_ ?_
  · unfold labour
    rw [hs, hd]
    omega
  · exact Nat.le_of_eq (by rw [alarms, countCalls, hs, hd, alarms, countCalls])
  · exact Nat.le_of_eq (by rw [staff, countCalls, hs, hlen, staff, countCalls])
  · exact Nat.le_of_eq (by rw [fetches, hd, fetches])
  · exact Nat.le_of_eq (by rw [grip, countCalls, hs, hh, grip, countCalls])

/-- What a caller has ahead changes. -/
theorem sum_submission {b c : Submission} (hi : w.submissions[i]? = some b)
    (hs : v.submissions = (w.submission i c).submissions) :
    (v.submissions.map Submission.ahead).sum + b.ahead =
      (w.submissions.map Submission.ahead).sum + c.ahead := by
  rw [hs]
  exact sum_map_set_add Submission.ahead c hi

/-- A caller goes on, and nobody else. -/
theorem effort_lt_of_call {b c : Submission} (hi : w.submissions[i]? = some b)
    (hs : v.submissions = (w.submission i c).submissions) (hd : v.shutdowns = w.shutdowns)
    (hq : v.queue = w.queue) (hc : v.closed = w.closed)
    (hw : v.toil w.isQuiet + c.ahead < w.toil w.isQuiet + b.ahead)
    (hstaff : v.workers.length + c.mayGrow.toNat ≤ w.workers.length + b.mayGrow.toNat)
    (hgrip : v.handles.length + c.mayKeep.toNat ≤ w.handles.length + b.mayKeep.toNat)
    (harrived : c.isArrived = false) : v.effort < w.effort := by
  have hquiet : v.isQuiet = w.isQuiet := by rw [isQuiet, hq, hc, isQuiet]
  have hsum := sum_submission hi hs
  have hgrows := countCalls_submission Submission.mayGrow hi hs
  have hkeeps := countCalls_submission Submission.mayKeep hi hs
  have harrives := countCalls_submission Submission.isArrived hi hs
  rw [harrived] at harrives
  refine effort_lt ?_ ?_ ?_ ?_ ?_
  · unfold labour
    rw [hquiet, hq, hd]
    omega
  · unfold alarms
    rw [hd]
    simp only [Bool.toNat_false] at harrives
    omega
  · unfold staff
    omega
  · exact Nat.le_of_eq (by rw [fetches, hd, fetches])
  · unfold grip
    omega

/-- What a caller has ahead who shuts the workers down changes. -/
theorem sum_shutdownCaller {b c : Shutdown} (hi : w.shutdowns[i]? = some b)
    (hd : v.shutdowns = (w.shutdownCaller i c).shutdowns) :
    (v.shutdowns.map Shutdown.ahead).sum + b.ahead =
      (w.shutdowns.map Shutdown.ahead).sum + c.ahead := by
  rw [hd]
  exact sum_map_set_add Shutdown.ahead c hi

/-! ### One step -/

/-- A job is queued, and workers may stay for it. -/
theorem effort_lt_of_send {job : Nat} (hi : w.submissions[i]? = some (.arrived job)) :
    ({ w with queue := w.queue ++ [job] }.submission i (.queued job)).effort < w.effort := by
  set v := { w with queue := w.queue ++ [job] }.submission i (.queued job)
  have hsum := sum_submission (v := v) (c := .queued job) hi rfl
  have hgrows := countCalls_submission (v := v) (c := .queued job) Submission.mayGrow hi rfl
  have hkeeps := countCalls_submission (v := v) (c := .queued job) Submission.mayKeep hi rfl
  have harrives := countCalls_submission (v := v) (c := .queued job) Submission.isArrived hi rfl
  have htoil : v.toil v.isQuiet ≤ w.toil w.isQuiet + 3 * w.workers.length :=
    toil_le_add w.isQuiet v.isQuiet w
  have hqueue : v.queue.length = w.queue.length + 1 := List.length_append
  simp only [Submission.ahead, Submission.mayGrow, Submission.mayKeep, Submission.isArrived,
    Bool.toNat_true, Bool.toNat_false] at hsum hgrows hkeeps harrives
  refine effort_lt_of_alarm ?_ ?_ ?_ rfl ?_
  · unfold labour staff
    show _ + _ + _ + (w.shutdowns.map Shutdown.ahead).sum < _
    omega
  · show v.countCalls _ + w.shutdowns.countP _ + 1 = w.countCalls _ + w.shutdowns.countP _
    omega
  · show w.workers.length + v.countCalls _ = w.workers.length + w.countCalls _
    omega
  · show w.handles.length + v.countCalls _ = w.handles.length + w.countCalls _
    omega

/-- No job is taken from now on, and workers may stay for those that are queued. -/
theorem effort_lt_of_close (hi : w.shutdowns[i]? = some .arrived) :
    ({ w with closed := true }.shutdownCaller i .closed).effort < w.effort := by
  set v := { w with closed := true }.shutdownCaller i .closed
  have hsum := sum_shutdownCaller (v := v) (c := .closed) hi rfl
  have harrives : v.shutdowns.countP Shutdown.isArrived + 1 =
      w.shutdowns.countP Shutdown.isArrived + 0 :=
    countP_set_add Shutdown.isArrived .closed hi
  have hearly : v.shutdowns.countP Shutdown.isEarly + 1 =
      w.shutdowns.countP Shutdown.isEarly + 1 :=
    countP_set_add Shutdown.isEarly .closed hi
  have htoil : v.toil v.isQuiet ≤ w.toil w.isQuiet + 3 * w.workers.length :=
    toil_le_add w.isQuiet v.isQuiet w
  simp only [Shutdown.ahead] at hsum
  refine effort_lt_of_alarm ?_ ?_ rfl ?_ rfl
  · unfold labour staff
    show _ + 5 * w.queue.length + (w.submissions.map Submission.ahead).sum + _ < _
    omega
  · show w.countCalls _ + v.shutdowns.countP _ + 1 = w.countCalls _ + w.shutdowns.countP _
    omega
  · show v.shutdowns.countP _ = w.shutdowns.countP _
    omega

/-- The handles are fetched, to be waited for. -/
theorem effort_lt_of_handles (hi : w.shutdowns[i]? = some .closed) :
    ({ w with handles := [] }.shutdownCaller i (.joining w.handles)).effort < w.effort := by
  set v := { w with handles := [] }.shutdownCaller i (.joining w.handles)
  have hsum := sum_shutdownCaller (v := v) (c := .joining w.handles) hi rfl
  have harrives : v.shutdowns.countP Shutdown.isArrived + 0 =
      w.shutdowns.countP Shutdown.isArrived + 0 :=
    countP_set_add Shutdown.isArrived (.joining w.handles) hi
  have hearly : v.shutdowns.countP Shutdown.isEarly + 1 =
      w.shutdowns.countP Shutdown.isEarly + 0 :=
    countP_set_add Shutdown.isEarly (.joining w.handles) hi
  simp only [Shutdown.ahead] at hsum
  refine effort_lt_of_fetch ?_ ?_ rfl ?_ ?_
  · unfold labour grip
    show w.toil w.isQuiet + 5 * w.queue.length + (w.submissions.map Submission.ahead).sum + _ < _
    omega
  · show w.countCalls _ + v.shutdowns.countP _ = w.countCalls _ + w.shutdowns.countP _
    omega
  · show v.shutdowns.countP _ + 1 = w.shutdowns.countP _
    omega
  · exact Nat.add_le_add_right (Nat.zero_le _) _

/-- Who waits for workers goes on waiting for one less. -/
theorem effort_lt_of_join {b c : Shutdown} (hi : w.shutdowns[i]? = some b)
    (hlt : c.ahead < b.ahead) (harrived : c.isArrived = false) (hearly : c.isEarly = false) :
    (w.shutdownCaller i c).effort < w.effort := by
  set v := w.shutdownCaller i c
  have hsum := sum_shutdownCaller (v := v) (c := c) hi rfl
  have harrives : v.shutdowns.countP Shutdown.isArrived + b.isArrived.toNat =
      w.shutdowns.countP Shutdown.isArrived + c.isArrived.toNat :=
    countP_set_add Shutdown.isArrived c hi
  have hfetches : v.shutdowns.countP Shutdown.isEarly + b.isEarly.toNat =
      w.shutdowns.countP Shutdown.isEarly + c.isEarly.toNat :=
    countP_set_add Shutdown.isEarly c hi
  rw [harrived] at harrives
  rw [hearly] at hfetches
  simp only [Bool.toNat_false] at harrives hfetches
  refine effort_lt ?_ ?_ (Nat.le_refl _) ?_ (Nat.le_refl _)
  · unfold labour
    show w.toil w.isQuiet + 5 * w.queue.length + (w.submissions.map Submission.ahead).sum + _ < _
    omega
  · show w.countCalls _ + v.shutdowns.countP _ ≤ w.countCalls _ + w.shutdowns.countP _
    omega
  · show v.shutdowns.countP _ ≤ w.shutdowns.countP _
    omega

/-- **When all is quiet, no worker that waited in vain has to stay.** -/
theorem Balanced.spare_pos {core : Bool} (h : Balanced w)
    (hi : w.workers[i]? = some ⟨core, .expired⟩) (hquiet : w.isQuiet = true) : 0 < w.spare := by
  have hqueue : w.queue = [] := by simp_all [isQuiet]
  have hcredited : 0 < w.countStage isCredited :=
    List.countP_pos_iff.2 ⟨_, List.mem_of_getElem? hi, rfl⟩
  have hspare := h.spare_eq
  rw [hqueue] at hspare
  simp only [List.length_nil] at hspare
  omega

/-- **Every step lowers what is still to be done.** -/
theorem effort_lt_of_moves (h : w.closed = false → Balanced w) (hm : Moves w es v) :
    v.effort < w.effort := by
  cases hm with
  | send hi => exact effort_lt_of_send hi
  | refuse hi =>
    refine effort_lt_of_call hi rfl rfl rfl rfl ?_ ?_ ?_ rfl
    · exact Nat.add_lt_add_left (Nat.succ_pos 11) _
    · exact Nat.le_succ _
    · exact Nat.le_succ _
  | count hi =>
    refine effort_lt_of_call hi rfl rfl rfl rfl ?_ ?_ ?_ ?_
    · refine Nat.add_lt_add_left ?_ _
      split <;> simp [Submission.ahead]
    · refine Nat.add_le_add_left ?_ _
      split <;> simp [Submission.mayGrow]
    · refine Nat.add_le_add_left ?_ _
      split <;> simp [Submission.mayKeep]
    · split <;> rfl
  | @grow i job hi =>
    refine effort_lt_of_call hi rfl rfl rfl rfl ?_ ?_ (Nat.le_refl _) rfl
    · show (w.spawn false).toil w.isQuiet + 1 < w.toil w.isQuiet + 5
      have htoil : (w.spawn false).toil w.isQuiet = w.toil w.isQuiet + 3 := by
        rw [toil, spawn, List.map_append, List.sum_append]
        rfl
      omega
    · show (w.spawn false).workers.length + 0 ≤ w.workers.length + 1
      rw [spawn, List.length_append]
      exact Nat.le_refl _
  | @keep i job worker hi =>
    refine effort_lt_of_call hi rfl rfl rfl rfl ?_ (Nat.le_refl _) ?_ rfl
    · exact Nat.lt_succ_self _
    · show (w.keepHandle worker).handles.length + 0 ≤ w.handles.length + 1
      rw [keepHandle, List.length_append]
      exact Nat.add_le_add_right (List.length_filter_le _ _) 1
  | close hi => exact effort_lt_of_close hi
  | fetch hi => exact effort_lt_of_handles hi
  | join hi hj => exact effort_lt_of_join hi (Nat.lt_succ_self _) rfl rfl
  | leaveJoin hi => exact effort_lt_of_join hi (by decide) rfl rfl
  | @receive i since job core rest hi hq =>
    -- The worker has more ahead, by less than the job had that was queued.
    refine effort_lt_of_worker hi rfl rfl rfl rfl ?_ ?_
    · intro hquiet
      simp [isQuiet, hq] at hquiet
    · show 7 + 5 * rest.length < 3 + 5 * w.queue.length
      rw [hq, List.length_cons]
      omega
  | begin hi | finish hi | uncount hi | leave hi =>
    refine effort_lt_of_worker hi rfl rfl rfl rfl id ?_
    exact Nat.add_lt_add_right (by simp [ahead]) _
  | wait hi hs =>
    refine effort_lt_of_worker hi rfl rfl rfl rfl id (Nat.add_lt_add_right ?_ _)
    obtain rfl | rfl := hs <;> simp [ahead]
  | decide hi =>
    refine effort_lt_of_worker hi rfl rfl rfl rfl id (Nat.add_lt_add_right ?_ _)
    cases hquiet : w.isQuiet with
    | true =>
      have hopen : w.closed = false := by simp_all [isQuiet]
      rw [if_pos ((h hopen).spare_pos hi hquiet)]
      simp [ahead]
    | false => split <;> simp [ahead]
  | expire hi hq hc =>
    have hquiet : w.isQuiet = true := by simp [isQuiet, hq, hc]
    refine effort_lt_of_worker hi rfl rfl rfl rfl id (Nat.add_lt_add_right ?_ _)
    rw [hquiet]
    simp [ahead]
  | hangUp hi =>
    refine effort_lt_of_worker hi rfl rfl rfl rfl id (Nat.add_lt_add_right ?_ _)
    simp [ahead]

/-- **So workers and callers come to rest**: they take no more steps than this, whoever goes first. -/
theorem Reachable.effort_lt {name : String} {core : Nat} {e : Event} (h : Reachable name core w)
    (hs : w.step e = some v) : v.effort < w.effort :=
  effort_lt_of_moves h.balanced (moves_of_step hs)

end Workers

end HeldReply
