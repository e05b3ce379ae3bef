import HeldReply.Proofs.Workers.Runs

/-!
# Who works, and what the counters say

The counters of workers and of running jobs are right, and a worker that never leaves for lack of jobs
is there until no job can come any more.

* `Worker.Stage.isAlive`, `Worker.Stage.isCounted` — the workers that the counters count;
* `Workers.Staffed` — **the invariant**: the counters are right, and the last workers stay;
* `Workers.Staffed.moves`, `Workers.Reachable.staffed` — a step and a run keep it.
-/

namespace HeldReply

/-- Whether a worker has not left. -/
def Worker.Stage.isAlive : Worker.Stage → Bool
  | .gone => false
  | _ => true

/-- Whether a worker's job is counted as running: until the worker itself takes it back. -/
def Worker.Stage.isCounted : Worker.Stage → Bool
  | .running _ | .ended _ => true
  | _ => false

/-- Whether a worker is on its way out, or has left. -/
def Worker.Stage.isLeaving : Worker.Stage → Bool
  | .leaving | .gone => true
  | _ => false

/-- Whether a worker thinks of leaving for lack of jobs. -/
def Worker.Stage.isUnsure : Worker.Stage → Bool
  | .expired | .staying => true
  | _ => false

namespace Workers

open Worker.Stage

variable {w v : Workers} {i : Nat} {t : Worker} {stage : Worker.Stage} {es : List JobEvent}

/-! ### The counters and the last workers -/

/-- **The counters are right, and the last workers stay**: one that never leaves for lack of jobs is
there, and on its way out only when no job is queued and none will be. -/
structure Staffed (w : Workers) : Prop where
  live_eq : w.live = w.countStage isAlive
  active_eq : w.active = w.countStage isCounted
  hasCore : ∃ t ∈ w.workers, t.core = true
  sure : ∀ t ∈ w.workers, t.core = true → t.stage.isUnsure = false
  last : ∀ t ∈ w.workers, t.core = true → t.stage.isLeaving = true →
    w.closed = true ∧ w.queue = []

/-- The workers are the same but for what one of them does. -/
theorem mem_become {u : Worker} (hi : w.workers[i]? = some t)
    (hu : u ∈ (w.become i stage).workers) :
    u ∈ w.workers ∨ u = { t with stage } := by
  rw [become, List.modify_eq_set, hi] at hu
  exact (List.mem_or_eq_of_mem_set hu)

/-- Callers go on, and no worker changes what it does. -/
theorem Staffed.of_call (h : Staffed w) (hw : v.workers = w.workers) (hl : v.live = w.live)
    (ha : v.active = w.active) (hc : w.closed = true → w.queue = [] →
      v.closed = true ∧ v.queue = []) : Staffed v := by
  constructor
  · rw [hl, h.live_eq, countStage, countStage, hw]
  · rw [ha, h.active_eq, countStage, countStage, hw]
  · rw [hw]
    exact h.hasCore
  · rw [hw]
    exact h.sure
  · rw [hw]
    intro u hu hcore hleaving
    obtain ⟨hclosed, hqueue⟩ := h.last u hu hcore hleaving
    exact hc hclosed hqueue

/-- A worker changes what it does, and with it what it is counted for. -/
theorem Staffed.of_worker (h : Staffed w) (hi : w.workers[i]? = some t)
    (hw : v.workers = (w.become i stage).workers) (hc : v.closed = w.closed)
    (hq : w.queue = [] → v.queue = [])
    (hl : v.live + (isAlive t.stage).toNat = w.live + (isAlive stage).toNat)
    (ha : v.active + (isCounted t.stage).toNat = w.active + (isCounted stage).toNat)
    (hsure : t.core = true → stage.isUnsure = false)
    (hlast : t.core = true → stage.isLeaving = true →
      t.stage.isLeaving = true ∨ w.closed = true ∧ w.queue = []) : Staffed v := by
  have halive := countStage_become isAlive hi hw
  have hcounted := countStage_become isCounted hi hw
  have hlive := h.live_eq
  have hactive := h.active_eq
  have hmem : t ∈ w.workers := List.mem_of_getElem? hi
  constructor
  · omega
  · omega
  · obtain ⟨u, hu, hcore⟩ := h.hasCore
    obtain ⟨j, hj⟩ := List.mem_iff_getElem?.1 hu
    by_cases hij : i = j
    · refine ⟨{ t with stage }, ?_, ?_⟩
      · rw [hw, become, List.modify_eq_set, hi]
        exact List.mem_set (List.getElem?_eq_some_iff.1 hi).1 _
      · subst hij
        rw [hi] at hj
        cases hj
        exact hcore
    · refine ⟨u, ?_, hcore⟩
      rw [hw, become]
      apply List.mem_of_getElem? (i := j)
      rw [List.getElem?_modify_ne _ _ hij, hj]
  · intro u hu hcore
    rw [hw] at hu
    obtain hu | rfl := mem_become hi hu
    · exact h.sure u hu hcore
    · exact hsure hcore
  · intro u hu hcore hleaving
    rw [hw] at hu
    rw [hc]
    obtain hu | rfl := mem_become hi hu
    · obtain ⟨hclosed, hqueue⟩ := h.last u hu hcore hleaving
      exact ⟨hclosed, hq hqueue⟩
    · obtain hbefore | ⟨hclosed, hqueue⟩ := hlast hcore hleaving
      · obtain ⟨hclosed, hqueue⟩ := h.last t hmem hcore hbefore
        exact ⟨hclosed, hq hqueue⟩
      · exact ⟨hclosed, hq hqueue⟩

/-- One worker more, which waits. -/
theorem Staffed.spawn (h : Staffed w) (core : Bool) : Staffed (w.spawn core) := by
  have halive := countStage_spawn (v := w.spawn core) isAlive core rfl
  have hcounted := countStage_spawn (v := w.spawn core) isCounted core rfl
  constructor
  · rw [halive, ← h.live_eq]
    rfl
  · rw [hcounted, ← h.active_eq]
    rfl
  · obtain ⟨u, hu, hcore⟩ := h.hasCore
    exact ⟨u, List.mem_append_left _ hu, hcore⟩
  · intro u hu hcore
    rcases List.mem_append.1 hu with hu | hu
    · exact h.sure u hu hcore
    · rw [List.mem_singleton.1 hu]
      rfl
  · intro u hu hcore hleaving
    rcases List.mem_append.1 hu with hu | hu
    · exact h.last u hu hcore hleaving
    · rw [List.mem_singleton.1 hu] at hleaving
      cases hleaving

/-- **A step keeps the counters right and the last workers there.** -/
theorem Staffed.moves (h : Staffed w) (hm : Moves w es v) : Staffed v := by
  cases hm with
  | send hi hc =>
    refine h.of_call rfl rfl rfl ?_
    intro hclosed
    rw [hc] at hclosed
    cases hclosed
  | refuse | count | keep | fetch | join | leaveJoin =>
    exact h.of_call rfl rfl rfl fun hc hq => ⟨hc, hq⟩
  | close => exact h.of_call rfl rfl rfl fun _ hq => ⟨rfl, hq⟩
  | grow => exact (h.spawn false).of_call rfl rfl rfl fun hc hq => ⟨hc, hq⟩
  | receive hi hq =>
    refine h.of_worker hi rfl rfl ?_ rfl rfl (fun _ => rfl) (fun _ hs => nomatch hs)
    intro hnone
    rw [hq] at hnone
    cases hnone
  | begin hi | finish hi =>
    exact h.of_worker hi rfl rfl id rfl rfl (fun _ => rfl) (fun _ hs => nomatch hs)
  | uncount hi =>
    refine h.of_worker hi rfl rfl id rfl ?_ (fun _ => rfl) (fun _ hs => nomatch hs)
    have hpos : 0 < w.countStage isCounted :=
      List.countP_pos_iff.2 ⟨_, List.mem_of_getElem? hi, rfl⟩
    have hactive := h.active_eq
    show w.active - 1 + 1 = w.active + 0
    omega
  | wait hi hs =>
    refine h.of_worker hi rfl rfl id ?_ ?_ (fun _ => rfl) (fun _ hs => nomatch hs)
    · obtain rfl | rfl := hs <;> rfl
    · obtain rfl | rfl := hs <;> rfl
  | decide hi =>
    have hcore := h.sure _ (List.mem_of_getElem? hi)
    refine h.of_worker hi rfl rfl id ?_ ?_ (fun hc => nomatch hcore hc)
      (fun hc => nomatch hcore hc)
    · split <;> rfl
    · split <;> rfl
  | leave hi =>
    refine h.of_worker hi rfl rfl id ?_ rfl (fun _ => rfl) (fun _ _ => .inl rfl)
    have hpos : 0 < w.countStage isAlive :=
      List.countP_pos_iff.2 ⟨_, List.mem_of_getElem? hi, rfl⟩
    have hlive := h.live_eq
    show w.live - 1 + 1 = w.live + 0
    omega
  | expire hi => exact h.of_worker hi rfl rfl id rfl rfl (fun hc => nomatch hc) (fun hc => nomatch hc)
  | hangUp hi hq hc =>
    exact h.of_worker hi rfl rfl id rfl rfl (fun _ => rfl) fun _ _ => .inr ⟨hc, hq⟩

/-! ### A whole run -/

theorem staffed_start {name : String} {core : Nat} (h : Workers.start name core = .ok w) :
    Staffed w := by
  rw [Workers.start] at h
  cases core with
  | zero => cases h
  | succ n =>
    cases h
    -- The first worker is the one that is there from then on.
    refine spawnCore_induction (w := (spawn { name } true).keepHandle 0) ?_ ?_ n
    · constructor
      · rfl
      · rfl
      · exact ⟨⟨true, .waiting 0⟩, List.mem_singleton.2 rfl, rfl⟩
      · intro t ht _
        rw [List.mem_singleton.1 ht]
        rfl
      · intro t ht _ hleaving
        rw [List.mem_singleton.1 ht] at hleaving
        cases hleaving
    · intro w h
      exact (h.spawn true).of_call rfl rfl rfl fun hc hq => ⟨hc, hq⟩

/-- **In every run** the counters are right, and the last workers stay. -/
theorem Reachable.staffed {name : String} {core : Nat} (h : Reachable name core w) :
    Staffed w := by
  induction h with
  | start h => exact staffed_start h
  | submit _ job ih => exact ih.of_call rfl rfl rfl fun hc hq => ⟨hc, hq⟩
  | shutdown _ ih => exact ih.of_call rfl rfl rfl fun hc hq => ⟨hc, hq⟩
  | step _ e hs ih => exact ih.moves (moves_of_step hs)

end Workers

end HeldReply
