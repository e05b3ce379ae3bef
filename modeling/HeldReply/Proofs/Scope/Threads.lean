import HeldReply.Scope.Threads
import Mathlib.Data.List.Nodup
import Mathlib.Data.List.Basic

/-!
# Every clean-up runs once, whatever the threads do

Threads register clean-ups on one scope and dispose of it, and their steps come in any order.  The
flag goes up outside the lock, so a clean-up may be pushed after that and before the queue is taken.
What holds in all these windows is an invariant over *how far the disposal has come*.

* `Shared.Request`, `Shared.start` — what threads call for, and a scope that nobody has used yet;
* `Shared.pushes` — the clean-ups pushed along a schedule;
* `Shared.Disposal`, `Shared.Place`, `Shared.Inv` — how far the disposal has come, what each thread
  may be doing meanwhile, and the invariant;
* `Shared.Inv.step`, `Shared.Inv.follow` — a step and a schedule keep it;
* `Shared.cleanups_run_once` — **every clean-up runs once**, and in the right order.
-/

namespace HeldReply.Shared

/-- What a thread **calls for**. -/
inductive Request where
  /-- Register a clean-up, which may crash when it runs. -/
  | register (crashes : Bool)
  | dispose
  deriving DecidableEq, Repr

/-- A thread that has not begun; its clean-up has its own number. -/
def Request.caller (i : Nat) : Request → Caller
  | .register crashes => .register { number := i, crashes }
  | .dispose => .dispose

/-- A scope that nobody has used yet, and the threads that are going to.  One that calls several
times counts as several threads. -/
def start (requests : List Request) : Shared :=
  { callers := requests.mapIdx Request.caller }

/-- The clean-up that the next step of a thread pushes, if it pushes one. -/
def pushing (s : Shared) (i : Nat) : List Chore :=
  match s.callers[i]? with
  | some (.push c) => [c]
  | _ => []

/-- The clean-ups **pushed** along a schedule, in the order in which they were. -/
def pushes (s : Shared) : List Nat → List Chore
  | [] => []
  | i :: schedule => s.pushing i ++ ((s.step i).getD s).pushes schedule

/-! ### How far the disposal has come -/

/-- **How far the disposal has come**, and which thread put the flag up. -/
inductive Disposal where
  /-- The flag is down. -/
  | none
  | raised (winner : Nat)
  /-- The queue was taken, and these clean-ups are left. -/
  | draining (winner : Nat) (left : List Chore)
  | announced (winner : Nat)

namespace Disposal

/-- The thread that put the flag up. -/
def winner? : Disposal → Option Nat
  | none => Option.none
  | raised w | draining w _ | announced w => some w

/-- Whether the queue was taken. -/
def isTaken : Disposal → Bool
  | none | raised _ => false
  | draining _ _ | announced _ => true

/-- Only who put the flag up takes the queue. -/
theorem isSome_of_isTaken (d : Disposal) (h : d.isTaken = true) : d.winner?.isSome = true := by
  cases d with
  | none | raised => cases h
  | draining | announced => rfl

/-- What the thread does that put the flag up. -/
def stage? : Disposal → Option Caller
  | none => Option.none
  | raised _ => some .take
  | draining _ left => some (.drain left)
  | announced _ => some (.returned true)

/-- The clean-ups left to the disposal when these were pushed. -/
def left (pushed : List Chore) : Disposal → List Chore
  | none | raised _ => pushed.reverse
  | draining _ left => left
  | announced _ => []

end Disposal

/-- **What a thread may be doing**, given the clean-ups pushed and run and how far the disposal has
come. -/
inductive Place (pushed runs : List Chore) (d : Disposal) (i : Nat) : Request → Caller → Prop
  | registering {b : Bool} (hp : ⟨i, b⟩ ∉ pushed) (hr : ⟨i, b⟩ ∉ runs) :
      Place pushed runs d i (.register b) (.register ⟨i, b⟩)
  | pushing {b : Bool} (hp : ⟨i, b⟩ ∉ pushed) (hr : ⟨i, b⟩ ∉ runs) (hd : d.isTaken = false) :
      Place pushed runs d i (.register b) (.push ⟨i, b⟩)
  | runningHere {b : Bool} (hp : ⟨i, b⟩ ∉ pushed) (hr : ⟨i, b⟩ ∉ runs) :
      Place pushed runs d i (.register b) (.runHere ⟨i, b⟩)
  | queued {b : Bool} (hp : ⟨i, b⟩ ∈ pushed) :
      Place pushed runs d i (.register b) (.returned true)
  | ranHere {b : Bool} (hr : ⟨i, b⟩ ∈ runs) :
      Place pushed runs d i (.register b) (.returned false)
  | disposing (hw : d.winner? ≠ some i) : Place pushed runs d i .dispose .dispose
  | lost (hw : d.winner? ≠ some i) : Place pushed runs d i .dispose (.returned false)
  | won {c : Caller} (hw : d.winner? = some i) (hc : d.stage? = some c) :
      Place pushed runs d i .dispose c

/-- **The invariant** of the threads. -/
structure Inv (requests : List Request) (pushed : List Chore) (d : Disposal) (s : Shared) :
    Prop where
  raised : s.raised = d.winner?.isSome
  queue : s.queue = if d.isTaken then [] else pushed
  /-- What the disposal has run and what is left to it are the clean-ups pushed, backwards. -/
  drained : s.runs.filter (· ∈ pushed) ++ d.left pushed = pushed.reverse
  pushed_nodup : pushed.Nodup
  runs_nodup : s.runs.Nodup
  /-- Only what was registered is pushed or run. -/
  known : ∀ x : Chore, x ∈ pushed ∨ x ∈ s.runs → requests[x.number]? = some (.register x.crashes)
  length : s.callers.length = requests.length
  place : ∀ i r c, requests[i]? = some r → s.callers[i]? = some c → Place pushed s.runs d i r c

theorem inv_start (requests : List Request) : Inv requests [] .none (start requests) where
  raised := rfl
  queue := rfl
  drained := rfl
  pushed_nodup := List.nodup_nil
  runs_nodup := List.nodup_nil
  known := by simp [start]
  length := List.length_mapIdx
  place i r c hr hc := by
    rw [start, List.getElem?_mapIdx, hr, Option.map_some, Option.some.injEq] at hc
    subst hc
    cases r with
    | register b => exact .registering List.not_mem_nil List.not_mem_nil
    | dispose => exact .disposing (by simp [Disposal.winner?])

/-! ### One step -/

section Step

variable {requests : List Request} {pushed pushed' runs runs' : List Chore} {d d' : Disposal}
  {s t : Shared} {i : Nat} {r : Request} {c : Caller}

/-- A thread's place does not change as long as nothing happens to its own clean-up or disposal. -/
theorem Place.frame {j : Nat} (h : Place pushed runs d j r c)
    (hp : ∀ x : Chore, x.number = j → (x ∈ pushed' ↔ x ∈ pushed))
    (hr : ∀ x ∈ runs, x ∈ runs')
    (hr' : ∀ x ∈ runs', x.number = j → x ∈ pushed ∨ x ∈ runs)
    (hw : d'.winner? = some j ↔ d.winner? = some j)
    (hs : d.winner? = some j → d' = d)
    (ht : d'.isTaken = d.isTaken ∨ ∀ x, c ≠ .push x) :
    Place pushed' runs' d' j r c := by
  have fresh (b : Bool) (hx : (⟨j, b⟩ : Chore) ∉ pushed) (hy : (⟨j, b⟩ : Chore) ∉ runs) :
      (⟨j, b⟩ : Chore) ∉ pushed' ∧ (⟨j, b⟩ : Chore) ∉ runs' :=
    ⟨fun h => hx ((hp _ rfl).1 h), fun h => (hr' _ h rfl).elim hx hy⟩
  cases h with
  | registering hx hy => exact .registering (fresh _ hx hy).1 (fresh _ hx hy).2
  | pushing hx hy hd =>
    refine .pushing (fresh _ hx hy).1 (fresh _ hx hy).2 ?_
    rcases ht with ht | ht
    · rw [ht, hd]
    · exact absurd rfl (ht _)
  | runningHere hx hy => exact .runningHere (fresh _ hx hy).1 (fresh _ hx hy).2
  | queued hx => exact .queued ((hp _ rfl).2 hx)
  | ranHere hy => exact .ranHere (hr _ hy)
  | disposing h => exact .disposing (mt hw.1 h)
  | lost h => exact .lost (mt hw.1 h)
  | won h hc => exact .won (hw.2 h) (hs h ▸ hc)

/-- One thread goes on to another place, and the others keep theirs. -/
theorem place_set {callers : List Caller} (hr : requests[i]? = some r)
    (hi : Place pushed runs d i r c)
    (hj : ∀ j r c', j ≠ i → requests[j]? = some r → callers[j]? = some c' →
      Place pushed runs d j r c') :
    ∀ j r c', requests[j]? = some r → (callers.set i c)[j]? = some c' →
      Place pushed runs d j r c' := by
  intro j r' c' hr' hc
  rw [List.getElem?_set] at hc
  split at hc
  · rename_i hij
    subst hij
    obtain rfl : r = r' := Option.some.inj (hr.symm.trans hr')
    split at hc
    · exact Option.some.inj hc ▸ hi
    · cases hc
  · rename_i hij
    exact hj j r' c' (Ne.symm hij) hr' hc

/-- A thread that only looked goes on; nothing else changes. -/
theorem Inv.goOn (h : Inv requests pushed d s) (hr : requests[i]? = some r)
    (hi : Place pushed s.runs d i r c) :
    Inv requests pushed d (s.goOn i c) where
  raised := h.raised
  queue := h.queue
  drained := h.drained
  pushed_nodup := h.pushed_nodup
  runs_nodup := h.runs_nodup
  known := h.known
  length := List.length_set.trans h.length
  place := place_set hr hi fun j r c' _ hr hc => h.place j r c' hr hc

/-- One more clean-up has run, which was registered and had not run. -/
theorem Inv.runs_append {x : Chore} (h : Inv requests pushed d s)
    (hx : requests[x.number]? = some (.register x.crashes)) (hn : x ∉ s.runs) :
    (s.runs ++ [x]).Nodup ∧
      ∀ y : Chore, y ∈ pushed ∨ y ∈ s.runs ++ [x] →
        requests[y.number]? = some (.register y.crashes) := by
  constructor
  · rw [List.nodup_append_comm]
    exact List.nodup_cons.2 ⟨hn, h.runs_nodup⟩
  · intro y hy
    rw [List.mem_append, List.mem_singleton, ← or_assoc] at hy
    rcases hy with hy | rfl
    · exact h.known y hy
    · exact hx

/-- **The push.**  The queue was not taken yet, so the clean-up comes to those that the disposal
will find. -/
theorem Inv.push {b : Bool} (h : Inv requests pushed d s)
    (hr : requests[i]? = some (.register b)) (hp : ⟨i, b⟩ ∉ pushed) (hn : ⟨i, b⟩ ∉ s.runs)
    (hd : d.isTaken = false) :
    Inv requests (pushed ++ [⟨i, b⟩]) d
      (Shared.goOn { s with queue := s.queue ++ [⟨i, b⟩] } i (.returned true)) where
  raised := h.raised
  queue := by
    show s.queue ++ [_] = _
    rw [h.queue, hd]
    rfl
  drained := by
    have hleft (l : List Chore) : d.left l = l.reverse := by
      cases d with
      | none | raised => rfl
      | draining | announced => cases hd
    -- Until the queue is taken the disposal has run nothing that was pushed.
    have hran : s.runs.filter (· ∈ pushed) = [] := by
      have hdr := h.drained
      rw [hleft] at hdr
      exact List.append_left_eq_self.1 hdr
    show s.runs.filter (· ∈ pushed ++ [⟨i, b⟩]) ++ _ = _
    have hsame : s.runs.filter (· ∈ pushed ++ [⟨i, b⟩]) = s.runs.filter (· ∈ pushed) := by
      refine List.filter_congr fun x hx => ?_
      have hne : x ≠ ⟨i, b⟩ := fun he => hn (he ▸ hx)
      simp [hne]
    rw [hsame, hran, hleft, List.nil_append]
  pushed_nodup := by
    rw [List.nodup_append_comm]
    exact List.nodup_cons.2 ⟨hp, h.pushed_nodup⟩
  runs_nodup := h.runs_nodup
  known x hx := by
    rw [List.mem_append, List.mem_singleton, or_right_comm] at hx
    rcases hx with hx | rfl
    · exact h.known x hx
    · exact hr
  length := List.length_set.trans h.length
  place := by
    refine place_set hr (.queued (by simp)) fun j r c' hj hr' hc => ?_
    refine (h.place j r c' hr' hc).frame (fun x hx => ?_) (fun x hx => hx)
      (fun x hx _ => .inr hx) Iff.rfl (fun _ => rfl) (.inl rfl)
    have hne : x ≠ ⟨i, b⟩ := fun he => hj (by rw [← hx, he])
    simp [hne]

/-- **A clean-up runs where it was brought**, since the scope was disposed of. -/
theorem Inv.runHere {b : Bool} (h : Inv requests pushed d s)
    (hr : requests[i]? = some (.register b)) (hp : ⟨i, b⟩ ∉ pushed) (hn : ⟨i, b⟩ ∉ s.runs) :
    Inv requests pushed d
      (Shared.goOn { s with runs := s.runs ++ [⟨i, b⟩] } i (.returned false)) where
  raised := h.raised
  queue := h.queue
  drained := by
    show (s.runs ++ [_]).filter _ ++ _ = _
    rw [List.filter_append, List.filter_cons_of_neg (by simpa using hp), List.filter_nil,
      List.append_nil]
    exact h.drained
  pushed_nodup := h.pushed_nodup
  runs_nodup := (h.runs_append hr hn).1
  known := (h.runs_append hr hn).2
  length := List.length_set.trans h.length
  place := by
    have hran : ⟨i, b⟩ ∈ s.runs ++ [⟨i, b⟩] := List.mem_append_right _ List.mem_cons_self
    refine place_set hr (.ranHere hran) fun j r c' hj hr' hc => ?_
    refine (h.place j r c' hr' hc).frame (fun x _ => Iff.rfl)
      (fun x hx => List.mem_append_left _ hx) (fun x hx hxj => ?_) Iff.rfl (fun _ => rfl)
      (.inl rfl)
    rcases List.mem_append.1 hx with hx | hx
    · exact .inr hx
    · rw [List.mem_singleton.1 hx] at hxj
      exact absurd hxj.symm hj

/-- **The exchange**: the thread that puts the flag up is the one that will take the queue. -/
theorem Inv.raise (h : Inv requests pushed d s) (hr : requests[i]? = some .dispose)
    (hd : s.raised = false) :
    Inv requests pushed (.raised i) ({ s with raised := true }.goOn i .take) := by
  have hnone : d = .none := by
    have hw := h.raised
    rw [hd] at hw
    cases d with
    | none => rfl
    | raised | draining | announced => cases hw
  subst hnone
  exact {
    raised := rfl
    queue := h.queue
    drained := h.drained
    pushed_nodup := h.pushed_nodup
    runs_nodup := h.runs_nodup
    known := h.known
    length := List.length_set.trans h.length
    place := by
      refine place_set hr (.won rfl rfl) fun j r c' hj hr' hc => ?_
      refine (h.place j r c' hr' hc).frame (fun x _ => Iff.rfl) (fun x hx => hx)
        (fun x hx _ => .inr hx) ?_ (fun he => ?_) (.inl rfl)
      · simp [Disposal.winner?, Ne.symm hj]
      · cases he }

/-- Nobody holds the lock who is to push. -/
theorem not_push_of_isLocked {j : Nat} (hl : s.isLocked = false) (hc : s.callers[j]? = some c)
    (x : Chore) : c ≠ .push x := by
  rintro rfl
  have hm := List.mem_of_getElem? hc
  rw [isLocked, List.any_eq_false] at hl
  exact hl _ hm rfl

/-- **The take**: as nobody holds the lock, all that was pushed is found, and nothing comes after
it. -/
theorem Inv.take (h : Inv requests pushed (.raised i) s) (hr : requests[i]? = some .dispose)
    (hl : s.isLocked = false) :
    Inv requests pushed (.draining i s.queue.reverse)
      ({ s with queue := [] }.goOn i (.drain s.queue.reverse)) where
  raised := h.raised
  queue := rfl
  drained := by
    have hq : s.queue = pushed := h.queue
    rw [hq]
    exact h.drained
  pushed_nodup := h.pushed_nodup
  runs_nodup := h.runs_nodup
  known := h.known
  length := List.length_set.trans h.length
  place := by
    refine place_set hr (.won rfl rfl) fun j r c' hj hr' hc => ?_
    refine (h.place j r c' hr' hc).frame (fun x _ => Iff.rfl) (fun x hx => hx)
      (fun x hx _ => .inr hx) Iff.rfl (fun he => ?_) (.inr (not_push_of_isLocked hl hc))
    exact absurd (Option.some.inj he).symm hj

/-- **The disposal runs the next clean-up**, which was pushed and has not run yet. -/
theorem Inv.drain {x : Chore} {left : List Chore}
    (h : Inv requests pushed (.draining i (x :: left)) s) (hr : requests[i]? = some .dispose) :
    Inv requests pushed (.draining i left)
      ({ s with runs := s.runs ++ [x] }.goOn i (.drain left)) := by
  have hdr : s.runs.filter (· ∈ pushed) ++ x :: left = pushed.reverse := h.drained
  have hx : x ∈ pushed := by
    rw [← List.mem_reverse, ← hdr]
    simp
  have hn : x ∉ s.runs := by
    intro hmem
    have hnd := List.nodup_reverse.2 h.pushed_nodup
    rw [← hdr, List.nodup_append] at hnd
    exact hnd.2.2 x (List.mem_filter.2 ⟨hmem, by simpa using hx⟩) x List.mem_cons_self rfl
  exact {
    raised := h.raised
    queue := h.queue
    drained := by
      show (s.runs ++ [x]).filter _ ++ left = _
      rw [List.filter_append, List.filter_cons_of_pos (by simpa using hx), List.filter_nil,
        List.append_assoc]
      exact hdr
    pushed_nodup := h.pushed_nodup
    runs_nodup := (h.runs_append (h.known x (.inl hx)) hn).1
    known := (h.runs_append (h.known x (.inl hx)) hn).2
    length := List.length_set.trans h.length
    place := by
      refine place_set hr (.won rfl rfl) fun j r c' hj hr' hc => ?_
      refine (h.place j r c' hr' hc).frame (fun y _ => Iff.rfl)
        (fun y hy => List.mem_append_left _ hy) (fun y hy _ => ?_) Iff.rfl (fun he => ?_)
        (.inl rfl)
      · rcases List.mem_append.1 hy with hy | hy
        · exact .inr hy
        · exact .inl (List.mem_singleton.1 hy ▸ hx)
      · exact absurd (Option.some.inj he).symm hj }

/-- **The end** of the disposal. -/
theorem Inv.announce (h : Inv requests pushed (.draining i []) s)
    (hr : requests[i]? = some .dispose) :
    Inv requests pushed (.announced i) ({ s with called := true }.goOn i (.returned true)) where
  raised := h.raised
  queue := h.queue
  drained := h.drained
  pushed_nodup := h.pushed_nodup
  runs_nodup := h.runs_nodup
  known := h.known
  length := List.length_set.trans h.length
  place := by
    refine place_set hr (.won rfl rfl) fun j r c' hj hr' hc => ?_
    refine (h.place j r c' hr' hc).frame (fun x _ => Iff.rfl) (fun x hx => hx)
      (fun x hx _ => .inr hx) Iff.rfl (fun he => ?_) (.inl rfl)
    exact absurd (Option.some.inj he).symm hj

/-- A thread's request. -/
theorem Inv.request (h : Inv requests pushed d s) (hc : s.callers[i]? = some c) :
    ∃ r, requests[i]? = some r := by
  obtain ⟨hi, -⟩ := List.getElem?_eq_some_iff.1 hc
  exact ⟨_, List.getElem?_eq_getElem (h.length ▸ hi)⟩

/-- **A step keeps the invariant**, and what was taken stays taken. -/
theorem Inv.step (h : Inv requests pushed d s) (ht : s.step i = some t) :
    ∃ d', Inv requests (pushed ++ s.pushing i) d' t ∧ (d.isTaken = true → d'.isTaken = true) := by
  obtain ⟨c, hc⟩ : ∃ c, s.callers[i]? = some c := by
    cases hc : s.callers[i]? with
    | none => simp [Shared.step, hc] at ht
    | some c => exact ⟨c, rfl⟩
  obtain ⟨r, hr⟩ := h.request hc
  -- Every step but a push leaves what was pushed as it is.
  have same {d' : Disposal} (hnp : ∀ x, c ≠ .push x) (hd : d.isTaken = true → d'.isTaken = true)
      (hi : Inv requests pushed d' t) :
      ∃ d', Inv requests (pushed ++ s.pushing i) d' t ∧
        (d.isTaken = true → d'.isTaken = true) := by
    refine ⟨d', ?_, hd⟩
    have hnone : s.pushing i = [] := by
      unfold pushing
      rw [hc]
      split
      · rename_i x he
        exact absurd (Option.some.inj he) (hnp x)
      · rfl
    rwa [hnone, List.append_nil]
  cases h.place i r c hr hc with
  | registering hp hn =>
    simp only [Shared.step, hc] at ht
    split at ht
    · cases ht
    · cases ht
      refine same nofun id (h.goOn hr ?_)
      split
      · exact .runningHere hp hn
      · rename_i hraised
        refine .pushing hp hn ?_
        rw [h.raised, Option.isSome_iff_ne_none, not_not] at hraised
        cases d with
        | none => rfl
        | raised | draining | announced => cases hraised
  | @pushing b hp hn hd =>
    simp only [Shared.step, hc] at ht
    cases ht
    refine ⟨d, ?_, id⟩
    have hpush : s.pushing i = [⟨i, b⟩] := by rw [Shared.pushing, hc]
    rw [hpush]
    exact h.push hr hp hn hd
  | runningHere hp hn =>
    simp only [Shared.step, hc] at ht
    cases ht
    exact same nofun id (h.runHere hr hp hn)
  | queued | ranHere | lost => simp [Shared.step, hc] at ht
  | disposing hw =>
    simp only [Shared.step, hc] at ht
    split at ht
    · cases ht
      exact same nofun id (h.goOn hr (.lost hw))
    · rename_i hraised
      cases ht
      refine same nofun (fun htaken => ?_) (h.raise hr (by simpa using hraised))
      rw [h.raised] at hraised
      exact absurd (d.isSome_of_isTaken htaken) hraised
  | won hw hstage =>
    cases d with
    | none => cases hstage
    | raised w =>
      obtain rfl : w = i := Option.some.inj hw
      obtain rfl : _ = c := Option.some.inj hstage
      simp only [Shared.step, hc] at ht
      split at ht
      · cases ht
      · rename_i hl
        cases ht
        exact same nofun nofun (h.take hr (by simpa using hl))
    | draining w left =>
      obtain rfl : w = i := Option.some.inj hw
      obtain rfl : _ = c := Option.some.inj hstage
      cases left with
      | nil =>
        simp only [Shared.step, hc] at ht
        cases ht
        exact same nofun (fun _ => rfl) (h.announce hr)
      | cons x left =>
        simp only [Shared.step, hc] at ht
        cases ht
        exact same nofun (fun _ => rfl) (h.drain hr)
    | announced w =>
      obtain rfl : _ = c := Option.some.inj hstage
      simp [Shared.step, hc] at ht

end Step

/-! ### A whole schedule -/

theorem pushing_of_step_none {s : Shared} {i : Nat} (h : s.step i = none) : s.pushing i = [] := by
  unfold pushing
  split
  · rename_i c hc
    simp [step, hc] at h
  · rfl

/-- **A schedule keeps the invariant**, and what was taken stays taken. -/
theorem Inv.follow {requests : List Request} {pushed : List Chore} {d : Disposal} {s : Shared}
    (h : Inv requests pushed d s) (schedule : List Nat) :
    ∃ d', Inv requests (pushed ++ s.pushes schedule) d' (s.follow schedule) ∧
      (d.isTaken = true → d'.isTaken = true) := by
  induction schedule generalizing s pushed d with
  | nil => exact ⟨d, by rwa [pushes, List.append_nil], id⟩
  | cons i schedule ih =>
    rw [pushes, ← List.append_assoc]
    show ∃ d', Inv requests _ d' (((s.step i).getD s).follow schedule) ∧ _
    cases ht : s.step i with
    | none =>
      rw [pushing_of_step_none ht, List.append_nil]
      exact ih h
    | some t =>
      obtain ⟨d₁, h₁, hd₁⟩ := h.step ht
      obtain ⟨d₂, h₂, hd₂⟩ := ih h₁
      exact ⟨d₂, h₂, hd₂ ∘ hd₁⟩

/-! ### What callers can rely on -/

section Facts

variable {requests : List Request} {pushed : List Chore} {d : Disposal} {s : Shared}

theorem Inv.runsOf_eq_count (h : Inv requests pushed d s) {i : Nat} {b : Bool}
    (hr : requests[i]? = some (.register b)) : s.runsOf i = s.runs.count ⟨i, b⟩ := by
  refine List.countP_congr fun x hx => ?_
  have hk := h.known x (.inr hx)
  simp only [beq_iff_eq]
  constructor
  · rintro rfl
    rw [hr, Option.some.injEq, Request.register.injEq] at hk
    rw [hk]
  · rintro rfl
    rfl

/-- **No clean-up is run twice.** -/
theorem Inv.runsOf_le_one (h : Inv requests pushed d s) (i : Nat) : s.runsOf i ≤ 1 := by
  cases hz : s.runsOf i with
  | zero => exact Nat.zero_le _
  | succ n =>
    obtain ⟨x, hx, hi⟩ := List.countP_pos_iff.1 (hz ▸ Nat.succ_pos n : 0 < s.runsOf i)
    have hk := h.known x (.inr hx)
    rw [beq_iff_eq.1 hi] at hk
    rw [← hz, h.runsOf_eq_count hk]
    exact List.nodup_iff_count_le_one.1 h.runs_nodup _

/-- A disposal whose thread has run all clean-ups. -/
theorem Inv.eq_announced (h : Inv requests pushed d s) {w : Nat} (hr : requests[w]? = some .dispose)
    (hc : s.callers[w]? = some (.returned true)) : d = .announced w := by
  cases h.place w _ _ hr hc with
  | won hw hstage =>
    cases d with
    | none | raised | draining => cases hstage
    | announced v => rw [Option.some.inj hw]

/-- A disposal whose thread runs the clean-ups that it took. -/
theorem Inv.eq_draining (h : Inv requests pushed d s) {w : Nat} {left : List Chore}
    (hc : s.callers[w]? = some (.drain left)) : d = .draining w left := by
  obtain ⟨r, hr⟩ := h.request hc
  cases h.place w _ _ hr hc with
  | won hw hstage =>
    cases d with
    | none | raised | announced => cases hstage
    | draining v left' => rw [Option.some.inj hw, Caller.drain.inj (Option.some.inj hstage)]

/-- When the disposal is over, **every clean-up has run** whose registration returned. -/
theorem Inv.mem_runs_of_announced {w i : Nat} {b a : Bool} (h : Inv requests pushed (.announced w) s)
    (hr : requests[i]? = some (.register b)) (hc : s.callers[i]? = some (.returned a)) :
    ⟨i, b⟩ ∈ s.runs := by
  cases h.place i _ _ hr hc with
  | queued hp =>
    have hdr : s.runs.filter (· ∈ pushed) ++ [] = pushed.reverse := h.drained
    rw [List.append_nil] at hdr
    rw [← List.mem_reverse, ← hdr] at hp
    exact List.mem_of_mem_filter hp
  | ranHere hn => exact hn

end Facts

/-- **Every clean-up runs once**, whatever the threads call for and in whatever order their steps
come.

* No clean-up is ever run twice.
* At most one call for a disposal returns `true`.
* When a registration has returned `false`, its clean-up has run.
* Once a disposal has returned `true` and all registrations have returned, every clean-up has run
  exactly once.
* From the take on the queue is empty for ever.
* Of the clean-ups pushed, what has run and what the disposal has still to run are all of them,
  from the last one to the first; when the disposal has returned, all of them have run so. -/
theorem cleanups_run_once (requests : List Request) (schedule : List Nat) :
    let s := (start requests).follow schedule
    let pushed := (start requests).pushes schedule
    (∀ i : Nat, s.runsOf i ≤ 1) ∧
    (∀ i j : Nat, requests[i]? = some .dispose → s.callers[i]? = some (.returned true) →
      requests[j]? = some .dispose → s.callers[j]? = some (.returned true) → i = j) ∧
    (∀ (i : Nat) (b : Bool), requests[i]? = some (.register b) →
      s.callers[i]? = some (.returned false) → s.runsOf i = 1) ∧
    (∀ w : Nat, requests[w]? = some .dispose → s.callers[w]? = some (.returned true) →
      (∀ (i : Nat) (b : Bool), requests[i]? = some (.register b) →
        ∃ a, s.callers[i]? = some (.returned a)) →
      ∀ (i : Nat) (b : Bool), requests[i]? = some (.register b) → s.runsOf i = 1) ∧
    (∀ (w : Nat) (left : List Chore), s.callers[w]? = some (.drain left) →
      ∀ later, (s.follow later).queue = []) ∧
    (∀ (w : Nat) (left : List Chore), s.callers[w]? = some (.drain left) →
      s.runs.filter (· ∈ pushed) ++ left = pushed.reverse) ∧
    (∀ w : Nat, requests[w]? = some .dispose → s.callers[w]? = some (.returned true) →
      s.runs.filter (· ∈ pushed) = pushed.reverse) := by
  intro s pushed
  obtain ⟨d, h, -⟩ : ∃ d, Inv requests pushed d s ∧ _ := (inv_start requests).follow schedule
  have once (i : Nat) (b : Bool) (hr : requests[i]? = some (.register b))
      (hm : ⟨i, b⟩ ∈ s.runs) : s.runsOf i = 1 := by
    rw [h.runsOf_eq_count hr]
    exact List.count_eq_one_of_mem h.runs_nodup hm
  refine ⟨h.runsOf_le_one, ?_, ?_, ?_, ?_, ?_, ?_⟩
  · intro i j hi hci hj hcj
    have hij := (h.eq_announced hi hci).symm.trans (h.eq_announced hj hcj)
    exact Disposal.announced.inj hij
  · intro i b hr hc
    cases h.place i _ _ hr hc with
    | ranHere hm => exact once i b hr hm
  · intro w hw hcw hall i b hr
    obtain ⟨a, ha⟩ := hall i b hr
    obtain rfl := h.eq_announced hw hcw
    exact once i b hr (h.mem_runs_of_announced hr ha)
  · intro w left hc later
    obtain rfl := h.eq_draining hc
    obtain ⟨d', h', hd'⟩ := h.follow later
    rw [h'.queue, hd' rfl]
    rfl
  · intro w left hc
    obtain rfl := h.eq_draining hc
    exact h.drained
  · intro w hw hc
    obtain rfl := h.eq_announced hw hc
    have hdr : s.runs.filter (· ∈ pushed) ++ [] = pushed.reverse := h.drained
    rwa [List.append_nil] at hdr

/-- A thread looks at the flag, another puts it up, and only then the first one pushes; a third one
comes too late and runs its clean-up, which crashes, itself. -/
theorem cleanups_run_once_in_window :
    let s := (start [.register false, .dispose, .register true]).follow [0, 1, 0, 1, 2, 1, 1, 2]
    s.callers = [.returned true, .returned true, .returned false] ∧
      s.runsOf 0 = 1 ∧ s.runsOf 2 = 1 ∧ s.runs.filter (· ∈ [⟨0, false⟩]) = [⟨0, false⟩] := by
  have facts := cleanups_run_once [.register false, .dispose, .register true]
    [0, 1, 0, 1, 2, 1, 1, 2]
  have hs : (start [.register false, .dispose, .register true]).follow [0, 1, 0, 1, 2, 1, 1, 2] =
      { raised := true, called := true, runs := [⟨0, false⟩, ⟨2, true⟩],
        callers := [.returned true, .returned true, .returned false] } := by decide
  have hp : (start [.register false, .dispose, .register true]).pushes [0, 1, 0, 1, 2, 1, 1, 2] =
      [⟨0, false⟩] := by decide
  rw [hs, hp] at facts
  rw [hs]
  obtain ⟨-, -, here, all, -, -, back⟩ := facts
  refine ⟨rfl, all 1 rfl rfl (fun i b hr => ?_) 0 false rfl, here 2 true rfl rfl, back 1 rfl rfl⟩
  match i with
  | 0 => exact ⟨true, rfl⟩
  | 1 => exact ⟨true, rfl⟩
  | 2 => exact ⟨false, rfl⟩
  | i + 3 => simp at hr

end HeldReply.Shared
