import HeldReply.Proofs.Session.Quiet
import HeldReply.Proofs.Session.Waiting
import Mathlib.Data.Finset.Max

/-!
# Stopping the beat

Any number of callers stop the beat, at any time and beside one another.  The first one takes the
handle of the beat and waits for the beat to be over; whoever comes later finds no handle and is told
at once that it is.  The beat looks whether it is cancelled and writes in two steps, between which
others may have theirs.

* `Halting`, `Halting.Act`, `Halting.step`, `Halting.Runs` — the session with the beat between its two
  steps, **the steps of all who take part**, and what it can come to;
* `Halting.stepBeat_of_sees`, `Halting.runs_stopWithin` — the beat's step and a call, as steps of it;
* `Halting.Sound`, `Halting.Follows` — the invariant, and **what steps do to the beat**;
* `Halting.Sound.exists_returned` — whoever waits for the beat **can return in time**;
* `Halting.answer_of_stop` — **what the answer of a call tells**.
-/

namespace HeldReply

open Recorded Session

/-! ### The system -/

/-- **The clock** is moved by nobody else. -/
theorem Scene.now_step {σ : Type} [Link σ] {c v : Scene σ} {d : Deed σ} (hs : c.step d = some v) :
    v.session.now = c.session.now ∨ d = .tick v.session.now := by
  have hcleanup (k : Cleanup) :
      (c.session.desk.runCleanup k).around.now = c.session.desk.around.now :=
    (Desk.Leads.refl.runCleanup k).around
      (P := fun a : Line (Recorded σ) => a.now = c.session.desk.around.now)
      (fun _ => id) (fun _ => id) rfl
  cases d with
  | poll t =>
    cases hs
    obtain ⟨ks, hl⟩ := leads_poll c.session t
    exact .inl hl.now
  | tick now =>
    rw [step] at hs
    split at hs <;> cases hs
    exact .inr rfl
  | link | claim | send | share | release | cancel =>
    cases hs
    exact .inl rfl
  | runHere | clean =>
    rw [step] at hs
    split at hs <;> cases hs
    exact .inl (hcleanup _)
  | push | raise | take | announce =>
    rw [step] at hs
    split at hs <;> cases hs
    exact .inl rfl

/-- A session **in which calls stop the beat**. -/
structure Halting (σ : Type) where
  scene : Scene σ
  /-- The beat has looked whether it is cancelled, and is about to write. -/
  looked : Bool := false

/-- What is **done** around the beat. -/
inductive Halting.Act (σ : Type) where
  | deed (d : Deed σ)
  /-- A caller cancels the beat and takes its handle. -/
  | stop (wait : Span)
  /-- The beat has rested, and looks whether it is cancelled. -/
  | look
  /-- It writes. -/
  | write

namespace Halting

variable {σ : Type}

/-- The session. -/
def session (c : Halting σ) : Session (Recorded σ) :=
  c.scene.session

/-- The time. -/
def now (c : Halting σ) : Nat :=
  c.session.now

/-- The beats begun. -/
def begun (c : Halting σ) : Nat :=
  beatsBegun c.session.link.log

/-- Put another session in place of the session. -/
def withSession (c : Halting σ) (s : Session (Recorded σ)) : Halting σ :=
  { c with scene.session := s }

/-- Whether the beat has rested and is not cancelled. -/
def sees (c : Halting σ) : Bool :=
  match c.session.beat with
  | .resting wakeAt => !c.session.isCancelled && decide (wakeAt ≤ c.now)
  | _ => false

/-- Whether a step of the others is **possible**: the beat has no turn between its look and its write,
and the clock does not move beyond the end of a wait for the beat. -/
def admits (c : Halting σ) : Deed σ → Bool
  | .poll .beat => !c.looked
  | .tick now => c.session.tasks.all fun t => (c.session.waitOf t).all fun d => decide (now ≤ d)
  | _ => true

variable [Link σ]

/-- **One step**; `none` if it is not possible. -/
def step (c : Halting σ) : Act σ → Option (Halting σ)
  | .deed d => if c.admits d then (c.scene.step d).map fun scene => { c with scene } else none
  | .stop wait => some (c.withSession (c.session.takeHandle wait))
  | .look => if !c.looked && c.sees then some { c with looked := true } else none
  | .write =>
    if c.looked then some { c.withSession c.session.writeBeat with looked := false } else none

/-- **What can become** of a session. -/
inductive Runs (c : Halting σ) : Halting σ → Prop
  | refl : Runs c c
  | step {u v : Halting σ} (h : Runs c u) (a : Act σ) (hs : u.step a = some v) : Runs c v

variable {c u v w : Halting σ}

theorem Runs.trans (h : c.Runs u) (k : u.Runs v) : c.Runs v := by
  induction k with
  | refl => exact h
  | step _ a hs ih => exact ih.step a hs

theorem Runs.of_step {a : Act σ} (hs : c.step a = some v) : c.Runs v :=
  Runs.refl.step a hs

/-- Steps that follow one another. -/
theorem Runs.steps (as : List (Act σ)) (hs : as.foldlM Halting.step c = some v) : c.Runs v := by
  induction as generalizing c with
  | nil =>
    cases hs
    exact .refl
  | cons a as ih =>
    rw [List.foldlM_cons] at hs
    obtain ⟨u, hu, hs⟩ := Option.bind_eq_some_iff.1 hs
    exact (Runs.of_step hu).trans (ih hs)

/-- A beat that looks and then writes has done what it does **in one step** of its turn. -/
theorem stepBeat_of_sees (h : c.sees = true) : c.session.stepBeat = c.session.writeBeat := by
  unfold sees at h
  split at h
  · rename_i wakeAt hb
    simp only [Bool.and_eq_true, Bool.not_eq_true', decide_eq_true_eq] at h
    unfold Session.stepBeat
    rw [hb]
    dsimp only
    rw [if_neg (Bool.eq_false_iff.1 h.1)]
    exact if_pos h.2
  · cases h

/-- A call that takes the handle and **has its first turn** has begun as it does in one step. -/
theorem runs_stopWithin (c : Halting σ) (wait : Span) : ∃ v, c.step (.stop wait) = some v ∧
    v.Runs (c.withSession (c.session.stopWithin wait).1) := by
  refine ⟨_, rfl, .of_step (a := .deed (.poll (.stop c.session.stops.length))) ?_⟩
  rw [stopWithin_eq]
  rfl

/-! ### What steps do to the beat -/

/-- **The invariant**: at most one beat is in flight, a beat that is about to write has rested, and
no wait for the beat has lasted too long. -/
structure Sound (c : Halting σ) : Prop where
  single : c.session.IsSingle
  resting : c.looked = true → ∃ wakeAt, c.session.beat = .resting wakeAt
  inTime : ∀ t deadline, c.session.waitOf t = some deadline → c.now ≤ deadline

/-- Whether a write **may begin**. -/
def MayWrite (c : Halting σ) : Prop :=
  c.session.isCancelled = false ∨ c.looked = true

/-- **What steps do to the beat.**  Once it is cancelled, no write begins but the one for which it has
looked. -/
structure Follows (c v : Halting σ) : Prop where
  heeds : Heeds c.MayWrite c.session v.session
  looked : c.session.isCancelled = true → v.looked = true → c.looked = true
  begun_le : c.session.isCancelled = true →
    v.begun + v.looked.toNat ≤ c.begun + c.looked.toNat

omit [Link σ] in
theorem Follows.trans (h : c.Follows u) (k : u.Follows v) : c.Follows v := by
  refine ⟨h.heeds.trans (k.heeds.imp fun hmay => ?_), ?_, ?_⟩
  · cases hc : c.session.isCancelled with
    | false => exact .inl hc
    | true =>
      obtain hno | hl := hmay
      · rw [h.heeds.cancelled hc] at hno
        cases hno
      · exact .inr (h.looked hc hl)
  · exact fun hc hv => h.looked hc (k.looked (h.heeds.cancelled hc) hv)
  · exact fun hc => Nat.le_trans (k.begun_le (h.heeds.cancelled hc)) (h.begun_le hc)

omit [Link σ] in
/-- The beat does not look, and begins a write only if it is not cancelled. -/
theorem Follows.of_heeds (h : Heeds (c.session.isCancelled = false) c.session v.session)
    (hl : v.looked = c.looked) : c.Follows v := by
  refine ⟨h.imp .inl, fun _ hv => hl ▸ hv, fun hc => ?_⟩
  obtain ⟨hbegun, -⟩ | ⟨hno, -⟩ := h.begun
  · rw [hl]
    exact Nat.le_of_eq (congrArg (· + c.looked.toNat) hbegun)
  · rw [hc] at hno
    cases hno

omit [Link σ] in
theorem admits_tick_iff {t : Nat} : c.admits (.tick t) = true ↔
    ∀ u deadline, c.session.waitOf u = some deadline → t ≤ deadline := by
  show c.session.tasks.all (fun u => (c.session.waitOf u).all fun d => decide (t ≤ d)) = true ↔ _
  rw [List.all_eq_true]
  constructor
  · intro h u deadline hw
    have hu := h u (mem_tasks_of_waitOf hw)
    rw [hw] at hu
    exact of_decide_eq_true hu
  · intro h u _
    cases hw : c.session.waitOf u with
    | none => rfl
    | some deadline => exact decide_eq_true (h u deadline hw)

/-- **What others do.** -/
theorem Sound.deed {d : Deed σ} {scene : Scene σ} (h : c.Sound) (hd : c.admits d = true)
    (hs : c.scene.step d = some scene) :
    ({ c with scene } : Halting σ).Sound ∧ c.Follows { c with scene } := by
  have hnow := Scene.now_step hs
  obtain ⟨t, ht, hv⟩ | ⟨e, he, hv⟩ := Scene.step_cases hs
  · have hheeds : Heeds (c.session.isCancelled = false) c.session scene.session := by
      rw [hv]
      exact h.single.poll t
    have hnow : scene.session.now = c.now := by
      refine hnow.resolve_right fun htick => ?_
      rw [ht] at htick
      cases htick
    refine ⟨⟨hheeds.single, fun hl => ?_, fun u deadline hw => ?_⟩, .of_heeds hheeds rfl⟩
    · have hother : t ≠ .beat := by
        rintro rfl
        rw [ht, admits, hl] at hd
        cases hd
      obtain ⟨wakeAt, hb⟩ := h.resting hl
      refine ⟨wakeAt, ?_⟩
      show scene.session.beat = _
      rw [hv, ← hb]
      exact c.session.beat_poll hother
    · show scene.session.now ≤ deadline
      have hw : scene.session.waitOf u = some deadline := hw
      rw [hnow]
      rw [hv] at hw
      obtain hw | ⟨-, -, hw⟩ := waitOf_poll hw
      · exact h.inTime u deadline hw
      · rw [hw]
        exact Span.le_waitUntil _ _
  · have hspares : c.session.Spares scene.session := by
      rw [hv]
      exact .of_follows he rfl rfl
    have hheeds : Heeds False c.session scene.session := h.single.of_spares hspares
    refine ⟨⟨hheeds.single, fun hl => ?_, fun u deadline hw => ?_⟩, .of_heeds hheeds.mono rfl⟩
    · obtain ⟨wakeAt, hb⟩ := h.resting hl
      exact ⟨wakeAt, hspares.beat.trans hb⟩
    · show scene.session.now ≤ deadline
      have hw : c.session.waitOf u = some deadline := by
        have hsame : scene.session.waitOf u = c.session.waitOf u := by
          rw [hv]
          exact waitOf_congr rfl rfl u
        exact hsame.symm.trans hw
      obtain hnow | htick := hnow
      · rw [hnow]
        exact h.inTime u deadline hw
      · rw [htick] at hd
        exact admits_tick_iff.1 hd u deadline hw

/-- **A step** keeps the invariant. -/
theorem Sound.step {a : Act σ} (h : c.Sound) (hs : c.step a = some v) : v.Sound ∧ c.Follows v := by
  cases a with
  | deed d =>
    rw [Halting.step] at hs
    split at hs
    · rename_i hd
      obtain ⟨scene, hscene, rfl⟩ := Option.map_eq_some_iff.1 hs
      exact h.deed hd hscene
    · cases hs
  | stop wait =>
    cases hs
    have hheeds : Heeds False c.session (c.session.takeHandle wait) := h.single.joins _
    refine ⟨⟨hheeds.single, h.resting, fun t deadline hw => ?_⟩, .of_heeds hheeds.mono rfl⟩
    obtain hw | ⟨-, rfl⟩ := waitOf_takeHandle hw
    · exact h.inTime t deadline hw
    · exact c.session.le_givesUpAt wait
  | look =>
    rw [Halting.step] at hs
    split at hs <;> cases hs
    rename_i hsees
    rw [Bool.and_eq_true] at hsees
    have hsees := hsees.2
    unfold sees at hsees
    split at hsees
    · rename_i wakeAt hb
      rw [Bool.and_eq_true, Bool.not_eq_true'] at hsees
      have hno {p : Prop} (hc : c.session.isCancelled = true) : p := by
        rw [hsees.1] at hc
        cases hc
      exact ⟨⟨h.single, fun _ => ⟨wakeAt, hb⟩, h.inTime⟩, h.single.refl, hno, hno⟩
    · cases hsees
  | write =>
    rw [Halting.step] at hs
    split at hs <;> cases hs
    rename_i hl
    obtain ⟨wakeAt, hb⟩ := h.resting hl
    have hlanded : c.session.HasLanded := by
      refine h.single.hasLanded ?_
      rw [hb]
      exact nofun
    obtain ⟨hheeds, hbegun⟩ := hlanded.writeBeat (by rw [hb]; rfl)
    refine ⟨⟨hheeds.single, nofun, fun t deadline hw => ?_⟩, hheeds.imp fun _ => .inr hl, nofun,
      fun _ => ?_⟩
    · obtain ⟨ks, hleads⟩ := (Leads.refl (s := c.session)).writeBeat
      show c.session.writeBeat.now ≤ deadline
      rw [hleads.now]
      exact h.inTime t deadline ((c.session.changesBeat_writeBeat.waitOf_eq t).symm.trans hw)
    · rw [hl]
      exact Nat.le_of_eq hbegun

/-- **A run** keeps the invariant. -/
theorem Sound.run (h : c.Sound) (hr : c.Runs v) : v.Sound ∧ c.Follows v := by
  induction hr with
  | refl => exact ⟨h, .of_heeds h.single.refl rfl⟩
  | step _ a hs ih =>
    obtain ⟨hu, hcu⟩ := ih
    obtain ⟨hv, huv⟩ := hu.step hs
    exact ⟨hv, hcu.trans huv⟩

/-! ### Whoever waits can return -/

omit [Link σ] in
/-- The tasks that **wait for the beat**. -/
def waiters (c : Halting σ) : Finset Task :=
  c.session.tasks.toFinset.filter fun t => (c.session.waitOf t).isSome

omit [Link σ] in
theorem mem_waiters_iff {t : Task} : t ∈ c.waiters ↔ ∃ deadline, c.session.waitOf t = some deadline := by
  unfold waiters
  rw [Finset.mem_filter, List.mem_toFinset, Option.isSome_iff_exists]
  exact ⟨fun h => h.2, fun h => ⟨mem_tasks_of_waitOf h.choose_spec, h⟩⟩

/-- When the first wait ends, whoever waits so long **goes on**, and nobody begins to wait. -/
theorem Sound.exists_polled {t : Task} {d : Nat} (h : c.Sound)
    (ht : c.session.waitOf t = some d)
    (hfirst : ∀ u deadline, c.session.waitOf u = some deadline → d ≤ deadline) :
    ∃ v, c.Runs v ∧ v.now = d ∧ v.session.waitOf t = none ∧
      ∀ u deadline, v.session.waitOf u = some deadline → c.session.waitOf u = some deadline := by
  let later : Halting σ := c.withSession (c.session.atTime d)
  have htick : c.step (.deed (.tick d)) = some later := by
    have hle : c.scene.session.now ≤ d := h.inTime t d ht
    rw [Halting.step, if_pos (admits_tick_iff.2 hfirst), Scene.step, if_pos hle]
    rfl
  let v : Halting σ := later.withSession (later.session.poll t)
  have hpoll : later.step (.deed (.poll t)) = some v := by
    have hadmits : later.admits (.poll t) = true := by
      cases t with
      | beat => cases ht
      | watcher | closing | stop => rfl
    rw [Halting.step, if_pos hadmits]
    rfl
  have hlater (u : Task) : later.session.waitOf u = c.session.waitOf u := waitOf_congr rfl rfl u
  have hover : v.session.waitOf t = none :=
    waitOf_poll_self ((hlater t).trans ht) (.inr (Nat.le_refl d))
  refine ⟨v, (Runs.of_step htick).step _ hpoll, ?_, hover, fun u deadline hw => ?_⟩
  · obtain ⟨ks, hleads⟩ := leads_poll later.session t
    exact hleads.now
  · obtain hw | ⟨rfl, rfl, -⟩ := waitOf_poll hw
    · exact (hlater u).symm.trans hw
    · rw [hover] at hw
      cases hw

/-- **Whoever waits for the beat can return in time**, whatever the others do. -/
theorem Sound.exists_returned {t : Task} {deadline : Nat} (h : c.Sound)
    (hw : c.session.waitOf t = some deadline) :
    ∃ v, c.Runs v ∧ v.now ≤ deadline ∧ v.session.waitOf t = none := by
  -- Those who give up before have their turns first, and fewer and fewer wait.
  induction hn : c.waiters.card using Nat.strong_induction_on generalizing c with
  | _ n ih =>
    obtain ⟨first, hmem, hmin⟩ := c.waiters.exists_min_image
      (fun u => (c.session.waitOf u).getD 0) ⟨t, mem_waiters_iff.2 ⟨deadline, hw⟩⟩
    obtain ⟨d, hd⟩ := mem_waiters_iff.1 hmem
    have hfirst : ∀ u e, c.session.waitOf u = some e → d ≤ e := by
      intro u e hu
      have hle := hmin u (mem_waiters_iff.2 ⟨e, hu⟩)
      rw [hd, hu] at hle
      exact hle
    obtain ⟨v, hrun, hnow, hover, hothers⟩ := h.exists_polled hd hfirst
    cases hv : v.session.waitOf t with
    | none => exact ⟨v, hrun, hnow ▸ hfirst t deadline hw, hv⟩
    | some e =>
      obtain rfl : e = deadline := Option.some.inj ((hothers t e hv).symm.trans hw)
      have hfewer : v.waiters ⊂ c.waiters := by
        refine Finset.ssubset_iff_of_subset (fun u hu => ?_) |>.2 ⟨first, hmem, fun hf => ?_⟩
        · obtain ⟨e, he⟩ := mem_waiters_iff.1 hu
          exact mem_waiters_iff.2 ⟨e, hothers u e he⟩
        · obtain ⟨e, he⟩ := mem_waiters_iff.1 hf
          rw [hover] at he
          cases he
      obtain ⟨u, hu, hle, hnone⟩ :=
        ih v.waiters.card (hn ▸ Finset.card_lt_card hfewer) (h.run hrun).1 hv rfl
      exact ⟨u, hrun.trans hu, hle, hnone⟩

/-! ### What the answer of a call tells -/

/-- **No beat is in flight, and none begins any more.** -/
def IsSilent (c : Halting σ) : Prop :=
  ∀ u, c.Runs u → u.session.HasLanded ∧ u.begun = c.begun

/-- **The start**: the beat has not begun, and nobody waits for it. -/
structure IsNew (c : Halting σ) : Prop where
  fresh : c.session.beat = .fresh
  landed : c.session.HasLanded
  unwaited : ∀ t, c.session.waitOf t = none
  looked : c.looked = false

omit [Link σ] in
theorem IsNew.sound (h : c.IsNew) : c.Sound := by
  refine ⟨h.landed.isSingle, fun hl => ?_, fun t deadline hw => ?_⟩
  · rw [h.looked] at hl
    cases hl
  · rw [h.unwaited t] at hw
    cases hw

omit [Link σ] in
/-- A desk with no call in flight **becomes that of a session** in which the beat has not begun. -/
theorem isNew_of_follows {s : Session (Recorded σ)} {d : Desk (Line (Recorded σ))}
    (hd : Desk.Follows d s.desk) (hf : d.around.link.flights = []) (hb : s.beat = .fresh)
    (hs : s.stops = []) (hk : ∀ deadline held, s.closing ≠ .stopping deadline held) :
    IsNew { scene := { session := s } } := by
  refine ⟨hb, fun f hm => ?_, fun t => ?_, rfl⟩
  · have hnone := hd.flights f hm
    rw [hf] at hnone
    cases hnone
  · rw [Option.eq_none_iff_forall_ne_some]
    intro deadline hw
    cases t with
    | beat | watcher => cases hw
    | closing =>
      obtain ⟨held, hw⟩ := waitOf_closing_iff.1 hw
      exact hk deadline held hw
    | stop i =>
      have hi : s.stops[i]? = some (.waiting deadline) := waitOf_stop_iff.1 hw
      rw [hs] at hi
      cases hi

/-- A session that **was started** with a handler. -/
theorem isNew_launch (l : σ) (now id : Nat) (interval : Span) (p : Prepared) :
    IsNew { scene := Scene.launch l now id interval p } :=
  isNew_of_follows (Desk.follows_execute p.name p.program _) rfl rfl rfl fun _ _ => nofun

/-- **The beat alone**, and with a closing. -/
theorem isNew_closingOnly (l : σ) (interval patience : Span) (disposed : Bool) (closing : Closing)
    (hk : ∀ deadline held, closing ≠ .stopping deadline held) :
    IsNew { scene := { session :=
      { beatOnly ({ link := l } : Recorded σ) interval disposed with patience, closing } } } := by
  let start : Desk (Line (Recorded σ)) :=
    { scope := { id := 1, label := "heartbeat" }, around := { link := { link := l } } }
  refine isNew_of_follows (d := start) ?_ rfl rfl rfl hk
  cases disposed with
  | true => exact (Desk.follows_dispose start).trans (Desk.follows_runCleanup .cancelBeat _)
  | false => exact .of_promise rfl (.of_stage rfl)

/-- A beat that is over, and one that may not write and has no write in flight, **is silent**. -/
theorem Sound.isSilent (h : c.Sound)
    (hs : c.session.beat.isOver = true ∨ c.session.HasLanded ∧ ¬c.MayWrite) : c.IsSilent := by
  intro u hu
  have hheeds := (h.run hu).2.heeds
  obtain hover | ⟨hlanded, hno⟩ := hs
  · exact hheeds.silent (h.single.hasLanded_of_isOver hover) (.inr hover)
  · exact hheeds.silent hlanded (.inl hno)

/-- When the beat is about to write, **it is not silent**. -/
theorem Sound.not_isSilent (h : c.Sound) (hl : c.looked = true) : ¬c.IsSilent := by
  intro hs
  obtain ⟨wakeAt, hb⟩ := h.resting hl
  have hlanded : c.session.HasLanded := (hs c .refl).1
  obtain ⟨-, hbegun⟩ := hlanded.writeBeat (by rw [hb]; rfl)
  have hwrite : c.step .write = some { c.withSession c.session.writeBeat with looked := false } :=
    if_pos hl
  have hsame : beatsBegun c.session.writeBeat.link.log = c.begun := (hs _ (.of_step hwrite)).2
  rw [hsame] at hbegun
  exact absurd hbegun (Nat.ne_of_lt (Nat.lt_succ_self _))

/-! #### After a call -/

/-- The call **is waiting or has returned**, as it does in its turns. -/
theorem Sound.call_of_stop {wait : Span} (h : c.Sound) (hs : c.step (.stop wait) = some v)
    (hw : v.Runs w) : ∃ call, w.session.stops[c.session.stops.length]? = some call ∧
      (if c.session.joined then Stop.answered true
        else .waiting (c.session.givesUpAt wait)).Turns (w.session.beat.isOver = true) call := by
  refine ((h.step hs).1.run hw).2.heeds.stops _ _ ?_
  cases hs
  exact c.session.getElem?_stops_joins _

/-- Whoever has the handle returns that the beat was over in time **only if it is over**. -/
theorem Sound.isOver_of_answered {wait : Span} (h : c.Sound) (hs : c.step (.stop wait) = some v)
    (hw : v.Runs w) (hj : c.session.joined = false)
    (ha : w.session.answered? c.session.stops.length = some true) :
    w.session.beat.isOver = true := by
  obtain ⟨call, hcall, hturn⟩ := h.call_of_stop hs hw
  rw [answered?_eq_some_iff, hcall] at ha
  cases ha
  rw [hj, if_neg Bool.false_ne_true] at hturn
  cases hturn with
  | returned _ _ hover => exact hover rfl

/-- A call that has not returned **waits**, for as long as it was told to. -/
theorem Sound.waits_of_unanswered {wait : Span} (h : c.Sound) (hs : c.step (.stop wait) = some v)
    (hw : v.Runs w) (ha : w.session.answered? c.session.stops.length = none) :
    w.session.waitOf (.stop c.session.stops.length) = some (c.session.givesUpAt wait) := by
  obtain ⟨call, hcall, hturn⟩ := h.call_of_stop hs hw
  have hunanswered (inTime : Bool) : call ≠ .answered inTime := by
    rintro rfl
    rw [answered?_eq_some_iff.2 hcall] at ha
    cases ha
  rw [waitOf_stop_iff, hcall]
  split at hturn
  · cases hturn
    exact absurd rfl (hunanswered true)
  · cases hturn with
    | same => rfl
    | returned _ inTime _ => exact absurd rfl (hunanswered inTime)

/-- After a call the beat is silent exactly if **no write is in flight or about to begin**. -/
theorem Sound.isSilent_iff_of_stop {wait : Span} (h : c.Sound)
    (hs : c.step (.stop wait) = some v) :
    v.IsSilent ↔ c.session.HasLanded ∧ c.looked = false := by
  obtain ⟨hv, -⟩ := h.step hs
  cases hs
  constructor
  · intro hsilent
    refine ⟨(hsilent _ .refl).1, Bool.eq_false_iff.2 fun hl => ?_⟩
    exact hv.not_isSilent hl hsilent
  · intro ⟨hlanded, hl⟩
    refine hv.isSilent (.inr ⟨hlanded, fun hmay => ?_⟩)
    obtain hno | hyes := hmay
    · cases hno
    · exact Bool.eq_false_iff.1 hl hyes

/-- **What the answer of a call tells** that stops the beat, in any run and beside any other calls.

* If the call found the handle of the beat, then it returns that the beat was over in time only when no
  beat is in flight and none begins any more.
* If the handle was gone, it returns so at once; then no beat is in flight and none begins any more if
  and only if no write was in flight and none was about to begin when it came.
* After the call at most the write begins that was about to begin.
* Its next turn tells that the beat was over in time if it is over, and that it was not if the call's
  time is up.  The clock does not go beyond that time before the call has returned, and it can always
  return by then.  So it is with all who wait for the beat, the closing among them.
* The call's time ends when it has waited for so long, a begun millisecond counting as a whole one. -/
theorem answer_of_stop {start c v w : Halting σ} (hnew : start.IsNew) (hc : start.Runs c)
    {wait : Span} (hs : c.step (.stop wait) = some v) (hw : v.Runs w) :
    (c.session.joined = false →
      w.session.answered? c.session.stops.length = some true → w.IsSilent) ∧
    (c.session.joined = true →
      v.session.answered? c.session.stops.length = some true ∧
        (v.IsSilent ↔ c.session.HasLanded ∧ c.looked = false)) ∧
    w.begun + w.looked.toNat ≤ c.begun + c.looked.toNat ∧
    (w.session.answered? c.session.stops.length = none →
      w.now ≤ c.session.givesUpAt wait ∧
        (w.session.poll (.stop c.session.stops.length)).answered? c.session.stops.length =
          (if w.session.beat.isOver then some true
            else if c.session.givesUpAt wait ≤ w.now then some false else none) ∧
        ∃ u, w.Runs u ∧ u.now ≤ c.session.givesUpAt wait ∧
          (u.session.answered? c.session.stops.length).isSome = true) ∧
    (∀ t deadline, w.session.waitOf t = some deadline →
      w.now ≤ deadline ∧ ∃ u, w.Runs u ∧ u.now ≤ deadline ∧ u.session.waitOf t = none) ∧
    c.session.givesUpAt wait ≤ c.now + wait.ticks := by
  obtain ⟨hsc, -⟩ := hnew.sound.run hc
  obtain ⟨hsv, -⟩ := hsc.step hs
  obtain ⟨hsw, hvw⟩ := hsv.run hw
  refine ⟨fun hj ha => ?_, fun hj => ⟨?_, hsc.isSilent_iff_of_stop hs⟩, ?_, fun ha => ?_,
    fun t deadline ht => ⟨hsw.inTime t deadline ht, hsw.exists_returned ht⟩, ?_⟩
  · exact hsw.isSilent (.inl (hsc.isOver_of_answered hs hw hj ha))
  · obtain ⟨call, hcall, hturn⟩ := hsc.call_of_stop hs .refl
    rw [if_pos hj] at hturn
    cases hturn
    exact answered?_eq_some_iff.2 hcall
  · cases hs
    exact hvw.begun_le rfl
  · have hwaits := hsc.waits_of_unanswered hs hw ha
    obtain ⟨u, hu, hle, hnone⟩ := hsw.exists_returned hwaits
    refine ⟨hsw.inTime _ _ hwaits, answered?_pollStop (waitOf_stop_iff.1 hwaits), u, hu, hle, ?_⟩
    obtain ⟨call, hcall, -⟩ := hsc.call_of_stop hs (hw.trans hu)
    exact (isSome_answered?_iff hcall).2 hnone
  · unfold givesUpAt
    split
    · exact Nat.le_add_right _ _
    · exact Nat.le_refl _

/-- A call comes while a write is in flight, and returns when the write is over. -/
theorem answer_of_stop_after_write : ∃ start c v w : Halting Scripted, start.IsNew ∧
    start.Runs c ∧ c.step (.stop (.ofMillis 100)) = some v ∧ v.Runs w ∧
    c.session.joined = false ∧ ¬c.session.HasLanded ∧
    w.session.answered? c.session.stops.length = some true ∧ w.IsSilent := by
  let start : Halting Scripted :=
    { scene := { session := beatOnly { link := { delay := 30 } } (.ofMillis 10) false } }
  let before : List (Act Scripted) :=
    [.deed (.poll .beat), .deed (.tick 10), .deed (.poll .beat), .deed (.tick 20)]
  let after : List (Act Scripted) :=
    [.deed (.poll (.stop 0)), .deed (.tick 40), .deed (.poll .beat), .deed (.poll (.stop 0))]
  have hnew : start.IsNew :=
    isNew_closingOnly _ (.ofMillis 10) (Settings.ioTimeoutFor (.ofMillis 10)) false .absent nofun
  have hrun : ((before.foldlM Halting.step start).bind fun c =>
      (c.step (.stop (.ofMillis 100))).bind fun v => (after.foldlM Halting.step v).map fun w =>
        (c.session.joined, c.session.stops.length, c.session.link.flights.map Flight.call,
          w.session.answered? 0)) = some (false, 0, [.write beatChunk], some true) := by
    decide +kernel
  obtain ⟨c, hc, hrun⟩ := Option.bind_eq_some_iff.1 hrun
  obtain ⟨v, hv, hrun⟩ := Option.bind_eq_some_iff.1 hrun
  obtain ⟨w, hw, hfacts⟩ := Option.map_eq_some_iff.1 hrun
  obtain ⟨hjoined, hfacts⟩ := Prod.mk.inj hfacts
  obtain ⟨hnumber, hfacts⟩ := Prod.mk.inj hfacts
  obtain ⟨hflights, hanswer⟩ := Prod.mk.inj hfacts
  rw [← hnumber] at hanswer
  have hflying : ¬c.session.HasLanded := by
    intro hlanded
    have hmem : Call.write beatChunk ∈ c.session.link.flights.map Flight.call := by
      rw [hflights]
      exact List.mem_singleton_self _
    obtain ⟨f, hf, hcall⟩ := List.mem_map.1 hmem
    exact hlanded f hf hcall
  exact ⟨start, c, v, w, hnew, .steps before hc, hv, .steps after hw, hjoined, hflying, hanswer,
    (answer_of_stop hnew (.steps before hc) hv (.steps after hw)).1 hjoined hanswer⟩

/-- **A true answer beside a write.**  A call gives up after a tenth of a second because a write takes
so long.  The next one returns at once that the beat was over in time, while the write is in flight. -/
theorem true_answer_beside_write : ∃ start c v : Halting Scripted, start.IsNew ∧ start.Runs c ∧
    c.session.answered? 0 = some false ∧ c.step (.stop (.ofMillis 0)) = some v ∧
    v.session.answered? 1 = some true ∧
    ∃ f ∈ v.session.link.unsettled v.now, f.call = .write beatChunk := by
  let start : Halting Scripted :=
    { scene := { session := beatOnly { link := { delay := 60000 } } (.ofMillis 10) false } }
  let before : List (Act Scripted) :=
    [.deed (.poll .beat), .deed (.tick 10), .deed (.poll .beat), .deed (.tick 20),
      .stop (.ofMillis 100), .deed (.tick 120), .deed (.poll (.stop 0))]
  have hnew : start.IsNew :=
    isNew_closingOnly _ (.ofMillis 10) (Settings.ioTimeoutFor (.ofMillis 10)) false .absent nofun
  have hrun : ((before.foldlM Halting.step start).bind fun c =>
      (c.step (.stop (.ofMillis 0))).map fun v =>
        (c.session.answered? 0, v.session.answered? 1,
          (v.session.link.unsettled v.now).map Flight.call)) =
      some (some false, some true, [.write beatChunk]) := by
    decide +kernel
  obtain ⟨c, hc, hrun⟩ := Option.bind_eq_some_iff.1 hrun
  obtain ⟨v, hv, hfacts⟩ := Option.map_eq_some_iff.1 hrun
  obtain ⟨hgave, hfacts⟩ := Prod.mk.inj hfacts
  obtain ⟨hanswer, hflights⟩ := Prod.mk.inj hfacts
  have hmem : Call.write beatChunk ∈ (v.session.link.unsettled v.now).map Flight.call := by
    rw [hflights]
    exact List.mem_singleton_self _
  obtain ⟨f, hf, hcall⟩ := List.mem_map.1 hmem
  exact ⟨start, c, v, hnew, .steps before hc, hgave, hv, hanswer, f, hf, hcall⟩

end Halting

end HeldReply
