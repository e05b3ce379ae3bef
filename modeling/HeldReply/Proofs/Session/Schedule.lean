import HeldReply.Proofs.Session.OnTime

/-!
# The schedule of the beat

With the times that the writes take it is settled when each of them begins and ends, until somebody
cancels the beat or a write fails.

* `Beating.exists_quiet`, `Beating.exists_later` — the tasks come to rest, and **the clock comes to
  every time**;
* `Beating.beats_on_schedule` — **when the writes begin and end**, which of them there are, and when
  the beat disposes of the scope;
* `Beating.beat_begun_early` — nobody rests for more than thirty years.
-/

namespace HeldReply.Beating

open Session

variable {c v first : Beating} {plan : Plan} {gap : Nat} {interval : Span} {disposed : Bool}

/-! ### The tasks come to rest -/

/-- A beat that has just begun to rest has to wait. -/
theorem beatRunnable_rest {s : Session Planned} (hrests : ∀ t, s.interval.restUntil t = t + gap)
    (hgap : 0 < gap) : s.rest.beatRunnable = false := by
  by_cases hc : s.isCancelled = true
  · have hbeat : s.rest.beat = .ended := if_pos hc
    rw [beatRunnable, hbeat]
  · have hbeat : s.rest.beat = .resting (s.now + gap) := by
      rw [← hrests]
      exact if_neg hc
    rw [beatRunnable, hbeat]
    show (s.isCancelled || decide (s.now + gap ≤ s.now)) = false
    rw [Bool.not_eq_true] at hc
    rw [hc, Bool.false_or, decide_eq_false_iff_not]
    omega

/-- A beat whose write has just ended has to wait, or is over. -/
theorem beatRunnable_afterBeat {s : Session Planned}
    (hrests : ∀ t, s.interval.restUntil t = t + gap) (hgap : 0 < gap) (r : Reply) :
    (s.afterBeat r).beatRunnable = false := by
  cases r with
  | done => exact beatRunnable_rest (s := { s with beats := s.beats + 1 }) hrests hgap
  | refused | crashed => rfl

/-- **A beat that went on has to wait**, or is over. -/
theorem OnTime.beatRunnable_stepBeat (h : OnTime gap c) (hgap : 0 < gap)
    (hr : c.session.beatRunnable = true) : c.session.stepBeat.beatRunnable = false := by
  obtain ⟨-, hs⟩ | ⟨wakeAt, -, -, hs⟩ | ⟨wakeAt, hb, hc, hw, ⟨-, hs⟩ | ⟨htakes, hs⟩⟩ | ⟨k, -, -, hs⟩ :=
    h.stepBeat_cases hr
  · rw [hs]
    exact beatRunnable_rest h.rests hgap
  · rw [hs]
    rfl
  · rw [hs]
    exact beatRunnable_afterBeat
      (s := c.session.withLink ((c.link.begin c.now).land c.now)) h.rests hgap _
  · -- The write that has just begun ends at some later time.
    obtain ⟨hlen, hbegun⟩ := h.begin hb hc hw
    obtain ⟨hwake, -, hnow, -⟩ := h.inPhase hb
    have hend : ¬ c.link.plan.endsAt gap c.link.begun.length ≤ c.now := by
      rw [Plan.endsAt, hlen, ← hwake]
      rw [hlen] at htakes
      omega
    have hdue := hbegun.due rfl
    rw [hs]
    show ((c.link.begin c.now).due? c.link.begun.length).any (· ≤ c.now) = false
    have hdue' : (c.link.begin c.now).due? c.link.begun.length =
      some (c.link.plan.endsAt gap c.link.begun.length) := hdue
    rw [hdue']
    exact decide_eq_false hend
  · rw [hs]
    exact beatRunnable_afterBeat (s := c.session.withLink (c.link.land c.now)) h.rests hgap _

/-- In its turn **the beat goes on once** if it can. -/
theorem OnTime.pollBeat_eq (h : OnTime gap c) (hgap : 0 < gap) : c.session.pollBeat =
    if c.session.beatRunnable then c.session.stepBeat else c.session := by
  have hstill : ∀ (s : Session Planned) n, s.beatRunnable = false → s.stepBeatFor n = s := by
    intro s n hs
    cases n with
    | zero => rfl
    | succ n => rw [Session.stepBeatFor, if_neg (Bool.eq_false_iff.1 hs)]
  by_cases hr : c.session.beatRunnable = true
  · have hnext := hstill _ (Beat.stint - 1) (h.beatRunnable_stepBeat hgap hr)
    rw [if_pos hr]
    cases hb : c.session.beat with
    | fresh =>
      have hrest : c.session.stepBeat = c.session.rest := by rw [Session.stepBeat, hb]
      rw [Session.pollBeat, hb]
      show c.session.rest.stepBeatFor Beat.stint = _
      rw [← hrest]
      exact hstill _ _ (h.beatRunnable_stepBeat hgap hr)
    | resting | writing | ended | crashed =>
      rw [Session.pollBeat, hb]
      show c.session.stepBeatFor (Beat.stint - 1 + 1) = _
      rw [Session.stepBeatFor, if_pos hr, hnext]
  · rw [if_neg hr]
    rw [Bool.not_eq_true] at hr
    cases hb : c.session.beat with
    | fresh =>
      rw [beatRunnable, hb] at hr
      cases hr
    | resting | writing | ended | crashed =>
      rw [Session.pollBeat, hb]
      exact hstill _ _ hr

/-- After its turn the beat has to wait, or is over. -/
theorem OnTime.beatRunnable_pollBeat (h : OnTime gap c) (hgap : 0 < gap) :
    c.session.pollBeat.beatRunnable = false := by
  rw [h.pollBeat_eq hgap]
  by_cases hr : c.session.beatRunnable = true
  · rw [if_pos hr]
    exact h.beatRunnable_stepBeat hgap hr
  · rw [if_neg hr]
    exact Bool.eq_false_iff.2 hr

/-- A call from outside that had its turn **has returned, or has to wait**, and the others are as they
were. -/
theorem stopRunnable_pollStop (s : Session Planned) (i : Nat) :
    (s.pollStop i).stopRunnable i = false ∧
      ∀ j, j ≠ i → (s.pollStop i).stopRunnable j = s.stopRunnable j := by
  cases hi : s.stops[i]? with
  | none =>
    have hsame : s.pollStop i = s := by rw [pollStop, hi]
    rw [hsame]
    refine ⟨?_, fun j _ => rfl⟩
    rw [stopRunnable, hi]
  | some call =>
    cases call with
    | answered inTime =>
      have hsame : s.pollStop i = s := by rw [pollStop, hi]
      rw [hsame]
      refine ⟨?_, fun j _ => rfl⟩
      rw [stopRunnable, hi]
    | waiting deadline =>
      cases ha : s.stopAnswer? deadline with
      | none =>
        have hsame : s.pollStop i = s := by simp only [pollStop, hi, ha]
        rw [hsame]
        refine ⟨?_, fun j _ => rfl⟩
        simp only [stopRunnable, hi, ha, Option.isSome_none]
      | some inTime =>
        have hpoll : s.pollStop i = { s with stops := s.stops.set i (.answered inTime) } := by
          simp only [pollStop, hi, ha]
        have hlt : i < s.stops.length := (List.getElem?_eq_some_iff.1 hi).1
        rw [hpoll]
        constructor
        · simp only [stopRunnable, List.getElem?_set_self hlt]
        · intro j hj
          simp only [stopRunnable, List.getElem?_set_ne (Ne.symm hj)]
          rfl

/-- The calls from outside have their turns, and **those that can return** do. -/
theorem exists_answered (h : Reachable first c) (n : Nat) :
    ∃ stops, stops.length = c.session.stops.length ∧
      Reachable first { c with session.stops := stops } ∧
      ∀ i < n, ({ c.session with stops } : Session Planned).stopRunnable i = false := by
  induction n with
  | zero => exact ⟨c.session.stops, rfl, h, fun i hi => absurd hi (Nat.not_lt_zero i)⟩
  | succ n ih =>
    obtain ⟨stops, hlen, hreach, hdone⟩ := ih
    obtain ⟨hself, hother⟩ := stopRunnable_pollStop { c.session with stops } n
    obtain ⟨stops', hlen', hpoll⟩ := exists_pollStop { c.session with stops } n
    have hstep : Beating.step { c with session.stops := stops } (.poll (.stop n)) =
        some { c with session.stops := stops' } := by
      show some _ = _
      rw [show ({ c.session with stops } : Session Planned).poll (.stop n) = _ from hpoll]
    rw [hpoll] at hself hother
    refine ⟨stops', hlen'.trans hlen, hreach.step _ hstep, ?_⟩
    intro i hi
    obtain hi | rfl := Nat.lt_succ_iff_lt_or_eq.1 hi
    · exact (hother i (Nat.ne_of_lt hi)).trans (hdone i hi)
    · exact hself

/-- When neither the beat nor a call from outside can go on, **all is quiet**. -/
theorem OnTime.isQuiet (h : OnTime gap c) (hbeat : c.session.beatRunnable = false)
    (hstops : ∀ i < c.session.stops.length, c.session.stopRunnable i = false) :
    c.session.isQuiet = true := by
  refine List.all_eq_true.2 fun t ht => ?_
  cases t with
  | beat => simp only [isRunnable, hbeat, Bool.not_false]
  | watcher => simp only [isRunnable, watcherRunnable, h.alone.2, Bool.not_false]
  | closing => simp only [isRunnable, closingRunnable, h.alone.1, Bool.not_false]
  | stop i =>
    have hi : i < c.session.stops.length := by
      unfold tasks at ht
      obtain ht | ht := List.mem_append.1 ht
      · obtain ⟨j, hj, he⟩ := List.mem_map.1 ht
        cases he
        exact List.mem_range.1 hj
      · split at ht <;> simp at ht
    simp only [isRunnable, hstops i hi, Bool.not_false]

/-- **The tasks come to rest** in no time, whatever others did. -/
theorem exists_quiet (hrests : ∀ t, interval.restUntil t = t + gap) (hgap : 0 < gap)
    (h : Reachable (launch plan interval disposed) c) :
    ∃ v, Reachable (launch plan interval disposed) v ∧ v.session.isQuiet = true ∧
      v.now = c.now ∧ v.cutAt = c.cutAt ∧ v.ousted = c.ousted := by
  have hbeat := (h.onTime hrests).beatRunnable_pollBeat hgap
  have hpolled : Reachable (launch plan interval disposed)
      { c with session := c.session.poll .beat } := h.step (.poll .beat) rfl
  obtain ⟨stops, hlen, hreach, hdone⟩ :=
    exists_answered hpolled (c.session.poll .beat).stops.length
  obtain ⟨ks, hl⟩ := leads_poll c.session .beat
  refine ⟨_, hreach, (hreach.onTime hrests).isQuiet hbeat ?_, hl.now, rfl, rfl⟩
  intro i hi
  exact hdone i (hlen ▸ hi)

/-- When all is quiet, the clock **may move** to some time up to the goal. -/
theorem exists_mayTick {goal : Nat} (hq : c.session.isQuiet = true) (hlt : c.now < goal) :
    ∃ t, c.now < t ∧ t ≤ goal ∧ c.mayTick t = true := by
  cases hnext : c.session.nextDue c.now with
  | none =>
    refine ⟨goal, hlt, Nat.le_refl _, ?_⟩
    rw [mayTick, hq, hnext, decide_eq_true (Nat.le_of_lt hlt)]
    rfl
  | some due =>
    have hdue : c.now < due := by
      have hmem := List.min?_mem hnext
      exact of_decide_eq_true (List.mem_filter.1 hmem).2
    refine ⟨min due goal, by omega, Nat.min_le_right _ _, ?_⟩
    rw [mayTick, hq, hnext, decide_eq_true (show c.now ≤ min due goal by omega)]
    exact decide_eq_true (Nat.min_le_left _ _)

/-- **The clock comes to every time**, and all is quiet then, if others do nothing. -/
theorem exists_later (hrests : ∀ t, interval.restUntil t = t + gap) (hgap : 0 < gap) {goal : Nat}
    (h : Reachable (launch plan interval disposed) c) (hle : c.now ≤ goal) :
    ∃ v, Reachable (launch plan interval disposed) v ∧ v.session.isQuiet = true ∧
      v.now = goal ∧ v.cutAt = c.cutAt ∧ v.ousted = c.ousted := by
  -- The way to go grows shorter with every move of the clock.
  induction hn : goal - c.now using Nat.strongRecOn generalizing c with
  | ind n ih =>
    subst hn
    obtain ⟨u, hu, hq, hnow, hcut, housted⟩ := exists_quiet hrests hgap h
    obtain hlt | heq := Nat.lt_or_eq_of_le hle
    · obtain ⟨t, hbefore, hgoal, hm⟩ := exists_mayTick hq (hnow ▸ hlt)
      have htick : Reachable (launch plan interval disposed)
          { u with session := u.session.atTime t } := hu.step (.tick t) (if_pos hm)
      obtain ⟨v, hv, hvq, hvnow, hvcut, hvousted⟩ := ih (goal - t) (by omega) htick hgoal rfl
      exact ⟨v, hv, hvq, hvnow, hvcut.trans hcut, hvousted.trans housted⟩
    · exact ⟨u, hu, hq, hnow.trans heq, hcut, housted⟩

/-! ### The schedule -/

/-- What stands in a list whose entries are settled by their places. -/
theorem getElem?_of_eq_map {l : List Nat} {f : Nat → Nat} (h : l = (List.range l.length).map f)
    (k t : Nat) : l[k]? = some t ↔ k < l.length ∧ t = f k := by
  by_cases hk : k < l.length
  · have hget : l[k]? = some (f k) := by
      rw [h, List.getElem?_map, List.getElem?_range hk]
      rfl
    rw [hget, Option.some.injEq, and_iff_right hk, eq_comm]
  · rw [List.getElem?_eq_none (Nat.le_of_not_lt hk)]
    simp [hk]

/-- **The writes that have begun** when all is quiet: those that are due, before the beat was
cancelled and after writes that went well. -/
theorem OnTime.lt_begun_iff (h : OnTime gap c) (hq : c.session.isQuiet = true)
    (hapart : ∀ k, c.cutAt ≠ some (c.link.plan.beginsAt gap k)) (k : Nat) :
    k < c.link.begun.length ↔ c.link.plan.beginsAt gap k ≤ c.now ∧
      (∀ t, c.cutAt = some t → c.link.plan.beginsAt gap k < t) ∧
      ∀ j < k, c.link.plan.succeeds j = true := by
  constructor
  · intro hk
    obtain ⟨hle, hcut, hwell⟩ := h.begun k hk
    refine ⟨hle, ?_, hwell⟩
    intro t ht
    obtain hlt | rfl := Nat.lt_or_eq_of_le (hcut t ht)
    · exact hlt
    · exact absurd ht (hapart k)
  · intro ⟨hle, hcut, hwell⟩
    refine Nat.lt_of_not_le fun hlast => ?_
    have hmono := c.link.plan.beginsAt_mono gap hlast
    cases hb : c.session.beat with
    | fresh =>
      have hr : c.session.beatRunnable = false := not_runnable_of_isQuiet hq (.inr (.inl rfl))
      rw [beatRunnable, hb] at hr
      cases hr
    | resting wakeAt =>
      -- The next write is still to come.
      have hdue : c.session.dueAt .beat = some wakeAt := by simp only [dueAt, hb]
      have hlater := lt_dueAt hq hdue
      obtain ⟨hwake, hlen, -, -⟩ := h.inPhase hb
      rw [hlen, ← hwake] at hmono
      omega
    | writing ticket =>
      -- The write before is still in flight.
      have hlater := lt_dueAt hq (h.dueAt_beat hb)
      obtain ⟨rfl, hlen, -, -⟩ := h.inPhase hb
      rw [hlen, Plan.beginsAt_succ] at hmono
      omega
    | ended =>
      obtain ⟨hlen, ⟨j, hj, hfails⟩ | ⟨t, ht, hbefore⟩⟩ := h.inPhase hb
      · rw [hwell j (by omega)] at hfails
        cases hfails
      · have hlt := hcut t ht
        rw [hlen] at hmono
        omega
    | crashed =>
      exact h.inPhase hb

/-- **The writes that have ended** when all is quiet: those that have begun, and whose time is over. -/
theorem OnTime.lt_ended_iff (h : OnTime gap c) (hq : c.session.isQuiet = true) (k : Nat) :
    k < c.link.ended.length ↔ k < c.link.begun.length ∧ c.link.plan.endsAt gap k ≤ c.now := by
  cases hb : c.session.beat with
  | fresh =>
    obtain ⟨hbegun, hended, -⟩ := h.inPhase hb
    rw [hbegun, hended]
    simp
  | resting wakeAt =>
    rw [(h.inPhase hb).2.1]
    exact ⟨fun hk => ⟨hk, h.ended k hk⟩, And.left⟩
  | writing ticket =>
    have hlater := lt_dueAt hq (h.dueAt_beat hb)
    obtain ⟨rfl, hlen, -, -⟩ := h.inPhase hb
    rw [hlen]
    constructor
    · exact fun hk => ⟨Nat.lt_succ_of_lt hk, h.ended k hk⟩
    · intro ⟨hk, hle⟩
      obtain hk | rfl := Nat.lt_succ_iff_lt_or_eq.1 hk
      · exact hk
      · omega
  | ended =>
    rw [(h.inPhase hb).1]
    exact ⟨fun hk => ⟨hk, h.ended k hk⟩, And.left⟩
  | crashed =>
    exact (h.inPhase hb).elim

/-- Counting those of a beginning of the numbers. -/
theorem countP_range_of_lt_iff {p q : Nat → Bool} {m n : Nat}
    (h : ∀ k, k < m ↔ k < n ∧ q k = true) :
    (List.range m).countP p = (List.range n).countP fun k => p k && q k := by
  have hle : m ≤ n := by
    refine Nat.le_of_not_lt fun hlt => ?_
    have hn := ((h n).1 hlt).1
    omega
  obtain ⟨d, rfl⟩ := Nat.exists_eq_add_of_le hle
  have hlate : ((List.range d).map (m + ·)).countP (fun k => p k && q k) = 0 := by
    refine List.countP_eq_zero.2 fun k hk => ?_
    obtain ⟨j, hj, rfl⟩ := List.mem_map.1 hk
    have hnot := mt (h (m + j)).2 (by omega)
    have hj := List.mem_range.1 hj
    have hq : ¬ q (m + j) = true := fun hq => hnot ⟨by omega, hq⟩
    rw [Bool.and_eq_true]
    exact fun hpq => hq hpq.2
  rw [List.range_add, List.countP_append, hlate, Nat.add_zero]
  refine List.countP_congr fun k hk => ?_
  rw [((h k).1 (List.mem_range.1 hk)).2, Bool.and_true]

/-- The link goes on following its plan. -/
theorem plan_of_leads {s t : Session Planned} {ds : List (Desk (Line Planned))} (h : s.Leads ds t) :
    t.link.plan = s.link.plan := by
  induction h with
  | refl => rfl
  | @start v _ _ call ih =>
    refine Eq.trans ?_ ih
    cases call with
    | write chunk =>
      show (v.link.startWrite v.now).1.plan = v.link.plan
      unfold Planned.startWrite
      dsimp only
      split <;> rfl
    | finish => rfl
  | @ask v _ _ ticket ih =>
    refine Eq.trans ?_ ih
    show (v.link.poll v.now ticket).1.plan = v.link.plan
    unfold Planned.poll
    split <;> rfl
  | @dispose v _ _ ih =>
    exact (congrArg Planned.plan (dispose_around v).1).trans ih
  | closeLink | cancel | hear | turn => assumption

theorem Reachable.plan_eq (h : Reachable (launch plan interval disposed) c) :
    c.link.plan = plan := by
  induction h with
  | start => cases disposed <;> rfl
  | @step c v _ a hs ih =>
    cases a with
    | poll t =>
      cases hs
      obtain ⟨ks, hl⟩ := leads_poll c.session t
      exact (plan_of_leads hl).trans ih
    | tick now =>
      rw [Beating.step] at hs
      split at hs <;> cases hs
      exact ih
    | stop wait =>
      cases hs
      exact ih
    | other m =>
      obtain ⟨⟨desk, outside⟩, hm, rfl⟩ := Option.map_eq_some_iff.1 hs
      exact Desk.around_move (P := fun a => a.link.plan = plan) (fun _ => id) (fun _ => id) hm ih

/-- **The beat keeps to its schedule.**  Between the writes there is a rest of the interval, or of
thirty years if that is shorter, and so it is settled when each write begins and ends.  Whatever
others do, the clock comes to every time.  When all is quiet, the writes that have begun are exactly
those that are due, before others cancelled the beat and after writes that went well; each of them
began as scheduled, and is over as scheduled, also if the beat was cancelled in the meantime; the beats
counted are those among them that went well.  If nobody else disposed of the scope, it is disposed of
exactly if a write failed; and the beat is cancelled then. -/
theorem beats_on_schedule (plan : Plan) (i : Nat) (hi : 0 < i) (disposed : Bool) (c : Beating)
    (h : Reachable (launch plan (.ofMillis i) disposed) c) :
    (∀ goal, c.now ≤ goal → ∃ v, Reachable (launch plan (.ofMillis i) disposed) v ∧
      v.session.isQuiet = true ∧ v.now = goal ∧ v.cutAt = c.cutAt ∧ v.ousted = c.ousted) ∧
    (c.session.isQuiet = true →
      (∀ k, c.cutAt ≠ some (plan.beginsAt (min i Span.thirtyYears) k)) →
      (∀ k t, c.link.begun[k]? = some t ↔ t = plan.beginsAt (min i Span.thirtyYears) k ∧
        t ≤ c.now ∧ (∀ cut, c.cutAt = some cut → t < cut) ∧
        ∀ j < k, plan.succeeds j = true) ∧
      (∀ k t, c.link.ended[k]? = some t ↔ k < c.link.begun.length ∧
        t = plan.endsAt (min i Span.thirtyYears) k ∧ t ≤ c.now) ∧
      c.session.beats = (List.range c.link.begun.length).countP (fun k =>
        plan.succeeds k && decide (plan.endsAt (min i Span.thirtyYears) k ≤ c.now)) ∧
      (c.ousted = false → (c.session.isDisposed = true ↔ ∃ k < c.link.begun.length,
        plan.succeeds k = false ∧ plan.endsAt (min i Span.thirtyYears) k ≤ c.now)) ∧
      (c.session.isDisposed = true → c.ousted = false ∨ c.outside = .none →
        c.session.isCancelled = true)) := by
  have hrests := Span.restUntil_ofMillis i
  have hgap : 0 < min i Span.thirtyYears := by
    have hyears : 0 < Span.thirtyYears := by decide
    omega
  refine ⟨fun goal hle => exists_later hrests hgap h hle, ?_⟩
  have hplan := h.plan_eq
  subst hplan
  have honTime := h.onTime hrests
  intro hq hapart
  have hbegun := honTime.lt_begun_iff hq hapart
  have hended := honTime.lt_ended_iff hq
  refine ⟨?_, ?_, ?_, ?_, ?_⟩
  · intro k t
    rw [getElem?_of_eq_map honTime.begun_eq, hbegun k]
    constructor
    · rintro ⟨hdue, rfl⟩
      exact ⟨rfl, hdue⟩
    · rintro ⟨rfl, hdue⟩
      exact ⟨hdue, rfl⟩
  · intro k t
    rw [getElem?_of_eq_map honTime.ended_eq, hended k]
    constructor
    · rintro ⟨⟨hk, hle⟩, rfl⟩
      exact ⟨hk, rfl, hle⟩
    · rintro ⟨hk, rfl, hle⟩
      exact ⟨⟨hk, hle⟩, rfl⟩
  · rw [honTime.beats_eq]
    refine countP_range_of_lt_iff fun k => ?_
    rw [hended k, decide_eq_true_iff]
  · intro housted
    rw [honTime.disposed_iff, housted, HasFailed]
    constructor
    · rintro (hfalse | ⟨k, hk, hfails⟩)
      · cases hfalse
      · obtain ⟨hk, hle⟩ := (hended k).1 hk
        exact ⟨k, hk, hfails, hle⟩
    · rintro ⟨k, hk, hfails, hle⟩
      exact .inr ⟨k, (hended k).2 ⟨hk, hle⟩, hfails⟩
  · intro hd hidle
    have hguarded := h.guarded
    have hnone : c.outside = .none := hidle.elim hguarded.idle id
    obtain hc | hlater := hguarded.cancels.cancels hd
    · exact hc
    · rw [hnone] at hlater
      exact hlater.elim

/-- Somebody cancels the beat in the middle of its second write, which is then its last one. -/
theorem beats_on_schedule_of_cut_write :
    ∃ c, Reachable (launch (.steady 30) (.ofMillis 100) false) c ∧ c.now = 500 ∧
      c.cutAt = some 240 ∧ c.link.begun[1]? = some 230 ∧ c.link.ended[1]? = some 260 ∧
      c.session.beats = 2 ∧ c.session.isDisposed = false := by
  have hrun : ∃ c, [Act.poll .beat, .tick 100, .poll .beat, .tick 130, .poll .beat, .tick 230,
      .poll .beat, .tick 240, .other .cancel, .tick 260, .poll .beat, .tick 500].foldlM
        Beating.step (launch (.steady 30) (.ofMillis 100) false) = some c ∧ c.now = 500 ∧
      c.cutAt = some 240 ∧ c.session.isQuiet = true ∧ c.ousted = false ∧
      c.link.begun.length = 2 := by
    refine ⟨_, rfl, ?_⟩
    exact ⟨rfl, rfl, rfl, rfl, rfl⟩
  obtain ⟨c, hrun, hnow, hcut, hq, housted, hlen⟩ := hrun
  have hreach : Reachable (launch (.steady 30) (.ofMillis 100) false) c := Reachable.start.steps _ hrun
  have hapart : ∀ k, c.cutAt ≠ some (Plan.beginsAt (.steady 30) (min 100 Span.thirtyYears) k) := by
    intro k hk
    rw [hcut, Option.some.injEq] at hk
    -- The first two writes begin at 100 and 230, and the third one would begin at 360.
    have hfirst : Plan.beginsAt (.steady 30) (min 100 Span.thirtyYears) 0 = 100 := by decide
    have hsecond : Plan.beginsAt (.steady 30) (min 100 Span.thirtyYears) 1 = 230 := by decide
    have hthird : Plan.beginsAt (.steady 30) (min 100 Span.thirtyYears) 2 = 360 := by decide
    by_cases hlate : 2 ≤ k
    · have hmono := Plan.beginsAt_mono (.steady 30) (min 100 Span.thirtyYears) hlate
      omega
    · obtain rfl | rfl : k = 0 ∨ k = 1 := by omega
      · omega
      · omega
  obtain ⟨-, hall⟩ := beats_on_schedule (.steady 30) 100 (by decide) false c hreach
  obtain ⟨hbegun, hended, hbeats, hdisposed, -⟩ := hall hq hapart
  refine ⟨c, hreach, hnow, hcut, ?_, ?_, ?_, ?_⟩
  · refine (hbegun 1 230).2 ⟨rfl, ?_, ?_, fun _ _ => rfl⟩
    · rw [hnow]
      decide
    · intro cut ht
      rw [hcut] at ht
      cases ht
      decide
  · refine (hended 1 260).2 ⟨?_, rfl, ?_⟩
    · rw [hlen]
      decide
    · rw [hnow]
      decide
  · rw [hbeats, hlen, hnow]
    rfl
  · refine Bool.eq_false_iff.2 fun hd => ?_
    obtain ⟨k, -, hfails, -⟩ := (hdisposed housted).1 hd
    cases hfails

/-- **Nobody rests for more than thirty years**: a beat that would rest for longer begins its first
write before its interval is over. -/
theorem beat_begun_early :
    ∃ c, Reachable (launch (.steady 0) (.ofMillis 946080000005) false) c ∧
      c.session.isQuiet = true ∧ c.cutAt = none ∧ c.link.begun[0]? = some 946080000000 ∧
      Plan.beginsAt (.steady 0) 946080000005 0 = 946080000005 := by
  have hrun : ∃ c, [Act.poll .beat, .tick 946080000000, .poll .beat].foldlM Beating.step
      (launch (.steady 0) (.ofMillis 946080000005) false) = some c ∧
      c.session.isQuiet = true ∧ c.cutAt = none ∧
      c.link.begun[0]? = some 946080000000 := by
    refine ⟨_, rfl, ?_⟩
    exact ⟨rfl, rfl, rfl⟩
  obtain ⟨c, hrun, hq, hcut, hbegun⟩ := hrun
  exact ⟨c, Reachable.start.steps _ hrun, hq, hcut, hbegun, rfl⟩

end HeldReply.Beating
