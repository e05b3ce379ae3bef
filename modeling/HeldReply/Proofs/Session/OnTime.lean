import HeldReply.Proofs.Session.Beating

/-!
# The beat is on time

After every rest there is a write, and after every write that went well a rest.  A rest is over when
its timer comes, and so is a write; and the clock never moves beyond a timer.  So each write begins
and ends as scheduled.

* `Beating.HasFailed`, `Beating.InPhase`, `Beating.OnRecord` — where the schedule has come to, and what
  is on record;
* `Beating.OnTime` — **the invariant**;
* `Beating.OnTime.stepBeat`, `touched`, `tick` there — what the beat does, what others do, and the
  clock keep it;
* `Beating.Reachable.onTime` — **in every run** the beat is on time.
-/

namespace HeldReply

theorem Span.restUntil_ofMillis (i now : Nat) :
    (Span.ofMillis i).restUntil now = now + min i thirtyYears := by
  rw [restUntil, ticks_ofMillis]

namespace Beating

open Session

variable {c v : Beating} {plan : Plan} {gap : Nat} {interval : Span} {disposed : Bool}

/-- Whether a write **has failed**. -/
def HasFailed (c : Beating) : Prop :=
  ∃ k < c.link.ended.length, c.link.plan.succeeds k = false

/-- Whether all writes that ended went well. -/
def IsWell (c : Beating) : Prop :=
  ∀ k < c.link.ended.length, c.link.plan.succeeds k = true

/-- **Where the schedule has come to**, by what the beat does. -/
def InPhase (gap : Nat) (c : Beating) : Beat → Prop
  | .fresh => c.link.begun = [] ∧ c.link.ended = [] ∧ c.now = 0
  | .resting wakeAt =>
    wakeAt = c.link.plan.beginsAt gap c.link.ended.length ∧
      c.link.begun.length = c.link.ended.length ∧ c.now ≤ wakeAt ∧ c.IsWell
  | .writing ticket =>
    ticket = c.link.ended.length ∧ c.link.begun.length = c.link.ended.length + 1 ∧
      c.now ≤ c.link.plan.endsAt gap c.link.ended.length ∧ c.IsWell
  | .ended =>
    c.link.begun.length = c.link.ended.length ∧
      (c.HasFailed ∨
        ∃ t, c.cutAt = some t ∧ t ≤ c.link.plan.beginsAt gap c.link.ended.length)
  | .crashed => False

/-- **What is on record**: the writes began and ended as scheduled, before the beat was cancelled and
after writes that went well. -/
structure OnRecord (gap : Nat) (c : Beating) : Prop where
  rests : ∀ t, c.session.interval.restUntil t = t + gap
  alone : c.session.closing = .absent ∧ c.session.watcher = .absent
  begun_eq : c.link.begun = (List.range c.link.begun.length).map (c.link.plan.beginsAt gap)
  ended_eq : c.link.ended = (List.range c.link.ended.length).map (c.link.plan.endsAt gap)
  begun : ∀ k < c.link.begun.length, c.link.plan.beginsAt gap k ≤ c.now ∧
    (∀ t, c.cutAt = some t → c.link.plan.beginsAt gap k ≤ t) ∧
    ∀ j < k, c.link.plan.succeeds j = true
  ended : ∀ k < c.link.ended.length, c.link.plan.endsAt gap k ≤ c.now
  beats_eq : c.session.beats = (List.range c.link.ended.length).countP c.link.plan.succeeds
  cut : ∀ t, c.cutAt = some t → t ≤ c.now
  uncut : c.session.isCancelled = false → c.cutAt = none
  cancelled : c.session.isCancelled = true → c.cutAt.isSome = true ∨ c.HasFailed
  disposed_iff : c.session.isDisposed = true ↔ c.ousted = true ∨ c.HasFailed

/-- **The beat is on time.** -/
structure OnTime (gap : Nat) (c : Beating) : Prop extends OnRecord gap c where
  phase : c.InPhase gap c.session.beat

theorem OnTime.inPhase {b : Beat} (h : OnTime gap c) (hb : c.session.beat = b) :
    c.InPhase gap b := by
  rw [← hb]
  exact h.phase

/-- The beat does something else, and nothing new is on record. -/
theorem OnRecord.of_beat (h : OnRecord gap c) (b : Beat) :
    OnRecord gap { c with session.beat := b } :=
  ⟨h.rests, h.alone, h.begun_eq, h.ended_eq, h.begun, h.ended, h.beats_eq, h.cut, h.uncut,
    h.cancelled, h.disposed_iff⟩

/-- Writes that went well are not writes of which one failed. -/
theorem IsWell.not_hasFailed (h : c.IsWell) : ¬ c.HasFailed := by
  intro ⟨k, hk, hfails⟩
  rw [h k hk] at hfails
  cases hfails

/-- **A rest begins**: it lasts until the next write is due. -/
theorem OnRecord.rest (h : OnRecord gap c) (hlen : c.link.begun.length = c.link.ended.length)
    (hwell : c.IsWell) (hnow : c.now + gap = c.link.plan.beginsAt gap c.link.ended.length) :
    OnTime gap { c with session := c.session.rest } := by
  refine ⟨h.of_beat _, ?_⟩
  by_cases hc : c.session.isCancelled = true
  · have hbeat : c.session.rest.beat = .ended := if_pos hc
    show InPhase gap _ c.session.rest.beat
    rw [hbeat]
    obtain hcut | hfailed := h.cancelled hc
    · obtain ⟨t, ht⟩ := Option.isSome_iff_exists.1 hcut
      have hle := h.cut t ht
      refine ⟨hlen, .inr ⟨t, ht, ?_⟩⟩
      show t ≤ c.link.plan.beginsAt gap c.link.ended.length
      omega
    · exact absurd hfailed hwell.not_hasFailed
  · have hbeat : c.session.rest.beat = .resting (c.session.interval.restUntil c.session.now) :=
      if_neg hc
    show InPhase gap _ c.session.rest.beat
    rw [hbeat, h.rests]
    exact ⟨hnow, hlen, Nat.le_add_right _ _, hwell⟩

/-! ### One step of the beat -/

/-- A disposal leaves the link and the clock as they are. -/
theorem dispose_around (s : Session Planned) :
    s.dispose.1.link = s.link ∧ s.dispose.1.now = s.now ∧
      (s.isCancelled = true → s.dispose.1.isCancelled = true) := by
  have hd : s.desk.Leads s.desk.dispose.1 := Desk.Leads.refl.dispose
  have haround := hd.around (P := fun a => a.link = s.link ∧ a.now = s.now)
    (fun a ha => ha) (fun a ha => ha) ⟨rfl, rfl⟩
  exact ⟨haround.1, haround.2, hd.cancelled⟩

/-- One write more **has ended**, as scheduled. -/
structure Lands (gap : Nat) (c v : Beating) : Prop where
  plan : v.link.plan = c.link.plan
  begun : v.link.begun = c.link.begun
  ended : v.link.ended = c.link.ended ++ [c.now]
  now : v.now = c.now
  due : c.link.plan.endsAt gap c.link.ended.length = c.now

theorem Lands.length (h : Lands gap c v) : v.link.ended.length = c.link.ended.length + 1 := by
  rw [h.ended, List.length_append]
  rfl

theorem Lands.hasFailed_iff (h : Lands gap c v) : v.HasFailed ↔
    c.HasFailed ∨ c.link.plan.succeeds c.link.ended.length = false := by
  unfold HasFailed
  rw [h.length, h.plan]
  constructor
  · intro ⟨k, hk, hfails⟩
    obtain hk | rfl := Nat.lt_succ_iff_lt_or_eq.1 hk
    · exact .inl ⟨k, hk, hfails⟩
    · exact .inr hfails
  · intro hfails
    obtain ⟨k, hk, hfails⟩ | hfails := hfails
    · exact ⟨k, Nat.lt_succ_of_lt hk, hfails⟩
    · exact ⟨_, Nat.lt_succ_self _, hfails⟩

/-- What is on record once a write has ended. -/
theorem OnRecord.land (h : OnRecord gap c) (hl : Lands gap c v)
    (hinterval : v.session.interval = c.session.interval)
    (halone : v.session.closing = .absent ∧ v.session.watcher = .absent)
    (hbeats : v.session.beats =
      c.session.beats + (c.link.plan.succeeds c.link.ended.length).toNat)
    (hcut : v.cutAt = c.cutAt)
    (huncut : v.session.isCancelled = false → c.session.isCancelled = false)
    (hcancelled : v.session.isCancelled = true → c.session.isCancelled = true ∨ v.HasFailed)
    (hdisposed : v.session.isDisposed = true ↔ v.ousted = true ∨ v.HasFailed) :
    OnRecord gap v := by
  have hlen := hl.length
  have hended_eq : v.link.ended = (List.range (c.link.ended.length + 1)).map
      (c.link.plan.endsAt gap) := by
    rw [hl.ended, List.range_succ, List.map_append, List.map_singleton, hl.due, ← h.ended_eq]
  constructor
  · rw [hinterval]
    exact h.rests
  · exact halone
  · rw [hl.begun, hl.plan]
    exact h.begun_eq
  · rw [hlen, hl.plan]
    exact hended_eq
  · rw [hl.begun, hl.plan, hl.now, hcut]
    exact h.begun
  · rw [hlen, hl.plan, hl.now]
    intro k hk
    obtain hk | rfl := Nat.lt_succ_iff_lt_or_eq.1 hk
    · exact h.ended k hk
    · exact Nat.le_of_eq hl.due
  · rw [hbeats, hlen, hl.plan, h.beats_eq, List.range_succ, List.countP_append,
      List.countP_singleton]
    cases c.link.plan.succeeds c.link.ended.length <;> rfl
  · rw [hcut, hl.now]
    exact h.cut
  · intro hc
    rw [hcut]
    exact h.uncut (huncut hc)
  · intro hc
    rw [hcut]
    obtain hc | hfailed := hcancelled hc
    · exact (h.cancelled hc).imp_right fun hfailed => hl.hasFailed_iff.2 (.inl hfailed)
    · exact .inr hfailed
  · exact hdisposed

/-- The write that is in flight **ends** in its time. -/
theorem OnTime.land {k : Nat} (h : OnTime gap c) (hb : c.session.beat = .writing k)
    (hd : c.link.plan.endsAt gap k ≤ c.now) :
    OnTime gap { c with
      session := (c.session.withLink (c.link.land c.now)).afterBeat (c.link.plan.reply k) } := by
  obtain ⟨rfl, hlen, hnow, hwell⟩ := h.inPhase hb
  have hdue : c.link.plan.endsAt gap c.link.ended.length = c.now := Nat.le_antisymm hd hnow
  cases hf : c.link.plan.failure? c.link.ended.length with
  | none =>
    have hsucceeds : c.link.plan.succeeds c.link.ended.length = true := by
      rw [Plan.succeeds, hf]
      rfl
    have hreply : c.link.plan.reply c.link.ended.length = .done := by
      rw [Plan.reply, hf]
    rw [hreply]
    let v : Beating := { c with session :=
      { c.session.withLink (c.link.land c.now) with beats := c.session.beats + 1 } }
    have hl : Lands gap c v := ⟨rfl, rfl, rfl, rfl, hdue⟩
    have hfailed : v.HasFailed ↔ c.HasFailed := by
      rw [hl.hasFailed_iff, hsucceeds]
      simp
    have hv : OnRecord gap v := by
      refine h.toOnRecord.land hl rfl h.alone ?_ rfl id .inl ?_
      · rw [hsucceeds]
        rfl
      · rw [hfailed]
        exact h.disposed_iff
    refine hv.rest ?_ ?_ ?_
    · rw [hl.begun, hl.length, hlen]
    · intro k hk
      rw [hl.length] at hk
      obtain hk | rfl := Nat.lt_succ_iff_lt_or_eq.1 hk
      · exact hwell k hk
      · exact hsucceeds
    · rw [hl.now, hl.length, hl.plan, Plan.beginsAt_succ, hdue]
  | some f =>
    have hfails : c.link.plan.succeeds c.link.ended.length = false := by
      rw [Plan.succeeds, hf]
      rfl
    have hreply : c.link.plan.reply c.link.ended.length = .refused f := by
      rw [Plan.reply, hf]
    rw [hreply]
    obtain ⟨hlink, hclock, hkept⟩ := dispose_around (c.session.withLink (c.link.land c.now))
    let v : Beating := { c with session :=
      { (c.session.withLink (c.link.land c.now)).dispose.1 with beat := .ended } }
    have hvlink : v.link = c.link.land c.now := hlink
    have hl : Lands gap c v := by
      constructor
      · rw [hvlink]
        rfl
      · rw [hvlink]
        rfl
      · rw [hvlink]
        rfl
      · exact hclock
      · exact hdue
    have hfailed : v.HasFailed := hl.hasFailed_iff.2 (.inr hfails)
    show OnTime gap v
    refine ⟨h.toOnRecord.land hl rfl h.alone ?_ rfl ?_ (fun _ => .inr hfailed) ?_, ?_, .inl hfailed⟩
    · rw [hfails]
      rfl
    · intro hc
      exact Bool.eq_false_iff.2 fun hcancelled => Bool.eq_false_iff.1 hc (hkept hcancelled)
    · exact iff_of_true (Desk.isDisposed_dispose _) (.inr hfailed)
    · show v.link.begun.length = v.link.ended.length
      rw [hl.begun, hl.length, hlen]

/-- Whatever the beat did before, it goes on in the same way after a write. -/
theorem afterBeat_beat (s : Session Planned) (b : Beat) (r : Reply) :
    ({ s with beat := b } : Session Planned).afterBeat r = s.afterBeat r := by
  cases r <;> rfl

/-- The next write **begins** when the rest is over, if the beat is not cancelled. -/
theorem OnTime.begin {wakeAt : Nat} (h : OnTime gap c) (hb : c.session.beat = .resting wakeAt)
    (hc : c.session.isCancelled = false) (hw : wakeAt ≤ c.now) :
    c.link.begun.length = c.link.ended.length ∧ OnTime gap { c with
      session := { c.session.withLink (c.link.begin c.now) with
        beat := .writing c.link.begun.length } } := by
  obtain ⟨rfl, hlen, hnow, hwell⟩ := h.inPhase hb
  have hdue : c.link.plan.beginsAt gap c.link.ended.length = c.now := Nat.le_antisymm hw hnow
  have huncut : c.cutAt = none := h.uncut hc
  refine ⟨hlen, ⟨h.rests, h.alone, ?_, h.ended_eq, ?_, h.ended, h.beats_eq, h.cut, h.uncut,
    h.cancelled, h.disposed_iff⟩, ?_⟩
  · show c.link.begun ++ [c.now] =
      (List.range (c.link.begun ++ [c.now]).length).map (c.link.plan.beginsAt gap)
    rw [List.length_append, List.length_singleton, List.range_succ, List.map_append,
      List.map_singleton, ← h.begun_eq, hlen, hdue]
  · show ∀ k < (c.link.begun ++ [c.now]).length, c.link.plan.beginsAt gap k ≤ c.now ∧
      (∀ t, c.cutAt = some t → c.link.plan.beginsAt gap k ≤ t) ∧
      ∀ j < k, c.link.plan.succeeds j = true
    intro k hk
    rw [List.length_append] at hk
    obtain hk | rfl := Nat.lt_succ_iff_lt_or_eq.1 hk
    · exact h.begun k hk
    · rw [hlen]
      refine ⟨hw, ?_, hwell⟩
      intro t ht
      rw [huncut] at ht
      cases ht
  · refine ⟨hlen, ?_, ?_, hwell⟩
    · show (c.link.begun ++ [c.now]).length = c.link.ended.length + 1
      rw [List.length_append, hlen]
      rfl
    · show c.now ≤ c.link.plan.endsAt gap c.link.ended.length
      have hle := c.link.plan.beginsAt_le_endsAt gap c.link.ended.length
      omega

/-- When the write in flight is over. -/
theorem OnTime.due {k : Nat} (h : OnTime gap c) (hb : c.session.beat = .writing k) :
    c.link.due? k = some (c.link.plan.endsAt gap k) := by
  obtain ⟨rfl, hlen, -, -⟩ := h.inPhase hb
  have hbegun : c.link.begun[c.link.ended.length]? =
      some (c.link.plan.beginsAt gap c.link.ended.length) := by
    rw [h.begun_eq, List.getElem?_map, List.getElem?_range (by omega)]
    rfl
  rw [Planned.due?, if_pos rfl, hbegun]
  rfl

/-- That is the timer of the beat. -/
theorem OnTime.dueAt_beat {k : Nat} (h : OnTime gap c) (hb : c.session.beat = .writing k) :
    c.session.dueAt .beat = some (c.link.plan.endsAt gap k) := by
  simp only [dueAt, hb]
  exact h.due hb

/-- **Everything that the beat can do** when it goes on. -/
theorem OnTime.stepBeat_cases (h : OnTime gap c) (hr : c.session.beatRunnable = true) :
    (c.session.beat = .fresh ∧ c.session.stepBeat = c.session.rest) ∨
    (∃ wakeAt, c.session.beat = .resting wakeAt ∧ c.session.isCancelled = true ∧
      c.session.stepBeat = { c.session with beat := .ended }) ∨
    (∃ wakeAt, c.session.beat = .resting wakeAt ∧ c.session.isCancelled = false ∧
      wakeAt ≤ c.now ∧ ((c.link.plan.takes c.link.begun.length = 0 ∧ c.session.stepBeat =
        (c.session.withLink ((c.link.begin c.now).land c.now)).afterBeat
          (c.link.plan.reply c.link.begun.length)) ∨
      (0 < c.link.plan.takes c.link.begun.length ∧ c.session.stepBeat =
        { c.session.withLink (c.link.begin c.now) with beat := .writing c.link.begun.length }))) ∨
    (∃ k, c.session.beat = .writing k ∧ c.link.plan.endsAt gap k ≤ c.now ∧ c.session.stepBeat =
      (c.session.withLink (c.link.land c.now)).afterBeat (c.link.plan.reply k)) := by
  cases hb : c.session.beat with
  | fresh =>
    refine .inl ⟨rfl, ?_⟩
    rw [Session.stepBeat, hb]
  | resting wakeAt =>
    by_cases hc : c.session.isCancelled = true
    · refine .inr (.inl ⟨wakeAt, rfl, hc, ?_⟩)
      rw [Session.stepBeat, hb]
      exact if_pos hc
    · rw [Bool.not_eq_true] at hc
      have hw : wakeAt ≤ c.now := by
        rw [beatRunnable, hb, hc] at hr
        exact of_decide_eq_true hr
      have hwrite : c.session.stepBeat = c.session.writeBeat := by
        rw [Session.stepBeat, hb]
        show (if c.session.isCancelled = true then _ else if wakeAt ≤ c.now then _ else _) = _
        rw [hc, if_neg Bool.false_ne_true, if_pos hw]
      have hstart : c.session.startCall (.write beatChunk) =
          (c.session.withLink (c.link.startWrite c.now).1, (c.link.startWrite c.now).2) := rfl
      refine .inr (.inr (.inl ⟨wakeAt, rfl, hc, hw, ?_⟩))
      rw [hwrite, writeBeat, hstart, Planned.startWrite]
      by_cases htakes : c.link.plan.takes c.link.begun.length = 0
      · rw [if_pos htakes]
        exact .inl ⟨htakes, rfl⟩
      · rw [if_neg htakes]
        exact .inr ⟨Nat.pos_of_ne_zero htakes, rfl⟩
  | writing k =>
    have hready : (c.link.due? k).any (· ≤ c.now) = true := by
      rw [beatRunnable, hb] at hr
      exact hr
    have hpoll : c.session.pollCall k =
        (c.session.withLink (c.link.land c.now), some (c.link.plan.reply k)) := by
      show (c.session.withLink (c.link.poll c.now k).1, (c.link.poll c.now k).2) = _
      rw [Planned.poll, if_pos hready]
    refine .inr (.inr (.inr ⟨k, rfl, ?_, ?_⟩))
    · rw [h.due hb] at hready
      exact of_decide_eq_true hready
    · simp only [Session.stepBeat, hb, hpoll]
  | ended | crashed =>
    rw [beatRunnable, hb] at hr
    cases hr

/-- A beat that is cancelled while it rests **is over**. -/
theorem OnTime.over {wakeAt : Nat} (h : OnTime gap c) (hb : c.session.beat = .resting wakeAt)
    (hc : c.session.isCancelled = true) :
    OnTime gap { c with session := { c.session with beat := .ended } } := by
  obtain ⟨rfl, hlen, hnow, -⟩ := h.inPhase hb
  refine ⟨h.of_beat _, hlen, ?_⟩
  obtain hcut | hfailed := h.cancelled hc
  · obtain ⟨t, ht⟩ := Option.isSome_iff_exists.1 hcut
    exact .inr ⟨t, ht, Nat.le_trans (h.cut t ht) hnow⟩
  · exact .inl hfailed

/-- **The beat goes on** when it can, as scheduled. -/
theorem OnTime.stepBeat (h : OnTime gap c) (hr : c.session.beatRunnable = true) :
    OnTime gap { c with session := c.session.stepBeat } := by
  obtain ⟨hb, hs⟩ | ⟨wakeAt, hb, hc, hs⟩ | ⟨wakeAt, hb, hc, hw, ⟨htakes, hs⟩ | ⟨-, hs⟩⟩ |
    ⟨k, hb, hd, hs⟩ := h.stepBeat_cases hr
  · obtain ⟨hbegun, hended, hnow⟩ := h.inPhase hb
    rw [hs]
    refine h.toOnRecord.rest ?_ ?_ ?_
    · rw [hbegun, hended]
    · intro k hk
      rw [hended] at hk
      cases hk
    · rw [hended, hnow]
      exact Nat.zero_add _
  · rw [hs]
    exact h.over hb hc
  · -- A write that takes no time begins and ends at once.
    obtain ⟨hlen, hbegun⟩ := h.begin hb hc hw
    have hend : c.link.plan.endsAt gap c.link.begun.length ≤ c.now := by
      have hphase := h.inPhase hb
      rw [Plan.endsAt, htakes, hlen, ← hphase.1]
      exact hw
    have hland := hbegun.land rfl hend
    have hsame := afterBeat_beat (c.session.withLink ((c.link.begin c.now).land c.now))
      (.writing c.link.begun.length) (c.link.plan.reply c.link.begun.length)
    rw [hs, ← hsame]
    exact hland
  · rw [hs]
    exact (h.begin hb hc hw).2
  · rw [hs]
    exact h.land hb hd

theorem OnTime.stepBeatFor (h : OnTime gap c) (n : Nat) :
    OnTime gap { c with session := c.session.stepBeatFor n } := by
  induction n generalizing c with
  | zero => exact h
  | succ n ih =>
    rw [Session.stepBeatFor]
    by_cases hr : c.session.beatRunnable = true
    · rw [if_pos hr]
      exact ih (h.stepBeat hr)
    · rw [if_neg hr]
      exact h

/-- **The beat runs**, as scheduled. -/
theorem OnTime.pollBeat (h : OnTime gap c) :
    OnTime gap { c with session := c.session.pollBeat } := by
  cases hb : c.session.beat with
  | fresh =>
    have hr : c.session.beatRunnable = true := by rw [beatRunnable, hb]
    have hrest : c.session.stepBeat = c.session.rest := by rw [Session.stepBeat, hb]
    have hpoll : c.session.pollBeat = c.session.rest.stepBeatFor Beat.stint := by
      rw [Session.pollBeat, hb]
    have hstep := h.stepBeat hr
    rw [hrest] at hstep
    rw [hpoll]
    exact hstep.stepBeatFor _
  | resting | writing | ended | crashed =>
    have hpoll : c.session.pollBeat = c.session.stepBeatFor Beat.stint := by
      rw [Session.pollBeat, hb]
    rw [hpoll]
    exact h.stepBeatFor _

/-! ### All who take part -/

/-- A turn of a call from outside changes nothing but the calls. -/
theorem exists_pollStop (s : Session Planned) (i : Nat) :
    ∃ stops, stops.length = s.stops.length ∧ s.pollStop i = { s with stops } := by
  unfold pollStop
  split
  · split
    · exact ⟨_, List.length_set, rfl⟩
    · exact ⟨_, rfl, rfl⟩
  · exact ⟨_, rfl, rfl⟩

/-- **Every task runs**, and the beat stays on time. -/
theorem OnTime.poll (h : OnTime gap c) (t : Task) :
    OnTime gap { c with session := c.session.poll t } := by
  cases t with
  | beat => exact h.pollBeat
  | watcher =>
    have hpoll : c.session.poll .watcher = c.session := by
      show c.session.pollWatcher = c.session
      rw [pollWatcher, h.alone.2]
    rw [hpoll]
    exact h
  | closing =>
    have hpoll : c.session.poll .closing = c.session := by
      show c.session.pollClosing = c.session
      rw [pollClosing, h.alone.1]
    rw [hpoll]
    exact h
  | stop i =>
    obtain ⟨stops, -, hpoll⟩ := exists_pollStop c.session i
    show OnTime gap { c with session := c.session.pollStop i }
    rw [hpoll]
    exact ⟨⟨h.rests, h.alone, h.begun_eq, h.ended_eq, h.begun, h.ended, h.beats_eq, h.cut,
      h.uncut, h.cancelled, h.disposed_iff⟩, h.phase⟩

/-- When others do something, the beat **was cancelled before**, or it is not cancelled, or it is now. -/
theorem touched_cases (c : Beating) {s : Session Planned} (outside : Outside)
    (hkept : c.session.isCancelled = true → s.isCancelled = true) :
    (s.isCancelled = c.session.isCancelled ∧ (c.touched s outside).cutAt = c.cutAt) ∨
    (c.session.isCancelled = false ∧ s.isCancelled = true ∧
      (c.touched s outside).cutAt = some s.now) := by
  cases hc : c.session.isCancelled with
  | true =>
    have hs := hkept hc
    refine .inl ⟨hs, ?_⟩
    rw [touched, hs, hc]
    rfl
  | false =>
    cases hs : s.isCancelled with
    | true =>
      refine .inr ⟨rfl, rfl, ?_⟩
      rw [touched, hs, hc]
      rfl
    | false =>
      refine .inl ⟨rfl, ?_⟩
      rw [touched, hs]
      rfl

/-- **Others do something**: they may cancel the beat and dispose of the scope. -/
theorem OnTime.touched (h : OnTime gap c) {s : Session Planned} (outside : Outside)
    (hlink : s.link = c.link) (hnow : s.now = c.now) (hinterval : s.interval = c.session.interval)
    (hbeat : s.beat = c.session.beat) (hbeats : s.beats = c.session.beats)
    (halone : s.closing = .absent ∧ s.watcher = .absent)
    (hcancelled : c.session.isCancelled = true → s.isCancelled = true)
    (hdisposed : c.session.isDisposed = true → s.isDisposed = true) :
    OnTime gap (c.touched s outside) := by
  have hvlink : (c.touched s outside).link = c.link := hlink
  have hvnow : (c.touched s outside).now = c.now := hnow
  have hfailed : (c.touched s outside).HasFailed ↔ c.HasFailed := by
    unfold HasFailed
    rw [hvlink]
  have hcases := touched_cases c outside hcancelled
  have hcut : ∀ t, (c.touched s outside).cutAt = some t → c.cutAt = some t ∨ t = c.now := by
    intro t ht
    obtain ⟨-, hsame⟩ | ⟨-, -, hnew⟩ := hcases
    · exact .inl (hsame.symm.trans ht)
    · rw [hnew, Option.some.injEq, hnow] at ht
      exact .inr ht.symm
  refine ⟨⟨?_, halone, ?_, ?_, ?_, ?_, ?_, ?_, ?_, ?_, ?_⟩, ?_⟩
  · show ∀ t, s.interval.restUntil t = t + gap
    rw [hinterval]
    exact h.rests
  · rw [hvlink]
    exact h.begun_eq
  · rw [hvlink]
    exact h.ended_eq
  · rw [hvlink, hvnow]
    intro k hk
    obtain ⟨hle, hbefore, hwell⟩ := h.begun k hk
    refine ⟨hle, ?_, hwell⟩
    intro t ht
    obtain ht | rfl := hcut t ht
    · exact hbefore t ht
    · exact hle
  · rw [hvlink, hvnow]
    exact h.ended
  · rw [hvlink]
    exact hbeats.trans h.beats_eq
  · rw [hvnow]
    intro t ht
    obtain ht | rfl := hcut t ht
    · exact h.cut t ht
    · exact Nat.le_refl _
  · intro hs
    obtain ⟨hsame, hcutAt⟩ | ⟨-, hs', -⟩ := hcases
    · rw [hcutAt]
      exact h.uncut (hsame.symm.trans hs)
    · cases hs'.symm.trans hs
  · intro hs
    rw [hfailed]
    obtain ⟨hsame, hcutAt⟩ | ⟨-, -, hcutAt⟩ := hcases
    · rw [hcutAt]
      exact h.cancelled (hsame.symm.trans hs)
    · rw [hcutAt]
      exact .inl rfl
  · rw [hfailed]
    show s.isDisposed = true ↔ (c.ousted || (s.isDisposed && !c.session.isDisposed)) = true ∨ _
    cases hd : c.session.isDisposed with
    | true =>
      have hbefore := h.disposed_iff.1 hd
      rw [hdisposed hd]
      simpa using hbefore
    | false =>
      have hnot := mt h.disposed_iff.2 (Bool.eq_false_iff.1 hd)
      rw [not_or, Bool.not_eq_true] at hnot
      rw [hnot.1]
      simp [hnot.2]
  · show InPhase gap _ s.beat
    rw [hbeat]
    cases hb : c.session.beat with
    | fresh | resting | writing | crashed =>
      have hphase := h.inPhase hb
      unfold InPhase IsWell at hphase ⊢
      rw [hvlink, hvnow]
      exact hphase
    | ended =>
      have hphase := h.inPhase hb
      unfold InPhase at hphase ⊢
      rw [hvlink, hfailed]
      refine ⟨hphase.1, hphase.2.imp_right ?_⟩
      intro ⟨t, ht, hle⟩
      refine ⟨t, ?_, hle⟩
      obtain ⟨-, hcutAt⟩ | ⟨hs, -, -⟩ := hcases
      · exact hcutAt.trans ht
      · rw [h.uncut hs] at ht
        cases ht

/-- When all is quiet, the timer of the beat is **still to come**. -/
theorem lt_dueAt {due : Nat} (hq : c.session.isQuiet = true)
    (hd : c.session.dueAt .beat = some due) : c.now < due := by
  have hr : c.session.beatRunnable = false := not_runnable_of_isQuiet hq (.inr (.inl rfl))
  cases hb : c.session.beat with
  | resting wakeAt =>
    simp only [dueAt, hb, Option.some.injEq] at hd
    simp only [beatRunnable, hb, Bool.or_eq_false_iff, decide_eq_false_iff_not] at hr
    rw [← hd]
    exact Nat.lt_of_not_le hr.2
  | writing k =>
    simp only [dueAt, hb] at hd
    simp only [beatRunnable, hb] at hr
    have hdue : c.link.due? k = some due := hd
    have hready : (c.link.due? k).any (· ≤ c.now) = false := hr
    rw [hdue] at hready
    exact Nat.lt_of_not_le (of_decide_eq_false hready)
  | fresh | ended | crashed =>
    simp only [dueAt, hb] at hd
    cases hd

/-- **The clock moves**, and not beyond the timer of the beat. -/
theorem OnTime.tick {t : Nat} (h : OnTime gap c) (hm : c.mayTick t = true) :
    OnTime gap { c with session := c.session.atTime t } := by
  rw [mayTick, Bool.and_eq_true, Bool.and_eq_true, decide_eq_true_iff] at hm
  obtain ⟨⟨hle, hq⟩, hnext⟩ := hm
  have hbound : ∀ due, c.session.dueAt .beat = some due → t ≤ due := fun due hd =>
    le_due_of_nextDue (s := c.session) hnext (c.session.mem_tasks (.inr (.inl rfl))) hd
      (lt_dueAt hq hd)
  refine ⟨⟨h.rests, h.alone, h.begun_eq, h.ended_eq, ?_, ?_, h.beats_eq, ?_, h.uncut, h.cancelled,
    h.disposed_iff⟩, ?_⟩
  · intro k hk
    obtain ⟨hbegun, hrest⟩ := h.begun k hk
    exact ⟨Nat.le_trans hbegun hle, hrest⟩
  · intro k hk
    exact Nat.le_trans (h.ended k hk) hle
  · intro t' ht
    exact Nat.le_trans (h.cut t' ht) hle
  · show InPhase gap _ c.session.beat
    cases hb : c.session.beat with
    | fresh =>
      have hr : c.session.beatRunnable = false := not_runnable_of_isQuiet hq (.inr (.inl rfl))
      rw [beatRunnable, hb] at hr
      cases hr
    | resting wakeAt =>
      obtain ⟨hwake, hlen, -, hwell⟩ := h.inPhase hb
      refine ⟨hwake, hlen, hbound wakeAt ?_, hwell⟩
      simp only [dueAt, hb]
    | writing k =>
      have hdue := h.dueAt_beat hb
      obtain ⟨rfl, hlen, -, hwell⟩ := h.inPhase hb
      exact ⟨rfl, hlen, hbound _ hdue, hwell⟩
    | ended | crashed => exact h.inPhase hb

/-- **A step** keeps the beat on time. -/
theorem OnTime.step {a : Act} (h : OnTime gap c) (hs : c.step a = some v) : OnTime gap v := by
  cases a with
  | poll t =>
    cases hs
    exact h.poll t
  | tick now =>
    rw [Beating.step] at hs
    split at hs <;> cases hs
    rename_i hm
    exact h.tick hm
  | stop wait =>
    cases hs
    exact h.touched c.outside rfl rfl rfl rfl rfl h.alone (fun _ => rfl) id
  | other m =>
    obtain ⟨⟨desk, outside⟩, hm, rfl⟩ := Option.map_eq_some_iff.1 hs
    have haround := Desk.around_move
      (P := fun a => a.link = c.link ∧ a.now = c.now ∧
        (c.session.isCancelled = true → a.cancelled = true))
      (fun _ ha => ha) (fun _ ha => ⟨ha.1, ha.2.1, fun _ => rfl⟩) hm ⟨rfl, rfl, id⟩
    exact h.touched outside haround.1 haround.2.1 rfl rfl rfl h.alone haround.2.2
      (Desk.isDisposed_move hm)

theorem onTime_launch (plan : Plan) (disposed : Bool)
    (hrests : ∀ t, interval.restUntil t = t + gap) :
    OnTime gap (launch plan interval disposed) := by
  have hnone : ∀ k, ¬ k < 0 := Nat.not_lt_zero
  have hwell : ¬ ∃ k < 0, plan.succeeds k = false := fun ⟨k, hk, _⟩ => hnone k hk
  cases disposed with
  | false =>
    refine ⟨⟨hrests, ⟨rfl, rfl⟩, rfl, rfl, ?_, ?_, rfl, ?_, fun _ => rfl, ?_, ?_⟩, rfl, rfl, rfl⟩
    · exact fun k hk => absurd hk (hnone k)
    · exact fun k hk => absurd hk (hnone k)
    · exact fun t ht => nomatch ht
    · exact fun hc => nomatch hc
    · exact iff_of_false Bool.false_ne_true fun hd => hd.elim Bool.false_ne_true hwell
  | true =>
    refine ⟨⟨hrests, ⟨rfl, rfl⟩, rfl, rfl, ?_, ?_, rfl, ?_, ?_, fun _ => .inl rfl, ?_⟩,
      rfl, rfl, rfl⟩
    · exact fun k hk => absurd hk (hnone k)
    · exact fun k hk => absurd hk (hnone k)
    · intro t ht
      cases ht
      exact Nat.le_refl _
    · exact fun hc => nomatch hc
    · exact iff_of_true rfl (.inl rfl)

/-- **In every run** the beat is on time. -/
theorem Reachable.onTime (hrests : ∀ t, interval.restUntil t = t + gap)
    (h : Reachable (launch plan interval disposed) c) : OnTime gap c := by
  induction h with
  | start => exact onTime_launch plan disposed hrests
  | step _ a hs ih => exact ih.step hs

end Beating

end HeldReply
