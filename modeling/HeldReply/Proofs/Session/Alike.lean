import Mathlib.Data.List.Forall2
import HeldReply.Proofs.Session.Turn

/-!
# Sessions that look alike

Two sessions look alike if they differ in failures only: in which failure was answered or is to be
told, in what a program that fails would say or crash with, and — once there is an outcome — in how
many callbacks are left.  Whatever the one does, the other does too, and they still look alike: the
same calls begin at the same times, with the same chunks.

* `Outcome.Alike`, `Promise.Alike`, `Program.Alike`, `Desk.Alike`, `Session.Alike` — **what looks
  alike**;
* `Promise.Alike.deliver`, `Promise.Alike.release`, `Promise.Alike.poll` — promises stay alike, and
  are answered alike;
* `Desk.Alike.run`, `Desk.Alike.dispose` — **programs and disposals** keep desks alike;
* `Session.Alike.poll` — **the tasks** keep sessions alike;
* `Session.Alike.isRunnable`, `Session.Alike.dueAt`, `Session.Alike.sleep` — the same tasks can go
  on, the same timers are set, and the clock keeps sessions alike.
-/

namespace HeldReply

/-! ### Outcomes -/

/-- Two outcomes **look alike** if they are the same, or both are failures. -/
inductive Outcome.Alike : Outcome → Outcome → Prop
  | same (o : Outcome) : Alike o o
  | failures (f g : Failure) : Alike (.error f) (.error g)

/-- What looks alike is told by the same last chunk. -/
theorem Outcome.Alike.payload_eq {o o' : Outcome} (h : o.Alike o') : o.payload = o'.payload := by
  cases h <;> rfl

/-! ### Promises -/

namespace Promise

/-- How far alike answers have come. -/
inductive Stage.Alike : Stage → Stage → Prop
  | unclaimed : Alike .unclaimed .unclaimed
  | claimed {o o' : Outcome} (h : o.Alike o') : Alike (.claimed o) (.claimed o')
  /-- Both have an outcome, be it sent or that of a promise that was broken. -/
  | settled {s t : Stage} {o o' : Outcome} (hs : s.outcome? = some o) (ht : t.outcome? = some o')
      (h : o.Alike o') : Alike s t

/-- Two promises **look alike**.  How many callbacks are alive matters only as long as nobody
answered. -/
structure Alike (p q : Promise) : Prop where
  stage : p.stage.Alike q.stage
  holders : p.stage = .unclaimed → p.holders = q.holders

variable {p q p' q' : Promise} {o o' : Outcome}

theorem Alike.refl (p : Promise) : p.Alike p := by
  refine ⟨?_, fun _ => rfl⟩
  cases p.stage with
  | unclaimed => exact .unclaimed
  | claimed o => exact .claimed (.same o)
  | sent o => exact .settled rfl rfl (.same o)
  | broken => exact .settled rfl rfl (.same .unanswered)

/-- Once there is an outcome, nobody can answer any more. -/
theorem claim_of_settled (h : p.stage.outcome? = some o) (o' : Outcome) :
    p.claim o' = (p, false) := by
  cases hs : p.stage with
  | unclaimed =>
    rw [hs] at h
    cases h
  | claimed | sent | broken => rw [claim, hs]

theorem send_of_settled (h : p.stage.outcome? = some o) : p.send = p := by
  cases hs : p.stage with
  | claimed =>
    rw [hs] at h
    cases h
  | unclaimed | sent | broken => rw [send, hs]

theorem release_of_settled (h : p.stage.outcome? = some o) : p.release.stage = p.stage := by
  cases hs : p.stage with
  | unclaimed =>
    rw [hs] at h
    cases h
  | claimed | sent | broken => simp only [release, hs]

/-- What has an outcome is alike whatever becomes of its callbacks. -/
theorem Alike.of_settled (hp : p.stage.outcome? = some o) (hq : q.stage.outcome? = some o')
    (h : o.Alike o') : p.Alike q := by
  refine ⟨.settled hp hq h, fun hs => ?_⟩
  rw [hs] at hp
  cases hp

theorem Alike.of_stage (h : p.Alike q) (hp : p.stage.outcome? = some o)
    (hs : p'.stage = p.stage) : p'.Alike q := by
  obtain ⟨hstage, -⟩ := h
  refine ⟨hs ▸ hstage, fun hu => ?_⟩
  rw [← hs, hu] at hp
  cases hp

/-- Of two alike answers **both count or neither**, and the promises stay alike. -/
theorem Alike.claim (h : p.Alike q) (ho : o.Alike o') :
    (p.claim o).1.Alike (q.claim o').1 ∧ (p.claim o).2 = (q.claim o').2 := by
  obtain ⟨hstage, hholders⟩ := h
  generalize hs : p.stage = s, ht : q.stage = t at hstage
  cases hstage with
  | unclaimed =>
    have hp : p.claim o = ({ p with stage := .claimed o }, true) := by rw [Promise.claim, hs]
    have hq : q.claim o' = ({ q with stage := .claimed o' }, true) := by rw [Promise.claim, ht]
    rw [hp, hq]
    exact ⟨⟨.claimed ho, fun hu => by cases hu⟩, rfl⟩
  | claimed hc =>
    have hp : p.claim o = (p, false) := by rw [Promise.claim, hs]
    have hq : q.claim o' = (q, false) := by rw [Promise.claim, ht]
    rw [hp, hq]
    refine ⟨⟨?_, hholders⟩, rfl⟩
    rw [hs, ht]
    exact .claimed hc
  | settled hp hq hc =>
    rw [← hs] at hp
    rw [← ht] at hq
    rw [claim_of_settled hp, claim_of_settled hq]
    exact ⟨.of_settled hp hq hc, rfl⟩

theorem Alike.send (h : p.Alike q) : p.send.Alike q.send := by
  obtain ⟨hstage, hholders⟩ := h
  generalize hs : p.stage = s, ht : q.stage = t at hstage
  cases hstage with
  | unclaimed =>
    have hp : p.send = p := by rw [Promise.send, hs]
    have hq : q.send = q := by rw [Promise.send, ht]
    rw [hp, hq]
    refine ⟨?_, hholders⟩
    rw [hs, ht]
    exact .unclaimed
  | @claimed o o' hc =>
    have hp : p.send = p.settle (.sent o) := by rw [Promise.send, hs]
    have hq : q.send = q.settle (.sent o') := by rw [Promise.send, ht]
    rw [hp, hq]
    have hsent (r : Promise) (o : Outcome) : (r.settle (.sent o)).stage.outcome? = some o := rfl
    exact .of_settled (hsent p o) (hsent q o') hc
  | settled hp hq hc =>
    rw [← hs] at hp
    rw [← ht] at hq
    rw [send_of_settled hp, send_of_settled hq]
    exact .of_settled hp hq hc

/-- Alike answers are given **alike**. -/
theorem Alike.deliver (h : p.Alike q) (ho : o.Alike o') :
    (p.deliver o).1.Alike (q.deliver o').1 ∧ (p.deliver o).2 = (q.deliver o').2 :=
  ⟨(h.claim ho).1.send, (h.claim ho).2⟩

theorem Alike.share (h : p.Alike q) : p.share.Alike q.share :=
  ⟨h.stage, fun hu => congrArg (· + 1) (h.holders hu)⟩

/-- The last callback goes from both promises **at once**, as long as nobody answered. -/
theorem Alike.release (h : p.Alike q) : p.release.Alike q.release := by
  obtain ⟨hstage, hholders⟩ := h
  generalize hs : p.stage = s, ht : q.stage = t at hstage
  cases hstage with
  | unclaimed =>
    have hn : p.holders = q.holders := hholders hs
    have hbroken (r : Promise) : (r.settle .broken).stage.outcome? = some .unanswered := rfl
    simp only [Promise.release, hs, ht, hn]
    split
    · exact .of_settled (hbroken _) (hbroken _) (.same _)
    · exact ⟨.unclaimed, fun _ => rfl⟩
  | claimed hc =>
    refine ⟨?_, fun hu => ?_⟩
    · simp only [Promise.release, hs, ht]
      exact .claimed hc
    · simp only [Promise.release, hs] at hu
      cases hu
  | settled hp hq hc =>
    rw [← hs] at hp
    rw [← ht] at hq
    have hp' : p.release.stage.outcome? = p.stage.outcome? := congrArg _ (release_of_settled hp)
    have hq' : q.release.stage.outcome? = q.stage.outcome? := congrArg _ (release_of_settled hq)
    exact .of_settled (hp'.trans hp) (hq'.trans hq) hc

theorem Alike.outcome? (h : p.Alike q) :
    Option.Rel Outcome.Alike p.stage.outcome? q.stage.outcome? := by
  obtain ⟨hstage, -⟩ := h
  generalize p.stage = s, q.stage = t at hstage
  cases hstage with
  | unclaimed | claimed => exact .none
  | settled hs ht ho =>
    rw [hs, ht]
    exact .some ho

/-- The listeners are **told alike**. -/
theorem Alike.poll (h : p.Alike q) :
    p.poll.1.Alike q.poll.1 ∧ Option.Rel Outcome.Alike p.poll.2 q.poll.2 := by
  have hrel := h.outcome?
  have hpoll (r : Promise) : r.poll.1.stage = r.stage ∧ r.poll.1.holders = r.holders ∧
      r.poll.2 = r.stage.outcome? := by
    unfold Promise.poll
    split
    · rename_i ho
      exact ⟨rfl, rfl, ho.symm⟩
    · rename_i ho
      exact ⟨rfl, rfl, ho.symm⟩
  obtain ⟨hps, hph, hpo⟩ := hpoll p
  obtain ⟨hqs, hqh, hqo⟩ := hpoll q
  rw [hpo, hqo]
  refine ⟨⟨?_, ?_⟩, hrel⟩
  · rw [hps, hqs]
    exact h.stage
  · rw [hps, hph, hqh]
    exact h.holders

end Promise

/-! ### Programs -/

/-- Two programs **look alike** if they do the same but for the failures that they answer, what they
crash with, and what they say to whoever watches; and so do the clean-ups that they register. -/
inductive Program.Alike : Program → Program → Prop
  | finish (remark remark' : String) : Alike (.finish remark) (.finish remark')
  | crash (c c' : Crash) : Alike (.crash c) (.crash c')
  | deliver {o o' : Outcome} {next next' : Bool → Program} (ho : o.Alike o')
      (h : ∀ first, Alike (next first) (next' first)) : Alike (.deliver o next) (.deliver o' next')
  | keep {next next' : Program} (h : Alike next next') : Alike (.keep next) (.keep next')
  | release {next next' : Program} (h : Alike next next') : Alike (.release next) (.release next')
  | inspect {next next' : View → Program} (h : ∀ v, Alike (next v) (next' v)) :
      Alike (.inspect next) (.inspect next')
  | register {cleanup cleanup' : Program} {next next' : Bool → Program}
      (hc : Alike cleanup cleanup') (h : ∀ queued, Alike (next queued) (next' queued)) :
      Alike (.register cleanup next) (.register cleanup' next')
  | dispose {next next' : Bool → Program} (h : ∀ first, Alike (next first) (next' first)) :
      Alike (.dispose next) (.dispose next')
  | note (text text' : String) {next next' : Program} (h : Alike next next') :
      Alike (.note text next) (.note text' next')

theorem Program.Alike.refl (p : Program) : p.Alike p := by
  induction p with
  | finish remark => exact .finish remark remark
  | crash c => exact .crash c c
  | deliver o next ih => exact .deliver (.same o) ih
  | keep next ih => exact .keep ih
  | release next ih => exact .release ih
  | inspect next ih => exact .inspect ih
  | register cleanup next ihc ihn => exact .register ihc ihn
  | dispose next ih => exact .dispose ih
  | note text next ih => exact .note text text ih

/-- Both programs return, or both crash. -/
inductive Ending.Alike : Ending → Ending → Prop
  | finished (remark remark' : String) : Alike (.finished remark) (.finished remark')
  | crashed (c c' : Crash) : Alike (.crashed c) (.crashed c')

/-- Clean-ups that look alike. -/
inductive Cleanup.Alike : Cleanup → Cleanup → Prop
  | closeLink : Alike .closeLink .closeLink
  | cancelBeat : Alike .cancelBeat .cancelBeat
  | program {p q : Program} (h : p.Alike q) : Alike (.program p) (.program q)

theorem Cleanup.Alike.refl (k : Cleanup) : k.Alike k := by
  cases k with
  | closeLink => exact .closeLink
  | cancelBeat => exact .cancelBeat
  | program p => exact .program (.refl p)

/-! ### Desks -/

namespace Desk

variable {ω : Type}

/-- Two desks **look alike**, whatever programs noted. -/
structure Alike (d e : Desk ω) : Prop where
  label : d.scope.label = e.scope.label
  flag : d.scope.flag = e.scope.flag
  queue : d.scope.queue.Forall₂ Cleanup.Alike e.scope.queue
  promise : d.promise.Alike e.promise
  around : d.around = e.around

variable {d e : Desk ω} {o o' : Outcome} {k k' : Cleanup} {p q : Program}

theorem Alike.isDisposed (h : d.Alike e) : d.scope.isDisposed = e.scope.isDisposed :=
  congrArg Flag.raised h.flag

theorem Alike.deliver (h : d.Alike e) (ho : o.Alike o') :
    (d.deliver o).1.Alike (e.deliver o').1 ∧ (d.deliver o).2 = (e.deliver o').2 :=
  ⟨{ h with promise := (h.promise.deliver ho).1 }, (h.promise.deliver ho).2⟩

theorem Alike.keep (h : d.Alike e) : d.keep.Alike e.keep :=
  { h with promise := h.promise.share }

theorem Alike.release (h : d.Alike e) : d.release.Alike e.release :=
  { h with promise := h.promise.release }

theorem Alike.note (h : d.Alike e) (text text' : String) : (d.note text).Alike (e.note text') :=
  { h with }

theorem Alike.push (h : d.Alike e) (hk : k.Alike k') : (d.push k).Alike (e.push k') :=
  { h with queue := List.rel_append h.queue (.cons hk .nil) }

theorem Alike.announce (h : d.Alike e) : d.announce.Alike e.announce :=
  { h with flag := congrArg Flag.call h.flag }

variable [Surroundings ω]

/-- Programs **see the same**. -/
theorem Alike.view (h : d.Alike e) : d.view = e.view := by
  have hpending : d.scope.pending = e.scope.pending := h.queue.length_eq
  rw [Desk.view, Desk.view, h.label, h.isDisposed, hpending, h.around]

/-- What two ways to dispose of a scope have to do so that programs stay alike. -/
def Disposing (f : Desk ω → Desk ω × Bool) : Prop :=
  ∀ ⦃d e : Desk ω⦄, d.Alike e → (f d).1.Alike (f e).1 ∧ (f d).2 = (f e).2

/-- **Programs** that look alike keep desks alike, by what they do step by step, and end alike. -/
theorem Alike.interpret {dispose : Desk ω → Desk ω × Bool} (hd : Disposing dispose)
    (hpq : p.Alike q) (h : d.Alike e) :
    (Desk.interpret dispose p d).1.Alike (Desk.interpret dispose q e).1 ∧
      (Desk.interpret dispose p d).2.Alike (Desk.interpret dispose q e).2 := by
  -- The desks go along: a clean-up that runs at once changes them before the program goes on.
  induction hpq generalizing d e with
  | finish remark remark' => exact ⟨h, .finished remark remark'⟩
  | crash c c' => exact ⟨h, .crashed c c'⟩
  | deliver ho _ ih =>
    obtain ⟨h', hfirst⟩ := h.deliver ho
    simp only [Desk.interpret, hfirst]
    exact ih _ h'
  | keep _ ih => exact ih h.keep
  | release _ ih => exact ih h.release
  | inspect _ ih =>
    simp only [Desk.interpret, h.view]
    exact ih _ h
  | register hc _ ihc ihn =>
    simp only [Desk.interpret, h.isDisposed]
    split
    · exact ihn _ (ihc h).1
    · exact ihn _ (h.push (.program hc))
  | dispose _ ih =>
    obtain ⟨h', hfirst⟩ := hd h
    simp only [Desk.interpret, hfirst]
    exact ih _ h'
  | note text text' _ ih => exact ih (h.note text text')

theorem Alike.runCleanup (h : d.Alike e) (hk : k.Alike k') :
    (d.runCleanup k).Alike (e.runCleanup k') := by
  cases hk with
  | closeLink => exact { h with around := congrArg Surroundings.closeLink h.around }
  | cancelBeat => exact { h with around := congrArg Surroundings.cancelBeat h.around }
  | program hpq =>
    have hidle : Disposing fun d : Desk ω => (d, false) := fun _ _ h => ⟨h, rfl⟩
    exact (h.interpret hidle hpq).1

theorem Alike.runCleanups {ks ks' : List Cleanup} (h : d.Alike e)
    (hks : ks.Forall₂ Cleanup.Alike ks') :
    (ks.foldl Desk.runCleanup d).Alike (ks'.foldl Desk.runCleanup e) := by
  induction hks generalizing d e with
  | nil => exact h
  | cons hk _ ih => exact ih (h.runCleanup hk)

/-- **A disposal** keeps desks alike. -/
theorem Alike.dispose (h : d.Alike e) :
    d.dispose.1.Alike e.dispose.1 ∧ d.dispose.2 = e.dispose.2 := by
  have hdisposed := h.isDisposed
  rcases d.begin_cases with ⟨hd, hbd⟩ | ⟨hd, hbd⟩ <;>
    rcases e.begin_cases with ⟨he, hbe⟩ | ⟨he, hbe⟩ <;> rw [hd, he] at hdisposed
  · simp only [Desk.dispose, hbd, hbe]
    exact ⟨h, trivial⟩
  · cases hdisposed
  · cases hdisposed
  · simp only [Desk.dispose, hbd, hbe]
    refine ⟨Alike.announce (Alike.runCleanups ?_ (List.rel_reverse h.queue)), trivial⟩
    exact { h with flag := by rw [h.flag], queue := .nil }

theorem disposing_dispose : Disposing fun d : Desk ω => d.dispose :=
  fun _ _ h => h.dispose

/-- **The run of a program** keeps desks alike. -/
theorem Alike.run (h : d.Alike e) (hpq : p.Alike q) :
    (d.run p).1.Alike (e.run q).1 ∧ (d.run p).2.Alike (e.run q).2 :=
  h.interpret disposing_dispose hpq

/-- **The execution of a handler** keeps desks alike. -/
theorem Alike.execute (h : d.Alike e) (name : String) (hpq : p.Alike q) :
    (d.execute name p).1.Alike (e.execute name q).1 := by
  obtain ⟨hrun, hend⟩ := h.run hpq
  rcases hd : d.run p with ⟨d', a⟩
  rcases he : e.run q with ⟨e', b⟩
  rw [hd, he] at hrun hend
  rw [Desk.execute, Desk.execute, hd, he]
  cases hend with
  | finished => exact hrun.release
  | crashed => exact (hrun.deliver (.failures _ _)).1.release

end Desk

/-! ### Sessions -/

/-- The closings of two sessions **look alike**: they do the same, with outcomes that look alike. -/
inductive Closing.Alike : Closing → Closing → Prop
  | absent : Alike .absent .absent
  | fresh : Alike .fresh .fresh
  | delayed (startAt : Nat) {o o' : Outcome} (h : o.Alike o') :
      Alike (.delayed startAt o) (.delayed startAt o')
  | waiting : Alike .waiting .waiting
  | stopping (deadline : Nat) {a b : Option Outcome} (h : a.Rel Outcome.Alike b) :
      Alike (.stopping deadline a) (.stopping deadline b)
  | writing (ticket : Nat) : Alike (.writing ticket) (.writing ticket)
  | finishing (ticket : Nat) : Alike (.finishing ticket) (.finishing ticket)
  | ended (e : SessionEnd) : Alike (.over e) (.over e)
  | crashed : Alike .crashed .crashed

theorem Closing.Alike.refl (k : Closing) : k.Alike k := by
  cases k with
  | absent => exact .absent
  | fresh => exact .fresh
  | delayed startAt o => exact .delayed startAt (.same o)
  | waiting => exact .waiting
  | stopping deadline a =>
    cases a with
    | none => exact .stopping deadline .none
    | some o => exact .stopping deadline (.some (.same o))
  | writing ticket => exact .writing ticket
  | finishing ticket => exact .finishing ticket
  | crashed => exact .crashed
  | _ => exact .ended _

namespace Session

variable {σ : Type}

/-- Two sessions **look alike** if their desks and their closings do, and all else is the same. -/
structure Alike (s t : Session σ) : Prop where
  desk : s.desk.Alike t.desk
  interval : s.interval = t.interval
  patience : s.patience = t.patience
  beat : s.beat = t.beat
  beats : s.beats = t.beats
  joined : s.joined = t.joined
  closing : s.closing.Alike t.closing
  watcher : s.watcher = t.watcher
  stops : s.stops = t.stops

variable {s t : Session σ} {o o' : Outcome}

theorem Alike.now (h : s.Alike t) : s.now = t.now :=
  congrArg Line.now h.desk.around

theorem Alike.link (h : s.Alike t) : s.link = t.link :=
  congrArg Line.link h.desk.around

theorem Alike.isCancelled (h : s.Alike t) : s.isCancelled = t.isCancelled :=
  congrArg Line.cancelled h.desk.around

theorem Alike.isDisposed (h : s.Alike t) : s.isDisposed = t.isDisposed :=
  h.desk.isDisposed

theorem Alike.tellsDisposed (h : s.Alike t) (isFresh : Bool) :
    s.tellsDisposed isFresh = t.tellsDisposed isFresh := by
  rw [Session.tellsDisposed, Session.tellsDisposed, h.isDisposed, h.desk.flag]

/-- A session is alike with other surroundings, if they are the same. -/
theorem Alike.withAround (h : s.Alike t) {a b : Line σ} (hab : a = b) :
    { s with desk.around := a }.Alike { t with desk.around := b } :=
  { h with desk := { h.desk with around := hab } }

theorem Alike.atTime (h : s.Alike t) (now : Nat) : (s.atTime now).Alike (t.atTime now) :=
  h.withAround (by rw [h.desk.around])

theorem Alike.withLink (h : s.Alike t) (link : σ) : (s.withLink link).Alike (t.withLink link) :=
  h.withAround (by rw [h.desk.around])

theorem Alike.cancel (h : s.Alike t) : s.cancel.Alike t.cancel :=
  h.withAround (by rw [h.desk.around])

/-- How a session ended does not tell which failure ended it. -/
theorem Alike.endAs? (h : s.Alike t) : s.endAs? = t.endAs? := by
  have hk := h.closing
  unfold Session.endAs?
  generalize s.closing = j, t.closing = k at hk ⊢
  cases hk <;> rfl

variable [Link σ]

/-- **The same calls** begin at the same times, and are answered the same. -/
theorem Alike.startCall (h : s.Alike t) (call : Call) :
    ∃ s' t' r, s.startCall call = (s', r) ∧ t.startCall call = (t', r) ∧ s'.Alike t' := by
  refine ⟨_, _, _, rfl, ?_, h.withLink _⟩
  rw [Session.startCall, h.now, h.link]
  rfl

theorem Alike.pollCall (h : s.Alike t) (ticket : Nat) :
    ∃ s' t' r, s.pollCall ticket = (s', r) ∧ t.pollCall ticket = (t', r) ∧ s'.Alike t' := by
  refine ⟨_, _, _, rfl, ?_, h.withLink _⟩
  rw [Session.pollCall, h.now, h.link]
  rfl

theorem Alike.closeLink (h : s.Alike t) :
    ∃ s' t' crash, s.closeLink = (s', crash) ∧ t.closeLink = (t', crash) ∧ s'.Alike t' := by
  refine ⟨_, _, _, rfl, ?_, h.withLink _⟩
  rw [Session.closeLink, h.now, h.link]
  rfl

theorem Alike.dispose (h : s.Alike t) :
    s.dispose.1.Alike t.dispose.1 ∧ s.dispose.2 = t.dispose.2 :=
  ⟨{ h with desk := h.desk.dispose.1 }, h.desk.dispose.2⟩

/-! #### The beat -/

omit [Link σ] in
theorem Alike.rest (h : s.Alike t) : s.rest.Alike t.rest := by
  have hbeat : s.rest.beat = t.rest.beat := by
    simp only [Session.rest, h.isCancelled, h.interval, h.now]
  exact { h with beat := hbeat }

theorem Alike.afterBeat (h : s.Alike t) (r : Reply) : (s.afterBeat r).Alike (t.afterBeat r) := by
  cases r with
  | done =>
    have hbeats : { s with beats := s.beats + 1 }.Alike { t with beats := t.beats + 1 } :=
      { h with beats := congrArg (· + 1) h.beats }
    exact hbeats.rest
  | refused f => exact { h.dispose.1 with beat := rfl }
  | crashed c => exact { h with beat := rfl }

theorem Alike.writeBeat (h : s.Alike t) : s.writeBeat.Alike t.writeBeat := by
  obtain ⟨s', t', r, hs, ht, h'⟩ := h.startCall (.write beatChunk)
  rw [Session.writeBeat, Session.writeBeat, hs, ht]
  cases r with
  | answered reply => exact h'.afterBeat reply
  | inFlight ticket => exact { h' with beat := rfl }

theorem Alike.beatRunnable (h : s.Alike t) : s.beatRunnable = t.beatRunnable := by
  rw [Session.beatRunnable, Session.beatRunnable, h.beat, h.isCancelled, h.now, h.link]

theorem Alike.stepBeat (h : s.Alike t) : s.stepBeat.Alike t.stepBeat := by
  unfold Session.stepBeat
  rw [h.beat, h.isCancelled, h.now]
  split
  · exact h.rest
  · split
    · exact { h with beat := rfl }
    · split
      · exact h.writeBeat
      · exact h
  · rename_i ticket _
    obtain ⟨s', t', r, hs, ht, h'⟩ := h.pollCall ticket
    rw [hs, ht]
    cases r with
    | some reply => exact h'.afterBeat reply
    | none => exact h'
  · exact h
  · exact h

theorem Alike.stepBeatFor (h : s.Alike t) (n : Nat) : (s.stepBeatFor n).Alike (t.stepBeatFor n) := by
  induction n generalizing s t with
  | zero => exact h
  | succ n ih =>
    unfold Session.stepBeatFor
    rw [h.beatRunnable]
    split
    · exact ih h.stepBeat
    · exact h

theorem Alike.pollBeat (h : s.Alike t) : s.pollBeat.Alike t.pollBeat := by
  unfold Session.pollBeat
  rw [h.beat]
  split
  · exact h.rest.stepBeatFor _
  · exact h.stepBeatFor _

/-! #### The closing -/

theorem Alike.endWith (h : s.Alike t) (e : SessionEnd) : (s.endWith e).Alike (t.endWith e) :=
  { h.dispose.1 with closing := .ended e }

theorem Alike.discard (h : s.Alike t) : s.discard.Alike t.discard := by
  obtain ⟨s', t', crash, hs, ht, h'⟩ := h.cancel.closeLink
  rw [Session.discard, Session.discard, hs, ht]
  cases crash with
  | none => exact { h' with closing := .ended .discarded }
  | some c => exact { h' with closing := .crashed }

theorem Alike.afterFinish (h : s.Alike t) (r : Reply) :
    (s.afterFinish r).Alike (t.afterFinish r) := by
  cases r with
  | done => exact h.endWith .delivered
  | refused f => exact h.endWith .writeFailed
  | crashed c => exact { h with closing := .crashed }

theorem Alike.afterPayload (h : s.Alike t) (r : Reply) :
    (s.afterPayload r).Alike (t.afterPayload r) := by
  cases r with
  | done =>
    obtain ⟨s', t', r, hs, ht, h'⟩ := h.startCall .finish
    rw [Session.afterPayload, Session.afterPayload, hs, ht]
    cases r with
    | answered reply => exact h'.afterFinish reply
    | inFlight ticket => exact { h' with closing := .finishing ticket }
  | refused f => exact h.endWith .writeFailed
  | crashed c => exact { h with closing := .crashed }

/-- Outcomes that look alike are **written alike**. -/
theorem Alike.writePayload (h : s.Alike t) (ho : o.Alike o') :
    (s.writePayload o).Alike (t.writePayload o') := by
  obtain ⟨s', t', r, hs, ht, h'⟩ := h.startCall (.write o'.payload)
  rw [Session.writePayload, Session.writePayload, ho.payload_eq, hs, ht]
  cases r with
  | answered reply => exact h'.afterPayload reply
  | inFlight ticket => exact { h' with closing := .writing ticket }

theorem Alike.afterStop (h : s.Alike t) {a b : Option Outcome} (hab : a.Rel Outcome.Alike b) :
    (s.afterStop a).Alike (t.afterStop b) := by
  cases hab with
  | none => exact h.discard
  | some ho =>
    unfold Session.afterStop
    rw [h.isDisposed]
    dsimp only
    split
    · exact h.discard
    · exact h.writePayload ho

theorem Alike.stopBeat (h : s.Alike t) {a b : Option Outcome} (hab : a.Rel Outcome.Alike b) :
    (s.stopBeat a).Alike (t.stopBeat b) := by
  have hc := h.cancel
  unfold Session.stopBeat
  generalize s.cancel = u, t.cancel = w at hc ⊢
  have hu : { u with joined := true }.Alike { w with joined := true } := { hc with joined := rfl }
  have hover : (u.beat.isOver || u.patience.isZero) = (w.beat.isOver || w.patience.isZero) := by
    rw [hc.beat, hc.patience]
  have hdeadline : u.patience.waitUntil u.now = w.patience.waitUntil w.now := by
    rw [hc.patience, hc.now]
  dsimp only
  rw [hc.joined, hover]
  split
  · exact hc.afterStop hab
  · split
    · exact hu.afterStop hab
    · refine { hu with closing := ?_ }
      show (Closing.stopping (u.patience.waitUntil u.now) a).Alike
        (.stopping (w.patience.waitUntil w.now) b)
      rw [hdeadline]
      exact .stopping _ hab

theorem Alike.askOutcome (h : s.Alike t) (isFresh : Bool) :
    (s.askOutcome isFresh).Alike (t.askOutcome isFresh) := by
  obtain ⟨hpromise, houtcome⟩ := h.desk.promise.poll
  have h' : { s with desk.promise := s.desk.promise.poll.1 }.Alike
      { t with desk.promise := t.desk.promise.poll.1 } :=
    { h with desk := { h.desk with promise := hpromise } }
  unfold Session.askOutcome
  dsimp only
  generalize s.desk.promise.poll.2 = a, t.desk.promise.poll.2 = b at houtcome ⊢
  cases houtcome with
  | some ho => exact h'.stopBeat (.some ho)
  | none =>
    dsimp only
    rw [h'.tellsDisposed isFresh]
    split
    · exact h'.stopBeat .none
    · exact { h' with closing := .waiting }

/-- **The closings** go on alike. -/
theorem Alike.pollClosing (h : s.Alike t) : s.pollClosing.Alike t.pollClosing := by
  have hk := h.closing
  unfold Session.pollClosing
  rw [h.now, h.beat]
  generalize s.closing = j, t.closing = k at hk ⊢
  cases hk with
  | fresh => exact h.askOutcome true
  | waiting => exact h.askOutcome false
  | delayed startAt ho =>
    dsimp only
    split
    · exact h.stopBeat (.some ho)
    · exact h
  | stopping deadline hab =>
    dsimp only
    split
    · exact h.afterStop hab
    · exact h
  | writing ticket =>
    obtain ⟨s', t', r, hs, ht, h'⟩ := h.pollCall ticket
    dsimp only
    rw [hs, ht]
    cases r with
    | some reply => exact h'.afterPayload reply
    | none => exact h'
  | finishing ticket =>
    obtain ⟨s', t', r, hs, ht, h'⟩ := h.pollCall ticket
    dsimp only
    rw [hs, ht]
    cases r with
    | some reply => exact h'.afterFinish reply
    | none => exact h'
  | absent | ended | crashed => exact h

/-! #### The watcher, and calls from outside -/

theorem Alike.watch (h : s.Alike t) (isFresh : Bool) : (s.watch isFresh).Alike (t.watch isFresh) := by
  unfold Session.watch
  rw [h.link, h.tellsDisposed]
  split
  · exact { h.dispose.1 with watcher := rfl }
  · split
    · exact { h with watcher := rfl }
    · exact { h with watcher := rfl }

theorem Alike.pollWatcher (h : s.Alike t) : s.pollWatcher.Alike t.pollWatcher := by
  unfold Session.pollWatcher
  rw [h.watcher]
  split
  · exact h.watch true
  · exact h.watch false
  · exact h
  · exact h

omit [Link σ] in
theorem Alike.stopAnswer? (h : s.Alike t) (deadline : Nat) :
    s.stopAnswer? deadline = t.stopAnswer? deadline := by
  rw [Session.stopAnswer?, Session.stopAnswer?, h.beat, h.now]

omit [Link σ] in
theorem Alike.pollStop (h : s.Alike t) (i : Nat) : (s.pollStop i).Alike (t.pollStop i) := by
  unfold Session.pollStop
  simp only [h.stops, h.stopAnswer?]
  split
  · split
    · exact { h with stops := rfl }
    · exact h
  · exact h

/-! #### The tasks -/

/-- **A task** of two sessions that look alike does the same in both. -/
theorem Alike.poll (h : s.Alike t) (task : Task) : (s.poll task).Alike (t.poll task) := by
  cases task with
  | watcher => exact h.pollWatcher
  | beat => exact h.pollBeat
  | closing => exact h.pollClosing
  | stop i => exact h.pollStop i

theorem Alike.closingRunnable (h : s.Alike t) : s.closingRunnable = t.closingRunnable := by
  have hk := h.closing
  have hready : s.desk.promise.stage.outcome?.isSome = t.desk.promise.stage.outcome?.isSome := by
    have ho := h.desk.promise.outcome?
    generalize s.desk.promise.stage.outcome? = a, t.desk.promise.stage.outcome? = b at ho ⊢
    cases ho <;> rfl
  unfold Session.closingRunnable
  rw [hready, h.tellsDisposed, h.now, h.beat, h.link]
  generalize s.closing = j, t.closing = k at hk ⊢
  cases hk <;> rfl

/-- **The same tasks** can go on. -/
theorem Alike.isRunnable (h : s.Alike t) (task : Task) : s.isRunnable task = t.isRunnable task := by
  cases task with
  | watcher =>
    show s.watcherRunnable = t.watcherRunnable
    rw [Session.watcherRunnable, Session.watcherRunnable, h.watcher, h.link, h.tellsDisposed]
  | beat => exact h.beatRunnable
  | closing => exact h.closingRunnable
  | stop i =>
    show s.stopRunnable i = t.stopRunnable i
    simp only [Session.stopRunnable, h.stops, h.stopAnswer?]

/-- **The same timers** are set. -/
theorem Alike.dueAt (h : s.Alike t) (task : Task) : s.dueAt task = t.dueAt task := by
  have hk := h.closing
  cases task with
  | watcher => rfl
  | beat =>
    simp only [Session.dueAt]
    rw [h.beat, h.link]
  | closing =>
    simp only [Session.dueAt]
    rw [h.link]
    generalize s.closing = j, t.closing = k at hk ⊢
    cases hk <;> rfl
  | stop i =>
    simp only [Session.dueAt]
    rw [h.stops]

/-! #### The clock -/

omit [Link σ] in
/-- The tasks take turns **in the same order**. -/
theorem Alike.tasks (h : s.Alike t) : s.tasks = t.tasks := by
  have hfirst : s.closingFirst = t.closingFirst := by
    have hk := h.closing
    unfold Session.closingFirst
    rw [h.beat, h.beats, h.interval]
    generalize s.closing = j, t.closing = k at hk ⊢
    cases t.beat <;> cases hk <;> rfl
  rw [Session.tasks, Session.tasks, h.stops, hfirst]

theorem Alike.takeTurns (h : s.Alike t) : s.takeTurns.Alike t.takeTurns := by
  unfold Session.takeTurns
  rw [h.tasks]
  generalize t.tasks = tasks
  induction tasks generalizing s t with
  | nil => exact h
  | cons task tasks ih =>
    refine ih ?_
    dsimp only
    rw [h.isRunnable]
    split
    · exact h.poll task
    · exact h

theorem Alike.settleFor (h : s.Alike t) (n : Nat) :
    (Timed.settleFor s n).Alike (Timed.settleFor t n) := by
  induction n generalizing s t with
  | zero => exact h
  | succ n ih =>
    have hquiet : s.isQuiet = t.isQuiet := by
      rw [Session.isQuiet, Session.isQuiet, h.tasks]
      simp only [h.isRunnable]
    have hq : Timed.isQuiet s = Timed.isQuiet t := hquiet
    rw [Timed.settleFor, Timed.settleFor, hq]
    split
    · exact h
    · exact ih h.takeTurns

theorem Alike.advance (h : s.Alike t) (now goal : Nat) :
    (Timed.advance s now goal).Alike (Timed.advance t now goal) := by
  have hidle (s t : Session σ) (h : s.Alike t) (goal : Nat) :
      (Timed.settle (Timed.atTime goal s)).Alike (Timed.settle (Timed.atTime goal t)) :=
    (h.atTime goal).settleFor Timed.turns
  unfold Timed.advance
  -- By induction on the time that is left: both clocks move to the same timers.
  induction hn : goal - now using Nat.strongRecOn generalizing s t now with
  | ind n ih =>
    have hdue : Timed.nextDue now s = Timed.nextDue now t := by
      show s.nextDue now = t.nextDue now
      have hdueAt : s.dueAt = t.dueAt := funext h.dueAt
      rw [Session.nextDue, Session.nextDue, h.tasks, hdueAt]
    rw [Timed.advanceUntil, Timed.advanceUntil, hdue]
    split
    · exact h
    · split
      · exact hidle s t h goal
      · rename_i due _
        split
        · rename_i hlt
          exact ih _ (by omega) (hidle s t h due) due rfl
        · exact hidle s t h goal

/-- **The clock** keeps sessions alike. -/
theorem Alike.sleep (h : s.Alike t) (ms : Nat) : (s.sleep ms).Alike (t.sleep ms) := by
  rw [Session.sleep, Session.sleep, h.now]
  exact h.advance _ _

end Session

end HeldReply
