import HeldReply.Proofs.Session.Account

/-!
# The history of a session

Beside a run its history can be told: which clean-ups were queued, which ones disposals ran, and how
the closing made up its mind.  Every run has a history, and what is left of it in the scope and in
the closing does not depend on who disposed of the scope, or when.

* `History`, `Desk.follow`, `Scene.Extends`, `Scene.Told` — **the history** of a program, of a step
  and of a run;
* `Closing.Resolves` — how the closing **made up its mind**, as its phase shows it;
* `Session.ChangesBeat` — what the beat's turn changes, and nothing else;
* `History.Fits`, `Scene.Told.fits` — what the scope shows of the history: **the clean-ups run in the
  opposite order, each once**.
-/

namespace HeldReply

open Recorded Session

/-! ### The mind of the closing -/

/-- How the closing **makes up its mind**. -/
inductive Resolution where
  /-- While it waits for the outcome it learns of the disposal. -/
  | learned
  /-- It has the outcome, and looks at the scope when the beat is stopped. -/
  | checked (disposed : Bool)
  deriving DecidableEq, Repr

namespace Session

variable {σ : Type} [Link σ] {s : Session σ}

/-- Whether the closing need not wait for the beat when it stops it. -/
def stopsAtOnce (s : Session σ) : Bool :=
  s.joined || s.beat.isOver || s.patience.isZero

/-- What a question for the outcome resolves. -/
def askResolution (s : Session σ) (isFresh : Bool) : List Resolution :=
  match s.desk.promise.stage.outcome? with
  | some _ => if s.stopsAtOnce then [.checked s.isDisposed] else []
  | none => if s.tellsDisposed isFresh then [.learned] else []

/-- What the turn of a task **resolves**. -/
def resolution (s : Session σ) : Task → List Resolution
  | .closing =>
    match s.closing with
    | .fresh => s.askResolution true
    | .waiting => s.askResolution false
    | .stopping deadline (some _) =>
      if s.beat.isOver || deadline ≤ s.now then [.checked s.isDisposed] else []
    | _ => []
  | _ => []

end Session

/-- What the phase of the closing shows of **how it made up its mind**. -/
def Closing.Resolves (resolved : List Resolution) : Closing → Prop
  | .absent | .delayed .. => False
  | .fresh | .waiting | .stopping _ (some _) => resolved = []
  | .stopping _ none => resolved = [.learned]
  | .over .discarded => resolved = [.learned] ∨ resolved = [.checked true]
  | .writing _ | .finishing _ | .over _ => resolved = [.checked false]
  | .crashed => resolved = [.learned] ∨ ∃ disposed, resolved = [.checked disposed]

namespace Session

variable {σ : Type} [Link σ] {s : Session σ} {resolved : List Resolution}

theorem resolves_afterFinish (s : Session σ) (r : Reply) :
    (s.afterFinish r).closing.Resolves [.checked false] := by
  cases r with
  | done | refused => rfl
  | crashed => exact .inr ⟨false, rfl⟩

theorem resolves_afterPayload (s : Session σ) (r : Reply) :
    (s.afterPayload r).closing.Resolves [.checked false] := by
  cases r with
  | done =>
    unfold Session.afterPayload
    rcases s.startCall .finish with ⟨v, r | n⟩
    · exact v.resolves_afterFinish r
    · rfl
  | refused => rfl
  | crashed => exact .inr ⟨false, rfl⟩

/-- Without a last chunk, however closing the link goes. -/
theorem resolves_discard (h : resolved = [.learned] ∨ resolved = [.checked true]) (s : Session σ) :
    s.discard.closing.Resolves resolved := by
  obtain ⟨-, hv⟩ | ⟨_, -, hv⟩ := s.discard_cases <;> rw [hv]
  · exact h
  · exact h.imp_right fun h => ⟨true, h⟩

theorem resolves_writePayload (s : Session σ) (o : Outcome) :
    (s.writePayload o).closing.Resolves [.checked false] := by
  unfold Session.writePayload
  rcases s.startCall (.write o.payload) with ⟨v, r | n⟩
  · exact v.resolves_afterPayload r
  · rfl

/-- With the outcome, the look at the scope decides. -/
theorem resolves_afterStop (s : Session σ) (o : Outcome) :
    (s.afterStop (some o)).closing.Resolves [.checked s.isDisposed] := by
  rw [Session.afterStop]
  split
  · rename_i hd
    rw [hd]
    exact s.resolves_discard (.inr rfl)
  · rename_i hd
    rw [Bool.eq_false_iff.2 hd]
    exact s.resolves_writePayload o

theorem stopBeat_eq (s : Session σ) (held : Option Outcome) :
    s.stopBeat held =
      if s.joined then s.cancel.afterStop held
      else if s.beat.isOver || s.patience.isZero then { s.cancel with joined := true }.afterStop held
      else { s.cancel with joined := true, closing := .stopping (s.patience.waitUntil s.now) held } :=
  rfl

/-- Without one, the session is ended. -/
theorem resolves_stopBeat_none (s : Session σ) :
    (s.stopBeat none).closing.Resolves [.learned] := by
  rw [stopBeat_eq]
  split
  · exact s.cancel.resolves_discard (.inl rfl)
  · split
    · exact Session.resolves_discard (.inl rfl) _
    · rfl

theorem resolves_stopBeat_some (s : Session σ) (o : Outcome) :
    (s.stopBeat (some o)).closing.Resolves
      (if s.stopsAtOnce then [.checked s.isDisposed] else []) := by
  rw [stopBeat_eq, stopsAtOnce, Bool.or_assoc]
  cases s.joined with
  | true => exact s.cancel.resolves_afterStop o
  | false =>
    cases s.beat.isOver || s.patience.isZero with
    | true => exact Session.resolves_afterStop { s.cancel with joined := true } o
    | false => rfl

theorem askOutcome_some {o : Outcome} (ho : s.desk.promise.stage.outcome? = some o)
    (isFresh : Bool) : s.askOutcome isFresh =
      { s with desk.promise := s.desk.promise.poll.1 }.stopBeat (some o) := by
  obtain ⟨hout, -⟩ := s.desk.promise.poll_outcome
  unfold Session.askOutcome
  rw [show s.desk.promise.poll = (s.desk.promise.poll.1, some o) from
    Prod.ext rfl (hout.trans ho)]

theorem askOutcome_none (ho : s.desk.promise.stage.outcome? = none) (isFresh : Bool) :
    s.askOutcome isFresh =
      if s.tellsDisposed isFresh then
        { s with desk.promise := s.desk.promise.poll.1 }.stopBeat none
      else { s with desk.promise := s.desk.promise.poll.1, closing := .waiting } := by
  obtain ⟨hout, -⟩ := s.desk.promise.poll_outcome
  unfold Session.askOutcome
  rw [show s.desk.promise.poll = (s.desk.promise.poll.1, none) from Prod.ext rfl (hout.trans ho)]
  rfl

theorem resolves_askOutcome (s : Session σ) (isFresh : Bool) :
    (s.askOutcome isFresh).closing.Resolves (s.askResolution isFresh) := by
  unfold Session.askResolution
  split
  · rename_i o ho
    rw [askOutcome_some ho]
    exact resolves_stopBeat_some _ o
  · rename_i ho
    rw [askOutcome_none ho]
    split
    · exact resolves_stopBeat_none _
    · rfl

/-- **The closing's turn**: its phase shows what it resolved. -/
theorem resolves_pollClosing (h : s.closing.Resolves resolved) :
    s.pollClosing.closing.Resolves (resolved ++ s.resolution .closing) := by
  have hsame {k : Closing} (hk : s.closing = k) (hr : s.resolution .closing = [])
      {v : Session σ} (hv : v.closing = k) : v.closing.Resolves (resolved ++ s.resolution .closing) := by
    rw [hr, List.append_nil, hv, ← hk]
    exact h
  unfold Session.pollClosing
  split
  · rename_i hk
    rw [hk] at h
    obtain rfl : resolved = [] := h
    rw [List.nil_append, resolution, hk]
    exact s.resolves_askOutcome true
  · rename_i hk
    rw [hk] at h
    obtain rfl : resolved = [] := h
    rw [List.nil_append, resolution, hk]
    exact s.resolves_askOutcome false
  · rename_i hk
    rw [hk] at h
    cases h
  · rename_i deadline held hk
    cases held with
    | none =>
      have hr : s.resolution .closing = [] := by simp [resolution, hk]
      split
      · rw [hk] at h
        obtain rfl : resolved = [.learned] := h
        rw [hr]
        exact s.resolves_discard (.inl rfl)
      · exact hsame hk hr hk
    | some o =>
      rw [hk] at h
      obtain rfl : resolved = [] := h
      rw [List.nil_append, resolution, hk]
      dsimp only
      split
      · rename_i hd
        exact s.resolves_afterStop o
      · rw [hk]
        rfl
  · rename_i ticket hk
    have hr : s.resolution .closing = [] := by simp [resolution, hk]
    rw [hk] at h
    obtain rfl : resolved = [.checked false] := h
    rw [hr]
    rcases hp : s.pollCall ticket with ⟨v, _ | r⟩
    · have hv : v.closing = s.closing := (congrArg (fun x => x.1.closing) hp).symm
      show v.closing.Resolves _
      rw [hv, hk]
      rfl
    · exact v.resolves_afterPayload r
  · rename_i ticket hk
    have hr : s.resolution .closing = [] := by simp [resolution, hk]
    rw [hk] at h
    obtain rfl : resolved = [.checked false] := h
    rw [hr]
    rcases hp : s.pollCall ticket with ⟨v, _ | r⟩
    · have hv : v.closing = s.closing := (congrArg (fun x => x.1.closing) hp).symm
      show v.closing.Resolves _
      rw [hv, hk]
      rfl
    · exact v.resolves_afterFinish r
  all_goals
    rename_i hk
    exact hsame hk (by simp [resolution, hk]) hk

/-! ### The other tasks -/

/-- Nothing but the desk and the beat **has changed**. -/
def ChangesBeat (s v : Session σ) : Prop :=
  ∃ desk beat beats, v = { s with desk, beat, beats }

omit [Link σ] in
theorem ChangesBeat.refl (s : Session σ) : s.ChangesBeat s :=
  ⟨s.desk, s.beat, s.beats, rfl⟩

omit [Link σ] in
theorem ChangesBeat.trans {u v : Session σ} (h : s.ChangesBeat u) (k : u.ChangesBeat v) :
    s.ChangesBeat v := by
  obtain ⟨_, _, _, rfl⟩ := h
  obtain ⟨desk, beat, beats, rfl⟩ := k
  exact ⟨desk, beat, beats, rfl⟩

theorem changesBeat_afterBeat (s : Session σ) (r : Reply) : s.ChangesBeat (s.afterBeat r) := by
  cases r <;> exact ⟨_, _, _, rfl⟩

theorem changesBeat_startCall (s : Session σ) (call : Call) :
    s.ChangesBeat (s.startCall call).1 :=
  ⟨_, s.beat, s.beats, rfl⟩

theorem changesBeat_pollCall (s : Session σ) (ticket : Nat) :
    s.ChangesBeat (s.pollCall ticket).1 :=
  ⟨_, s.beat, s.beats, rfl⟩

theorem changesBeat_writeBeat (s : Session σ) : s.ChangesBeat s.writeBeat := by
  have hstart := s.changesBeat_startCall (.write beatChunk)
  unfold Session.writeBeat
  rcases hs : s.startCall (.write beatChunk) with ⟨v, r | n⟩ <;> rw [hs] at hstart
  · exact hstart.trans (v.changesBeat_afterBeat r)
  · exact hstart.trans ⟨_, _, _, rfl⟩

theorem changesBeat_stepBeat (s : Session σ) : s.ChangesBeat s.stepBeat := by
  unfold Session.stepBeat
  split
  · exact ⟨_, _, _, rfl⟩
  · split
    · exact ⟨_, _, _, rfl⟩
    · split
      · exact s.changesBeat_writeBeat
      · exact .refl s
  · rename_i ticket _
    have hasked := s.changesBeat_pollCall ticket
    rcases hp : s.pollCall ticket with ⟨v, _ | r⟩ <;> rw [hp] at hasked
    · exact hasked
    · exact hasked.trans (v.changesBeat_afterBeat r)
  · exact .refl s
  · exact .refl s

theorem changesBeat_stepBeatFor (s : Session σ) (n : Nat) : s.ChangesBeat (s.stepBeatFor n) := by
  induction n generalizing s with
  | zero => exact .refl s
  | succ n ih =>
    rw [Session.stepBeatFor]
    split
    · exact s.changesBeat_stepBeat.trans (ih _)
    · exact .refl s

/-- **The beat's turn** changes nothing else. -/
theorem changesBeat_pollBeat (s : Session σ) : s.ChangesBeat s.pollBeat := by
  unfold Session.pollBeat
  split
  · have hrest : s.ChangesBeat s.rest := ⟨_, _, _, rfl⟩
    exact hrest.trans (s.rest.changesBeat_stepBeatFor _)
  · exact s.changesBeat_stepBeatFor _

/-- Only the closing's own turn changes its phase. -/
theorem closing_poll (s : Session σ) {t : Task} (ht : t ≠ .closing) :
    (s.poll t).closing = s.closing := by
  cases t with
  | closing => exact absurd rfl ht
  | beat =>
    show s.pollBeat.closing = s.closing
    obtain ⟨desk, beat, beats, h⟩ := s.changesBeat_pollBeat
    rw [h]
  | watcher =>
    show s.pollWatcher.closing = s.closing
    unfold Session.pollWatcher Session.watch
    split <;> first | rfl | skip
    all_goals
      split
      · rfl
      · split <;> rfl
  | stop i =>
    show (s.pollStop i).closing = s.closing
    unfold Session.pollStop
    split
    · split <;> rfl
    · rfl

theorem resolves_poll (h : s.closing.Resolves resolved) (t : Task) :
    (s.poll t).closing.Resolves (resolved ++ s.resolution t) := by
  by_cases ht : t = .closing
  · rw [ht]
    exact resolves_pollClosing h
  · have hr : s.resolution t = [] := by
      cases t <;> first | rfl | exact absurd rfl ht
    rw [hr, List.append_nil, closing_poll s ht]
    exact h

end Session

/-! ### Histories -/

/-- **What happened** in a session so far. -/
structure History where
  /-- The clean-ups that were queued, in the order in which they came. -/
  queued : List Cleanup
  /-- The clean-ups that disposals ran, in this order. -/
  ran : List Cleanup := []
  /-- How the closing made up its mind. -/
  resolved : List Resolution := []

/-- The history of **a program**: what it queues, and what its disposals run.  A clean-up that comes
too late is not queued. -/
def Desk.follow {ω : Type} [Surroundings ω] : Program → Desk ω → History → History
  | .finish _, _, h | .crash _, _, h => h
  | .deliver o next, d, h => follow (next (d.deliver o).2) (d.deliver o).1 h
  | .keep next, d, h => follow next d.keep h
  | .release next, d, h => follow next d.release h
  | .inspect next, d, h => follow (next d.view) d h
  | .register cleanup next, d, h =>
    if d.scope.isDisposed then follow (next false) (d.run cleanup).1 h
    else follow (next true) (d.push (.program cleanup))
      { h with queued := h.queued ++ [.program cleanup] }
  | .dispose next, d, h =>
    follow (next d.dispose.2) d.dispose.1 { h with ran := h.ran ++ d.disposal }
  | .note text next, d, h => follow next (d.note text) h

/-- A program resolves nothing. -/
theorem Desk.resolved_follow {ω : Type} [Surroundings ω] (p : Program) (d : Desk ω) (h : History) :
    (Desk.follow p d h).resolved = h.resolved := by
  induction p generalizing d h with
  | finish | crash => rfl
  | deliver o next ih => exact ih _ _ _
  | keep next ih => exact ih _ _
  | release next ih => exact ih _ _
  | inspect next ih => exact ih _ _ _
  | register cleanup next _ ih =>
    rw [Desk.follow]
    split
    · exact ih false _ _
    · exact ih true _ _
  | dispose next ih => exact ih _ _ _
  | note text next ih => exact ih _ _

/-- What is to be run next of a disposal from outside. -/
def Outside.next : Outside → List Cleanup
  | .draining (k :: _) => [k]
  | _ => []

namespace Scene

variable {σ : Type} [Link σ]

/-- The desk on which the handler of a session is executed: the closing of the link and the
cancelling of the beat are queued already. -/
def openingDesk (l : σ) (now id : Nat) (p : Prepared) : Desk (Line (Recorded σ)) where
  scope := { id, label := labelOf p, queue := [.closeLink, .cancelBeat] }
  around := { now, link := { link := l } }

/-- The history of a session that was **started**. -/
def opening (l : σ) (now id : Nat) (p : Prepared) : History :=
  Desk.follow p.program (openingDesk l now id p) { queued := [.closeLink, .cancelBeat] }

/-- **The history of a step.** -/
def Extends (c : Scene σ) (h : History) (v : Scene σ) (k : History) : Deed σ → Prop
  | .poll t => ∃ ds, c.session.Leads ds v.session ∧
      k = { h with
        ran := h.ran ++ ds.flatMap Desk.disposal
        resolved := h.resolved ++ c.session.resolution t }
  | .push p => k = { h with queued := h.queued ++ [.program p] }
  | .clean => k = { h with ran := h.ran ++ c.outside.next }
  | _ => k = h

/-- **The history of a run** of a session that was started. -/
inductive Told (l : σ) (now id : Nat) (interval : Span) (p : Prepared) : Scene σ → History → Prop
  | start : Told l now id interval p (launch l now id interval p) (opening l now id p)
  | step {c v : Scene σ} {h k : History} (ht : Told l now id interval p c h) (d : Deed σ)
      (hs : c.step d = some v) (hk : c.Extends h v k d) : Told l now id interval p v k

variable {l : σ} {now id : Nat} {interval : Span} {p : Prepared} {always : Scene σ → Prop}
  {c v : Scene σ} {h k : History}

/-- What is told of is a run. -/
theorem Told.reachable (ht : Told l now id interval p c h) :
    Reachable (launch l now id interval p) (fun _ => True) c := by
  induction ht with
  | start => exact .start trivial
  | step _ d hs _ ih => exact ih.step d hs trivial

/-- Every step has a history. -/
theorem exists_extends (h : History) {d : Deed σ} (hs : c.step d = some v) :
    ∃ k, c.Extends h v k d := by
  cases d with
  | poll t =>
    cases hs
    obtain ⟨ran, hl⟩ := leads_poll c.session t
    exact ⟨_, ran, hl, rfl⟩
  | _ => exact ⟨_, rfl⟩

/-- **Every run has a history.** -/
theorem Reachable.exists_told (hc : Reachable (launch l now id interval p) always c) :
    ∃ h, Told l now id interval p c h := by
  induction hc with
  | start => exact ⟨_, .start⟩
  | step _ d hs _ ih =>
    obtain ⟨h, ht⟩ := ih
    obtain ⟨k, hk⟩ := exists_extends h hs
    exact ⟨k, ht.step d hs hk⟩

end Scene

/-! ### What is left of the history -/

section Logs

variable {σ : Type} [Link σ] {s v : Session (Recorded σ)} {ds : List (Desk (Line (Recorded σ)))}

theorem Session.exists_log_startCall (s : Session (Recorded σ)) (call : Call) :
    ∃ es, (s.startCall call).1.link.log = s.link.log ++ es := by
  obtain ⟨_, -, ⟨link, r, h⟩ | ⟨link, ticket, h⟩⟩ := s.startCall_cases call <;> rw [h] <;>
    exact ⟨_, rfl⟩

theorem Session.exists_log_pollCall (s : Session (Recorded σ)) (number : Nat) :
    ∃ es, (s.pollCall number).1.link.log = s.link.log ++ es := by
  obtain ⟨link, h⟩ | ⟨link, r, h⟩ := s.pollCall_cases number <;> rw [h]
  · exact ⟨[], (List.append_nil _).symm⟩
  · exact ⟨_, rfl⟩

/-- Of a disposal's record nothing is lost. -/
theorem Desk.Leads.exists_log {d e : Desk (Line (Recorded σ))} (hd : d.Leads e) :
    ∃ es, e.around.link.log = d.around.link.log ++ es := by
  obtain ⟨ts, hlog, -⟩ := hd.record
  exact ⟨_, hlog⟩

/-- In a turn nothing of the record is lost. -/
theorem Session.Leads.exists_log (h : s.Leads ds v) : ∃ es, v.link.log = s.link.log ++ es := by
  have htrans {u w : Session (Recorded σ)} (hu : ∃ es, u.link.log = s.link.log ++ es)
      (hw : ∃ es, w.link.log = u.link.log ++ es) : ∃ es, w.link.log = s.link.log ++ es := by
    obtain ⟨es, hu⟩ := hu
    obtain ⟨fs, hw⟩ := hw
    exact ⟨es ++ fs, by rw [hw, hu, List.append_assoc]⟩
  induction h with
  | refl => exact ⟨[], (List.append_nil _).symm⟩
  | @start v _ _ call ih => exact htrans ih (v.exists_log_startCall call)
  | @ask v _ _ ticket ih => exact htrans ih (v.exists_log_pollCall ticket)
  | @closeLink v _ _ ih => exact htrans ih ⟨[.closed v.now _], rfl⟩
  | cancel | hear | turn => assumption
  | @dispose v _ _ ih => exact htrans ih (Desk.Leads.refl (d := v.desk)).dispose.exists_log

end Logs

/-- What the scope shows of **which clean-ups were queued and ran**, given how far a disposal from
outside has come. -/
def Outside.Agrees (scope : Scope Cleanup) (h : History) : Outside → Prop
  | .none =>
    (scope.isDisposed = false ∧ h.queued = scope.queue ∧ h.ran = []) ∨
    (scope.isDisposed = true ∧ scope.flag.called = true ∧ scope.queue = [] ∧
      h.ran = h.queued.reverse)
  | .raised => scope.isDisposed = true ∧ h.queued = scope.queue ∧ h.ran = []
  | .draining rest => scope.isDisposed = true ∧ scope.queue = [] ∧ h.ran ++ rest = h.queued.reverse

/-- **What the desk shows of the history.** -/
structure History.Fits {σ : Type} (outside : Outside) (d : Desk (Line (Recorded σ)))
    (h : History) : Prop where
  queued : ∃ ps : List Program, h.queued = .closeLink :: .cancelBeat :: ps.map .program
  agrees : outside.Agrees d.scope h
  shut : .closeLink ∈ h.ran → IsShut d.around.link.log

namespace History

variable {σ : Type} {outside : Outside} {d e : Desk (Line (Recorded σ))} {h : History}

/-- The scope stays, and of the record nothing is lost. -/
theorem Fits.of_scope (hf : h.Fits outside d) (hs : e.scope = d.scope)
    (hlog : ∃ es, e.around.link.log = d.around.link.log ++ es) : h.Fits outside e := by
  obtain ⟨es, hlog⟩ := hlog
  refine ⟨hf.queued, hs ▸ hf.agrees, fun hm => ?_⟩
  rw [hlog]
  exact (hf.shut hm).append es

/-- The resolutions are not about the scope. -/
theorem Fits.of_resolved (hf : h.Fits outside d) (resolved : List Resolution) :
    ({ h with resolved } : History).Fits outside d := by
  refine ⟨hf.queued, ?_, hf.shut⟩
  have ha := hf.agrees
  cases outside <;> exact ha

/-- A clean-up is **queued** before the clean-ups are taken. -/
theorem Fits.push (hf : h.Fits outside d) (p : Program)
    (hq : outside = .raised ∨ (outside = .none ∧ d.scope.isDisposed = false)) :
    ({ h with queued := h.queued ++ [.program p] } : History).Fits outside
      (d.push (.program p)) := by
  obtain ⟨ps, hps⟩ := hf.queued
  refine ⟨⟨ps ++ [p], ?_⟩, ?_, hf.shut⟩
  · rw [List.map_append]
    exact congrArg (· ++ [Cleanup.program p]) hps
  · have ha := hf.agrees
    rcases hq with rfl | ⟨rfl, hd⟩
    · obtain ⟨hd, hq, hr⟩ := ha
      exact ⟨hd, congrArg (· ++ [Cleanup.program p]) hq, hr⟩
    · rcases ha with ⟨-, hq, hr⟩ | ⟨hd', -⟩
      · exact .inl ⟨hd, congrArg (· ++ [Cleanup.program p]) hq, hr⟩
      · rw [hd] at hd'
        cases hd'

/-- While a disposal from outside goes on, the scope is disposed of. -/
theorem Fits.isDisposed (hf : h.Fits outside d) (ho : outside ≠ .none) :
    d.scope.isDisposed = true := by
  have ha := hf.agrees
  cases outside with
  | none => exact absurd rfl ho
  | raised | draining => exact ha.1

theorem Fits.outside_eq_none (hf : h.Fits outside d) (hd : d.scope.isDisposed = false) :
    outside = .none := by
  by_contra ho
  have hdisposed := hf.isDisposed ho
  rw [hd] at hdisposed
  cases hdisposed

/-- A disposal from outside **begins**. -/
theorem Fits.raise (hf : h.Fits outside d) (hd : d.scope.isDisposed = false) :
    h.Fits .raised { d with scope.flag.raised := true } := by
  obtain rfl := hf.outside_eq_none hd
  rcases hf.agrees with ⟨-, hq, hran⟩ | ⟨hdisposed, -⟩
  · exact ⟨hf.queued, ⟨rfl, hq, hran⟩, hf.shut⟩
  · rw [hd] at hdisposed
    cases hdisposed

/-- It **takes** what was queued. -/
theorem Fits.take (hf : h.Fits .raised d) :
    h.Fits (.draining d.scope.takeQueue.2) { d with scope := d.scope.takeQueue.1 } := by
  obtain ⟨hd, hq, hran⟩ := hf.agrees
  refine ⟨hf.queued, ⟨hd, rfl, ?_⟩, hf.shut⟩
  rw [hran, hq]
  rfl

/-- When it has run the last clean-up, it **ends**. -/
theorem Fits.announce (hf : h.Fits (.draining []) d) : h.Fits .none d.announce := by
  obtain ⟨hd, hq, hran⟩ := hf.agrees
  rw [List.append_nil] at hran
  exact ⟨hf.queued, .inr ⟨hd, rfl, hq, hran⟩, hf.shut⟩

variable [Link σ]

/-- The clean-up that closes the link closes it. -/
theorem isShut_runCleanups {ks : List Cleanup} (hk : .closeLink ∈ ks)
    (d : Desk (Line (Recorded σ))) :
    IsShut (ks.foldl Desk.runCleanup d).around.link.log := by
  induction ks generalizing d with
  | nil => cases hk
  | cons k ks ih =>
    rcases List.mem_cons.1 hk with rfl | hk
    · obtain ⟨es, hlog⟩ := ((Desk.Leads.refl (d := d.runCleanup .closeLink)).runCleanups ks).exists_log
      have hshut : IsShut (d.runCleanup .closeLink).around.link.log :=
        ⟨d.around.now, _, List.mem_append_right _ (List.mem_singleton_self _)⟩
      rw [List.foldl_cons, hlog]
      exact hshut.append es
    · exact ih hk _

/-- What a disposal runs closes the link, if it was to. -/
theorem isShut_dispose (d : Desk (Line (Recorded σ))) (hk : .closeLink ∈ d.disposal) :
    IsShut d.dispose.1.around.link.log := by
  rcases d.begin_cases with ⟨hd, -⟩ | ⟨hd, hb⟩
  · rw [Desk.disposal_eq, if_pos hd] at hk
    cases hk
  · rw [Desk.disposal_eq, hd, if_neg Bool.false_ne_true] at hk
    rw [Desk.dispose, hb]
    exact isShut_runCleanups hk _

/-- A disposal from outside **runs the next clean-up**. -/
theorem Fits.clean {k : Cleanup} {rest : List Cleanup} (hf : h.Fits (.draining (k :: rest)) d) :
    ({ h with ran := h.ran ++ [k] } : History).Fits (.draining rest) (d.runCleanup k) := by
  obtain ⟨hd, hq, hran⟩ := hf.agrees
  refine ⟨hf.queued, ?_, fun hm => ?_⟩
  · -- The scope is disposed of, so nothing that the clean-up queues gets into it.
    show Outside.Agrees (d.runCleanup k).scope _ (.draining rest)
    rw [Desk.scope_runCleanup k hd]
    refine ⟨hd, hq, ?_⟩
    rw [← hran, List.append_assoc]
    rfl
  · rcases List.mem_append.1 hm with hm | hm
    · obtain ⟨es, hlog⟩ := (Desk.Leads.refl (d := d)).runCleanup k |>.exists_log
      rw [hlog]
      exact (hf.shut hm).append es
    · exact isShut_runCleanups hm d

/-- **A disposal** runs what was queued, from last to first. -/
theorem Fits.dispose (hf : h.Fits .none d) :
    ({ h with ran := h.ran ++ d.disposal } : History).Fits .none d.dispose.1 := by
  rcases hf.agrees with ⟨hd, hq, hr⟩ | ⟨hd, -⟩
  · obtain ⟨hdisposed, hcalled, hqueue⟩ := Desk.scope_dispose hd
    refine ⟨hf.queued, .inr ⟨hdisposed, hcalled, hqueue, ?_⟩, fun hm => ?_⟩
    · show h.ran ++ d.disposal = h.queued.reverse
      rw [hr, hq, Desk.disposal_eq, hd]
      rfl
    · refine isShut_dispose d ?_
      rw [hr] at hm
      exact hm
  · rw [Desk.dispose_of_isDisposed hd, Desk.disposal_eq, if_pos hd, List.append_nil]
    exact hf

/-- **A program** keeps what the desk shows. -/
theorem Fits.interpret (p : Program) (hf : h.Fits .none d) :
    (Desk.follow p d h).Fits .none (d.run p).1 := by
  unfold Desk.run
  induction p generalizing d h with
  | finish | crash => exact hf
  | deliver o next ih => exact ih _ (hf.of_scope rfl ⟨[], (List.append_nil _).symm⟩)
  | keep next ih => exact ih (hf.of_scope rfl ⟨[], (List.append_nil _).symm⟩)
  | release next ih => exact ih (hf.of_scope rfl ⟨[], (List.append_nil _).symm⟩)
  | inspect next ih => exact ih _ hf
  | register cleanup next _ ih =>
    rw [Desk.interpret, Desk.follow]
    split
    · rename_i hd
      refine ih false (hf.of_scope ?_ (Desk.Leads.refl.run cleanup).exists_log)
      exact Desk.scope_interpret_of_isDisposed
        (fun e he => by rw [Desk.dispose_of_isDisposed he]) cleanup hd
    · rename_i hd
      exact ih true (hf.push cleanup (.inr ⟨rfl, Bool.eq_false_iff.2 hd⟩))
  | dispose next ih => exact ih _ hf.dispose
  | note text next ih => exact ih (hf.of_scope rfl ⟨[], (List.append_nil _).symm⟩)

/-- **A handler** keeps it. -/
theorem Fits.execute (name : String) (p : Program) (hf : h.Fits .none d) :
    (Desk.follow p d h).Fits .none (d.execute name p).1 := by
  have hrun := hf.interpret p
  unfold Desk.execute
  split
  · rename_i e remark he
    rw [he] at hrun
    exact hrun.of_scope rfl ⟨[], (List.append_nil _).symm⟩
  · rename_i e c he
    rw [he] at hrun
    exact hrun.of_scope rfl ⟨[], (List.append_nil _).symm⟩

/-- **A task's turn** keeps it, as long as no disposal from outside goes on. -/
theorem Fits.leads {s v : Session (Recorded σ)} {ds : List (Desk (Line (Recorded σ)))}
    (hl : s.Leads ds v) (hf : h.Fits .none s.desk) :
    ({ h with ran := h.ran ++ ds.flatMap Desk.disposal } : History).Fits .none v.desk := by
  induction hl with
  | refl =>
    rw [List.flatMap_nil, List.append_nil]
    exact hf
  | @start v _ _ call ih => exact ih.of_scope rfl (v.exists_log_startCall call)
  | @ask v _ _ ticket ih => exact ih.of_scope rfl (v.exists_log_pollCall ticket)
  | @closeLink v _ _ ih => exact ih.of_scope rfl ⟨[.closed v.now _], rfl⟩
  | cancel _ ih | hear _ ih | turn _ _ _ _ _ _ _ ih =>
    exact ih.of_scope rfl ⟨[], (List.append_nil _).symm⟩
  | dispose _ ih =>
    rw [List.flatMap_append, List.flatMap_singleton, ← List.append_assoc]
    exact ih.dispose

/-- **A turn beside a disposal from outside** changes nothing of it. -/
theorem Fits.leads_of_isDisposed {s v : Session (Recorded σ)}
    {ds : List (Desk (Line (Recorded σ)))} (hl : s.Leads ds v) (hf : h.Fits outside s.desk)
    (hd : s.isDisposed = true) :
    ({ h with ran := h.ran ++ ds.flatMap Desk.disposal } : History).Fits outside v.desk := by
  rcases hl.scope with ⟨hs, hran⟩ | ⟨hs, -⟩
  · rw [hran, List.append_nil]
    exact hf.of_scope hs hl.exists_log
  · rw [hd] at hs
    cases hs

end History

namespace Scene

variable {σ : Type} [Link σ] {l : σ} {now id : Nat} {interval : Span} {p : Prepared} {c v : Scene σ}
  {h k : History}

/-- A session starts with what its scope shows of its history. -/
theorem fits_opening (l : σ) (now id : Nat) (interval : Span) (p : Prepared) :
    (opening l now id p).Fits .none (launch l now id interval p).session.desk := by
  have hopen : ({ queued := [.closeLink, .cancelBeat] } : History).Fits .none
      (openingDesk l now id p) :=
    ⟨⟨[], rfl⟩, .inl ⟨rfl, rfl, rfl⟩, fun hm => nomatch hm⟩
  exact hopen.execute p.name p.program

/-- **A step** keeps what the desk shows of the history. -/
theorem fits_step {d : Deed σ} (hf : h.Fits c.outside c.session.desk) (hs : c.step d = some v)
    (hk : c.Extends h v k d) : k.Fits v.outside v.session.desk := by
  have hnone : ∃ es, c.session.desk.around.link.log = c.session.desk.around.link.log ++ es :=
    ⟨[], (List.append_nil _).symm⟩
  cases d with
  | poll t =>
    cases hs
    obtain ⟨ds, hl, rfl⟩ := hk
    have hran : ({ h with ran := h.ran ++ ds.flatMap Desk.disposal } : History).Fits c.outside
        (c.session.poll t).desk := by
      by_cases ho : c.outside = .none
      · rw [ho] at hf ⊢
        exact hf.leads hl
      · exact hf.leads_of_isDisposed hl (hf.isDisposed ho)
    exact hran.of_resolved _
  | tick t =>
    cases hk
    rw [step] at hs
    split at hs <;> cases hs
    exact hf.of_scope rfl hnone
  | link l | claim o | send | share | release | cancel =>
    cases hk
    cases hs
    exact hf.of_scope rfl hnone
  | push p =>
    cases hk
    rw [step] at hs
    split at hs <;> cases hs
    rename_i hq
    have hqueueing : c.outside = .raised ∨ c.session.desk.scope.isDisposed = false := by
      cases hout : c.outside with
      | raised => exact .inl rfl
      | none | draining =>
        right
        simpa [isQueueing, Session.isDisposed, hout] using hq
    exact hf.push p (hqueueing.imp_right fun hd => ⟨hf.outside_eq_none hd, hd⟩)
  | runHere p =>
    cases hk
    rw [step] at hs
    split at hs <;> cases hs
    rename_i hd
    exact hf.of_scope (Desk.scope_runCleanup _ hd) (Desk.Leads.refl.runCleanup _).exists_log
  | raise =>
    cases hk
    rw [step] at hs
    split at hs <;> cases hs
    rename_i scope hr
    obtain rfl : { c.session.desk.scope with flag.raised := true } = scope := congrArg Prod.fst hr
    have hfirst : (!c.session.desk.scope.isDisposed) = true := congrArg Prod.snd hr
    exact hf.raise (by simpa using hfirst)
  | take =>
    cases hk
    rw [step] at hs
    split at hs <;> cases hs
    rename_i hout
    rw [hout] at hf
    exact hf.take
  | clean =>
    rw [step] at hs
    split at hs <;> cases hs
    rename_i k₀ rest hout
    rw [Extends, hout] at hk
    rw [hout] at hf
    cases hk
    exact hf.clean
  | announce =>
    cases hk
    rw [step] at hs
    split at hs <;> cases hs
    rename_i hout
    rw [hout] at hf
    exact hf.announce

/-- Only the turns of the closing resolve anything. -/
theorem resolves_step {d : Deed σ} (hr : c.session.closing.Resolves h.resolved)
    (hs : c.step d = some v) (hk : c.Extends h v k d) :
    v.session.closing.Resolves k.resolved := by
  cases d with
  | poll t =>
    cases hs
    obtain ⟨ds, -, rfl⟩ := hk
    exact resolves_poll hr t
  | push p =>
    cases hk
    rw [step] at hs
    split at hs <;> cases hs
    exact hr
  | clean =>
    cases hk
    rw [step] at hs
    split at hs <;> cases hs
    exact hr
  | tick | runHere | raise | take | announce =>
    cases hk
    rw [step] at hs
    split at hs <;> cases hs
    exact hr
  | link | claim | send | share | release | cancel =>
    cases hk
    cases hs
    exact hr

/-- **What a session shows of its history.** -/
theorem Told.fits (ht : Told l now id interval p c h) :
    h.Fits c.outside c.session.desk ∧ c.session.closing.Resolves h.resolved := by
  induction ht with
  | start =>
    exact ⟨fits_opening l now id interval p, Desk.resolved_follow p.program _ _⟩
  | step _ d hs hk ih => exact ⟨fits_step ih.1 hs hk, resolves_step ih.2 hs hk⟩

end Scene

end HeldReply
