import HeldReply.Proofs.Session.Scene

/-!
# What a turn is made of

The turn of a task is made of a few primitive steps: calls on the link, the cancelling of the beat,
a question to the promise, a disposal, and a new phase of the task.  A program is made of answers,
callbacks kept and let go, notes and clean-ups queued, and a disposal runs the queue from last to
first.  What each primitive step keeps, every turn and every program keeps.

* `Desk.disposal` — what a disposal **runs**;
* `Desk.Leads`, `Desk.leads_interpret`, `Desk.leads_dispose` — the steps of a program and of a
  disposal;
* `Session.Leads`, `Session.leads_poll` — the steps of a task, and where it called for disposals.
-/

namespace HeldReply

/-! ### Programs -/

namespace Desk

variable {ω : Type} [Surroundings ω] {d e f : Desk ω}

/-- What a disposal **runs**, in this order: nothing, if there was one already. -/
def disposal (d : Desk ω) : List Cleanup :=
  match d.begin with
  | some (_, cleanups) => cleanups
  | none => []

/-- **What a desk becomes** by the steps of programs and disposals. -/
inductive Leads (d : Desk ω) : Desk ω → Prop
  | refl : Leads d d
  | deliver {e : Desk ω} (h : Leads d e) (o : Outcome) : Leads d (e.deliver o).1
  | keep {e : Desk ω} (h : Leads d e) : Leads d e.keep
  | release {e : Desk ω} (h : Leads d e) : Leads d e.release
  | note {e : Desk ω} (h : Leads d e) (text : String) : Leads d (e.note text)
  | push {e : Desk ω} (h : Leads d e) (p : Program) (hq : e.scope.isDisposed = false) :
      Leads d (e.push (.program p))
  | closeLink {e : Desk ω} (h : Leads d e) :
      Leads d { e with around := Surroundings.closeLink e.around }
  | cancelBeat {e : Desk ω} (h : Leads d e) :
      Leads d { e with around := Surroundings.cancelBeat e.around }
  | begin {e f : Desk ω} {cleanups : List Cleanup} (h : Leads d e)
      (hb : e.begin = some (f, cleanups)) : Leads d f
  | announce {e : Desk ω} (h : Leads d e) (hd : e.scope.isDisposed = true) : Leads d e.announce

omit [Surroundings ω] in
/-- A disposal begins only once, and takes all clean-ups that are queued. -/
theorem begin_cases (d : Desk ω) :
    (d.scope.isDisposed = true ∧ d.begin = none) ∨
    (d.scope.isDisposed = false ∧ d.begin = some
      ({ d with scope := { d.scope with flag := { d.scope.flag with raised := true }, queue := [] } },
        d.scope.queue.reverse)) := by
  cases h : d.scope.flag.raised with
  | true => exact .inl ⟨h, by simp [Desk.begin, Scope.begin, Scope.raise, Flag.raise, h]⟩
  | false =>
    refine .inr ⟨h, ?_⟩
    simp [Desk.begin, Scope.begin, Scope.raise, Flag.raise, Scope.takeQueue, h]

omit [Surroundings ω] in
/-- A disposal that begins. -/
theorem of_begin {ks : List Cleanup} (h : d.begin = some (e, ks)) :
    d.scope.isDisposed = false ∧ ks = d.scope.queue.reverse ∧ e = { d with
      scope := { d.scope with flag := { d.scope.flag with raised := true }, queue := [] } } := by
  rcases d.begin_cases with ⟨-, hb⟩ | ⟨hd, hb⟩
  · rw [h] at hb
    cases hb
  · rw [h, Option.some.injEq, Prod.mk.injEq] at hb
    exact ⟨hd, hb.2, hb.1⟩

omit [Surroundings ω] in
theorem disposal_eq (d : Desk ω) :
    d.disposal = if d.scope.isDisposed then [] else d.scope.queue.reverse := by
  unfold disposal
  rcases d.begin_cases with ⟨h, hb⟩ | ⟨h, hb⟩ <;> simp [h, hb]

/-- A scope that is disposed of can be disposed of no more. -/
theorem dispose_of_isDisposed (h : d.scope.isDisposed = true) : d.dispose = (d, false) := by
  rcases d.begin_cases with ⟨-, hb⟩ | ⟨hn, -⟩
  · simp only [dispose, hb]
  · rw [h] at hn
    cases hn

/-- **A program** is made of such steps, if the disposals it calls for are. -/
theorem Leads.interpret {dispose : Desk ω → Desk ω × Bool}
    (hd : ∀ e, Leads d e → Leads d (dispose e).1) (p : Program) (h : Leads d e) :
    Leads d (interpret dispose p e).1 := by
  induction p generalizing e with
  | finish | crash => exact h
  | deliver o next ih => exact ih _ (h.deliver o)
  | keep next ih => exact ih h.keep
  | release next ih => exact ih h.release
  | inspect next ih => exact ih _ h
  | register cleanup next ihc ihn =>
    rw [Desk.interpret]
    split
    · exact ihn _ (ihc h)
    · rename_i hq
      exact ihn _ (h.push cleanup (by simpa using hq))
  | dispose next ih => exact ih _ (hd e h)
  | note text next ih => exact ih (h.note text)

theorem Leads.runCleanup (h : Leads d e) (k : Cleanup) : Leads d (e.runCleanup k) := by
  cases k with
  | closeLink => exact h.closeLink
  | cancelBeat => exact h.cancelBeat
  | program p => exact h.interpret (fun _ h => h) p

theorem Leads.runCleanups (h : Leads d e) (ks : List Cleanup) :
    Leads d (ks.foldl Desk.runCleanup e) := by
  induction ks generalizing e with
  | nil => exact h
  | cons k ks ih => exact ih (h.runCleanup k)

/-- The clean-ups of a scope that is disposed of leave it as it is. -/
theorem scope_interpret_of_isDisposed {dispose : Desk ω → Desk ω × Bool}
    (hd : ∀ e, e.scope.isDisposed = true → (dispose e).1.scope = e.scope) (p : Program)
    (h : e.scope.isDisposed = true) : (interpret dispose p e).1.scope = e.scope := by
  induction p generalizing e with
  | finish | crash => rfl
  | deliver o next ih => exact ih _ (e := (e.deliver o).1) h
  | keep next ih => exact ih (e := e.keep) h
  | release next ih => exact ih (e := e.release) h
  | inspect next ih => exact ih _ h
  | register cleanup next ihc ihn =>
    have hc := ihc h
    rw [interpret, if_pos h]
    refine (ihn _ ?_).trans hc
    rw [hc]
    exact h
  | dispose next ih =>
    have hs := hd e h
    refine (ih _ ?_).trans hs
    rw [hs]
    exact h
  | note text next ih => exact ih (e := e.note text) h

theorem scope_runCleanup (k : Cleanup) (h : e.scope.isDisposed = true) :
    (e.runCleanup k).scope = e.scope := by
  cases k with
  | closeLink | cancelBeat => rfl
  | program p => exact scope_interpret_of_isDisposed (fun _ _ => rfl) p h

theorem scope_runCleanups (ks : List Cleanup) (h : e.scope.isDisposed = true) :
    (ks.foldl Desk.runCleanup e).scope = e.scope := by
  induction ks generalizing e with
  | nil => rfl
  | cons k ks ih =>
    have hk := scope_runCleanup k h
    refine (ih ?_).trans hk
    rw [hk]
    exact h

/-- **A disposal** is made of such steps. -/
theorem Leads.dispose (h : Leads d e) : Leads d e.dispose.1 := by
  rcases e.begin_cases with ⟨hd, -⟩ | ⟨-, hb⟩
  · rw [dispose_of_isDisposed hd]
    exact h
  · rw [Desk.dispose, hb]
    refine ((h.begin hb).runCleanups _).announce ?_
    rw [Scope.isDisposed, scope_runCleanups _ rfl]

/-- **A disposal ends** with the flag up, the waiters called and nothing queued. -/
theorem scope_dispose (h : e.scope.isDisposed = false) :
    e.dispose.1.scope.isDisposed = true ∧ e.dispose.1.scope.flag.called = true ∧
      e.dispose.1.scope.queue = [] := by
  rcases e.begin_cases with ⟨hd, -⟩ | ⟨-, hb⟩
  · rw [h] at hd
    cases hd
  · rw [Desk.dispose, hb]
    simp only [announce, Scope.announce, Scope.isDisposed, Flag.call]
    rw [scope_runCleanups _ rfl]
    exact ⟨rfl, trivial, rfl⟩

/-- After a disposal the scope is disposed of, whoever did it. -/
theorem isDisposed_dispose (d : Desk ω) : d.dispose.1.scope.isDisposed = true := by
  cases hd : d.scope.isDisposed with
  | true => rw [dispose_of_isDisposed hd, hd]
  | false => exact (scope_dispose hd).1

theorem Leads.run (h : Leads d e) (p : Program) : Leads d (e.run p).1 :=
  h.interpret (fun _ h => h.dispose) p

/-- **A handler** is made of such steps. -/
theorem Leads.execute (h : Leads d e) (name : String) (p : Program) :
    Leads d (e.execute name p).1 := by
  have hrun := h.run p
  unfold Desk.execute
  split
  · rename_i f remark he
    rw [he] at hrun
    exact hrun.release
  · rename_i f c he
    rw [he] at hrun
    exact (hrun.deliver _).release

/-- A disposal that has begun is never taken back. -/
theorem Leads.isDisposed (h : Leads d e) (hd : d.scope.isDisposed = true) :
    e.scope.isDisposed = true := by
  induction h with
  | refl => exact hd
  | begin _ hb ih =>
    obtain ⟨-, -, rfl⟩ := of_begin hb
    rfl
  | deliver | keep | release | note | push | closeLink | cancelBeat | announce => assumption

/-- The outcome that counts stays. -/
theorem Leads.promise (h : Leads d e) : d.promise.Keeps e.promise := by
  induction h with
  | refl => exact .of_stage rfl
  | deliver _ o ih => exact ih.trans (Promise.keeps_deliver _ o)
  | keep _ ih => exact ih.trans (.of_stage rfl)
  | release _ ih => exact ih.trans (Promise.keeps_release _)
  | begin _ hb ih =>
    obtain ⟨-, -, rfl⟩ := of_begin hb
    exact ih
  | note | push | closeLink | cancelBeat | announce => assumption

/-- **What holds of the surroundings** holds on, if closing the link and cancelling the beat keep
it. -/
theorem Leads.around {P : ω → Prop} (hclose : ∀ a, P a → P (Surroundings.closeLink a))
    (hcancel : ∀ a, P a → P (Surroundings.cancelBeat a)) (h : Leads d e) (hd : P d.around) :
    P e.around := by
  induction h with
  | refl => exact hd
  | closeLink _ ih => exact hclose _ ih
  | cancelBeat _ ih => exact hcancel _ ih
  | begin _ hb ih =>
    obtain ⟨-, -, rfl⟩ := of_begin hb
    exact ih
  | deliver | keep | release | note | push | announce => assumption

end Desk

/-! ### Tasks -/

namespace Session

variable {σ : Type} [Link σ] {s v : Session σ} {ds : List (Desk (Line σ))}

/-- **What a session becomes** by the steps of its tasks; the desks are those on which it called for a
disposal on the way. -/
inductive Leads (s : Session σ) : List (Desk (Line σ)) → Session σ → Prop
  | refl : Leads s [] s
  | start {v : Session σ} {ds : List (Desk (Line σ))} (h : Leads s ds v) (call : Call) :
      Leads s ds (v.startCall call).1
  | ask {v : Session σ} {ds : List (Desk (Line σ))} (h : Leads s ds v) (ticket : Nat) :
      Leads s ds (v.pollCall ticket).1
  | closeLink {v : Session σ} {ds : List (Desk (Line σ))} (h : Leads s ds v) : Leads s ds v.closeLink.1
  | cancel {v : Session σ} {ds : List (Desk (Line σ))} (h : Leads s ds v) : Leads s ds v.cancel
  | hear {v : Session σ} {ds : List (Desk (Line σ))} (h : Leads s ds v) :
      Leads s ds { v with desk.promise := v.desk.promise.poll.1 }
  | dispose {v : Session σ} {ds : List (Desk (Line σ))} (h : Leads s ds v) :
      Leads s (ds ++ [v.desk]) v.dispose.1
  /-- The tasks are in other phases. -/
  | turn {v : Session σ} {ds : List (Desk (Line σ))} (h : Leads s ds v) (beat : Beat) (beats : Nat)
      (joined : Bool) (closing : Closing) (watcher : Watcher) (stops : List Stop) :
      Leads s ds { v with beat, beats, joined, closing, watcher, stops }

/-! #### The beat -/

theorem Leads.rest (h : s.Leads ds v) : s.Leads ds v.rest :=
  h.turn ..

theorem Leads.afterBeat (h : s.Leads ds v) (r : Reply) : ∃ ds, s.Leads ds (v.afterBeat r) := by
  cases r with
  | done => exact ⟨_, (h.turn v.beat (v.beats + 1) v.joined v.closing v.watcher v.stops).rest⟩
  | refused f => exact ⟨_, h.dispose.turn ..⟩
  | crashed c => exact ⟨_, h.turn ..⟩

theorem Leads.writeBeat (h : s.Leads ds v) : ∃ ds, s.Leads ds v.writeBeat := by
  have hs := h.start (.write beatChunk)
  unfold Session.writeBeat
  rcases hc : v.startCall (.write beatChunk) with ⟨w, r | ticket⟩ <;> rw [hc] at hs
  · exact hs.afterBeat r
  · exact ⟨_, hs.turn ..⟩

theorem Leads.stepBeat (h : s.Leads ds v) : ∃ ds, s.Leads ds v.stepBeat := by
  unfold Session.stepBeat
  split
  · exact ⟨_, h.rest⟩
  · split
    · exact ⟨_, h.turn ..⟩
    · split
      · exact h.writeBeat
      · exact ⟨_, h⟩
  · rename_i ticket _
    have hs := h.ask ticket
    rcases hp : v.pollCall ticket with ⟨w, _ | r⟩ <;> rw [hp] at hs
    · exact ⟨_, hs⟩
    · exact hs.afterBeat r
  · exact ⟨_, h⟩
  · exact ⟨_, h⟩

theorem Leads.stepBeatFor (h : s.Leads ds v) (n : Nat) : ∃ ds, s.Leads ds (v.stepBeatFor n) := by
  induction n generalizing v ds with
  | zero => exact ⟨_, h⟩
  | succ n ih =>
    rw [Session.stepBeatFor]
    split
    · obtain ⟨_, hs⟩ := h.stepBeat
      exact ih hs
    · exact ⟨_, h⟩

theorem Leads.pollBeat (h : s.Leads ds v) : ∃ ds, s.Leads ds v.pollBeat := by
  unfold Session.pollBeat
  split
  · exact h.rest.stepBeatFor _
  · exact h.stepBeatFor _

/-! #### The closing -/

theorem Leads.endWith (h : s.Leads ds v) (e : SessionEnd) : ∃ ds, s.Leads ds (v.endWith e) :=
  ⟨_, h.dispose.turn ..⟩

theorem Leads.afterFinish (h : s.Leads ds v) (r : Reply) : ∃ ds, s.Leads ds (v.afterFinish r) := by
  cases r with
  | done => exact h.endWith _
  | refused f => exact h.endWith _
  | crashed c => exact ⟨_, h.turn ..⟩

theorem Leads.afterPayload (h : s.Leads ds v) (r : Reply) :
    ∃ ds, s.Leads ds (v.afterPayload r) := by
  cases r with
  | done =>
    have hs := h.start .finish
    unfold Session.afterPayload
    rcases hc : v.startCall .finish with ⟨w, r | ticket⟩ <;> rw [hc] at hs
    · exact hs.afterFinish r
    · exact ⟨_, hs.turn ..⟩
  | refused f => exact h.endWith _
  | crashed c => exact ⟨_, h.turn ..⟩

theorem Leads.writePayload (h : s.Leads ds v) (o : Outcome) :
    ∃ ds, s.Leads ds (v.writePayload o) := by
  have hs := h.start (.write o.payload)
  unfold Session.writePayload
  rcases hc : v.startCall (.write o.payload) with ⟨w, r | ticket⟩ <;> rw [hc] at hs
  · exact hs.afterPayload r
  · exact ⟨_, hs.turn ..⟩

theorem Leads.discard (h : s.Leads ds v) : ∃ ds, s.Leads ds v.discard := by
  obtain ⟨-, hv⟩ | ⟨_, -, hv⟩ := v.discard_cases <;> rw [hv] <;>
    exact ⟨_, h.cancel.closeLink.turn ..⟩

theorem Leads.afterStop (h : s.Leads ds v) (held : Option Outcome) :
    ∃ ds, s.Leads ds (v.afterStop held) := by
  cases held with
  | none => exact h.discard
  | some o =>
    rw [Session.afterStop]
    split
    · exact h.discard
    · exact h.writePayload o

theorem Leads.stopBeat (h : s.Leads ds v) (held : Option Outcome) :
    ∃ ds, s.Leads ds (v.stopBeat held) := by
  have hj : s.Leads ds { v.cancel with joined := true } := h.cancel.turn ..
  unfold Session.stopBeat
  dsimp only
  split
  · exact h.cancel.afterStop held
  · split
    · exact hj.afterStop held
    · exact ⟨_, hj.turn ..⟩

theorem Leads.askOutcome (h : s.Leads ds v) (isFresh : Bool) :
    ∃ ds, s.Leads ds (v.askOutcome isFresh) := by
  have hs := h.hear
  unfold Session.askOutcome
  rcases hp : v.desk.promise.poll with ⟨q, _ | o⟩ <;> rw [hp] at hs
  · dsimp only
    split
    · exact hs.stopBeat none
    · exact ⟨_, hs.turn ..⟩
  · exact hs.stopBeat (some o)

theorem Leads.pollClosing (h : s.Leads ds v) : ∃ ds, s.Leads ds v.pollClosing := by
  unfold Session.pollClosing
  split
  · exact h.askOutcome true
  · exact h.askOutcome false
  · split
    · exact h.stopBeat _
    · exact ⟨_, h⟩
  · split
    · exact h.afterStop _
    · exact ⟨_, h⟩
  · rename_i ticket _
    have hs := h.ask ticket
    rcases hp : v.pollCall ticket with ⟨w, _ | r⟩ <;> rw [hp] at hs
    · exact ⟨_, hs⟩
    · exact hs.afterPayload r
  · rename_i ticket _
    have hs := h.ask ticket
    rcases hp : v.pollCall ticket with ⟨w, _ | r⟩ <;> rw [hp] at hs
    · exact ⟨_, hs⟩
    · exact hs.afterFinish r
  · exact ⟨_, h⟩
  · exact ⟨_, h⟩
  · exact ⟨_, h⟩

/-! #### All tasks -/

theorem Leads.watch (h : s.Leads ds v) (isFresh : Bool) : ∃ ds, s.Leads ds (v.watch isFresh) := by
  unfold Session.watch
  split
  · exact ⟨_, h.dispose.turn ..⟩
  · split <;> exact ⟨_, h.turn ..⟩

/-- **Every turn** is made of such steps. -/
theorem leads_poll (s : Session σ) (t : Task) : ∃ ds, s.Leads ds (s.poll t) := by
  cases t with
  | watcher =>
    show ∃ ds, s.Leads ds s.pollWatcher
    unfold pollWatcher
    split
    · exact Leads.refl.watch true
    · exact Leads.refl.watch false
    · exact ⟨_, .refl⟩
    · exact ⟨_, .refl⟩
  | beat => exact Leads.refl.pollBeat
  | closing => exact Leads.refl.pollClosing
  | stop i =>
    show ∃ ds, s.Leads ds (s.pollStop i)
    unfold pollStop
    split
    · split
      · exact ⟨_, Leads.refl.turn ..⟩
      · exact ⟨_, .refl⟩
    · exact ⟨_, .refl⟩

/-- **One disposal at most**: it runs what was queued before, and in the end the flag is up, the
waiters are called and nothing is queued.  Without one, the scope stays as it is. -/
theorem Leads.scope (h : s.Leads ds v) :
    (v.desk.scope = s.desk.scope ∧ ds.flatMap Desk.disposal = []) ∨
    (s.isDisposed = false ∧ v.isDisposed = true ∧ v.desk.scope.flag.called = true ∧
      v.desk.scope.queue = [] ∧ ds.flatMap Desk.disposal = s.desk.scope.queue.reverse) := by
  induction h with
  | refl => exact .inl ⟨rfl, rfl⟩
  | start | ask | closeLink | cancel | hear | turn => assumption
  | @dispose v ds _ ih =>
    rw [List.flatMap_append, List.flatMap_singleton]
    cases hd : v.isDisposed with
    | true =>
      have hnone : v.desk.disposal = [] := (Desk.disposal_eq _).trans (if_pos hd)
      have hsame : v.dispose.1.desk.scope = v.desk.scope := by
        show v.desk.dispose.1.scope = v.desk.scope
        rw [Desk.dispose_of_isDisposed hd]
      have hsame' : v.dispose.1.isDisposed = v.isDisposed := congrArg Scope.isDisposed hsame
      rw [hnone, List.append_nil, hsame, hsame', hd]
      rw [hd] at ih
      exact ih
    | false =>
      rcases ih with ⟨hs, hran⟩ | ⟨-, hv, -⟩
      · have hsd : s.isDisposed = false := (congrArg Scope.isDisposed hs).symm.trans hd
        obtain ⟨hdisposed, hcalled, hqueue⟩ := Desk.scope_dispose hd
        refine .inr ⟨hsd, hdisposed, hcalled, hqueue, ?_⟩
        rw [hran, Desk.disposal_eq, hs, List.nil_append]
        exact if_neg (Bool.eq_false_iff.1 hsd)
      · rw [hd] at hv
        cases hv

/-- A disposal that has begun is never taken back. -/
theorem Leads.isDisposed (h : s.Leads ds v) (hd : s.isDisposed = true) : v.isDisposed = true := by
  rcases h.scope with ⟨hs, -⟩ | ⟨-, hv, -⟩
  · exact (congrArg Scope.isDisposed hs).trans hd
  · exact hv

/-- The outcome that counts stays. -/
theorem Leads.promise (h : s.Leads ds v) : s.desk.promise.Keeps v.desk.promise := by
  induction h with
  | refl => exact .of_stage rfl
  | hear _ ih => exact ih.trans (.of_stage (Promise.poll_outcome _).2)
  | @dispose v _ _ ih => exact ih.trans (Desk.Leads.refl (d := v.desk)).dispose.promise
  | start | ask | closeLink | cancel | turn => assumption

/-- The clock stands still. -/
theorem Leads.now (h : s.Leads ds v) : v.now = s.now := by
  induction h with
  | refl => rfl
  | @dispose v _ _ ih =>
    exact (Desk.Leads.refl (d := v.desk)).dispose.around (P := fun a => a.now = s.now)
      (fun _ => id) (fun _ => id) ih
  | start | ask | closeLink | cancel | hear | turn => assumption

omit [Link σ] in
/-- The three tasks of every session. -/
theorem mem_tasks (s : Session σ) {t : Task} (ht : t = .watcher ∨ t = .beat ∨ t = .closing) :
    t ∈ s.tasks := by
  unfold Session.tasks
  refine List.mem_append_right _ ?_
  rcases ht with rfl | rfl | rfl <;> split <;> simp

/-- When all is quiet, none of the three tasks can go on. -/
theorem not_runnable_of_isQuiet (hq : s.isQuiet = true) {t : Task}
    (ht : t = .watcher ∨ t = .beat ∨ t = .closing) : s.isRunnable t = false := by
  have hnot := List.all_eq_true.1 hq t (s.mem_tasks ht)
  simpa using hnot

end Session

end HeldReply
