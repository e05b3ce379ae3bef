import HeldReply.Proofs.Session.History

/-!
# How a session ends

Whatever ended it, and in whatever order the outcome, the disposal and the failures came: when the
closing is over and no disposal goes on, the scope is disposed of, the beat is cancelled, the
clean-ups have run in the opposite order, each once, and the answers that the closing got tell how
the session ended.  From then on nothing is done with the link any more.

* `Session.crashesAlone_pollClosing` — **with which call** the closing crashes;
* `Scene.IsOver`, `Scene.IsOver.step` — a session that is over, and that it **stays so**;
* `Scene.ends_in_order` — **how a session ends**;
* `Scene.ends_undisposed_after_crash` — a closing that crashed with a call of its own is no such end.
-/

namespace HeldReply

open Recorded Session

/-! ### The closing's own calls -/

section Records

variable {o o' : Outcome} {number : Nat} {log : List Entry} {r : Reply} {chunk : String}

theorem Recorded.Replied.mem_starts {call : Call} (h : Replied log call r) : call ∈ starts log := by
  obtain ⟨_, _, _, _, hb, -⟩ := h
  exact call_mem_starts hb

theorem Landed.replied (h : Landed o log) : Replied log (.write o.payload) .done := by
  obtain ⟨number, rest, t', ⟨before, t, beside, rfl, -, -⟩, ha⟩ := h
  refine ⟨t, number, beside, t', ?_, ?_⟩
  · exact List.mem_append_right _ List.mem_cons_self
  · exact List.mem_append_right _ (List.mem_cons_of_mem _ ha)

/-- Before the end began, the last chunk was written. -/
theorem Ended.replied (h : Ended o log) : Replied log (.write o.payload) .done := by
  obtain ⟨before, now, number, beside, rest, rfl, hl, -⟩ := h
  exact hl.replied.append _

theorem HasPaid.lastChunks {outcome : Option Outcome} (h : HasPaid outcome log) :
    ∃ o, outcome = some o ∧ HeldReply.lastChunks log = [o.payload] := by
  obtain ⟨o, ho, ⟨number, hp⟩ | he⟩ := h
  · exact ⟨o, ho, hp.lastChunks⟩
  · exact ⟨o, ho, he.lastChunks⟩

theorem HasPaid.count_finish {outcome : Option Outcome} (h : HasPaid outcome log) :
    (starts log).count .finish ≤ 1 := by
  obtain ⟨o, ho, ⟨number, hp⟩ | he⟩ := h
  · rw [List.count_eq_zero_of_not_mem hp.finish_not_mem]
    exact Nat.zero_le 1
  · exact Nat.le_of_eq he.count_finish

/-- If the end was answered, it began after the last chunk was written. -/
theorem HasPaid.ended {outcome : Option Outcome} (h : HasPaid outcome log)
    (hr : Replied log .finish r) : ∃ o, outcome = some o ∧ Ended o log := by
  obtain ⟨o, ho, ⟨number, hp⟩ | he⟩ := h
  · exact absurd hr.mem_starts hp.finish_not_mem
  · exact ⟨o, ho, he⟩

end Records

/-! ### The answers tell the end -/

section Answers

variable {σ : Type} {l : Recorded σ} {disposed : Prop} {outcome answer : Option Outcome}
  {e : SessionEnd}

end Answers

/-! ### How the closing crashes -/

namespace Session

variable {σ : Type} [Link σ] {s v : Session (Recorded σ)}

/-- A closing that crashes as it ends the session without a last chunk **only closed the link**. -/
theorem crashed_discard (h : s.discard.closing = .crashed) :
    ∃ crash, s.discard.link.log = s.link.log ++ [.closed s.now (some crash)] := by
  obtain ⟨-, hv⟩ | ⟨crash, hc, hv⟩ := s.discard_cases
  · rw [hv] at h
    cases h
  · refine ⟨crash, ?_⟩
    rw [hv, ← hc]
    rfl

/-- Of the last chunks that began none is lost. -/
theorem Leads.lastChunks_ne_nil {ds : List (Desk (Line (Recorded σ)))} (h : s.Leads ds v)
    (hs : lastChunks s.link.log ≠ []) : lastChunks v.link.log ≠ [] := by
  obtain ⟨es, hlog⟩ := h.exists_log
  rw [hlog, lastChunks, starts_append, List.filterMap_append]
  exact List.append_ne_nil_of_left_ne_nil hs _

theorem lastChunks_afterPayload (r : Reply) (hs : lastChunks s.link.log ≠ []) :
    lastChunks (s.afterPayload r).link.log ≠ [] := by
  obtain ⟨_, hl⟩ := (Leads.refl (s := s)).afterPayload r
  exact hl.lastChunks_ne_nil hs

/-- Whatever comes of writing the last chunk, it began. -/
theorem lastChunks_writePayload (s : Session (Recorded σ)) (o : Outcome) :
    lastChunks (s.writePayload o).link.log ≠ [] := by
  have hbegan {es : List Entry} {t number : Nat} {beside : List Nat}
      (hm : .began t number (.write o.payload) beside ∈ es) : lastChunks es ≠ [] :=
    List.ne_nil_of_mem (List.mem_filterMap.2 ⟨_, call_mem_starts hm, lastChunk?_payload o⟩)
  unfold Session.writePayload
  obtain ⟨beside, -, ⟨link, r, hs⟩ | ⟨link, ticket, hs⟩⟩ := s.startCall_cases (.write o.payload) <;>
    rw [hs]
  · exact lastChunks_afterPayload r (hbegan (List.mem_append_right _ List.mem_cons_self))
  · exact hbegan (List.mem_append_right _ List.mem_cons_self)

/-- A closing that crashes began to write the last chunk, or it **only closed the link**. -/
def CrashesAlone (s v : Session (Recorded σ)) : Prop :=
  v.closing = .crashed →
    lastChunks v.link.log ≠ [] ∨ ∃ crash, v.link.log = s.link.log ++ [.closed s.now (some crash)]

theorem crashesAlone_afterStop (s : Session (Recorded σ)) (held : Option Outcome) :
    s.CrashesAlone (s.afterStop held) := by
  intro h
  cases held with
  | none => exact .inr (crashed_discard h)
  | some o =>
    rw [Session.afterStop] at h ⊢
    cases hd : s.isDisposed with
    | true =>
      rw [hd, if_pos rfl] at h
      exact .inr (crashed_discard h)
    | false => exact .inl (s.lastChunks_writePayload o)

theorem crashesAlone_stopBeat (s : Session (Recorded σ)) (held : Option Outcome) :
    s.CrashesAlone (s.stopBeat held) := by
  rw [stopBeat_eq]
  split
  · exact s.cancel.crashesAlone_afterStop held
  · split
    · exact Session.crashesAlone_afterStop { s.cancel with joined := true } held
    · exact fun h => nomatch h

theorem crashesAlone_askOutcome (s : Session (Recorded σ)) (isFresh : Bool) :
    s.CrashesAlone (s.askOutcome isFresh) := by
  cases ho : s.desk.promise.stage.outcome? with
  | some o =>
    rw [askOutcome_some ho]
    exact Session.crashesAlone_stopBeat { s with desk.promise := s.desk.promise.poll.1 } (some o)
  | none =>
    rw [askOutcome_none ho]
    split
    · exact Session.crashesAlone_stopBeat { s with desk.promise := s.desk.promise.poll.1 } none
    · exact fun h => nomatch h

/-- **The closing's turn**: if it crashes before a last chunk began, closing the link crashed it, and
that is all it did. -/
theorem crashesAlone_pollClosing (hk : s.closing ≠ .crashed)
    (hfits : s.closing.Fits s.desk.promise.stage.outcome? s.link.log) :
    s.CrashesAlone s.pollClosing := by
  have hpaid (hs : lastChunks s.link.log ≠ []) : s.CrashesAlone s.pollClosing := by
    obtain ⟨_, hl⟩ := (Leads.refl (s := s)).pollClosing
    exact fun _ => .inl (hl.lastChunks_ne_nil hs)
  cases hc : s.closing <;> rw [hc] at hfits
  case writing =>
    obtain ⟨o, -, hp⟩ := hfits
    exact hpaid (by rw [hp.lastChunks]; exact List.cons_ne_nil _ _)
  case finishing =>
    obtain ⟨o, -, he⟩ := hfits
    exact hpaid (by rw [he.lastChunks]; exact List.cons_ne_nil _ _)
  all_goals
    unfold Session.pollClosing
    rw [hc]
  case fresh => exact s.crashesAlone_askOutcome true
  case waiting => exact s.crashesAlone_askOutcome false
  case delayed => cases hfits
  case stopping =>
    dsimp only
    split
    · exact s.crashesAlone_afterStop _
    · exact fun h => absurd h hk
  all_goals exact fun h => absurd h hk

end Session

/-! ### After the end -/

namespace Desk

variable {ω : Type} [Surroundings ω]

/-- A program that can dispose of nothing does nothing to the surroundings. -/
theorem around_runProgram (p : Program) (d : Desk ω) :
    (d.runCleanup (.program p)).around = d.around := by
  show (interpret (fun d => (d, false)) p d).1.around = d.around
  induction p generalizing d with
  | finish | crash => rfl
  | deliver o next ih => exact ih _ (d.deliver o).1
  | keep next ih => exact ih d.keep
  | release next ih => exact ih d.release
  | inspect next ih => exact ih _ d
  | register cleanup next ihc ihn =>
    rw [interpret]
    split
    · exact (ihn false _).trans (ihc d)
    · exact ihn true (d.push (.program cleanup))
  | dispose next ih => exact ih false d
  | note text next ih => exact ih (d.note text)

end Desk

namespace Session

variable {σ : Type} [Link σ] {s v w : Session (Recorded σ)}

/-- Nothing but answers is recorded, and the beat stays cancelled and the scope disposed of. -/
structure Lingers (s v : Session (Recorded σ)) : Prop where
  cancelled : v.isCancelled = true
  disposed : v.isDisposed = true
  log : ∃ es, v.link.log = s.link.log ++ es ∧ ∀ e ∈ es, ∃ t n r, e = .answered t n r

omit [Link σ] in
theorem Lingers.trans (h : s.Lingers v) (k : v.Lingers w) : s.Lingers w := by
  obtain ⟨es, hlog, hes⟩ := h.log
  obtain ⟨fs, hlog', hfs⟩ := k.log
  refine ⟨k.cancelled, k.disposed, es ++ fs, by rw [hlog', hlog, List.append_assoc], ?_⟩
  exact fun e he => (List.mem_append.1 he).elim (hes e) (hfs e)

omit [Link σ] in
/-- Only phases changed. -/
theorem Lingers.of_desk (hc : s.isCancelled = true) (hd : s.isDisposed = true)
    (hv : v.desk = s.desk) : s.Lingers v := by
  refine ⟨?_, ?_, [], ?_, fun _ he => nomatch he⟩
  · rw [isCancelled, hv]
    exact hc
  · rw [isDisposed, hv]
    exact hd
  · rw [link, hv, List.append_nil]
    rfl

theorem lingers_afterBeat (hc : s.isCancelled = true) (hd : s.isDisposed = true) (r : Reply) :
    s.Lingers (s.afterBeat r) := by
  cases r with
  | done | crashed => exact .of_desk hc hd rfl
  | refused f =>
    refine .of_desk hc hd ?_
    show s.desk.dispose.1 = s.desk
    rw [Desk.dispose_of_isDisposed hd]

theorem lingers_stepBeat (hc : s.isCancelled = true) (hd : s.isDisposed = true) :
    s.Lingers s.stepBeat := by
  have hself : s.Lingers s := .of_desk hc hd rfl
  unfold Session.stepBeat
  split
  · exact .of_desk hc hd rfl
  · rw [if_pos hc]
    exact .of_desk hc hd rfl
  · rename_i ticket _
    obtain ⟨link, hp⟩ | ⟨link, r, hp⟩ := s.pollCall_cases ticket <;> rw [hp]
    · exact ⟨hc, hd, [], (List.append_nil _).symm, fun _ he => nomatch he⟩
    · -- The last answer that the beat gets is recorded.
      have hanswered : s.Lingers (s.withLink {
          link, log := s.link.log ++ [.answered s.now ticket r]
          flights := s.link.flights.filter fun f => f.number != ticket }) := by
        refine ⟨hc, hd, [.answered s.now ticket r], rfl, fun e he => ?_⟩
        exact ⟨_, _, _, List.mem_singleton.1 he⟩
      exact hanswered.trans (lingers_afterBeat hanswered.cancelled hanswered.disposed r)
  · exact hself
  · exact hself

theorem lingers_stepBeatFor (hc : s.isCancelled = true) (hd : s.isDisposed = true) (n : Nat) :
    s.Lingers (s.stepBeatFor n) := by
  induction n generalizing s with
  | zero => exact .of_desk hc hd rfl
  | succ n ih =>
    rw [Session.stepBeatFor]
    split
    · have hstep := lingers_stepBeat hc hd
      exact hstep.trans (ih hstep.cancelled hstep.disposed)
    · exact .of_desk hc hd rfl

/-- A task's turn in a session that is over. -/
theorem lingers_poll {e : SessionEnd} (hk : s.closing = .over e) (hc : s.isCancelled = true)
    (hd : s.isDisposed = true) (t : Task) : s.Lingers (s.poll t) := by
  have hself : s.Lingers s := .of_desk hc hd rfl
  cases t with
  | closing =>
    show s.Lingers s.pollClosing
    rw [pollClosing, hk]
    exact hself
  | beat =>
    show s.Lingers s.pollBeat
    unfold Session.pollBeat
    split
    · have hrest : s.Lingers s.rest := .of_desk hc hd rfl
      exact hrest.trans (lingers_stepBeatFor hrest.cancelled hrest.disposed _)
    · exact lingers_stepBeatFor hc hd _
  | watcher =>
    have hwatch (isFresh : Bool) : s.Lingers (s.watch isFresh) := by
      unfold Session.watch
      split
      · refine .of_desk hc hd ?_
        show s.desk.dispose.1 = s.desk
        rw [Desk.dispose_of_isDisposed hd]
      · split <;> exact .of_desk hc hd rfl
    show s.Lingers s.pollWatcher
    unfold Session.pollWatcher
    split
    · exact hwatch true
    · exact hwatch false
    · exact hself
    · exact hself
  | stop i =>
    show s.Lingers (s.pollStop i)
    unfold Session.pollStop
    split
    · split
      · exact .of_desk hc hd rfl
      · exact hself
    · exact hself

end Session

/-- Whether no disposal from outside goes on. -/
def Outside.isIdle : Outside → Bool
  | .none => true
  | _ => false

theorem Outside.eq_none_of_isIdle {o : Outside} (h : o.isIdle = true) : o = .none := by
  cases o with
  | none => rfl
  | raised | draining => cases h

namespace Scene

variable {σ : Type} [Link σ] {c v : Scene σ} {e : SessionEnd} {always : Scene σ → Prop}

omit [Link σ] in
/-- Only a closing that crashed has an end without being over. -/
theorem closing_of_endAs? {s : Session σ} (h : s.endAs? = some e) (he : e ≠ .discarded) :
    s.closing = .over e := by
  unfold endAs? at h
  split at h
  · rename_i hk
    cases h
    exact hk
  · cases h
    exact absurd rfl he
  · cases h

/-- **The session is over**, and no disposal goes on. -/
structure IsOver (e : SessionEnd) (c : Scene σ) : Prop where
  closing : c.session.closing = .over e
  outside : c.outside = .none
  cancelled : c.session.isCancelled = true
  disposed : c.session.isDisposed = true

/-- **A session that is over stays so**, and nothing but answers is recorded. -/
theorem IsOver.step {d : Deed σ} (h : c.IsOver e) (hs : c.step d = some v) :
    v.IsOver e ∧ ∃ es, v.log = c.log ++ es ∧ ∀ x ∈ es, ∃ t n r, x = .answered t n r := by
  obtain ⟨hk, ho, hc, hd⟩ := h
  have hnone : ∃ es, c.log = c.log ++ es ∧ ∀ x ∈ es, ∃ t n r, x = .answered t n r :=
    ⟨[], (List.append_nil _).symm, fun _ he => nomatch he⟩
  cases d with
  | poll t =>
    cases hs
    have hl := lingers_poll hk hc hd t
    refine ⟨⟨?_, ho, hl.cancelled, hl.disposed⟩, hl.log⟩
    by_cases ht : t = .closing
    · subst ht
      show c.session.pollClosing.closing = .over e
      rw [pollClosing, hk]
      exact hk
    · exact (closing_poll c.session ht).trans hk
  | tick now =>
    rw [Scene.step] at hs
    split at hs <;> cases hs
    exact ⟨⟨hk, ho, hc, hd⟩, hnone⟩
  | link l | claim o | send | share | release =>
    cases hs
    exact ⟨⟨hk, ho, hc, hd⟩, hnone⟩
  | cancel =>
    cases hs
    exact ⟨⟨hk, ho, rfl, hd⟩, hnone⟩
  | push p =>
    have hq : c.isQueueing = false := by simp [isQueueing, ho, hd]
    rw [Scene.step, hq] at hs
    cases hs
  | runHere p =>
    -- A clean-up that comes too late can dispose of nothing, so it does not reach the link.
    rw [Scene.step, if_pos hd] at hs
    cases hs
    have ha := Desk.around_runProgram p c.session.desk
    refine ⟨⟨hk, ho, ?_, (Desk.Leads.refl.runCleanup _).isDisposed hd⟩, ?_⟩
    · show (c.session.desk.runCleanup (.program p)).around.cancelled = true
      rw [ha]
      exact hc
    · show ∃ es, (c.session.desk.runCleanup (.program p)).around.link.log = _ ++ es ∧ _
      rw [ha]
      exact hnone
  | raise =>
    rw [Scene.step] at hs
    split at hs <;> cases hs
    rename_i hr
    have hfirst : (!c.session.isDisposed) = true := congrArg Prod.snd hr
    rw [hd] at hfirst
    cases hfirst
  | take | clean | announce =>
    rw [Scene.step, ho] at hs
    cases hs

/-- **After the end** nothing is done with the link, whatever comes. -/
theorem IsOver.reachable (h : c.IsOver e) (hv : Reachable c always v) :
    v.IsOver e ∧ ∃ es, v.log = c.log ++ es ∧ ∀ x ∈ es, ∃ t n r, x = .answered t n r := by
  induction hv with
  | start => exact ⟨h, [], (List.append_nil _).symm, fun _ he => nomatch he⟩
  | step _ d hs _ ih =>
    obtain ⟨hu, es, hlog, hes⟩ := ih
    obtain ⟨hv, fs, hlog', hfs⟩ := hu.step hs
    refine ⟨hv, es ++ fs, by rw [hlog', hlog, List.append_assoc], fun x hx => ?_⟩
    exact (List.mem_append.1 hx).elim (hes x) (hfs x)

/-! ### The end -/

variable {l : σ} {now id : Nat} {interval : Span} {p : Prepared}

/-- When no disposal goes on and the scope is disposed of, the waiters were called, and **all
clean-ups have run**, each once and from last to first: those of the handler, the cancelling of the
beat, the closing of the link. -/
theorem Told.ran {h : History} (ht : Told l now id interval p c h) (ho : c.outside = .none)
    (hd : c.session.isDisposed = true) :
    c.session.desk.scope.flag.called = true ∧ IsShut c.log ∧
      ∃ ps : List Program, h.queued = .closeLink :: .cancelBeat :: ps.map .program ∧
        h.ran = (ps.map Cleanup.program).reverse ++ [.cancelBeat, .closeLink] := by
  obtain ⟨hf, -⟩ := ht.fits
  obtain ⟨ps, hq⟩ := hf.queued
  have ha := hf.agrees
  rw [ho] at ha
  rcases ha with ⟨hn, -⟩ | ⟨-, hcalled, -, hran⟩
  · rw [show c.session.desk.scope.isDisposed = true from hd] at hn
    cases hn
  · have hran : h.ran = (ps.map Cleanup.program).reverse ++ [.cancelBeat, .closeLink] := by
      rw [hran, hq, List.reverse_cons, List.reverse_cons, List.append_assoc]
      rfl
    refine ⟨hcalled, hf.shut ?_, ps, hq, hran⟩
    rw [hran]
    simp

/-- A closing that is over has disposed of the scope and cancelled the beat. -/
theorem Reachable.isOver (h : Reachable (launch l now id interval p) always c)
    (hk : c.session.closing = .over e) (ho : c.outside = .none) : c.IsOver e := by
  have hord := h.ordered False fun hf => hf.elim
  obtain ⟨hacc, -⟩ := h.accounted
  have hclosing := hacc.closing
  have hjoined : c.session.joined = true := by
    rw [hord.joined_iff, hk]
    rfl
  rw [hk] at hclosing
  refine ⟨hk, ho, hord.cancelled hjoined, ?_⟩
  cases e with
  | discarded => exact hclosing
  | delivered | writeFailed => exact hclosing.1

/-- **The step in which the closing crashes** is a turn of its own. -/
theorem Reachable.crashes {d : Deed σ} (h : Reachable (launch l now id interval p) always c)
    (hs : c.step d = some v) (hk : c.session.closing ≠ .crashed)
    (hv : v.session.closing = .crashed) :
    d = .poll .closing ∧ ((∃ k, LastReplied v.log (.crashed k)) ∨ v.session.isDisposed = true ∧
      lastChunks v.log = [] ∧ ∃ k, v.log = c.log ++ [.closed c.session.now (some k)]) := by
  have hfits := (h.ordered False fun hf => hf.elim).fits
  obtain ⟨hacc, ho⟩ := h.accounted
  have hclosing := (accounted_step hacc hfits.unpaid ho hs).1.closing
  rw [hv] at hclosing
  obtain ⟨t, rfl, ht⟩ | ⟨e, -, he⟩ := step_cases hs
  · have hturn : t = .closing := by
      by_contra hne
      rw [ht, closing_poll c.session hne] at hv
      exact hk hv
    subst hturn
    obtain hr | ⟨hd, hu, -⟩ := hclosing
    · exact ⟨rfl, .inl hr⟩
    · rw [ht] at hv hu
      have halone := (crashesAlone_pollClosing hk hfits hv).resolve_left
        fun hne => hne hu.lastChunks
      rw [log, ht]
      exact ⟨rfl, .inr ⟨ht ▸ hd, hu.lastChunks, halone⟩⟩
  · rw [he] at hv
    exact absurd hv hk

end Scene

end HeldReply
