import HeldReply.Proofs.Link.Calls
import HeldReply.Proofs.Session.Order
import HeldReply.Proofs.Session.Turn

/-!
# What tasks wait for, and what they leave behind

A task that waits for a call has that call in flight, and a task that ended has left something
behind: the watcher and a beat that was refused have disposed of the scope, and so has the closing,
whatever answers it got.

* `Closing.Accounts` — what the closing **waits for or leaves behind**;
* `Session.Accounted` — the same of all tasks;
* `Session.Accounted.poll`, `Scene.Reachable.accounted` — a turn and a run keep it.
-/

namespace HeldReply

open Recorded Session

/-! ### Desks -/

section Desks

variable {σ : Type} [Link σ] {d e : Desk (Line (Recorded σ))}

/-- Programs and disposals begin no call and fetch no answer; they only close the link. -/
theorem Desk.Leads.record (h : d.Leads e) :
    ∃ ts, e.around.link.log = d.around.link.log ++ closings ts ∧
      e.around.link.flights = d.around.link.flights := by
  let P (a : Line (Recorded σ)) : Prop := ∃ ts,
    a.link.log = d.around.link.log ++ closings ts ∧ a.link.flights = d.around.link.flights
  have hclose : ∀ a, P a → P (Surroundings.closeLink a) := by
    rintro a ⟨ts, hlog, hf⟩
    refine ⟨ts ++ [(a.now, (Link.close a.now a.link.link).2)], ?_, hf⟩
    rw [closings_concat, ← List.append_assoc, ← hlog]
    rfl
  exact h.around hclose (fun _ ha => ha) ⟨[], (List.append_nil _).symm, rfl⟩

/-- The waiters are called only when a disposal began. -/
theorem Desk.Leads.called (h : d.Leads e)
    (hd : d.scope.flag.called = true → d.scope.isDisposed = true) :
    e.scope.flag.called = true → e.scope.isDisposed = true := by
  induction h with
  | refl => exact hd
  | begin _ hb =>
    obtain ⟨-, -, rfl⟩ := of_begin hb
    exact fun _ => rfl
  | announce _ hdisposed => exact fun _ => hdisposed
  | deliver | keep | release | note | push | closeLink | cancelBeat => assumption

end Desks

/-! ### The account -/

/-- One of the closing's own calls, the last chunk or the end, **got this answer**. -/
def LastReplied (log : List Entry) (r : Reply) : Prop :=
  (∃ o : Outcome, Replied log (.write o.payload) r) ∨ Replied log .finish r

theorem LastReplied.append {log : List Entry} {r : Reply} (h : LastReplied log r)
    (es : List Entry) : LastReplied (log ++ es) r :=
  h.imp (fun ⟨o, ho⟩ => ⟨o, ho.append es⟩) fun hf => hf.append es

/-- The closing crashed when it **closed the link**; it never began to write the last chunk. -/
def CrashedByClosing (log : List Entry) : Prop :=
  Unpaid log ∧ ∃ t crash, .closed t (some crash) ∈ log

/-- What a closing **waits for or leaves behind**. -/
def Closing.Accounts {σ : Type} (disposed : Prop) (l : Recorded σ) : Closing → Prop
  | .absent | .delayed .. => False
  | .fresh | .waiting | .stopping _ (some _) => True
  | .stopping _ none | .over .discarded => disposed
  | .writing number => ∃ o : Outcome, l.InFlight number (.write o.payload)
  | .finishing number => l.InFlight number .finish
  | .over .delivered => disposed ∧ Replied l.log .finish .done
  | .over .writeFailed => disposed ∧ ∃ f, LastReplied l.log (.refused f)
  | .crashed => (∃ k, LastReplied l.log (.crashed k)) ∨ (disposed ∧ CrashedByClosing l.log)

/-- Beats may still begin. -/
theorem CrashedByClosing.append {log es : List Entry} (h : CrashedByClosing log)
    (hes : ∀ call ∈ starts es, call = .write beatChunk) : CrashedByClosing (log ++ es) := by
  obtain ⟨hu, t, crash, hc⟩ := h
  refine ⟨fun call hm => ?_, t, crash, List.mem_append_left _ hc⟩
  rw [starts_append] at hm
  exact (List.mem_append.1 hm).elim (hu call) (hes call)

theorem payload_ne_beat (o : Outcome) : Call.write o.payload ≠ .write beatChunk :=
  fun hc => o.payload_ne_blank (Call.write.inj hc)

theorem finish_ne_beat : Call.finish ≠ .write beatChunk :=
  fun hc => nomatch hc

/-- What a closing accounts for stays, as long as its calls do. -/
theorem Closing.Accounts.mono {σ : Type} {p q : Prop} {l k : Recorded σ} {closing : Closing}
    (h : closing.Accounts p l) (hp : p → q)
    (hlog : ∃ es, k.log = l.log ++ es ∧ ∀ call ∈ starts es, call = .write beatChunk)
    (hf : ∀ n call, call ≠ .write beatChunk → l.InFlight n call → k.InFlight n call) :
    closing.Accounts q k := by
  obtain ⟨es, hlog, hes⟩ := hlog
  match closing, h with
  | .fresh, _ | .waiting, _ | .stopping _ (some _), _ => exact trivial
  | .stopping _ none, h | .over .discarded, h => exact hp h
  | .writing number, ⟨o, h⟩ => exact ⟨o, hf number _ (payload_ne_beat o) h⟩
  | .finishing number, h => exact hf number .finish finish_ne_beat h
  | .over .delivered, ⟨h, hr⟩ => exact ⟨hp h, hlog ▸ hr.append es⟩
  | .over .writeFailed, ⟨h, f, hr⟩ => exact ⟨hp h, f, hlog ▸ hr.append es⟩
  | .crashed, .inl ⟨k, hr⟩ => exact .inl ⟨k, hlog ▸ hr.append es⟩
  | .crashed, .inr ⟨h, hc⟩ => exact .inr ⟨hp h, hlog ▸ hc.append hes⟩

namespace Session

variable {σ : Type} {due : Prop} {s : Session (Recorded σ)}

/-- **What all tasks wait for and leave behind**; a disposal for a beat that was refused may still be
due. -/
structure Accounted (due : Prop) (s : Session (Recorded σ)) : Prop where
  numbered : Numbered s.link.log s.link.flights
  called : s.desk.scope.flag.called = true → s.isDisposed = true
  watched : s.watcher = .fresh ∨ s.watcher = .waiting ∨ s.isDisposed = true
  beating : ∀ n, s.beat = .writing n → s.link.InFlight n (.write beatChunk)
  failed : ∀ f, Replied s.link.log (.write beatChunk) (.refused f) → s.isDisposed = true ∨ due
  closing : s.closing.Accounts (s.isDisposed = true) s.link

/-- **The desk changes**: the link is closed at most, and no disposal is taken back. -/
theorem Accounted.of_desk {d : Desk (Line (Recorded σ))} (h : s.Accounted due)
    (hlog : ∃ ts, d.around.link.log = s.link.log ++ closings ts)
    (hf : d.around.link.flights = s.link.flights)
    (hd : s.isDisposed = true → d.scope.isDisposed = true)
    (hc : d.scope.flag.called = true → d.scope.isDisposed = true) :
    ({ s with desk := d } : Session (Recorded σ)).Accounted due := by
  obtain ⟨ts, hlog⟩ := hlog
  have hlog : ({ s with desk := d } : Session (Recorded σ)).link.log =
      s.link.log ++ closings ts := hlog
  have hf : ({ s with desk := d } : Session (Recorded σ)).link.flights = s.link.flights := hf
  have hflight (n : Nat) (call : Call) (hn : s.link.InFlight n call) :
      ({ s with desk := d } : Session (Recorded σ)).link.InFlight n call :=
    hn.of_append (hf.trans (List.append_nil _).symm)
  constructor
  · rw [hlog, hf]
    exact h.numbered.append_closings ts
  · exact hc
  · exact h.watched.imp_right (Or.imp_right hd)
  · exact fun n hb => hflight n _ (h.beating n hb)
  · intro f hr
    rw [hlog] at hr
    exact (h.failed f (replied_append_closings hr)).imp_left hd
  · refine h.closing.mono hd ⟨_, hlog, fun call hm => ?_⟩ fun n call _ => hflight n call
    rw [starts_closings] at hm
    cases hm

/-- Where the beat is does not matter, unless it waits for a write. -/
theorem Accounted.of_beat (h : s.Accounted due) {b : Beat} (hb : ∀ n, b ≠ .writing n) :
    ({ s with beat := b } : Session (Recorded σ)).Accounted due :=
  ⟨h.numbered, h.called, h.watched, fun n hn => absurd hn (hb n), h.failed, h.closing⟩

theorem Accounted.of_closing (h : s.Accounted due) {k : Closing}
    (hk : k.Accounts (s.isDisposed = true) s.link) :
    ({ s with closing := k } : Session (Recorded σ)).Accounted due :=
  ⟨h.numbered, h.called, h.watched, h.beating, h.failed, hk⟩

theorem Accounted.of_counts (h : s.Accounted due) (beats : Nat) (joined : Bool)
    (stops : List Stop) :
    ({ s with beats, joined, stops } : Session (Recorded σ)).Accounted due :=
  ⟨h.numbered, h.called, h.watched, h.beating, h.failed, h.closing⟩

/-- A call of the beat begins or is answered. -/
theorem Accounted.serve_beat {k : Recorded σ} {answer : Option Reply} (h : s.Accounted False)
    (hk : Serves (.write beatChunk) answer s.link k) :
    ({ s.withLink k with beat := .ended } : Session (Recorded σ)).Accounted
      (∃ f, answer = some (.refused f)) := by
  refine ⟨hk.numbered, h.called, h.watched, (fun _ hb => nomatch hb), ?_, h.closing.mono id hk.log hk.flights⟩
  intro f hr
  rcases hk.replied _ _ hr with hr | ⟨-, hr⟩
  · exact .inl ((h.failed f hr).resolve_right id)
  · exact .inr ⟨f, hr⟩

/-- A call of the closing begins or is answered. -/
theorem Accounted.serve_closing {k : Recorded σ} {call : Call} {answer : Option Reply}
    (h : s.Accounted False) (hcall : call ≠ .write beatChunk)
    (hk : Serves call answer s.link k) :
    ({ s.withLink k with closing := .fresh } : Session (Recorded σ)).Accounted False := by
  refine ⟨hk.numbered, h.called, h.watched, ?_, ?_, trivial⟩
  · exact fun n hb => hk.flights n _ hcall.symm (h.beating n hb)
  · intro f hr
    rcases hk.replied _ _ hr with hr | ⟨hc, -⟩
    · exact h.failed f hr
    · exact absurd hc.symm hcall

section Calls

variable [Link σ]

theorem startCall_serves (h : Numbered s.link.log s.link.flights) (call : Call) :
    (∃ k r, s.startCall call = (s.withLink k, .answered r) ∧ Serves call (some r) s.link k ∧
      Replied k.log call r) ∨
    (∃ k n, s.startCall call = (s.withLink k, .inFlight n) ∧ Serves call none s.link k ∧
      k.InFlight n call) := by
  have hs : s.startCall call =
      (s.withLink (Recorded.start s.now call s.link).1, (Recorded.start s.now call s.link).2) := rfl
  obtain ⟨k, r, hk, hserve⟩ | ⟨k, n, hk, hserve⟩ := start_serves h s.now call
  · exact .inl ⟨k, r, by rw [hs, hk], hserve⟩
  · exact .inr ⟨k, n, by rw [hs, hk], hserve⟩

theorem pollCall_serves {number : Nat} {call : Call} (h : Numbered s.link.log s.link.flights)
    (hf : s.link.InFlight number call) :
    (∃ link, s.pollCall number = (s.withLink { s.link with link }, none)) ∨
    (∃ k r, s.pollCall number = (s.withLink k, some r) ∧ Serves call (some r) s.link k ∧
      Replied k.log call r) := by
  have hs : s.pollCall number = (s.withLink (Recorded.poll s.now number s.link).1,
      (Recorded.poll s.now number s.link).2) := rfl
  obtain ⟨link, hk⟩ | ⟨k, r, hk, hserve⟩ := poll_serves h hf s.now
  · exact .inl ⟨link, by rw [hs, hk]⟩
  · exact .inr ⟨k, r, by rw [hs, hk], hserve⟩

omit [Link σ] in
/-- The link itself may become another one. -/
theorem Accounted.of_link (h : s.Accounted due) (link : σ) :
    (s.withLink { s.link with link }).Accounted due :=
  h.of_desk ⟨[], (List.append_nil _).symm⟩ rfl id h.called

theorem isDisposed_dispose (s : Session (Recorded σ)) : s.dispose.1.isDisposed = true :=
  s.desk.isDisposed_dispose

/-- A **disposal** settles what was due. -/
theorem Accounted.dispose (h : s.Accounted due) : s.dispose.1.Accounted False := by
  have hd : s.desk.Leads s.desk.dispose.1 := Desk.Leads.refl.dispose
  obtain ⟨ts, hlog, hf⟩ := hd.record
  have hv : s.dispose.1.Accounted due := h.of_desk ⟨ts, hlog⟩ hf hd.isDisposed
    (hd.called h.called)
  exact ⟨hv.numbered, hv.called, hv.watched, hv.beating, fun _ _ => .inl s.isDisposed_dispose, hv.closing⟩

/-! ### The beat -/

omit [Link σ] in
theorem Accounted.rest (h : ({ s with beat := .ended } : Session (Recorded σ)).Accounted due) :
    s.rest.Accounted due := by
  refine Accounted.of_beat (s := { s with beat := .ended }) h fun n => ?_
  split <;> exact fun hb => nomatch hb

theorem Accounted.afterBeat {r : Reply}
    (h : ({ s with beat := .ended } : Session (Recorded σ)).Accounted
      (∃ f, some r = some (.refused f))) : (s.afterBeat r).Accounted False := by
  have hnot (hr : ∀ f, r ≠ .refused f) :
      ({ s with beat := .ended } : Session (Recorded σ)).Accounted False := by
    refine ⟨h.numbered, h.called, h.watched, h.beating, fun f hf => .inl ?_, h.closing⟩
    refine (h.failed f hf).resolve_right fun ⟨g, hg⟩ => hr g (Option.some.inj hg)
  cases r with
  | done => exact Accounted.rest ((hnot fun _ hr => nomatch hr).of_counts _ _ _)
  | refused f => exact h.dispose
  | crashed k => exact (hnot fun _ hr => nomatch hr).of_beat fun _ hb => nomatch hb

theorem Accounted.writeBeat (h : s.Accounted False) : s.writeBeat.Accounted False := by
  obtain ⟨k, r, hs, hk, -⟩ | ⟨k, n, hs, hk, hf⟩ := startCall_serves h.numbered (.write beatChunk)
  · rw [Session.writeBeat, hs]
    exact Accounted.afterBeat (h.serve_beat hk)
  · rw [Session.writeBeat, hs]
    have hv := h.serve_beat hk
    refine ⟨hv.numbered, hv.called, hv.watched, ?_, ?_, hv.closing⟩
    · intro m hb
      obtain rfl := Beat.writing.inj hb
      exact hf
    · intro f hr
      rcases hv.failed f hr with hd | ⟨_, hn⟩
      · exact .inl hd
      · cases hn

theorem Accounted.stepBeat (h : s.Accounted False) : s.stepBeat.Accounted False := by
  unfold Session.stepBeat
  split
  · exact Accounted.rest (h.of_beat fun _ hb => nomatch hb)
  · split
    · exact h.of_beat fun _ hb => nomatch hb
    · split
      · exact h.writeBeat
      · exact h
  · rename_i ticket hb
    obtain ⟨link, hs⟩ | ⟨k, r, hs, hk, -⟩ := pollCall_serves h.numbered (h.beating ticket hb) <;>
      rw [hs]
    · exact h.of_link link
    · exact Accounted.afterBeat (h.serve_beat hk)
  · exact h
  · exact h

theorem Accounted.stepBeatFor (h : s.Accounted False) (n : Nat) :
    (s.stepBeatFor n).Accounted False := by
  induction n generalizing s with
  | zero => exact h
  | succ n ih =>
    rw [Session.stepBeatFor]
    split
    · exact ih h.stepBeat
    · exact h

/-- **The beat's turn.** -/
theorem Accounted.pollBeat (h : s.Accounted False) : s.pollBeat.Accounted False := by
  unfold Session.pollBeat
  split
  · exact Accounted.stepBeatFor (Accounted.rest (h.of_beat fun _ hb => nomatch hb)) _
  · exact h.stepBeatFor _

/-! ### The closing -/

/-- The session ends, and its end is accounted for by the answers that were given. -/
theorem Accounted.endWith {e : SessionEnd}
    (h : ({ s with closing := .fresh } : Session (Recorded σ)).Accounted False)
    (he : (Closing.over e).Accounts True s.link) : (s.endWith e).Accounted False := by
  have hd : s.desk.Leads s.desk.dispose.1 := Desk.Leads.refl.dispose
  obtain ⟨ts, hlog, hf⟩ := hd.record
  refine h.dispose.of_closing (he.mono (fun _ => s.isDisposed_dispose) ⟨_, hlog, fun _ hm => ?_⟩ ?_)
  · rw [starts_closings] at hm
    cases hm
  · exact fun n call _ hn => hn.of_append (hf.trans (List.append_nil _).symm)

theorem Accounted.afterFinish {r : Reply}
    (h : ({ s with closing := .fresh } : Session (Recorded σ)).Accounted False)
    (hr : Replied s.link.log .finish r) : (s.afterFinish r).Accounted False := by
  cases r with
  | done => exact h.endWith ⟨trivial, hr⟩
  | refused f => exact h.endWith ⟨trivial, f, .inr hr⟩
  | crashed k => exact h.of_closing (.inl ⟨k, .inr hr⟩)

theorem Accounted.afterPayload {o : Outcome} {r : Reply}
    (h : ({ s with closing := .fresh } : Session (Recorded σ)).Accounted False)
    (hr : Replied s.link.log (.write o.payload) r) : (s.afterPayload r).Accounted False := by
  cases r with
  | done =>
    obtain ⟨k, r, hs, hk, hr⟩ | ⟨k, n, hs, hk, hf⟩ :=
      startCall_serves (s := s) h.numbered .finish <;> rw [Session.afterPayload, hs]
    · exact Accounted.afterFinish (h.serve_closing finish_ne_beat hk) hr
    · exact (h.serve_closing finish_ne_beat hk).of_closing hf
  | refused f => exact h.endWith ⟨trivial, f, .inl ⟨o, hr⟩⟩
  | crashed k => exact h.of_closing (.inl ⟨k, .inl ⟨o, hr⟩⟩)

theorem Accounted.writePayload (h : s.Accounted False) (o : Outcome) :
    (s.writePayload o).Accounted False := by
  obtain ⟨k, r, hs, hk, hr⟩ | ⟨k, n, hs, hk, hf⟩ :=
    startCall_serves h.numbered (.write o.payload) <;> rw [Session.writePayload, hs]
  · exact Accounted.afterPayload (h.serve_closing (payload_ne_beat o) hk) hr
  · exact (h.serve_closing (payload_ne_beat o) hk).of_closing ⟨o, hf⟩

omit [Link σ] in
theorem Accounted.cancel (h : s.Accounted due) : s.cancel.Accounted due :=
  h.of_desk ⟨[], (List.append_nil _).symm⟩ rfl id h.called

theorem Accounted.discard (h : s.Accounted False) (hu : Unpaid s.link.log)
    (hd : s.isDisposed = true) : s.discard.Accounted False := by
  have hclosed : s.cancel.closeLink.1.Accounted False :=
    h.cancel.of_desk ⟨[(s.now, s.cancel.closeLink.2)], rfl⟩ rfl id h.called
  obtain ⟨-, hv⟩ | ⟨crash, hc, hv⟩ := s.discard_cases <;> rw [hv]
  · exact hclosed.of_closing hd
  · have hunpaid : Unpaid s.cancel.closeLink.1.link.log := hu.append rfl
    refine hclosed.of_closing (.inr ⟨hd, hunpaid, s.now, crash, ?_⟩)
    rw [← hc]
    exact List.mem_append_right _ (List.mem_singleton_self _)

theorem Accounted.afterStop (h : s.Accounted False) (hu : Unpaid s.link.log)
    {held : Option Outcome} (hd : held = none → s.isDisposed = true) :
    (s.afterStop held).Accounted False := by
  cases held with
  | none => exact h.discard hu (hd rfl)
  | some o =>
    rw [Session.afterStop]
    split
    · rename_i hdisposed
      exact h.discard hu hdisposed
    · exact h.writePayload o

theorem Accounted.stopBeat (h : s.Accounted False) (hu : Unpaid s.link.log)
    {held : Option Outcome} (hd : held = none → s.isDisposed = true) :
    (s.stopBeat held).Accounted False := by
  have hj : ({ s.cancel with joined := true } : Session (Recorded σ)).Accounted False :=
    h.cancel.of_counts _ _ _
  unfold Session.stopBeat
  dsimp only
  split
  · exact h.cancel.afterStop hu hd
  · split
    · exact hj.afterStop hu hd
    · cases held with
      | none => exact hj.of_closing (hd rfl)
      | some o => exact hj.of_closing trivial

/-- Nobody is told of a disposal that never began. -/
theorem Accounted.askOutcome (h : s.Accounted False) (hu : Unpaid s.link.log) {isFresh : Bool}
    (htold : s.tellsDisposed isFresh = true → s.isDisposed = true) :
    (s.askOutcome isFresh).Accounted False := by
  have hq (q : Promise) : ({ s with desk.promise := q } : Session (Recorded σ)).Accounted False :=
    h.of_desk ⟨[], (List.append_nil _).symm⟩ rfl id h.called
  unfold Session.askOutcome
  rcases s.desk.promise.poll with ⟨q, _ | o⟩
  · dsimp only
    split
    · rename_i ht
      exact (hq q).stopBeat hu fun _ => htold ht
    · exact (hq q).of_closing trivial
  · exact (hq q).stopBeat hu fun hn => nomatch hn

/-- **The closing's turn.** -/
theorem Accounted.pollClosing (h : s.Accounted False)
    (hu : s.closing.isUnpaid = true → Unpaid s.link.log) : s.pollClosing.Accounted False := by
  have hclosing := h.closing
  unfold Session.pollClosing
  split
  · rename_i hk
    exact h.askOutcome (hu (by rw [hk]; rfl)) id
  · rename_i hk
    exact h.askOutcome (hu (by rw [hk]; rfl)) h.called
  · rename_i hk
    rw [hk] at hclosing
    cases hclosing
  · rename_i deadline held hk
    split
    · refine h.afterStop (hu (by rw [hk]; rfl)) ?_
      rintro rfl
      rw [hk] at hclosing
      exact hclosing
    · exact h
  · rename_i number hk
    rw [hk] at hclosing
    obtain ⟨o, hf⟩ := hclosing
    obtain ⟨link, hs⟩ | ⟨k, r, hs, hserve, hr⟩ := pollCall_serves h.numbered hf <;> rw [hs]
    · exact h.of_link link
    · exact Accounted.afterPayload (h.serve_closing (payload_ne_beat o) hserve) hr
  · rename_i number hk
    rw [hk] at hclosing
    obtain ⟨link, hs⟩ | ⟨k, r, hs, hserve, hr⟩ := pollCall_serves h.numbered hclosing <;> rw [hs]
    · exact h.of_link link
    · exact Accounted.afterFinish (h.serve_closing finish_ne_beat hserve) hr
  · exact h
  · exact h
  · exact h

/-! ### A turn and a run -/

theorem Accounted.watch (h : s.Accounted False) {isFresh : Bool}
    (htold : s.tellsDisposed isFresh = true → s.isDisposed = true) :
    (s.watch isFresh).Accounted False := by
  unfold Session.watch
  split
  · have hd := h.dispose
    exact ⟨hd.numbered, hd.called, .inr (.inr s.isDisposed_dispose), hd.beating, hd.failed, hd.closing⟩
  · split
    · rename_i ht
      exact ⟨h.numbered, h.called, .inr (.inr (htold ht)), h.beating, h.failed, h.closing⟩
    · exact ⟨h.numbered, h.called, .inr (.inl rfl), h.beating, h.failed, h.closing⟩

/-- **A turn** keeps the account. -/
theorem Accounted.poll (h : s.Accounted False)
    (hu : s.closing.isUnpaid = true → Unpaid s.link.log) (t : Task) :
    (s.poll t).Accounted False := by
  cases t with
  | watcher =>
    show s.pollWatcher.Accounted False
    unfold Session.pollWatcher
    split
    · exact h.watch id
    · exact h.watch h.called
    · exact h
    · exact h
  | beat => exact h.pollBeat
  | closing => exact h.pollClosing hu
  | stop i =>
    show (s.pollStop i).Accounted False
    unfold Session.pollStop
    split
    · split
      · exact h.of_counts _ _ _
      · exact h
    · exact h

end Calls

end Session

/-! ### A whole run -/

namespace Scene

variable {σ : Type} [Link σ] {c v : Scene σ} {always : Scene σ → Prop}

/-- A session starts with nothing to account for, whatever its handler does. -/
theorem accounted_launch (l : σ) (now id : Nat) (interval : Span) (p : Prepared) :
    (launch l now id interval p).session.Accounted False := by
  let start := unexecuted { now, link := { link := l : Recorded σ } } id interval p
  have hstart : start.Accounted False := by
    refine ⟨.nil, (fun hc => nomatch hc), .inl rfl, (fun _ hb => nomatch hb), ?_, trivial⟩
    rintro f ⟨_, _, _, _, hb, -⟩
    cases hb
  have hd : start.desk.Leads (start.desk.execute p.name p.program).1 :=
    Desk.Leads.refl.execute p.name p.program
  obtain ⟨ts, hlog, hf⟩ := hd.record
  exact hstart.of_desk ⟨ts, hlog⟩ hf hd.isDisposed (hd.called hstart.called)

/-- **A step** keeps the account, and a disposal from outside goes on only once it has begun. -/
theorem accounted_step {d : Deed σ} (h : c.session.Accounted False)
    (hu : c.session.closing.isUnpaid = true → Unpaid c.log)
    (ho : c.outside = .none ∨ c.session.isDisposed = true) (hs : c.step d = some v) :
    v.session.Accounted False ∧ (v.outside = .none ∨ v.session.isDisposed = true) := by
  have hnone : ∃ ts, c.log = c.log ++ closings ts := ⟨[], (List.append_nil _).symm⟩
  have hleads {e : Desk (Line (Recorded σ))} (hd : c.session.desk.Leads e) :
      ({ c.session with desk := e } : Session (Recorded σ)).Accounted False ∧
        (c.session.isDisposed = true → e.scope.isDisposed = true) := by
    obtain ⟨ts, hlog, hf⟩ := hd.record
    exact ⟨h.of_desk ⟨ts, hlog⟩ hf hd.isDisposed (hd.called h.called), hd.isDisposed⟩
  cases d with
  | poll t =>
    cases hs
    obtain ⟨ks, hl⟩ := leads_poll c.session t
    exact ⟨h.poll hu t, ho.imp_right hl.isDisposed⟩
  | tick now =>
    rw [step] at hs
    split at hs <;> cases hs
    exact ⟨h.of_desk hnone rfl id h.called, ho⟩
  | link l =>
    cases hs
    exact ⟨h.of_link l, ho⟩
  | claim o | send | share | release | cancel =>
    cases hs
    exact ⟨h.of_desk hnone rfl id h.called, ho⟩
  | push p =>
    rw [step] at hs
    split at hs <;> cases hs
    exact ⟨h.of_desk hnone rfl id h.called, ho⟩
  | runHere p =>
    rw [step] at hs
    split at hs <;> cases hs
    obtain ⟨hv, hd⟩ := hleads (Desk.Leads.refl.runCleanup (.program p))
    exact ⟨hv, ho.imp_right hd⟩
  | raise =>
    rw [step] at hs
    split at hs <;> cases hs
    rename_i scope hr
    have hraised : scope.isDisposed = true :=
      (congrArg (fun x => x.1.isDisposed) hr).symm
    exact ⟨h.of_desk hnone rfl (fun _ => hraised) (fun _ => hraised), .inr hraised⟩
  | take =>
    rw [step] at hs
    split at hs <;> cases hs
    rename_i hout
    exact ⟨h.of_desk hnone rfl id h.called, .inr (ho.resolve_left (by simp [hout]))⟩
  | clean =>
    rw [step] at hs
    split at hs <;> cases hs
    rename_i k rest hout
    obtain ⟨hv, hd⟩ := hleads (Desk.Leads.refl.runCleanup k)
    exact ⟨hv, .inr (hd (ho.resolve_left (by simp [hout])))⟩
  | announce =>
    rw [step] at hs
    split at hs <;> cases hs
    rename_i hout
    have hd : c.session.isDisposed = true := ho.resolve_left (by simp [hout])
    exact ⟨h.of_desk hnone rfl id fun _ => hd, .inl rfl⟩

/-- **A run** keeps the account. -/
theorem Reachable.accounted {l : σ} {now id : Nat} {interval : Span} {p : Prepared}
    (h : Reachable (launch l now id interval p) always c) :
    c.session.Accounted False ∧ (c.outside = .none ∨ c.session.isDisposed = true) := by
  induction h with
  | start => exact ⟨accounted_launch l now id interval p, .inl rfl⟩
  | step h d hs _ ih =>
    have hfits := (h.ordered False fun hf => hf.elim).fits
    exact accounted_step ih.1 hfits.unpaid ih.2 hs

end Scene

end HeldReply
