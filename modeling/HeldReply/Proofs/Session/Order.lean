import HeldReply.Link.Scripted
import HeldReply.Proofs.Session.Bids
import HeldReply.Proofs.Session.Record

/-!
# The order of the writes of a session

Three tasks and others from outside use one link, and what begins on it is nevertheless in order:
beats, then at most one last chunk, and then at most once the end.

* `Session.Ordered` — **the invariant**: what is recorded fits what the closing and the beat do;
* `Session.Ordered.poll`, `Scene.Reachable.ordered` — a task's turn and a run keep it;
* `Scene.writes_in_order` — **the writes are in order**.
-/

namespace HeldReply

open Recorded Session
open Promise (Bid)

namespace Session

variable {σ : Type} {timely : Prop} {beats : Nat} {first : Option Outcome}
  {s v : Session (Recorded σ)}

/-- **Beats settle in time**: none is in flight for as long as the closing would wait for it. -/
def IsPrompt [Link σ] (s : Session (Recorded σ)) : Prop :=
  ∀ f ∈ s.link.unsettled s.now, f.call = .write beatChunk → s.now < f.beganAt + s.patience.ticks

/-- **What is recorded fits what the tasks do.**  So many beats began until the beat was stopped; the
outcome that counted first counts; if all beats are timely, the last chunk begins alone. -/
structure Ordered (timely : Prop) (beats : Nat) (first : Option Outcome)
    (s : Session (Recorded σ)) : Prop where
  joined_iff : s.joined = true ↔ s.closing.isEarly = false
  cancelled : s.joined = true → s.isCancelled = true
  beats_eq : s.joined = true → beatsBegun s.link.log = beats
  counts : ∀ o, first = some o → s.desk.promise.answer? = some o
  fits : s.closing.Fits s.desk.promise.stage.outcome? s.link.log
  /-- A beat in flight is the one that the beat waits for. -/
  beating : ∀ f ∈ s.link.flights, f.call = .write beatChunk →
    s.beat = .writing f.number ∧ f.beganAt ≤ s.now
  unpaid : s.closing.isUnpaid = true → ∀ f ∈ s.link.flights, f.call = .write beatChunk
  /-- What is in flight while the closing waits began before the wait. -/
  stopping : ∀ deadline held, s.closing = .stopping deadline held →
    ∃ t, t ≤ s.now ∧ deadline = s.patience.waitUntil t ∧ ∀ f ∈ s.link.flights, f.beganAt ≤ t
  alone : timely → ∀ now number chunk beside,
    .began now number (.write chunk) beside ∈ s.link.log → chunk ≠ beatChunk → beside = []

/-! ### Nothing begins -/

/-- **No call begins**, the closing stays, and the beat stays as long as one is in flight. -/
theorem Ordered.of_follows (h : Ordered timely beats first s) (hd : Desk.Follows s.desk v.desk)
    (hj : v.joined = s.joined) (hk : v.closing = s.closing) (hp : v.patience = s.patience)
    (hb : ∀ f ∈ v.link.flights, f.call = .write beatChunk → v.beat = s.beat) :
    Ordered timely beats first v := by
  obtain ⟨es, hes, hlog⟩ := hd.log
  have hlog : v.link.log = s.link.log ++ es := hlog
  constructor
  · rw [hj, hk]
    exact h.joined_iff
  · rw [hj]
    exact fun hv => hd.cancelled (h.cancelled hv)
  · rw [hj, hlog, beatsBegun_append hes]
    exact h.beats_eq
  · exact fun o ho => hd.promise.answer o (h.counts o ho)
  · rw [hk, hlog]
    exact h.fits.mono hd.promise.outcome hes
  · intro f hf hc
    obtain ⟨hw, hle⟩ := h.beating f (hd.flights f hf) hc
    exact ⟨(hb f hf hc).trans hw, Nat.le_trans hle hd.now_le⟩
  · rw [hk]
    exact fun hu f hf => h.unpaid hu f (hd.flights f hf)
  · intro deadline held hs
    obtain ⟨t, ht, hdl, hf⟩ := h.stopping deadline held (hk ▸ hs)
    exact ⟨t, Nat.le_trans ht hd.now_le, hp ▸ hdl, fun f hv => hf f (hd.flights f hv)⟩
  · intro ht now number chunk beside hm
    rw [hlog] at hm
    exact h.alone ht now number chunk beside (began_mem_append hes hm)

/-- A beat that waits for no write may be at any point but that. -/
theorem Ordered.of_idle (h : Ordered timely beats first s) (hw : ∀ n, s.beat ≠ .writing n)
    (b : Beat) : Ordered timely beats first { s with beat := b } :=
  h.of_follows (.refl _) rfl rfl rfl fun f hf hc => absurd (h.beating f hf hc).1 (hw f.number)

/-- The closing goes on, after its stop, to where nothing is left to be written. -/
theorem Ordered.of_closing {k : Closing} (h : Ordered timely beats first s)
    (hs : s.closing.isEarly = false) (hk : k.isUnpaid = false)
    (hfits : k.Fits s.desk.promise.stage.outcome? s.link.log) :
    Ordered timely beats first { s with closing := k } := by
  have hearly : k.isEarly = false := by
    cases k <;> first | rfl | cases hk
  refine ⟨?_, h.cancelled, h.beats_eq, h.counts, hfits, h.beating, fun hu => ?_, ?_, h.alone⟩
  · exact iff_of_true (h.joined_iff.2 hs) hearly
  · cases hk.symm.trans hu
  · rintro deadline held rfl
    cases hk

/-- Before the stop nobody joined, nothing but beats began, and none but a beat is in flight. -/
theorem Ordered.of_isEarly (h : Ordered timely beats first s) (hk : s.closing.isEarly = true) :
    s.joined = false ∧ Unpaid s.link.log ∧ ∀ f ∈ s.link.flights, f.call = .write beatChunk := by
  have hjoined : s.joined = false := by
    rw [← Bool.not_eq_true, h.joined_iff, hk]
    simp
  have hfits := h.fits
  have hunpaid := h.unpaid
  cases hs : s.closing <;> rw [hs] at hfits hunpaid hk
  case absent | fresh | waiting => exact ⟨hjoined, hfits, hunpaid rfl⟩
  case delayed => cases hfits
  all_goals cases hk

/-- The closing waits. -/
theorem Ordered.wait (h : Ordered timely beats first s) (hk : s.closing.isEarly = true) :
    Ordered timely beats first { s with closing := .waiting } := by
  obtain ⟨hjoined, hu, hf⟩ := h.of_isEarly hk
  refine ⟨iff_of_false ?_ Bool.noConfusion, h.cancelled, h.beats_eq, h.counts, hu, h.beating,
    fun _ => hf, (fun _ _ hs => nomatch hs), h.alone⟩
  rw [hjoined]
  exact Bool.false_ne_true

section Calls

variable [Link σ]

/-- **Everything that starting a call can do** to a session. -/
theorem startCall_cases (s : Session (Recorded σ)) (call : Call) :
    ∃ beside, beside = (s.link.unsettled s.now).map Flight.number ∧
      ((∃ link r, s.startCall call = (s.withLink { s.link with
          link
          log := s.link.log ++ [.began s.now s.link.log.length call beside,
            .answered s.now s.link.log.length r] }, .answered r)) ∨
        (∃ link ticket, s.startCall call = (s.withLink { s.link with
          link
          log := s.link.log ++ [.began s.now s.link.log.length call beside]
          flights := s.link.flights ++ [⟨s.link.log.length, call, s.now, ticket⟩] },
            .inFlight s.link.log.length))) := by
  refine ⟨_, rfl, ?_⟩
  have hs : s.startCall call =
      (s.withLink (Recorded.start s.now call s.link).1, (Recorded.start s.now call s.link).2) := rfl
  obtain ⟨link, r, h⟩ | ⟨link, ticket, h⟩ := Recorded.start_cases s.now call s.link
  · exact .inl ⟨link, r, by rw [hs, h]⟩
  · exact .inr ⟨link, ticket, by rw [hs, h]⟩

/-- **Everything that asking for a call can do** to a session. -/
theorem pollCall_cases (s : Session (Recorded σ)) (number : Nat) :
    (∃ link, s.pollCall number = (s.withLink { s.link with link }, none)) ∨
    (∃ link r, s.pollCall number = (s.withLink {
      link, log := s.link.log ++ [.answered s.now number r]
      flights := s.link.flights.filter fun f => f.number != number }, some r)) := by
  have hs : s.pollCall number = (s.withLink (Recorded.poll s.now number s.link).1,
      (Recorded.poll s.now number s.link).2) := rfl
  obtain ⟨link, h⟩ | ⟨link, r, h⟩ := Recorded.poll_cases s.now number s.link
  · exact .inl ⟨link, by rw [hs, h]⟩
  · exact .inr ⟨link, r, by rw [hs, h]⟩

omit [Link σ] in
/-- The link changes, but not what is recorded of it. -/
theorem follows_link (s : Session (Recorded σ)) (link : σ) :
    Desk.Follows s.desk (s.withLink { s.link with link }).desk :=
  ⟨Nat.le_refl _, id, .of_stage rfl, ⟨[], rfl, (List.append_nil _).symm⟩, fun _ => id⟩

omit [Link σ] in
/-- An answer is fetched. -/
theorem follows_answer (s : Session (Recorded σ)) (link : σ) (number : Nat) (r : Reply) :
    Desk.Follows s.desk (s.withLink {
      link, log := s.link.log ++ [.answered s.now number r]
      flights := s.link.flights.filter fun f => f.number != number }).desk :=
  ⟨Nat.le_refl _, id, .of_stage rfl, ⟨_, rfl, rfl⟩, fun _ hf => (List.mem_filter.1 hf).1⟩

/-! ### The beat -/

omit [Link σ] in
theorem Ordered.rest (h : Ordered timely beats first { s with beat := .ended }) :
    Ordered timely beats first s.rest :=
  h.of_idle (fun _ hb => nomatch hb) _

theorem Ordered.afterBeat (h : Ordered timely beats first { s with beat := .ended }) (r : Reply) :
    Ordered timely beats first (s.afterBeat r) := by
  cases r with
  | done =>
    have hcount : Ordered timely beats first { s with beats := s.beats + 1, beat := .ended } :=
      h.of_follows (.refl _) rfl rfl rfl fun _ _ _ => rfl
    exact hcount.rest
  | refused f => exact h.of_follows (Desk.follows_dispose _) rfl rfl rfl fun _ _ _ => rfl
  | crashed c => exact h.of_idle (fun _ hb => nomatch hb) _

omit [Link σ] in
/-- **A beat begins** while it is not cancelled: the closing did not stop it, and nothing but beats
began. -/
theorem Ordered.of_beat {number : Nat} {beside : List Nat} {es : List Entry}
    (h : Ordered timely beats first { s with beat := .ended }) (hc : s.isCancelled = false)
    (hp : v.desk.promise = s.desk.promise) (hj : v.joined = s.joined) (hk : v.closing = s.closing)
    (hlog : v.link.log = s.link.log ++ .began s.now number (.write beatChunk) beside :: es)
    (hes : starts es = [])
    (hf : ∀ f ∈ v.link.flights, f ∉ s.link.flights →
      f.call = .write beatChunk ∧ v.beat = .writing f.number ∧ f.beganAt ≤ v.now) :
    Ordered timely beats first v := by
  have hjoined : s.joined = false := by
    cases hs : s.joined with
    | false => rfl
    | true => cases hc.symm.trans (h.cancelled hs)
  have hearly : s.closing.isEarly = true := by
    cases hs : s.closing.isEarly with
    | true => rfl
    | false => cases hjoined.symm.trans (h.joined_iff.2 hs)
  obtain ⟨-, hu, hflight⟩ := h.of_isEarly hearly
  -- Only a beat could be in flight, and the one before is over.
  have hnone : ∀ f, f ∉ s.link.flights :=
    fun f hm => nomatch (h.beating f hm (hflight f hm)).1
  have hjv : v.joined = false := hj.trans hjoined
  constructor
  · rw [hj, hk]
    exact h.joined_iff
  · exact fun hv => absurd (hjv.symm.trans hv) Bool.false_ne_true
  · exact fun hv => absurd (hjv.symm.trans hv) Bool.false_ne_true
  · rw [hp]
    exact h.counts
  · have hbeat : Unpaid v.link.log := by
      intro call hcall
      rw [hlog, starts_append, starts_cons, hes] at hcall
      rcases List.mem_append.1 hcall with hm | hm
      · exact hu call hm
      · exact List.mem_singleton.1 hm
    have hfits : s.closing.Fits s.desk.promise.stage.outcome? s.link.log := h.fits
    rw [hk]
    cases hs : s.closing <;> rw [hs] at hfits hearly
    case absent | fresh | waiting => exact hbeat
    case delayed => exact hfits
    all_goals cases hearly
  · exact fun f hm _ => (hf f hm (hnone f)).2
  · exact fun _ f hm => (hf f hm (hnone f)).1
  · intro deadline held hs
    rw [← hk, hs] at hearly
    cases hearly
  · intro ht now m chunk b hm hne
    rw [hlog] at hm
    rcases began_mem_append_cons hes hm with hm | hm
    · exact h.alone ht now m chunk b hm hne
    · cases hm
      exact absurd rfl hne

theorem Ordered.writeBeat (h : Ordered timely beats first { s with beat := .ended })
    (hc : s.isCancelled = false) : Ordered timely beats first s.writeBeat := by
  obtain ⟨beside, -, ⟨link, r, hs⟩ | ⟨link, ticket, hs⟩⟩ := s.startCall_cases (.write beatChunk)
  · rw [Session.writeBeat, hs]
    refine Ordered.afterBeat ?_ r
    refine h.of_beat hc rfl rfl rfl rfl rfl ?_
    exact fun f hm hn => absurd hm hn
  · rw [Session.writeBeat, hs]
    refine h.of_beat hc rfl rfl rfl rfl rfl fun f hm hn => ?_
    obtain rfl := List.mem_singleton.1 ((List.mem_append.1 hm).resolve_left hn)
    exact ⟨rfl, rfl, Nat.le_refl _⟩

theorem Ordered.stepBeat (h : Ordered timely beats first s) :
    Ordered timely beats first s.stepBeat := by
  have hidle (hw : ∀ n, s.beat ≠ .writing n) :
      Ordered timely beats first { s with beat := .ended } := h.of_idle hw _
  unfold Session.stepBeat
  split
  · rename_i hb
    exact (hidle (by simp [hb])).rest
  · rename_i wakeAt hb
    have hended := hidle (by simp [hb])
    split
    · exact hended
    · rename_i hc
      split
      · exact hended.writeBeat (by simpa using hc)
      · exact h
  · rename_i ticket hb
    obtain ⟨link, hs⟩ | ⟨link, r, hs⟩ := s.pollCall_cases ticket <;> rw [hs]
    · exact h.of_follows (s.follows_link link) rfl rfl rfl fun _ _ _ => rfl
    · refine Ordered.afterBeat ?_ r
      -- The only beat in flight is the one that was answered.
      refine h.of_follows (s.follows_answer link ticket r) rfl rfl rfl fun f hf hc => ?_
      obtain ⟨hf, hne⟩ := List.mem_filter.1 hf
      have hw := (h.beating f hf hc).1
      rw [hb, Beat.writing.injEq] at hw
      simp [hw] at hne
  · exact h
  · exact h

theorem Ordered.stepBeatFor (h : Ordered timely beats first s) (n : Nat) :
    Ordered timely beats first (s.stepBeatFor n) := by
  induction n generalizing s with
  | zero => exact h
  | succ n ih =>
    rw [Session.stepBeatFor]
    split
    · exact ih h.stepBeat
    · exact h

/-- **The beat's turn.** -/
theorem Ordered.pollBeat (h : Ordered timely beats first s) :
    Ordered timely beats first s.pollBeat := by
  unfold Session.pollBeat
  split
  · rename_i hb
    have hended : Ordered timely beats first { s with beat := .ended } := h.of_idle (by simp [hb]) _
    exact hended.rest.stepBeatFor _
  · exact h.stepBeatFor _

/-! ### The closing -/

/-- The session ends after the last chunk began. -/
theorem Ordered.endWith {k : Closing} {e : SessionEnd}
    (h : Ordered timely beats first { s with closing := k }) (hk : k.isEarly = false)
    (hp : HasPaid s.desk.promise.stage.outcome? s.link.log) (he : e ≠ .discarded) :
    Ordered timely beats first (s.endWith e) := by
  have hd := Desk.follows_dispose s.desk
  obtain ⟨es, hes, hlog⟩ := hd.log
  have hpaid : HasPaid s.dispose.1.desk.promise.stage.outcome? s.dispose.1.link.log := by
    rw [show s.dispose.1.link.log = s.link.log ++ es from hlog]
    exact hp.mono hd.promise.outcome hes
  have hdisposed : Ordered timely beats first { s.dispose.1 with closing := k } :=
    h.of_follows hd rfl rfl rfl fun _ _ _ => rfl
  refine hdisposed.of_closing (k := .over e) hk rfl ?_
  cases e with
  | discarded => exact absurd rfl he
  | delivered | writeFailed => exact hpaid

/-- **The session ends** before the last chunk began. -/
theorem Ordered.discard {deadline : Nat} {held : Option Outcome}
    (h : Ordered timely beats first { s with closing := .stopping deadline held }) :
    Ordered timely beats first s.discard := by
  have hd : Desk.Follows s.desk s.cancel.closeLink.1.desk :=
    (Desk.follows_cancelBeat s.desk).trans (Desk.follows_closeLink _)
  have hclosed : Ordered timely beats first
      { s.cancel.closeLink.1 with closing := .stopping deadline held } :=
    h.of_follows hd rfl rfl rfl fun _ _ _ => rfl
  obtain ⟨-, hv⟩ | ⟨_, -, hv⟩ := s.discard_cases <;> rw [hv]
  · exact hclosed.of_closing (k := .over .discarded) rfl rfl hclosed.fits.1
  · exact hclosed.of_closing (k := .crashed) rfl rfl (.inl hclosed.fits.1)

theorem Ordered.afterFinish (number : Nat)
    (h : Ordered timely beats first { s with closing := .finishing number }) (r : Reply) :
    Ordered timely beats first (s.afterFinish r) := by
  obtain ⟨o, ho, he⟩ := h.fits
  have hp : HasPaid s.desk.promise.stage.outcome? s.link.log := ⟨o, ho, .inr he⟩
  cases r with
  | done => exact h.endWith rfl hp fun hk => nomatch hk
  | refused f => exact h.endWith rfl hp fun hk => nomatch hk
  | crashed c => exact h.of_closing (k := .crashed) rfl rfl (.inr hp)

omit [Link σ] in
/-- **The last chunk or the end begins**, after the beat was stopped. -/
theorem Ordered.of_call {k : Closing} {number : Nat} {beside : List Nat} {es : List Entry}
    (h : Ordered timely beats first { s with closing := k }) (call : Call) (hk : k.isEarly = false)
    (hcall : call ≠ .write beatChunk) (hd : v.desk.around.cancelled = s.desk.around.cancelled)
    (hnow : v.now = s.now) (hp : v.desk.promise = s.desk.promise) (hj : v.joined = s.joined)
    (hb : v.beat = s.beat)
    (hlog : v.link.log = s.link.log ++ .began s.now number call beside :: es)
    (hes : starts es = []) (hf : ∀ f ∈ v.link.flights, f ∈ s.link.flights ∨ f.call = call)
    (hv : v.closing.isUnpaid = false)
    (hfits : v.closing.Fits v.desk.promise.stage.outcome? v.link.log)
    (halone : timely → (∃ chunk, call = .write chunk) → beside = []) :
    Ordered timely beats first v := by
  have hearly : v.closing.isEarly = false := by
    cases hc : v.closing <;> rw [hc] at hv <;> first | rfl | cases hv
  have hjoined : s.joined = true := h.joined_iff.2 hk
  have hstarts : starts v.link.log = starts s.link.log ++ [call] := by
    rw [hlog, starts_append, starts_cons, hes]
    rfl
  constructor
  · exact iff_of_true (hj.trans hjoined) hearly
  · intro _
    exact hd.trans (h.cancelled hjoined)
  · intro _
    rw [beatsBegun, hstarts, List.count_append, List.count_singleton,
      if_neg (by simpa using hcall)]
    exact h.beats_eq hjoined
  · rw [hp]
    exact h.counts
  · exact hfits
  · intro f hm hc
    rcases hf f hm with hm | hm
    · rw [hb, hnow]
      exact h.beating f hm hc
    · exact absurd (hm.symm.trans hc) hcall
  · intro hu
    cases hv.symm.trans hu
  · intro deadline held hs
    rw [hs] at hv
    cases hv
  · intro ht now m chunk b hm hne
    rw [hlog] at hm
    rcases began_mem_append_cons hes hm with hm | hm
    · exact h.alone ht now m chunk b hm hne
    · cases hm
      exact halone ht ⟨chunk, rfl⟩

/-- What comes after the last chunk, if it is recorded that it was written. -/
theorem Ordered.afterPayload (number : Nat)
    (h : Ordered timely beats first { s with closing := .writing number }) (r : Reply)
    (hr : r = .done → ∃ o, s.desk.promise.stage.outcome? = some o ∧ Landed o s.link.log) :
    Ordered timely beats first (s.afterPayload r) := by
  have hp : HasPaid s.desk.promise.stage.outcome? s.link.log := by
    obtain ⟨o, ho, hp⟩ := h.fits
    exact ⟨o, ho, .inl ⟨number, hp⟩⟩
  cases r with
  | done =>
    obtain ⟨o, ho, hl⟩ := hr rfl
    rw [Session.afterPayload]
    obtain ⟨beside, -, ⟨link, r, hs⟩ | ⟨link, ticket, hs⟩⟩ := s.startCall_cases .finish <;> rw [hs]
    · refine Ordered.afterFinish s.link.log.length ?_ r
      refine h.of_call .finish rfl (fun hc => nomatch hc) rfl rfl rfl rfl rfl rfl rfl ?_ rfl ?_ ?_
      · exact fun f hm => .inl hm
      · exact ⟨o, ho, hl.finish s.now s.link.log.length beside rfl⟩
      · exact fun _ ⟨_, hc⟩ => nomatch hc
    · refine h.of_call .finish rfl (fun hc => nomatch hc) rfl rfl rfl rfl rfl rfl rfl ?_ rfl ?_ ?_
      · exact fun f hm => (List.mem_append.1 hm).imp_right fun hm => by
          rw [List.mem_singleton.1 hm]
      · exact ⟨o, ho, hl.finish s.now s.link.log.length beside rfl⟩
      · exact fun _ ⟨_, hc⟩ => nomatch hc
  | refused f => exact h.endWith rfl hp fun hk => nomatch hk
  | crashed c => exact h.of_closing (k := .crashed) rfl rfl (.inr hp)

/-- **The last chunk begins**, and it begins alone if nothing is in flight. -/
theorem Ordered.writePayload {deadline : Nat} {o : Outcome}
    (h : Ordered timely beats first { s with closing := .stopping deadline (some o) })
    (halone : timely → s.link.unsettled s.now = []) :
    Ordered timely beats first (s.writePayload o) := by
  obtain ⟨hu, ho⟩ := h.fits
  have ho : s.desk.promise.stage.outcome? = some o := ho o rfl
  have hcall : Call.write o.payload ≠ .write beatChunk :=
    fun hc => o.payload_ne_blank (Call.write.inj hc)
  rw [Session.writePayload]
  obtain ⟨beside, hbeside, ⟨link, r, hs⟩ | ⟨link, ticket, hs⟩⟩ :=
    s.startCall_cases (.write o.payload) <;> rw [hs]
  · refine Ordered.afterPayload s.link.log.length ?_ r ?_
    · refine h.of_call (.write o.payload) rfl hcall rfl rfl rfl rfl rfl rfl rfl ?_ rfl ?_ ?_
      · exact fun f hm => .inl hm
      · exact ⟨o, ho, hu.pay o s.now s.link.log.length beside rfl⟩
      · exact fun ht _ => by rw [hbeside, halone ht]; rfl
    · rintro rfl
      have hpaid : Paid o s.link.log.length _ := hu.pay o s.now s.link.log.length beside starts_nil
      have hland := hpaid.land s.now
      rw [List.append_assoc] at hland
      exact ⟨o, ho, hland⟩
  · refine h.of_call (.write o.payload) rfl hcall rfl rfl rfl rfl rfl rfl rfl ?_ rfl ?_ ?_
    · exact fun f hm => (List.mem_append.1 hm).imp_right fun hm => by
        rw [List.mem_singleton.1 hm]
    · exact ⟨o, ho, hu.pay o s.now s.link.log.length beside rfl⟩
    · exact fun ht _ => by rw [hbeside, halone ht]; rfl

theorem Ordered.afterStop {deadline : Nat} {held : Option Outcome}
    (h : Ordered timely beats first { s with closing := .stopping deadline held })
    (halone : timely → s.link.unsettled s.now = []) :
    Ordered timely beats first (s.afterStop held) := by
  cases held with
  | none => exact h.discard
  | some o =>
    rw [Session.afterStop]
    split
    · exact h.discard
    · exact h.writePayload halone

/-- **Nothing is in flight** when the beat is over, or has been waited for in vain. -/
theorem Ordered.unsettled_eq_nil {deadline : Nat} {held : Option Outcome}
    (h : Ordered timely beats first { s with closing := .stopping deadline held }) (hp : s.IsPrompt)
    (hd : s.beat.isOver = true ∨ s.patience.isZero = true ∨ deadline ≤ s.now) :
    s.link.unsettled s.now = [] := by
  refine List.eq_nil_iff_forall_not_mem.2 fun f hf => ?_
  have hfl : f ∈ s.link.flights := (List.mem_filter.1 hf).1
  have hcall : f.call = .write beatChunk := h.unpaid rfl f hfl
  obtain ⟨hw, hle⟩ := h.beating f hfl hcall
  have hlt := hp f hf hcall
  have hw : s.beat = .writing f.number := hw
  have hle : f.beganAt ≤ s.now := hle
  rcases hd with ho | hz | hdl
  · rw [hw] at ho
    cases ho
  · have hticks : s.patience.ticks = 0 := by
      have hnanos : s.patience.nanos = 0 := by simpa [Span.isZero] using hz
      simp [Span.ticks, hnanos]
    omega
  · obtain ⟨t, ht, hend, hbegan⟩ := h.stopping _ _ rfl
    have ht : t ≤ s.now := ht
    have hend : deadline = s.patience.waitUntil t := hend
    -- It began before the wait did, so it would have lasted as long as the wait.
    have hbt : f.beganAt ≤ t := hbegan f hfl
    rw [hend, Span.waitUntil] at hdl
    omega

/-- **The closing stops the beat.** -/
theorem Ordered.stopBeat {held : Option Outcome} (h : Ordered timely beats first s)
    (hp : timely → s.IsPrompt) (hk : s.closing.isEarly = true)
    (hbeats : beatsBegun s.link.log = beats)
    (hheld : ∀ o, held = some o → s.desk.promise.stage.outcome? = some o) :
    Ordered timely beats first (s.stopBeat held) := by
  obtain ⟨hjoined, hu, hflight⟩ := h.of_isEarly hk
  have hstopped : Ordered timely beats first { s.cancel with
      joined := true, closing := .stopping (s.patience.waitUntil s.now) held } := by
    refine ⟨iff_of_true rfl rfl, fun _ => rfl, fun _ => hbeats, h.counts, ⟨hu, hheld⟩, h.beating,
      fun _ => hflight, ?_, h.alone⟩
    rintro deadline held' hs
    cases hs
    exact ⟨s.now, Nat.le_refl _, rfl, fun f hf => (h.beating f hf (hflight f hf)).2⟩
  have hstop : s.stopBeat held =
      if s.beat.isOver || s.patience.isZero then { s.cancel with joined := true }.afterStop held
      else { s.cancel with
        joined := true, closing := .stopping (s.patience.waitUntil s.now) held } := by
    have hnot : s.cancel.joined ≠ true := by simpa [cancel] using hjoined
    rw [Session.stopBeat, if_neg hnot]
    rfl
  rw [hstop]
  split
  · rename_i hd
    have hover := (Bool.or_eq_true _ _ ▸ hd : s.beat.isOver = true ∨ s.patience.isZero = true)
    refine Ordered.afterStop hstopped fun ht => ?_
    exact hstopped.unsettled_eq_nil (hp ht) (hover.imp_right .inl)
  · exact hstopped

theorem Ordered.askOutcome (h : Ordered timely beats first s) (hp : timely → s.IsPrompt)
    (hk : s.closing.isEarly = true) (hbeats : beatsBegun s.link.log = beats) (isFresh : Bool) :
    Ordered timely beats first (s.askOutcome isFresh) := by
  obtain ⟨hout, hstage⟩ := s.desk.promise.poll_outcome
  have hpolled : Ordered timely beats first { s with desk.promise := s.desk.promise.poll.1 } := by
    exact h.of_follows (.of_promise rfl (.of_stage hstage)) rfl rfl rfl fun _ _ _ => rfl
  unfold Session.askOutcome
  rcases hq : s.desk.promise.poll with ⟨q, outcome⟩
  rw [hq] at hpolled hout hstage
  cases outcome with
  | some o =>
    refine hpolled.stopBeat hp hk hbeats fun x hx => ?_
    cases hx
    show q.stage.outcome? = some o
    rw [hstage, ← hout]
  | none =>
    show Ordered timely beats first (if _ then _ else _)
    split
    · exact hpolled.stopBeat hp hk hbeats fun _ hx => nomatch hx
    · exact hpolled.wait hk

/-- **The closing's turn.** -/
theorem Ordered.pollClosing (h : Ordered timely beats first s) (hp : timely → s.IsPrompt)
    (hbeats : beatsBegun s.link.log = beats) : Ordered timely beats first s.pollClosing := by
  have hself {k : Closing} (hk : s.closing = k) :
      Ordered timely beats first { s with closing := k } := by
    rw [← hk]
    exact h
  unfold Session.pollClosing
  split
  · rename_i hk
    exact h.askOutcome hp (by rw [hk]; rfl) hbeats true
  · rename_i hk
    exact h.askOutcome hp (by rw [hk]; rfl) hbeats false
  · rename_i startAt o hk
    have hfits := h.fits
    rw [hk] at hfits
    cases hfits
  · rename_i deadline held hk
    split
    · rename_i hd
      have hd : s.beat.isOver = true ∨ deadline ≤ s.now := by simpa using hd
      refine (hself hk).afterStop fun ht => ?_
      exact (hself hk).unsettled_eq_nil (hp ht) (hd.imp_right .inr)
    · exact h
  · rename_i number hk
    obtain ⟨link, hs⟩ | ⟨link, r, hs⟩ := s.pollCall_cases number <;> rw [hs]
    · exact h.of_follows (s.follows_link link) rfl rfl rfl fun _ _ _ => rfl
    · obtain ⟨o, ho, hpaid⟩ := (hself hk).fits
      refine Ordered.afterPayload number ?_ r ?_
      · exact (hself hk).of_follows (s.follows_answer link number r) rfl rfl rfl fun _ _ _ => rfl
      · rintro rfl
        exact ⟨o, ho, hpaid.land s.now⟩
  · rename_i number hk
    obtain ⟨link, hs⟩ | ⟨link, r, hs⟩ := s.pollCall_cases number <;> rw [hs]
    · exact h.of_follows (s.follows_link link) rfl rfl rfl fun _ _ _ => rfl
    · refine Ordered.afterFinish number ?_ r
      exact (hself hk).of_follows (s.follows_answer link number r) rfl rfl rfl fun _ _ _ => rfl
  · exact h
  · exact h
  · exact h

/-! ### A turn and a run -/

theorem Ordered.watch (h : Ordered timely beats first s) (isFresh : Bool) :
    Ordered timely beats first (s.watch isFresh) := by
  unfold Session.watch
  split
  · exact h.of_follows (Desk.follows_dispose _) rfl rfl rfl fun _ _ _ => rfl
  · split <;> exact h.of_follows (.refl _) rfl rfl rfl fun _ _ _ => rfl

/-- **A turn** keeps the invariant. -/
theorem Ordered.poll (h : Ordered timely beats first s) (hp : timely → s.IsPrompt)
    (hbeats : beatsBegun s.link.log = beats) (t : Task) : Ordered timely beats first (s.poll t) := by
  cases t with
  | watcher =>
    show Ordered timely beats first s.pollWatcher
    unfold Session.pollWatcher
    split
    · exact h.watch true
    · exact h.watch false
    · exact h
    · exact h
  | beat => exact h.pollBeat
  | closing => exact h.pollClosing hp hbeats
  | stop i =>
    show Ordered timely beats first (s.pollStop i)
    unfold Session.pollStop
    split
    · split
      · exact h.of_follows (.refl _) rfl rfl rfl fun _ _ _ => rfl
      · exact h
    · exact h

end Calls

end Session

/-! ### A whole run -/

namespace Scene

variable {σ : Type} [Link σ] {timely : Prop} {beats : Nat} {first : Option Outcome} {c v : Scene σ}
  {always : Scene σ → Prop}

/-- What a session starts with keeps the invariant, whatever its handler does. -/
theorem ordered_launch (timely : Prop) (l : σ) (now id : Nat) (interval : Span) (p : Prepared) :
    (launch l now id interval p).session.Ordered timely 0
      (launch l now id interval p).session.desk.promise.answer? := by
  let start := unexecuted { now, link := { link := l : Recorded σ } } id interval p
  have hstart : start.Ordered timely 0 none :=
    ⟨iff_of_false Bool.false_ne_true Bool.noConfusion, Bool.noConfusion, Bool.noConfusion,
      (fun _ ho => nomatch ho), (fun _ hc => nomatch hc), (fun _ hf => nomatch hf),
      (fun _ _ hf => nomatch hf), (fun _ _ hk => nomatch hk), fun _ _ _ _ _ hm => nomatch hm⟩
  have hlaunch : (launch l now id interval p).session.Ordered timely 0 none :=
    hstart.of_follows (Desk.follows_execute p.name p.program start.desk) rfl rfl rfl fun _ _ _ => rfl
  exact { hlaunch with counts := fun _ ho => ho }

/-- **A step** keeps the invariant. -/
theorem ordered_step {d : Deed σ} (h : c.session.Ordered timely beats first)
    (hp : timely → c.session.IsPrompt) (hbeats : beatsBegun c.log = beats)
    (hs : c.step d = some v) : v.session.Ordered timely beats first := by
  obtain ⟨t, -, hv⟩ | ⟨e, hd, hv⟩ := step_cases hs <;> rw [hv]
  · exact h.poll hp hbeats t
  · exact h.of_follows hd rfl rfl rfl fun _ _ _ => rfl

theorem Reachable.holds {start : Scene σ} (h : Reachable start always c) : always c := by
  cases h with
  | start ha => exact ha
  | step _ _ _ ha => exact ha

/-- **A run** keeps the invariant; beats and the outcome are taken anew at each step. -/
theorem Reachable.ordered (timely : Prop) {l : σ} {now id : Nat} {interval : Span}
    {p : Prepared} (h : Reachable (Scene.launch l now id interval p) always c)
    (hp : timely → ∀ c, always c → c.session.IsPrompt) :
    c.session.Ordered timely (beatsBegun c.log) c.session.desk.promise.answer? := by
  induction h with
  | start =>
    have hl := ordered_launch timely l now id interval p
    exact { hl with beats_eq := fun _ => rfl }
  | step h d hs _ ih =>
    have hv := ordered_step ih (fun ht => hp ht _ h.holds) rfl hs
    exact { hv with beats_eq := fun _ => rfl, counts := fun _ ho => ho }

/-- Whether beats settle in time can be seen. -/
instance (s : Session (Recorded σ)) : Decidable s.IsPrompt :=
  inferInstanceAs (Decidable (∀ f ∈ s.link.unsettled s.now, _))

/-- **The writes of a session are in order**, whatever its link does, whatever its handler and others
do from outside, and in whatever order all of them and the tasks have their turns.

* From the step on in which the closing stops the beat, no beat begins.
* At most one last chunk begins, that of the first answer of all that were given, or of all callbacks
  going without one; that is the outcome that counts, and it counts for good.
* Nothing but the end begins after the last chunk.  If beats always settle in time, none is in flight
  when the last chunk begins.
* The end begins at most once, and only after the last chunk was written. -/
theorem writes_in_order (l : σ) (now id : Nat) (interval : Span) (p : Prepared)
    (always : Scene σ → Prop) (c : Scene σ)
    (h : Reachable (launch l now id interval p) always c) :
    (∀ (d : Deed σ) (v : Scene σ), c.step d = some v → v.session.joined = true →
      beatsBegun v.log = beatsBegun c.log) ∧
    (((∃ bs, Bidden l now id interval p c bs) ∧ ∀ bs, Bidden l now id interval p c bs →
        c.session.desk.promise.answer? = Bid.first? bs ∧
        (lastChunks c.log = [] ∨
          ∃ b later, bs = b :: later ∧ lastChunks c.log = [b.outcome.payload])) ∧
      ∀ (d : Deed σ) (v : Scene σ) (o : Outcome), c.step d = some v →
        c.session.desk.promise.answer? = some o → v.session.desk.promise.answer? = some o) ∧
    (∀ (before after : List Entry) (t number : Nat) (chunk : String) (beside : List Nat),
      c.log = before ++ .began t number (.write chunk) beside :: after → chunk ≠ beatChunk →
      (∀ call ∈ starts after, call = .finish) ∧
      ((∀ v, always v → v.session.IsPrompt) → beside = [])) ∧
    ((starts c.log).count .finish ≤ 1 ∧
      ∀ (before after : List Entry) (t number : Nat) (beside : List Nat),
        c.log = before ++ .began t number .finish beside :: after →
        ∃ o, c.session.desk.promise.answer? = some o ∧ Landed o before) := by
  have hc := h.ordered False fun hf => hf.elim
  have hrecord : Unpaid c.log ∨ HasPaid c.session.desk.promise.stage.outcome? c.log :=
    hc.fits.unpaid_or_hasPaid
  refine ⟨fun d v hs hj => ?_, ⟨⟨h.exists_bidden, fun bs hb => ⟨hb.answer?_eq, ?_⟩⟩,
    fun d v o hs ho => ?_⟩, ?_, ?_⟩
  · exact (ordered_step hc (fun hf => hf.elim) rfl hs).beats_eq hj
  · have hfirst {o : Outcome} (ho : c.session.desk.promise.stage.outcome? = some o)
        (hl : lastChunks c.log = [o.payload]) :
        ∃ b later, bs = b :: later ∧ lastChunks c.log = [b.outcome.payload] := by
      obtain ⟨b, later, hbs, rfl⟩ := Bid.first?_eq_some_iff.1
        (hb.answer?_eq.symm.trans (Promise.answer?_of_outcome? ho))
      exact ⟨b, later, hbs, hl⟩
    rcases hrecord with hu | ⟨o, ho, ⟨number, hp⟩ | he⟩
    · exact .inl hu.lastChunks
    · exact .inr (hfirst ho hp.lastChunks)
    · exact .inr (hfirst ho he.lastChunks)
  · exact (ordered_step hc (fun hf => hf.elim) rfl hs).counts o ho
  · intro before after t number chunk beside hlog hne
    have hmem : .began t number (.write chunk) beside ∈ c.log := by
      rw [hlog]
      exact List.mem_append_right _ List.mem_cons_self
    refine ⟨?_, fun hprompt => ?_⟩
    · rcases hrecord with hu | ⟨o, -, ⟨n, hp⟩ | he⟩
      · exact absurd (Call.write.inj (hu _ (call_mem_starts hmem))) hne
      · rw [hlog] at hp
        exact hp.starts_after hne
      · rw [hlog] at he
        exact he.starts_after hne
    · exact (h.ordered True fun _ => hprompt).alone trivial t number chunk beside hmem hne
  · have hno (hn : .finish ∉ starts c.log) : (starts c.log).count .finish ≤ 1 ∧
        ∀ (before after : List Entry) (t number : Nat) (beside : List Nat),
          c.log = before ++ .began t number .finish beside :: after →
          ∃ o, c.session.desk.promise.answer? = some o ∧ Landed o before := by
      have hcount := List.count_eq_zero_of_not_mem hn
      refine ⟨by omega, ?_⟩
      intro before after t number beside hlog
      rw [hlog] at hn
      exact absurd (call_mem_starts (List.mem_append_right _ List.mem_cons_self)) hn
    rcases hrecord with hu | ⟨o, ho, ⟨number, hp⟩ | he⟩
    · exact hno hu.finish_not_mem
    · exact hno hp.finish_not_mem
    · refine ⟨Nat.le_of_eq he.count_finish, fun before after t number beside hlog => ?_⟩
      rw [hlog] at he
      exact ⟨o, Promise.answer?_of_outcome? ho, he.landed⟩

/-- A beat is in flight when the closing stops it; it lands before the closing gives up, and the last
chunk begins alone, that of the first bid. -/
theorem writes_in_order_beside_beat : ∃ c : Scene Scripted,
    Reachable (launch { delay := 30 : Scripted } 0 1 (.ofMillis 20) ⟨"job", .keep (.finish "")⟩)
      (fun v => v.session.IsPrompt) c ∧
    c.log = [.began 20 0 (.write beatChunk) [], .answered 50 0 .done,
      .began 50 2 (.write (Outcome.payload (.ok .null))) [], .answered 80 2 .done,
      .began 80 4 .finish [], .answered 80 4 .done, .closed 80 none] ∧
    ∃ b later, Bidden { delay := 30 : Scripted } 0 1 (.ofMillis 20) ⟨"job", .keep (.finish "")⟩ c
      (b :: later) ∧ lastChunks c.log = [b.outcome.payload] := by
  let start := launch { delay := 30 : Scripted } 0 1 (.ofMillis 20) ⟨"job", .keep (.finish "")⟩
  let deeds : List (Deed Scripted) := [.poll .beat, .poll .closing, .tick 20, .poll .beat,
    .claim (.ok .null), .tick 25, .send, .poll .closing, .tick 50, .poll .beat, .poll .closing,
    .tick 80, .poll .closing]
  have hrun : (start.stepsWhile (fun v => v.session.IsPrompt) deeds).map Scene.log =
      some [.began 20 0 (.write beatChunk) [], .answered 50 0 .done,
        .began 50 2 (.write (Outcome.payload (.ok .null))) [], .answered 80 2 .done,
        .began 80 4 .finish [], .answered 80 4 .done, .closed 80 none] := by decide +kernel
  obtain ⟨c, hc, hlog⟩ := Option.map_eq_some_iff.1 hrun
  have h : Reachable start (fun v => v.session.IsPrompt) c :=
    (Reachable.start (by decide)).stepsWhile deeds hc
  obtain ⟨-, ⟨⟨⟨bs, hb⟩, hfirst⟩, -⟩, -, -⟩ := writes_in_order { delay := 30 : Scripted } 0 1
    (.ofMillis 20) ⟨"job", .keep (.finish "")⟩ (fun v => v.session.IsPrompt) c h
  have hpaid : lastChunks c.log ≠ [] := by
    rw [hlog]
    decide
  obtain ⟨b, later, rfl, hl⟩ := (hfirst bs hb).2.resolve_left hpaid
  exact ⟨c, h, hlog, b, later, hb, hl⟩

end Scene

end HeldReply
