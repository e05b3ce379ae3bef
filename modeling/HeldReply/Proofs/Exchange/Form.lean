import HeldReply.Proofs.Exchange.Course
import HeldReply.Proofs.Link.Carries
import HeldReply.Proofs.Session.History

/-!
# The form of a reply

A session puts blanks into its channel, and then at most one last chunk.  At any time at most one
write waits for a place: the beat's, as long as the beat is not over, and then the last chunk.

* `Session.Form` — **what was put in and what waits**, for each phase of the closing;
* `Session.InForm` — a session that keeps to the form;
* `Session.InForm.poll` — **every turn** keeps it.
-/

namespace HeldReply

/-- Frames that **tell nothing**: blanks, and that the reply was cut off. -/
def Frame.Filling (fs : List Frame) : Prop :=
  ∀ f ∈ fs, f = .data Session.beatChunk ∨ f = .abort

theorem Frame.Filling.snoc {fs : List Frame} {f : Frame} (h : Frame.Filling fs)
    (hf : f = .data Session.beatChunk ∨ f = .abort) : Frame.Filling (fs ++ [f]) := by
  intro g hg
  rcases List.mem_append.1 hg with hg | hg
  · exact h g hg
  · rw [List.mem_singleton.1 hg]
    exact hf

namespace Session

variable {s v : Session Channel} {ends : Nat} {taken sent sent' : List Frame} {link : Channel}
  {b : Beat} {o : Outcome}

/-! ### What a session puts in -/

/-- Nothing waits but **the beat's write**, if there is one. -/
def BeatWaits (s : Session Channel) : Prop :=
  (s.link.terms = [] ∧ ∀ ticket, s.beat ≠ .writing ticket) ∨
  ∃ ticket t, t ≤ s.now ∧ s.beat = .writing ticket ∧
    s.link.terms = [(ticket, beatChunk, s.patience.waitUntil t)]

/-- The last chunk of the outcome was put in, behind what tells nothing. -/
def Paid (s : Session Channel) (sent : List Frame) : Prop :=
  ∃ o pre, s.desk.promise.stage.outcome? = some o ∧ Frame.Filling pre ∧
    sent = pre ++ [.data o.payload]

/-- **What was put in**, what waits and how the beat is doing, for each phase of the closing. -/
def Form (s : Session Channel) (sent : List Frame) : Closing → Prop
  | .fresh | .waiting => s.joined = false ∧ Frame.Filling sent ∧ s.BeatWaits
  | .stopping deadline held =>
    s.isCancelled = true ∧ Frame.Filling sent ∧ s.BeatWaits ∧
      (∀ o, held = some o → s.desk.promise.stage.outcome? = some o) ∧
      -- The beat gives up before the closing does.
      (s.beat.isOver = true ∨ s.now < deadline ∧ ∀ x ∈ s.link.terms, x.2.2 ≤ deadline)
  | .writing ticket =>
    s.beat.isOver = true ∧ Frame.Filling sent ∧ ∃ o deadline,
      s.desk.promise.stage.outcome? = some o ∧ s.link.terms = [(ticket, o.payload, deadline)]
  | .over .discarded => Frame.Filling sent ∧ s.BeatWaits
  | .over .writeFailed =>
    s.beat.isOver = true ∧ s.link.terms = [] ∧
      (Frame.Filling sent ∨ s.link.writable = false ∧ s.Paid sent)
  | .over .delivered =>
    s.beat.isOver = true ∧ s.link.terms = [] ∧ s.link.writable = false ∧ .abort ∉ sent ∧ s.Paid sent
  | .absent | .delayed .. | .finishing _ | .crashed => False

/-- A session **keeps to the form**: the frames that it put into its channel so far are in order. -/
structure Sends (ends : Nat) (taken sent : List Frame) (s : Session Channel) : Prop where
  carries : s.link.Carries ends taken sent
  patience : s.patience = s.link.timeout
  patient : 0 < s.patience.ticks
  form : s.Form sent s.closing

/-- It keeps to the form with some frames. -/
def InForm (ends : Nat) (taken : List Frame) (s : Session Channel) : Prop :=
  ∃ sent, s.Sends ends taken sent

/-! ### What does not matter -/

/-- Two states are **alike** if they differ in nothing on which the form depends, except that the
beat may be cancelled and the writing side gone in the second one. -/
structure Like (s v : Session Channel) : Prop where
  beat : v.beat = s.beat
  joined : v.joined = s.joined
  now : v.now = s.now
  patience : v.patience = s.patience
  cancelled : s.isCancelled = true → v.isCancelled = true
  promise : s.desk.promise.Keeps v.desk.promise
  terms : v.link.terms = s.link.terms
  writable : v.link.writable = true → s.link.writable = true

theorem Like.beatWaits (h : s.Like v) (hw : s.BeatWaits) : v.BeatWaits := by
  unfold BeatWaits
  rw [h.terms, h.beat, h.now, h.patience]
  exact hw

theorem Like.not_writable (h : s.Like v) (hw : s.link.writable = false) :
    v.link.writable = false := by
  refine Bool.eq_false_iff.2 fun hv => ?_
  rw [h.writable hv] at hw
  cases hw

theorem Like.paid (h : s.Like v) (hp : s.Paid sent) : v.Paid sent := by
  obtain ⟨o, pre, ho, hpre, hsent⟩ := hp
  exact ⟨o, pre, h.promise.outcome o ho, hpre, hsent⟩

theorem Form.like {k : Closing} (h : s.Form sent k) (hl : s.Like v)
    (hs : sent' = sent ∨ s.link.writable = true ∧ sent' = sent ++ [.abort]) : v.Form sent' k := by
  have hfilling (hf : Frame.Filling sent) : Frame.Filling sent' := by
    rcases hs with rfl | ⟨-, rfl⟩
    · exact hf
    · exact hf.snoc (.inr rfl)
  have hclosed (hw : s.link.writable = false) : sent' = sent := by
    rcases hs with rfl | ⟨hw', -⟩
    · rfl
    · rw [hw] at hw'
      cases hw'
  match k, h with
  | .fresh, ⟨hj, hf, hw⟩ | .waiting, ⟨hj, hf, hw⟩ =>
    exact ⟨hl.joined.trans hj, hfilling hf, hl.beatWaits hw⟩
  | .stopping deadline held, ⟨hc, hf, hw, hheld, hd⟩ =>
    refine ⟨hl.cancelled hc, hfilling hf, hl.beatWaits hw,
      fun o ho => hl.promise.outcome o (hheld o ho), ?_⟩
    rw [hl.beat, hl.now, hl.terms]
    exact hd
  | .writing ticket, ⟨hb, hf, o, deadline, ho, ht⟩ =>
    exact ⟨by rw [hl.beat, hb], hfilling hf, o, deadline, hl.promise.outcome o ho,
      hl.terms.trans ht⟩
  | .over .discarded, ⟨hf, hw⟩ => exact ⟨hfilling hf, hl.beatWaits hw⟩
  | .over .writeFailed, ⟨hb, ht, hp⟩ =>
    refine ⟨by rw [hl.beat, hb], hl.terms.trans ht, hp.imp hfilling ?_⟩
    rintro ⟨hw, hp⟩
    rw [hclosed hw]
    exact ⟨hl.not_writable hw, hl.paid hp⟩
  | .over .delivered, ⟨hb, ht, hw, ha, hp⟩ =>
    rw [hclosed hw]
    exact ⟨by rw [hl.beat, hb], hl.terms.trans ht, hl.not_writable hw, ha, hl.paid hp⟩

theorem Sends.like {ends' : Nat} {taken' : List Frame} (h : s.Sends ends taken sent) (hl : s.Like v)
    (hk : v.closing = s.closing) (ht : v.link.timeout = s.link.timeout)
    (hc : v.link.Carries ends' taken' sent')
    (hs : sent' = sent ∨ s.link.writable = true ∧ sent' = sent ++ [.abort]) :
    v.Sends ends' taken' sent' := by
  refine ⟨hc, ?_, ?_, ?_⟩
  · rw [hl.patience, ht]
    exact h.patience
  · rw [hl.patience]
    exact h.patient
  · rw [hk]
    exact h.form.like hl hs

/-- The surroundings and the phases of the beat and of the closing stay. -/
theorem Sends.of_around (h : s.Sends ends taken sent) (ha : v.desk.around = s.desk.around)
    (hp : s.desk.promise.Keeps v.desk.promise) (hb : v.beat = s.beat) (hj : v.joined = s.joined)
    (hpat : v.patience = s.patience) (hk : v.closing = s.closing) : v.Sends ends taken sent := by
  have hlink : v.link = s.link := congrArg Line.link ha
  have hcancelled : v.isCancelled = s.isCancelled := congrArg Line.cancelled ha
  refine h.like ⟨hb, hj, congrArg Line.now ha, hpat, fun hc => hcancelled.trans hc, hp, ?_, ?_⟩ hk
    ?_ (hlink ▸ h.carries) (.inl rfl)
  · rw [hlink]
  · rw [hlink]
    exact id
  · rw [hlink]

/-- The channel changes, and nothing else. -/
theorem Sends.withLink {ends' : Nat} {taken' : List Frame} (h : s.Sends ends taken sent)
    (hl : s.link.Lasts link) (hc : link.Carries ends' taken' sent')
    (hs : sent' = sent ∨ s.link.writable = true ∧ sent' = sent ++ [.abort]) :
    (s.withLink link).Sends ends' taken' sent' :=
  h.like ⟨rfl, rfl, rfl, rfl, id, .of_stage rfl, hl.terms, hl.writable⟩ rfl hl.timeout hc hs

/-! ### Disposals -/

theorem Sends.closeLink (h : s.Sends ends taken sent) : InForm ends taken s.closeLink.1 := by
  obtain ⟨sent', hc, hs⟩ := h.carries.close
  exact ⟨sent', h.withLink s.link.lasts_close hc hs⟩

theorem Sends.cancel (h : s.Sends ends taken sent) : s.cancel.Sends ends taken sent :=
  h.like ⟨rfl, rfl, rfl, rfl, fun _ => rfl, .of_stage rfl, rfl, id⟩ rfl rfl h.carries (.inl rfl)

/-- **A desk that changes** as programs can change it leaves the session in form. -/
theorem Sends.desk {d : Desk (Line Channel)} (h : s.Sends ends taken sent)
    (hp : s.desk.promise.Keeps d.promise)
    (ha : ∀ P : Line Channel → Prop, (∀ a, P a → P (Surroundings.closeLink a)) →
      (∀ a, P a → P (Surroundings.cancelBeat a)) → P s.desk.around → P d.around) :
    InForm ends taken { s with desk := d } := by
  have haround : InForm ends taken { s with desk.around := d.around } := by
    refine ha (fun a => InForm ends taken { s with desk.around := a }) (fun a h => ?_)
      (fun a h => ?_) ⟨sent, h⟩
    · obtain ⟨sent, h⟩ := h
      exact h.closeLink
    · obtain ⟨sent, h⟩ := h
      exact ⟨sent, h.cancel⟩
  obtain ⟨sent', h'⟩ := haround
  exact ⟨sent', h'.of_around rfl hp rfl rfl rfl rfl⟩

theorem InForm.dispose (h : InForm ends taken s) : InForm ends taken s.dispose.1 := by
  obtain ⟨sent, h⟩ := h
  have hl : s.desk.Leads s.desk.dispose.1 := Desk.Leads.refl.dispose
  exact h.desk hl.promise fun P hclose hcancel => hl.around hclose hcancel

/-! ### The beat -/

theorem BeatWaits.terms_eq_nil (h : s.BeatWaits) (hb : ∀ ticket, s.beat ≠ .writing ticket) :
    s.link.terms = [] := by
  rcases h with ⟨ht, -⟩ | ⟨ticket, -, -, hw, -⟩
  · exact ht
  · exact absurd hw (hb ticket)

theorem not_writing_of_isOver (hb : b.isOver = true) (ticket : Nat) : b ≠ .writing ticket := by
  rintro rfl
  cases hb

/-- A beat that is not over may **go on**; once it is cancelled, no write of it waits any more. -/
theorem Form.beat {k : Closing} (h : s.Form sent k) (ho : s.beat.isOver = false)
    (hj : v.joined = s.joined) (hc : v.isCancelled = s.isCancelled) (ht : v.now = s.now)
    (hp : v.desk.promise = s.desk.promise) (hs : sent' = sent ∨ sent' = sent ++ [.data beatChunk])
    (hw : v.BeatWaits) (hn : s.isCancelled = true → v.link.terms = []) : v.Form sent' k := by
  have hfilling (hf : Frame.Filling sent) : Frame.Filling sent' := by
    rcases hs with rfl | rfl
    · exact hf
    · exact hf.snoc (.inl rfl)
  have hnot {P : Prop} (hb : s.beat.isOver = true) : P := by
    rw [ho] at hb
    cases hb
  match k, h with
  | .fresh, ⟨hjoined, hf, _⟩ | .waiting, ⟨hjoined, hf, _⟩ =>
    exact ⟨hj.trans hjoined, hfilling hf, hw⟩
  | .stopping deadline held, ⟨hcancelled, hf, _, hheld, hd⟩ =>
    refine ⟨hc.trans hcancelled, hfilling hf, hw, hp ▸ hheld, .inr ?_⟩
    rw [ht, hn hcancelled]
    exact ⟨hd.elim hnot And.left, fun x hx => by cases hx⟩
  | .over .discarded, ⟨hf, _⟩ => exact ⟨hfilling hf, hw⟩
  | .over .writeFailed, ⟨hb, _⟩ | .over .delivered, ⟨hb, _⟩ | .writing _, ⟨hb, _⟩ => exact hnot hb

/-- **A beat that is not over goes on**, nothing waits, and at most a blank was put in. -/
theorem Sends.beat (h : s.Sends ends taken sent) (ho : s.beat.isOver = false)
    (hc : link.Carries ends taken sent') (ht : link.timeout = s.link.timeout)
    (hs : sent' = sent ∨ sent' = sent ++ [.data beatChunk]) (hn : link.terms = [])
    (hb : ∀ ticket, b ≠ .writing ticket) :
    InForm ends taken { s.withLink link with beat := b } :=
  ⟨sent', hc, h.patience.trans ht.symm, h.patient,
    h.form.beat ho rfl rfl rfl rfl hs (.inl ⟨hn, hb⟩) fun _ => hn⟩

/-- As long as the beat is not over, nothing waits but its write. -/
theorem Sends.beatWaits (h : s.Sends ends taken sent) (ho : s.beat.isOver = false) :
    s.BeatWaits := by
  have hform := h.form
  have hnot {P : Prop} (hb : s.beat.isOver = true) : P := by
    rw [ho] at hb
    cases hb
  generalize s.closing = k at hform
  match k, hform with
  | .fresh, ⟨_, _, hw⟩ | .waiting, ⟨_, _, hw⟩ => exact hw
  | .stopping _ _, ⟨_, _, hw, _⟩ => exact hw
  | .over .discarded, ⟨_, hw⟩ => exact hw
  | .over .writeFailed, ⟨hb, _⟩ | .over .delivered, ⟨hb, _⟩ | .writing _, ⟨hb, _⟩ => exact hnot hb

/-- What follows **an answer to the beat**. -/
theorem Sends.afterBeat {r : Reply} (h : s.Sends ends taken sent) (ho : s.beat.isOver = false)
    (ha : Channel.Answers ends taken sent beatChunk s.link link r) :
    InForm ends taken ((s.withLink link).afterBeat r) := by
  obtain ⟨ht, hn, ⟨⟨f, rfl⟩, hc⟩ | ⟨rfl, hc⟩⟩ := ha
  · exact (h.beat ho hc ht (.inl rfl) hn (b := .ended) fun _ => Beat.noConfusion).dispose
  · have hrest : ∀ ticket, (if s.isCancelled then Beat.ended
        else .resting (s.interval.restUntil s.now)) ≠ .writing ticket := by
      intro ticket
      split <;> exact Beat.noConfusion
    obtain ⟨sent', h'⟩ := h.beat ho hc ht (.inr rfl) hn hrest
    exact ⟨sent', h'.of_around rfl (.of_stage rfl) rfl rfl rfl rfl⟩

theorem Sends.writeBeat (h : s.Sends ends taken sent) (ho : s.beat.isOver = false)
    (hc : s.isCancelled = false) (hn : s.link.terms = []) : InForm ends taken s.writeBeat := by
  have hcall : s.startCall (.write beatChunk) =
      (s.withLink (s.link.startWrite s.now beatChunk).1,
        (s.link.startWrite s.now beatChunk).2) := rfl
  unfold Session.writeBeat
  rw [hcall]
  obtain ⟨link, r, hs, ha⟩ | ⟨link, ticket, hs, ht, hterms, hcarries⟩ :=
    h.carries.startWrite hn s.now beatChunk <;> rw [hs]
  · exact h.afterBeat ho ha
  · refine ⟨sent, hcarries, h.patience.trans ht.symm, h.patient,
      h.form.beat ho rfl rfl rfl rfl (.inl rfl) (.inr ⟨ticket, s.now, Nat.le_refl _, rfl, ?_⟩)
        fun hc' => ?_⟩
    · show link.terms = [(_, _, s.patience.waitUntil s.now)]
      rw [hterms, h.patience]
    · rw [hc] at hc'
      cases hc'

/-- The beat ends, or rests. -/
theorem Sends.withBeat (h : s.Sends ends taken sent) (ho : s.beat.isOver = false)
    (hw : ∀ ticket, s.beat ≠ .writing ticket) (hb : ∀ ticket, b ≠ .writing ticket) :
    InForm ends taken { s with beat := b } :=
  h.beat ho h.carries rfl (.inl rfl) ((h.beatWaits ho).terms_eq_nil hw) hb

theorem InForm.rest (h : InForm ends taken s) (ho : s.beat.isOver = false)
    (hw : ∀ ticket, s.beat ≠ .writing ticket) : InForm ends taken s.rest := by
  obtain ⟨sent, h⟩ := h
  refine h.withBeat ho hw fun ticket => ?_
  split <;> exact Beat.noConfusion

theorem InForm.stepBeat (h : InForm ends taken s) : InForm ends taken s.stepBeat := by
  have hform := h
  obtain ⟨sent, h⟩ := h
  unfold Session.stepBeat
  split
  · rename_i hb
    exact hform.rest (by rw [hb]; rfl) (by rw [hb]; exact fun _ => Beat.noConfusion)
  · rename_i wakeAt hb
    have ho : s.beat.isOver = false := by rw [hb]; rfl
    have hw : ∀ ticket, s.beat ≠ .writing ticket := by rw [hb]; exact fun _ => Beat.noConfusion
    split
    · exact h.withBeat ho hw fun _ => Beat.noConfusion
    · rename_i hc
      split
      · exact h.writeBeat ho (by simpa using hc) ((h.beatWaits ho).terms_eq_nil hw)
      · exact hform
  · rename_i ticket hb
    have ho : s.beat.isOver = false := by rw [hb]; rfl
    have hcall : s.pollCall ticket = (s.withLink (s.link.pollWrite s.now ticket).1,
      (s.link.pollWrite s.now ticket).2) := rfl
    rcases h.beatWaits ho with ⟨-, hnot⟩ | ⟨ticket', t, -, hb', hterms⟩
    · exact absurd hb (hnot ticket)
    · rw [hb, Beat.writing.injEq] at hb'
      subst hb'
      rw [hcall]
      obtain hs | ⟨link, r, hs, ha⟩ := h.carries.pollWrite hterms s.now <;> rw [hs]
      · exact hform
      · exact h.afterBeat ho ha
  · exact hform
  · exact hform

theorem InForm.stepBeatFor (h : InForm ends taken s) (n : Nat) :
    InForm ends taken (s.stepBeatFor n) := by
  induction n generalizing s with
  | zero => exact h
  | succ n ih =>
    rw [Session.stepBeatFor]
    split
    · exact ih h.stepBeat
    · exact h

/-- **The beat's turn.** -/
theorem InForm.pollBeat (h : InForm ends taken s) : InForm ends taken s.pollBeat := by
  unfold Session.pollBeat
  split
  · rename_i hb
    refine (h.rest ?_ ?_).stepBeatFor _
    · rw [hb]
      rfl
    · rw [hb]
      exact fun _ => Beat.noConfusion
  · exact h.stepBeatFor _

/-! ### The closing -/

/-- The beat is over and **nothing waits**, whatever the closing does. -/
structure Settled (ends : Nat) (taken sent : List Frame) (s : Session Channel) : Prop where
  carries : s.link.Carries ends taken sent
  patience : s.patience = s.link.timeout
  patient : 0 < s.patience.ticks
  beat : s.beat.isOver = true
  terms : s.link.terms = []

theorem Settled.withLink (h : s.Settled ends taken sent) (hc : link.Carries ends taken sent')
    (ht : link.timeout = s.link.timeout) (hn : link.terms = []) :
    (s.withLink link).Settled ends taken sent' :=
  ⟨hc, h.patience.trans ht.symm, h.patient, h.beat, hn⟩

theorem inForm_endWith {e : SessionEnd} (h : InForm ends taken { s with closing := .over e }) :
    InForm ends taken (s.endWith e) :=
  h.dispose

/-- The last chunk could not be written. -/
theorem Settled.refused (h : s.Settled ends taken sent) (hf : Frame.Filling sent) :
    InForm ends taken (s.endWith .writeFailed) :=
  inForm_endWith ⟨sent, h.carries, h.patience, h.patient, h.beat, h.terms, .inl hf⟩

/-- The last chunk was put in: **the reply ends**, in good order if nobody closed the channel. -/
theorem Settled.finish (h : s.Settled ends taken sent) (hp : s.Paid sent) :
    InForm ends taken (s.afterPayload .done) := by
  have hended : { s.link with writable := false }.Carries ends taken sent :=
    h.carries.of_buffer rfl rfl (fun hw => by cases hw) fun _ hn => hn
  have hcall (r : Reply) (hr : s.link.finish = ({ s.link with writable := false }, r)) :
      s.afterPayload .done = (s.withLink { s.link with writable := false }).afterFinish r := by
    have hstart : s.startCall .finish =
        (s.withLink s.link.finish.1, .answered s.link.finish.2) := rfl
    rw [Session.afterPayload, hstart, hr]
  by_cases hw : (s.link.writable && s.link.hasBody) = true
  · rw [hcall .done (if_pos hw)]
    exact inForm_endWith ⟨sent, hended, h.patience, h.patient, h.beat, h.terms, rfl,
      h.carries.intact (Bool.and_eq_true_iff.1 hw).1, hp⟩
  · rw [hcall (.refused Channel.unfinishedFailure) (if_neg hw)]
    exact inForm_endWith ⟨sent, hended, h.patience, h.patient, h.beat, h.terms, .inr ⟨rfl, hp⟩⟩

/-- What follows **an answer to the last chunk**. -/
theorem Settled.afterPayload {r : Reply} (h : s.Settled ends taken sent') (hf : Frame.Filling sent)
    (ho : s.desk.promise.stage.outcome? = some o)
    (hr : (∃ f, r = .refused f) ∧ sent' = sent ∨ r = .done ∧ sent' = sent ++ [.data o.payload]) :
    InForm ends taken (s.afterPayload r) := by
  obtain ⟨⟨f, rfl⟩, rfl⟩ | ⟨rfl, rfl⟩ := hr
  · exact h.refused hf
  · exact h.finish ⟨o, sent, ho, hf, rfl⟩

theorem Settled.writePayload (h : s.Settled ends taken sent) (hf : Frame.Filling sent)
    (ho : s.desk.promise.stage.outcome? = some o) : InForm ends taken (s.writePayload o) := by
  have hcall : s.startCall (.write o.payload) =
      (s.withLink (s.link.startWrite s.now o.payload).1,
        (s.link.startWrite s.now o.payload).2) := rfl
  unfold Session.writePayload
  rw [hcall]
  obtain ⟨link, r, hs, ht, hn, ha⟩ | ⟨link, ticket, hs, ht, hterms, hc⟩ :=
    h.carries.startWrite h.terms s.now o.payload <;> rw [hs]
  · obtain ⟨hr, hc⟩ | ⟨hr, hc⟩ := ha
    · exact (h.withLink hc ht hn).afterPayload hf ho (.inl ⟨hr, rfl⟩)
    · exact (h.withLink hc ht hn).afterPayload hf ho (.inr ⟨hr, rfl⟩)
  · exact ⟨sent, hc, h.patience.trans ht.symm, h.patient, h.beat, hf, o, _, ho, hterms⟩

/-- A channel is closed without a crash. -/
theorem InForm.discard (h : InForm ends taken { s with closing := .over .discarded }) :
    InForm ends taken s.discard := by
  obtain ⟨sent, h⟩ := h
  exact h.cancel.closeLink

/-- Once the beat is over, the closing goes on. -/
theorem Settled.afterStop {held : Option Outcome} (h : s.Settled ends taken sent)
    (hf : Frame.Filling sent)
    (hheld : ∀ o, held = some o → s.desk.promise.stage.outcome? = some o) :
    InForm ends taken (s.afterStop held) := by
  have hdiscard : InForm ends taken s.discard :=
    InForm.discard ⟨sent, h.carries, h.patience, h.patient, hf,
      .inl ⟨h.terms, not_writing_of_isOver h.beat⟩⟩
  cases held with
  | none => exact hdiscard
  | some o =>
    rw [Session.afterStop]
    split
    · exact hdiscard
    · exact h.writePayload hf (hheld o rfl)

/-- **The closing stops the beat.**  If that writes, it gives up before the closing does. -/
theorem Sends.stopBeat {held : Option Outcome} (h : s.Sends ends taken sent)
    (hk : s.closing = .fresh ∨ s.closing = .waiting)
    (hheld : ∀ o, held = some o → s.desk.promise.stage.outcome? = some o) :
    InForm ends taken (s.stopBeat held) := by
  obtain ⟨hj, hf, hw⟩ : s.joined = false ∧ Frame.Filling sent ∧ s.BeatWaits := by
    have hform := h.form
    rcases hk with hk | hk <;> rw [hk] at hform <;> exact hform
  have hzero : s.patience.isZero = false := by
    have hpatient := h.patient
    unfold Span.ticks at hpatient
    unfold Span.isZero
    simp only [beq_eq_false_iff_ne]
    omega
  rw [stopBeat_eq, hj, hzero, Bool.or_false]
  cases ho : s.beat.isOver with
  | true =>
    -- There is nothing to wait for, and the last chunk goes in in the same turn.
    have hn := hw.terms_eq_nil (not_writing_of_isOver ho)
    have hsettled : { s.cancel with joined := true }.Settled ends taken sent :=
      ⟨h.carries, h.patience, h.patient, ho, hn⟩
    exact hsettled.afterStop hf hheld
  | false =>
    refine ⟨sent, h.carries, h.patience, h.patient, rfl, hf, hw, hheld,
      .inr ⟨Nat.lt_add_of_pos_right h.patient, fun x hx => ?_⟩⟩
    rcases hw with ⟨hn, -⟩ | ⟨ticket, t, ht, -, hn⟩
    · have hx : x ∈ s.link.terms := hx
      rw [hn] at hx
      cases hx
    · have hx : x ∈ s.link.terms := hx
      rw [hn, List.mem_singleton] at hx
      rw [hx]
      exact s.patience.waitUntil_mono ht

theorem Sends.askOutcome (h : s.Sends ends taken sent)
    (hk : s.closing = .fresh ∨ s.closing = .waiting) (isFresh : Bool) :
    InForm ends taken (s.askOutcome isFresh) := by
  obtain ⟨-, hstage⟩ := s.desk.promise.poll_outcome
  have hpolled : Sends ends taken sent { s with desk.promise := s.desk.promise.poll.1 } :=
    h.of_around rfl (.of_stage hstage) rfl rfl rfl rfl
  cases ho : s.desk.promise.stage.outcome? with
  | some o =>
    rw [askOutcome_some ho]
    refine hpolled.stopBeat hk fun x hx => ?_
    rw [← hx, ← ho]
    exact congrArg Promise.Stage.outcome? hstage
  | none =>
    rw [askOutcome_none ho]
    split
    · exact hpolled.stopBeat hk fun _ hx => by cases hx
    · have hform : s.joined = false ∧ Frame.Filling sent ∧ s.BeatWaits := by
        have hform := h.form
        rcases hk with hk | hk <;> rw [hk] at hform <;> exact hform
      exact ⟨sent, hpolled.carries, h.patience, h.patient, hform⟩

/-- **The closing's turn.** -/
theorem InForm.pollClosing (h : InForm ends taken s) : InForm ends taken s.pollClosing := by
  have hself := h
  obtain ⟨sent, h⟩ := h
  have hform := h.form
  unfold Session.pollClosing
  split
  · rename_i hk
    exact h.askOutcome (.inl hk) true
  · rename_i hk
    exact h.askOutcome (.inr hk) false
  · rename_i startAt o hk
    rw [hk] at hform
    exact hform.elim
  · rename_i deadline held hk
    rw [hk] at hform
    obtain ⟨-, hf, hw, hheld, hd⟩ := hform
    split
    · rename_i hstop
      -- The closing never gives up first.
      have ho : s.beat.isOver = true := by
        rcases hd with ho | ⟨hnow, -⟩
        · exact ho
        · simp only [Bool.or_eq_true, decide_eq_true_eq] at hstop
          exact hstop.resolve_right (Nat.not_le_of_lt hnow)
      have hsettled : s.Settled ends taken sent :=
        ⟨h.carries, h.patience, h.patient, ho, hw.terms_eq_nil (not_writing_of_isOver ho)⟩
      exact hsettled.afterStop hf hheld
    · exact hself
  · rename_i ticket hk
    rw [hk] at hform
    obtain ⟨hb, hf, o, deadline, ho, hterms⟩ := hform
    have hcall : s.pollCall ticket = (s.withLink (s.link.pollWrite s.now ticket).1,
      (s.link.pollWrite s.now ticket).2) := rfl
    have hsettled {d : Channel} {sent' : List Frame} (hc : d.Carries ends taken sent')
        (ht : d.timeout = s.link.timeout) (hn : d.terms = []) :
        (s.withLink d).Settled ends taken sent' :=
      ⟨hc, h.patience.trans ht.symm, h.patient, hb, hn⟩
    rw [hcall]
    obtain hs | ⟨link, r, hs, ht, hn, ⟨hr, hc⟩ | ⟨hr, hc⟩⟩ := h.carries.pollWrite hterms s.now <;>
      rw [hs]
    · exact hself
    · exact (hsettled hc ht hn).afterPayload hf ho (.inl ⟨hr, rfl⟩)
    · exact (hsettled hc ht hn).afterPayload hf ho (.inr ⟨hr, rfl⟩)
  · rename_i ticket hk
    rw [hk] at hform
    exact hform.elim
  · exact hself
  · exact hself
  · exact hself

/-! ### A turn -/

theorem InForm.watch (h : InForm ends taken s) (isFresh : Bool) :
    InForm ends taken (s.watch isFresh) := by
  have hw {v : Session Channel} (w : Watcher) (h : InForm ends taken v) :
      InForm ends taken { v with watcher := w } := by
    obtain ⟨sent, h⟩ := h
    exact ⟨sent, h.of_around rfl (.of_stage rfl) rfl rfl rfl rfl⟩
  unfold Session.watch
  split
  · exact hw _ h.dispose
  · split <;> exact hw _ h

/-- **A turn** keeps a session in form. -/
theorem InForm.poll (h : InForm ends taken s) (t : Task) : InForm ends taken (s.poll t) := by
  cases t with
  | watcher =>
    show InForm ends taken s.pollWatcher
    unfold Session.pollWatcher
    split
    · exact h.watch true
    · exact h.watch false
    · exact h
    · exact h
  | beat => exact h.pollBeat
  | closing => exact h.pollClosing
  | stop i =>
    have hself := h
    obtain ⟨sent, h⟩ := h
    show InForm ends taken (s.pollStop i)
    unfold Session.pollStop
    split
    · split
      · exact ⟨sent, h.of_around rfl (.of_stage rfl) rfl rfl rfl rfl⟩
      · exact hself
    · exact hself

/-! ### The clock -/

/-- A beat that was cancelled, is not over and can not go on waits for a place. -/
theorem due_of_cancelled (hw : s.BeatWaits) (hc : s.isCancelled = true)
    (ho : s.beat.isOver = false) (hr : s.isRunnable .beat = false) :
    ∃ ticket deadline, s.link.terms = [(ticket, beatChunk, deadline)] ∧ s.now < deadline ∧
      s.dueAt .beat = some deadline := by
  have hr : s.beatRunnable = false := hr
  unfold Session.beatRunnable at hr
  rcases hw with ⟨-, hnot⟩ | ⟨ticket, t, -, hb, hterms⟩
  · cases hb : s.beat with
    | fresh =>
      rw [hb] at hr
      cases hr
    | resting wakeAt => simp [hb, hc] at hr
    | writing ticket => exact absurd hb (hnot ticket)
    | ended | crashed =>
      rw [hb] at ho
      cases ho
  · obtain ⟨w, hwaiting, hticket⟩ := List.map_eq_singleton_iff.1 hterms
    obtain ⟨rfl, -, hdeadline⟩ : w.ticket = ticket ∧ w.chunk = beatChunk ∧
        w.deadline = s.patience.waitUntil t := by simpa using hticket
    have hfind : s.link.waiting? w.ticket = some w := by simp [Channel.waiting?, hwaiting]
    have hready : s.link.isReady s.now w.ticket = false := by
      rw [hb] at hr
      exact hr
    refine ⟨w.ticket, s.patience.waitUntil t, hterms, ?_, ?_⟩
    · simp [Channel.isReady, hfind] at hready
      omega
    · have hdue : s.dueAt .beat = (s.link.waiting? w.ticket).map Channel.Waiting.deadline := by
        unfold Session.dueAt
        rw [hb]
        rfl
      rw [hdue, hfind, ← hdeadline]
      rfl

/-- **The clock moves**, and the closing that waits for the beat does not give up first. -/
theorem Sends.atTime {now : Nat} (h : s.Sends ends taken sent) (hle : s.now ≤ now)
    (hq : s.isQuiet = true) (hdue : (s.nextDue s.now).all (fun due => decide (now ≤ due)) = true)
    (hapart : s.timers.Nodup) : (s.atTime now).Sends ends taken sent := by
  have hwaits (hw : s.BeatWaits) : (s.atTime now).BeatWaits := by
    rcases hw with hw | ⟨ticket, t, ht, hw⟩
    · exact .inl hw
    · exact .inr ⟨ticket, t, Nat.le_trans ht hle, hw⟩
  refine ⟨h.carries, h.patience, h.patient, ?_⟩
  have hform := h.form
  show (s.atTime now).Form sent s.closing
  match hk : s.closing, hform with
  | .fresh, ⟨hj, hf, hw⟩ | .waiting, ⟨hj, hf, hw⟩ => exact ⟨hj, hf, hwaits hw⟩
  | .stopping deadline held, ⟨hc, hf, hw, hheld, hd⟩ =>
    refine ⟨hc, hf, hwaits hw, hheld, ?_⟩
    by_cases ho : s.beat.isOver = true
    · exact .inl ho
    · -- The beat's timer comes before that of the closing, and the clock stops at it at the latest.
      right
      have hr := not_runnable_of_isQuiet hq (t := .beat) (.inr (.inl rfl))
      obtain ⟨ticket, due, hterms, hlt, hbeat⟩ := due_of_cancelled hw hc (by simpa using ho) hr
      have hclosing : s.dueAt .closing = some deadline := by
        unfold Session.dueAt
        rw [hk]
      have hbefore : due ≤ deadline := by
        apply (hd.resolve_left ho).2 (ticket, beatChunk, due)
        rw [hterms]
        exact List.mem_singleton_self _
      have hne : due ≠ deadline := due_ne_due hapart hbeat hclosing
      have hnow : now ≤ due := le_due_of_nextDue hdue (s.mem_tasks (.inr (.inl rfl))) hbeat hlt
      refine ⟨show now < deadline by omega, fun x hx => ?_⟩
      have hx : x ∈ s.link.terms := hx
      rw [hterms, List.mem_singleton] at hx
      rw [hx]
      exact hbefore
  | .over .discarded, ⟨hf, hw⟩ => exact ⟨hf, hwaits hw⟩
  | .over .writeFailed, hform | .over .delivered, hform | .writing _, hform => exact hform

end Session

end HeldReply
