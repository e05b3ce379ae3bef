import HeldReply.Proofs.Exchange.Form
import HeldReply.Proofs.Reception
import HeldReply.Proofs.Session.Bids
import HeldReply.Proofs.Session.Ends
import Mathlib.Logic.Function.Iterate

/-!
# The body of a reply

Whoever reads the body of a reply gets blanks, and then at most one last chunk.  If the outcome was
delivered, and the client reads up to the end, there is nothing else: no abort frame, and no blank
behind the last chunk.

* `Exchange.pulls`, `Pull.chunks` — **what the client got**, and the chunks at its head;
* `Exchange.InForm`, `Exchange.Course.inForm_step` — an exchange that keeps to the form, and that
  **every step** keeps it;
* `Exchange.InForm.chunks`, `Exchange.InForm.whole_of_delivered` — what the form says of **what the
  client got**;
* `Exchange.Course.Bids`, `Exchange.Course.Bidden` — what a step and **a course bid**, in order;
* `Exchange.Course.body_in_order` — **the body of a reply**, for every accepted request and every
  course of its exchange.
-/

namespace HeldReply

open Promise (Bid)

/-! ### What is read -/

/-- The **chunks** at the head of what was pulled, up to an abort frame or the end. -/
def Pull.chunks : List Pull → List String
  | .frame (.data x) :: ps => x :: chunks ps
  | _ => []

/-- A **whole body**: blanks, the last chunk of an outcome, and the end as often as it was met. -/
def Pull.whole (blanks : Nat) (o : Outcome) (ends : Nat) : List Pull :=
  List.replicate blanks (.frame (.data Session.beatChunk)) ++
    .frame (.data o.payload) :: List.replicate ends .finished

theorem Pull.chunks_of_filling {fs : List Frame} (h : Frame.Filling fs) (ends : Nat) :
    ∃ n, chunks (fs.map .frame ++ List.replicate ends .finished) =
      List.replicate n Session.beatChunk := by
  induction fs with
  | nil =>
    refine ⟨0, ?_⟩
    cases ends <;> rfl
  | cons f fs ih =>
    obtain ⟨n, hn⟩ := ih fun g hg => h g (List.mem_cons_of_mem f hg)
    rcases h f List.mem_cons_self with rfl | rfl
    · refine ⟨n + 1, ?_⟩
      rw [List.map_cons, List.cons_append, chunks, hn, List.replicate_succ]
    · exact ⟨0, rfl⟩

theorem Pull.chunks_of_paid {fs : List Frame} (h : Frame.Filling fs) (x : String) (ends : Nat) :
    ∃ n, chunks ((fs ++ [Frame.data x]).map .frame ++ List.replicate ends .finished) =
        List.replicate n Session.beatChunk ∨
      chunks ((fs ++ [Frame.data x]).map .frame ++ List.replicate ends .finished) =
        List.replicate n Session.beatChunk ++ [x] := by
  induction fs with
  | nil =>
    refine ⟨0, .inr ?_⟩
    cases ends <;> rfl
  | cons f fs ih =>
    obtain ⟨n, hn⟩ := ih fun g hg => h g (List.mem_cons_of_mem f hg)
    rcases h f List.mem_cons_self with rfl | rfl
    · refine ⟨n + 1, hn.imp (fun hn => ?_) fun hn => ?_⟩
      · rw [List.cons_append, List.map_cons, List.cons_append, chunks, hn, List.replicate_succ]
      · rw [List.cons_append, List.map_cons, List.cons_append, chunks, hn, List.replicate_succ,
          List.cons_append]
    · exact ⟨0, .inl rfl⟩

/-- Blanks alone, if the reply was not cut off. -/
theorem Frame.eq_replicate_of_filling {fs : List Frame} (h : Frame.Filling fs) (ha : .abort ∉ fs) :
    fs = List.replicate fs.length (.data Session.beatChunk) := by
  refine List.eq_replicate_of_mem fun f hf => (h f hf).resolve_right ?_
  rintro rfl
  exact ha hf

namespace Session

variable {s : Session Channel} {ends : Nat} {taken sent : List Frame}

/-- Whatever the closing does, blanks were put in, and at most one last chunk behind them. -/
theorem Sends.filling_or_paid (h : s.Sends ends taken sent) : Frame.Filling sent ∨ s.Paid sent := by
  have hform := h.form
  generalize s.closing = k at hform
  match k, hform with
  | .fresh, ⟨_, hf, _⟩ | .waiting, ⟨_, hf, _⟩ => exact .inl hf
  | .stopping _ _, ⟨_, hf, _⟩ | .writing _, ⟨_, hf, _⟩ => exact .inl hf
  | .over .discarded, ⟨hf, _⟩ => exact .inl hf
  | .over .writeFailed, ⟨_, _, hp⟩ => exact hp.imp id And.right
  | .over .delivered, ⟨_, _, _, _, hp⟩ => exact .inr hp

/-- **What was read**: blanks, and at most one last chunk behind them. -/
theorem Sends.chunks (h : s.Sends ends taken sent) :
    ∃ n, Pull.chunks (taken.map .frame ++ List.replicate ends .finished) =
        List.replicate n beatChunk ∨
      ∃ o, s.desk.promise.answer? = some o ∧
        Pull.chunks (taken.map .frame ++ List.replicate ends .finished) =
          List.replicate n beatChunk ++ [o.payload] := by
  have htaken (hf : Frame.Filling taken) : ∃ n,
      Pull.chunks (taken.map .frame ++ List.replicate ends .finished) =
        List.replicate n beatChunk := Pull.chunks_of_filling hf ends
  rcases h.filling_or_paid with hf | ⟨o, pre, ho, hpre, hsent⟩
  · obtain ⟨n, hn⟩ := htaken fun f hf' => hf f (h.carries.took.subset hf')
    exact ⟨n, .inl hn⟩
  · -- What was taken is all that was put in, or it lies before the last chunk.
    have htook := h.carries.took
    rw [hsent, List.prefix_concat_iff] at htook
    rcases htook with rfl | hp
    · obtain ⟨n, hn⟩ := Pull.chunks_of_paid hpre o.payload ends
      exact ⟨n, hn.imp id fun hn => ⟨o, Promise.answer?_of_outcome? ho, hn⟩⟩
    · obtain ⟨n, hn⟩ := htaken fun f hf => hpre f (hp.subset hf)
      exact ⟨n, .inl hn⟩

/-- **What was put in** when the outcome was delivered: blanks, and the last chunk behind them. -/
theorem Sends.delivered (h : s.Sends ends taken sent) (hk : s.closing = .over .delivered) :
    s.link.waiting = [] ∧ s.link.writable = false ∧
      ∃ n o, s.desk.promise.answer? = some o ∧
        sent = List.replicate n (.data beatChunk) ++ [.data o.payload] := by
  have hform := h.form
  rw [hk] at hform
  obtain ⟨-, hn, hw, ha, o, pre, ho, hpre, hsent⟩ := hform
  rw [hsent] at ha
  have hblank := Frame.eq_replicate_of_filling hpre fun hm => ha (List.mem_append_left _ hm)
  refine ⟨List.map_eq_nil_iff.1 hn, hw, pre.length, o, Promise.answer?_of_outcome? ho, ?_⟩
  rw [← hblank, hsent]

end Session

/-! ### Exchanges in form -/

namespace Exchange

variable {e : Exchange}

/-- **What the client got.** -/
def pulls (e : Exchange) : List Pull :=
  e.got.map Prod.snd

/-- The outcome that **counts**, once the session has started. -/
def answer? (e : Exchange) : Option Outcome :=
  e.session?.bind fun s => s.desk.promise.answer?

/-- Before the session starts, nothing was put into the channel. -/
structure Unused (interval : Span) (c : Channel) : Prop where
  carries : c.Carries 0 [] []
  terms : c.terms = []
  writable : c.writable = true
  timeout : c.timeout = Settings.ioTimeoutFor interval

/-- An exchange **keeps to the form**. -/
def InForm (e : Exchange) : Prop :=
  0 < (Settings.ioTimeoutFor e.accepted.interval).ticks ∧
  match e.stage with
  | .waiting line | .abandoned line => e.pulls = [] ∧ Unused e.accepted.interval line.link
  | .running s _ => ∃ ends taken,
      e.pulls = taken.map .frame ++ List.replicate ends .finished ∧ s.InForm ends taken

/-- Once the session runs, the client holds the other end of its link. -/
theorem InForm.running {s : Session Channel} (h : e.InForm) (hs : e.session? = some s) :
    e.channel = s.link ∧ e.answer? = s.desk.promise.answer? ∧
      ∃ ends taken, e.pulls = taken.map .frame ++ List.replicate ends .finished ∧
        s.InForm ends taken := by
  obtain ⟨-, h⟩ := h
  obtain ⟨a, stage, reader, got⟩ := e
  cases stage with
  | waiting line | abandoned line => cases hs
  | running v ending =>
    cases hs
    exact ⟨rfl, rfl, h⟩

/-- **What the client got** before an abort frame or the end. -/
theorem InForm.chunks (h : e.InForm) :
    ∃ n, Pull.chunks e.pulls = List.replicate n Session.beatChunk ∨
      ∃ o, e.answer? = some o ∧
        Pull.chunks e.pulls = List.replicate n Session.beatChunk ++ [o.payload] := by
  cases hs : e.session? with
  | some s =>
    obtain ⟨-, hanswer, ends, taken, hpulls, sent, hsends⟩ := h.running hs
    rw [hpulls, hanswer]
    exact hsends.chunks
  | none =>
    obtain ⟨-, h⟩ := h
    obtain ⟨a, stage, reader, got⟩ := e
    cases stage with
    | waiting line | abandoned line =>
      refine ⟨0, .inl ?_⟩
      rw [h.1]
      rfl
    | running s ending => cases hs

/-- Whatever comes of the channel, the outcome that counts stays. -/
theorem answer?_withChannel (e : Exchange) (link : Channel) :
    (e.withChannel link).answer? = e.answer? := by
  obtain ⟨a, stage, reader, got⟩ := e
  cases stage <;> rfl

theorem answer?_readOnce (e : Exchange) : e.readOnce.answer? = e.answer? := by
  have hkeep (u : Exchange) (p : Pull) : (u.keep p).answer? = u.answer? := by
    unfold keep
    split <;> rfl
  exact (hkeep _ _).trans (e.answer?_withChannel _)

/-! #### The client -/

theorem Unused.pull {interval : Span} {c : Channel} (h : Unused interval c)
    (hb : c.hasBody = true) : c.pull.2 = .pending ∧ Unused interval c.pull.1 := by
  have hl := c.lasts_pull
  have hw : c.pull.1.writable = true := c.writable_pull.trans h.writable
  obtain ⟨f, -, -, hc⟩ | ⟨hp, hc⟩ | ⟨-, hc⟩ := h.carries.pull hb
  · have htook : [] ++ [f] <+: [] := hc.took
    simp at htook
  · exact ⟨hp, hc, hl.terms.trans h.terms, hw, hl.timeout.trans h.timeout⟩
  · obtain ⟨hn, -⟩ := hc.ended (Nat.succ_pos 0)
    rw [hw] at hn
    cases hn

theorem pulls_keep (e : Exchange) {p : Pull} (hp : p ≠ .pending) :
    (e.keep p).pulls = e.pulls ++ [p] := by
  unfold keep pulls
  split
  · exact absurd rfl hp
  · exact List.map_append
  · exact List.map_append
  · exact List.map_append

theorem stage_keep (e : Exchange) (p : Pull) :
    (e.keep p).stage = e.stage ∧ (e.keep p).accepted = e.accepted := by
  unfold keep
  split <;> exact ⟨rfl, rfl⟩

/-- **A read** keeps the form. -/
theorem InForm.readOnce (h : e.InForm) (hb : e.channel.hasBody = true) : e.readOnce.InForm := by
  obtain ⟨hpos, h⟩ := h
  have hread : e.readOnce = (e.withChannel e.channel.pull.1).keep e.channel.pull.2 := rfl
  obtain ⟨hstage, haccepted⟩ := (e.withChannel e.channel.pull.1).stage_keep e.channel.pull.2
  rw [hread]
  unfold InForm
  rw [hstage, haccepted]
  refine ⟨hpos, ?_⟩
  obtain ⟨a, stage, reader, got⟩ := e
  cases stage with
  | waiting line =>
    obtain ⟨hnil, hu⟩ := h
    obtain ⟨hp, hu⟩ := hu.pull hb
    have hp : channel ⟨a, .waiting line, reader, got⟩ |>.pull.2 = .pending := hp
    rw [hp]
    exact ⟨hnil, hu⟩
  | abandoned line =>
    obtain ⟨hnil, hu⟩ := h
    obtain ⟨hp, hu⟩ := hu.pull hb
    have hp : channel ⟨a, .abandoned line, reader, got⟩ |>.pull.2 = .pending := hp
    rw [hp]
    exact ⟨hnil, hu⟩
  | running s ending =>
    obtain ⟨ends, taken, hpulls, sent, hs⟩ := h
    have hpulls : pulls ⟨a, .running s ending, reader, got⟩ = _ := hpulls
    obtain ⟨f, hp, rfl, hc⟩ | ⟨hp, hc⟩ | ⟨hp, hc⟩ := hs.carries.pull hb
    · refine ⟨0, taken ++ [f], ?_, sent, hs.withLink s.link.lasts_pull hc (.inl rfl)⟩
      have hp : channel ⟨a, .running s ending, reader, got⟩ |>.pull.2 = .frame f := hp
      rw [hp, pulls_keep _ Pull.noConfusion]
      show pulls ⟨a, .running s ending, reader, got⟩ ++ [.frame f] = _
      rw [hpulls]
      simp
    · have hp : channel ⟨a, .running s ending, reader, got⟩ |>.pull.2 = .pending := hp
      rw [hp]
      exact ⟨ends, taken, hpulls, sent, hs.withLink s.link.lasts_pull hc (.inl rfl)⟩
    · refine ⟨ends + 1, taken, ?_, sent, hs.withLink s.link.lasts_pull hc (.inl rfl)⟩
      have hp : channel ⟨a, .running s ending, reader, got⟩ |>.pull.2 = .finished := hp
      rw [hp, pulls_keep _ Pull.noConfusion]
      show pulls ⟨a, .running s ending, reader, got⟩ ++ [.finished] = _
      rw [hpulls, List.append_assoc, List.replicate_succ']

theorem channel_readOnce (e : Exchange) : e.readOnce.channel = e.channel.pull.1 := by
  have hread : e.readOnce = (e.withChannel e.channel.pull.1).keep e.channel.pull.2 := rfl
  obtain ⟨hstage, -⟩ := (e.withChannel e.channel.pull.1).stage_keep e.channel.pull.2
  unfold channel line
  rw [hread, hstage]
  obtain ⟨a, stage, reader, got⟩ := e
  cases stage <;> rfl

theorem pulls_readOnce (e : Exchange) {p : Pull} (h : e.channel.pull.2 = p) (hp : p ≠ .pending) :
    e.readOnce.pulls = e.pulls ++ [p] := by
  have hread : e.readOnce = (e.withChannel e.channel.pull.1).keep e.channel.pull.2 := rfl
  rw [hread, h, pulls_keep _ hp]
  rfl

/-- **Whoever reads on gets to the end**, once nobody can write any more. -/
theorem pulls_iterate_readOnce (n : Nat) (e : Exchange) (hw : e.channel.writable = false)
    (hn : e.channel.waiting = []) (hlen : e.channel.buffer.length = n) :
    (readOnce^[n + 1] e).pulls = e.pulls ++ e.channel.buffer.map .frame ++ [.finished] := by
  induction n generalizing e with
  | zero =>
    have hnil : e.channel.buffer = [] := List.length_eq_zero_iff.1 hlen
    have hend : e.channel.pull.2 = .finished := by simp [Channel.pull, Channel.isOver, hnil, hw, hn]
    show e.readOnce.pulls = _
    rw [pulls_readOnce e hend Pull.noConfusion, hnil]
    simp
  | succ n ih =>
    obtain ⟨f, rest, hf⟩ := List.exists_cons_of_length_eq_add_one hlen
    have hpull : e.channel.pull = ({ e.channel with
        opened := true, buffer := rest, free := e.channel.free + 1 }, .frame f) := by
      simp [Channel.pull, Channel.giveBack, Channel.grantFirst, hf, hn]
    have hnext : e.readOnce.channel = { e.channel with
        opened := true, buffer := rest, free := e.channel.free + 1 } := by
      rw [channel_readOnce, hpull]
    have hrest : rest.length = n := by simpa [hf] using hlen
    rw [Function.iterate_succ_apply, ih e.readOnce (by rw [hnext]; exact hw)
      (by rw [hnext]; exact hn) (by rw [hnext]; exact hrest)]
    rw [pulls_readOnce e (congrArg Prod.snd hpull) Pull.noConfusion, hnext, hf]
    simp

/-- **The body's going away** keeps the form. -/
theorem InForm.leave (h : e.InForm) : e.leave.InForm := by
  obtain ⟨hpos, h⟩ := h
  refine ⟨hpos, ?_⟩
  obtain ⟨a, stage, reader, got⟩ := e
  cases stage with
  | waiting line | abandoned line =>
    obtain ⟨hnil, hu⟩ := h
    exact ⟨hnil, hu.carries.dropBody, hu.terms, hu.writable, hu.timeout⟩
  | running s ending =>
    obtain ⟨ends, taken, hpulls, sent, hs⟩ := h
    refine ⟨ends, taken, hpulls, sent, ?_⟩
    exact hs.withLink ⟨rfl, rfl, id⟩ hs.carries.dropBody (.inl rfl)

/-! #### The session -/

/-- **A session starts** in form, whatever its handler does. -/
theorem inForm_launch {line : Line Channel} {interval : Span} (h : Unused interval line.link)
    (hpos : 0 < (Settings.ioTimeoutFor interval).ticks) (id : Nat) (p : Prepared) :
    (Session.launch line id interval p).1.InForm 0 [] := by
  let fresh := Session.unexecuted line id interval p
  have hfresh : fresh.Sends 0 [] [] := by
    refine ⟨h.carries, h.timeout.symm, hpos, rfl, ?_, .inl ⟨h.terms, fun _ => Beat.noConfusion⟩⟩
    intro f hf
    cases hf
  have hl : fresh.desk.Leads (fresh.desk.execute p.name p.program).1 := Desk.Leads.refl.execute _ _
  rw [Session.launch_eq]
  exact hfresh.desk hl.promise fun P hclose hcancel => hl.around hclose hcancel

theorem InForm.start (h : e.InForm) (id : Nat) : (e.start id).1.InForm := by
  obtain ⟨hpos, h⟩ := h
  unfold Exchange.start
  split
  · rename_i line hstage
    rw [hstage] at h
    obtain ⟨hnil, hu⟩ := h
    split
    · refine ⟨hpos, 0, [], ?_, ?_⟩
      · exact hnil
      · exact inForm_launch hu hpos id e.accepted.prepared
    · split
      · exact ⟨hpos, hnil, hu⟩
      · refine ⟨hpos, ?_⟩
        rw [hstage]
        exact ⟨hnil, hu⟩
  · exact ⟨hpos, h⟩

/-- **A task's turn** keeps the form. -/
theorem InForm.poll (h : e.InForm) (t : Task) :
    (e.onSession fun s => (s.poll t, ())).1.InForm := by
  have hform := h
  obtain ⟨hpos, h⟩ := h
  unfold onSession
  split
  · rename_i s ending hstage
    rw [hstage] at h
    obtain ⟨ends, taken, hpulls, sent, hsends⟩ := h
    refine ⟨hpos, ends, taken, hpulls, ?_⟩
    have hin : s.InForm ends taken := ⟨sent, hsends⟩
    exact hin.poll t
  · exact hform

/-- **The clock moves** when no task can go on, and not beyond a timer: the form stays. -/
theorem InForm.atTime {now : Nat} (h : e.InForm) (hle : e.now ≤ now)
    (hquiet : e.session?.all (fun s => s.isQuiet && (s.nextDue s.now).all fun due => now ≤ due) =
      true)
    (hapart : e.session?.all (fun s => decide s.timers.Nodup) = true) :
    (Timed.atTime now e).InForm := by
  obtain ⟨hpos, h⟩ := h
  obtain ⟨a, stage, reader, got⟩ := e
  cases stage with
  | waiting line | abandoned line =>
    obtain ⟨hnil, hu⟩ := h
    exact ⟨hpos, hnil, hu⟩
  | running s ending =>
    obtain ⟨ends, taken, hpulls, sent, hsends⟩ := h
    obtain ⟨hq, hdue⟩ := Bool.and_eq_true_iff.1 hquiet
    have hapart : s.timers.Nodup := of_decide_eq_true hapart
    exact ⟨hpos, ends, taken, hpulls, sent, hsends.atTime hle hq hdue hapart⟩

/-- **Others** keep the form. -/
theorem InForm.move {s : Session Channel} {ending : Ending} {before after : Outside}
    {m : Desk.Move} {desk : Desk (Line Channel)} (h : e.InForm)
    (hs : e.stage = .running s ending) (hm : s.desk.move before m = some (desk, after)) :
    InForm { e with stage := .running { s with desk } ending } := by
  obtain ⟨hpos, h⟩ := h
  rw [hs] at h
  obtain ⟨ends, taken, hpulls, sent, hsends⟩ := h
  refine ⟨hpos, ends, taken, hpulls, ?_⟩
  exact hsends.desk (Desk.promise_move hm) fun P hclose hcancel => Desk.around_move hclose hcancel hm

/-- **A whole body**, once the outcome was delivered: whoever has met the end got it, and while the
body is there, whoever reads on gets it. -/
theorem InForm.whole_of_delivered {s : Session Channel} (h : e.InForm) (hs : e.session? = some s)
    (hk : s.closing = .over .delivered) :
    ∃ n o, e.answer? = some o ∧
      (.finished ∈ e.pulls → ∃ ends, e.pulls = Pull.whole n o (ends + 1)) ∧
      (e.channel.hasBody = true →
        ∃ m ends, (Exchange.readOnce^[m] e).pulls = Pull.whole n o (ends + 1)) := by
  obtain ⟨hchannel, hanswer, ends, taken, hpulls, sent, hsends⟩ := h.running hs
  obtain ⟨hn, hw, n, o, ho, hsent⟩ := hsends.delivered hk
  have hwhole (m : Nat) : sent.map .frame ++ List.replicate m .finished = Pull.whole n o m := by
    rw [hsent, Pull.whole]
    simp
  refine ⟨n, o, hanswer.trans ho, fun hmet => ?_, fun hbody => ?_⟩
  · rw [hpulls] at hmet ⊢
    have hpos : 0 < ends := by
      refine Nat.pos_of_ne_zero fun hz => ?_
      simp [hz] at hmet
    obtain ⟨-, -, htaken⟩ := hsends.carries.ended hpos
    refine ⟨ends - 1, ?_⟩
    rw [htaken, hwhole, Nat.sub_add_cancel hpos]
  · -- What is still in the buffer comes first, and the end behind it.
    refine ⟨s.link.buffer.length + 1, ends, ?_⟩
    have hread := pulls_iterate_readOnce s.link.buffer.length e (by rw [hchannel, hw])
      (by rw [hchannel, hn]) (by rw [hchannel])
    have hbuffer := hsends.carries.buffered (hchannel ▸ hbody)
    rw [hread, hpulls, hchannel, ← hwhole]
    rcases Nat.eq_zero_or_pos ends with rfl | hpos
    · simp [← hbuffer]
    · obtain ⟨-, -, htaken⟩ := hsends.carries.ended hpos
      have hnil : s.link.buffer = [] := by simpa [htaken] using hbuffer
      rw [hnil, htaken, List.replicate_succ']
      simp

end Exchange

namespace Exchange.Course

variable {c v : Course}

/-- **Every step** keeps an exchange in form, on a clock that waits. -/
theorem inForm_step {a : Act} (h : c.exchange.InForm) (ho : c.isOrderly = true)
    (hs : c.step a = some v) : v.exchange.InForm := by
  cases a with
  | start id =>
    cases hs
    exact h.start id
  | poll t =>
    cases hs
    exact h.poll t
  | tick now =>
    rw [step] at hs
    split at hs <;> cases hs
    rename_i hm
    -- Only here it counts that the clock waits and that no two timers are due at one time.
    obtain ⟨hm, hquiet⟩ := Bool.and_eq_true_iff.1 hm
    obtain ⟨hle, -⟩ := Bool.and_eq_true_iff.1 hm
    exact h.atTime (of_decide_eq_true hle) hquiet ho
  | read =>
    rw [step] at hs
    split at hs <;> cases hs
    rename_i hb
    exact h.readOnce hb
  | leave =>
    cases hs
    exact h.leave
  | other m =>
    rw [step] at hs
    split at hs
    · rename_i s ending hstage
      obtain ⟨⟨desk, outside⟩, hmove, rfl⟩ := Option.map_eq_some_iff.1 hs
      exact h.move hstage hmove
    · cases hs

/-- **What an exchange comes to** is in form. -/
theorem Reachable.inForm {a : Accepted} {now : Nat}
    (h : Reachable { exchange := .ofAccepted a now } (fun v => v.isOrderly = true) c)
    (hpos : 0 < (Settings.ioTimeoutFor a.interval).ticks) : c.exchange.InForm := by
  induction h with
  | start =>
    refine ⟨hpos, rfl, ?_, rfl, rfl, rfl⟩
    exact ⟨List.prefix_refl _, fun _ => rfl, fun _ => List.not_mem_nil, fun he => by cases he⟩
  | step hc a hs _ ih => exact inForm_step ih hc.holds hs

/-! ### Who answered first -/

/-- What the start of the session **bids**: what its handler does, if the session starts. -/
def startBids (c : Course) (id : Nat) : List Bid :=
  match c.exchange.stage with
  | .waiting line =>
    if line.link.opened then
      (Session.unexecuted line id c.exchange.accepted.interval
        c.exchange.accepted.prepared).desk.executeBids c.exchange.accepted.prepared.name
        c.exchange.accepted.prepared.program
    else []
  | _ => []

/-- What a **step** bids: in a task's turn, what the disposals for which it calls do. -/
def Bids (c : Course) (bs : List Bid) : Act → Prop
  | .start id => bs = c.startBids id
  | .poll t =>
    match c.exchange.session? with
    | some s => ∃ ds, s.Leads ds (s.poll t) ∧ bs = ds.flatMap Desk.disposalBids
    | none => bs = []
  | .other m =>
    match c.exchange.session? with
    | some s => bs = (m.deed : Deed Channel).bids s.desk c.outside
    | none => bs = []
  | .tick _ | .read | .leave => bs = []

/-- **All bids of an exchange**, in order. -/
inductive Bidden (start : Course) : Course → List Bid → Prop
  | start : Bidden start start []
  | step {c v : Course} {bs cs : List Bid} (h : Bidden start c bs) (a : Act)
      (hs : c.step a = some v) (hb : c.Bids cs a) : Bidden start v (bs ++ cs)

/-- Every step bids something, or nothing. -/
theorem exists_bids (c : Course) (a : Act) : ∃ bs, c.Bids bs a := by
  cases a with
  | poll t =>
    unfold Bids
    cases c.exchange.session? with
    | some s =>
      obtain ⟨ds, hl⟩ := s.leads_poll t
      exact ⟨_, ds, hl, rfl⟩
    | none => exact ⟨_, rfl⟩
  | other m =>
    unfold Bids
    cases c.exchange.session? <;> exact ⟨_, rfl⟩
  | start | tick | read | leave => exact ⟨_, rfl⟩

/-- Every exchange has its bids. -/
theorem Reachable.exists_bidden {start : Course} {always : Course → Prop}
    (h : Reachable start always c) : ∃ bs, Bidden start c bs := by
  induction h with
  | start => exact ⟨_, .start⟩
  | @step c _ _ a hs _ ih =>
    obtain ⟨bs, hb⟩ := ih
    obtain ⟨cs, hc⟩ := c.exists_bids a
    exact ⟨bs ++ cs, hb.step a hs hc⟩

/-- **The session starts**: the handler's first bid counts. -/
theorem answer?_start (c : Course) (id : Nat) :
    (c.exchange.start id).1.answer? = c.exchange.answer?.or (Bid.first? (c.startBids id)) := by
  obtain ⟨⟨accepted, stage, reader, got⟩, outside⟩ := c
  cases stage with
  | waiting line =>
    unfold Exchange.start startBids
    dsimp only
    split
    · exact Desk.answer?_execute _ _ _
    · split <;> rfl
  | abandoned line => rfl
  | running s ending => exact Option.or_none.symm

/-- **A step**: its first bid counts, if nobody bid before. -/
theorem answer?_step {a : Act} {bs : List Bid} (hs : c.step a = some v) (hb : c.Bids bs a) :
    v.exchange.answer? = c.exchange.answer?.or (Bid.first? bs) := by
  cases a with
  | start id =>
    cases hs
    cases hb
    exact c.answer?_start id
  | poll t =>
    cases hs
    obtain ⟨⟨accepted, stage, reader, got⟩, outside⟩ := c
    cases stage with
    | waiting line | abandoned line =>
      cases hb
      rfl
    | running s ending =>
      obtain ⟨ds, hl, rfl⟩ := hb
      exact hl.answer?_eq
  | tick now =>
    cases hb
    rw [step] at hs
    split at hs <;> cases hs
    obtain ⟨⟨accepted, stage, reader, got⟩, outside⟩ := c
    cases stage <;> exact Option.or_none.symm
  | read =>
    cases hb
    rw [step] at hs
    split at hs <;> cases hs
    rw [Bid.first?_nil, Option.or_none]
    exact c.exchange.answer?_readOnce
  | leave =>
    cases hb
    cases hs
    rw [Bid.first?_nil, Option.or_none]
    exact answer?_withChannel c.exchange _
  | other m =>
    obtain ⟨⟨accepted, stage, reader, got⟩, outside⟩ := c
    cases stage with
    | waiting line | abandoned line => cases hs
    | running s ending =>
      cases hb
      obtain ⟨⟨desk, outside⟩, hmove, rfl⟩ := Option.map_eq_some_iff.1 hs
      exact Desk.answer?_move hmove

/-- **The outcome that counts is that of the first bid**, whoever made it. -/
theorem Bidden.answer?_eq {a : Accepted} {now : Nat} {bs : List Bid}
    (h : Bidden { exchange := .ofAccepted a now } c bs) : c.exchange.answer? = Bid.first? bs := by
  induction h with
  | start => rfl
  | step _ a hs hb ih => rw [answer?_step hs hb, ih, Bid.first?_append]

/-- **The outcome that counts** counts for good. -/
theorem answer?_of_step {a : Act} {o : Outcome} (hs : c.step a = some v)
    (ho : c.exchange.answer? = some o) : v.exchange.answer? = some o := by
  obtain ⟨bs, hb⟩ := c.exists_bids a
  rw [answer?_step hs hb, ho]
  rfl

/-! ### The whole course -/

/-- The exchange of a request that was accepted. -/
theorem exists_accepted {s : Service} {r : Http.Request} {e : Exchange}
    (h : (s.handle r).1.exchanges = s.exchanges ++ [e]) :
    ∃ a, accept s.settings s.routes r = .ok a ∧ e = .ofAccepted a s.now := by
  cases hd : (receive s.settings s.routes r).result with
  | error f =>
    rw [Service.handle_of_error hd] at h
    simp at h
  | ok a =>
    refine ⟨a, ?_, ?_⟩
    · unfold receive at hd
      split at hd
      · cases hd
      · exact hd
    · unfold Service.handle at h
      simp only [hd, List.append_cancel_left_eq, List.cons.injEq, and_true] at h
      exact h.symm

/-- The time between two beats is not empty, and no wait is. -/
theorem ticks_pos_of_accept {s : Settings} {routes : Routes Handler} {r : Http.Request}
    {a : Accepted} (hs : s.check = .ok ()) (ha : accept s routes r = .ok a) :
    0 < (Settings.ioTimeoutFor a.interval).ticks := by
  have hheartbeat : s.heartbeat.nanos ≠ 0 := by
    intro hz
    have hzero : s.heartbeat.isZero = true := by simp [Span.isZero, hz]
    simp [Settings.check, hzero] at hs
  have hinterval {v : Json} {d : Span} (hd : intervalFor s v = .ok d) : d.nanos ≠ 0 := by
    unfold intervalFor at hd
    split at hd
    · cases hd
      exact hheartbeat
    · cases hd
      exact hheartbeat
    · split at hd
      · split at hd <;> cases hd
        rename_i hpos
        show _ * 1000000 ≠ 0
        omega
      · cases hd
  have hnanos : a.interval.nanos ≠ 0 := by
    obtain ⟨v, -, ha⟩ := exists_of_bind_eq_ok ha
    obtain ⟨d, hd, ha⟩ := exists_of_bind_eq_ok ha
    obtain ⟨⟨name, handler⟩, -, ha⟩ := exists_of_bind_eq_ok ha
    obtain ⟨prepared, -, ha⟩ := exists_of_bind_eq_ok ha
    cases ha
    exact hinterval hd
  show 0 < (min (2 * a.interval.nanos) Span.greatest + 999999) / 1000000
  unfold Span.greatest
  omega

/-- **The body of a reply**, for every request that is accepted, whatever the handler and others do,
however slowly the client reads and whenever the body goes away.  The clock moves when no task can
go on, and no two timers are due at one time.

* What the client gets before an abort frame or the end are blanks, and at most one last chunk
  behind them, that of the first answer of all that were given, or of all callbacks going without one.
* When the outcome was delivered, a client that has met the end got a whole body: blanks, that last
  chunk and the end.  As long as the body is there, whoever reads on meets the end.
* The outcome that counts is that of the first bid, and it counts for good. -/
theorem body_in_order (s : Service) (r : Http.Request) (e : Exchange) (c : Course)
    (hs : s.settings.check = .ok ()) (he : (s.handle r).1.exchanges = s.exchanges ++ [e])
    (h : Reachable { exchange := e } (fun v => v.isOrderly = true) c) :
    (∃ bs, Bidden { exchange := e } c bs) ∧
    (∀ bs, Bidden { exchange := e } c bs →
      (∃ n, Pull.chunks c.exchange.pulls = List.replicate n Session.beatChunk ∨
        ∃ b later, bs = b :: later ∧
          Pull.chunks c.exchange.pulls =
            List.replicate n Session.beatChunk ++ [b.outcome.payload]) ∧
      (∀ v, c.exchange.session? = some v → v.endAs? = some .delivered →
        ∃ n b later, bs = b :: later ∧
          (.finished ∈ c.exchange.pulls →
            ∃ ends, c.exchange.pulls = Pull.whole n b.outcome (ends + 1)) ∧
          (c.exchange.channel.hasBody = true →
            ∃ m ends, (readOnce^[m] c.exchange).pulls = Pull.whole n b.outcome (ends + 1))) ∧
      c.exchange.answer? = Bid.first? bs) ∧
    ∀ b v o, c.step b = some v → c.exchange.answer? = some o → v.exchange.answer? = some o := by
  obtain ⟨a, ha, rfl⟩ := exists_accepted he
  have hform : c.exchange.InForm := h.inForm (ticks_pos_of_accept hs ha)
  refine ⟨h.exists_bidden, fun bs hb => ?_, fun b v o => answer?_of_step⟩
  have hfirst {o : Outcome} (ho : c.exchange.answer? = some o) :
      ∃ b later, bs = b :: later ∧ b.outcome = o :=
    Bid.first?_eq_some_iff.1 (hb.answer?_eq.symm.trans ho)
  refine ⟨?_, fun v hv hend => ?_, hb.answer?_eq⟩
  · obtain ⟨n, hn | ⟨o, ho, hn⟩⟩ := hform.chunks
    · exact ⟨n, .inl hn⟩
    · obtain ⟨b, later, hbs, rfl⟩ := hfirst ho
      exact ⟨n, .inr ⟨b, later, hbs, hn⟩⟩
  · have hk : v.closing = .over .delivered := Scene.closing_of_endAs? hend (by decide)
    obtain ⟨n, o, ho, hwhole⟩ := hform.whole_of_delivered hv hk
    obtain ⟨b, later, hbs, rfl⟩ := hfirst ho
    exact ⟨n, b, later, hbs, hwhole⟩

/-- Sixteen blanks fill the buffer, and the seventeenth still waits for a place when the outcome
comes and the closing stops the beat.  The client reads one blank and then one more; so the beat ends,
and the last chunk goes in behind its blank. -/
theorem body_in_order_behind_waiting_beat :
    let s : Service := {
      settings := { Settings.base 1 with token := some "s3cret", heartbeat := .ofMillis 20 }
      routes := { entries := [("job", fun _ => .read (.keep (.finish "")))] } }
    let r : Http.Request := {
      method := "POST", path := "/api/toolbox/v1/job", credential := some "toolbox s3cret"
      body := { pieces := ["null".toUTF8] } }
    let e : Exchange :=
      .ofAccepted { prepared := ⟨"job", .keep (.finish "")⟩, interval := .ofMillis 20 } 0
    s.settings.check = .ok () ∧ (s.handle r).1.exchanges = s.exchanges ++ [e] ∧
      ∃ c : Course, Reachable { exchange := e } (fun v => v.isOrderly = true) c ∧
        c.exchange.session?.bind Session.endAs? = some .delivered ∧
        c.exchange.pulls = Pull.whole 17 (.ok .null) 1 ∧
        ∃ n b later, Bidden { exchange := e } c (b :: later) ∧
          ∃ ends, c.exchange.pulls = Pull.whole n b.outcome (ends + 1) := by
  intro s r e
  let acts : List Act := [.read, .start 1, .poll .watcher, .poll .beat, .poll .closing] ++
    (List.range 17).flatMap (fun i => [.tick (20 * (i + 1)), .poll .beat]) ++
    [.tick 350, .other (.claim (.ok .null)), .other .send, .poll .closing, .tick 360, .read,
      .poll .beat, .poll .closing, .read, .poll .closing] ++ List.replicate 17 .read
  have hs : s.settings.check = .ok () := by decide +kernel
  have he : (s.handle r).1.exchanges = s.exchanges ++ [e] := by
    have hj : judge s.settings s.routes r.method r.path r.credential = .authorized := by
      decide +kernel
    have hbytes : Json.readBytes (["null".toUTF8].foldl (· ++ ·) .empty) = some .null := by rfl
    have hv : r.body.Holds .null := ⟨_, rfl, hbytes⟩
    have hfits : endsIn (beforeQuery r.path.toList) "job".toList = true := by decide +kernel
    have hfind : s.routes.find? r.path = some ("job", fun _ => .read (.keep (.finish ""))) :=
      List.find?_cons_of_pos hfits
    have hl : s.routes.lookup r.path = .ok ("job", fun _ => .read (.keep (.finish ""))) := by
      rw [Routes.lookup, hfind]
    have hd : receive s.settings s.routes r =
        { result := accept s.settings s.routes r, bodyRead := true } := by
      simp only [receive, hj, Verdict.toResult]
    rw [Service.handle, hd, accept_of_holds hv hl]
    rfl
  have hrun : (Course.stepsWhile (fun v => v.isOrderly = true) { exchange := e } acts).map
      (fun c => (c.exchange.pulls, c.exchange.session?.bind Session.endAs?)) =
      some (Pull.whole 17 (.ok .null) 1, some .delivered) := by decide +kernel
  obtain ⟨c, hc, hend⟩ := Option.map_eq_some_iff.1 hrun
  obtain ⟨hpulls, hend⟩ := Prod.mk.inj hend
  have h : Reachable { exchange := e } (fun v => v.isOrderly = true) c :=
    (Reachable.start (by decide +kernel)).stepsWhile acts hc
  obtain ⟨v, hv, hdelivered⟩ := Option.bind_eq_some_iff.1 hend
  obtain ⟨⟨bs, hb⟩, hbody, -⟩ := body_in_order s r e c hs he h
  obtain ⟨n, b, later, rfl, hwhole, -⟩ := (hbody bs hb).2.1 v hv hdelivered
  have hmet : .finished ∈ c.exchange.pulls := by
    rw [hpulls]
    decide
  exact ⟨hs, he, c, h, hend, hpulls, n, b, later, hb, hwhole hmet⟩

end Exchange.Course

end HeldReply
