import HeldReply.Proofs.Session.History

/-!
# What a turn does to the beat

The beat has at most one write in flight, the one that it waits for.  A beat that is cancelled begins
no write in its turns, and one that is over stays so.  A call that stops the beat returns that it was
over in time only if it is over.  The turns of the closing and of the watcher do nothing to the beat.

* `Session.HasLanded`, `Session.IsSingle` — no beat is in flight, or only the one that is waited for;
* `Session.Spares` — **nothing is done to the beat**, and which turns do nothing to it;
* `Stop.Turns`, `Session.Heeds` — **what a turn does** to the beat and to the calls that stop it;
* `Session.IsSingle.poll` — every turn does no more than that.
-/

namespace HeldReply

open Recorded

theorem beatsBegun_append_began {log es : List Entry} (hes : starts es = []) (t n : Nat)
    (call : Call) (beside : List Nat) : beatsBegun (log ++ .began t n call beside :: es) =
      beatsBegun log + if call = .write Session.beatChunk then 1 else 0 := by
  rw [beatsBegun, beatsBegun, starts_append, starts_cons, hes, List.append_nil, List.count_append]
  show _ + List.count _ [call] = _
  rw [List.count_singleton]
  simp only [beq_iff_eq]

namespace Session

variable {σ : Type} {s v w : Session (Recorded σ)}

/-- **No beat is in flight.** -/
def HasLanded (s : Session (Recorded σ)) : Prop :=
  ∀ f ∈ s.link.flights, f.call ≠ .write beatChunk

/-- **At most one beat is in flight**, the one that the beat waits for. -/
def IsSingle (s : Session (Recorded σ)) : Prop :=
  ∀ f ∈ s.link.flights, f.call = .write beatChunk → s.beat = .writing f.number

theorem IsSingle.hasLanded (h : s.IsSingle) (hb : ∀ n, s.beat ≠ .writing n) : s.HasLanded :=
  fun f hf hc => hb f.number (h f hf hc)

theorem IsSingle.hasLanded_of_isOver (h : s.IsSingle) (hb : s.beat.isOver = true) :
    s.HasLanded := by
  apply h.hasLanded
  intro n hn
  rw [hn] at hb
  cases hb

theorem HasLanded.isSingle (h : s.HasLanded) : s.IsSingle :=
  fun f hf hc => absurd hc (h f hf)

/-! ### Turns that do nothing to the beat -/

/-- **Nothing is done to the beat**, or to the calls that stop it, but that it may be cancelled. -/
structure Spares (s v : Session (Recorded σ)) : Prop where
  beat : v.beat = s.beat
  stops : v.stops = s.stops
  cancelled : s.isCancelled = true → v.isCancelled = true
  begun : beatsBegun v.link.log = beatsBegun s.link.log
  flights : ∀ f ∈ v.link.flights, f.call = .write beatChunk → f ∈ s.link.flights

theorem Spares.refl (s : Session (Recorded σ)) : s.Spares s :=
  ⟨rfl, rfl, id, rfl, fun _ hf _ => hf⟩

theorem Spares.trans (h : s.Spares v) (k : v.Spares w) : s.Spares w :=
  ⟨k.beat.trans h.beat, k.stops.trans h.stops, fun hc => k.cancelled (h.cancelled hc),
    k.begun.trans h.begun, fun f hf hc => h.flights f (k.flights f hf hc) hc⟩

/-- **No call begins.** -/
theorem Spares.of_follows (hd : Desk.Follows s.desk v.desk) (hb : v.beat = s.beat)
    (hs : v.stops = s.stops) : s.Spares v := by
  obtain ⟨es, hes, hlog⟩ := hd.log
  have hlog : v.link.log = s.link.log ++ es := hlog
  refine ⟨hb, hs, hd.cancelled, ?_, fun f hf _ => hd.flights f hf⟩
  rw [hlog, beatsBegun_append hes]

/-- The closing and the watcher are in other phases. -/
theorem spares_phase (s : Session (Recorded σ)) (joined : Bool) (closing : Closing)
    (watcher : Watcher) : s.Spares { s with joined, closing, watcher } :=
  .of_follows (.refl _) rfl rfl

section Tasks

variable [Link σ]

/-- A call begins that **is no beat**. -/
theorem spares_startCall (s : Session (Recorded σ)) {call : Call}
    (hcall : call ≠ .write beatChunk) : s.Spares (s.startCall call).1 := by
  have hbegun (t n : Nat) (beside : List Nat) {es : List Entry} (hes : starts es = []) :
      beatsBegun (s.link.log ++ .began t n call beside :: es) = beatsBegun s.link.log := by
    rw [beatsBegun_append_began hes, if_neg hcall, Nat.add_zero]
  obtain ⟨beside, -, ⟨link, r, hs⟩ | ⟨link, ticket, hs⟩⟩ := s.startCall_cases call <;> rw [hs]
  · exact ⟨rfl, rfl, id, hbegun _ _ _ rfl, fun f hf _ => hf⟩
  · refine ⟨rfl, rfl, id, hbegun _ _ _ rfl, fun f hf hc => ?_⟩
    obtain hf | hf := List.mem_append.1 hf
    · exact hf
    · rw [List.mem_singleton.1 hf] at hc
      exact absurd hc hcall

theorem spares_pollCall (s : Session (Recorded σ)) (number : Nat) :
    s.Spares (s.pollCall number).1 := by
  obtain ⟨link, hs⟩ | ⟨link, r, hs⟩ := s.pollCall_cases number <;> rw [hs]
  · exact .of_follows (s.follows_link link) rfl rfl
  · exact .of_follows (s.follows_answer link number r) rfl rfl

theorem spares_dispose (s : Session (Recorded σ)) : s.Spares s.dispose.1 :=
  .of_follows (Desk.follows_dispose s.desk) rfl rfl

theorem spares_endWith (s : Session (Recorded σ)) (e : SessionEnd) : s.Spares (s.endWith e) :=
  .of_follows (Desk.follows_dispose s.desk) rfl rfl

theorem spares_discard (s : Session (Recorded σ)) : s.Spares s.discard := by
  have hd : Desk.Follows s.desk s.cancel.closeLink.1.desk :=
    (Desk.follows_cancelBeat s.desk).trans (Desk.follows_closeLink _)
  obtain ⟨-, hv⟩ | ⟨_, -, hv⟩ := s.discard_cases <;> rw [hv] <;> exact .of_follows hd rfl rfl

theorem spares_afterFinish (s : Session (Recorded σ)) (r : Reply) : s.Spares (s.afterFinish r) := by
  cases r with
  | done => exact s.spares_endWith .delivered
  | refused f => exact s.spares_endWith .writeFailed
  | crashed c => exact s.spares_phase s.joined .crashed s.watcher

theorem spares_afterPayload (s : Session (Recorded σ)) (r : Reply) :
    s.Spares (s.afterPayload r) := by
  cases r with
  | done =>
    have hstart := s.spares_startCall finish_ne_beat
    rw [Session.afterPayload]
    rcases hs : s.startCall .finish with ⟨v, r | ticket⟩ <;> rw [hs] at hstart
    · exact hstart.trans (v.spares_afterFinish r)
    · exact hstart.trans (v.spares_phase v.joined (.finishing ticket) v.watcher)
  | refused f => exact s.spares_endWith .writeFailed
  | crashed c => exact s.spares_phase s.joined .crashed s.watcher

theorem spares_writePayload (s : Session (Recorded σ)) (o : Outcome) :
    s.Spares (s.writePayload o) := by
  have hstart := s.spares_startCall (payload_ne_beat o)
  rw [Session.writePayload]
  rcases hs : s.startCall (.write o.payload) with ⟨v, r | ticket⟩ <;> rw [hs] at hstart
  · exact hstart.trans (v.spares_afterPayload r)
  · exact hstart.trans (v.spares_phase v.joined (.writing ticket) v.watcher)

theorem spares_afterStop (s : Session (Recorded σ)) (held : Option Outcome) :
    s.Spares (s.afterStop held) := by
  cases held with
  | none => exact s.spares_discard
  | some o =>
    rw [Session.afterStop]
    split
    · exact s.spares_discard
    · exact s.spares_writePayload o

theorem spares_cancel (s : Session (Recorded σ)) : s.Spares s.cancel :=
  .of_follows (Desk.follows_cancelBeat s.desk) rfl rfl

theorem spares_stopBeat (s : Session (Recorded σ)) (held : Option Outcome) :
    s.Spares (s.stopBeat held) := by
  have hjoin (closing : Closing) : s.Spares { s.cancel with joined := true, closing } :=
    s.spares_cancel.trans (s.cancel.spares_phase true closing s.watcher)
  rw [stopBeat_eq]
  split
  · exact s.spares_cancel.trans (s.cancel.spares_afterStop held)
  · split
    · exact (hjoin s.closing).trans (spares_afterStop _ held)
    · exact hjoin _

theorem spares_askOutcome (s : Session (Recorded σ)) (isFresh : Bool) :
    s.Spares (s.askOutcome isFresh) := by
  have hasked : s.Spares { s with desk.promise := s.desk.promise.poll.1 } :=
    .of_follows (.of_promise rfl (.of_stage s.desk.promise.poll_outcome.2)) rfl rfl
  cases ho : s.desk.promise.stage.outcome? with
  | some o =>
    rw [askOutcome_some ho]
    exact hasked.trans (spares_stopBeat _ (some o))
  | none =>
    rw [askOutcome_none ho]
    split
    · exact hasked.trans (spares_stopBeat _ none)
    · exact hasked.trans (spares_phase _ s.joined .waiting s.watcher)

/-- **The closing** does nothing to the beat but that it cancels it. -/
theorem spares_pollClosing (s : Session (Recorded σ)) : s.Spares s.pollClosing := by
  unfold Session.pollClosing
  split
  · exact s.spares_askOutcome true
  · exact s.spares_askOutcome false
  · split
    · exact s.spares_stopBeat _
    · exact .refl s
  · split
    · exact s.spares_afterStop _
    · exact .refl s
  · rename_i ticket _
    have hasked := s.spares_pollCall ticket
    rcases hp : s.pollCall ticket with ⟨v, _ | r⟩ <;> rw [hp] at hasked
    · exact hasked
    · exact hasked.trans (v.spares_afterPayload r)
  · rename_i ticket _
    have hasked := s.spares_pollCall ticket
    rcases hp : s.pollCall ticket with ⟨v, _ | r⟩ <;> rw [hp] at hasked
    · exact hasked
    · exact hasked.trans (v.spares_afterFinish r)
  · exact .refl s
  · exact .refl s
  · exact .refl s

/-- **The watcher** does nothing to the beat but that it cancels it. -/
theorem spares_pollWatcher (s : Session (Recorded σ)) : s.Spares s.pollWatcher := by
  have hwatch (isFresh : Bool) : s.Spares (s.watch isFresh) := by
    unfold Session.watch
    split
    · exact .of_follows (Desk.follows_dispose s.desk) rfl rfl
    · split
      · exact s.spares_phase s.joined s.closing .ended
      · exact s.spares_phase s.joined s.closing .waiting
  unfold Session.pollWatcher
  split
  · exact hwatch true
  · exact hwatch false
  · exact .refl s
  · exact .refl s

end Tasks

end Session

/-! ### What a turn does -/

/-- What becomes of a **call that stops the beat** in a turn: it returns at most, and only if the beat
is over it returns that it was over in time. -/
inductive Stop.Turns (isOver : Prop) : Stop → Stop → Prop
  | same (call : Stop) : Turns isOver call call
  | returned (deadline : Nat) (inTime : Bool) (h : inTime = true → isOver) :
      Turns isOver (.waiting deadline) (.answered inTime)

theorem Stop.Turns.trans {p q : Prop} {a b c : Stop} (h : Turns p a b) (k : Turns q b c)
    (hpq : p → q) : Turns q a c := by
  cases h with
  | same => exact k
  | returned deadline inTime hp =>
    cases k with
    | same => exact .returned deadline inTime fun ht => hpq (hp ht)

namespace Session

variable {σ : Type} {s v w : Session (Recorded σ)} {may may' : Prop}

/-- **What a turn does to the beat**.  Either no write begins, or it `may`, and the beat is not
over. -/
structure Heeds (may : Prop) (s v : Session (Recorded σ)) : Prop where
  single : v.IsSingle
  cancelled : s.isCancelled = true → v.isCancelled = true
  isOver : s.beat.isOver = true → v.beat.isOver = true
  begun : (beatsBegun v.link.log = beatsBegun s.link.log ∧ (s.HasLanded → v.HasLanded)) ∨
    may ∧ s.beat.isOver = false
  stops : ∀ (i : Nat) (call : Stop), s.stops[i]? = some call →
    ∃ call', v.stops[i]? = some call' ∧ call.Turns (v.beat.isOver = true) call'

theorem IsSingle.of_spares (h : s.IsSingle) (hs : s.Spares v) : Heeds may s v := by
  refine ⟨?_, hs.cancelled, ?_, .inl ⟨hs.begun, fun hl f hf hc => hl f (hs.flights f hf hc) hc⟩, ?_⟩
  · intro f hf hc
    rw [hs.beat]
    exact h f (hs.flights f hf hc) hc
  · rw [hs.beat]
    exact id
  · intro i call hi
    rw [hs.stops]
    exact ⟨call, hi, .same call⟩

theorem IsSingle.refl (h : s.IsSingle) : Heeds may s s :=
  h.of_spares (.refl s)

theorem Heeds.imp (h : Heeds may s v) (hmay : may → may') : Heeds may' s v :=
  ⟨h.single, h.cancelled, h.isOver, h.begun.imp id fun hb => ⟨hmay hb.1, hb.2⟩, h.stops⟩

theorem Heeds.mono (h : Heeds False s v) : Heeds may s v :=
  h.imp fun hf => hf.elim

theorem Heeds.trans (h : Heeds may s v) (k : Heeds may v w) : Heeds may s w := by
  refine ⟨k.single, fun hc => k.cancelled (h.cancelled hc), fun ho => k.isOver (h.isOver ho),
    ?_, ?_⟩
  · obtain ⟨hv, hlv⟩ | hv := h.begun
    · obtain ⟨hw, hlw⟩ | ⟨hm, ho⟩ := k.begun
      · exact .inl ⟨hw.trans hv, fun hl => hlw (hlv hl)⟩
      · refine .inr ⟨hm, Bool.eq_false_iff.2 fun hs => ?_⟩
        rw [h.isOver hs] at ho
        cases ho
    · exact .inr hv
  · intro i call hi
    obtain ⟨call', hv, hturn⟩ := h.stops i call hi
    obtain ⟨call'', hw, hturn'⟩ := k.stops i call' hv
    exact ⟨call'', hw, hturn.trans hturn' k.isOver⟩

/-- A beat that may not begin a write, or that is over, **begins none**. -/
theorem Heeds.silent (h : Heeds may s v) (hs : s.HasLanded) (hno : ¬may ∨ s.beat.isOver = true) :
    v.HasLanded ∧ beatsBegun v.link.log = beatsBegun s.link.log := by
  obtain ⟨hb, hl⟩ | ⟨hm, hb⟩ := h.begun
  · exact ⟨hl hs, hb⟩
  · obtain hno | ho := hno
    · exact absurd hm hno
    · rw [ho] at hb
      cases hb

/-! #### The beat -/

/-- The beat does something else, with no write in flight. -/
theorem HasLanded.of_beat (h : s.HasLanded) (hb : s.beat.isOver = false) (b : Beat) (beats : Nat) :
    Heeds False s { s with beat := b, beats } := by
  refine ⟨fun f hf hc => absurd hc (h f hf), id, ?_, .inl ⟨rfl, id⟩, ?_⟩
  · intro ho
    rw [hb] at ho
    cases ho
  · exact fun i call hi => ⟨call, hi, .same call⟩

/-- The beat has begun a write, and waits for nothing else. -/
theorem Heeds.of_link (hb : s.beat.isOver = false) {link : Recorded σ} {b : Beat}
    (hf : ∀ f ∈ link.flights, f.call = .write beatChunk → b = .writing f.number) :
    Heeds True s { s.withLink link with beat := b } := by
  refine ⟨hf, id, ?_, .inr ⟨trivial, hb⟩, fun i call hi => ⟨call, hi, .same call⟩⟩
  intro ho
  rw [hb] at ho
  cases ho

section Tasks

variable [Link σ]

theorem HasLanded.afterBeat (h : s.HasLanded) (hb : s.beat.isOver = false) (r : Reply) :
    Heeds False s (s.afterBeat r) := by
  cases r with
  | done => exact h.of_beat hb _ (s.beats + 1)
  | refused f =>
    have hdispose : Heeds False s s.dispose.1 := h.isSingle.of_spares s.spares_dispose
    have hlanded : s.dispose.1.HasLanded :=
      fun f hf => h f ((Desk.follows_dispose s.desk).flights f hf)
    exact hdispose.trans (hlanded.of_beat hb .ended s.beats)
  | crashed c => exact h.of_beat hb .crashed s.beats

/-- When the beat is to be written, **one write more begins**. -/
theorem startCall_beat (s : Session (Recorded σ)) :
    ∃ link : Recorded σ, beatsBegun link.log = beatsBegun s.link.log + 1 ∧
      ((link.flights = s.link.flights ∧
          ∃ r, s.startCall (.write beatChunk) = (s.withLink link, .answered r)) ∨
        ∃ f, link.flights = s.link.flights ++ [f] ∧
          s.startCall (.write beatChunk) = (s.withLink link, .inFlight f.number)) := by
  obtain ⟨beside, -, ⟨link, r, hs⟩ | ⟨link, ticket, hs⟩⟩ := s.startCall_cases (.write beatChunk)
  · refine ⟨_, ?_, .inl ⟨?_, r, hs⟩⟩
    · exact beatsBegun_append_began rfl _ _ _ beside
    · rfl
  · refine ⟨_, ?_, .inr ⟨⟨_, .write beatChunk, s.now, ticket⟩, ?_, hs⟩⟩
    · exact beatsBegun_append_began rfl _ _ _ beside
    · rfl

theorem HasLanded.writeBeat (h : s.HasLanded) (hb : s.beat.isOver = false) :
    Heeds True s s.writeBeat ∧
      beatsBegun s.writeBeat.link.log = beatsBegun s.link.log + 1 := by
  obtain ⟨link, hbegun, ⟨hf, r, hs⟩ | ⟨f, hf, hs⟩⟩ := s.startCall_beat
  · -- The write is over at once.
    have hlanded : (s.withLink link).HasLanded := by
      intro f hm
      exact h f (hf ▸ hm)
    have hwritten : Heeds True s (s.withLink link) :=
      .of_link hb fun f hm hc => absurd hc (hlanded f hm)
    have hafter : Heeds False (s.withLink link) ((s.withLink link).afterBeat r) :=
      hlanded.afterBeat hb r
    unfold Session.writeBeat
    rw [hs]
    have hsame := (hafter.silent hlanded (.inl id)).2
    exact ⟨hwritten.trans hafter.mono, hsame.trans hbegun⟩
  · unfold Session.writeBeat
    rw [hs]
    refine ⟨.of_link hb fun g hm hc => ?_, hbegun⟩
    rw [hf] at hm
    obtain hm | hm := List.mem_append.1 hm
    · exact absurd hc (h g hm)
    · rw [List.mem_singleton.1 hm]

/-- Once a write is answered, **no beat is in flight**. -/
theorem IsSingle.hasLanded_of_answer (h : s.IsSingle) {number : Nat} {r : Reply}
    (hb : s.beat = .writing number) (hs : s.pollCall number = (v, some r)) : v.HasLanded := by
  obtain ⟨link, hp⟩ | ⟨link, r, hp⟩ := s.pollCall_cases number
  · rw [hp] at hs
    cases hs
  · rw [hp] at hs
    cases hs
    intro f hf hc
    obtain ⟨hf, hne⟩ := List.mem_filter.1 hf
    have hsame := h f hf hc
    rw [hb, Beat.writing.injEq] at hsame
    rw [hsame] at hne
    simp at hne

theorem IsSingle.stepBeat (h : s.IsSingle) : Heeds (s.isCancelled = false) s s.stepBeat := by
  have hlanded {b : Beat} (hb : s.beat = b) (hw : ∀ n, b ≠ .writing n) : s.HasLanded := by
    refine h.hasLanded ?_
    rw [hb]
    exact hw
  unfold Session.stepBeat
  split
  · rename_i hb
    exact ((hlanded hb (by simp)).of_beat (by rw [hb]; rfl) _ s.beats).mono
  · rename_i wakeAt hb
    have hlanded : s.HasLanded := hlanded hb (by simp)
    have hat : s.beat.isOver = false := by
      rw [hb]
      rfl
    split
    · exact (hlanded.of_beat hat .ended s.beats).mono
    · rename_i hc
      split
      · exact (hlanded.writeBeat hat).1.imp fun _ => Bool.eq_false_iff.2 hc
      · exact h.refl
  · rename_i number hb
    have hasked : Heeds False s (s.pollCall number).1 := h.of_spares (s.spares_pollCall number)
    have hsame : (s.pollCall number).1.beat = s.beat := (s.spares_pollCall number).beat
    rcases hp : s.pollCall number with ⟨v, _ | r⟩ <;> rw [hp] at hasked hsame
    · exact hasked.mono
    · have hat : v.beat.isOver = false := by
        rw [hsame, hb]
        rfl
      exact (hasked.trans ((h.hasLanded_of_answer hb hp).afterBeat hat r)).mono
  · exact h.refl
  · exact h.refl

theorem IsSingle.stepBeatFor (h : s.IsSingle) (n : Nat) :
    Heeds (s.isCancelled = false) s (s.stepBeatFor n) := by
  induction n generalizing s with
  | zero => exact h.refl
  | succ n ih =>
    rw [Session.stepBeatFor]
    split
    · have hstep := h.stepBeat
      refine hstep.trans ((ih hstep.single).imp fun hc => ?_)
      exact Bool.eq_false_iff.2 fun hs => Bool.eq_false_iff.1 hc (hstep.cancelled hs)
    · exact h.refl

/-- **The beat** begins no write in its turn if it is cancelled. -/
theorem IsSingle.pollBeat (h : s.IsSingle) : Heeds (s.isCancelled = false) s s.pollBeat := by
  unfold Session.pollBeat
  split
  · rename_i hb
    have hlanded : s.HasLanded := by
      refine h.hasLanded ?_
      rw [hb]
      simp
    have hrest : Heeds False s s.rest := hlanded.of_beat (by rw [hb]; rfl) _ s.beats
    exact hrest.mono.trans (hrest.single.stepBeatFor _)
  · exact h.stepBeatFor _

end Tasks

/-! #### Calls from outside -/

/-- What a call that waits **becomes in its turn**. -/
def turned (s : Session (Recorded σ)) (deadline : Nat) : Stop :=
  match s.stopAnswer? deadline with
  | some inTime => .answered inTime
  | none => .waiting deadline

/-- It returns that the beat was over in time **only if it is over**. -/
theorem turns_turned (s : Session (Recorded σ)) (deadline : Nat) :
    (Stop.waiting deadline).Turns (s.beat.isOver = true) (s.turned deadline) := by
  unfold turned stopAnswer?
  split
  · rename_i inTime ha
    split at ha
    · rename_i hover
      exact .returned deadline inTime fun _ => hover
    · split at ha <;> cases ha
      exact .returned deadline false fun hf => nomatch hf
  · exact .same _

theorem pollStop_eq {i deadline : Nat} (hi : s.stops[i]? = some (.waiting deadline)) :
    s.pollStop i = { s with stops := s.stops.set i (s.turned deadline) } := by
  unfold Session.pollStop turned
  rw [hi]
  dsimp only
  cases s.stopAnswer? deadline with
  | some inTime => rfl
  | none =>
    obtain ⟨hlt, hi⟩ := List.getElem?_eq_some_iff.1 hi
    dsimp only
    rw [← hi, List.set_getElem_self]

/-- **Everything that the turn of a call can do.** -/
theorem pollStop_cases (s : Session (Recorded σ)) (i : Nat) : s.pollStop i = s ∨
    ∃ deadline, s.stops[i]? = some (.waiting deadline) ∧
      s.pollStop i = { s with stops := s.stops.set i (s.turned deadline) } := by
  cases hi : s.stops[i]? with
  | none => exact .inl (by rw [Session.pollStop, hi])
  | some call =>
    cases call with
    | waiting deadline => exact .inr ⟨deadline, rfl, pollStop_eq hi⟩
    | answered inTime => exact .inl (by rw [Session.pollStop, hi])

theorem IsSingle.pollStop (h : s.IsSingle) (i : Nat) : Heeds False s (s.pollStop i) := by
  obtain hs | ⟨deadline, hi, hs⟩ := s.pollStop_cases i <;> rw [hs]
  · exact h.refl
  · have hlt : i < s.stops.length := (List.getElem?_eq_some_iff.1 hi).1
    refine ⟨h, id, id, .inl ⟨rfl, id⟩, fun j call hj => ?_⟩
    by_cases hij : i = j
    · subst hij
      rw [hi] at hj
      cases hj
      exact ⟨s.turned deadline, List.getElem?_set_self hlt, s.turns_turned deadline⟩
    · exact ⟨call, (List.getElem?_set_ne hij).trans hj, .same call⟩

/-! #### All tasks -/

section Tasks

variable [Link σ]

/-- **Every turn** does no more than that, and no turn begins a write of a beat that is cancelled. -/
theorem IsSingle.poll (h : s.IsSingle) (t : Task) :
    Heeds (s.isCancelled = false) s (s.poll t) := by
  cases t with
  | watcher => exact h.of_spares s.spares_pollWatcher
  | beat => exact h.pollBeat
  | closing => exact h.of_spares s.spares_pollClosing
  | stop i => exact (h.pollStop i).mono

/-- **Only its own turn** changes what the beat does. -/
theorem beat_poll (s : Session (Recorded σ)) {t : Task} (ht : t ≠ .beat) :
    (s.poll t).beat = s.beat := by
  cases t with
  | beat => exact absurd rfl ht
  | watcher => exact s.spares_pollWatcher.beat
  | closing => exact s.spares_pollClosing.beat
  | stop i =>
    show (s.pollStop i).beat = s.beat
    obtain hs | ⟨deadline, -, hs⟩ := s.pollStop_cases i <;> rw [hs]

end Tasks

end Session

end HeldReply
