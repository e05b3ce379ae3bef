import HeldReply.Proofs.Session.Ends

/-!
# No session is left behind

When no task can go on, and something has happened that ends a session, then the session has ended or
waits for a call of its own that is in flight.  No turn is missing: whoever waits is told.

* `Promise.Held` — as long as nobody answered, somebody holds a callback;
* `Scene.Triggered` — **something has happened** that ends a session;
* `Scene.not_left_behind` — it **has ended, or waits for a call in flight**;
* `Scene.exists_announced` — a disposal from outside comes to its end;
* `Scene.left_behind` — a closing that crashed leaves the session behind, and so does a disposal for as
  long as it goes on.
-/

namespace HeldReply

open Recorded Session

/-! ### Callbacks -/

namespace Promise

variable {p q : Promise}

/-- As long as nobody took the right to answer, **somebody holds a callback**. -/
def Held (p : Promise) : Prop :=
  p.stage = .unclaimed → 0 < p.holders

theorem Held.claim (h : p.Held) (o : Outcome) : (p.claim o).1.Held := by
  unfold Promise.claim
  split
  · exact fun hs => nomatch hs
  · exact h

theorem Held.send (h : p.Held) : p.send.Held := by
  unfold Promise.send
  split
  · exact fun hs => nomatch hs
  · exact h

theorem Held.deliver (h : p.Held) (o : Outcome) : (p.deliver o).1.Held :=
  (h.claim o).send

theorem Held.share (h : p.Held) : p.share.Held :=
  fun hs => Nat.lt_succ_of_lt (h hs)

/-- The last callback does not go unnoticed. -/
theorem held_release (p : Promise) : p.release.Held := by
  unfold Promise.release
  dsimp only
  split
  · split
    · exact fun hs => nomatch hs
    · rename_i hne
      exact fun _ => Nat.pos_of_ne_zero hne
  · rename_i hs
    exact fun h => absurd h hs

theorem Held.poll (h : p.Held) : p.poll.1.Held := by
  unfold Promise.poll
  split <;> exact h

/-- Without a callback there is an outcome, or an answer is on its way. -/
theorem Held.outcome (h : p.Held) (hn : p.holders = 0) (hc : ∀ o, p.stage ≠ .claimed o) :
    p.stage.outcome?.isSome = true := by
  cases hs : p.stage with
  | unclaimed =>
    have := h hs
    omega
  | claimed o => exact absurd hs (hc o)
  | sent | broken => rfl

/-- An outcome for which somebody took the right was sent. -/
theorem sent_of_isClaimed (hc : p.isClaimed = true) (ho : p.stage.outcome?.isSome = true) :
    ∃ o, p.stage = .sent o := by
  unfold isClaimed at hc
  cases hs : p.stage with
  | sent o => exact ⟨o, rfl⟩
  | unclaimed | broken =>
    rw [hs] at hc
    cases hc
  | claimed o =>
    rw [hs] at ho
    cases ho

end Promise

theorem Desk.Leads.held {ω : Type} [Surroundings ω] {d e : Desk ω} (h : d.Leads e)
    (hd : d.promise.Held) : e.promise.Held := by
  induction h with
  | refl => exact hd
  | deliver _ o ih => exact ih.deliver o
  | keep _ ih => exact ih.share
  | release _ ih => exact Promise.held_release _
  | begin _ hb ih =>
    obtain ⟨-, -, rfl⟩ := of_begin hb
    exact ih
  | note | push | closeLink | cancelBeat | announce => assumption

theorem Session.Leads.held {σ : Type} [Link σ] {s v : Session σ}
    {ds : List (Desk (Line σ))} (h : s.Leads ds v) (hs : s.desk.promise.Held) : v.desk.promise.Held := by
  induction h with
  | refl => exact hs
  | hear _ ih => exact ih.poll
  | @dispose v _ _ ih => exact (Desk.Leads.refl (d := v.desk)).dispose.held ih
  | start | ask | closeLink | cancel | turn => assumption

namespace Scene

variable {σ : Type} [Link σ] {c v : Scene σ} {l : σ} {now id : Nat} {interval : Span}
  {p : Prepared} {always : Scene σ → Prop}

theorem held_step {d : Deed σ} (h : c.session.desk.promise.Held) (hs : c.step d = some v) :
    v.session.desk.promise.Held := by
  cases d with
  | poll t =>
    cases hs
    obtain ⟨ks, hl⟩ := leads_poll c.session t
    exact hl.held h
  | claim o =>
    cases hs
    exact h.claim o
  | send =>
    cases hs
    exact h.send
  | share =>
    cases hs
    exact h.share
  | release =>
    cases hs
    exact Promise.held_release _
  | link | cancel =>
    cases hs
    exact h
  | runHere p =>
    rw [step] at hs
    split at hs <;> cases hs
    exact (Desk.Leads.refl.runCleanup _).held h
  | clean =>
    rw [step] at hs
    split at hs <;> cases hs
    exact (Desk.Leads.refl.runCleanup _).held h
  | tick | push | raise | take | announce =>
    rw [step] at hs
    split at hs <;> cases hs
    exact h

theorem Reachable.held (h : Reachable (launch l now id interval p) always c) :
    c.session.desk.promise.Held := by
  induction h with
  | start =>
    have hopen : (openingDesk l now id p).promise.Held := fun _ => Nat.one_pos
    exact (Desk.Leads.refl.execute p.name p.program).held hopen
  | step _ d hs _ ih => exact held_step ih hs

/-! ### A disposal from outside -/

theorem stepsWhile_cons {d : Deed σ} (hs : c.step d = some v) (ds : List (Deed σ)) :
    c.stepsWhile (fun _ => True) (d :: ds) = v.stepsWhile (fun _ => True) ds := by
  unfold stepsWhile
  rw [List.foldlM_cons, hs]
  rfl

/-- The clean-ups that are still to be run are run, and the waiters are called. -/
theorem exists_drained (rest : List Cleanup) (c : Scene σ) (hc : c.outside = .draining rest) :
    ∃ v, c.stepsWhile (fun _ => True) (List.replicate rest.length .clean ++ [.announce]) = some v ∧
      v.outside = .none := by
  induction rest generalizing c with
  | nil =>
    have hs : c.step .announce =
        some { c.withDesk c.session.desk.announce with outside := .none } := by
      rw [step, hc]
    exact ⟨_, stepsWhile_cons hs [], rfl⟩
  | cons k rest ih =>
    have hs : c.step .clean =
        some { c.withDesk (c.session.desk.runCleanup k) with outside := .draining rest } := by
      rw [step, hc]
    obtain ⟨v, hv, ho⟩ := ih { c.withDesk (c.session.desk.runCleanup k) with
      outside := .draining rest } rfl
    exact ⟨v, (stepsWhile_cons hs _).trans hv, ho⟩

/-- **A disposal from outside comes to its end**, by its own steps and whatever it has to run. -/
theorem exists_announced (c : Scene σ) (hc : c.outside = .raised) :
    ∃ v, c.stepsWhile (fun _ => True)
        (.take :: (List.replicate c.session.desk.scope.pending .clean ++ [.announce])) = some v ∧
      v.outside = .none := by
  let u : Scene σ := { c with
    session.desk.scope := { c.session.desk.scope with queue := [] }
    outside := .draining c.session.desk.scope.queue.reverse }
  have hs : c.step .take = some u := by
    rw [step, hc]
    rfl
  obtain ⟨v, hv, ho⟩ := exists_drained _ u rfl
  rw [List.length_reverse] at hv
  exact ⟨v, (stepsWhile_cons hs _).trans hv, ho⟩

/-! ### Quiet sessions -/

/-- **Something has happened that ends a session**: the link tells that it is closed, a beat could not
be written, somebody disposed of the scope, the outcome was sent, or all callbacks went. -/
def Triggered (c : Scene σ) : Prop :=
  Link.tellsClosed c.session.link = true ∨
  (∃ f, Replied c.log (.write beatChunk) (.refused f)) ∨
  c.session.isDisposed = true ∨
  (∃ o, c.session.desk.promise.stage = .sent o) ∨
  (c.session.desk.promise.holders = 0 ∧ ∀ o, c.session.desk.promise.stage ≠ .claimed o)

/-- **The link's closing, a failed beat and a disposal** find the scope disposed of. -/
theorem isDisposed_of_triggered (hacc : c.session.Accounted False)
    (hq : c.session.isQuiet = true) (ht : Link.tellsClosed c.session.link = true ∨
      (∃ f, Replied c.log (.write beatChunk) (.refused f)) ∨ c.session.isDisposed = true) :
    c.session.isDisposed = true := by
  rcases ht with hclosed | ⟨f, hf⟩ | hd
  · -- A watcher that is told of the closing could go on.
    have hrun : c.session.watcherRunnable = false := not_runnable_of_isQuiet hq (.inl rfl)
    unfold Session.watcherRunnable at hrun
    rcases hacc.watched with hs | hs | hd
    · rw [hs] at hrun
      cases hrun
    · rw [hs, hclosed] at hrun
      cases hrun
    · exact hd
  · exact (hacc.failed f hf).resolve_right id
  · exact hd

/-- The call is **in flight** under this number. -/
def Awaits (c : Scene σ) (number : Nat) (call : Call) : Prop :=
  ∃ f ∈ c.session.link.unsettled c.session.now, f.number = number ∧ f.call = call

/-- **The closing waits for a call in flight**: for the beat's, within a limit; for its own last chunk;
or for its own end of the reply. -/
inductive Suspended (c : Scene σ) : Prop
  | beat {number t deadline : Nat} {held : Option Outcome}
      (hk : c.session.closing = .stopping deadline held) (hb : c.session.beat = .writing number)
      (hf : c.Awaits number (.write beatChunk)) (ht : t ≤ c.session.now)
      (hd : deadline = t + c.session.patience.ticks) (hn : c.session.now < deadline)
  | payload {number : Nat} {o : Outcome} (hk : c.session.closing = .writing number)
      (ho : c.session.desk.promise.answer? = some o) (hf : c.Awaits number (.write o.payload))
  | finish {number : Nat} (hk : c.session.closing = .finishing number)
      (hf : c.Awaits number .finish)

/-- A beat that is stopped and can not go on has a write in flight. -/
theorem awaits_of_stopping (hacc : c.session.Accounted False) (hc : c.session.isCancelled = true)
    (hb : c.session.beatRunnable = false) (hover : c.session.beat.isOver = false) :
    ∃ number, c.session.beat = .writing number ∧ c.Awaits number (.write beatChunk) := by
  unfold Session.beatRunnable at hb
  cases hs : c.session.beat <;> rw [hs] at hb hover
  case fresh => cases hb
  case resting wakeAt => simp [hc] at hb
  case writing number => exact ⟨number, rfl, (hacc.beating number hs).unsettled hb⟩
  all_goals cases hover

/-- **No session is left behind.**  When no task can go on, no disposal from outside goes on, and
something has happened that ends a session, then the closing is over, the scope disposed of, the beat
cancelled and the link closed; or the closing waits for a call in flight; or it crashed with the
last chunk or the end, or with closing the link in a scope that is disposed of.  If it was the link, a
beat or somebody's disposal, the scope is disposed of. -/
theorem not_left_behind (l : σ) (now id : Nat) (interval : Span) (p : Prepared)
    (always : Scene σ → Prop) (c : Scene σ)
    (h : Reachable (launch l now id interval p) always c) (hq : c.session.isQuiet = true)
    (ho : c.outside = .none) (ht : c.Triggered) :
    ((Link.tellsClosed c.session.link = true ∨
        (∃ f, Replied c.log (.write beatChunk) (.refused f)) ∨ c.session.isDisposed = true) →
      c.session.isDisposed = true) ∧
    ((∃ e, c.session.closing = .over e) ∧ c.session.isDisposed = true ∧
        c.session.isCancelled = true ∧ IsShut c.log ∨
      c.Suspended ∨
      c.session.closing = .crashed ∧ ((∃ k, LastReplied c.log (.crashed k)) ∨
        c.session.isDisposed = true ∧ lastChunks c.log = [] ∧
          ∃ t k, .closed t (some k) ∈ c.log)) := by
  have hord := h.ordered False fun hf => hf.elim
  obtain ⟨hacc, -⟩ := h.accounted
  obtain ⟨told, htold⟩ := h.exists_told
  have hdisposed := isDisposed_of_triggered hacc hq
  have hclosing := hacc.closing
  have hfits := hord.fits
  have hcancelled (hk : c.session.closing.isEarly = false) : c.session.isCancelled = true :=
    hord.cancelled (hord.joined_iff.2 hk)
  have hrun : c.session.closingRunnable = false := not_runnable_of_isQuiet hq (.inr (.inr rfl))
  have hbeat : c.session.beatRunnable = false := not_runnable_of_isQuiet hq (.inr (.inl rfl))
  refine ⟨hdisposed, ?_⟩
  unfold Session.closingRunnable at hrun
  match hk : c.session.closing, hclosing, hfits, hrun with
  | .waiting, _, _, hrun =>
    -- Whatever has happened, a closing that waits is told of it.
    rw [Bool.or_eq_false_iff] at hrun
    obtain ⟨houtcome, htold'⟩ := hrun
    have hnot : c.session.isDisposed ≠ true := by
      intro hd
      obtain ⟨hcalled, -⟩ := htold.ran ho hd
      have hcalled' : c.session.desk.scope.flag.called = false := htold'
      rw [hcalled] at hcalled'
      cases hcalled'
    rcases ht with ht | ht | ht | ⟨o, hs⟩ | ⟨hn, hc⟩
    · exact absurd (hdisposed (.inl ht)) hnot
    · exact absurd (hdisposed (.inr (.inl ht))) hnot
    · exact absurd ht hnot
    · rw [hs] at houtcome
      cases houtcome
    · rw [h.held.outcome hn hc] at houtcome
      cases houtcome
  | .stopping deadline held, _, _, hrun =>
    rw [Bool.or_eq_false_iff] at hrun
    obtain ⟨hover, hlate⟩ := hrun
    have hnow : c.session.now < deadline := by simpa using hlate
    obtain ⟨number, hb, hf⟩ := awaits_of_stopping hacc (hcancelled (by rw [hk]; rfl)) hbeat hover
    obtain ⟨t, hle, hd, -⟩ := hord.stopping deadline held hk
    exact .inr (.inl (.beat hk hb hf hle hd hnow))
  | .writing number, ⟨o, hf⟩, ⟨o', ho', hp⟩, hrun =>
    obtain ⟨f, hmem, hnum, hcall⟩ := hf.unsettled hrun
    -- The call in flight is the one that began.
    obtain ⟨t, beside, hb⟩ := hacc.numbered.flight_began f (List.mem_filter.1 hmem).1
    have hm : o.payload ∈ lastChunks c.session.link.log := by
      refine List.mem_filterMap.2 ⟨f.call, call_mem_starts hb, ?_⟩
      rw [hcall, lastChunk?_payload]
    rw [hp.lastChunks, List.mem_singleton] at hm
    rw [hm] at hcall
    exact .inr (.inl (.payload hk (Promise.answer?_of_outcome? ho') ⟨f, hmem, hnum, hcall⟩))
  | .finishing number, hf, _, hrun => exact .inr (.inl (.finish hk (hf.unsettled hrun)))
  | .over e, _, _, _ =>
    have hover := h.isOver hk ho
    obtain ⟨-, hshut, -⟩ := htold.ran ho hover.disposed
    exact .inl ⟨⟨e, rfl⟩, hover.disposed, hover.cancelled, hshut⟩
  | .crashed, hcrashed, _, _ =>
    exact .inr (.inr ⟨rfl, hcrashed.imp_right fun ⟨hd, hu, hc⟩ => ⟨hd, hu.lastChunks, hc⟩⟩)

/-- The last chunk is in flight. -/
theorem not_left_behind_beside_payload : ∃ c : Scene Scripted,
    Reachable (launch { delay := 30 : Scripted } 0 1 (.ofMillis 20)
      ⟨"job", .deliver (.ok .null) fun _ => .finish ""⟩) (fun _ => True) c ∧
    c.session.isQuiet = true ∧ c.outside = .none ∧ c.Triggered ∧
    ((∃ e, c.session.closing = .over e) ∧ c.session.isDisposed = true ∧
        c.session.isCancelled = true ∧ IsShut c.log ∨
      c.Suspended ∨
      c.session.closing = .crashed ∧ ((∃ k, LastReplied c.log (.crashed k)) ∨
        c.session.isDisposed = true ∧ lastChunks c.log = [] ∧
          ∃ t k, .closed t (some k) ∈ c.log)) := by
  let p : Prepared := ⟨"job", .deliver (.ok .null) fun _ => .finish ""⟩
  let start := launch { delay := 30 : Scripted } 0 1 (.ofMillis 20) p
  let deeds : List (Deed Scripted) := [.poll .watcher, .poll .beat, .poll .closing, .poll .beat,
    .poll .closing]
  have hrun : (start.stepsWhile (fun _ => True) deeds).map (fun c =>
      (c.session.isQuiet, c.outside.isIdle, c.session.desk.promise.stage.outcome?.isSome,
        c.session.desk.promise.isClaimed)) = some (true, true, true, true) := by
    decide +kernel
  obtain ⟨c, hc, hend⟩ := Option.map_eq_some_iff.1 hrun
  obtain ⟨hquiet, hend⟩ := Prod.mk.inj hend
  obtain ⟨hidle, hend⟩ := Prod.mk.inj hend
  obtain ⟨houtcome, hclaimed⟩ := Prod.mk.inj hend
  have h : Reachable start (fun _ => True) c := (Reachable.start trivial).stepsWhile deeds hc
  have ho : c.outside = .none := Outside.eq_none_of_isIdle hidle
  have ht : c.Triggered :=
    .inr (.inr (.inr (.inl (Promise.sent_of_isClaimed hclaimed houtcome))))
  exact ⟨c, h, hquiet, ho, ht, (not_left_behind { delay := 30 : Scripted } 0 1 (.ofMillis 20) p
    (fun _ => True) c h hquiet ho ht).2⟩

/-- **Sessions left behind.**  The link crashes when the last chunk is written: the outcome was sent and
no task can go on, but the scope is not disposed of, the link is not closed, and nothing is in
flight.  And while a disposal from outside goes on, the closing waits for the outcome. -/
theorem left_behind :
    (∃ c : Scene Scripted,
      Reachable (launch { crashOn := 1 : Scripted } 0 1 (.ofMillis 50)
        ⟨"job", .deliver (.ok .null) fun _ => .finish ""⟩) (fun _ => True) c ∧
      c.session.isQuiet = true ∧ c.outside = .none ∧
      (∃ o, c.session.desk.promise.stage = .sent o) ∧ c.session.isDisposed = false ∧
      ¬IsShut c.log ∧ ¬c.Suspended) ∧
    ∃ c : Scene Scripted,
      Reachable (launch ({} : Scripted) 0 1 (.ofMillis 50) ⟨"job", .keep (.finish "")⟩)
        (fun _ => True) c ∧
      c.session.isQuiet = true ∧ c.session.isDisposed = true ∧ c.session.endAs? = none ∧
      ¬c.Suspended := by
  constructor
  · let p : Prepared := ⟨"job", .deliver (.ok .null) fun _ => .finish ""⟩
    let start := launch { crashOn := 1 : Scripted } 0 1 (.ofMillis 50) p
    let deeds : List (Deed Scripted) := [.poll .watcher, .poll .beat, .poll .closing, .poll .beat,
      .poll .closing]
    have hrun : (start.stepsWhile (fun _ => True) deeds).map (fun c =>
        (c.session.isQuiet, c.outside.isIdle, c.session.desk.promise.stage.outcome?.isSome,
          c.session.desk.promise.isClaimed, c.session.isDisposed)) =
        some (true, true, true, true, false) := by
      decide +kernel
    have hlog : (start.stepsWhile (fun _ => True) deeds).map (fun c => (c.log, c.session.endAs?)) =
        some ([.began 0 0 (.write "null") [], .answered 0 0 (.crashed (.text "write panicked"))],
          some .discarded) := by
      decide +kernel
    obtain ⟨c, hc, hend⟩ := Option.map_eq_some_iff.1 hrun
    obtain ⟨hquiet, hend⟩ := Prod.mk.inj hend
    obtain ⟨hidle, hend⟩ := Prod.mk.inj hend
    obtain ⟨houtcome, hend⟩ := Prod.mk.inj hend
    obtain ⟨hclaimed, hdisposed⟩ := Prod.mk.inj hend
    rw [hc, Option.map_some, Option.some.injEq] at hlog
    obtain ⟨hlog, hend⟩ := Prod.mk.inj hlog
    refine ⟨c, (Reachable.start trivial).stepsWhile deeds hc, hquiet,
      Outside.eq_none_of_isIdle hidle, Promise.sent_of_isClaimed hclaimed houtcome, hdisposed,
      ?_, ?_⟩
    · rintro ⟨t, crash, ht⟩
      rw [hlog] at ht
      simp at ht
    · rintro (⟨hk, -⟩ | ⟨hk, -⟩ | ⟨hk, -⟩) <;> rw [endAs?, hk] at hend <;> cases hend
  · let start := launch ({} : Scripted) 0 1 (.ofMillis 50) ⟨"job", .keep (.finish "")⟩
    let deeds : List (Deed Scripted) := [.poll .watcher, .poll .beat, .poll .closing, .raise]
    have hrun : (start.stepsWhile (fun _ => True) deeds).map (fun c =>
        (c.session.isQuiet, c.session.isDisposed, c.session.endAs?, c.session.closing.isEarly)) =
        some (true, true, none, true) := by
      decide +kernel
    obtain ⟨c, hc, hend⟩ := Option.map_eq_some_iff.1 hrun
    obtain ⟨hquiet, hend⟩ := Prod.mk.inj hend
    obtain ⟨hdisposed, hend⟩ := Prod.mk.inj hend
    obtain ⟨hend, hearly⟩ := Prod.mk.inj hend
    refine ⟨c, (Reachable.start trivial).stepsWhile deeds hc, hquiet, hdisposed, hend, ?_⟩
    rintro (⟨hk, -⟩ | ⟨hk, -⟩ | ⟨hk, -⟩) <;> rw [hk] at hearly <;> cases hearly

end Scene

end HeldReply
