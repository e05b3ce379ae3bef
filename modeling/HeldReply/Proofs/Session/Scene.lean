import HeldReply.Proofs.Link.Recorded
import HeldReply.Session.Run

/-!
# A session among others

The tasks of a session have their turns at any time and in any order.  Between two turns the clock
may move, the link may become another one in every respect, and others — the handler, whoever holds a
callback or the scope — may do what they are able to do, each of their steps on its own.  The states
that can be reached so are what every theorem on sessions is about.

* `Desk.Follows` — what a desk can become while no call begins, and that programs, clean-ups and
  disposals bring about nothing else;
* `Deed`, `Scene`, `Scene.step` — **the steps of all who take part**, and the session with a disposal
  from outside that may be going on;
* `Scene.launch`, `Scene.Reachable` — a session that was started, and **what it can come to**.
-/

namespace HeldReply

open Recorded

/-! ### Promises -/

namespace Promise

/-- The outcome that **counts**: that of the first answer, sent or not, or that of all callbacks
going without one. -/
def answer? (p : Promise) : Option Outcome :=
  match p.stage with
  | .unclaimed => none
  | .claimed o | .sent o => some o
  | .broken => some .unanswered

/-- The outcome that counts stays, and it stays to be had. -/
structure Keeps (p q : Promise) : Prop where
  answer : ∀ o, p.answer? = some o → q.answer? = some o
  outcome : ∀ o, p.stage.outcome? = some o → q.stage.outcome? = some o

variable {p q r : Promise}

theorem answer?_of_outcome? {o : Outcome} (h : p.stage.outcome? = some o) : p.answer? = some o := by
  unfold answer?
  cases hs : p.stage <;> rw [hs] at h <;> first | exact h | cases h

theorem Keeps.of_stage (h : q.stage = p.stage) : Keeps p q := by
  constructor
  · rw [answer?, answer?, h]
    exact fun _ => id
  · rw [h]
    exact fun _ => id

theorem Keeps.trans (h : Keeps p q) (k : Keeps q r) : Keeps p r :=
  ⟨fun o ho => k.answer o (h.answer o ho), fun o ho => k.outcome o (h.outcome o ho)⟩

/-- As long as nobody answered there is nothing to keep. -/
theorem Keeps.of_unclaimed (h : p.stage = .unclaimed) : Keeps p q := by
  constructor
  · rw [answer?, h]
    exact fun o ho => nomatch ho
  · rw [h]
    exact fun o ho => nomatch ho

theorem keeps_claim (p : Promise) (o : Outcome) : Keeps p (p.claim o).1 := by
  cases hs : p.stage with
  | unclaimed => exact .of_unclaimed hs
  | claimed | sent | broken =>
    rw [claim, hs]
    exact .of_stage rfl

theorem keeps_send (p : Promise) : Keeps p p.send := by
  cases hs : p.stage with
  | claimed o =>
    rw [send, hs]
    constructor
    · rw [answer?, hs]
      exact fun _ => id
    · rw [hs]
      exact fun _ ho => nomatch ho
  | unclaimed | sent | broken =>
    rw [send, hs]
    exact .of_stage rfl

theorem keeps_release (p : Promise) : Keeps p p.release := by
  cases hs : p.stage with
  | unclaimed => exact .of_unclaimed hs
  | claimed | sent | broken =>
    refine .of_stage ?_
    simp only [release, hs]

theorem keeps_deliver (p : Promise) (o : Outcome) : Keeps p (p.deliver o).1 :=
  (p.keeps_claim o).trans (p.claim o).1.keeps_send

/-- Asking tells the outcome that can be had, and changes nothing of it. -/
theorem poll_outcome (p : Promise) : p.poll.2 = p.stage.outcome? ∧ p.poll.1.stage = p.stage := by
  unfold poll
  split
  · rename_i o ho
    exact ⟨ho.symm, rfl⟩
  · rename_i ho
    exact ⟨ho.symm, rfl⟩

end Promise

/-! ### Desks -/

namespace Desk

variable {σ : Type} [Link σ] {d e f : Desk (Line (Recorded σ))}

/-- **What a desk can become** while no call begins on its link. -/
structure Follows (d e : Desk (Line (Recorded σ))) : Prop where
  now_le : d.around.now ≤ e.around.now
  cancelled : d.around.cancelled = true → e.around.cancelled = true
  promise : d.promise.Keeps e.promise
  log : ∃ es, starts es = [] ∧ e.around.link.log = d.around.link.log ++ es
  flights : ∀ f ∈ e.around.link.flights, f ∈ d.around.link.flights

omit [Link σ] in
theorem Follows.refl (d : Desk (Line (Recorded σ))) : Follows d d :=
  ⟨Nat.le_refl _, id, .of_stage rfl, ⟨[], rfl, (List.append_nil _).symm⟩, fun _ => id⟩

omit [Link σ] in
theorem Follows.trans (h : Follows d e) (k : Follows e f) : Follows d f := by
  obtain ⟨es, hes, hlog⟩ := h.log
  obtain ⟨fs, hfs, hlog'⟩ := k.log
  refine ⟨Nat.le_trans h.now_le k.now_le, fun hc => k.cancelled (h.cancelled hc),
    h.promise.trans k.promise, ⟨es ++ fs, ?_, ?_⟩, fun f hf => h.flights f (k.flights f hf)⟩
  · rw [starts_append, hes, hfs]
    rfl
  · rw [hlog', hlog, List.append_assoc]

omit [Link σ] in
/-- Nothing but the promise changes, and what is aside from it. -/
theorem Follows.of_promise (ha : e.around = d.around) (hp : d.promise.Keeps e.promise) :
    Follows d e := by
  obtain ⟨hn, hc, -, hl, hf⟩ := Follows.refl d
  exact ⟨ha ▸ hn, ha ▸ hc, hp, ha ▸ hl, ha ▸ hf⟩

theorem follows_closeLink (d : Desk (Line (Recorded σ))) :
    Follows d { d with around := Surroundings.closeLink d.around } :=
  ⟨Nat.le_refl _, id, .of_stage rfl, ⟨[.closed d.around.now _], rfl, rfl⟩, fun _ => id⟩

theorem follows_cancelBeat (d : Desk (Line (Recorded σ))) :
    Follows d { d with around := Surroundings.cancelBeat d.around } :=
  ⟨Nat.le_refl _, fun _ => rfl, .of_stage rfl, ⟨[], rfl, (List.append_nil _).symm⟩, fun _ => id⟩

/-- **A program** brings about nothing else, if the disposals it calls for do not. -/
theorem follows_interpret {dispose : Desk (Line (Recorded σ)) → Desk (Line (Recorded σ)) × Bool}
    (hd : ∀ d, Follows d (dispose d).1) (p : Program) (d : Desk (Line (Recorded σ))) :
    Follows d (interpret dispose p d).1 := by
  induction p generalizing d with
  | finish | crash => exact .refl d
  | deliver o next ih =>
    have h : Follows d (d.deliver o).1 := .of_promise rfl (d.promise.keeps_deliver o)
    exact h.trans (ih _ _)
  | keep next ih =>
    have h : Follows d d.keep := .of_promise rfl (.of_stage rfl)
    exact h.trans (ih _)
  | release next ih =>
    have h : Follows d d.release := .of_promise rfl d.promise.keeps_release
    exact h.trans (ih _)
  | inspect next ih => exact ih _ d
  | register cleanup next ihc ihn =>
    rw [interpret]
    split
    -- A clean-up that comes too late runs on the spot.
    · exact (ihc d).trans (ihn _ _)
    · have h : Follows d (d.push (.program cleanup)) := .of_promise rfl (.of_stage rfl)
      exact h.trans (ihn _ _)
  | dispose next ih => exact (hd d).trans (ih _ _)
  | note text next ih =>
    have h : Follows d (d.note text) := .of_promise rfl (.of_stage rfl)
    exact h.trans (ih _)

theorem follows_runCleanup (k : Cleanup) (d : Desk (Line (Recorded σ))) :
    Follows d (d.runCleanup k) := by
  cases k with
  | closeLink => exact d.follows_closeLink
  | cancelBeat => exact d.follows_cancelBeat
  | program p => exact follows_interpret Follows.refl p d

theorem follows_runCleanups (ks : List Cleanup) (d : Desk (Line (Recorded σ))) :
    Follows d (ks.foldl runCleanup d) := by
  induction ks generalizing d with
  | nil => exact .refl d
  | cons k ks ih => exact (follows_runCleanup k d).trans (ih _)

/-- **A disposal** brings about nothing else. -/
theorem follows_dispose (d : Desk (Line (Recorded σ))) : Follows d d.dispose.1 := by
  unfold dispose
  split
  · rename_i e cleanups hb
    obtain ⟨⟨s, ks⟩, -, he⟩ := Option.map_eq_some_iff.1 hb
    have hd : Follows d e := by
      cases he
      exact .of_promise rfl (.of_stage rfl)
    exact (hd.trans (follows_runCleanups cleanups e)).trans (.of_promise rfl (.of_stage rfl))
  · exact .refl d

/-- **A handler** brings about nothing else. -/
theorem follows_execute (name : String) (p : Program) (d : Desk (Line (Recorded σ))) :
    Follows d (d.execute name p).1 := by
  have hrun : Follows d (d.run p).1 := follows_interpret follows_dispose p d
  unfold execute
  split
  · rename_i e remark he
    rw [he] at hrun
    exact hrun.trans (.of_promise rfl e.promise.keeps_release)
  · rename_i e c he
    rw [he] at hrun
    refine hrun.trans (.of_promise rfl ?_)
    exact (e.promise.keeps_deliver _).trans (Promise.keeps_release _)

end Desk

/-! ### The start of a session -/

/-- A session **before its handler is executed**. -/
def Session.unexecuted {σ : Type} (line : Line σ) (id : Nat) (interval : Span) (p : Prepared) :
    Session σ where
  desk := { scope := { id, label := labelOf p, queue := [.closeLink, .cancelBeat] }, around := line }
  interval := interval
  patience := Settings.ioTimeoutFor interval

/-- A session is started by executing its handler. -/
theorem Session.launch_eq {σ : Type} [Link σ] (line : Line σ) (id : Nat) (interval : Span)
    (p : Prepared) : (launch line id interval p).1 = { unexecuted line id interval p with
      desk := ((unexecuted line id interval p).desk.execute p.name p.program).1 } :=
  rfl

/-! ### Scenes -/

/-- How far a **disposal from outside** has come. -/
inductive Outside where
  /-- There is none, or it is over. -/
  | none
  /-- The flag is up. -/
  | raised
  /-- The clean-ups are taken, and these are still to be run. -/
  | draining (rest : List Cleanup)

/-- **A step** of one who takes part. -/
inductive Deed (σ : Type) where
  /-- A task has its turn. -/
  | poll (t : Task)
  /-- The clock moves. -/
  | tick (now : Nat)
  /-- The link becomes another one: calls settle or fail, and the peer goes away. -/
  | link (l : σ)
  /-- Somebody takes the right to answer, and sends the answer later. -/
  | claim (o : Outcome)
  | send
  /-- One callback more, and one less. -/
  | share
  | release
  /-- Somebody cancels the beat. -/
  | cancel
  /-- A clean-up is queued. -/
  | push (p : Program)
  /-- A clean-up that comes too late is run by whoever brings it. -/
  | runHere (p : Program)
  /-- A disposal from outside begins, takes the clean-ups, runs the next one, and ends. -/
  | raise
  | take
  | clean
  | announce

/-- **A session among others.** -/
structure Scene (σ : Type) where
  session : Session (Recorded σ)
  outside : Outside := .none

namespace Scene

variable {σ : Type} [Link σ]

/-- What is recorded of the link. -/
def log (c : Scene σ) : List Entry := c.session.link.log

/-- Change the desk of the session. -/
def withDesk (c : Scene σ) (desk : Desk (Line (Recorded σ))) : Scene σ :=
  { c with session.desk := desk }

/-- Change the promise. -/
def withPromise (c : Scene σ) (promise : Promise) : Scene σ :=
  { c with session.desk.promise := promise }

/-- Whether a clean-up can still be queued: a disposal has not begun, or it has not taken them. -/
def isQueueing (c : Scene σ) : Bool :=
  match c.outside with
  | .raised => true
  | _ => !c.session.isDisposed

/-- **One step**; `none` if it is not possible. -/
def step (c : Scene σ) : Deed σ → Option (Scene σ)
  | .poll t => some { c with session := c.session.poll t }
  | .tick now =>
    if c.session.now ≤ now then some { c with session := c.session.atTime now } else none
  | .link l => some { c with session.desk.around.link.link := l }
  | .claim o => some (c.withPromise (c.session.desk.promise.claim o).1)
  | .send => some (c.withPromise c.session.desk.promise.send)
  | .share => some (c.withPromise c.session.desk.promise.share)
  | .release => some (c.withPromise c.session.desk.promise.release)
  | .cancel => some { c with session := c.session.cancel }
  | .push p => if c.isQueueing then some (c.withDesk (c.session.desk.push (.program p))) else none
  | .runHere p =>
    if c.session.isDisposed then some (c.withDesk (c.session.desk.runCleanup (.program p)))
    else none
  | .raise =>
    match c.session.desk.scope.raise with
    | (scope, true) => some { c with session.desk.scope := scope, outside := .raised }
    | (_, false) => none
  | .take =>
    match c.outside with
    | .raised =>
      let (scope, cleanups) := c.session.desk.scope.takeQueue
      some { c with session.desk.scope := scope, outside := .draining cleanups }
    | _ => none
  | .clean =>
    match c.outside with
    | .draining (k :: rest) =>
      some { c.withDesk (c.session.desk.runCleanup k) with outside := .draining rest }
    | _ => none
  | .announce =>
    match c.outside with
    | .draining [] => some { c.withDesk c.session.desk.announce with outside := .none }
    | _ => none

/-- A session that was **started** on a link, at a time, with a handler. -/
def launch (l : σ) (now id : Nat) (interval : Span) (p : Prepared) : Scene σ :=
  { session := (Session.launch { now, link := { link := l } } id interval p).1 }

/-- **What a session can come to** while something always holds. -/
inductive Reachable (start : Scene σ) (always : Scene σ → Prop) : Scene σ → Prop
  | start (ha : always start) : Reachable start always start
  | step {c v : Scene σ} (h : Reachable start always c) (d : Deed σ) (hs : c.step d = some v)
      (ha : always v) : Reachable start always v

variable {c v : Scene σ}

/-- **Everything that a step can do**: a task has its turn, or the desk changes and no call
begins. -/
theorem step_cases {d : Deed σ} (hs : c.step d = some v) :
    (∃ t, d = .poll t ∧ v.session = c.session.poll t) ∨
    (∃ e, Desk.Follows c.session.desk e ∧ v.session = { c.session with desk := e }) := by
  have hpromise {q : Promise} (hq : c.session.desk.promise.Keeps q) :
      Desk.Follows c.session.desk { c.session.desk with promise := q } := .of_promise rfl hq
  have hscope (scope : Scope Cleanup) :
      Desk.Follows c.session.desk { c.session.desk with scope } := .of_promise rfl (.of_stage rfl)
  cases d with
  | poll t =>
    cases hs
    exact .inl ⟨t, rfl, rfl⟩
  | tick now =>
    rw [step] at hs
    split at hs <;> cases hs
    rename_i hle
    refine .inr ⟨_, ?_, rfl⟩
    exact ⟨hle, id, .of_stage rfl, ⟨[], rfl, (List.append_nil _).symm⟩, fun _ => id⟩
  | link l =>
    cases hs
    refine .inr ⟨_, ?_, rfl⟩
    exact ⟨Nat.le_refl _, id, .of_stage rfl, ⟨[], rfl, (List.append_nil _).symm⟩, fun _ => id⟩
  | claim o =>
    cases hs
    exact .inr ⟨_, hpromise (Promise.keeps_claim _ o), rfl⟩
  | send =>
    cases hs
    exact .inr ⟨_, hpromise (Promise.keeps_send _), rfl⟩
  | share =>
    cases hs
    exact .inr ⟨_, hpromise (q := c.session.desk.promise.share) (.of_stage rfl), rfl⟩
  | release =>
    cases hs
    exact .inr ⟨_, hpromise (Promise.keeps_release _), rfl⟩
  | cancel =>
    cases hs
    exact .inr ⟨_, Desk.follows_cancelBeat _, rfl⟩
  | push p =>
    rw [step] at hs
    split at hs <;> cases hs
    exact .inr ⟨_, hscope _, rfl⟩
  | runHere p =>
    rw [step] at hs
    split at hs <;> cases hs
    exact .inr ⟨_, Desk.follows_runCleanup _ _, rfl⟩
  | raise =>
    rw [step] at hs
    split at hs <;> cases hs
    exact .inr ⟨_, hscope _, rfl⟩
  | take =>
    rw [step] at hs
    split at hs <;> cases hs
    exact .inr ⟨_, hscope _, rfl⟩
  | clean =>
    rw [step] at hs
    split at hs <;> cases hs
    exact .inr ⟨_, Desk.follows_runCleanup _ _, rfl⟩
  | announce =>
    rw [step] at hs
    split at hs <;> cases hs
    exact .inr ⟨_, hscope _, rfl⟩

/-- Steps that follow one another, as long as something holds. -/
def stepsWhile (always : Scene σ → Prop) [DecidablePred always] (c : Scene σ)
    (ds : List (Deed σ)) : Option (Scene σ) :=
  ds.foldlM (fun (c : Scene σ) d => (c.step d).filter fun v => always v) c

theorem Reachable.stepsWhile {start : Scene σ} {always : Scene σ → Prop} [DecidablePred always]
    (h : Reachable start always c) (ds : List (Deed σ)) (hs : c.stepsWhile always ds = some v) :
    Reachable start always v := by
  unfold Scene.stepsWhile at hs
  induction ds generalizing c with
  | nil =>
    cases hs
    exact h
  | cons d ds ih =>
    rw [List.foldlM_cons] at hs
    obtain ⟨u, hu, hs⟩ := Option.bind_eq_some_iff.1 hs
    obtain ⟨hstep, ha⟩ := Option.filter_eq_some_iff.1 hu
    exact ih (h.step d hstep (of_decide_eq_true ha)) hs

end Scene

end HeldReply
