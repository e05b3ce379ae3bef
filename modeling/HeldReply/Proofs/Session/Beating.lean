import HeldReply.Proofs.Exchange.Course
import HeldReply.Proofs.Link.Planned

/-!
# A beat among others

A beat works by itself on a link that follows a plan.  Others may cancel it, stop it and wait, or
dispose of its scope, at any time and bit by bit.  Only the clock waits: it moves when no task can go
on, and never beyond a timer.

* `Beating`, `Beating.Act`, `Beating.step` — the beat with those around it, and **the steps of all who
  take part**;
* `Beating.Reachable` — **what a beat can come to**;
* `Desk.Cancels` — the scope **cancels the beat** when it is disposed of, and what others do keeps
  that (`Desk.Cancels.move`);
* `Beating.Guarded` — it does so all along a run.
-/

namespace HeldReply

/-- **A beat among others**, with the disposal from outside that may be going on. -/
structure Beating where
  session : Session Planned
  outside : Outside := .none
  /-- When others cancelled the beat, if it was not cancelled before. -/
  cutAt : Option Nat := none
  /-- Others disposed of the scope. -/
  ousted : Bool := false

/-- What is **done** around a beat. -/
inductive Beating.Act where
  /-- A task has its turn. -/
  | poll (t : Task)
  /-- The clock moves. -/
  | tick (now : Nat)
  /-- Somebody stops the beat and waits for it to be over. -/
  | stop (wait : Nat)
  | other (m : Desk.Move)

namespace Beating

/-- The link. -/
def link (c : Beating) : Planned :=
  c.session.link

/-- The time. -/
def now (c : Beating) : Nat :=
  c.session.now

/-- Others did something to the session. -/
def touched (c : Beating) (s : Session Planned) (outside : Outside) : Beating where
  session := s
  outside := outside
  cutAt := if s.isCancelled && !c.session.isCancelled then some s.now else c.cutAt
  ousted := c.ousted || (s.isDisposed && !c.session.isDisposed)

/-- Whether the clock may move to a time: no task can go on, and no timer comes before. -/
def mayTick (c : Beating) (now : Nat) : Bool :=
  decide (c.now ≤ now) && c.session.isQuiet &&
    (c.session.nextDue c.now).all fun due => decide (now ≤ due)

/-- **One step**; `none` if it is not possible. -/
def step (c : Beating) : Act → Option Beating
  | .poll t => some { c with session := c.session.poll t }
  | .tick now => if c.mayTick now then some { c with session := c.session.atTime now } else none
  | .stop wait => some (c.touched (c.session.stop wait).1 c.outside)
  | .other m => (c.session.desk.move c.outside m).map fun (desk, outside) =>
      c.touched { c.session with desk } outside

/-- A beat that **was started** on a link that follows a plan, on a scope that may be disposed of
already. -/
def launch (plan : Plan) (interval : Span) (disposed : Bool) : Beating where
  session := Session.beatOnly { plan } interval disposed
  cutAt := if disposed then some 0 else none
  ousted := disposed

/-- **What a beat can come to.** -/
inductive Reachable (start : Beating) : Beating → Prop
  | start : Reachable start start
  | step {c v : Beating} (h : Reachable start c) (a : Act) (hs : c.step a = some v) :
      Reachable start v

/-- Steps that follow one another. -/
theorem Reachable.steps {start c v : Beating} (h : Reachable start c) (as : List Act)
    (hs : as.foldlM Beating.step c = some v) : Reachable start v := by
  induction as generalizing c with
  | nil =>
    cases hs
    exact h
  | cons a as ih =>
    rw [List.foldlM_cons] at hs
    obtain ⟨u, hu, hs⟩ := Option.bind_eq_some_iff.1 hs
    exact ih (h.step a hu) hs

end Beating

/-! ### The scope cancels the beat -/

namespace Desk

variable {σ : Type} [Link σ] {d e : Desk (Line σ)} {before after : Outside} {m : Move}
  {ks : List Cleanup} {k : Cleanup}

/-- Whether a disposal from outside is **still to cancel** the beat. -/
def IsToCancel (queue : List Cleanup) : Outside → Prop
  | .none => False
  | .raised => .cancelBeat ∈ queue
  | .draining rest => .cancelBeat ∈ rest

/-- **The scope cancels the beat** when it is disposed of. -/
structure Cancels (d : Desk (Line σ)) (outside : Outside) : Prop where
  queued : d.scope.isDisposed = false → .cancelBeat ∈ d.scope.queue ∧ outside = .none
  cancels : d.scope.isDisposed = true →
    d.around.cancelled = true ∨ IsToCancel d.scope.queue outside

/-- A beat that is cancelled stays so. -/
theorem Leads.cancelled (h : Leads d e) (hd : d.around.cancelled = true) :
    e.around.cancelled = true :=
  h.around (P := fun a => a.cancelled = true) (fun _ => id) (fun _ _ => rfl) hd

theorem cancelled_runCleanup (h : d.around.cancelled = true ∨ k = .cancelBeat) :
    (d.runCleanup k).around.cancelled = true := by
  obtain h | rfl := h
  · exact (Leads.refl.runCleanup k).cancelled h
  · rfl

/-- Clean-ups among which there is the cancelling of the beat **cancel** it. -/
theorem cancelled_runCleanups (h : d.around.cancelled = true ∨ .cancelBeat ∈ ks) :
    (ks.foldl runCleanup d).around.cancelled = true := by
  induction ks generalizing d with
  | nil => exact h.resolve_right List.not_mem_nil
  | cons k ks ih =>
    refine ih ?_
    obtain h | h := h
    · exact .inl (cancelled_runCleanup (.inl h))
    · obtain rfl | h := List.mem_cons.1 h
      · exact .inl (cancelled_runCleanup (.inr rfl))
      · exact .inr h

/-- **A disposal cancels the beat.** -/
theorem Cancels.dispose (h : d.Cancels before) (hd : d.scope.isDisposed = false) :
    d.dispose.1.around.cancelled = true := by
  obtain ⟨hdisposed, -⟩ | ⟨-, hb⟩ := d.begin_cases
  · rw [hd] at hdisposed
    cases hdisposed
  · rw [Desk.dispose, hb]
    refine cancelled_runCleanups (.inr ?_)
    exact List.mem_reverse.2 (h.queued hd).1

/-- What others do never takes a disposal back. -/
theorem isDisposed_move (h : d.move before m = some (e, after))
    (hd : d.scope.isDisposed = true) : e.scope.isDisposed = true := by
  cases moves_of_move h with
  | claim | send | share | release | cancel | push | take | announce => exact hd
  | raise => rfl
  | runHere | clean => exact (Leads.refl.runCleanup _).isDisposed hd

/-- A clean-up of a scope that is disposed of is run: it may be the cancelling of the beat. -/
theorem Cancels.runCleanup (hd : d.scope.isDisposed = true)
    (h : d.around.cancelled = true ∨ k = .cancelBeat ∨ IsToCancel d.scope.queue after) :
    (d.runCleanup k).Cancels after := by
  have hscope := scope_runCleanup k hd
  constructor
  · intro hnot
    rw [hscope, hd] at hnot
    cases hnot
  · intro _
    rw [hscope]
    obtain h | h | h := h
    · exact .inl (cancelled_runCleanup (.inl h))
    · exact .inl (cancelled_runCleanup (.inr h))
    · exact .inr h

/-- **What others do** keeps it. -/
theorem Cancels.move (h : d.Cancels before) (hm : d.move before m = some (e, after)) :
    e.Cancels after := by
  cases moves_of_move hm with
  | claim | send | share | release => exact ⟨h.queued, h.cancels⟩
  | cancel => exact ⟨h.queued, fun _ => .inl rfl⟩
  | push p =>
    constructor
    · intro hd
      obtain ⟨hmem, ho⟩ := h.queued hd
      exact ⟨List.mem_append_left _ hmem, ho⟩
    · intro hd
      refine (h.cancels hd).imp_right ?_
      cases before with
      | none => exact id
      | raised => exact fun hmem => List.mem_append_left _ hmem
      | draining rest => exact id
  | runHere p hd => exact .runCleanup hd ((h.cancels hd).imp_right .inr)
  | raise hd =>
    constructor
    · intro hnot
      cases hnot
    · intro _
      exact .inr (h.queued hd).1
  | take =>
    constructor
    · intro hd
      cases (h.queued hd).2
    · intro hd
      exact (h.cancels hd).imp_right List.mem_reverse.2
  | @clean k rest =>
    by_cases hd : d.scope.isDisposed = true
    · refine .runCleanup hd ((h.cancels hd).imp_right fun hmem => ?_)
      exact (List.mem_cons.1 hmem).imp_left Eq.symm
    · cases (h.queued (by simpa using hd)).2
  | announce =>
    constructor
    · intro hd
      cases (h.queued hd).2
    · intro hd
      exact (h.cancels hd).imp_right fun hmem => absurd hmem List.not_mem_nil

/-- A disposal from outside **begins** only if there was none before. -/
theorem outside_move (hm : d.move .none m = some (e, after)) :
    after = .none ∨ d.scope.isDisposed = false ∧ e.scope.isDisposed = true := by
  cases moves_of_move hm with
  | claim | send | share | release | cancel | push | runHere => exact .inl rfl
  | raise hd => exact .inr ⟨hd, rfl⟩

end Desk

/-- **What the tasks do** keeps it. -/
theorem Session.Leads.cancels {σ : Type} [Link σ] {s v : Session σ}
    {ds : List (Desk (Line σ))} {outside : Outside} (h : s.Leads ds v) (hs : s.desk.Cancels outside) :
    v.desk.Cancels outside := by
  induction h with
  | refl => exact hs
  | start _ _ ih | ask _ _ ih => exact ⟨ih.queued, ih.cancels⟩
  | closeLink _ ih | hear _ ih | turn _ _ _ _ _ _ _ ih => exact ⟨ih.queued, ih.cancels⟩
  | cancel _ ih => exact ⟨ih.queued, fun _ => .inl rfl⟩
  | @dispose v _ _ ih =>
    by_cases hd : v.desk.scope.isDisposed = true
    · show v.desk.dispose.1.Cancels outside
      rw [Desk.dispose_of_isDisposed hd]
      exact ih
    · rw [Bool.not_eq_true] at hd
      constructor
      · intro hnot
        rw [Session.dispose, (Desk.scope_dispose hd).1] at hnot
        cases hnot
      · exact fun _ => .inl (ih.dispose hd)

namespace Beating

variable {c v : Beating} {plan : Plan} {interval : Span} {disposed : Bool}

/-- **The scope cancels the beat** all along, and a disposal from outside goes on only if it was
others who disposed of the scope. -/
structure Guarded (c : Beating) : Prop where
  cancels : c.session.desk.Cancels c.outside
  idle : c.ousted = false → c.outside = .none

theorem guarded_launch (plan : Plan) (interval : Span) (disposed : Bool) :
    Guarded (launch plan interval disposed) := by
  cases disposed with
  | false =>
    exact ⟨⟨fun _ => ⟨List.mem_singleton.2 rfl, rfl⟩, fun hd => nomatch hd⟩, fun _ => rfl⟩
  | true => exact ⟨⟨(fun hd => nomatch hd), fun _ => .inl rfl⟩, fun _ => rfl⟩

/-- **A step** keeps it. -/
theorem Guarded.step {a : Act} (h : Guarded c) (hs : c.step a = some v) : Guarded v := by
  cases a with
  | poll t =>
    cases hs
    obtain ⟨ks, hl⟩ := Session.leads_poll c.session t
    exact ⟨hl.cancels h.cancels, h.idle⟩
  | tick now =>
    rw [Beating.step] at hs
    split at hs <;> cases hs
    exact ⟨⟨h.cancels.queued, h.cancels.cancels⟩, h.idle⟩
  | stop wait =>
    cases hs
    refine ⟨⟨h.cancels.queued, fun _ => .inl rfl⟩, fun ho => h.idle ?_⟩
    exact (Bool.or_eq_false_iff.1 ho).1
  | other m =>
    obtain ⟨⟨desk, outside⟩, hm, rfl⟩ := Option.map_eq_some_iff.1 hs
    refine ⟨h.cancels.move hm, fun ho => ?_⟩
    obtain ⟨hbefore, hnew⟩ := Bool.or_eq_false_iff.1 ho
    rw [h.idle hbefore] at hm
    obtain ho | ⟨hd, he⟩ := Desk.outside_move hm
    · exact ho
    · rw [Session.isDisposed, Session.isDisposed, hd, he] at hnew
      cases hnew

/-- **In every run** the scope cancels the beat. -/
theorem Reachable.guarded (h : Reachable (launch plan interval disposed) c) : Guarded c := by
  induction h with
  | start => exact guarded_launch plan interval disposed
  | step _ a hs ih => exact ih.step hs

end Beating

end HeldReply
