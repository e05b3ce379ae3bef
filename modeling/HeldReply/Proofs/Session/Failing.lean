import HeldReply.Proofs.Session.Alike
import HeldReply.Proofs.Session.Quiet

/-!
# Failures look alike from outside

A handler may fail in many ways: it answers with a failure of its own or with any other, it crashes,
or its last callback goes without an answer.  Whoever reads the reply cannot tell which it was.  Two
sessions in which another failure ends the handler at the same time do the same with their links from
then on, whatever the links, the clock and everybody else do, and they end the same.

* `Mishap`, `Mishap.ending`, `Mishap.deeds` — **the ways to fail**, at the end of the handler's program
  and later;
* `Program.endingIn`, `Desk.execute_endingIn`, `Scene.steps_deeds` — each of them leaves a failure for
  the outcome, and changes nothing else;
* `Session.alike_launch_endingIn` — sessions that fail at the start look alike;
* `Scene.Alike.step` — scenes that look alike can do the same, and stay alike;
* `Scene.Alike.steps` — once there is an outcome, it does not matter what becomes of the callbacks;
* `Instant`, `Scene.Failed`, `Scene.failures_look_alike` — **the sessions and the theorem**.
-/

namespace HeldReply

/-- **How a handler fails.** -/
inductive Mishap where
  /-- A failure is answered: one with a text of the handler's own, or any other. -/
  | answered (f : Failure)
  /-- The handler crashes. -/
  | crashed (c : Crash)
  /-- The last callback goes. -/
  | dropped

namespace Mishap

/-- What a program does in place of returning with a remark. -/
def ending (remark : String) : Mishap → Program
  | answered f => .deliver (.error f) fun _ => .finish remark
  | crashed c => .crash c
  | dropped => .finish remark

/-- What is done when a mishap comes after the handler's program, while others go on. -/
def deeds (σ : Type) (name : String) : Mishap → List (Deed σ)
  | answered f => [.claim (.error f), .send]
  | crashed c => [.claim (.error (Desk.crashed name c)), .send, .release]
  | dropped => [.release]

/-- A mishap **ends** a handler: nobody answered before, and the callback that goes is the last
one. -/
structure Ends (m : Mishap) (p : Promise) : Prop where
  unclaimed : p.stage = .unclaimed
  last : m = .dropped → p.holders = 1

end Mishap

/-- The program that ends in a mishap **wherever it would return**. -/
def Program.endingIn (m : Mishap) : Program → Program
  | .finish remark => m.ending remark
  | .crash c => .crash c
  | .deliver o next => .deliver o fun first => (next first).endingIn m
  | .keep next => .keep (next.endingIn m)
  | .release next => .release (next.endingIn m)
  | .inspect next => .inspect fun v => (next v).endingIn m
  | .register cleanup next => .register cleanup fun queued => (next queued).endingIn m
  | .dispose next => .dispose fun first => (next first).endingIn m
  | .note text next => .note text (next.endingIn m)

/-! ### Promises that fail -/

namespace Promise

variable {p : Promise}

/-- A promise that **failed**: there is an outcome, and it is a failure. -/
def HasFailed (p : Promise) : Prop :=
  ∃ f, p.stage.outcome? = some (.error f)

theorem HasFailed.alike {q : Promise} (hp : p.HasFailed) (hq : q.HasFailed) : p.Alike q := by
  obtain ⟨f, hf⟩ := hp
  obtain ⟨g, hg⟩ := hq
  exact .of_settled hf hg (.failures f g)

/-- The first answer is the outcome. -/
theorem deliver_of_unclaimed (h : p.stage = .unclaimed) (o : Outcome) :
    (p.deliver o).1.stage = .sent o := by
  simp only [deliver, claim, h]
  rfl

theorem hasFailed_deliver (h : p.stage = .unclaimed) (f : Failure) :
    (p.deliver (.error f)).1.HasFailed :=
  ⟨f, congrArg Stage.outcome? (deliver_of_unclaimed h _)⟩

/-- What failed stays so when a callback goes. -/
theorem HasFailed.release (h : p.HasFailed) : p.release.HasFailed := by
  obtain ⟨f, hf⟩ := h
  exact ⟨f, (congrArg Stage.outcome? (release_of_settled hf)).trans hf⟩

/-- A promise **fails when its last callback goes** and nobody answered. -/
theorem hasFailed_release (h : p.stage = .unclaimed) (hn : p.holders = 1) :
    p.release.HasFailed := by
  have hs : p.release.stage = .broken := by
    simp only [Promise.release, h, hn]
    rfl
  exact ⟨_, congrArg Stage.outcome? hs⟩

/-- Nobody answered if the right to answer is there and there is no outcome. -/
theorem unclaimed_of_not_isClaimed (hc : p.isClaimed = false) (ho : p.stage.outcome?.isNone = true) :
    p.stage = .unclaimed := by
  unfold isClaimed at hc
  cases hs : p.stage with
  | unclaimed => rfl
  | claimed o | sent o =>
    rw [hs] at hc
    cases hc
  | broken =>
    rw [hs] at ho
    cases ho

end Promise

/-! ### Programs that fail -/

namespace Desk

variable {ω : Type} [Surroundings ω] {d : Desk ω} {p : Program} {m : Mishap}

/-- A program that ends in a mishap does what it would do, **and then what the mishap is**. -/
theorem interpret_endingIn (dispose : Desk ω → Desk ω × Bool) (m : Mishap) (p : Program)
    (d : Desk ω) :
    (∃ e remark, interpret dispose p d = (e, .finished remark) ∧
      interpret dispose (p.endingIn m) d = interpret dispose (m.ending remark) e) ∨
    (∃ e c, interpret dispose p d = (e, .crashed c) ∧
      interpret dispose (p.endingIn m) d = (e, .crashed c)) := by
  induction p generalizing d with
  | finish remark => exact .inl ⟨d, remark, rfl, rfl⟩
  | crash c => exact .inr ⟨d, c, rfl, rfl⟩
  | deliver o next ih => exact ih _ _
  | keep next ih => exact ih _
  | release next ih => exact ih _
  | inspect next ih => exact ih _ _
  | register cleanup next _ ihn =>
    simp only [interpret, Program.endingIn]
    split
    · exact ihn _ _
    · exact ihn _ _
  | dispose next ih => exact ih _ _
  | note text next ih => exact ih _

/-- **A handler that a mishap ends** leaves the desk as its program would, but that the promise
failed. -/
theorem execute_endingIn (name : String) (hm : m.Ends (d.run p).1.promise) :
    ∃ q, q.HasFailed ∧ (d.execute name (p.endingIn m)).1 = { (d.run p).1 with promise := q } := by
  obtain ⟨hu, hlast⟩ := hm
  rcases interpret_endingIn Desk.dispose m p d with ⟨e, remark, hr, hm⟩ | ⟨e, c, hr, hm⟩
  · have hrun : d.run p = (e, .finished remark) := hr
    rw [hrun] at hu hlast ⊢
    cases m with
    | answered f =>
      have hend : d.run (p.endingIn (.answered f)) = ((e.deliver (.error f)).1, .finished remark) := hm
      rw [execute, hend]
      exact ⟨_, (Promise.hasFailed_deliver hu f).release, rfl⟩
    | crashed c =>
      have hend : d.run (p.endingIn (.crashed c)) = (e, .crashed c) := hm
      rw [execute, hend]
      exact ⟨_, (Promise.hasFailed_deliver hu _).release, rfl⟩
    | dropped =>
      have hend : d.run (p.endingIn .dropped) = (e, .finished remark) := hm
      rw [execute, hend]
      exact ⟨_, Promise.hasFailed_release hu (hlast rfl), rfl⟩
  -- The program crashes of its own accord.
  · have hrun : d.run p = (e, .crashed c) := hr
    have hend : d.run (p.endingIn m) = (e, .crashed c) := hm
    rw [hrun] at hu ⊢
    rw [execute, hend]
    exact ⟨_, (Promise.hasFailed_deliver hu _).release, rfl⟩

end Desk

/-! ### Sessions that fail at the start -/

namespace Session

variable {σ : Type} {line : Line σ} {id : Nat} {interval : Span} {name : String} {p q : Program}
  {m n : Mishap}

theorem alike_unexecuted (line : Line σ) (id : Nat) (interval : Span) (name : String)
    (p q : Program) :
    (unexecuted line id interval ⟨name, p⟩).Alike (unexecuted line id interval ⟨name, q⟩) :=
  ⟨⟨rfl, rfl, .cons .closeLink (.cons .cancelBeat .nil), .refl _, rfl⟩, rfl, rfl, rfl, rfl, rfl,
    .fresh, rfl, rfl⟩

variable [Link σ]

/-- Sessions that are started **with programs that look alike** look alike. -/
theorem alike_launch (line : Line σ) (id : Nat) (interval : Span) (name : String)
    (hpq : p.Alike q) : (launch line id interval ⟨name, p⟩).1.Alike
      (launch line id interval ⟨name, q⟩).1 := by
  have h := alike_unexecuted line id interval name p q
  rw [launch_eq, launch_eq]
  exact { h with desk := h.desk.execute name hpq }

/-- A session **fails at the start** if a mishap ends its handler then. -/
theorem hasFailed_launch {p : Prepared}
    (hm : m.Ends ((unexecuted line id interval p).desk.run p.program).1.promise) :
    (launch line id interval
      { p with program := p.program.endingIn m }).1.desk.promise.HasFailed := by
  obtain ⟨x, hx, he⟩ := Desk.execute_endingIn p.name hm
  have hpromise := congrArg Desk.promise he
  exact hpromise.symm ▸ hx

/-- Sessions that fail at the start **look alike**, whatever the mishaps. -/
theorem alike_launch_endingIn (hpq : p.Alike q)
    (hm : m.Ends ((unexecuted line id interval ⟨name, p⟩).desk.run p).1.promise)
    (hn : n.Ends ((unexecuted line id interval ⟨name, q⟩).desk.run q).1.promise) :
    (launch line id interval ⟨name, p.endingIn m⟩).1.Alike
      (launch line id interval ⟨name, q.endingIn n⟩).1 := by
  have h := alike_unexecuted line id interval name p q
  have hrun := (h.desk.run hpq).1
  obtain ⟨x, hx, he⟩ := Desk.execute_endingIn name hm
  obtain ⟨y, hy, hf⟩ := Desk.execute_endingIn name hn
  have hdesk : ((unexecuted line id interval ⟨name, p⟩).desk.execute name (p.endingIn m)).1.Alike
      ((unexecuted line id interval ⟨name, q⟩).desk.execute name (q.endingIn n)).1 := by
    rw [he, hf]
    exact { hrun with promise := hx.alike hy }
  exact { h with desk := hdesk }

end Session

/-! ### Scenes that look alike -/

/-- Disposals from outside that have come equally far. -/
inductive Outside.Alike : Outside → Outside → Prop
  | none : Alike .none .none
  | raised : Alike .raised .raised
  | draining {ks ks' : List Cleanup} (h : ks.Forall₂ Cleanup.Alike ks') :
      Alike (.draining ks) (.draining ks')

namespace Scene

variable {σ : Type} {c d v w : Scene σ}

/-- Two scenes **look alike** if the sessions do, and the disposals from outside. -/
structure Alike (c d : Scene σ) : Prop where
  session : c.session.Alike d.session
  outside : c.outside.Alike d.outside

theorem Alike.refl (c : Scene σ) : c.Alike c := by
  have hks (ks : List Cleanup) : ks.Forall₂ Cleanup.Alike ks :=
    List.forall₂_same.2 fun k _ => .refl k
  have hdesk : c.session.desk.Alike c.session.desk := ⟨rfl, rfl, hks _, .refl _, rfl⟩
  refine ⟨⟨hdesk, rfl, rfl, rfl, rfl, rfl, .refl _, rfl, rfl⟩, ?_⟩
  cases c.outside with
  | none => exact .none
  | raised => exact .raised
  | draining ks => exact .draining (hks ks)

/-- **Nothing on the links** tells scenes apart that look alike. -/
theorem Alike.log (h : c.Alike d) : c.log = d.log :=
  congrArg Recorded.log h.session.link

/-- Scenes look alike with promises that do. -/
theorem Alike.withPromise (h : c.Alike d) {p q : Promise} (hpq : p.Alike q) :
    (c.withPromise p).Alike (d.withPromise q) :=
  { h with session := { h.session with desk := { h.session.desk with promise := hpq } } }

theorem Alike.withDesk (h : c.Alike d) {e f : Desk (Line (Recorded σ))} (hef : e.Alike f) :
    (c.withDesk e).Alike (d.withDesk f) :=
  { h with session := { h.session with desk := hef } }

theorem Alike.isQueueing (h : c.Alike d) : c.isQueueing = d.isQueueing := by
  have hdisposed := h.session.isDisposed
  have ho := h.outside
  unfold Scene.isQueueing
  rw [hdisposed]
  generalize c.outside = a, d.outside = b at ho ⊢
  cases ho <;> rfl

variable [Link σ]

/-- **A step** is possible in both of two alike scenes or in neither, and they stay alike. -/
theorem Alike.step (h : c.Alike d) (x : Deed σ) : (c.step x).Rel Alike (d.step x) := by
  have hsession := h.session
  have hdesk := hsession.desk
  have hout := h.outside
  cases x with
  | poll t => exact .some ⟨hsession.poll t, hout⟩
  | tick now =>
    rw [Scene.step, Scene.step, hsession.now]
    split
    · exact .some ⟨hsession.atTime now, hout⟩
    · exact .none
  | link l => exact .some ⟨hsession.withAround (by rw [hdesk.around]), hout⟩
  | claim o => exact .some (h.withPromise (hdesk.promise.claim (.same o)).1)
  | send => exact .some (h.withPromise hdesk.promise.send)
  | share => exact .some (h.withPromise hdesk.promise.share)
  | release => exact .some (h.withPromise hdesk.promise.release)
  | cancel => exact .some ⟨hsession.cancel, hout⟩
  | push p =>
    rw [Scene.step, Scene.step, h.isQueueing]
    split
    · exact .some (h.withDesk (hdesk.push (.refl _)))
    · exact .none
  | runHere p =>
    rw [Scene.step, Scene.step, hsession.isDisposed]
    split
    · exact .some (h.withDesk (hdesk.runCleanup (.refl _)))
    · exact .none
  | raise =>
    have hflag := hdesk.flag
    cases hr : d.session.desk.scope.flag.raised with
    | true =>
      simp only [Scene.step, Scope.raise, Flag.raise, hflag, hr]
      exact .none
    | false =>
      simp only [Scene.step, Scope.raise, Flag.raise, hflag, hr]
      exact .some ⟨{ hsession with desk := { hdesk with flag := rfl } }, .raised⟩
  | take =>
    generalize hc : c.outside = a, hd : d.outside = b at hout
    rw [Scene.step, Scene.step, hc, hd]
    cases hout with
    | raised =>
      exact .some ⟨{ hsession with desk := { hdesk with queue := .nil } },
        .draining (List.rel_reverse hdesk.queue)⟩
    | none | draining => exact .none
  | clean =>
    generalize hc : c.outside = a, hd : d.outside = b at hout
    rw [Scene.step, Scene.step, hc, hd]
    cases hout with
    | draining hks =>
      cases hks with
      | nil => exact .none
      | cons hk hks =>
        exact .some ⟨(h.withDesk (hdesk.runCleanup hk)).session, .draining hks⟩
    | none | raised => exact .none
  | announce =>
    generalize hc : c.outside = a, hd : d.outside = b at hout
    rw [Scene.step, Scene.step, hc, hd]
    cases hout with
    | draining hks =>
      cases hks with
      | nil => exact .some ⟨(h.withDesk hdesk.announce).session, .none⟩
      | cons => exact .none
    | none | raised => exact .none

/-! ### Many steps -/

/-- Steps that follow one another. -/
def steps (c : Scene σ) (xs : List (Deed σ)) : Option (Scene σ) :=
  c.stepsWhile (fun _ => True) xs

theorem steps_cons (c : Scene σ) (x : Deed σ) (xs : List (Deed σ)) :
    c.steps (x :: xs) = (c.step x).bind fun v => v.steps xs := by
  cases hx : c.step x with
  | none => simp [steps, stepsWhile, hx]
  | some v => exact stepsWhile_cons hx xs

/-- **Steps** that follow one another are possible in both of two alike scenes or in neither, and
they stay alike. -/
theorem Alike.steps (h : c.Alike d) (xs : List (Deed σ)) :
    (c.steps xs).Rel Alike (d.steps xs) := by
  induction xs generalizing c d with
  | nil => exact .some h
  | cons x xs ih =>
    have hx := h.step x
    rw [steps_cons, steps_cons]
    generalize c.step x = a, d.step x = b at hx ⊢
    cases hx with
    | none => exact .none
    | some hvw => exact ih hvw

/-- **A mishap after the handler's program** changes nothing but that the promise failed. -/
theorem steps_deeds {m : Mishap} (name : String) (hm : m.Ends c.session.desk.promise) :
    ∃ q, q.HasFailed ∧ c.steps (m.deeds σ name) = some (c.withPromise q) := by
  obtain ⟨hu, hlast⟩ := hm
  cases m with
  | answered f => exact ⟨_, Promise.hasFailed_deliver hu f, rfl⟩
  | crashed k => exact ⟨_, (Promise.hasFailed_deliver hu _).release, rfl⟩
  | dropped => exact ⟨_, Promise.hasFailed_release hu (hlast rfl), rfl⟩

end Scene

/-! ### Callbacks after the outcome -/

/-- Whether a step is one with **a callback**: an answer in its two steps, one callback more or
less. -/
def Deed.isCallback {σ : Type} : Deed σ → Bool
  | .claim _ | .send | .share | .release => true
  | _ => false

/-- What is done **aside from callbacks**. -/
def Deed.aside {σ : Type} (xs : List (Deed σ)) : List (Deed σ) :=
  xs.filter fun x => !x.isCallback

namespace Scene

variable {σ : Type} [Link σ] {c d v : Scene σ}

/-- The outcome is there. -/
def IsSettled (c : Scene σ) : Prop :=
  ∃ o, c.session.desk.promise.stage.outcome? = some o

/-- An outcome that is there **stays**. -/
theorem IsSettled.step {x : Deed σ} (h : c.IsSettled) (hs : c.step x = some v) : v.IsSettled := by
  obtain ⟨o, ho⟩ := h
  rcases step_cases hs with ⟨t, -, hv⟩ | ⟨e, hf, hv⟩
  · obtain ⟨ks, hl⟩ := Session.leads_poll c.session t
    rw [← hv] at hl
    exact ⟨o, hl.promise.outcome o ho⟩
  · refine ⟨o, ?_⟩
    rw [hv]
    exact hf.promise.outcome o ho

/-- Once the outcome is there, a step with a callback **changes nothing** that anybody can tell. -/
theorem IsSettled.step_callback {x : Deed σ} (h : c.IsSettled) (hx : x.isCallback = true) :
    ∃ q, c.step x = some (c.withPromise q) ∧ q.stage = c.session.desk.promise.stage := by
  obtain ⟨o, ho⟩ := h
  cases x with
  | claim o' => exact ⟨_, rfl, by rw [Promise.claim_of_settled ho]⟩
  | send => exact ⟨_, rfl, by rw [Promise.send_of_settled ho]⟩
  | share => exact ⟨_, rfl, rfl⟩
  | release => exact ⟨_, rfl, Promise.release_of_settled ho⟩
  | poll | tick | link | cancel | push | runHere | raise | take | clean | announce => cases hx

/-- What is done with callbacks once the outcome is there **can be left out**. -/
theorem Alike.steps_aside (h : c.Alike d) (ho : c.IsSettled) (xs : List (Deed σ)) :
    (c.steps xs).Rel Alike (d.steps (Deed.aside xs)) := by
  induction xs generalizing c d with
  | nil => exact .some h
  | cons x xs ih =>
    rw [steps_cons]
    cases hk : x.isCallback with
    | true =>
      obtain ⟨q, hq, hstage⟩ := ho.step_callback hk
      have hskip : Deed.aside (x :: xs) = Deed.aside xs := List.filter_cons_of_neg (by simp [hk])
      obtain ⟨o, hset⟩ := ho
      have hrel : (c.withPromise q).Alike d :=
        h.withPromise (h.session.desk.promise.of_stage hset hstage)
      rw [hskip, hq]
      exact ih hrel (IsSettled.step ⟨o, hset⟩ hq)
    | false =>
      have hkeep : Deed.aside (x :: xs) = x :: Deed.aside xs :=
        List.filter_cons_of_pos (by simp [hk])
      have hx := h.step x
      rw [hkeep, steps_cons]
      cases hc : c.step x with
      | none =>
        rw [hc] at hx
        generalize d.step x = b at hx ⊢
        cases hx
        exact .none
      | some v =>
        rw [hc] at hx
        generalize d.step x = b at hx ⊢
        cases hx with
        | some hvw => exact ih hvw (ho.step hc)

/-! ### Two sessions -/

/-- **When** a failure ends a handler: when its program would return, or after so many steps of all
who take part. -/
inductive Instant (σ : Type) where
  | atReturn
  | later (before : List (Deed σ))

/-- A session, started on a link at a time, **whose handler a mishap has just ended**. -/
inductive Failed (l : σ) (now id : Nat) (interval : Span) (p : Prepared) (m : Mishap) :
    Instant σ → Scene σ → Prop
  | atReturn (hm : m.Ends ((openingDesk l now id p).run p.program).1.promise) :
      Failed l now id interval p m .atReturn
        (launch l now id interval { p with program := p.program.endingIn m })
  | later {before : List (Deed σ)} {b c : Scene σ}
      (hb : (launch l now id interval p).steps before = some b)
      (hm : m.Ends b.session.desk.promise) (hc : b.steps (m.deeds σ p.name) = some c) :
      Failed l now id interval p m (.later before) c

variable {l : σ} {now id : Nat} {interval : Span} {name : String} {p : Prepared} {m n : Mishap}
  {i : Instant σ}

omit [Link σ] in
theorem isSettled_of_hasFailed (h : c.session.desk.promise.HasFailed) : c.IsSettled := by
  obtain ⟨f, hf⟩ := h
  exact ⟨_, hf⟩

/-- The outcome is there once a mishap has ended the handler. -/
theorem Failed.isSettled (h : Failed l now id interval p m i c) : c.IsSettled := by
  cases h with
  | atReturn hm => exact isSettled_of_hasFailed (Session.hasFailed_launch hm)
  | later _ hm hs =>
    obtain ⟨q, hq, hc⟩ := steps_deeds p.name hm
    cases hs.symm.trans hc
    exact isSettled_of_hasFailed hq

/-- **Whatever the mishaps**, the two sessions look alike right after them. -/
theorem Failed.alike {p q : Program} (hpq : p.Alike q)
    (hc : Failed l now id interval ⟨name, p⟩ m i c)
    (hd : Failed l now id interval ⟨name, q⟩ n i d) : c.Alike d := by
  cases hc with
  | atReturn hm =>
    cases hd with
    | atReturn hn => exact ⟨Session.alike_launch_endingIn hpq hm hn, .none⟩
  | @later before _ _ hb hm hs =>
    cases hd with
    | later hb' hn hs' =>
      obtain ⟨x, hx, hc⟩ := steps_deeds name hm
      obtain ⟨y, hy, hd⟩ := steps_deeds name hn
      have hstart : (launch l now id interval ⟨name, p⟩).Alike (launch l now id interval ⟨name, q⟩) :=
        ⟨Session.alike_launch _ id interval name hpq, .none⟩
      have hbefore := hstart.steps before
      rw [hb, hb'] at hbefore
      cases hbefore with
      | some hbb =>
        cases hs.symm.trans hc
        cases hs'.symm.trans hd
        exact hbb.withPromise (hx.alike hy)

/-- **Failures look alike from outside.**  Take two sessions on links that behave the same, with the
same name and the same time between two beats, with programs that differ in failures at most, and
let a mishap end the handler of each at the same instant.  From then on let the same be done in both,
aside from callbacks.  Whatever is possible in the one is possible in the other; the same calls begin
on the two links, with the same chunks and at the same times, and are answered the same; the sessions
end the same; and the same tasks can go on and wait for the same timers. -/
theorem failures_look_alike (l : σ) (now id : Nat) (interval : Span) (name : String)
    (p q : Program) (hpq : p.Alike q) (i : Instant σ) (m n : Mishap) (c d : Scene σ)
    (hc : Failed l now id interval ⟨name, p⟩ m i c) (hd : Failed l now id interval ⟨name, q⟩ n i d)
    (xs ys : List (Deed σ)) (hxy : Deed.aside xs = Deed.aside ys) :
    (c.steps xs).isSome = (d.steps ys).isSome ∧
    ∀ v w, c.steps xs = some v → d.steps ys = some w →
      v.log = w.log ∧ v.session.endAs? = w.session.endAs? ∧
      ∀ t, v.session.isRunnable t = w.session.isRunnable t ∧
        v.session.dueAt t = w.session.dueAt t := by
  -- Both runs are compared with the one in which the callbacks are left out.
  have hx := (Failed.alike hpq hc hd).steps_aside hc.isSettled xs
  have hy := (Alike.refl d).steps_aside hd.isSettled ys
  rw [hxy] at hx
  generalize c.steps xs = a, d.steps ys = b, d.steps (Deed.aside ys) = e at hx hy ⊢
  cases hx with
  | none =>
    cases hy
    exact ⟨rfl, fun v w hv => by cases hv⟩
  | some hvu =>
    cases hy with
    | some hwu =>
      refine ⟨rfl, fun v w hv hw => ?_⟩
      cases hv
      cases hw
      have hs := hvu.session
      have ht := hwu.session
      exact ⟨hvu.log.trans hwu.log.symm, hs.endAs?.trans ht.endAs?.symm, fun t =>
        ⟨(hs.isRunnable t).trans (ht.isRunnable t).symm, (hs.dueAt t).trans (ht.dueAt t).symm⟩⟩

/-- Sessions that fail **can be run**: the steps before the mishap, its own, and those after it. -/
theorem exists_failed (l : σ) (now id : Nat) (interval : Span) (p : Prepared) (m : Mishap)
    (before xs : List (Deed σ)) (P : Scene σ → Bool)
    (hrun : ((launch l now id interval p).steps before).any (fun b =>
      (!b.session.desk.promise.isClaimed && b.session.desk.promise.stage.outcome?.isNone &&
        b.session.desk.promise.holders == 1) &&
      ((b.steps (m.deeds σ p.name)).bind fun c => c.steps xs).any P) = true) :
    ∃ c v, Failed l now id interval p m (.later before) c ∧ c.steps xs = some v ∧ P v = true := by
  obtain ⟨b, hb, hrun⟩ := (Option.any_eq_true _ _).1 hrun
  obtain ⟨hends, hafter⟩ := Bool.and_eq_true_iff.1 hrun
  simp only [Bool.and_eq_true, Bool.not_eq_true', beq_iff_eq] at hends
  obtain ⟨⟨hclaimed, hnone⟩, hlast⟩ := hends
  obtain ⟨v, hv, hP⟩ := (Option.any_eq_true _ _).1 hafter
  obtain ⟨c, hc, hxs⟩ := Option.bind_eq_some_iff.1 hv
  have hm : m.Ends b.session.desk.promise :=
    ⟨Promise.unclaimed_of_not_isClaimed hclaimed hnone, fun _ => hlast⟩
  exact ⟨c, v, .later hb hm hc, hxs, hP⟩

/-- A handler crashes while the beat rests, or its last callback goes at that time; in the one session
somebody answers in vain afterwards. -/
theorem failures_look_alike_crash_and_drop : ∃ c d v w : Scene Scripted,
    Failed { delay := 30 } 0 1 (.ofMillis 50) ⟨"job", .keep (.finish "crash")⟩
      (.crashed (.text "boom")) (.later [.poll .watcher, .poll .beat, .tick 20]) c ∧
    Failed { delay := 30 } 0 1 (.ofMillis 50) ⟨"job", .keep (.finish "drop")⟩
      .dropped (.later [.poll .watcher, .poll .beat, .tick 20]) d ∧
    c.steps [.poll .closing, .claim (.ok .null), .poll .beat, .send, .poll .closing, .tick 50,
      .poll .closing] = some v ∧
    d.steps [.poll .closing, .poll .beat, .poll .closing, .tick 50, .poll .closing] = some w ∧
    v.session.endAs? = some .delivered ∧
    v.log = w.log ∧ v.session.endAs? = w.session.endAs? ∧
    ∀ t, v.session.isRunnable t = w.session.isRunnable t ∧
      v.session.dueAt t = w.session.dueAt t := by
  let before : List (Deed Scripted) := [.poll .watcher, .poll .beat, .tick 20]
  let xs : List (Deed Scripted) := [.poll .closing, .claim (.ok .null), .poll .beat, .send,
    .poll .closing, .tick 50, .poll .closing]
  let ys : List (Deed Scripted) := [.poll .closing, .poll .beat, .poll .closing, .tick 50,
    .poll .closing]
  have hpq : Program.Alike (.keep (.finish "crash")) (.keep (.finish "drop")) :=
    .keep (.finish "crash" "drop")
  obtain ⟨c, v, hc, hv, hend⟩ := exists_failed { delay := 30 : Scripted } 0 1 (.ofMillis 50)
    ⟨"job", .keep (.finish "crash")⟩ (.crashed (.text "boom")) before xs
    (fun v => v.session.endAs? == some .delivered) (by decide +kernel)
  obtain ⟨d, w, hd, hw, -⟩ := exists_failed { delay := 30 : Scripted } 0 1 (.ofMillis 50)
    ⟨"job", .keep (.finish "drop")⟩ .dropped before ys
    (fun w => w.session.endAs? == some .delivered) (by decide +kernel)
  have hsame := (failures_look_alike { delay := 30 : Scripted } 0 1 (.ofMillis 50) "job" _ _ hpq
    (.later before) _ _ c d hc hd xs ys rfl).2 v w hv hw
  exact ⟨c, d, v, w, hc, hd, hv, hw, eq_of_beq hend, hsame⟩

end Scene

end HeldReply
