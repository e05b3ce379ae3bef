import Mathlib.Logic.Relation
import HeldReply.Desk
import HeldReply.Proofs.Promise

/-!
# The execution of a handler among others

A handler is executed by a thread of its own.  It may hand over copies of its callback, and while it
goes on, others may answer with the copies, copy them and let them go, each step at any time.  What
the thread finds when it looks around, and which clean-ups it has to run, is up to its surroundings.

* `Execution.Place`, `Execution.Moves` — where the thread is, and its steps that leave the callback
  alone;
* `Execution`, `Execution.Step` — **the steps of the thread and of everybody else**;
* `Execution.Sound`, `Execution.sound_of_reaches` — **the invariant**: the promise shows the first
  answer, the thread's callback is alive, and a crash was answered for;
* `Execution.Sound.told_first`, `Execution.Sound.answers_of_crash`, `Execution.Sound.told_of_silence` —
  what the listener is told once the thread is gone.
-/

namespace HeldReply

/-- **Whose** an answer is. -/
inductive Answerer where
  /-- The handler's, or that of a clean-up that its thread runs. -/
  | handler
  /-- The one that is given for a handler that crashed. -/
  | guard
  /-- That of somebody else with a copy of the callback. -/
  | other
  deriving DecidableEq, Repr

namespace Execution

/-- **Where** the thread is. -/
inductive Place where
  /-- It goes on with a program, and then with those that wait.  The last one is the handler's, and
  the others are clean-ups or what is left of one. -/
  | going (p : Program) (waiting : List Program)
  /-- The handler's program ended, and the thread is to let go of its callback. -/
  | leaving (e : Ending)
  | gone (e : Ending)

/-- The **callback of the thread** itself, which it holds until it is gone. -/
def Place.own : Place → Nat
  | .gone _ => 0
  | _ => 1

/-- The thread goes on and **leaves the callback alone**. -/
inductive Moves : Place → Place → Prop
  | inspect (next : View → Program) (ws : List Program) (v : View) :
      Moves (.going (.inspect next) ws) (.going (next v) ws)
  /-- A clean-up is queued; on a scope that is disposed of it is run at once. -/
  | queue (cleanup : Program) (next : Bool → Program) (ws : List Program) :
      Moves (.going (.register cleanup next) ws) (.going (next true) ws)
  | late (cleanup : Program) (next : Bool → Program) (ws : List Program) :
      Moves (.going (.register cleanup next) ws) (.going cleanup (next false :: ws))
  /-- A disposal runs the clean-ups that are queued, or there was one already. -/
  | dispose (next : Bool → Program) (ws cleanups : List Program) :
      Moves (.going (.dispose next) ws) (.going (.finish "") (cleanups ++ next true :: ws))
  | disposed (next : Bool → Program) (ws : List Program) :
      Moves (.going (.dispose next) ws) (.going (next false) ws)
  | note (text : String) (next : Program) (ws : List Program) :
      Moves (.going (.note text next) ws) (.going next ws)
  /-- A clean-up returns, or crashes, which ends only the clean-up. -/
  | returned (remark : String) (p : Program) (ws : List Program) :
      Moves (.going (.finish remark) (p :: ws)) (.going p ws)
  | crashed (c : Crash) (p : Program) (ws : List Program) :
      Moves (.going (.crash c) (p :: ws)) (.going p ws)
  | finish (remark : String) : Moves (.going (.finish remark) []) (.leaving (.finished remark))

end Execution

/-- A handler that **is executed**, while others go on. -/
structure Execution where
  place : Execution.Place
  /-- The thread is to send an outcome before it goes on. -/
  sends : Bool := false
  promise : Promise := {}
  /-- The answers, in the order in which they came to take the right. -/
  answers : List (Answerer × Outcome) := []

namespace Execution

/-- A program that **is to be executed**. -/
def start (p : Program) : Execution where
  place := .going p []

/-- The **copies** of the callback: all that are alive but the thread's own. -/
def copies (x : Execution) : Nat :=
  x.promise.holders - x.place.own

/-- The copies **in use**, by an answer of somebody else that is still to send its outcome. -/
def copiesInUse (x : Execution) : Nat :=
  if x.sends then 0 else x.promise.inUse

/-- The thread **answers**: it tries to take the right, and goes on; if it took the right, it first
sends the outcome. -/
def answer (x : Execution) (who : Answerer) (o : Outcome) (next : Bool → Place) : Execution where
  place := next (x.promise.claim o).2
  sends := (x.promise.claim o).2
  promise := (x.promise.claim o).1
  answers := x.answers ++ [(who, o)]

/-- **One step**, of the thread that executes the handler with the given name, or of somebody else.
It takes a copy to answer, to copy and to let go, and one that is in use does not go. -/
inductive Step (name : String) : Execution → Execution → Prop
  | move {x : Execution} {l : Place} (hs : x.sends = false) (hm : Moves x.place l) :
      Step name x { x with place := l }
  | deliver {x : Execution} {o : Outcome} {next : Bool → Program} {ws : List Program}
      (hs : x.sends = false) (hp : x.place = .going (.deliver o next) ws) :
      Step name x (x.answer .handler o fun first => .going (next first) ws)
  /-- The handler crashes, and is answered for. -/
  | crash {x : Execution} {c : Crash} (hs : x.sends = false) (hp : x.place = .going (.crash c) []) :
      Step name x (x.answer .guard (.error (Desk.crashed name c)) fun _ => .leaving (.crashed c))
  | send {x : Execution} (hs : x.sends = true) :
      Step name x { x with sends := false, promise := x.promise.send }
  | keep {x : Execution} {next : Program} {ws : List Program} (hs : x.sends = false)
      (hp : x.place = .going (.keep next) ws) :
      Step name x { x with place := .going next ws, promise := x.promise.share }
  | release {x : Execution} {next : Program} {ws : List Program} (hs : x.sends = false)
      (hp : x.place = .going (.release next) ws) (hc : x.copiesInUse < x.copies) :
      Step name x { x with place := .going next ws, promise := x.promise.release }
  | leave {x : Execution} {e : Ending} (hs : x.sends = false) (hp : x.place = .leaving e) :
      Step name x { x with place := .gone e, promise := x.promise.release }
  | otherClaim {x : Execution} (o : Outcome) (hc : 0 < x.copies) :
      Step name x { x with
        promise := (x.promise.claim o).1, answers := x.answers ++ [(.other, o)] }
  | otherSend {x : Execution} (hs : x.sends = false) :
      Step name x { x with promise := x.promise.send }
  | otherShare {x : Execution} (hc : 0 < x.copies) :
      Step name x { x with promise := x.promise.share }
  | otherRelease {x : Execution} (hc : x.copiesInUse < x.copies) :
      Step name x { x with promise := x.promise.release }
  /-- The listener asks, or goes away. -/
  | poll {x : Execution} : Step name x { x with promise := x.promise.poll.1 }
  | quit {x : Execution} : Step name x { x with promise := x.promise.leave }

/-- **What can be reached**, in any number of steps. -/
def Reaches (name : String) : Execution → Execution → Prop :=
  Relation.ReflTransGen (Step name)

/-! ### What the answers tell -/

/-- **What the answers tell of the promise.**  Without any it is as new, or all callbacks went.
Otherwise the first one took the right, and its outcome is sent or on its way. -/
def Tells (sends : Bool) (p : Promise) : List (Answerer × Outcome) → Prop
  | [] => (p.stage = .unclaimed ∧ 0 < p.holders) ∨ (p.stage = .broken ∧ p.holders = 0)
  | (who, o) :: _ => (p.stage = .claimed o ∧ (sends = true ↔ who ≠ .other)) ∨ p.stage = .sent o

variable {name : String} {x y : Execution} {p q : Promise} {sends : Bool} {o : Outcome}
  {answers : List (Answerer × Outcome)}

theorem Tells.of_stage (h : Tells sends p answers) (hs : q.stage = p.stage)
    (hn : q.holders = p.holders) : Tells sends q answers := by
  unfold Tells at h ⊢
  rw [hs, hn]
  exact h

/-- **An answer** takes the right if it is the first, and otherwise changes nothing. -/
theorem claim_of_tells (h : Tells sends p answers) (hn : 0 < p.holders) (o : Outcome) :
    (answers = [] ∧ p.stage = .unclaimed ∧
      p.claim o = ({ p with stage := .claimed o }, true)) ∨
    (answers ≠ [] ∧ p.stage ≠ .unclaimed ∧ p.claim o = (p, false)) := by
  cases answers with
  | nil =>
    rcases h with ⟨hs, -⟩ | ⟨-, hz⟩
    · exact .inl ⟨rfl, hs, by rw [Promise.claim, hs]⟩
    · omega
  | cons a as =>
    rcases h with ⟨hs, -⟩ | hs
    · exact .inr ⟨List.cons_ne_nil a as, by rw [hs]; exact Promise.Stage.noConfusion,
        by rw [Promise.claim, hs]⟩
    · exact .inr ⟨List.cons_ne_nil a as, by rw [hs]; exact Promise.Stage.noConfusion,
        by rw [Promise.claim, hs]⟩

/-- A later answer tells nothing new. -/
theorem Tells.append (h : Tells sends p answers) (hne : answers ≠ [])
    (late : List (Answerer × Outcome)) : Tells sends p (answers ++ late) := by
  cases answers with
  | nil => exact absurd rfl hne
  | cons a as => exact h

/-- The outcome on its way is sent. -/
theorem Tells.send (h : Tells sends p answers) : Tells false p.send answers := by
  cases answers with
  | nil =>
    have hsend : p.send = p := by
      unfold Promise.send
      rcases h with ⟨hs, -⟩ | ⟨hs, -⟩ <;> rw [hs]
    rw [hsend]
    exact h
  | cons a as =>
    right
    rcases h with ⟨hs, -⟩ | hs
    · rw [Promise.send, hs]
      rfl
    · rw [Promise.send, hs]
      exact hs

theorem Tells.share (h : Tells sends p answers) (hn : 0 < p.holders) :
    Tells sends p.share answers := by
  cases answers with
  | nil =>
    rcases h with ⟨hs, -⟩ | ⟨-, hz⟩
    · exact .inl ⟨hs, Nat.succ_pos _⟩
    · omega
  | cons a as => exact h

theorem Tells.release (h : Tells sends p answers) : Tells sends p.release answers := by
  cases answers with
  | nil =>
    rcases Promise.release_cases p with ⟨-, hz, hr⟩ | ⟨hmore, hr⟩ <;> rw [hr]
    · exact .inr ⟨rfl, hz⟩
    · rcases h with ⟨hs, -⟩ | ⟨hs, hz⟩
      · exact .inl ⟨hs, hmore hs⟩
      · exact .inr ⟨hs, by dsimp only; omega⟩
  | cons a as =>
    have hstage : p.release.stage = p.stage := by
      rcases Promise.release_cases p with ⟨hu, -, -⟩ | ⟨-, hr⟩
      · rcases h with ⟨hs, -⟩ | hs <;> rw [hu] at hs <;> cases hs
      · rw [hr]
    unfold Tells
    rw [hstage]
    exact h

/-! ### Callbacks in use -/

theorem inUse_of_stage (h : q.stage = p.stage) : q.inUse = p.inUse := by
  rw [Promise.inUse, Promise.inUse, h]

theorem inUse_release (p : Promise) : p.release.inUse = p.inUse := by
  rcases Promise.release_cases p with ⟨hu, -, hr⟩ | ⟨-, hr⟩
  · rw [hr, Promise.inUse, Promise.inUse, hu]
    rfl
  · rw [hr]
    rfl

/-- Nothing is sent if nothing is on its way. -/
theorem send_of_inUse (h : p.inUse = 0) : p.send = p := by
  cases hs : p.stage with
  | claimed o =>
    rw [Promise.inUse, hs] at h
    cases h
  | unclaimed | sent | broken => rw [Promise.send, hs]

theorem inUse_send (p : Promise) : p.send.inUse = 0 := by
  unfold Promise.inUse Promise.send
  cases hs : p.stage <;> simp [Promise.settle, hs]

theorem holders_release (p : Promise) : p.release.holders = p.holders - 1 := by
  rcases Promise.release_cases p with ⟨-, -, hr⟩ | ⟨-, hr⟩
  · rw [hr]
    rfl
  · rw [hr]

theorem holders_send (p : Promise) : p.send.holders = p.holders := by
  unfold Promise.send
  split <;> rfl

/-- What took the right is not lost when a callback goes. -/
theorem stage_release_of_claimed (h : p.stage = .claimed o) : p.release.stage = p.stage := by
  simp only [Promise.release, h]

theorem stage_poll (p : Promise) : p.poll.1.stage = p.stage ∧ p.poll.1.holders = p.holders := by
  unfold Promise.poll
  split <;> exact ⟨rfl, rfl⟩

/-- A copy that is not in use may go. -/
theorem held_release (hc : x.copiesInUse < x.copies) :
    x.place.own + (if x.sends then 0 else x.promise.release.inUse) ≤ x.promise.release.holders := by
  rw [inUse_release, holders_release]
  unfold copiesInUse copies at hc
  omega

/-! ### The invariant -/

/-- **A crash was answered for**, and by the time the thread leaves only others can answer. -/
def Reported (name : String) (answers : List (Answerer × Outcome)) : Place → Prop
  | .leaving (.crashed c) | .gone (.crashed c) =>
    ∃ before after, answers = before ++ (.guard, .error (Desk.crashed name c)) :: after ∧
      (∀ a ∈ before, a.1 ≠ .guard) ∧ ∀ a ∈ after, a.1 = .other
  | _ => ∀ a ∈ answers, a.1 ≠ .guard

/-- **What always holds** of an execution. -/
structure Sound (name : String) (x : Execution) : Prop where
  /-- The thread's callback is alive, and so is a copy in use. -/
  held : x.place.own + x.copiesInUse ≤ x.promise.holders
  /-- The thread sends only while it is there, and what took the right. -/
  sending : x.sends = true → x.place.own = 1 ∧ ∃ o, x.promise.stage = .claimed o
  tells : Tells x.sends x.promise x.answers
  reported : Reported name x.answers x.place

/-- The thread holds its callback while it moves. -/
theorem Moves.own {l l' : Place} (h : Moves l l') : l.own = 1 ∧ l'.own = 1 := by
  cases h <;> exact ⟨rfl, rfl⟩

/-- A thread that moves did not crash, or it would have been answered for. -/
theorem Reported.move {l l' : Place} (h : Reported name answers l) (hm : Moves l l') :
    Reported name answers l' := by
  cases hm <;> exact h

theorem Reported.other {l : Place} (h : Reported name answers l) (o : Outcome) :
    Reported name (answers ++ [(.other, o)]) l := by
  have hnew (hg : ∀ a ∈ answers, a.1 ≠ .guard) :
      ∀ a ∈ answers ++ [(.other, o)], a.1 ≠ .guard := by
    intro a ha
    rcases List.mem_append.1 ha with ha | ha
    · exact hg a ha
    · rw [List.mem_singleton.1 ha]
      exact Answerer.noConfusion
  have hafter {c : Crash} (h : ∃ before after, answers =
      before ++ (.guard, .error (Desk.crashed name c)) :: after ∧
      (∀ a ∈ before, a.1 ≠ .guard) ∧ ∀ a ∈ after, a.1 = .other) :
      ∃ before after, answers ++ [(.other, o)] =
        before ++ (.guard, .error (Desk.crashed name c)) :: after ∧
        (∀ a ∈ before, a.1 ≠ .guard) ∧ ∀ a ∈ after, a.1 = .other := by
    obtain ⟨before, after, rfl, hbefore, hafter⟩ := h
    refine ⟨before, after ++ [(.other, o)], by simp, hbefore, fun a ha => ?_⟩
    rcases List.mem_append.1 ha with ha | ha
    · exact hafter a ha
    · rw [List.mem_singleton.1 ha]
  match l, h with
  | .going _ _, h => exact hnew h
  | .leaving (.finished _), h => exact hnew h
  | .gone (.finished _), h => exact hnew h
  | .leaving (.crashed _), h => exact hafter h
  | .gone (.crashed _), h => exact hafter h

/-- **An answer of the thread** keeps the invariant. -/
theorem Sound.answer {who : Answerer} {next : Bool → Place} (h : Sound name x)
    (hs : x.sends = false) (hl : x.place.own = 1) (hnext : ∀ first, (next first).own = 1)
    (hwho : who ≠ .other)
    (hr : ∀ first, Reported name (x.answers ++ [(who, o)]) (next first)) :
    Sound name (x.answer who o next) := by
  have hheld := h.held
  rw [hl] at hheld
  have hpos : 0 < x.promise.holders := by omega
  have hown : (x.answer who o next).place.own = 1 := hnext _
  rcases claim_of_tells h.tells hpos o with ⟨has, -, hc⟩ | ⟨has, -, hc⟩
  · have hx : x.answer who o next =
        ⟨next true, true, { x.promise with stage := .claimed o }, [(who, o)]⟩ := by
      rw [Execution.answer, hc, has]
      rfl
    rw [hx] at hown ⊢
    refine ⟨?_, fun _ => ⟨hown, o, rfl⟩, .inl ⟨rfl, iff_of_true rfl hwho⟩, ?_⟩
    · show (next true).own + 0 ≤ x.promise.holders
      rw [hnext]
      exact hpos
    · have := hr true
      rw [has] at this
      exact this
  · have hx : x.answer who o next =
        ⟨next false, false, x.promise, x.answers ++ [(who, o)]⟩ := by
      rw [Execution.answer, hc]
    have hheld : x.place.own + x.copiesInUse ≤ x.promise.holders := h.held
    rw [copiesInUse, hs, hl] at hheld
    rw [hx]
    refine ⟨?_, fun hs => Bool.noConfusion hs, ?_, hr false⟩
    · rw [hnext]
      exact hheld
    · have := h.tells
      rw [hs] at this
      exact this.append has _

/-- **An answer of somebody else** keeps the invariant. -/
theorem Sound.otherClaim (h : Sound name x) (hc : 0 < x.copies) (o : Outcome) :
    Sound name { x with
      promise := (x.promise.claim o).1, answers := x.answers ++ [(.other, o)] } := by
  have hheld := h.held
  have hpos : x.place.own < x.promise.holders := by
    unfold copies at hc
    omega
  rcases claim_of_tells h.tells (by omega) o with ⟨has, hu, hclaim⟩ | ⟨has, -, hclaim⟩
  · have hs : x.sends = false := by
      cases hs : x.sends with
      | false => rfl
      | true =>
        obtain ⟨-, o', ho'⟩ := h.sending hs
        rw [hu] at ho'
        cases ho'
    rw [hclaim, has, hs]
    refine ⟨hpos, fun hs => Bool.noConfusion hs, .inl ⟨rfl, ?_⟩, has ▸ h.reported.other o⟩
    exact iff_of_false Bool.false_ne_true fun hne => hne rfl
  · rw [hclaim]
    exact ⟨hheld, h.sending, h.tells.append has _, h.reported.other o⟩

/-- **A step keeps the invariant**, whoever takes it. -/
theorem Sound.step (h : Sound name x) (hs : Step name x y) : Sound name y := by
  obtain ⟨hheld, hsending, htells, hreported⟩ := id h
  have hidle (hs : x.sends = false) (l : Place) (q : Promise) :
      x.sends = true → l.own = 1 ∧ ∃ o, q.stage = .claimed o :=
    fun ht => Bool.noConfusion (hs.symm.trans ht)
  cases hs with
  | move hs hm =>
    obtain ⟨hl, hl'⟩ := hm.own
    rw [hl] at hheld
    exact ⟨hl' ▸ hheld, hidle hs _ _, htells, hreported.move hm⟩
  | @deliver o next ws hs hp =>
    rw [hp] at hreported
    refine h.answer hs (by rw [hp]; rfl) (fun _ => rfl) Answerer.noConfusion fun _ a ha => ?_
    rcases List.mem_append.1 ha with ha | ha
    · exact hreported a ha
    · rw [List.mem_singleton.1 ha]
      exact Answerer.noConfusion
  | @crash c hs hp =>
    rw [hp] at hreported
    refine h.answer hs (by rw [hp]; rfl) (fun _ => rfl) Answerer.noConfusion fun _ => ?_
    exact ⟨x.answers, [], rfl, hreported, fun a ha => absurd ha List.not_mem_nil⟩
  | send hs =>
    obtain ⟨hl, -⟩ := hsending hs
    refine ⟨?_, fun ht => Bool.noConfusion ht, htells.send, hreported⟩
    rw [copiesInUse, hs] at hheld
    show x.place.own + x.promise.send.inUse ≤ x.promise.send.holders
    rw [inUse_send, holders_send]
    exact hheld
  | @keep next ws hs hp =>
    rw [hp] at hheld hreported
    have hpos : 0 < x.promise.holders := by
      have : 1 + x.copiesInUse ≤ x.promise.holders := hheld
      omega
    refine ⟨?_, hidle hs _ _, htells.share hpos, hreported⟩
    exact Nat.le_succ_of_le hheld
  | @release next ws hs hp hc =>
    rw [hp] at hreported
    refine ⟨?_, hidle hs _ _, htells.release, hreported⟩
    have hown : x.place.own = 1 := by rw [hp]; rfl
    have hleft := held_release hc
    rw [hown] at hleft
    exact hleft
  | @leave e hs hp =>
    have hown : x.place.own = 1 := by rw [hp]; rfl
    rw [copiesInUse, hs, hown] at hheld
    rw [hp] at hreported
    refine ⟨?_, hidle hs _ _, htells.release, ?_⟩
    · show 0 + (if x.sends then 0 else x.promise.release.inUse) ≤ x.promise.release.holders
      rw [hs, inUse_release, holders_release]
      simp only [Bool.false_eq_true, if_false] at hheld ⊢
      omega
    · cases e with
      | finished => exact hreported
      | crashed => exact hreported
  | otherClaim o hc => exact h.otherClaim hc o
  | otherSend hs =>
    rw [copiesInUse, hs] at hheld
    refine ⟨?_, hidle hs _ _, hs ▸ htells.send, hreported⟩
    show x.place.own + (if x.sends then 0 else x.promise.send.inUse) ≤ x.promise.send.holders
    rw [hs, inUse_send, holders_send]
    exact Nat.le_of_add_right_le hheld
  | otherShare hc =>
    have hpos : 0 < x.promise.holders := Nat.lt_of_lt_of_le hc (Nat.sub_le _ _)
    exact ⟨Nat.le_succ_of_le hheld, hsending, htells.share hpos, hreported⟩
  | otherRelease hc =>
    refine ⟨held_release hc, fun hs => ?_, htells.release, hreported⟩
    obtain ⟨hl, o, ho⟩ := hsending hs
    exact ⟨hl, o, (stage_release_of_claimed ho).trans ho⟩
  | poll =>
    obtain ⟨hstage, hholders⟩ := stage_poll x.promise
    refine ⟨?_, fun hs => ?_, htells.of_stage hstage hholders, hreported⟩
    · show x.place.own + (if x.sends then 0 else x.promise.poll.1.inUse) ≤ x.promise.poll.1.holders
      rw [inUse_of_stage hstage, hholders]
      exact hheld
    · obtain ⟨hl, o, ho⟩ := hsending hs
      exact ⟨hl, o, hstage.trans ho⟩
  | quit => exact ⟨hheld, hsending, htells.of_stage rfl rfl, hreported⟩

/-- Nobody has done anything yet. -/
theorem sound_start (name : String) (p : Program) : Sound name (start p) :=
  ⟨Nat.le_refl 1, fun hs => Bool.noConfusion hs, .inl ⟨rfl, Nat.one_pos⟩,
    fun _ ha => absurd ha List.not_mem_nil⟩

/-- **The invariant holds of whatever can be reached.** -/
theorem sound_of_reaches {p : Program} (h : Reaches name (start p) x) : Sound name x := by
  induction h with
  | refl => exact sound_start name p
  | tail _ hs ih => exact ih.step hs

/-! ### What the listener is told -/

/-- What the listener **is told** if it asks. -/
def told (x : Execution) : Option Outcome :=
  x.promise.poll.2

theorem told_eq (x : Execution) : x.told = x.promise.stage.outcome? := by
  unfold told Promise.poll
  cases x.promise.stage.outcome? <;> rfl

/-- **The first answer is the outcome**, if it is the handler's or the one for its crash and the thread
is gone; if it is somebody else's, the listener is told nothing else. -/
theorem Sound.told_first {e : Ending} {who : Answerer} (h : Sound name x) (hg : x.place = .gone e)
    (ha : x.answers = (who, o) :: answers) :
    (who ≠ .other → x.told = some o) ∧ (x.told = some o ∨ x.told = none ∧ 0 < x.copies) := by
  have htells := h.tells
  have hs : x.sends = false := by
    cases hs : x.sends with
    | false => rfl
    | true =>
      obtain ⟨hl, -⟩ := h.sending hs
      rw [hg] at hl
      cases hl
  rw [ha, hs] at htells
  rw [told_eq]
  rcases htells with ⟨hstage, hwho⟩ | hstage
  · have hheld := h.held
    rw [copiesInUse, hs, Promise.inUse, hstage, hg] at hheld
    rw [hstage]
    refine ⟨fun hne => absurd (hwho.2 hne) Bool.false_ne_true, .inr ⟨rfl, ?_⟩⟩
    rw [copies, hg]
    exact hheld
  · rw [hstage]
    exact ⟨fun _ => rfl, .inl rfl⟩

/-- A handler that **crashed was answered for**, after its own answers, and as its failure. -/
theorem Sound.answers_of_crash {c : Crash} (h : Sound name x) (hg : x.place = .gone (.crashed c)) :
    ∃ before after, x.answers = before ++ (.guard, .error (Desk.crashed name c)) :: after ∧
      (∀ a ∈ before, a.1 ≠ .guard) ∧ ∀ a ∈ after, a.1 = .other := by
  have hr := h.reported
  rw [hg] at hr
  exact hr

/-- **Without an answer** the listener is told so as soon as no copy is left, and has to wait until
then. -/
theorem Sound.told_of_silence {e : Ending} (h : Sound name x) (hg : x.place = .gone e)
    (ha : x.answers = []) :
    (∃ remark, e = .finished remark) ∧ (x.told = some .unanswered ↔ x.copies = 0) ∧
      (x.told = none ↔ 0 < x.copies) := by
  have htells := h.tells
  have hc : x.copies = x.promise.holders := by
    rw [copies, hg]
    rfl
  rw [ha] at htells
  rw [told_eq, hc]
  refine ⟨?_, ?_⟩
  · cases e with
    | finished remark => exact ⟨remark, rfl⟩
    | crashed c =>
      obtain ⟨before, after, hb, -⟩ := h.answers_of_crash hg
      rw [ha] at hb
      cases before <;> cases hb
  · rcases htells with ⟨hstage, hn⟩ | ⟨hstage, hn⟩ <;> rw [hstage]
    · exact ⟨iff_of_false (Option.some_ne_none _).symm (by omega), iff_of_true rfl hn⟩
    · exact ⟨iff_of_true rfl hn, iff_of_false (Option.some_ne_none _) (by omega)⟩

end Execution

end HeldReply
