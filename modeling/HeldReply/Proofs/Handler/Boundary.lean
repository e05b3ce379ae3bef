import HeldReply.Handler.Stock
import HeldReply.Proofs.Handler.Execution
import HeldReply.Proofs.Session.Turn

/-!
# The boundary around handlers

Nothing that a handler does breaks out of it.  Whatever it makes of a request, the request is ready or
refused as a bad one; and whatever it does with its callback, and however it ends, its listener is told
an outcome or waits for one that can still come.

* `Program.Owns` — programs that let go of no more copies of their callback than they keep;
* `Execution.Runs`, `Execution.runs_interpret`, `Execution.runs_execute` — **a desk executes a handler
  step by step**, with nobody else about;
* `WorkRule.owns` — the ready-made handlers are such programs;
* `Handler.boundary_holds` — **the boundary**;
* `Handler.copy_answers_first` — whoever has a copy may answer before the handler does.
-/

namespace HeldReply

/-! ### Copies of a callback -/

/-- A program that **owns** so many copies of its callback lets go of no more than these and those
that it keeps.  To a clean-up that it registers it hands over some of them. -/
inductive Program.Owns : Nat → Program → Prop
  | finish (n : Nat) (remark : String) : Owns n (.finish remark)
  | crash (n : Nat) (c : Crash) : Owns n (.crash c)
  | deliver {n : Nat} {o : Outcome} {next : Bool → Program} (h : ∀ first, Owns n (next first)) :
      Owns n (.deliver o next)
  | keep {n : Nat} {next : Program} (h : Owns (n + 1) next) : Owns n (.keep next)
  | release {n : Nat} {next : Program} (h : Owns n next) : Owns (n + 1) (.release next)
  | inspect {n : Nat} {next : View → Program} (h : ∀ v, Owns n (next v)) : Owns n (.inspect next)
  | register {k n : Nat} {cleanup : Program} {next : Bool → Program} (hc : Owns k cleanup)
      (h : ∀ queued, Owns n (next queued)) : Owns (k + n) (.register cleanup next)
  | dispose {n : Nat} {next : Bool → Program} (h : ∀ first, Owns n (next first)) :
      Owns n (.dispose next)
  | note {n : Nat} {text : String} {next : Program} (h : Owns n next) : Owns n (.note text next)

/-- Programs that own so many copies **together**. -/
inductive Program.OwnAll : Nat → List Program → Prop
  | nil : OwnAll 0 []
  | cons {k n : Nat} {p : Program} {ps : List Program} (h : p.Owns k) (hs : OwnAll n ps) :
      OwnAll (k + n) (p :: ps)

theorem Program.OwnAll.append {m n : Nat} {ps qs : List Program} (h : OwnAll m ps)
    (hq : OwnAll n qs) : OwnAll (m + n) (ps ++ qs) := by
  induction h with
  | nil =>
    rw [Nat.zero_add]
    exact hq
  | cons h _ ih =>
    rw [Nat.add_assoc]
    exact .cons h ih

theorem Program.OwnAll.reverse {n : Nat} {ps : List Program} (h : OwnAll n ps) :
    OwnAll n ps.reverse := by
  induction h with
  | nil => exact .nil
  | @cons k n p ps h _ ih =>
    rw [List.reverse_cons, Nat.add_comm]
    exact ih.append (.cons h .nil)

/-- What a clean-up does to the callback. -/
def Cleanup.work : Cleanup → Program
  | .program p => p
  | _ => .finish ""

/-- The program that does nothing but end. -/
def Ending.program : Ending → Program
  | .finished remark => .finish remark
  | .crashed c => .crash c

namespace Execution

variable {ω : Type} {name : String} {l l' l'' : Place} {p q r : Promise} {o : Outcome}

/-! ### A thread alone -/

/-- The thread gets **from one place to another** by itself, with nobody else about. -/
def Runs (name : String) (l : Place) (p : Promise) (l' : Place) (q : Promise) : Prop :=
  ∀ answers : List (Answerer × Outcome), (∀ a ∈ answers, a.1 ≠ .other) →
    ∃ answers', Reaches name ⟨l, false, p, answers⟩ ⟨l', false, q, answers'⟩ ∧
      ∀ a ∈ answers', a.1 ≠ .other

theorem Runs.refl : Runs name l p l p :=
  fun answers ha => ⟨answers, .refl, ha⟩

theorem Runs.trans (h : Runs name l p l' q) (k : Runs name l' q l'' r) : Runs name l p l'' r := by
  intro answers ha
  obtain ⟨answers', hr, ha'⟩ := h answers ha
  obtain ⟨answers'', hr', ha''⟩ := k answers' ha'
  exact ⟨answers'', hr.trans hr', ha''⟩

/-- A step in which nobody answers. -/
theorem Runs.of_step (h : ∀ answers, Step name ⟨l, false, p, answers⟩ ⟨l', false, q, answers⟩) :
    Runs name l p l' q :=
  fun answers ha => ⟨answers, .single (h answers), ha⟩

theorem Runs.move (h : Moves l l') : Runs name l p l' p :=
  .of_step fun _ => .move rfl h

/-- What ends a clean-up ends only the clean-up. -/
theorem Runs.next (e : Ending) (c : Program) (ws : List Program) :
    Runs name (.going e.program (c :: ws)) p (.going c ws) p := by
  cases e with
  | finished remark => exact .move (.returned remark c ws)
  | crashed k => exact .move (.crashed k c ws)

/-- **An answer of the thread**, with both its steps. -/
theorem Runs.answer {who : Answerer} (next : Bool → Place) (hu : p.inUse = 0) (hwho : who ≠ .other)
    (h : ∀ answers : List (Answerer × Outcome), Step name ⟨l, false, p, answers⟩
      (Execution.answer ⟨l, false, p, answers⟩ who o next)) :
    Runs name l p (next (p.deliver o).2) (p.deliver o).1 := by
  intro answers ha
  have ha' : ∀ a ∈ answers ++ [(who, o)], a.1 ≠ .other := by
    intro a hm
    rcases List.mem_append.1 hm with hm | hm
    · exact ha a hm
    · rw [List.mem_singleton.1 hm]
      exact hwho
  refine ⟨answers ++ [(who, o)], ?_, ha'⟩
  have hstep := h answers
  have hclaim := Promise.claim_cases p o
  rcases hclaim with ⟨-, hc⟩ | ⟨-, hc⟩
  · -- The answer counts, and its outcome is still to be sent.
    have hd : p.deliver o = (({ p with stage := .claimed o } : Promise).send, true) := by
      rw [Promise.deliver, hc]
    have hx : Execution.answer ⟨l, false, p, answers⟩ who o next =
        ⟨next true, true, { p with stage := .claimed o }, answers ++ [(who, o)]⟩ := by
      rw [Execution.answer, hc]
    rw [hx] at hstep
    rw [hd]
    exact (Relation.ReflTransGen.single hstep).tail (.send rfl)
  · have hd : p.deliver o = (p, false) := by
      rw [Promise.deliver, hc]
      exact congrArg (·, false) (send_of_inUse hu)
    have hx : Execution.answer ⟨l, false, p, answers⟩ who o next =
        ⟨next false, false, p, answers ++ [(who, o)]⟩ := by
      rw [Execution.answer, hc]
    rw [hx] at hstep
    rw [hd]
    exact .single hstep

/-! ### Desks -/

/-- A desk on which, beside the thread's own callback, so many copies are **at hand**, and those that
the queued clean-ups own; and no answer is on its way. -/
structure Funds (d : Desk ω) (n : Nat) : Prop where
  enough : ∃ k, Program.OwnAll k (d.scope.queue.map Cleanup.work) ∧ k + n < d.promise.holders
  idle : d.promise.inUse = 0

variable {d : Desk ω} {m n : Nat} {c : Program}

theorem Funds.weaken (h : Funds d (n + m)) : Funds d m := by
  obtain ⟨⟨k, hk, hn⟩, hu⟩ := h
  exact ⟨⟨k, hk, by omega⟩, hu⟩

theorem Funds.deliver (h : Funds d n) (o : Outcome) : Funds (d.deliver o).1 n := by
  obtain ⟨⟨k, hk, hn⟩, hu⟩ := h
  have hholders : (d.promise.deliver o).1.holders = d.promise.holders := by
    rcases Promise.claim_cases d.promise o with ⟨-, hc⟩ | ⟨-, hc⟩ <;>
      rw [Promise.deliver, hc] <;> exact holders_send _
  refine ⟨⟨k, hk, ?_⟩, inUse_send _⟩
  show k + n < (d.promise.deliver o).1.holders
  rw [hholders]
  exact hn

theorem Funds.keep (h : Funds d n) : Funds d.keep (n + 1) := by
  obtain ⟨⟨k, hk, hn⟩, hu⟩ := h
  refine ⟨⟨k, hk, ?_⟩, hu⟩
  show k + (n + 1) < d.promise.holders + 1
  omega

theorem Funds.release (h : Funds d (n + 1)) : Funds d.release n := by
  obtain ⟨⟨k, hk, hn⟩, hu⟩ := h
  refine ⟨⟨k, hk, ?_⟩, (inUse_release _).trans hu⟩
  show k + n < d.promise.release.holders
  rw [holders_release]
  omega

/-- A clean-up takes its copies with it into the queue. -/
theorem Funds.push {k : Nat} (h : Funds d (k + n)) (hc : c.Owns k) :
    Funds (d.push (.program c)) n := by
  obtain ⟨⟨j, hj, hn⟩, hu⟩ := h
  refine ⟨⟨j + (k + 0), ?_, ?_⟩, hu⟩
  · have happ := hj.append (.cons hc .nil)
    rw [Desk.push, Scope.push, List.map_append]
    exact happ
  · show j + (k + 0) + n < d.promise.holders
    omega

variable [Surroundings ω]

/-- A way to dispose of a scope that **the thread can follow**, with copies to spare. -/
def Follows (name : String) (dispose : Desk ω → Desk ω × Bool) : Prop :=
  ∀ (d : Desk ω) (n : Nat) (next : Bool → Program) (ws : List Program), Funds d n →
    Runs name (.going (.dispose next) ws) d.promise
      (.going (next (dispose d).2) ws) (dispose d).1.promise ∧ Funds (dispose d).1 n

/-- **A program is run step by step**, by the rules by which it owns its copies. -/
theorem runs_interpret {dispose : Desk ω → Desk ω × Bool} (hd : Follows name dispose)
    (hc : c.Owns n) (hf : Funds d (n + m)) (ws : List Program) :
    Runs name (.going c ws) d.promise
      (.going (Desk.interpret dispose c d).2.program ws) (Desk.interpret dispose c d).1.promise ∧
    Funds (Desk.interpret dispose c d).1 m := by
  induction hc generalizing d m ws with
  | finish n remark => exact ⟨.refl, hf.weaken⟩
  | crash n k => exact ⟨.refl, hf.weaken⟩
  | @deliver n o next _ ih =>
    have hrun : Runs name (.going (.deliver o next) ws) d.promise
        (.going (next (d.deliver o).2) ws) (d.deliver o).1.promise :=
      Runs.answer (fun first => .going (next first) ws) hf.idle Answerer.noConfusion
        fun _ => .deliver rfl rfl
    obtain ⟨hr, hend⟩ := ih (d.deliver o).2 (hf.deliver o) ws
    exact ⟨hrun.trans hr, hend⟩
  | @keep n next _ ih =>
    have hrun : Runs name (.going (.keep next) ws) d.promise (.going next ws) d.keep.promise :=
      .of_step fun _ => .keep rfl rfl
    have hf' : Funds d.keep (n + 1 + m) := by
      rw [Nat.add_right_comm]
      exact hf.keep
    obtain ⟨hr, hend⟩ := ih hf' ws
    exact ⟨hrun.trans hr, hend⟩
  | @release n next _ ih =>
    have hf' : Funds d (n + m + 1) := by
      rw [Nat.add_right_comm]
      exact hf
    have hspare (answers : List (Answerer × Outcome)) :
        copiesInUse ⟨.going (.release next) ws, false, d.promise, answers⟩ <
          copies ⟨.going (.release next) ws, false, d.promise, answers⟩ := by
      obtain ⟨⟨k, -, hn⟩, hu⟩ := hf'
      show d.promise.inUse < d.promise.holders - 1
      omega
    have hrun : Runs name (.going (.release next) ws) d.promise (.going next ws)
        d.release.promise := .of_step fun answers => .release rfl rfl (hspare answers)
    obtain ⟨hr, hend⟩ := ih hf'.release ws
    exact ⟨hrun.trans hr, hend⟩
  | @inspect n next _ ih =>
    obtain ⟨hr, hend⟩ := ih d.view hf ws
    exact ⟨(Runs.move (.inspect next ws d.view)).trans hr, hend⟩
  | @register k n cleanup next hc _ ihc ihn =>
    rw [Nat.add_assoc] at hf
    simp only [Desk.interpret]
    split
    -- The clean-up is run at once, with its copies; what is left of them goes unused.
    · obtain ⟨hr, hrest⟩ := ihc hf (next false :: ws)
      obtain ⟨hr', hend⟩ := ihn false hrest ws
      have hlate : Runs name (.going (.register cleanup next) ws) d.promise
          (.going cleanup (next false :: ws)) d.promise := .move (.late cleanup next ws)
      exact ⟨((hlate.trans hr).trans (.next _ (next false) ws)).trans hr', hend⟩
    · obtain ⟨hr, hend⟩ := ihn true (hf.push hc) ws
      have hqueue : Runs name (.going (.register cleanup next) ws) d.promise
          (.going (next true) ws) d.promise := .move (.queue cleanup next ws)
      exact ⟨hqueue.trans hr, hend⟩
  | @dispose n next _ ih =>
    obtain ⟨hr, hf'⟩ := hd d (n + m) next ws hf
    obtain ⟨hr', hend⟩ := ih (dispose d).2 hf' ws
    exact ⟨hr.trans hr', hend⟩
  | @note n text next _ ih =>
    have hf' : Funds (d.note text) (n + m) := ⟨hf.enough, hf.idle⟩
    obtain ⟨hr, hend⟩ := ih hf' ws
    exact ⟨(Runs.move (.note text next ws)).trans hr, hend⟩

/-- **Clean-ups are run step by step**, one after the other, each with its copies. -/
theorem runs_cleanups {k : Nat} {cleanups : List Cleanup}
    (hc : Program.OwnAll k (cleanups.map Cleanup.work)) (hf : Funds d (k + m)) (e : Ending)
    (rest : Program) (ws : List Program) :
    Runs name (.going e.program (cleanups.map Cleanup.work ++ rest :: ws)) d.promise
      (.going rest ws) (cleanups.foldl Desk.runCleanup d).promise ∧
    Funds (cleanups.foldl Desk.runCleanup d) m := by
  have hidle : Follows name fun d : Desk ω => (d, false) :=
    fun d n next ws hf => ⟨.move (.disposed next ws), hf⟩
  induction cleanups generalizing d k e with
  | nil => exact ⟨.next e rest ws, hf.weaken⟩
  | cons cleanup cleanups ih =>
    rw [List.map_cons] at hc
    cases hc with
    | @cons j n _ _ hj hn =>
      rw [Nat.add_assoc] at hf
      let after := cleanups.map Cleanup.work ++ rest :: ws
      have hone : ∃ e' : Ending, Runs name (.going cleanup.work after) d.promise
          (.going e'.program after) (d.runCleanup cleanup).promise ∧
          Funds (d.runCleanup cleanup) (n + m) := by
        cases cleanup with
        | closeLink => exact ⟨.finished "", .refl, ⟨hf.weaken.enough, hf.idle⟩⟩
        | cancelBeat => exact ⟨.finished "", .refl, ⟨hf.weaken.enough, hf.idle⟩⟩
        | program c => exact ⟨_, runs_interpret hidle hj hf after⟩
      obtain ⟨e', hr, hf'⟩ := hone
      obtain ⟨hr', hend⟩ := ih hn hf' e'
      exact ⟨((Runs.next e cleanup.work after).trans hr).trans hr', hend⟩

/-- **A disposal** is followed step by step. -/
theorem follows_dispose (name : String) : Follows name fun d : Desk ω => d.dispose := by
  intro d n next ws hf
  rcases d.begin_cases with ⟨-, hb⟩ | ⟨-, hb⟩
  · simp only [Desk.dispose, hb]
    exact ⟨.move (.disposed next ws), hf⟩
  · obtain ⟨⟨k, hk, hn⟩, hu⟩ := hf
    have hall : Program.OwnAll k (d.scope.queue.reverse.map Cleanup.work) := by
      rw [List.map_reverse]
      exact hk.reverse
    -- The queue is empty now, and its copies are at hand.
    have hf' : Funds { d with scope := { d.scope with
        flag := { d.scope.flag with raised := true }, queue := [] } } (k + n) :=
      ⟨⟨0, .nil, by show 0 + (k + n) < d.promise.holders; omega⟩, hu⟩
    simp only [Desk.dispose, hb]
    obtain ⟨hr, hend⟩ := runs_cleanups hall hf' (.finished "") (next true) ws
    exact ⟨(Runs.move (.dispose next ws _)).trans hr, ⟨hend.enough, hend.idle⟩⟩

/-- **A handler's program is executed step by step**: what the desk executes at once is what the thread
does with nobody else about. -/
theorem runs_execute (name : String) (hc : c.Owns n) (hf : Funds d n) :
    Runs name (.going c []) d.promise (.gone (d.execute name c).2)
      (d.execute name c).1.promise := by
  obtain ⟨hrun, hend⟩ := runs_interpret (m := 0) (follows_dispose name) hc hf []
  have hi : Desk.interpret Desk.dispose c d = d.run c := rfl
  rw [hi] at hrun hend
  rw [Desk.execute]
  generalize d.run c = result at hrun hend ⊢
  obtain ⟨f, e⟩ := result
  have hleave (e : Ending) (q : Promise) :
      Runs name (.leaving e) q (.gone e) q.release := .of_step fun _ => .leave rfl rfl
  cases e with
  | finished remark => exact (hrun.trans (.move (.finish remark))).trans (hleave _ _)
  | crashed k =>
    have hanswer : Runs name (.going (.crash k) []) f.promise (.leaving (.crashed k))
        (f.promise.deliver (.error (Desk.crashed name k))).1 :=
      Runs.answer (fun _ => .leaving (.crashed k)) hend.idle Answerer.noConfusion
        fun _ => .crash rfl rfl
    exact (hrun.trans hanswer).trans (hleave _ _)

end Execution

/-- **The ready-made handlers** own the copies that they let go of. -/
theorem WorkRule.owns (rule : WorkRule) (remark : String) (params : Json) :
    (rule.program remark params).Owns 0 := by
  have hanswer (o : Outcome) : (WorkRule.answer o remark).Owns 0 :=
    .deliver fun _ => .finish 0 remark
  cases rule with
  | echo => exact hanswer _
  | sum => exact hanswer _
  | value v => exact hanswer _
  | deliver o => exact hanswer o
  | crash c => exact .crash 0 c
  | echoCrash c => exact .deliver fun _ => .crash 0 c
  | drop => exact .finish 0 remark
  | thrice => exact .deliver fun _ => .deliver fun _ => .deliver fun _ => .finish 0 _
  | look => exact .inspect fun _ => hanswer _
  | hang =>
    have hcleanup : Program.Owns 1
        (.deliver (.ok (.text "too late")) fun _ => .release (.finish "")) :=
      .deliver fun _ => .release (.finish 0 "")
    exact .keep (.register (k := 1) (n := 0) hcleanup fun _ => .finish 0 remark)
  | dispose => exact .dispose fun _ => hanswer _
  | later => exact .keep (.finish 1 remark)

/-- **What comes of making a request ready**, with the reason in full if it is refused. -/
theorem Handler.prepare_tells (h : Handler) (name : String) (request : Json) :
    (∃ program, h request = .read program ∧ h.prepare name request = .ok { name, program }) ∨
    (∃ text, h request = .refused (.badRequest text) ∧
      h.prepare name request = .error (.badRequest text)) ∨
    (∃ f, h request = .refused f ∧ (∀ text, f ≠ .badRequest text) ∧
      h.prepare name request = .error (.badRequest (name ++ " 请求参数无效: " ++ f.message))) ∨
    (∃ c, h request = .crashed c ∧ h.prepare name request =
      .error (.badRequest ("解析 " ++ name ++ " 请求时发生 panic: " ++ c.message))) := by
  cases hr : h request with
  | read program => exact .inl ⟨program, rfl, by rw [prepare, hr]⟩
  | refused f =>
    right
    by_cases hf : ∃ text, f = .badRequest text
    · obtain ⟨text, rfl⟩ := hf
      exact .inl ⟨text, rfl, by rw [prepare, hr]⟩
    · refine .inr (.inl ⟨f, rfl, fun text he => hf ⟨text, he⟩, ?_⟩)
      rw [prepare, hr]
      cases f with
      | badRequest text => exact absurd ⟨text, rfl⟩ hf
      | _ => rfl
  | crashed c => exact .inr (.inr (.inr ⟨c, rfl, by rw [prepare, hr]⟩))

/-- **The boundary holds.**  Whatever a handler makes of a request, the request is ready or refused as
a bad one: a text that says so stands as it is, and every other reason and every crash is told with the
name of the handler.  And whatever the program of a request does with its callback, with others going
on as they like beside it, once the thread that executes it is gone:

* if the first answer is the handler's, the listener is told it, even if the handler crashed
  afterwards;
* if the handler crashed, it was answered for with the text of the crash, after all of its own answers;
  and this is what the listener is told if neither it nor anybody with a copy answered before;
* if the first answer is that of somebody with a copy, the listener is told it as soon as it is sent,
  and nothing else;
* if nobody answered, the handler returned, and the listener is told that there was no answer just if
  no copy is left, and has to wait just as long as there is one.

What a desk executes in one go is such an execution, with nobody else about. -/
theorem Handler.boundary_holds (h : Handler) (name : String) (request : Json) :
    ((∃ program, h request = .read program ∧ h.prepare name request = .ok { name, program }) ∨
      (∃ text, h request = .refused (.badRequest text) ∧
        h.prepare name request = .error (.badRequest text)) ∨
      (∃ f, h request = .refused f ∧ (∀ text, f ≠ .badRequest text) ∧
        h.prepare name request = .error (.badRequest (name ++ " 请求参数无效: " ++ f.message))) ∨
      (∃ c, h request = .crashed c ∧ h.prepare name request =
        .error (.badRequest ("解析 " ++ name ++ " 请求时发生 panic: " ++ c.message)))) ∧
    ∀ p, h.prepare name request = .ok p →
      (∀ x e, Execution.Reaches p.name (Execution.start p.program) x → x.place = .gone e →
        (∀ o later, x.answers = (.handler, o) :: later → x.told = some o) ∧
        (∀ c, e = .crashed c → ∃ before after,
          x.answers = before ++ (.guard, .error (Desk.crashed p.name c)) :: after ∧
          (∀ a ∈ before, a.1 ≠ .guard) ∧ (∀ a ∈ after, a.1 = .other) ∧
          (before = [] → x.told = some (.error (Desk.crashed p.name c)))) ∧
        (∀ o later, x.answers = (.other, o) :: later →
          x.told = some o ∨ x.told = none ∧ 0 < x.copies) ∧
        (x.answers = [] → (∃ remark, e = .finished remark) ∧
          (x.told = some .unanswered ↔ x.copies = 0) ∧ (x.told = none ↔ 0 < x.copies))) ∧
      ∀ {ω : Type} [Surroundings ω] (d : Desk ω), d.promise = {} →
        Program.OwnAll 0 (d.scope.queue.map Cleanup.work) → p.program.Owns 0 →
        ∃ x, Execution.Reaches p.name (Execution.start p.program) x ∧
          x.place = .gone (d.execute p.name p.program).2 ∧
          x.promise = (d.execute p.name p.program).1.promise ∧ ∀ a ∈ x.answers, a.1 ≠ .other := by
  refine ⟨h.prepare_tells name request, fun p _ => ⟨fun x e hx hg => ?_, fun d hd hq hp => ?_⟩⟩
  · have hsound := Execution.sound_of_reaches hx
    refine ⟨fun o later ha => (hsound.told_first hg ha).1 Answerer.noConfusion, fun c he => ?_,
      fun o later ha => (hsound.told_first hg ha).2, hsound.told_of_silence hg⟩
    rw [he] at hg
    obtain ⟨before, after, ha, hbefore, hafter⟩ := hsound.answers_of_crash hg
    refine ⟨before, after, ha, hbefore, hafter, fun hb => ?_⟩
    rw [hb] at ha
    exact (hsound.told_first hg ha).1 Answerer.noConfusion
  · have hfunds : Execution.Funds d 0 := by
      refine ⟨⟨0, hq, ?_⟩, ?_⟩ <;> rw [hd]
      · exact Nat.one_pos
      · rfl
    have hrun := Execution.runs_execute p.name hp hfunds
    rw [hd] at hrun
    obtain ⟨answers, hr, ha⟩ := hrun [] fun a ha => absurd ha List.not_mem_nil
    exact ⟨_, hr, rfl, rfl, ha⟩

/-- A handler hands over a copy, answers and crashes.  Somebody with the copy answers between the two
steps of the answer, and lets go of it in the end.  And a desk executes the handler in the same way, with
nobody else about. -/
theorem Handler.boundary_holds_beside_late_answer :
    (∃ x, Execution.Reaches "job" (Execution.start
        (.keep (.deliver (.ok .null) fun _ => .crash (.text "boom")))) x ∧
      x.place = .gone (.crashed (.text "boom")) ∧
      x.answers = [(.handler, .ok .null), (.other, .ok (.bool true)),
        (.guard, .error (.handlerFailed "job 处理器发生 panic: boom"))] ∧
      x.told = some (.ok .null)) ∧
    ∃ x, Execution.Reaches "job" (Execution.start
        (.keep (.deliver (.ok .null) fun _ => .crash (.text "boom")))) x ∧
      x.place = .gone (.crashed (.text "boom")) ∧
      x.promise.stage = .sent (.ok .null) ∧ ∀ a ∈ x.answers, a.1 ≠ .other := by
  let program : Program := .keep (.deliver (.ok .null) fun _ => .crash (.text "boom"))
  obtain ⟨-, hready⟩ := Handler.boundary_holds (fun _ => .read program) "job" .null
  obtain ⟨hreached, hexecuted⟩ := hready ⟨"job", program⟩ rfl
  constructor
  · have hstart : Execution.Reaches "job" (Execution.start program) (Execution.start program) :=
      .refl
    have hanswer := (hstart.tail (.keep rfl rfl)).tail (.deliver rfl rfl)
    have hlate := (hanswer.tail (.otherClaim (.ok (.bool true)) (by decide))).tail (.send rfl)
    have hgone := (hlate.tail (.crash rfl rfl)).tail (.leave rfl rfl)
    have hx := hgone.tail (.otherRelease (by decide))
    have htold := (hreached _ (.crashed (.text "boom")) hx rfl).1 (.ok .null) _ rfl
    exact ⟨_, hx, rfl, rfl, htold⟩
  · let d : Desk Unit := { scope := { id := 1, label := "toolbox:job" }, around := () }
    have howns : program.Owns 0 := .keep (.deliver fun _ => .crash 1 _)
    obtain ⟨x, hx, hplace, hpromise, hanswers⟩ := hexecuted d rfl .nil howns
    refine ⟨x, hx, hplace, ?_, hanswers⟩
    rw [hpromise]
    rfl

/-- **A copy answers first.**  Somebody with a copy answers before the handler does, and the listener is
told that and not the handler's first answer.  Or the handler never answers, and by the time it returns
no copy is left; but the listener is told what the copy answered, and not that there was no answer. -/
theorem Handler.copy_answers_first :
    (∃ x, Execution.Reaches "job" (Execution.start
        (.keep (.deliver (.ok (.bool true)) fun _ => .finish ""))) x ∧
      x.place = .gone (.finished "") ∧
      x.answers = [(.other, .ok .null), (.handler, .ok (.bool true))] ∧
      x.told = some (.ok .null) ∧ x.told ≠ some (.ok (.bool true))) ∧
    ∃ x, Execution.Reaches "job" (Execution.start (.keep (.finish ""))) x ∧
      x.place = .gone (.finished "") ∧ x.answers = [(.other, .ok .null)] ∧ x.copies = 0 ∧
      x.told = some (.ok .null) ∧ x.told ≠ some .unanswered := by
  have hnot {told : Option Outcome} {o : Outcome} (ht : told = some (.ok .null))
      (ho : .ok .null ≠ o) : told ≠ some o := by
    rw [ht]
    exact fun he => ho (Option.some.inj he)
  constructor
  · have hkeep : Execution.Reaches "job" (Execution.start
        (.keep (.deliver (.ok (.bool true)) fun _ => .finish ""))) _ := .single (.keep rfl rfl)
    have hother := (hkeep.tail (.otherClaim (.ok .null) (by decide))).tail (.otherSend rfl)
    have hhandler := (hother.tail (.deliver rfl rfl)).tail (.move rfl (.finish ""))
    have hx := hhandler.tail (.leave rfl rfl)
    exact ⟨_, hx, rfl, rfl, rfl, hnot rfl fun he => nomatch he⟩
  · have hkeep : Execution.Reaches "job" (Execution.start (.keep (.finish ""))) _ :=
      .single (.keep rfl rfl)
    have hother := (hkeep.tail (.otherClaim (.ok .null) (by decide))).tail (.otherSend rfl)
    have hgone := (hother.tail (.otherRelease (by decide))).tail (.move rfl (.finish ""))
    have hx := hgone.tail (.leave rfl rfl)
    exact ⟨_, hx, rfl, rfl, rfl, rfl, hnot rfl nofun⟩

end HeldReply
