import HeldReply.Proofs.Scope.Vigil
import HeldReply.Proofs.Scope.Worlds
import HeldReply.Proofs.Setters
import Mathlib.Logic.Function.Basic

/-!
# Many threads in a world of scopes

Any number of threads create scopes, register clean-ups and dispose of scopes at the same time; each
has calls in progress of its own, and goes on with them step by step while the others do the same.
Meanwhile anybody waits for scopes to be disposed of.  Here the flag of a scope goes up and its
queue is taken in one step; the steps in between, and the lock, are those of a `Vigil`.

* `Scope.flagAt` — the flag of a scope by number;
* `World.drainAt`, `World.Effect` — the disposal at some depth among the calls of a thread, and
  **what a step does to flags and disposals**;
* `Crew`, `Crew.after` — scopes among threads, and what becomes of them;
* `Crew.setBy` — **only the disposal that raises a flag calls the waiters**, and it does so once;
* `Crew.seenBy_after` — with one thread, it is a world;
* `wakes_each_once` — **nobody waits in vain**, for a flag or for a scope.
-/

namespace HeldReply

namespace Scope

variable {κ : Type} {scopes : List (Scope κ)} {f : Scope κ → Scope κ} {i j : Nat}

/-- The **flag of a scope** by number; for a number without a scope, one that nobody has used. -/
def flagAt (scopes : List (Scope κ)) (i : Nat) : Flag :=
  (scopes[i]?.map Scope.flag).getD {}

theorem flagAt_modify_ne (h : i ≠ j) : flagAt (scopes.modify j f) i = flagAt scopes i := by
  rw [flagAt, List.getElem?_modify_ne _ _ h.symm, flagAt]

theorem flagAt_modify_self (φ : Flag → Flag) (hf : ∀ s, (f s).flag = φ s.flag)
    (hj : j < scopes.length) : flagAt (scopes.modify j f) j = φ (flagAt scopes j) := by
  rw [flagAt, List.getElem?_modify_eq, flagAt, List.getElem?_eq_getElem hj]
  exact hf _

/-- A change that keeps the flag of each scope. -/
theorem flagAt_modify (hf : ∀ s, (f s).flag = s.flag) :
    flagAt (scopes.modify j f) i = flagAt scopes i := by
  by_cases hij : i = j
  · subst hij
    rw [flagAt, List.getElem?_modify_eq, flagAt]
    cases scopes[i]? with
    | none => rfl
    | some s => exact hf s
  · exact flagAt_modify_ne hij

/-- A scope that is new: its flag is one that nobody has used. -/
theorem flagAt_concat {s : Scope κ} (hs : s.flag = {}) :
    flagAt (scopes ++ [s]) i = flagAt scopes i := by
  obtain hlt | hge := Nat.lt_or_ge i scopes.length
  · rw [flagAt, List.getElem?_append_left hlt, flagAt]
  · rw [flagAt, List.getElem?_append_right hge, flagAt, List.getElem?_eq_none hge]
    cases i - scopes.length with
    | zero => exact hs
    | succ n => rfl

theorem lt_of_flagAt_raised (h : (flagAt scopes i).raised = true) : i < scopes.length := by
  by_contra hi
  rw [flagAt, List.getElem?_eq_none (Nat.le_of_not_lt hi)] at h
  cases h

end Scope

namespace World

variable {w v : World} {i n : Nat} {f : Frame} {rest : List Frame}

/-! ### What a step does to flags and disposals -/

/-- The **disposal at a depth** among calls; the outermost call is at depth zero. -/
def drainAt (stack : List Frame) (n : Nat) : Option Nat :=
  stack.reverse[n]?.bind Frame.drained?

theorem drainAt_of_length_le (h : rest.length ≤ n) : drainAt rest n = none := by
  rw [drainAt, List.getElem?_eq_none (by simpa using h), Option.bind_none]

/-- One call more: all the others stay at their depths. -/
theorem drainAt_cons (f : Frame) (rest : List Frame) :
    drainAt (f :: rest) = Function.update (drainAt rest) rest.length f.drained? := by
  funext n
  rw [drainAt, List.reverse_cons]
  obtain hlt | rfl | hgt := Nat.lt_trichotomy n rest.length
  · rw [List.getElem?_append_left (by simpa using hlt), Function.update_of_ne (Nat.ne_of_lt hlt),
      drainAt]
  · simp
  · rw [List.getElem?_eq_none (by simp; omega), Function.update_of_ne (Nat.ne_of_gt hgt),
      drainAt_of_length_le (Nat.le_of_lt hgt), Option.bind_none]

/-- A call that is no disposal. -/
theorem drainAt_of_drained? (hf : f.drained? = none) : drainAt (f :: rest) = drainAt rest := by
  rw [drainAt_cons, hf, ← drainAt_of_length_le (Nat.le_refl rest.length), Function.update_eq_self]

@[simp]
theorem drainAt_body (as : List Action) (rest : List Frame) :
    drainAt (.body as :: rest) = drainAt rest :=
  drainAt_of_drained? rfl

@[simp]
theorem drainAt_note (text : String) (rest : List Frame) :
    drainAt (.note text :: rest) = drainAt rest :=
  drainAt_of_drained? rfl

/-- **What a step does** to the scopes and to the disposals in progress. -/
inductive Effect (w v : World) : Prop
  | still (hf : ∀ i, Scope.flagAt v.scopes i = Scope.flagAt w.scopes i)
      (hd : drainAt v.stack = drainAt w.stack)
  /-- Somebody who waits for a scope does something. -/
  | ask (j : Nat) (q : Flag.Ask)
      (hs : v.scopes = w.scopes.modify j fun s => { s with flag := s.flag.ask q })
      (hd : drainAt v.stack = drainAt w.stack)
  /-- A disposal begins. -/
  | raise (j n : Nat) {s : Scope (List Action)} (hj : w.scopes[j]? = some s)
      (hdown : s.isDisposed = false) (hs : v.scopes = w.scopes.modify j Scope.shut)
      (hnew : drainAt w.stack n = none)
      (hd : drainAt v.stack = Function.update (drainAt w.stack) n (some j))
  /-- A disposal ends. -/
  | call (j n : Nat) (hn : drainAt w.stack n = some j)
      (hs : v.scopes = w.scopes.modify j Scope.announce)
      (hd : drainAt v.stack = Function.update (drainAt w.stack) n none)

/-- **What a step of a call does.** -/
theorem Moves.effect (hm : Moves w v) : Effect w v := by
  cases hm with
  | note hs | leave hs _ | log hs _ | here hs _ _ =>
    refine .still (fun _ => rfl) ?_
    simp [hs]
  | next hs =>
    refine .still (fun _ => rfl) ?_
    rw [hs, drainAt_body, drainAt_cons, drainAt_cons]
    rfl
  | push hs _ =>
    refine .still (fun _ => Scope.flagAt_modify fun _ => rfl) ?_
    simp [hs]
  | @announce i rest hs =>
    refine .call i rest.length ?_ rfl ?_
    · rw [hs, drainAt_cons, Function.update_self]
      rfl
    · rw [hs, drainAt_cons, Function.update_idem, ← drainAt_of_length_le (Nat.le_refl rest.length),
        Function.update_eq_self]
      rfl
  | @shut i as rest s hs hi hd =>
    refine .raise i (rest.length + 2) hi hd rfl ?_ ?_
    · rw [hs, drainAt_body, drainAt_of_length_le (Nat.le_add_right _ _)]
    · rw [hs, drainAt_cons, drainAt_note, drainAt_body, drainAt_body]
      rfl

/-- **What any deed does.** -/
theorem effect_deed (w : World) (d : Deed) : Effect w (w.deed d) := by
  cases d with
  | create label => exact .still (fun _ => Scope.flagAt_concat rfl) rfl
  | register i body =>
    show Effect w (if w.stack.isEmpty then w.beginRegister i body else w)
    unfold beginRegister
    split
    · split
      · exact .still (fun _ => rfl) (drainAt_body body w.stack)
      · exact .still (fun _ => Scope.flagAt_modify fun _ => rfl) rfl
    · exact .still (fun _ => rfl) rfl
  | dispose i =>
    show Effect w (if w.stack.isEmpty then w.beginDispose i else w)
    split
    · obtain ⟨s, hi, hd, hw⟩ | ⟨-, hw⟩ := w.beginDispose_cases i
      · rw [hw]
        exact .raise i w.stack.length hi hd rfl (drainAt_of_length_le (Nat.le_refl _))
          (drainAt_cons _ _)
      · rw [hw]
        exact .still (fun _ => rfl) rfl
    · exact .still (fun _ => rfl) rfl
  | proceed =>
    show Effect w (w.step.getD w)
    cases hv : w.step with
    | none => exact .still (fun _ => rfl) rfl
    | some v => exact (moves_of_step hv).effect
  | ask i q => exact .ask i q rfl rfl

end World

/-! ### Scopes among threads -/

/-- **Scopes among threads**: the scopes and the log are shared, and each thread has calls in
progress of its own. -/
structure Crew where
  scopes : List (Scope (List Action)) := []
  log : List String := []
  calls : Nat → List World.Frame := fun _ => []

namespace Crew

variable {c : Crew} {i t : Nat}

/-- The world as a thread **sees** it. -/
def seenBy (c : Crew) (t : Nat) : World :=
  { scopes := c.scopes, log := c.log, stack := c.calls t }

/-- A thread **does** something. -/
def deed (c : Crew) (d : Nat × World.Deed) : Crew :=
  let w := (c.seenBy d.1).deed d.2
  { scopes := w.scopes, log := w.log, calls := Function.update c.calls d.1 w.stack }

/-- The scopes and threads **after** several deeds, from none. -/
def after (ds : List (Nat × World.Deed)) : Crew :=
  ds.foldl deed {}

theorem after_concat (ds : List (Nat × World.Deed)) (d : Nat × World.Deed) :
    after (ds ++ [d]) = (after ds).deed d :=
  List.foldl_append

/-- The flag of a scope. -/
def flag (c : Crew) (i : Nat) : Flag :=
  Scope.flagAt c.scopes i

/-- A call of a thread, given by its depth, **disposes of a scope**. -/
def Owes (c : Crew) (i : Nat) (x : Nat × Nat) : Prop :=
  World.drainAt (c.calls x.1) x.2 = some i

instance (c : Crew) (i : Nat) (x : Nat × Nat) : Decidable (c.Owes i x) :=
  inferInstanceAs (Decidable (_ = some i))

/-- What the thread that does something disposes of after that, and what the others do. -/
theorem owes_deed (c : Crew) (d : Nat × World.Deed) (y : Nat × Nat) :
    (c.deed d).Owes i y ↔
      if y.1 = d.1 then World.drainAt ((c.seenBy d.1).deed d.2).stack y.2 = some i
      else c.Owes i y := by
  unfold Owes deed
  by_cases hy : y.1 = d.1
  · simp [hy]
  · simp [hy]

/-- The disposal at one depth changes. -/
theorem owes_update {d : Nat × World.Deed} {n : Nat} {o : Option Nat}
    (hd : World.drainAt ((c.seenBy d.1).deed d.2).stack
      = Function.update (World.drainAt (c.calls d.1)) n o) (y : Nat × Nat) :
    (c.deed d).Owes i y ↔ (y = (d.1, n) ∧ o = some i) ∨ (y ≠ (d.1, n) ∧ c.Owes i y) := by
  rw [owes_deed, hd]
  obtain ⟨u, m⟩ := y
  by_cases hu : u = d.1
  · subst hu
    by_cases hm : m = n <;> simp [hm, Owes]
  · simp [hu]

/-- No call begins or ends a disposal of this scope. -/
theorem owes_iff_of_ne {d : Nat × World.Deed} {n : Nat} {o : Option Nat}
    (hd : World.drainAt ((c.seenBy d.1).deed d.2).stack
      = Function.update (World.drainAt (c.calls d.1)) n o) (ho : o ≠ some i)
    (hn : World.drainAt (c.calls d.1) n ≠ some i) (y : Nat × Nat) :
    (c.deed d).Owes i y ↔ c.Owes i y := by
  rw [owes_update hd]
  constructor
  · rintro (⟨-, h⟩ | ⟨-, h⟩)
    · exact absurd h ho
    · exact h
  · intro h
    refine .inr ⟨?_, h⟩
    rintro rfl
    exact hn h

theorem owes_iff_of_stack {d : Nat × World.Deed}
    (hd : World.drainAt ((c.seenBy d.1).deed d.2).stack = World.drainAt (c.calls d.1))
    (y : Nat × Nat) : (c.deed d).Owes i y ↔ c.Owes i y := by
  rw [owes_deed, hd]
  split
  · rename_i hy
    rw [← hy, Owes]
  · exact Iff.rfl

/-- The flag stays as it is, and so do the disposals of the scope. -/
theorem effect_of_flag {acts : Nat × Nat → Prop} {e : Crew}
    (hf : e.flag i = c.flag i) (ho : ∀ y, e.Owes i y ↔ c.Owes i y) :
    Flag.Effect acts (c.Owes i) (e.Owes i) (c.flag i) (e.flag i) :=
  hf ▸ .still ho

/-- **What a thread does** to a scope. -/
theorem effect_deed (c : Crew) (d : Nat × World.Deed) (howed : Flag.Owed (c.Owes i) (c.flag i)) :
    Flag.Effect (fun x => x.1 = d.1) (c.Owes i) ((c.deed d).Owes i) (c.flag i)
      ((c.deed d).flag i) := by
  have he := (c.seenBy d.1).effect_deed d.2
  cases he with
  | still hf hd => exact effect_of_flag (hf i) (owes_iff_of_stack hd)
  | ask j q hs hd =>
    have ho := owes_iff_of_stack (i := i) hd
    have hflag : (c.deed d).flag i = Scope.flagAt (c.scopes.modify j _) i :=
      congrArg (Scope.flagAt · i) hs
    by_cases hij : i = j
    · subst hij
      obtain hlt | hge := Nat.lt_or_ge i c.scopes.length
      · rw [hflag, Scope.flagAt_modify_self (fun f => f.ask q) (fun _ => rfl) hlt]
        exact .ask q ho
      · refine effect_of_flag ?_ ho
        rw [hflag, List.modify_eq_self hge, flag]
    · exact effect_of_flag (hflag.trans (Scope.flagAt_modify_ne hij)) ho
  | raise j n hj hdown hs hnew hd =>
    have hflag : (c.deed d).flag i = Scope.flagAt (c.scopes.modify j Scope.shut) i :=
      congrArg (Scope.flagAt · i) hs
    by_cases hij : i = j
    · subst hij
      have hlt : i < c.scopes.length := (List.getElem?_eq_some_iff.1 hj).1
      have hdown : (c.flag i).raised = false := by
        rw [flag, Scope.flagAt, show c.scopes[i]? = some _ from hj]
        exact hdown
      rw [hflag, Scope.flagAt_modify_self (fun f => f.raise.1) (fun _ => rfl) hlt]
      refine .raise (x := (d.1, n)) rfl hdown fun y => ?_
      rw [owes_update hd]
      by_cases hy : y = (d.1, n) <;> simp [hy]
    · refine effect_of_flag (hflag.trans (Scope.flagAt_modify_ne hij))
        (owes_iff_of_ne hd (fun h => hij (Option.some.inj h).symm) ?_)
      rw [show World.drainAt (c.calls d.1) n = none from hnew]
      exact fun h => (by cases h)
  | call j n hn hs hd =>
    have hflag : (c.deed d).flag i = Scope.flagAt (c.scopes.modify j Scope.announce) i :=
      congrArg (Scope.flagAt · i) hs
    by_cases hij : i = j
    · subst hij
      have howes : c.Owes i (d.1, n) := hn
      -- Only a scope that there is has a flag that is up.
      have hlt := Scope.lt_of_flagAt_raised (howed.exists_iff.1 ⟨_, howes⟩).1
      rw [hflag, Scope.flagAt_modify_self Flag.call (fun _ => rfl) hlt]
      refine .call rfl howes fun y => ?_
      rw [owes_update hd]
      by_cases hy : y = (d.1, n) <;> simp [hy]
    · refine effect_of_flag (hflag.trans (Scope.flagAt_modify_ne hij))
        (owes_iff_of_ne hd (fun h => (by cases h)) ?_)
      rw [show World.drainAt (c.calls d.1) n = some j from hn]
      exact fun h => hij (Option.some.inj h).symm

/-- **Only the disposal that raises the flag of a scope calls the waiters**, and it does so once. -/
theorem setBy (i : Nat) : Flag.SetBy (fun ds => (after ds).flag i) (fun ds => (after ds).Owes i)
    (fun d x => x.1 = d.1) := by
  refine Flag.setBy_of_effects rfl (fun x hx => (by cases hx)) fun ds d howed => ?_
  simp only [after_concat]
  exact effect_deed _ d howed

/-- What one thread does, and nobody else, it does **in a world of its own**. -/
theorem seenBy_after (t : Nat) (ds : List World.Deed) :
    (after (ds.map fun d => (t, d))).seenBy t = World.after ds := by
  have hstep (c : Crew) (d : World.Deed) : (c.deed (t, d)).seenBy t = (c.seenBy t).deed d := by
    simp [deed, seenBy]
  suffices h : ∀ c : Crew, ((ds.map fun d => (t, d)).foldl deed c).seenBy t
      = ds.foldl World.deed (c.seenBy t) from h {}
  induction ds with
  | nil => exact fun _ => rfl
  | cons d ds ih =>
    intro c
    rw [List.map_cons, List.foldl_cons, List.foldl_cons, ih, hstep]

end Crew

/-- **Nobody waits in vain**: a flag that calls set wakes each waiter once, and so does the flag of
a scope that threads dispose of, among all the steps that the lock of its queue allows, and among
all that clean-ups do which reach back to scopes. -/
theorem wakes_each_once :
    Flag.OneShot (fun ms => (Crowd.after ms).flag) (fun ms => (Crowd.after ms).Owes)
      (fun m j => m = .proceed j) ∧
    Flag.OneShot (fun ms => (Vigil.after ms).flag) (fun ms => (Vigil.after ms).Owes)
      (fun m j => m = .proceed j) ∧
    ∀ i, Flag.OneShot (fun ds => (Crew.after ds).flag i) (fun ds => (Crew.after ds).Owes i)
      (fun d x => x.1 = d.1) :=
  ⟨Crowd.setBy.oneShot, Vigil.setBy.oneShot, fun i => (Crew.setBy i).oneShot⟩

/-- A waiter looks before the flag goes up, is told to wait after that, and hears the call all the
same: of a flag; of a scope whose queue is taken in between; and of a scope that a thread disposes of
while another waits, where a clean-up calls for the disposal once more. -/
theorem wakes_each_once_between_look_and_wait :
    let crowd := Crowd.after [.ask .join, .ask (.enroll 0), .ask (.look 0), .enter, .proceed 0,
      .ask (.park 0), .proceed 0]
    let vigil := Vigil.after [.ask .join, .ask (.enroll 0), .ask (.look 0), .enter .dispose,
      .proceed 0, .ask (.park 0), .proceed 0, .proceed 0]
    let crew := Crew.after [(0, .create "job"), (0, .register 0 [.dispose 0]), (1, .ask 0 .join),
      (1, .ask 0 (.enroll 0)), (1, .ask 0 (.look 0)), (0, .dispose 0), (1, .ask 0 (.park 0)),
      (0, .proceed), (0, .proceed), (0, .proceed), (0, .proceed), (0, .proceed)]
    (crowd.flag.raised = true ∧ crowd.flag.wakesOf 0 = 1 ∧ crowd.flag.answer 0 = true) ∧
    (vigil.flag.raised = true ∧ vigil.flag.wakesOf 0 = 1 ∧ vigil.flag.answer 0 = true) ∧
    (crew.flag 0).raised = true ∧ (crew.flag 0).wakesOf 0 = 1 ∧ (crew.flag 0).answer 0 = true := by
  intro crowd vigil crew
  obtain ⟨hflag, hscope, hworld⟩ := wakes_each_once
  refine ⟨⟨by decide, ?_⟩, ⟨by decide, ?_⟩, by decide, ?_⟩
  · let before : List Crowd.Move := [.ask .join, .ask (.enroll 0), .ask (.look 0), .enter]
    have hraise : Flag.RaisedBy (fun ms => (Crowd.after ms).flag) (fun ms => (Crowd.after ms).Owes)
        before (.proceed 0) 0 := ⟨by decide, by decide⟩
    exact (hflag.serves _).woken_once ⟨_, rfl⟩ hraise (by decide)
      ⟨before ++ [.proceed 0, .ask (.park 0)], ⟨_, rfl⟩, ⟨.parked false, 0⟩, by decide, rfl⟩
      (by decide)
  · let before : List Vigil.Move := [.ask .join, .ask (.enroll 0), .ask (.look 0), .enter .dispose]
    have hraise : Flag.RaisedBy (fun ms => (Vigil.after ms).flag) (fun ms => (Vigil.after ms).Owes)
        before (.proceed 0) 0 := ⟨by decide, by decide⟩
    exact (hscope.serves _).woken_once ⟨_, rfl⟩ hraise (by decide)
      ⟨before ++ [.proceed 0, .ask (.park 0)], ⟨_, rfl⟩, ⟨.parked false, 0⟩, by decide, rfl⟩
      (by decide)
  · let before : List (Nat × World.Deed) := [(0, .create "job"), (0, .register 0 [.dispose 0]),
      (1, .ask 0 .join), (1, .ask 0 (.enroll 0)), (1, .ask 0 (.look 0))]
    have hraise : Flag.RaisedBy (fun ds => (Crew.after ds).flag 0) (fun ds => (Crew.after ds).Owes 0)
        before (0, .dispose 0) (0, 0) := ⟨by decide, by decide⟩
    exact ((hworld 0).serves _).woken_once ⟨_, rfl⟩ hraise (by decide)
      ⟨before ++ [(0, .dispose 0), (1, .ask 0 (.park 0))], ⟨_, rfl⟩, ⟨.parked false, 0⟩, by decide,
        rfl⟩
      (by decide)

end HeldReply
