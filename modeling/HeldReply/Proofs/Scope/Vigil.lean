import HeldReply.Proofs.Scope.Threads
import HeldReply.Proofs.Setters

/-!
# Waiting while threads dispose of a scope

Any number of threads register clean-ups with one scope and dispose of it, in the steps that the
lock of its queue allows.  Meanwhile anybody waits for the scope to be disposed of.

* `Vigil` — a scope among threads, with those who wait for its disposal;
* `Vigil.Move`, `Vigil.after` — what is done, and what comes of it;
* `Shared.Strides` — **what a step of a thread does** to the flag;
* `Vigil.scope_foldl_proceed` — without those who wait, it is `Shared.follow`;
* `Vigil.setBy` — **only the thread that put the flag up calls the waiters**, and it does so once.
-/

namespace HeldReply

/-- Whether a thread put the flag up, and has not called the waiters yet. -/
def Caller.isDisposing : Caller → Bool
  | .take | .drain _ => true
  | .register _ | .push _ | .runHere _ | .dispose | .returned _ => false

namespace Shared

variable {s t : Shared} {j : Nat}

/-- **What a step of a thread does** to the flag, and to what the thread has still to do. -/
inductive Strides (s : Shared) (j : Nat) (t : Shared) : Prop
  | still {c d : Caller} (hc : s.callers[j]? = some c) (hend : c ≠ .drain [])
      (hraised : t.raised = s.raised) (hcalled : t.called = s.called)
      (hs : t.callers = s.callers.set j d) (hd : d.isDisposing = c.isDisposing)
  /-- The thread puts the flag up. -/
  | raise (hc : s.callers[j]? = some .dispose) (hdown : s.raised = false)
      (ht : t = { s with raised := true }.goOn j .take)
  /-- The disposal ends. -/
  | call (hc : s.callers[j]? = some (.drain []))
      (ht : t = { s with called := true }.goOn j (.returned true))

theorem strides_of_step (h : s.step j = some t) : Strides s j t := by
  unfold step at h
  split at h
  · cases h
  · cases h
  · rename_i c hc
    split at h
    · cases h
    · cases h
      refine .still hc nofun rfl rfl rfl ?_
      split <;> rfl
  · rename_i hc
    cases h
    exact .still hc nofun rfl rfl rfl rfl
  · rename_i hc
    cases h
    exact .still hc nofun rfl rfl rfl rfl
  · rename_i hc
    split at h
    · cases h
      exact .still hc nofun rfl rfl rfl rfl
    · rename_i hdown
      cases h
      exact .raise hc (Bool.eq_false_iff.2 hdown) rfl
  · rename_i hc
    split at h
    · cases h
    · cases h
      exact .still hc nofun rfl rfl rfl rfl
  · rename_i hc
    cases h
    exact .still hc nofun rfl rfl rfl rfl
  · rename_i hc
    cases h
    exact .call hc rfl

end Shared

/-- A scope among threads, and those who **wait for its disposal**. -/
structure Vigil where
  scope : Shared := {}
  waiters : List Waiter := []
  deriving DecidableEq, Repr

namespace Vigil

variable {v : Vigil} {j k : Nat}

/-- The flag of the scope. -/
def flag (v : Vigil) : Flag :=
  { raised := v.scope.raised, called := v.scope.called, waiters := v.waiters }

/-- A thread **goes on** by a step; the last step of a disposal reaches the waiters. -/
def proceed (v : Vigil) (j : Nat) : Vigil :=
  match v.scope.step j with
  | none => v
  | some scope =>
    if v.scope.callers[j]? = some (.drain []) then
      { scope, waiters := v.waiters.map Waiter.hear }
    else { v with scope }

/-- What is **done**. -/
inductive Move where
  /-- Somebody comes, asks or goes. -/
  | ask (q : Flag.Ask)
  /-- A thread calls for something. -/
  | enter (request : Shared.Request)
  /-- A thread goes on. -/
  | proceed (j : Nat)
  deriving DecidableEq, Repr

/-- **What comes of it.** -/
def move (v : Vigil) : Move → Vigil
  | .ask q => { v with waiters := (v.flag.ask q).waiters }
  | .enter request =>
    let j := v.scope.callers.length
    { v with scope := { v.scope with callers := v.scope.callers ++ [request.caller j] } }
  | .proceed j => v.proceed j

/-- The scope and all who use it **after** several moves. -/
def after (ms : List Move) : Vigil :=
  ms.foldl move {}

theorem after_concat (ms : List Move) (m : Move) : after (ms ++ [m]) = (after ms).move m :=
  List.foldl_append

/-- When nobody comes, the threads do what they do **by themselves**. -/
theorem scope_foldl_proceed (v : Vigil) (schedule : List Nat) :
    ((schedule.map .proceed).foldl move v).scope = v.scope.follow schedule := by
  induction schedule generalizing v with
  | nil => rfl
  | cons j schedule ih =>
    have hstep : (v.proceed j).scope = (v.scope.step j).getD v.scope := by
      unfold proceed
      cases v.scope.step j with
      | none => rfl
      | some s => exact apply_ite scope _ _ _ |>.trans (ite_self _)
    rw [List.map_cons, List.foldl_cons, ih]
    exact congrArg (Shared.follow · schedule) hstep

/-- The thread of a number put the flag up, and **has to call the waiters**. -/
def Owes (v : Vigil) : Nat → Prop :=
  Flag.OwedBy Caller.isDisposing v.scope.callers

instance (v : Vigil) (j : Nat) : Decidable (v.Owes j) :=
  inferInstanceAs (Decidable (Flag.OwedBy _ _ _))

/-- **What a thread does** that goes on. -/
theorem effect_proceed (v : Vigil) (j : Nat) :
    Flag.Effect (fun i => Move.proceed j = .proceed i) v.Owes (v.proceed j).Owes v.flag
      (v.proceed j).flag := by
  unfold proceed
  cases hstep : v.scope.step j with
  | none => exact .still fun _ => Iff.rfl
  | some s =>
    dsimp only
    cases Shared.strides_of_step hstep with
    | @still c d hc hend hraised hcalled hs hd =>
      have hend : ¬ v.scope.callers[j]? = some (.drain []) := by
        rw [hc]
        exact fun h => hend (Option.some.inj h)
      have hflag : flag { v with scope := s } = v.flag := by
        simp only [flag, hraised, hcalled]
      have hset (k : Nat) : Owes { v with scope := s } k ↔ v.Owes k := by
        rw [Owes, hs]
        exact Flag.owedBy_set_of_eq hc hd
      rw [if_neg hend, hflag]
      exact .still hset
    | raise hc hdown ht =>
      rw [if_neg (by rw [hc]; exact nofun), ht]
      exact .raise rfl hdown fun _ => Flag.owedBy_set_of_true hc rfl
    | call hc ht =>
      rw [if_pos hc, ht]
      exact .call rfl ((Flag.owedBy_iff hc).2 rfl) fun _ => Flag.owedBy_set_of_false hc rfl

/-- **What is done** to a scope. -/
theorem effect_move (v : Vigil) (m : Move) :
    Flag.Effect (fun j => m = .proceed j) v.Owes (v.move m).Owes v.flag (v.move m).flag := by
  cases m with
  | ask q =>
    have hflag : (v.move (.ask q)).flag = v.flag.ask q := by
      cases q <;> rfl
    rw [hflag]
    exact .ask q fun _ => Iff.rfl
  | enter request =>
    refine .still fun _ => Flag.owedBy_concat ?_
    cases request <;> rfl
  | proceed j => exact v.effect_proceed j

/-- **Only the thread that put the flag up calls the waiters**, and it does so once. -/
theorem setBy : Flag.SetBy (fun ms => (after ms).flag) (fun ms => (after ms).Owes)
    (fun m j => m = .proceed j) := by
  refine Flag.setBy_of_effects rfl (fun j hj => (by cases hj)) fun ms m _ => ?_
  simp only [after_concat]
  exact effect_move _ m

end Vigil

end HeldReply
