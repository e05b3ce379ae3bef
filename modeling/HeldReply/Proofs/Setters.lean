import HeldReply.Proofs.Wakeups

/-!
# Who sets a flag

Any number of threads set a flag, and others wait for it.  A thread that sets it raises it in one
step and finds out whether it was down; if it was, the thread calls the waiters in another step, and
returns in a third.  Between these steps anybody does anything.

* `Flag.OwedBy` — which of several calls, by number, owes the waiters their call;
* `Setter`, `Crowd` — a call that sets the flag, and a flag with those who set it and wait for it;
* `Crowd.Move`, `Crowd.after` — what is done, and what comes of it;
* `Crowd.setBy` — **only the call that raises the flag calls the waiters**, and it does so once;
* `Crowd.flag_proceed_proceed` — in one go, a call is `Flag.set`.
-/

namespace HeldReply

namespace Flag

/-! ### Calls by number -/

section OwedBy

variable {σ : Type} {p : σ → Bool} {calls : List σ} {s t : σ} {j k : Nat}

/-- One of some calls **owes the waiters** their call; how far a call has come tells whether it
does. -/
def OwedBy (p : σ → Bool) (calls : List σ) (j : Nat) : Prop :=
  calls[j]?.any p = true

instance : Decidable (OwedBy p calls j) :=
  inferInstanceAs (Decidable (_ = true))

theorem owedBy_iff (hj : calls[j]? = some s) : OwedBy p calls j ↔ p s = true := by
  rw [OwedBy, hj, Option.any_some]

theorem owedBy_set_ne (h : k ≠ j) : OwedBy p (calls.set j t) k ↔ OwedBy p calls k := by
  rw [OwedBy, List.getElem?_set_ne h.symm, OwedBy]

theorem owedBy_set_self (hj : calls[j]? = some s) : OwedBy p (calls.set j t) j ↔ p t = true :=
  owedBy_iff (List.getElem?_set_self (List.getElem?_eq_some_iff.1 hj).1)

/-- A call goes on, and owes what it owed. -/
theorem owedBy_set_of_eq (hj : calls[j]? = some s) (ht : p t = p s) :
    OwedBy p (calls.set j t) k ↔ OwedBy p calls k := by
  by_cases hkj : k = j
  · rw [hkj, owedBy_set_self hj, owedBy_iff hj, ht]
  · exact owedBy_set_ne hkj

/-- A call goes on, and owes the call from then on. -/
theorem owedBy_set_of_true (hj : calls[j]? = some s) (ht : p t = true) :
    OwedBy p (calls.set j t) k ↔ OwedBy p calls k ∨ k = j := by
  by_cases hkj : k = j
  · simp [hkj, owedBy_set_self hj, ht]
  · simp [hkj, owedBy_set_ne hkj]

/-- A call goes on, and owes nothing any longer. -/
theorem owedBy_set_of_false (hj : calls[j]? = some s) (ht : p t = false) :
    OwedBy p (calls.set j t) k ↔ OwedBy p calls k ∧ k ≠ j := by
  by_cases hkj : k = j
  · simp [hkj, owedBy_set_self hj, ht]
  · simp [hkj, owedBy_set_ne hkj]

/-- A call comes, and owes nothing. -/
theorem owedBy_concat (ht : p t = false) : OwedBy p (calls ++ [t]) k ↔ OwedBy p calls k := by
  unfold OwedBy
  obtain hlt | hge := Nat.lt_or_ge k calls.length
  · rw [List.getElem?_append_left hlt]
  · rw [List.getElem?_append_right hge, List.getElem?_eq_none hge]
    cases k - calls.length with
    | zero => simp [ht]
    | succ n => simp

end OwedBy

/-- Who finds the flag up leaves it as it is. -/
theorem raise_of_raised {f : Flag} (h : f.raised = true) : f.raise = (f, false) := by
  obtain ⟨raised, called, waiters⟩ := f
  obtain rfl : raised = true := h
  rfl

end Flag

/-! ### Calls that set a flag and do nothing else -/

/-- A call that **sets a flag**. -/
inductive Setter where
  | calling
  /-- It raised the flag, and has to call the waiters. -/
  | raised
  /-- It called the waiters. -/
  | called
  /-- It is over; whether it raised the flag. -/
  | returned (first : Bool)
  deriving DecidableEq, Repr

/-- Whether the call has to call the waiters. -/
def Setter.isRaised : Setter → Bool
  | .raised => true
  | .calling | .called | .returned _ => false

/-- A **flag** with the calls that set it, by number. -/
structure Crowd where
  flag : Flag := {}
  setters : List Setter := []
  deriving DecidableEq, Repr

namespace Crowd

variable {c : Crowd} {j : Nat}

/-- A call that sets the flag **goes on** by a step. -/
def proceed (c : Crowd) (j : Nat) : Crowd :=
  match c.setters[j]? with
  | some .calling =>
    { flag := c.flag.raise.1
      setters := c.setters.set j (if c.flag.raise.2 then .raised else .returned false) }
  | some .raised => { flag := c.flag.call, setters := c.setters.set j .called }
  | some .called => { c with setters := c.setters.set j (.returned true) }
  | some (.returned _) | none => c

/-- What is **done**. -/
inductive Move where
  /-- Somebody comes, asks or goes. -/
  | ask (q : Flag.Ask)
  /-- Somebody calls for the flag to be set. -/
  | enter
  /-- A call goes on. -/
  | proceed (j : Nat)
  deriving DecidableEq, Repr

/-- **What comes of it.** -/
def move (c : Crowd) : Move → Crowd
  | .ask q => { c with flag := c.flag.ask q }
  | .enter => { c with setters := c.setters ++ [.calling] }
  | .proceed j => c.proceed j

/-- The flag and all who use it **after** several moves. -/
def after (ms : List Move) : Crowd :=
  ms.foldl move {}

theorem after_concat (ms : List Move) (m : Move) : after (ms ++ [m]) = (after ms).move m :=
  List.foldl_append

/-- The call of a number has to call the waiters. -/
def Owes (c : Crowd) : Nat → Prop :=
  Flag.OwedBy Setter.isRaised c.setters

instance (c : Crowd) (j : Nat) : Decidable (c.Owes j) :=
  inferInstanceAs (Decidable (Flag.OwedBy _ _ _))

/-- **What a call does** that goes on. -/
theorem effect_proceed (c : Crowd) (j : Nat) :
    Flag.Effect (fun i => Move.proceed j = .proceed i) c.Owes (c.proceed j).Owes c.flag
      (c.proceed j).flag := by
  unfold proceed
  split
  · rename_i hj
    cases hup : c.flag.raised with
    | false =>
      have hfirst : c.flag.raise.2 = true := by
        rw [Flag.raise, hup]
        rfl
      rw [if_pos hfirst]
      exact .raise rfl hup fun k => Flag.owedBy_set_of_true hj rfl
    | true =>
      rw [Flag.raise_of_raised hup, if_neg Bool.false_ne_true]
      exact .still fun k => Flag.owedBy_set_of_eq hj rfl
  · rename_i hj
    exact .call rfl ((Flag.owedBy_iff hj).2 rfl) fun k => Flag.owedBy_set_of_false hj rfl
  · rename_i hj
    exact .still fun k => Flag.owedBy_set_of_eq hj rfl
  · exact .still fun _ => Iff.rfl
  · exact .still fun _ => Iff.rfl

/-- **What is done** to a flag. -/
theorem effect_move (c : Crowd) (m : Move) :
    Flag.Effect (fun j => m = .proceed j) c.Owes (c.move m).Owes c.flag (c.move m).flag := by
  cases m with
  | ask q => exact .ask q fun _ => Iff.rfl
  | enter => exact .still fun _ => Flag.owedBy_concat rfl
  | proceed j => exact c.effect_proceed j

/-- **Only the call that raises the flag calls the waiters**, and it does so once. -/
theorem setBy : Flag.SetBy (fun ms => (after ms).flag) (fun ms => (after ms).Owes)
    (fun m j => m = .proceed j) := by
  refine Flag.setBy_of_effects rfl (fun j hj => (by cases hj)) fun ms m _ => ?_
  simp only [after_concat]
  exact effect_move _ m

/-- In one go, a call **sets the flag**. -/
theorem flag_proceed_proceed (hj : c.setters[j]? = some .calling) :
    ((c.proceed j).proceed j).flag = c.flag.set := by
  have hlt := (List.getElem?_eq_some_iff.1 hj).1
  have hset (s : Setter) : (c.setters.set j s)[j]? = some s := List.getElem?_set_self hlt
  cases hup : c.flag.raised with
  | true =>
    have hfirst : c.proceed j = { c with setters := c.setters.set j (.returned false) } := by
      simp only [proceed, hj, Flag.raise_of_raised hup, Bool.false_eq_true, if_false]
    rw [hfirst, Flag.set, Flag.raise_of_raised hup]
    simp only [proceed, hset]
  | false =>
    have hfirst : c.proceed j = { flag := c.flag.raise.1, setters := c.setters.set j .raised } := by
      simp only [proceed, hj, Flag.raise, hup, Bool.not_false, if_true]
    rw [hfirst]
    simp only [proceed, hset, Flag.set, Flag.raise, hup, Bool.not_false]

end Crowd

end HeldReply
