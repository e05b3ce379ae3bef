import HeldReply.Scope.Basic

/-!
# Clean-ups that reach back

A clean-up may itself register clean-ups and dispose of scopes, also of the one that is being
disposed of.  Several scopes form a world; what a clean-up does is a tree of actions.  The world is
run by a machine with a stack of frames, in steps of one action.

* `Action` — what a clean-up can do, one thing after another;
* `World.Frame`, `World` — a call in progress, and the scopes with the log and the calls in
  progress;
* `World.step` — one step, `none` if no call is in progress;
* `World.weight`, `World.weight_step` — every step makes what is left to do smaller;
* `World.run` — all steps; `World.dispose`, `World.register` — a call from outside, run to its end.
-/

namespace HeldReply

/-- **What a clean-up does**; scopes are given by number. -/
inductive Action where
  | log (text : String)
  /-- Log the state of a scope. -/
  | observe (scope : Nat)
  /-- Dispose of a scope, and log whether this call did it. -/
  | dispose (scope : Nat)
  /-- Register a clean-up, and log whether it was queued. -/
  | register (scope : Nat) (body : List Action)
  /-- Give up. -/
  | crash
  deriving Repr, Inhabited

/-- A **call in progress**. -/
inductive World.Frame where
  /-- A clean-up with the actions left. -/
  | body (rest : List Action)
  /-- A disposal with the clean-ups left. -/
  | drain (scope : Nat) (rest : List (List Action))
  /-- Log a text when all above is done. -/
  | note (text : String)
  deriving Repr, Inhabited

/-- Scopes by number, with their **log** and the calls in progress, innermost first. -/
structure World where
  scopes : List (Scope (List Action)) := []
  log : List String := []
  stack : List World.Frame := []
  deriving Inhabited

namespace World

/-- A truth value in the log. -/
def truth (b : Bool) : String := if b then "true" else "false"

/-- The log entry of a call and its answer. -/
def answer (call : String) (b : Bool) : String := call ++ "=" ++ truth b

/-- How often all waiters of all scopes were woken. -/
def wakes (w : World) : Nat :=
  w.scopes.foldr (fun s n => s.flag.wakes + n) 0

/-- One more log entry. -/
def note (w : World) (text : String) : World :=
  { w with log := w.log ++ [text] }

/-- Change a scope. -/
def modify (w : World) (i : Nat) (f : Scope (List Action) → Scope (List Action)) : World :=
  { w with scopes := w.scopes.modify i f }

/-- A scope as the log shows it. -/
def observed (w : World) (i : Nat) : String :=
  match w.scopes[i]? with
  | none => ""
  | some s =>
    answer "disposed" s.isDisposed ++ " pending=" ++ Number.decimal s.pending
      ++ " wakes=" ++ Number.decimal w.wakes

/-- Call for a disposal: if this call does it, its frame with a last log entry, and otherwise only
the log entry. -/
def callDispose (w : World) (i : Nat) (rest : List Frame) : World :=
  match w.scopes[i]?.bind Scope.begin with
  | some (s, cleanups) =>
    { w with
      scopes := w.scopes.set i s
      stack := .drain i cleanups :: .note (answer "dispose" true) :: rest }
  | none => { w with stack := rest }.note (answer "dispose" false)

/-- Call for a registration: on a scope that is disposed of the clean-up runs at once. -/
def callRegister (w : World) (i : Nat) (body : List Action) (rest : List Frame) : World :=
  if w.scopes[i]?.any Scope.isDisposed then
    { w with stack := .body body :: .note (answer "register" false) :: rest }
  else
    { w with stack := rest }.modify i (fun s => s.push body) |>.note (answer "register" true)

/-- **One step** of the innermost call. -/
def step (w : World) : Option World :=
  match w.stack with
  | [] => none
  | .note text :: rest => some ({ w with stack := rest }.note text)
  | .drain i [] :: rest => some ({ w with stack := rest }.modify i Scope.announce)
  | .drain i (c :: cs) :: rest => some { w with stack := .body c :: .drain i cs :: rest }
  | .body [] :: rest => some { w with stack := rest }
  | .body (.crash :: _) :: rest => some { w with stack := rest }
  | .body (.log text :: as) :: rest => some ({ w with stack := .body as :: rest }.note text)
  | .body (.observe i :: as) :: rest =>
    some ({ w with stack := .body as :: rest }.note (w.observed i))
  | .body (.dispose i :: as) :: rest => some (w.callDispose i (.body as :: rest))
  | .body (.register i body :: as) :: rest => some (w.callRegister i body (.body as :: rest))

end World

/-! ### What is left to do -/

mutual

/-- The weight of an action. -/
def Action.weight : Action → Nat
  | .log _ | .observe _ | .crash => 1
  | .dispose _ => 3
  | .register _ body => Action.weights body + 4

/-- The weight of several actions. -/
def Action.weights : List Action → Nat
  | [] => 0
  | a :: as => a.weight + Action.weights as

end

/-- The weight of a clean-up that is to be run. -/
def cleanupWeight (body : List Action) : Nat :=
  Action.weights body + 2

/-- The weight of several clean-ups that are to be run. -/
def cleanupWeights : List (List Action) → Nat
  | [] => 0
  | body :: bodies => cleanupWeight body + cleanupWeights bodies

/-- The weight of a call in progress. -/
def World.Frame.weight : World.Frame → Nat
  | .body rest => Action.weights rest + 1
  | .drain _ rest => cleanupWeights rest + 1
  | .note _ => 1

namespace World

/-- The weight of the clean-ups that are queued. -/
def queuedWeight : List (Scope (List Action)) → Nat
  | [] => 0
  | s :: scopes => cleanupWeights s.queue + queuedWeight scopes

/-- The weight of the calls in progress. -/
def Frame.weights : List Frame → Nat
  | [] => 0
  | f :: frames => f.weight + Frame.weights frames

/-- **What is left to do** in a world. -/
def weight (w : World) : Nat :=
  queuedWeight w.scopes + Frame.weights w.stack

theorem cleanupWeights_append (xs ys : List (List Action)) :
    cleanupWeights (xs ++ ys) = cleanupWeights xs + cleanupWeights ys := by
  induction xs with
  | nil => simp [cleanupWeights]
  | cons x xs ih =>
    rw [List.cons_append, cleanupWeights, cleanupWeights, ih]
    omega

theorem cleanupWeights_reverse (xs : List (List Action)) :
    cleanupWeights xs.reverse = cleanupWeights xs := by
  induction xs with
  | nil => rfl
  | cons x xs ih =>
    rw [List.reverse_cons, cleanupWeights_append, ih]
    simp only [cleanupWeights]
    omega

/-- A change of one scope changes the queued weight by what it does to that scope. -/
theorem queuedWeight_modify {scopes : List (Scope (List Action))} {i : Nat}
    {s : Scope (List Action)} (f : Scope (List Action) → Scope (List Action))
    (h : scopes[i]? = some s) :
    queuedWeight (scopes.modify i f) + cleanupWeights s.queue
      = queuedWeight scopes + cleanupWeights (f s).queue := by
  induction scopes generalizing i with
  | nil => simp at h
  | cons t ts ih =>
    cases i with
    | zero =>
      simp only [List.getElem?_cons_zero, Option.some.injEq] at h
      subst h
      simp only [queuedWeight, List.modify_zero_cons]
      omega
    | succ i =>
      rw [List.getElem?_cons_succ] at h
      have hi := ih h
      simp only [queuedWeight, List.modify_succ_cons] at hi ⊢
      omega

/-- Putting a scope into its place is a change of that scope. -/
theorem set_eq_modify {scopes : List (Scope (List Action))} (i : Nat) (s : Scope (List Action)) :
    scopes.set i s = scopes.modify i fun _ => s := by
  induction scopes generalizing i with
  | nil => simp
  | cons t ts ih => cases i <;> simp [ih]

/-- A change that keeps the queue of every scope keeps the queued weight. -/
theorem queuedWeight_modify_of_queue {scopes : List (Scope (List Action))} {i : Nat}
    {f : Scope (List Action) → Scope (List Action)} (hf : ∀ s, (f s).queue = s.queue) :
    queuedWeight (scopes.modify i f) = queuedWeight scopes := by
  cases h : scopes[i]? with
  | none =>
    rw [List.modify_eq_self]
    simpa using h
  | some s =>
    have hm := queuedWeight_modify f h
    rw [hf] at hm
    omega

theorem weight_callDispose (w : World) (i : Nat) (rest : List Frame) :
    (w.callDispose i rest).weight
      ≤ queuedWeight w.scopes + Frame.weights rest + 2 := by
  unfold callDispose
  cases h : w.scopes[i]? with
  | none => simp [weight, note]
  | some s =>
    cases hb : s.begin with
    | none => simp [weight, note, hb]
    | some p =>
      obtain ⟨t, cs⟩ := p
      have ht : t.queue = [] ∧ cs = s.queue.reverse := by
        simp only [Scope.begin, Scope.raise, Flag.raise, Scope.takeQueue] at hb
        split at hb <;> simp_all
        obtain ⟨rfl, rfl⟩ := hb
        rename_i hr
        obtain ⟨rfl, -⟩ := hr
        exact ⟨rfl, rfl⟩
      have hm := queuedWeight_modify (fun _ => t) h
      simp only [Option.bind_some, hb, weight, set_eq_modify, Frame.weights, Frame.weight, ht.2,
        cleanupWeights_reverse]
      simp only [ht.1, cleanupWeights] at hm
      omega

theorem weight_callRegister (w : World) (i : Nat) (body : List Action) (rest : List Frame) :
    (w.callRegister i body rest).weight
      ≤ queuedWeight w.scopes + Frame.weights rest + Action.weights body + 2 := by
  unfold callRegister
  split
  · simp only [weight, Frame.weights, Frame.weight]
    omega
  · simp only [weight, note, modify]
    cases h : w.scopes[i]? with
    | none =>
      rw [List.modify_eq_self (by simpa using h)]
      omega
    | some s =>
      have hm := queuedWeight_modify (fun s => s.push body) h
      simp only [Scope.push, cleanupWeights_append] at hm
      simp only [cleanupWeights, cleanupWeight] at hm
      simp only [Scope.push]
      omega

/-- **Every step makes what is left to do smaller.** -/
theorem weight_step {w v : World} (h : w.step = some v) : v.weight < w.weight := by
  unfold step at h
  split at h <;> simp only [Option.some.injEq, reduceCtorEq] at h <;> subst h <;> rename_i hs
  · simp only [weight, note, hs, Frame.weights, Frame.weight]
    omega
  · simp only [weight, modify, hs, Frame.weights, Frame.weight, cleanupWeights]
    rw [queuedWeight_modify_of_queue (f := Scope.announce) fun _ => rfl]
    omega
  · simp only [weight, hs, Frame.weights, Frame.weight, cleanupWeights,
      cleanupWeight]
    omega
  · simp only [weight, hs, Frame.weights, Frame.weight, Action.weights]
    omega
  · simp only [weight, hs, Frame.weights, Frame.weight, Action.weights,
      Action.weight]
    omega
  · simp only [weight, note, hs, Frame.weights, Frame.weight, Action.weights,
      Action.weight]
    omega
  · simp only [weight, note, hs, Frame.weights, Frame.weight, Action.weights,
      Action.weight]
    omega
  · rename_i i as rest
    have hd := weight_callDispose w i (.body as :: rest)
    simp only [Frame.weights, Frame.weight] at hd
    simp only [weight, hs, Frame.weights, Frame.weight, Action.weights,
      Action.weight] at hd ⊢
    omega
  · rename_i i body as rest
    have hr := weight_callRegister w i body (.body as :: rest)
    simp only [Frame.weights, Frame.weight] at hr
    simp only [weight, hs, Frame.weights, Frame.weight, Action.weights,
      Action.weight] at hr ⊢
    omega

/-! ### Calls from outside -/

/-- **All steps**, until no call is in progress. -/
def run (w : World) : World :=
  match _h : w.step with
  | none => w
  | some v => run v
termination_by w.weight
decreasing_by exact weight_step _h

/-- **Dispose** of a scope; the second component tells whether this call did it. -/
def dispose (w : World) (i : Nat) : World × Bool :=
  match w.scopes[i]?.bind Scope.begin with
  | some (s, cleanups) =>
    ({ w with scopes := w.scopes.set i s, stack := .drain i cleanups :: w.stack }.run, true)
  | none => (w, false)

/-- **Register** a clean-up; the second component tells whether it was queued. -/
def register (w : World) (i : Nat) (body : List Action) : World × Bool :=
  if w.scopes[i]?.any Scope.isDisposed then
    ({ w with stack := .body body :: w.stack }.run, false)
  else (w.modify i (fun s => s.push body), true)

/-- A new scope; the scopes of a world are numbered from one. -/
def create (w : World) (label : String) : World :=
  { w with scopes := w.scopes ++ [{ id := w.scopes.length + 1, label }] }

/-- The log so far, and a world with an empty log. -/
def takeLog (w : World) : List String × World :=
  (w.log, { w with log := [] })

end World

end HeldReply
