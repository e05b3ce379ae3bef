import HeldReply.Proofs.Scope.Worlds

/-!
# What a disposal comes to

A disposal runs the clean-ups that are queued from last to first; what a clean-up does to the scopes is
said here by rules, one for each thing that it can do, without a stack of calls.  Whatever the rules
say is what the steps of the machine come to, and the rules leave no case out.

* `World.ComesTo` — the rules;
* `World.ComesTo.run_eq` — **the steps come to what the rules say**;
* `World.exists_comesTo` — the rules apply to whatever is called for;
* `World.Disposes`, `World.Disposes.unique`, `World.disposes_dispose` — a disposal from outside, by
  the rules and by the machine.
-/

namespace HeldReply

namespace World

variable {w u v v' : World} {i : Nat} {f : Frame}

/-- **What a call comes to.** -/
inductive ComesTo : World → Frame → World → Prop
  | note (w : World) (text : String) : ComesTo w (.note text) (w.note text)
  /-- A clean-up returns. -/
  | returned (w : World) : ComesTo w (.body []) w
  /-- A clean-up gives up: the rest of it is not done, and nothing else is left out. -/
  | crashed (w : World) (as : List Action) : ComesTo w (.body (.crash :: as)) w
  | logged {w v : World} {text : String} {as : List Action}
      (h : ComesTo (w.note text) (.body as) v) : ComesTo w (.body (.log text :: as)) v
  | observed {w v : World} {i : Nat} {as : List Action}
      (h : ComesTo (w.note (w.observed i)) (.body as) v) : ComesTo w (.body (.observe i :: as)) v
  /-- A scope is disposed of for the first time: what it has queued runs here, the last one first. -/
  | disposed {w u v : World} {i : Nat} {as : List Action} {s : Scope (List Action)}
      (hi : w.scopes[i]? = some s) (hs : s.isDisposed = false)
      (hq : ComesTo (w.shut i) (.drain i s.queue.reverse) u)
      (h : ComesTo (u.note (answer "dispose" true)) (.body as) v) :
      ComesTo w (.body (.dispose i :: as)) v
  /-- A scope was disposed of before. -/
  | disposedBefore {w v : World} {i : Nat} {as : List Action}
      (hi : ∀ s, w.scopes[i]? = some s → s.isDisposed = true)
      (h : ComesTo (w.note (answer "dispose" false)) (.body as) v) :
      ComesTo w (.body (.dispose i :: as)) v
  /-- A clean-up for a scope that is disposed of runs here. -/
  | ranHere {w u v : World} {i : Nat} {body as : List Action} {s : Scope (List Action)}
      (hi : w.scopes[i]? = some s) (hs : s.isDisposed = true)
      (hb : ComesTo w (.body body) u)
      (h : ComesTo (u.note (answer "register" false)) (.body as) v) :
      ComesTo w (.body (.register i body :: as)) v
  /-- A clean-up for another scope is queued. -/
  | queued {w v : World} {i : Nat} {body as : List Action}
      (hi : ∀ s, w.scopes[i]? = some s → s.isDisposed = false)
      (h : ComesTo ((w.modify i fun s => s.push body).note (answer "register" true)) (.body as) v) :
      ComesTo w (.body (.register i body :: as)) v
  /-- All clean-ups of a scope ran: those who wait for that are called. -/
  | drained (w : World) (i : Nat) : ComesTo w (.drain i []) (w.modify i Scope.announce)
  /-- One clean-up after the other. -/
  | next {w u v : World} {i : Nat} {c : List Action} {cs : List (List Action)}
      (hc : ComesTo w (.body c) u) (h : ComesTo u (.drain i cs) v) : ComesTo w (.drain i (c :: cs)) v

/-! ### The machine keeps the rules -/

/-- A world in which other calls are in progress. -/
def withStack (w : World) (stack : List Frame) : World :=
  { w with stack }

/-- Calls that are in progress elsewhere are not touched. -/
theorem ComesTo.stack_eq (h : ComesTo w f v) : v.stack = w.stack := by
  induction h with
  | note | returned | crashed | drained => rfl
  | logged _ ih | observed _ ih | disposedBefore _ _ ih | queued _ _ ih => exact ih
  | disposed _ _ _ _ ihq ih => exact ih.trans ihq
  | ranHere _ _ _ _ ihb ih => exact ih.trans ihb
  | next _ _ ihc ih => exact ih.trans ihc

theorem step_dispose {as : List Action} {rest : List Frame} {s : Scope (List Action)}
    (hi : w.scopes[i]? = some s) (hs : s.isDisposed = false) :
    (w.withStack (.body (.dispose i :: as) :: rest)).step = some ((w.shut i).withStack
      (.drain i s.queue.reverse :: .note (answer "dispose" true) :: .body as :: rest)) := by
  obtain ⟨t, ht, -, hbegin⟩ | ⟨hd, -⟩ := begin_cases w.scopes i
  · obtain rfl : s = t := Option.some.inj (hi.symm.trans ht)
    show some ((w.withStack _).callDispose i _) = _
    simp only [callDispose, withStack, hbegin, set_of_getElem? hi Scope.shut, shut, modify]
  · exact absurd (hs.symm.trans (hd s hi)) Bool.false_ne_true

theorem step_dispose_again {as : List Action} {rest : List Frame}
    (hi : ∀ s, w.scopes[i]? = some s → s.isDisposed = true) :
    (w.withStack (.body (.dispose i :: as) :: rest)).step
      = some ((w.note (answer "dispose" false)).withStack (.body as :: rest)) := by
  obtain ⟨t, ht, hd, -⟩ | ⟨-, hbegin⟩ := begin_cases w.scopes i
  · exact absurd (hd.symm.trans (hi t ht)) Bool.false_ne_true
  · show some ((w.withStack _).callDispose i _) = _
    simp only [callDispose, withStack, hbegin, note]

theorem step_register_late {body as : List Action} {rest : List Frame} {s : Scope (List Action)}
    (hi : w.scopes[i]? = some s) (hs : s.isDisposed = true) :
    (w.withStack (.body (.register i body :: as) :: rest)).step = some (w.withStack
      (.body body :: .note (answer "register" false) :: .body as :: rest)) := by
  have hd := any_isDisposed_iff.2 ⟨s, hi, hs⟩
  exact congrArg some (if_pos hd)

theorem step_register {body as : List Action} {rest : List Frame}
    (hi : ∀ s, w.scopes[i]? = some s → s.isDisposed = false) :
    (w.withStack (.body (.register i body :: as) :: rest)).step
      = some (((w.modify i fun s => s.push body).note (answer "register" true)).withStack
          (.body as :: rest)) := by
  have hd : ¬ w.scopes[i]?.any Scope.isDisposed = true := by
    intro hd
    obtain ⟨s, hs, hd⟩ := any_isDisposed_iff.1 hd
    exact absurd ((hi s hs).symm.trans hd) Bool.false_ne_true
  exact congrArg some (if_neg hd)

/-- **The steps come to what the rules say**, and go on with what was in progress before.  By induction
on the rules, each of which begins with one step. -/
theorem ComesTo.run_eq (h : ComesTo w f v) (rest : List Frame) :
    (w.withStack (f :: rest)).run = (v.withStack rest).run := by
  induction h generalizing rest with
  | note | returned | crashed | drained => exact run_of_step rfl
  | logged _ ih | observed _ ih => exact (run_of_step rfl).trans (ih rest)
  | disposed hi hs _ _ ihq ih =>
    rw [run_of_step (step_dispose hi hs), ihq, run_of_step rfl]
    exact ih rest
  | disposedBefore hi _ ih => exact (run_of_step (step_dispose_again hi)).trans (ih rest)
  | ranHere hi hs _ _ ihb ih =>
    rw [run_of_step (step_register_late hi hs), ihb, run_of_step rfl]
    exact ih rest
  | queued hi _ ih => exact (run_of_step (step_register hi)).trans (ih rest)
  | next _ _ ihc ih =>
    rw [run_of_step (v := _) rfl]
    exact (ihc _).trans (ih rest)

/-- **The rules leave no choice.** -/
theorem ComesTo.eq_run (h : ComesTo w f v) :
    v = (w.withStack [f]).run.withStack w.stack := by
  rw [h.run_eq [], run_of_stack rfl, ← h.stack_eq]
  rfl

/-! ### The rules leave no case out -/

theorem queuedWeight_shut {s : Scope (List Action)} (hi : w.scopes[i]? = some s) :
    queuedWeight (w.shut i).scopes + cleanupWeights s.queue = queuedWeight w.scopes :=
  queuedWeight_modify Scope.shut hi

theorem queuedWeight_push (w : World) (i : Nat) (body : List Action) :
    queuedWeight (w.modify i fun s => s.push body).scopes
      ≤ queuedWeight w.scopes + cleanupWeight body := by
  cases hi : w.scopes[i]? with
  | none =>
    rw [modify_scopes, List.modify_eq_self (List.getElem?_eq_none_iff.1 hi)]
    exact Nat.le_add_right _ _
  | some s =>
    have hsum := queuedWeight_modify (fun s => s.push body) hi
    simp only [Scope.push, cleanupWeights_append, cleanupWeights] at hsum
    rw [modify_scopes]
    simp only [Scope.push]
    omega

/-- **All that is left to do**, in the queues of the scopes and in a call. -/
def load (w : World) (f : Frame) : Nat :=
  queuedWeight w.scopes + f.weight

/-- A call leaves no more queued than there was to do. -/
theorem ComesTo.queuedWeight_lt (h : ComesTo w f v) : queuedWeight v.scopes < w.load f := by
  unfold load
  induction h with
  | note w text | returned w | crashed w as =>
    simp only [note_scopes, Frame.weight, Action.weights]
    omega
  | logged _ ih | observed _ ih | disposedBefore _ _ ih =>
    simp only [note_scopes, Frame.weight, Action.weights, Action.weight] at ih ⊢
    omega
  | disposed hi _ _ _ ihq ih =>
    have hshut := queuedWeight_shut hi
    simp only [note_scopes, Frame.weight, Action.weights, Action.weight,
      cleanupWeights_reverse] at ihq ih ⊢
    omega
  | ranHere _ _ _ _ ihb ih =>
    simp only [note_scopes, Frame.weight, Action.weights, Action.weight] at ihb ih ⊢
    omega
  | @queued w _ i body _ _ _ ih =>
    have hpush := queuedWeight_push w i body
    simp only [note_scopes, Frame.weight, Action.weights, Action.weight, cleanupWeight]
      at ih hpush ⊢
    omega
  | drained w i =>
    rw [modify_scopes, queuedWeight_modify_of_queue (f := Scope.announce) fun _ => rfl]
    exact Nat.lt_add_of_pos_right Nat.one_pos
  | next _ _ ihc ih =>
    simp only [Frame.weight, cleanupWeights, cleanupWeight] at ihc ih ⊢
    omega

section Total

variable {n : Nat} (smaller : ∀ u g, load u g < n → ∃ v, ComesTo u g v)

include smaller

/-- If the rules apply to whatever leaves less to do, they apply to one clean-up and those after it. -/
theorem exists_next (c : List Action) (cs : List (List Action))
    (hn : w.load (.drain i (c :: cs)) = n) : ∃ v, ComesTo w (.drain i (c :: cs)) v := by
  simp only [load, Frame.weight, cleanupWeights, cleanupWeight] at hn smaller
  obtain ⟨u, hu⟩ := smaller w (.body c) (by simp only; omega)
  have hlt := hu.queuedWeight_lt
  simp only [load, Frame.weight] at hlt
  obtain ⟨v, hv⟩ := smaller u (.drain i cs) (by simp only; omega)
  exact ⟨v, .next hu hv⟩

/-- They apply to a clean-up that disposes of a scope. -/
theorem exists_dispose (as : List Action) (hn : w.load (.body (.dispose i :: as)) = n) :
    ∃ v, ComesTo w (.body (.dispose i :: as)) v := by
  simp only [load, Frame.weight, Action.weights, Action.weight] at hn smaller
  obtain ⟨s, hi, hd, -⟩ | ⟨hd, -⟩ := begin_cases w.scopes i
  · have hshut := queuedWeight_shut hi
    obtain ⟨u, hu⟩ := smaller (w.shut i) (.drain i s.queue.reverse) (by
      simp only [cleanupWeights_reverse]; omega)
    have hlt := hu.queuedWeight_lt
    simp only [load, Frame.weight, cleanupWeights_reverse] at hlt
    obtain ⟨v, hv⟩ := smaller (u.note (answer "dispose" true)) (.body as) (by
      simp only [note_scopes]; omega)
    exact ⟨v, .disposed hi hd hu hv⟩
  · obtain ⟨v, hv⟩ := smaller (w.note (answer "dispose" false)) (.body as) (by
      simp only [note_scopes]; omega)
    exact ⟨v, .disposedBefore hd hv⟩

/-- They apply to a clean-up that registers another one. -/
theorem exists_register (body as : List Action)
    (hn : w.load (.body (.register i body :: as)) = n) :
    ∃ v, ComesTo w (.body (.register i body :: as)) v := by
  simp only [load, Frame.weight, Action.weights, Action.weight] at hn smaller
  by_cases hd : w.scopes[i]?.any Scope.isDisposed = true
  · obtain ⟨s, hi, hs⟩ := any_isDisposed_iff.1 hd
    obtain ⟨u, hu⟩ := smaller w (.body body) (by simp only; omega)
    have hlt := hu.queuedWeight_lt
    simp only [load, Frame.weight] at hlt
    obtain ⟨v, hv⟩ := smaller (u.note (answer "register" false)) (.body as) (by
      simp only [note_scopes]; omega)
    exact ⟨v, .ranHere hi hs hu hv⟩
  · have hpush := queuedWeight_push w i body
    simp only [cleanupWeight] at hpush
    obtain ⟨v, hv⟩ := smaller ((w.modify i fun s => s.push body).note (answer "register" true))
      (.body as) (by simp only [note_scopes]; omega)
    exact ⟨v, .queued (fun s hi => isDisposed_eq_false hd hi) hv⟩

/-- They apply to a clean-up that logs something. -/
theorem exists_log (text : String) (a : Action) (as : List Action)
    (hn : w.load (.body (a :: as)) = n) (ha : 0 < a.weight) :
    ∃ v, ComesTo (w.note text) (.body as) v := by
  simp only [load, Frame.weight, Action.weights] at hn smaller
  exact smaller (w.note text) (.body as) (by simp only [note_scopes]; omega)

end Total

/-- **The rules apply to whatever is called for.**  By induction on all that is left to do. -/
theorem exists_comesTo (w : World) (f : Frame) : ∃ v, ComesTo w f v := by
  induction hn : w.load f using Nat.strongRecOn generalizing w f with
  | ind n ih =>
    have smaller (u : World) (g : Frame) (h : u.load g < n) : ∃ v, ComesTo u g v := ih _ h u g rfl
    cases f with
    | note text => exact ⟨_, .note w text⟩
    | drain i cs =>
      cases cs with
      | nil => exact ⟨_, .drained w i⟩
      | cons c cs => exact exists_next smaller c cs hn
    | body as =>
      cases as with
      | nil => exact ⟨_, .returned w⟩
      | cons a as =>
        cases a with
        | crash => exact ⟨_, .crashed w as⟩
        | log text =>
          obtain ⟨v, hv⟩ := exists_log smaller text _ as hn Nat.one_pos
          exact ⟨v, .logged hv⟩
        | observe i =>
          obtain ⟨v, hv⟩ := exists_log smaller (w.observed i) _ as hn Nat.one_pos
          exact ⟨v, .observed hv⟩
        | dispose i => exact exists_dispose smaller as hn
        | register i body => exact exists_register smaller body as hn

/-! ### A disposal from outside -/

/-- **What a disposal comes to**: the answer, and the world after it. -/
def Disposes (w : World) (i : Nat) (first : Bool) (v : World) : Prop :=
  (first = true ∧ ∃ s, w.scopes[i]? = some s ∧ s.isDisposed = false ∧
    ComesTo (w.shut i) (.drain i s.queue.reverse) v) ∨
  (first = false ∧ (∀ s, w.scopes[i]? = some s → s.isDisposed = true) ∧ v = w)

/-- **A disposal from outside**, when no call is in progress, comes to what the rules say. -/
theorem disposes_dispose (h : w.stack = []) : Disposes w i (w.dispose i).2 (w.dispose i).1 := by
  obtain ⟨s, hi, hs, hbegin⟩ | ⟨hd, hbegin⟩ := begin_cases w.scopes i
  · obtain ⟨v, hv⟩ := exists_comesTo (w.shut i) (.drain i s.queue.reverse)
    have hdispose : w.dispose i = (((w.shut i).withStack [.drain i s.queue.reverse]).run, true) := by
      unfold dispose
      rw [hbegin]
      simp only [set_of_getElem? hi Scope.shut, h, shut, withStack, modify]
    have hvstack : v.stack = [] := hv.stack_eq.trans h
    have hrun : ((w.shut i).withStack [.drain i s.queue.reverse]).run = v := by
      rw [hv.run_eq [], run_of_stack rfl, ← hvstack]
      rfl
    rw [hdispose, hrun]
    exact .inl ⟨rfl, s, hi, hs, hv⟩
  · have hdispose : w.dispose i = (w, false) := by
      unfold dispose
      rw [hbegin]
    rw [hdispose]
    exact .inr ⟨rfl, hd, rfl⟩

/-- **The rules say one thing only.** -/
theorem Disposes.unique {first first' : Bool} (h : Disposes w i first v)
    (h' : Disposes w i first' v') : first = first' ∧ v = v' := by
  obtain ⟨rfl, s, hi, hs, hv⟩ | ⟨rfl, hd, rfl⟩ := h
  · obtain ⟨rfl, s', hi', -, hv'⟩ | ⟨-, hd, -⟩ := h'
    · obtain rfl : s = s' := Option.some.inj (hi.symm.trans hi')
      exact ⟨rfl, hv.eq_run.trans hv'.eq_run.symm⟩
    · exact absurd (hs.symm.trans (hd s hi)) Bool.false_ne_true
  · obtain ⟨-, s, hi, hs, -⟩ | ⟨rfl, -, rfl⟩ := h'
    · exact absurd (hs.symm.trans (hd s hi)) Bool.false_ne_true
    · exact ⟨rfl, rfl⟩

end World

end HeldReply
