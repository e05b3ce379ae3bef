import HeldReply.Proofs.Scope.Book
import HeldReply.Proofs.Scope.Rules

/-!
# What a disposal does

Whatever the clean-ups do that are queued with the scopes of a world, one reaching into another, a
disposal comes to its end.

* `World.run_beginDispose` — a call for a disposal, step by step and run to its end;
* `World.dispose_in_order` — **what it comes to**: what the rules say and nothing else, with no
  clean-up left over and none started twice.
-/

namespace HeldReply

namespace World

variable {w : World} {i : Nat}

/-- **A disposal from outside**, step by step and run to its end. -/
theorem run_beginDispose (h : w.stack = []) : (w.beginDispose i).run = (w.dispose i).1 := by
  unfold beginDispose dispose
  cases w.scopes[i]?.bind Scope.begin with
  | none => exact run_of_stack h
  | some p => rfl

/-- **A disposal** when no call is in progress, after whatever was done before:

* it comes to its end, in no more steps than there is weight;
* the answer, the log and the scopes are what the rules say, and the rules say nothing else;
* no scope that is disposed of has a clean-up queued;
* no clean-up is started twice, by then or at any time on the way. -/
theorem dispose_in_order (ds : List Deed) (i : Nat) (hrest : (after ds).stack = []) :
    (∀ m, (after (ds ++ [.dispose i])).weight ≤ m →
      after (ds ++ .dispose i :: List.replicate m .proceed) = ((after ds).dispose i).1) ∧
    ((after ds).dispose i).1.stack = [] ∧
    Disposes (after ds) i ((after ds).dispose i).2 ((after ds).dispose i).1 ∧
    (∀ first v, Disposes (after ds) i first v → (after ds).dispose i = (v, first)) ∧
    (∀ (j : Nat) (s : Scope (List Action)), ((after ds).dispose i).1.scopes[j]? = some s →
      s.isDisposed = true → s.pending = 0) ∧
    ∀ m, (Book.after (ds ++ .dispose i :: List.replicate m .proceed)).erase
        = after (ds ++ .dispose i :: List.replicate m .proceed) ∧
      (Book.after (ds ++ .dispose i :: List.replicate m .proceed)).started.Nodup := by
  have hrun : (after (ds ++ [.dispose i])).run = ((after ds).dispose i).1 := by
    rw [after_concat, ← run_beginDispose hrest, deed, hrest]
    rfl
  have hend (m : Nat) (hm : (after (ds ++ [.dispose i])).weight ≤ m) :
      after (ds ++ .dispose i :: List.replicate m .proceed) = ((after ds).dispose i).1 := by
    rw [List.append_cons, after_run _ hm, hrun]
  refine ⟨hend, ?_, disposes_dispose hrest, ?_, ?_, ?_⟩
  · rw [← hrun]
    exact stack_run _
  · intro first v hv
    obtain ⟨hfirst, hworld⟩ := hv.unique (disposes_dispose hrest)
    rw [hfirst, hworld]
  · intro j s hj hs
    rw [← hend _ (Nat.le_refl _)] at hj
    have hfits := (sound_after _).fits j s hj
    exact congrArg List.length (hfits.drained hs)
  · intro m
    exact ⟨Book.erase_after _, Book.started_nodup _⟩

/-- Two scopes that dispose of each other; one of the clean-ups comes too late, and one gives up. -/
def eachOther : List Deed :=
  [.create "a", .create "b",
    .register 0 [.log "first in, last out"],
    .register 0 [.dispose 1, .log "back", .crash, .log "left out"],
    .register 1 [.dispose 0, .register 0 [.log "late"]]]

/-- **Two scopes that dispose of each other**: what is logged, and in which order. -/
theorem dispose_eachOther :
    (after eachOther).stack = [] ∧ ((after eachOther).dispose 0).2 = true ∧
      ((after eachOther).dispose 0).1.log = ["dispose=false", "late", "register=false",
        "dispose=true", "back", "first in, last out"] := by
  obtain ⟨hend, -⟩ := dispose_in_order eachOther 0 rfl
  refine ⟨rfl, rfl, ?_⟩
  rw [← hend 40 (by decide)]
  decide

end World

end HeldReply
