import HeldReply.Proofs.Session.Turn

/-!
# What others do

Beside the tasks of a session there are others, who hold a callback or the scope: the handler, its
clean-ups and whoever got hold of one.  They answer, let callbacks go, queue clean-ups and dispose of
the scope, and a disposal from outside takes several steps.

* `Desk.Move`, `Desk.move`, `Desk.step_deed` — **one step** of others, alone and in a scene;
* `Desk.Moves`, `Desk.moves_of_move` — **everything that others can do** in one step;
* `Desk.promise_move`, `Desk.around_move` — they change the promise and the surroundings as programs
  do.
-/

namespace HeldReply

/-- A step of **others**, who hold a callback or the scope. -/
inductive Desk.Move where
  /-- Somebody takes the right to answer, and sends the answer later. -/
  | claim (o : Outcome)
  | send
  | share
  | release
  /-- Somebody cancels the beat. -/
  | cancel
  /-- A clean-up is queued. -/
  | push (p : Program)
  /-- A clean-up that comes too late is run by whoever brings it. -/
  | runHere (p : Program)
  /-- A disposal from outside begins, takes the clean-ups, runs the next one, and ends. -/
  | raise
  | take
  | clean
  | announce

namespace Desk

variable {ω : Type} [Surroundings ω] {d e : Desk ω} {before after : Outside} {m : Move}

/-- Whether a clean-up can still be queued: a disposal has not begun, or it has not taken them. -/
def isQueueing (d : Desk ω) : Outside → Bool
  | .raised => true
  | _ => !d.scope.isDisposed

/-- **One step of others**; `none` if it is not possible. -/
def move (d : Desk ω) (outside : Outside) : Move → Option (Desk ω × Outside)
  | .claim o => some ({ d with promise := (d.promise.claim o).1 }, outside)
  | .send => some ({ d with promise := d.promise.send }, outside)
  | .share => some (d.keep, outside)
  | .release => some (d.release, outside)
  | .cancel => some ({ d with around := Surroundings.cancelBeat d.around }, outside)
  | .push p => if d.isQueueing outside then some (d.push (.program p), outside) else none
  | .runHere p =>
    if d.scope.isDisposed then some (d.runCleanup (.program p), outside) else none
  | .raise =>
    match d.scope.raise with
    | (scope, true) => some ({ d with scope }, .raised)
    | (_, false) => none
  | .take =>
    match outside with
    | .raised => some ({ d with scope := d.scope.takeQueue.1 }, .draining d.scope.takeQueue.2)
    | _ => none
  | .clean =>
    match outside with
    | .draining (k :: rest) => some (d.runCleanup k, .draining rest)
    | _ => none
  | .announce =>
    match outside with
    | .draining [] => some (d.announce, .none)
    | _ => none

/-- The step of a scene that is the same. -/
def Move.deed {σ : Type} : Move → Deed σ
  | .claim o => .claim o
  | .send => .send
  | .share => .share
  | .release => .release
  | .cancel => .cancel
  | .push p => .push p
  | .runHere p => .runHere p
  | .raise => .raise
  | .take => .take
  | .clean => .clean
  | .announce => .announce

/-- **Others do the same** in a scene. -/
theorem step_deed {σ : Type} [Link σ] (c : Scene σ) (m : Move) :
    c.step m.deed = (c.session.desk.move c.outside m).map fun (desk, outside) =>
      { session := { c.session with desk }, outside } := by
  obtain ⟨s, outside⟩ := c
  cases m with
  | claim | send | share | release | cancel => rfl
  | push p =>
    have hq : Scene.isQueueing ⟨s, outside⟩ = s.desk.isQueueing outside := by cases outside <;> rfl
    show (if Scene.isQueueing ⟨s, outside⟩ then _ else _) = _
    unfold move
    rw [hq]
    split <;> rfl
  | runHere p =>
    show (if s.desk.scope.isDisposed then _ else _) = Option.map _ (if _ then _ else _)
    split <;> rfl
  | raise =>
    unfold Move.deed Scene.step move
    dsimp only
    rcases s.desk.scope.raise with ⟨scope, _ | _⟩ <;> rfl
  | take => cases outside <;> rfl
  | clean | announce =>
    rcases outside with _ | _ | _ | _ <;> rfl

/-- **Everything that others can do** in one step, with the disposal from outside before and after. -/
inductive Moves (d : Desk ω) : Outside → Desk ω → Outside → Prop
  | claim {outside : Outside} (o : Outcome) :
      Moves d outside { d with promise := (d.promise.claim o).1 } outside
  | send {outside : Outside} : Moves d outside { d with promise := d.promise.send } outside
  | share {outside : Outside} : Moves d outside d.keep outside
  | release {outside : Outside} : Moves d outside d.release outside
  | cancel {outside : Outside} :
      Moves d outside { d with around := Surroundings.cancelBeat d.around } outside
  | push {outside : Outside} (p : Program) (hq : d.isQueueing outside = true) :
      Moves d outside (d.push (.program p)) outside
  | runHere {outside : Outside} (p : Program) (hd : d.scope.isDisposed = true) :
      Moves d outside (d.runCleanup (.program p)) outside
  | raise {outside : Outside} (hd : d.scope.isDisposed = false) :
      Moves d outside { d with scope := d.scope.raise.1 } .raised
  | take : Moves d .raised { d with scope := d.scope.takeQueue.1 } (.draining d.scope.takeQueue.2)
  | clean {k : Cleanup} {rest : List Cleanup} :
      Moves d (.draining (k :: rest)) (d.runCleanup k) (.draining rest)
  | announce : Moves d (.draining []) d.announce .none

/-- **Others do one of these things.** -/
theorem moves_of_move (h : d.move before m = some (e, after)) : d.Moves before e after := by
  cases m with
  | claim o =>
    cases h
    exact .claim o
  | send =>
    cases h
    exact .send
  | share =>
    cases h
    exact .share
  | release =>
    cases h
    exact .release
  | cancel =>
    cases h
    exact .cancel
  | push p =>
    rw [move] at h
    split at h <;> cases h
    rename_i hq
    exact .push p hq
  | runHere p =>
    rw [move] at h
    split at h <;> cases h
    rename_i hd
    exact .runHere p hd
  | raise =>
    have hraise : d.scope.raise = (d.scope.raise.1, !d.scope.isDisposed) := rfl
    rw [move, hraise] at h
    cases hd : d.scope.isDisposed with
    | true =>
      rw [hd] at h
      cases h
    | false =>
      rw [hd] at h
      cases h
      exact .raise hd
  | take =>
    unfold move at h
    dsimp only at h
    split at h <;> cases h
    exact .take
  | clean =>
    unfold move at h
    dsimp only at h
    split at h <;> cases h
    exact .clean
  | announce =>
    unfold move at h
    dsimp only at h
    split at h <;> cases h
    exact .announce

/-- The outcome that counts stays, whatever others do. -/
theorem promise_move (h : d.move before m = some (e, after)) : d.promise.Keeps e.promise := by
  cases moves_of_move h with
  | claim o => exact Promise.keeps_claim _ o
  | send => exact Promise.keeps_send _
  | release => exact Promise.keeps_release _
  | runHere | clean => exact (Leads.refl.runCleanup _).promise
  | share | cancel | push | raise | take | announce => exact .of_stage rfl

/-- **What holds of the surroundings** holds on, whatever others do, if closing the link and
cancelling the beat keep it. -/
theorem around_move {P : ω → Prop} (hclose : ∀ a, P a → P (Surroundings.closeLink a))
    (hcancel : ∀ a, P a → P (Surroundings.cancelBeat a)) (h : d.move before m = some (e, after))
    (hd : P d.around) : P e.around := by
  cases moves_of_move h with
  | cancel => exact hcancel _ hd
  | runHere | clean => exact (Leads.refl.runCleanup _).around hclose hcancel hd
  | claim | send | share | release | push | raise | take | announce => exact hd

end Desk

end HeldReply
