import HeldReply.Flag

/-!
# What waiters of a flag are told

Waiters come and go, and ask in steps, while the flag goes up and they are called.  What a waiter was
told, and whether it was woken, fits what became of the flag.

* `Flag.Ask`, `Flag.ask` — what waiters do;
* `Waiter.Kept`, `Flag.At.ask` — what is true of a waiter, **whatever it does**, stays true of it;
* `Waiter.Fits`, `Flag.Fits` — **the invariant**: what a waiter was told fits the flag;
* `Flag.Fits.ask`, `Flag.Fits.raise`, `Flag.Fits.call` — each step keeps it;
* `Flag.Fits.poll_iff` — **what a waiter is told** that asks when the flag is up;
* `Flag.StaysAt`, `Flag.StaysAt.ask` — who was told to wait waits until it is called, or goes away.
-/

namespace HeldReply

namespace Waiter

variable {w : Waiter} {raised called : Bool}

/-- Whether the waiter has asked, or could ask, and is not in the middle of it. -/
def Stage.isIdle : Stage → Bool
  | .fresh | .parked _ | .ready => true
  | _ => false

/-- Whether the waiter was told to wait, and not asked again since. -/
def Stage.isParked : Stage → Bool
  | .parked _ => true
  | _ => false

/-- What a waiter has done fits the flag, and whether the waiters were called: whoever saw the flag
down is reached by the call. -/
def Stage.fits (raised called : Bool) : Stage → Bool
  | .fresh | .gone => true
  | .enrolled heard => !heard || called
  | .looked heard | .parked heard => heard == called
  | .ready => raised

/-- What a waiter was told **fits** the flag, and nobody wakes it before the call. -/
structure Fits (raised called : Bool) (w : Waiter) : Prop where
  stage : w.stage.fits raised called = true
  wakes : called = false → w.wakes = 0

/-- What is true of a waiter **whatever it does**, while the flag is up or down. -/
structure Kept (raised : Bool) (P : Waiter → Prop) : Prop where
  enroll : ∀ w, P w → P w.enroll
  look : ∀ w, P w → P (w.look raised)
  park : ∀ w, P w → P w.park
  quit : ∀ w, P w → P { w with stage := .gone }

theorem fits_new (raised called : Bool) : Fits raised called {} :=
  ⟨rfl, fun _ => rfl⟩

theorem Fits.enroll (h : Fits raised called w) : Fits raised called w.enroll := by
  unfold Waiter.enroll
  split
  · exact ⟨rfl, h.wakes⟩
  · exact ⟨rfl, h.wakes⟩
  · exact h

/-- Whoever looks and sees the flag down was not called before. -/
theorem Fits.look (h : Fits raised called w) (hcalled : called = true → raised = true) :
    Fits raised called (w.look raised) := by
  unfold Waiter.look
  split
  · rename_i heard hstage
    refine ⟨?_, h.wakes⟩
    cases raised with
    | true => rfl
    | false =>
      have hheard := h.stage
      rw [hstage] at hheard
      cases called with
      | true => cases hcalled rfl
      | false =>
        cases heard with
        | true => cases hheard
        | false => rfl
  · exact h

theorem Fits.park (h : Fits raised called w) : Fits raised called w.park := by
  unfold Waiter.park
  split
  · rename_i hstage
    have hlooked := h.stage
    rw [hstage] at hlooked
    exact ⟨hlooked, h.wakes⟩
  · exact ⟨rfl, h.wakes⟩
  · exact h

theorem Fits.quit (h : Fits raised called w) : Fits raised called { w with stage := .gone } :=
  ⟨rfl, h.wakes⟩

theorem kept_fits (hcalled : called = true → raised = true) : Kept raised (Fits raised called) :=
  ⟨fun _ h => h.enroll, fun _ h => h.look hcalled, fun _ h => h.park, fun _ h => h.quit⟩

theorem Fits.raise (h : Fits raised called w) : Fits true called w := by
  obtain ⟨stage, wakes⟩ := w
  refine ⟨?_, h.wakes⟩
  have hstage := h.stage
  cases stage with
  | ready => rfl
  | fresh | enrolled | looked | parked | gone => exact hstage

/-- **The call** reaches whoever saw the flag down. -/
theorem Fits.hear (h : Fits raised called w) : Fits raised true w.hear := by
  obtain ⟨stage, wakes⟩ := w
  refine ⟨?_, fun hc => by cases hc⟩
  have hstage := h.stage
  cases stage with
  | parked heard => cases heard <;> rfl
  | ready => exact hstage
  | fresh | enrolled | looked | gone => rfl

/-- **What a waiter is told** that asks when the flag is up: to wait, if it was told so before and
has not been called. -/
theorem Fits.asks (h : Fits true called w) (hidle : w.stage.isIdle = true) :
    ((w.enroll.look true).park.stage == .ready) = (called || !w.stage.isParked) := by
  obtain ⟨stage, wakes⟩ := w
  have hstage := h.stage
  cases stage with
  | parked heard =>
    obtain rfl : heard = called := beq_iff_eq.1 hstage
    cases heard <;> rfl
  | fresh | ready => cases called <;> rfl
  | enrolled | looked | gone => cases hidle

/-- **Who was told to wait** waits until it is called, or goes away. -/
def Stage.stays : Stage → Bool
  | .parked heard => !heard
  | .gone => true
  | _ => false

/-- Asking again does nothing to it. -/
theorem asks_of_stays (h : w.stage.stays = true) :
    w.enroll = w ∧ (∀ raised, w.look raised = w) ∧ w.park = w := by
  obtain ⟨stage, wakes⟩ := w
  cases stage with
  | parked heard =>
    cases heard with
    | true => cases h
    | false => exact ⟨rfl, fun _ => rfl, rfl⟩
  | gone => exact ⟨rfl, fun _ => rfl, rfl⟩
  | fresh | enrolled | looked | ready => cases h

theorem kept_stays (raised : Bool) : Kept raised fun w => w.stage.stays = true := by
  refine ⟨fun w h => ?_, fun w h => ?_, fun w h => ?_, fun w _ => rfl⟩
  · rw [(asks_of_stays h).1]
    exact h
  · rw [(asks_of_stays h).2.1]
    exact h
  · rw [(asks_of_stays h).2.2]
    exact h

theorem Stage.stays_of_isParked {stage : Stage} (hfits : stage.fits raised false = true)
    (h : stage.isParked = true) : stage.stays = true := by
  cases stage with
  | parked heard =>
    obtain rfl : heard = false := beq_iff_eq.1 hfits
    rfl
  | fresh | enrolled | looked | ready | gone => cases h

/-- Who is not told to wait, and may ask, does not wait. -/
theorem Stage.not_stays {stage : Stage} (hidle : stage.isIdle = true)
    (hparked : stage.isParked = false) : ¬ stage.stays = true := by
  intro hstays
  cases stage with
  | parked heard => cases hparked
  | gone => cases hidle
  | fresh | enrolled | looked | ready => cases hstays

end Waiter

namespace Flag

variable {f : Flag} {w : Waiter} {k : Nat} {P : Waiter → Prop}

/-- What a waiter **does**; waiters go by number. -/
inductive Ask where
  /-- One waiter more. -/
  | join
  | enroll (i : Nat)
  | look (i : Nat)
  | park (i : Nat)
  | quit (i : Nat)
  deriving DecidableEq, Repr

/-- A waiter does something. -/
def ask (f : Flag) : Ask → Flag
  | .join => f.join.1
  | .enroll i => f.enroll i
  | .look i => f.look i
  | .park i => f.park i
  | .quit i => f.quit i

/-- The three steps of asking. -/
def asks (k : Nat) : List Ask :=
  [.enroll k, .look k, .park k]

@[simp]
theorem ask_raised (f : Flag) (q : Ask) : (f.ask q).raised = f.raised := by
  cases q <;> rfl

@[simp]
theorem ask_called (f : Flag) (q : Ask) : (f.ask q).called = f.called := by
  cases q <;> rfl

theorem length_le_ask (f : Flag) (q : Ask) : f.waiters.length ≤ (f.ask q).waiters.length := by
  cases q with
  | join => exact List.length_append ▸ Nat.le_add_right _ _
  | enroll | look | park | quit => exact Nat.le_of_eq (List.length_modify ..).symm

/-- What is true of the waiter of a number, if there is one. -/
def At (f : Flag) (k : Nat) (P : Waiter → Prop) : Prop :=
  ∀ w, f.waiters[k]? = some w → P w

theorem At.modify (h : f.At k P) {φ : Waiter → Waiter} (hφ : ∀ w, P w → P (φ w)) (i : Nat) :
    At { f with waiters := f.waiters.modify i φ } k P := by
  intro w hw
  obtain ⟨v, hv, rfl⟩ := Option.map_eq_some_iff.1 ((List.getElem?_modify ..).symm.trans hw)
  have hP := h v hv
  by_cases hik : i = k
  · rw [if_pos hik]
    exact hφ v hP
  · rw [if_neg hik]
    exact hP

/-- **Whatever waiters do**, what is true of one stays true; of one that comes it must be true. -/
theorem At.ask (h : f.At k P) (hkept : Waiter.Kept f.raised P) (hnew : k = f.waiters.length → P {})
    (q : Ask) : (f.ask q).At k P := by
  cases q with
  | join =>
    intro w hw
    obtain hlt | hge := Nat.lt_or_ge k f.waiters.length
    · exact h w ((List.getElem?_append_left hlt).symm.trans hw)
    · obtain ⟨heq, rfl⟩ : f.waiters.length = k ∧ {} = w := by
        have hlast := (List.getElem?_append_right hge).symm.trans hw
        have hlt := (List.getElem?_eq_some_iff.1 hlast).1
        have hzero : k - f.waiters.length = 0 := by simpa using hlt
        rw [hzero] at hlast
        exact ⟨by omega, Option.some.inj hlast⟩
      exact hnew heq.symm
  | enroll i => exact h.modify hkept.enroll i
  | look i => exact h.modify hkept.look i
  | park i => exact h.modify hkept.park i
  | quit i => exact h.modify hkept.quit i

/-- What the waiters were told **fits** the flag. -/
structure Fits (f : Flag) : Prop where
  called_raised : f.called = true → f.raised = true
  waiters : ∀ w ∈ f.waiters, w.Fits f.raised f.called

theorem fits_new : Fits {} :=
  ⟨fun h => (by cases h), fun _ hw => absurd hw List.not_mem_nil⟩

/-- **Whatever a waiter does**, what it was told fits the flag. -/
theorem Fits.ask (h : Fits f) (q : Ask) : Fits (f.ask q) := by
  refine ⟨?_, fun w hw => ?_⟩ <;> rw [ask_raised, ask_called]
  · exact h.called_raised
  · obtain ⟨k, hk⟩ := List.mem_iff_getElem?.1 hw
    have hat : f.At k (Waiter.Fits f.raised f.called) :=
      fun v hv => h.waiters v (List.mem_of_getElem? hv)
    exact hat.ask (Waiter.kept_fits h.called_raised) (fun _ => Waiter.fits_new _ _) q w hk

theorem Fits.raise (h : Fits f) : Fits f.raise.1 :=
  ⟨fun _ => rfl, fun w hw => (h.waiters w hw).raise⟩

theorem Fits.call (h : Fits f) (hraised : f.raised = true) : Fits f.call := by
  refine ⟨fun _ => hraised, fun w hw => ?_⟩
  obtain ⟨v, hv, rfl⟩ := List.mem_map.1 hw
  exact (h.waiters v hv).hear

/-- **What a waiter is told** that asks in one go. -/
theorem poll_eq (hk : f.waiters[k]? = some w) :
    (f.poll k).2 = ((w.enroll.look f.raised).park.stage == .ready) := by
  have hasked : (((f.enroll k).look k).park k).waiters[k]? =
      some ((w.enroll.look f.raised).park) := by
    simp [enroll, look, park, hk]
  show (((f.enroll k).look k).park k).isReady k = _
  rw [isReady, hasked]
  rfl

/-- **What a waiter is told** that asks when the flag is up: that it is up, or, if it was told to wait
before and the waiters have not been called, to wait. -/
theorem Fits.poll_iff (h : Fits f) (hraised : f.raised = true) (hk : f.waiters[k]? = some w)
    (hidle : w.stage.isIdle = true) :
    (f.poll k).2 = true ↔ f.called = true ∨ w.stage.isParked = false := by
  have hfits : w.Fits true f.called := hraised ▸ h.waiters w (List.mem_of_getElem? hk)
  rw [poll_eq hk, hraised, hfits.asks hidle, Bool.or_eq_true, Bool.not_eq_true']

/-- The waiter of a number was told to wait, or went away. -/
def StaysAt (f : Flag) (k : Nat) : Prop :=
  ∃ w, f.waiters[k]? = some w ∧ w.stage.stays = true

/-- **Who was told to wait** is not told anything else by asking again. -/
theorem StaysAt.ask (h : StaysAt f k) (q : Ask) : StaysAt (f.ask q) k := by
  obtain ⟨w, hw, hstays⟩ := h
  have hlt := (List.getElem?_eq_some_iff.1 hw).1
  have hat : f.At k fun w => w.stage.stays = true :=
    fun v hv => Option.some.inj (hw.symm.trans hv) ▸ hstays
  have hget := List.getElem?_eq_getElem (Nat.lt_of_lt_of_le hlt (f.length_le_ask q))
  exact ⟨_, hget, hat.ask (Waiter.kept_stays _) (fun hk => absurd hk (by omega)) q _ hget⟩

end Flag

end HeldReply
