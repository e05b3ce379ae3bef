import HeldReply.Proofs.Session.Heeding

/-!
# Waiting for the beat

The closing and the calls that stop the beat wait for it to be over, each for a given time.  In a turn
nobody else begins to wait, and whoever has waited for so long goes on.

* `Session.takeHandle` — a caller **takes the handle of the beat**; `Session.stopWithin` is that and
  the first turn of the call;
* `Session.waitOf` — **how long a task waits** for the beat;
* `Session.waitOf_poll`, `Session.waitOf_poll_self` — who begins to wait in a turn, and who goes on.
-/

namespace HeldReply

open Recorded

/-! ### Calls -/

namespace Session

variable {σ : Type} {s v : Session (Recorded σ)} {i deadline : Nat} {held : Option Outcome}

/-- When a call that waits for so long **gives up**. -/
def givesUpAt (s : Session (Recorded σ)) (wait : Span) : Nat :=
  if wait.isZero then s.now else wait.waitUntil s.now

/-- The beat is cancelled and its handle taken, and a call is the **last one** so far. -/
def joins (s : Session (Recorded σ)) (call : Stop) : Session (Recorded σ) :=
  { s.cancel with joined := true, stops := s.stops ++ [call] }

/-- A caller cancels the beat and **takes its handle**.  If the handle is gone, the call returns. -/
def takeHandle (s : Session (Recorded σ)) (wait : Span) : Session (Recorded σ) :=
  s.joins (if s.joined then .answered true else .waiting (s.givesUpAt wait))

theorem le_givesUpAt (s : Session (Recorded σ)) (wait : Span) : s.now ≤ s.givesUpAt wait := by
  unfold givesUpAt
  split
  · exact Nat.le_refl _
  · exact wait.le_waitUntil s.now

theorem getElem?_stops_joins (s : Session (Recorded σ)) (call : Stop) :
    (s.joins call).stops[s.stops.length]? = some call :=
  List.getElem?_concat_length

/-- One call more **cancels the beat** at most. -/
theorem IsSingle.joins (h : s.IsSingle) (call : Stop) : Heeds False s (s.joins call) := by
  refine ⟨h, fun _ => rfl, id, .inl ⟨rfl, id⟩, fun i call' hi => ⟨call', ?_, .same call'⟩⟩
  have hlt : i < s.stops.length := (List.getElem?_eq_some_iff.1 hi).1
  exact (List.getElem?_append_left hlt).trans hi

theorem pollStop_joins (s : Session (Recorded σ)) (deadline : Nat) :
    (s.joins (.waiting deadline)).pollStop s.stops.length = s.joins (s.turned deadline) := by
  have hset : (s.stops ++ [Stop.waiting deadline]).set s.stops.length (s.turned deadline) =
      s.stops ++ [s.turned deadline] := by
    rw [List.set_append_right _ _ (Nat.le_refl _), Nat.sub_self, List.set_cons_zero]
  rw [pollStop_eq (s.getElem?_stops_joins _)]
  unfold joins
  rw [← hset]
  rfl

/-- Whoever has the handle waits if the first turn does not end the wait. -/
theorem stopCall_eq (hj : s.joined = false) (wait : Span) :
    s.stopCall wait = s.turned (s.givesUpAt wait) := by
  unfold stopCall turned stopAnswer? givesUpAt
  rw [hj, Bool.false_or]
  split
  · rfl
  · split
    · rw [if_pos (Nat.le_refl _)]
    · rename_i hz
      have hlater : ¬wait.waitUntil s.now ≤ s.now := by
        unfold Span.isZero at hz
        simp only [beq_iff_eq] at hz
        rw [Span.waitUntil_le_iff, Span.HasPassed]
        omega
      rw [if_neg hlater]

/-- **A call** takes the handle and has its first turn. -/
theorem stopWithin_eq (s : Session (Recorded σ)) (wait : Span) :
    (s.stopWithin wait).1 = (s.takeHandle wait).pollStop s.stops.length := by
  have hcall : (s.stopWithin wait).1 = s.joins (s.stopCall wait) := rfl
  rw [hcall, takeHandle]
  cases hj : s.joined with
  | true =>
    have hlate : s.stopCall wait = .answered true := by
      unfold stopCall
      rw [hj]
      rfl
    rw [hlate, if_pos rfl, pollStop, getElem?_stops_joins]
  | false => rw [if_neg Bool.false_ne_true, pollStop_joins, stopCall_eq hj]

/-! ### Waits -/

/-- **How long a task waits** for the beat to be over. -/
def waitOf (s : Session (Recorded σ)) : Task → Option Nat
  | .beat | .watcher => none
  | .closing =>
    match s.closing with
    | .stopping deadline _ => some deadline
    | _ => none
  | .stop i =>
    match s.stops[i]? with
    | some (.waiting deadline) => some deadline
    | _ => none

theorem waitOf_closing_iff :
    s.waitOf .closing = some deadline ↔ ∃ held, s.closing = .stopping deadline held := by
  unfold waitOf
  cases s.closing <;> simp

theorem waitOf_stop_iff :
    s.waitOf (.stop i) = some deadline ↔ s.stops[i]? = some (.waiting deadline) := by
  unfold waitOf
  cases hi : s.stops[i]? with
  | none => simp [hi]
  | some call => cases call <;> simp [hi]

theorem answered?_eq_some_iff {inTime : Bool} :
    s.answered? i = some inTime ↔ s.stops[i]? = some (.answered inTime) := by
  unfold answered?
  cases s.stops[i]? with
  | none => simp
  | some call => cases call <;> simp

/-- A call waits **until it returns**. -/
theorem isSome_answered?_iff {call : Stop} (hi : s.stops[i]? = some call) :
    (s.answered? i).isSome = true ↔ s.waitOf (.stop i) = none := by
  unfold answered? waitOf
  cases call <;> simp [hi]

/-- **What a call that waits returns** in its turn. -/
theorem answered?_pollStop (hi : s.stops[i]? = some (.waiting deadline)) :
    (s.pollStop i).answered? i = s.stopAnswer? deadline := by
  have hlt : i < s.stops.length := (List.getElem?_eq_some_iff.1 hi).1
  have hturned : (s.pollStop i).stops[i]? = some (s.turned deadline) := by
    rw [pollStop_eq hi]
    exact List.getElem?_set_self hlt
  unfold answered?
  rw [hturned]
  unfold turned
  cases s.stopAnswer? deadline <;> rfl

/-- Whoever waits for the beat **is one of the tasks**. -/
theorem mem_tasks_of_waitOf {t : Task} (h : s.waitOf t = some deadline) : t ∈ s.tasks := by
  cases t with
  | beat | watcher => cases h
  | closing => exact s.mem_tasks (.inr (.inr rfl))
  | stop i =>
    have hlt : i < s.stops.length := (List.getElem?_eq_some_iff.1 (waitOf_stop_iff.1 h)).1
    exact List.mem_append_left _ (List.mem_map_of_mem (List.mem_range.2 hlt))

/-- Only the phase of the closing and the calls tell. -/
theorem waitOf_congr (hk : v.closing = s.closing) (hs : v.stops = s.stops)
    (t : Task) : v.waitOf t = s.waitOf t := by
  unfold waitOf
  rw [hk, hs]

theorem ChangesBeat.waitOf_eq [Link σ] (h : s.ChangesBeat v) (t : Task) :
    v.waitOf t = s.waitOf t := by
  obtain ⟨desk, beat, beats, rfl⟩ := h
  exact waitOf_congr rfl rfl t

/-- A call that takes the handle waits for so long, **and no other begins to wait**. -/
theorem waitOf_takeHandle {wait : Span} {t : Task}
    (h : (s.takeHandle wait).waitOf t = some deadline) :
    s.waitOf t = some deadline ∨ t = .stop s.stops.length ∧ deadline = s.givesUpAt wait := by
  cases t with
  | beat | watcher => cases h
  | closing => exact .inl h
  | stop i =>
    rw [waitOf_stop_iff] at h ⊢
    have h : (s.stops ++ [_])[i]? = some (.waiting deadline) := h
    rw [List.getElem?_append] at h
    split at h
    · exact .inl h
    · rename_i hle
      obtain ⟨hi, h⟩ := List.getElem?_eq_some_iff.1 h
      rw [List.length_singleton] at hi
      obtain rfl : i = s.stops.length := by omega
      simp only [Nat.sub_self, List.getElem_cons_zero] at h
      split at h <;> cases h
      exact .inr ⟨rfl, rfl⟩

section Closing

variable [Link σ]

omit [Link σ] in
theorem ne_stopping_of_resolves {k : Closing} {b : Bool} (h : k.Resolves [.checked b]) :
    k ≠ .stopping deadline held := by
  rintro rfl
  cases held <;> cases h

/-- When the beat was waited for, the closing goes on. -/
theorem closing_afterStop_ne (s : Session (Recorded σ)) (held' : Option Outcome) :
    (s.afterStop held').closing ≠ .stopping deadline held := by
  cases held' with
  | none => exact ne_stopping_of_resolves (s.resolves_discard (.inr rfl))
  | some o => exact ne_stopping_of_resolves (s.resolves_afterStop o)

theorem eq_waitUntil_of_stopBeat {held' : Option Outcome}
    (h : (s.stopBeat held').closing = .stopping deadline held) :
    deadline = s.patience.waitUntil s.now := by
  rw [stopBeat_eq] at h
  split at h
  · exact absurd h (closing_afterStop_ne _ _)
  · split at h
    · exact absurd h (closing_afterStop_ne _ _)
    · cases h
      rfl

theorem eq_waitUntil_of_askOutcome {isFresh : Bool}
    (h : (s.askOutcome isFresh).closing = .stopping deadline held) :
    deadline = s.patience.waitUntil s.now := by
  cases ho : s.desk.promise.stage.outcome? with
  | some o =>
    rw [askOutcome_some ho] at h
    have hbegun := eq_waitUntil_of_stopBeat h
    exact hbegun
  | none =>
    rw [askOutcome_none ho] at h
    split at h
    · have hbegun := eq_waitUntil_of_stopBeat h
      exact hbegun
    · cases h

/-- The closing begins to wait for the beat **for as long as it has patience**. -/
theorem stopping_pollClosing (h : s.pollClosing.closing = .stopping deadline held) :
    s.closing = .stopping deadline held ∨ deadline = s.patience.waitUntil s.now := by
  unfold Session.pollClosing at h
  split at h
  · exact .inr (eq_waitUntil_of_askOutcome h)
  · exact .inr (eq_waitUntil_of_askOutcome h)
  · split at h
    · exact .inr (eq_waitUntil_of_stopBeat h)
    · exact .inl h
  · split at h
    · exact absurd h (closing_afterStop_ne _ _)
    · exact .inl h
  · rename_i ticket _
    have hsame : (s.pollCall ticket).1.closing = s.closing := rfl
    rcases hp : s.pollCall ticket with ⟨v, _ | r⟩ <;> rw [hp] at h hsame
    · exact .inl (hsame.symm.trans h)
    · exact absurd h (ne_stopping_of_resolves (v.resolves_afterPayload r))
  · rename_i ticket _
    have hsame : (s.pollCall ticket).1.closing = s.closing := rfl
    rcases hp : s.pollCall ticket with ⟨v, _ | r⟩ <;> rw [hp] at h hsame
    · exact .inl (hsame.symm.trans h)
    · exact absurd h (ne_stopping_of_resolves (v.resolves_afterFinish r))
  · exact .inl h
  · exact .inl h
  · exact .inl h

/-! ### Turns -/

/-- In a turn **nobody begins to wait but the closing**, for as long as it has patience. -/
theorem waitOf_poll {t u : Task} (h : (s.poll t).waitOf u = some deadline) : s.waitOf u = some deadline ∨
    u = .closing ∧ t = .closing ∧ deadline = s.patience.waitUntil s.now := by
  cases u with
  | beat | watcher => cases h
  | closing =>
    rw [waitOf_closing_iff] at h ⊢
    obtain ⟨held, h⟩ := h
    by_cases ht : t = .closing
    · rw [ht] at h
      obtain hsame | hbegun := stopping_pollClosing h
      · exact .inl ⟨held, hsame⟩
      · exact .inr ⟨rfl, ht, hbegun⟩
    · rw [closing_poll s ht] at h
      exact .inl ⟨held, h⟩
  | stop j =>
    left
    cases t with
    | beat => exact (s.changesBeat_pollBeat.waitOf_eq _).symm.trans h
    | watcher =>
      rw [waitOf_stop_iff] at h ⊢
      exact s.spares_pollWatcher.stops ▸ h
    | closing =>
      rw [waitOf_stop_iff] at h ⊢
      exact s.spares_pollClosing.stops ▸ h
    | stop i =>
      rw [waitOf_stop_iff] at h ⊢
      have h : (s.pollStop i).stops[j]? = some (.waiting deadline) := h
      obtain hs | ⟨d, hi, hs⟩ := s.pollStop_cases i <;> rw [hs] at h
      · exact h
      · by_cases hij : i = j
        · rw [← hij, List.getElem?_set_self (List.getElem?_eq_some_iff.1 hi).1] at h
          unfold turned at h
          split at h <;> cases h
          rw [← hij]
          exact hi
        · exact (List.getElem?_set_ne hij).symm.trans h

/-- **A wait is over** with the beat, or when it has lasted for so long. -/
theorem waitOf_poll_self {t : Task} (h : s.waitOf t = some deadline)
    (hd : s.beat.isOver = true ∨ deadline ≤ s.now) : (s.poll t).waitOf t = none := by
  rw [Option.eq_none_iff_forall_ne_some]
  intro d hw
  cases t with
  | beat | watcher => cases h
  | closing =>
    obtain ⟨held, hk⟩ := waitOf_closing_iff.1 h
    obtain ⟨held', hv⟩ := waitOf_closing_iff.1 hw
    have hgoes : s.poll .closing = s.afterStop held := by
      show s.pollClosing = _
      unfold Session.pollClosing
      rw [hk]
      exact if_pos (by simpa using hd)
    rw [hgoes] at hv
    exact closing_afterStop_ne s held hv
  | stop i =>
    have hi := waitOf_stop_iff.1 h
    have hlt : i < s.stops.length := (List.getElem?_eq_some_iff.1 hi).1
    have hreturns : s.turned deadline ≠ .waiting d := by
      intro hwaits
      unfold turned stopAnswer? at hwaits
      obtain hover | hlate := hd
      · rw [if_pos hover] at hwaits
        cases hwaits
      · rw [if_pos hlate] at hwaits
        split at hwaits
        · cases hwaits
        · rename_i hnone
          split at hnone <;> cases hnone
    have hw : (s.pollStop i).stops[i]? = some (.waiting d) := waitOf_stop_iff.1 hw
    rw [pollStop_eq hi] at hw
    exact hreturns (Option.some.inj ((List.getElem?_set_self hlt).symm.trans hw))

end Closing

end Session

end HeldReply
