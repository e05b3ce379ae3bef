import HeldReply.Proofs.Scope.Worlds

/-!
# Waiting for a disposal

Whoever waits for a scope to be disposed of asks while the disposal goes on: the flag goes up, the
clean-ups run one after the other, and then the waiters are called.

* `World.WasPending` — a waiter was told to wait at some time;
* `Flag.StillAt` — it waits until it is called, or goes away, or was called;
* `World.poll_iff_of_isDisposed` — **what a waiter is told** from the time on at which the flag is up:
  whoever was told to wait before has to wait for the end of the clean-ups, and nobody else has.
-/

namespace HeldReply

namespace Flag

variable {f : Flag} {k : Nat}

/-- A waiter waits or went away, **or the waiters were called**. -/
def StillAt (f : Flag) (k : Nat) : Prop :=
  f.called = true ∨ f.StaysAt k

theorem StillAt.ask (h : StillAt f k) (q : Ask) : StillAt (f.ask q) k := by
  obtain hcalled | hstays := h
  · exact .inl ((f.ask_called q).trans hcalled)
  · exact .inr (hstays.ask q)

/-- Who was told to wait, before the waiters were called, waits. -/
theorem Fits.stillAt (h : Fits f) {w : Waiter} (hk : f.waiters[k]? = some w)
    (hw : w.stage.isParked = true) : StillAt f k := by
  cases hcalled : f.called with
  | true => exact .inl hcalled
  | false =>
    have hfits := (h.waiters w (List.mem_of_getElem? hk)).stage
    rw [hcalled] at hfits
    exact .inr ⟨w, hk, Waiter.Stage.stays_of_isParked hfits hw⟩

end Flag

namespace World

variable {w v : World} {i k : Nat}

/-- A waiter of a scope waits, or went away, or was called. -/
def StillAt (w : World) (i k : Nat) : Prop :=
  ∃ s, w.scopes[i]? = some s ∧ s.flag.StillAt k

/-- The scopes change in one place, if at all. -/
theorem StillAt.modify (h : StillAt w i k) {j : Nat}
    {f : Scope (List Action) → Scope (List Action)} (hv : v.scopes = w.scopes.modify j f)
    (hf : ∀ s : Scope (List Action), s.flag.StillAt k → (f s).flag.StillAt k) : StillAt v i k := by
  obtain ⟨s, hi, hs⟩ := h
  by_cases hji : j = i
  · exact ⟨f s, by simp [hv, hi, hji], hf s hs⟩
  · exact ⟨s, by simp [hv, hi, hji], hs⟩

theorem StillAt.of_scopes (h : StillAt w i k) (hv : v.scopes = w.scopes) : StillAt v i k := by
  obtain ⟨s, hi, hs⟩ := h
  exact ⟨s, hv ▸ hi, hs⟩

/-- **A step of a call** tells a waiter nothing, unless it calls it. -/
theorem StillAt.moves (h : StillAt w i k) (hm : Moves w v) : StillAt v i k := by
  cases hm with
  | note _ | next _ | leave _ _ | log _ _ | here _ _ _ => exact h.of_scopes rfl
  | announce _ => exact h.modify (f := Scope.announce) rfl fun _ _ => .inl rfl
  | shut _ _ _ => exact h.modify (f := Scope.shut) rfl fun _ hs => hs
  | push _ _ => exact h.modify (f := fun s => s.push _) rfl fun _ hs => hs

/-- **Whatever is done**, who was told to wait waits until it is called. -/
theorem StillAt.deed (h : StillAt w i k) (d : Deed) : StillAt (w.deed d) i k := by
  cases d with
  | create label =>
    obtain ⟨s, hi, hs⟩ := h
    have hlt := (List.getElem?_eq_some_iff.1 hi).1
    exact ⟨s, (List.getElem?_append_left hlt).trans hi, hs⟩
  | register j body =>
    simp only [World.deed, beginRegister]
    split
    · split
      · exact h.of_scopes rfl
      · exact h.modify (f := fun s => s.push body) rfl fun _ hs => hs
    · exact h
  | dispose j =>
    simp only [World.deed]
    split
    · obtain ⟨s, -, -, hw⟩ | ⟨-, hw⟩ := w.beginDispose_cases j
      · rw [hw]
        exact h.modify (f := Scope.shut) rfl fun _ hs => hs
      · rw [hw]
        exact h
    · exact h
  | proceed =>
    simp only [World.deed]
    cases hv : w.step with
    | none => exact h
    | some v => exact h.moves (moves_of_step hv)
  | ask j q => exact h.modify rfl fun _ hs => hs.ask q

theorem StillAt.foldl (h : StillAt w i k) (ds : List Deed) : StillAt (ds.foldl World.deed w) i k := by
  induction ds generalizing w with
  | nil => exact h
  | cons d ds ih => exact ih (h.deed d)

/-- A waiter of a scope **was told to wait**, at some time, and had not asked again by then. -/
def WasPending (ds : List Deed) (i k : Nat) : Prop :=
  ∃ before, before <+: ds ∧ ∃ s, (after before).scopes[i]? = some s ∧
    ∃ w, s.flag.waiters[k]? = some w ∧ w.stage.isParked = true

/-- Who was told to wait waits until it is called, or goes away. -/
theorem WasPending.stillAt {ds : List Deed} (h : WasPending ds i k) : StillAt (after ds) i k := by
  obtain ⟨before, ⟨more, rfl⟩, s, hi, w, hk, hw⟩ := h
  have hflag := ((sound_after before).fits i s hi).flag
  rw [after_append]
  exact StillAt.foldl ⟨s, hi, hflag.stillAt hk hw⟩ more

/-- **What a waiter is told** that asks for a scope that is disposed of:

* it is told so, unless the disposal is in progress and it was told to wait before;
* then it is told to wait again, and nobody wakes it while the disposal is in progress;
* as soon as the disposal is over everybody is told so. -/
theorem poll_iff_of_isDisposed (ds : List Deed) {s : Scope (List Action)} {x : Waiter}
    (hi : (after ds).scopes[i]? = some s) (hd : s.isDisposed = true)
    (hk : s.flag.waiters[k]? = some x) (hidle : x.stage.isIdle = true) :
    ((s.flag.poll k).2 = true ↔ ¬ (i ∈ (after ds).drains ∧ WasPending ds i k)) ∧
    (i ∈ (after ds).drains → s.flag.wakesOf k = 0) ∧
    ((after ds).stack = [] → (s.flag.poll k).2 = true) := by
  have hfits := (sound_after ds).fits i s hi
  have hcalled := hfits.called hd
  have hpoll := hfits.flag.poll_iff hd hk hidle
  have hnot (hdrains : i ∈ (after ds).drains) : s.flag.called = false :=
    Bool.eq_false_iff.2 fun hc => hcalled.1 hc hdrains
  refine ⟨?_, fun hdrains => ?_, fun hrest => ?_⟩
  · rw [hpoll, hcalled]
    constructor
    · rintro (hover | hparked) ⟨hdrains, hpending⟩
      · exact hover hdrains
      · obtain ⟨t, ht, hstill⟩ := hpending.stillAt
        obtain rfl : s = t := Option.some.inj (hi.symm.trans ht)
        obtain hc | ⟨y, hy, hstays⟩ := hstill
        · exact hcalled.1 hc hdrains
        · obtain rfl : x = y := Option.some.inj (hk.symm.trans hy)
          exact Waiter.Stage.not_stays hidle hparked hstays
    · intro hpending
      by_cases hdrains : i ∈ (after ds).drains
      · refine .inr (Bool.eq_false_iff.2 fun hparked => hpending ⟨hdrains, ?_⟩)
        exact ⟨ds, List.prefix_refl ds, s, hi, x, hk, hparked⟩
      · exact .inl hdrains
  · have hwakes := (hfits.flag.waiters x (List.mem_of_getElem? hk)).wakes (hnot hdrains)
    simp [Flag.wakesOf, hk, hwakes]
  · refine hpoll.2 (.inl (hcalled.2 ?_))
    simp [drains, hrest, drainsOf]

/-- Somebody waits for a scope, and its disposal begins; somebody else waits for it then. -/
def waitedFor : List Deed :=
  [.create "w", .ask 0 .join] ++ (Flag.asks 0).map (.ask 0)
    ++ [.register 0 [.observe 0], .dispose 0, .ask 0 .join]

/-- **A disposal is in progress**: who comes then is told so, and who was told to wait before waits. -/
theorem poll_waitedFor :
    ∃ s x, (after waitedFor).scopes[0]? = some s ∧ s.isDisposed = true ∧
      s.flag.waiters[0]? = some x ∧ x.stage.isIdle = true ∧ WasPending waitedFor 0 0 ∧
      (s.flag.poll 0).2 = false ∧ (s.flag.poll 1).2 = true := by
  refine ⟨_, _, rfl, rfl, rfl, rfl, ?_, ?_, rfl⟩
  · exact ⟨waitedFor, List.prefix_refl _, _, rfl, _, rfl, rfl⟩
  · refine Bool.eq_false_iff.2 fun hready => ?_
    have hiff := (poll_iff_of_isDisposed (i := 0) (k := 0) waitedFor rfl rfl rfl rfl).1
    refine hiff.1 hready ⟨?_, waitedFor, List.prefix_refl _, _, rfl, _, rfl, rfl⟩
    decide

end World

end HeldReply
