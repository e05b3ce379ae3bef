import HeldReply.Proofs.Flag
import Mathlib.Data.List.Induction

/-!
# Nobody waits in vain

Whoever sets a flag raises it first and calls the waiters later, and waiters come, ask and go
between any two steps.  Whatever the order is, nobody is told too early that the flag is up, and
nobody who was told to wait is forgotten.

* `Waiter.Counted`, `Waiter.Heeded`, `Waiter.Prompt` — how often a waiter is woken, that one who was
  told to wait is called, and that one who comes later is not told to wait;
* `Flag.Turn` — **one step** of whoever waits for a flag or sets it;
* `Flag.Course` — a flag as things happen, one after the other;
* `Flag.Effect`, `Flag.Owed` — what a step does to a flag and to **who owes the waiters their
  call**, and that one does at most;
* `Flag.SetBy`, `Flag.setBy_of_effects` — a flag that is set by calls;
* `Flag.Serves`, `Flag.SetBy.serves` — **what those who wait for such a flag may rely on**;
* `Flag.OneShot` — both in one.
-/

namespace HeldReply

namespace Waiter

variable {w : Waiter} {raised called : Bool}

@[simp]
theorem wakes_enroll (w : Waiter) : w.enroll.wakes = w.wakes := by
  unfold enroll
  split <;> rfl

@[simp]
theorem wakes_look (raised : Bool) (w : Waiter) : (w.look raised).wakes = w.wakes := by
  unfold look
  split <;> rfl

@[simp]
theorem wakes_park (w : Waiter) : w.park.wakes = w.wakes := by
  unfold park
  split <;> rfl

/-- **How often a waiter is woken**: at most once, and once if it was called while it waited. -/
structure Counted (w : Waiter) : Prop where
  wakes_le : w.wakes ≤ 1
  parked : w.stage = .parked true → w.wakes = 1

theorem counted_new : Counted {} :=
  ⟨Nat.zero_le 1, fun h => (by cases h)⟩

theorem kept_counted (raised : Bool) : Kept raised Counted := by
  refine ⟨?_, ?_, ?_, ?_⟩ <;> rintro ⟨stage, wakes⟩ h
  · cases stage with
    | parked heard =>
      cases heard with
      | true => exact ⟨h.wakes_le, fun h' => (by cases h')⟩
      | false => exact h
    | fresh => exact ⟨h.wakes_le, fun h' => (by cases h')⟩
    | enrolled | looked | ready | gone => exact h
  · cases stage with
    | enrolled => cases raised <;> exact ⟨h.wakes_le, fun h' => (by cases h')⟩
    | fresh | parked | looked | ready | gone => exact h
  · cases stage with
    | looked heard => cases heard <;> exact ⟨h.wakes_le, fun h' => (by cases h')⟩
    | fresh | enrolled | parked | ready | gone => exact h
  · exact ⟨h.wakes_le, fun h' => (by cases h')⟩

/-- **The call** wakes a waiter for the first time. -/
theorem Counted.hear (h : Counted w) (hw : w.wakes = 0) : Counted w.hear := by
  obtain ⟨stage, wakes⟩ := w
  obtain rfl : wakes = 0 := hw
  cases stage with
  | parked heard =>
    cases heard with
    | true => exact h
    | false => exact ⟨Nat.le_refl 1, fun _ => rfl⟩
  | enrolled | looked => exact ⟨Nat.zero_le 1, fun h' => (by cases h')⟩
  | fresh | ready | gone => exact h

/-- **A waiter that was told to wait** waits until it is called, and then is woken once; or it goes
away. -/
def Heeded (called : Bool) (w : Waiter) : Prop :=
  if called then w.stage = .gone ∨ w.wakes = 1 else w.stage.stays = true

theorem kept_heeded (raised called : Bool) : Kept raised (Heeded called) := by
  cases called with
  | false => exact kept_stays raised
  | true =>
    have hkept {g : Waiter → Waiter} (hg : ∀ w, (g w).wakes = w.wakes)
        (hgone : ∀ w : Waiter, w.stage = .gone → (g w).stage = .gone) (w : Waiter)
        (h : Heeded true w) : Heeded true (g w) :=
      h.imp (hgone w) fun hw => (hg w).trans hw
    refine ⟨hkept wakes_enroll ?_, hkept (wakes_look raised) ?_, hkept wakes_park ?_,
      fun w _ => .inl rfl⟩
    · intro w h
      simp only [enroll, h]
    · intro w h
      simp only [look, h]
    · intro w h
      simp only [park, h]

/-- **The call** wakes whoever was told to wait. -/
theorem Heeded.hear (h : Heeded false w) (hw : w.wakes = 0) : Heeded true w.hear := by
  obtain ⟨stage, wakes⟩ := w
  obtain rfl : wakes = 0 := hw
  cases stage with
  | parked heard =>
    cases heard with
    | true => cases h
    | false => exact .inr rfl
  | gone => exact .inl rfl
  | fresh | enrolled | looked | ready => cases h

/-- A waiter that **asks for the first time** when the flag is up: it is not told to wait. -/
def Prompt (w : Waiter) : Prop :=
  match w.stage with
  | .fresh | .enrolled _ | .ready | .gone => True
  | .looked _ | .parked _ => False

theorem kept_prompt : Kept true Prompt := by
  refine ⟨?_, ?_, ?_, fun w _ => trivial⟩ <;> rintro ⟨stage, wakes⟩ h
  all_goals
    cases stage with
    | fresh | enrolled | ready | gone => trivial
    | looked | parked => cases h

theorem prompt_of_fresh (h : w.stage = .fresh) : Prompt w := by
  rw [Prompt, h]
  trivial

theorem Prompt.isParked (h : Prompt w) : w.stage.isParked = false := by
  obtain ⟨stage, wakes⟩ := w
  cases stage with
  | fresh | enrolled | ready | gone => rfl
  | looked | parked => cases h

theorem Prompt.hear (h : Prompt w) : Prompt w.hear := by
  obtain ⟨stage, wakes⟩ := w
  cases stage with
  | fresh | enrolled | ready | gone => trivial
  | looked | parked => cases h

/-- **What a waiter is told** that asks for the first time when the flag is up. -/
theorem Prompt.asks (h : Prompt w) (hgone : w.stage ≠ .gone) :
    (w.enroll.look true).park.stage = .ready := by
  obtain ⟨stage, wakes⟩ := w
  cases stage with
  | fresh | enrolled | ready => rfl
  | gone => exact absurd rfl hgone
  | looked | parked => cases h

/-- **What a waiter is told** after the call, when it has come to the end of a question that it was
asking. -/
theorem Fits.asks_of_called (h : Fits true true w) (hgone : w.stage ≠ .gone) :
    (w.park.enroll.look true).park.stage = .ready := by
  obtain ⟨stage, wakes⟩ := w
  have hstage := h.stage
  cases stage with
  | looked heard | parked heard =>
    obtain rfl : heard = true := beq_iff_eq.1 hstage
    rfl
  | fresh | enrolled | ready => rfl
  | gone => exact absurd rfl hgone

end Waiter

namespace Flag

variable {f g : Flag} {w : Waiter} {k : Nat} {P Q : Waiter → Prop}

/-! ### One step -/

/-- **One step** of whoever waits for the flag or sets it. -/
inductive Turn (f : Flag) : Flag → Prop
  | still : Turn f f
  | ask (q : Ask) : Turn f (f.ask q)
  | raise (h : f.raised = false) : Turn f f.raise.1
  | call (hraised : f.raised = true) (hcalled : f.called = false) : Turn f f.call

/-- A flag that is up stays up. -/
theorem Turn.raised (ht : Turn f g) (h : f.raised = true) : g.raised = true := by
  cases ht with
  | ask q => exact (f.ask_raised q).trans h
  | raise _ => rfl
  | still | call _ _ => exact h

theorem At.call (h : f.At k P) (hhear : ∀ w ∈ f.waiters, P w → Q w.hear) : f.call.At k Q := by
  intro w hw
  obtain ⟨v, hv, rfl⟩ := Option.map_eq_some_iff.1 ((List.getElem?_map ..).symm.trans hw)
  exact hhear v (List.mem_of_getElem? hv) (h v hv)

/-- **The waiters** of a flag: what they were told fits it, and how often they were woken. -/
structure Sound (f : Flag) : Prop where
  fits : f.Fits
  counted : ∀ k, f.At k Waiter.Counted

theorem sound_new : Sound {} :=
  ⟨fits_new, fun _ _ hw => (by cases hw)⟩

theorem Sound.turn (h : Sound f) (ht : Turn f g) : Sound g := by
  cases ht with
  | still => exact h
  | ask q =>
    refine ⟨h.fits.ask q, fun k => ?_⟩
    exact (h.counted k).ask (Waiter.kept_counted _) (fun _ => Waiter.counted_new) q
  | raise _ => exact ⟨h.fits.raise, h.counted⟩
  | call hraised hcalled =>
    refine ⟨h.fits.call hraised, fun k => (h.counted k).call fun w hw hcounted => ?_⟩
    exact hcounted.hear ((h.fits.waiters w hw).wakes hcalled)

/-- **A waiter that was told to wait** is heeded. -/
def Heeds (f : Flag) (k : Nat) : Prop :=
  k < f.waiters.length ∧ f.At k (Waiter.Heeded f.called)

theorem Heeds.turn (h : Heeds f k) (hs : Sound f) (ht : Turn f g) : Heeds g k := by
  obtain ⟨hlt, hheeded⟩ := h
  cases ht with
  | still => exact ⟨hlt, hheeded⟩
  | ask q =>
    refine ⟨Nat.lt_of_lt_of_le hlt (f.length_le_ask q), ?_⟩
    rw [ask_called]
    exact hheeded.ask (Waiter.kept_heeded _ _) (fun hk => absurd hlt (by omega)) q
  | raise _ => exact ⟨hlt, hheeded⟩
  | call hraised hcalled =>
    refine ⟨(List.length_map ..).symm ▸ hlt, hheeded.call fun w hw hstays => ?_⟩
    rw [hcalled] at hstays
    exact hstays.hear ((hs.fits.waiters w hw).wakes hcalled)

/-- A waiter that was told to wait is heeded from then on. -/
theorem Sound.heeds (h : Sound f) (hk : f.waiters[k]? = some w) (hw : w.stage.isParked = true) :
    Heeds f k := by
  refine ⟨(List.getElem?_eq_some_iff.1 hk).1, fun v hv => ?_⟩
  obtain rfl : w = v := Option.some.inj (hk.symm.trans hv)
  have hfits := (h.fits.waiters w (List.mem_of_getElem? hk)).stage
  cases hcalled : f.called with
  | false =>
    rw [hcalled] at hfits
    exact Waiter.Stage.stays_of_isParked hfits hw
  | true =>
    rw [hcalled] at hfits
    refine .inr ((h.counted k w hk).parked ?_)
    cases hstage : w.stage with
    | parked heard =>
      rw [hstage] at hfits
      rw [beq_iff_eq.1 hfits]
    | fresh | enrolled | looked | ready | gone =>
      rw [hstage] at hw
      cases hw

/-- **A waiter that asks for the first time** when the flag is up is not told to wait. -/
def Prompts (f : Flag) (k : Nat) : Prop :=
  f.raised = true ∧ f.At k Waiter.Prompt

theorem Prompts.turn (h : Prompts f k) (ht : Turn f g) : Prompts g k := by
  obtain ⟨hraised, hprompt⟩ := h
  refine ⟨ht.raised hraised, ?_⟩
  cases ht with
  | still | raise _ => exact hprompt
  | ask q =>
    refine hprompt.ask ?_ (fun _ => trivial) q
    rw [hraised]
    exact Waiter.kept_prompt
  | call _ _ => exact hprompt.call fun w _ hw => hw.hear

/-! ### Things that happen one after the other -/

/-- **A flag as things happen**, one after the other: at first nobody waits, and whatever happens is
a step of one who waits for the flag or sets it. -/
structure Course {α : Type} (f : List α → Flag) : Prop where
  start : f [] = {}
  turn : ∀ ms m, Turn (f ms) (f (ms ++ [m]))

variable {α ι : Type} {φ : List α → Flag} {before ms : List α}

/-- **What every step keeps** is true from some time on. -/
theorem Course.keeps (h : Course φ) {P : Flag → Prop} (hP : ∀ f g, Turn f g → P f → P g)
    (hb : before <+: ms) (hbefore : P (φ before)) : P (φ ms) := by
  obtain ⟨more, rfl⟩ := hb
  induction more using List.reverseRecOn with
  | nil => rwa [List.append_nil]
  | append_singleton more m ih =>
    rw [← List.append_assoc]
    exact hP _ _ (h.turn _ m) ih

theorem Course.sound (h : Course φ) (ms : List α) : Sound (φ ms) := by
  refine h.keeps (fun f g ht hf => hf.turn ht) (List.nil_prefix) ?_
  rw [h.start]
  exact sound_new

/-- The waiter of a number **was told to wait**, at some time, and had not asked again by then. -/
def WasTold (φ : List α → Flag) (ms : List α) (k : Nat) : Prop :=
  ∃ before, before <+: ms ∧ ∃ w, (φ before).waiters[k]? = some w ∧ w.stage.isParked = true

theorem Course.heeds (h : Course φ) (hk : WasTold φ ms k) : Heeds (φ ms) k := by
  obtain ⟨before, hb, w, hw, hparked⟩ := hk
  -- What a call does to a waiter is known only of one that was not woken before.
  have hboth := h.keeps (P := fun f => Sound f ∧ Heeds f k)
    (fun f g ht hf => ⟨hf.1.turn ht, hf.2.turn hf.1 ht⟩) hb
    ⟨h.sound before, (h.sound before).heeds hw hparked⟩
  exact hboth.2

/-- **What a waiter is told** next: if it is in the middle of a question, that is brought to its end
first. -/
def answer (f : Flag) (k : Nat) : Bool :=
  ((f.park k).poll k).2

/-- After the call **everybody is told** that the flag is up. -/
theorem Fits.answer (h : f.Fits) (hcalled : f.called = true) (hk : f.waiters[k]? = some w)
    (hgone : w.stage ≠ .gone) : f.answer k = true := by
  have hraised := h.called_raised hcalled
  have hfits := h.waiters w (List.mem_of_getElem? hk)
  rw [hraised, hcalled] at hfits
  have hparked : (f.park k).waiters[k]? = some w.park := by
    simp [park, hk]
  rw [Flag.answer, poll_eq hparked]
  show ((w.park.enroll.look f.raised).park.stage == .ready) = true
  rw [hraised, hfits.asks_of_called hgone]
  rfl

/-! ### Calls that set the flag -/

/-- **What a step does** to a flag, and to who owes the waiters their call: a call that raises the
flag owes it, and a call that calls the waiters owes it no longer. -/
inductive Effect (acts owes owes' : ι → Prop) (f : Flag) : Flag → Prop
  | still (ho : ∀ y, owes' y ↔ owes y) : Effect acts owes owes' f f
  | ask (q : Ask) (ho : ∀ y, owes' y ↔ owes y) : Effect acts owes owes' f (f.ask q)
  | raise {x : ι} (hx : acts x) (hdown : f.raised = false) (ho : ∀ y, owes' y ↔ owes y ∨ y = x) :
      Effect acts owes owes' f f.raise.1
  | call {x : ι} (hx : acts x) (howes : owes x) (ho : ∀ y, owes' y ↔ owes y ∧ y ≠ x) :
      Effect acts owes owes' f f.call

/-- **Who owes the call**: while the flag is up and the waiters were not called, one does. -/
structure Owed (owes : ι → Prop) (f : Flag) : Prop where
  exists_iff : (∃ x, owes x) ↔ f.raised = true ∧ f.called = false
  unique : ∀ x y, owes x → owes y → x = y

section Effect

variable {acts owes owes' : ι → Prop}

theorem Owed.of_owes (h : Owed owes f) (ho : ∀ y, owes' y ↔ owes y) (hr : g.raised = f.raised)
    (hc : g.called = f.called) : Owed owes' g := by
  refine ⟨?_, fun x y hx hy => h.unique x y ((ho x).1 hx) ((ho y).1 hy)⟩
  rw [hr, hc, ← h.exists_iff]
  exact exists_congr ho

theorem Owed.not_owes_of_down (h : Owed owes f) (hdown : f.raised = false) (y : ι) : ¬ owes y := by
  intro hy
  have hup := (h.exists_iff.1 ⟨y, hy⟩).1
  rw [hdown] at hup
  cases hup

/-- **Every step keeps it**: one call owes it at most. -/
theorem Owed.effect (h : Owed owes f) (hfits : f.Fits) (he : Effect acts owes owes' f g) :
    Owed owes' g := by
  cases he with
  | still ho => exact h.of_owes ho rfl rfl
  | ask q ho => exact h.of_owes ho (f.ask_raised q) (f.ask_called q)
  | @raise x hx hdown ho =>
    have honly (y : ι) (hy : owes' y) : y = x :=
      ((ho y).1 hy).resolve_left (h.not_owes_of_down hdown y)
    have hcalled : f.called = false := Bool.eq_false_iff.2 fun hc => by
      rw [hfits.called_raised hc] at hdown
      cases hdown
    refine ⟨⟨fun _ => ⟨rfl, hcalled⟩, fun _ => ⟨x, (ho x).2 (.inr rfl)⟩⟩, fun y z hy hz => ?_⟩
    rw [honly y hy, honly z hz]
  | @call x hx howes ho =>
    have hnone (y : ι) : ¬ owes' y := fun hy =>
      ((ho y).1 hy).2 (h.unique y x ((ho y).1 hy).1 howes)
    refine ⟨⟨fun ⟨y, hy⟩ => absurd hy (hnone y), fun ⟨_, hc⟩ => (by cases hc)⟩, fun y _ hy => ?_⟩
    exact absurd hy (hnone y)

theorem Owed.turn (h : Owed owes f) (he : Effect acts owes owes' f g) : Turn f g := by
  cases he with
  | still ho => exact .still
  | ask q ho => exact .ask q
  | raise hx hdown ho => exact .raise hdown
  | @call x hx howes ho =>
    obtain ⟨hraised, hcalled⟩ := h.exists_iff.1 ⟨x, howes⟩
    exact .call hraised hcalled

/-- **Whoever raises the flag** owes the call. -/
theorem Effect.raises (he : Effect acts owes owes' f g) (hdown : f.raised = false)
    (hup : g.raised = true) : ∃ x, acts x ∧ owes' x := by
  cases he with
  | @raise x hx _ ho => exact ⟨x, hx, (ho x).2 (.inr rfl)⟩
  | ask q ho =>
    rw [ask_raised, hdown] at hup
    cases hup
  | still ho | call _ _ ho =>
    rw [show f.raised = true from hup] at hdown
    cases hdown

/-- **Whoever finds the flag raised** owes nothing. -/
theorem Effect.late (he : Effect acts owes owes' f g) (hup : f.raised = true) {x : ι}
    (hx : owes' x) : owes x := by
  cases he with
  | still ho | ask q ho => exact (ho x).1 hx
  | raise _ hdown _ =>
    rw [hup] at hdown
    cases hdown
  | call _ _ ho => exact ((ho x).1 hx).1

/-- **Whoever calls the waiters** owed it. -/
theorem Effect.calls (he : Effect acts owes owes' f g) (hbefore : f.called = false)
    (hafter : g.called = true) : ∃ x, acts x ∧ owes x := by
  cases he with
  | @call x hx howes _ => exact ⟨x, hx, howes⟩
  | ask q ho =>
    rw [ask_called, hbefore] at hafter
    cases hafter
  | still ho | raise _ _ ho =>
    rw [show f.called = true from hafter] at hbefore
    cases hbefore

end Effect

/-- **A flag that is set by calls**, each of which may find it down and then owes the waiters their
call: only the one that raised the flag does, and it calls them. -/
structure SetBy (φ : List α → Flag) (owes : List α → ι → Prop) (acts : α → ι → Prop) : Prop where
  course : Course φ
  owed : ∀ ms, Owed (owes ms) (φ ms)
  /-- Whoever raises the flag owes the call. -/
  raises : ∀ ms m, (φ ms).raised = false → (φ (ms ++ [m])).raised = true →
    ∃ x, acts m x ∧ owes (ms ++ [m]) x
  /-- Whoever finds it raised does not. -/
  late : ∀ ms m x, (φ ms).raised = true → owes (ms ++ [m]) x → owes ms x
  /-- Whoever owes the call makes it. -/
  calls : ∀ ms m, (φ ms).called = false → (φ (ms ++ [m])).called = true →
    ∃ x, acts m x ∧ owes ms x

variable {owes : List α → ι → Prop} {acts : α → ι → Prop}

/-- **A flag is set by calls** if each step is what one of them does, or one who waits. -/
theorem setBy_of_effects (hstart : φ [] = {}) (hnone : ∀ x, ¬ owes [] x)
    (he : ∀ ms m, Owed (owes ms) (φ ms) →
      Effect (acts m) (owes ms) (owes (ms ++ [m])) (φ ms) (φ (ms ++ [m]))) :
    SetBy φ owes acts := by
  have hboth (ms : List α) : Sound (φ ms) ∧ Owed (owes ms) (φ ms) := by
    induction ms using List.reverseRecOn with
    | nil =>
      rw [hstart]
      exact ⟨sound_new, ⟨fun ⟨x, hx⟩ => absurd hx (hnone x), fun ⟨hr, _⟩ => (by cases hr)⟩,
        fun x _ hx => absurd hx (hnone x)⟩
    | append_singleton ms m ih =>
      obtain ⟨hsound, howed⟩ := ih
      have hstep := he ms m howed
      exact ⟨hsound.turn (howed.turn hstep), howed.effect hsound.fits hstep⟩
  -- A step may rest on who owes the call so far, so what it does is known only now.
  have hstep (ms : List α) (m : α) := he ms m (hboth ms).2
  exact ⟨⟨hstart, fun ms m => (hboth ms).2.turn (hstep ms m)⟩, fun ms => (hboth ms).2,
    fun ms m => (hstep ms m).raises, fun ms m _ hup => (hstep ms m).late hup,
    fun ms m => (hstep ms m).calls⟩

/-- The step in which a call **raises the flag**, and from which it owes the waiters their call. -/
def RaisedBy (φ : List α → Flag) (owes : List α → ι → Prop) (before : List α) (m : α) (x : ι) :
    Prop :=
  (φ before).raised = false ∧ owes (before ++ [m]) x

/-- **What those who wait for a flag may rely on**, whatever happened so far. -/
structure Serves (φ : List α → Flag) (owes : List α → ι → Prop) (ms : List α) : Prop where
  /-- Nobody is told that the flag is up before it is. -/
  not_early : ∀ k, (φ ms).isReady k = true → (φ ms).raised = true
  /-- Nobody is woken before the call. -/
  silent : ∀ k, (φ ms).called = false → (φ ms).wakesOf k = 0
  /-- Nobody is woken twice. -/
  once : ∀ k, (φ ms).wakesOf k ≤ 1
  /-- Only the one that raised the flag may owe the call. -/
  only : ∀ before m x, before ++ [m] <+: ms → RaisedBy φ owes before m x → ∀ y, owes ms y → y = x
  /-- When the one that raised the flag has made its call, whoever was told to wait was woken, and
  is told that the flag is up; or it went away. -/
  woken : ∀ before m x, before ++ [m] <+: ms → RaisedBy φ owes before m x → ¬ owes ms x →
    ∀ k, WasTold φ ms k → ∃ w, (φ ms).waiters[k]? = some w ∧
      (w.stage = .gone ∨ w.wakes = 1 ∧ (φ ms).answer k = true)
  /-- Whoever asks for the first time when the flag is up is not told to wait, then or later. -/
  prompt : ∀ before k, before <+: ms → (φ before).raised = true →
    (φ before).At k (fun w => w.stage = .fresh) → ∀ w, (φ ms).waiters[k]? = some w →
      w.stage = .gone ∨ w.stage.isParked = false ∧ ((φ ms).poll k).2 = true

/-- From the time on at which a call raised the flag, **nobody else** owes the waiters anything. -/
theorem SetBy.only (h : SetBy φ owes acts) {m : α} {x : ι} (hx : RaisedBy φ owes before m x)
    (hb : before ++ [m] <+: ms) : (φ ms).raised = true ∧ ∀ y, owes ms y → y = x := by
  obtain ⟨more, rfl⟩ := hb
  induction more using List.reverseRecOn with
  | nil =>
    rw [List.append_nil]
    exact ⟨((h.owed _).exists_iff.1 ⟨x, hx.2⟩).1, fun y hy => (h.owed _).unique y x hy hx.2⟩
  | append_singleton more m' ih =>
    rw [← List.append_assoc]
    exact ⟨(h.course.turn _ m').raised ih.1, fun y hy => ih.2 y (h.late _ m' y ih.1 hy)⟩

/-- **When nobody owes the call any longer**, whoever was told to wait was woken. -/
theorem SetBy.woken (h : SetBy φ owes acts) (hraised : (φ ms).raised = true)
    (hnone : ∀ x, ¬ owes ms x) (hk : WasTold φ ms k) :
    ∃ w, (φ ms).waiters[k]? = some w ∧
      (w.stage = .gone ∨ w.wakes = 1 ∧ (φ ms).answer k = true) := by
  -- If they had not been called, somebody would owe the call.
  have hcalled : (φ ms).called = true := by
    by_contra hcalled
    obtain ⟨x, hx⟩ := (h.owed ms).exists_iff.2 ⟨hraised, Bool.eq_false_iff.2 hcalled⟩
    exact hnone x hx
  obtain ⟨hlt, hheeded⟩ := h.course.heeds hk
  have hat := List.getElem?_eq_getElem hlt
  have hw := hheeded _ hat
  rw [hcalled] at hw
  refine ⟨_, hat, ?_⟩
  by_cases hgone : (φ ms).waiters[k].stage = .gone
  · exact .inl hgone
  · exact .inr ⟨hw.resolve_left hgone, (h.course.sound ms).fits.answer hcalled hat hgone⟩

theorem wakesOf_eq (hk : f.waiters[k]? = some w) : f.wakesOf k = w.wakes := by
  simp [wakesOf, hk]

/-- What holds of how often each waiter was woken holds of a number without a waiter too, which
nobody woke. -/
theorem wakesOf_cases (f : Flag) (k : Nat) :
    f.wakesOf k = 0 ∨ ∃ w, f.waiters[k]? = some w ∧ f.wakesOf k = w.wakes := by
  cases hk : f.waiters[k]? with
  | none => exact .inl (by simp [wakesOf, hk])
  | some w => exact .inr ⟨w, rfl, wakesOf_eq hk⟩

theorem Fits.raised_of_isReady (h : f.Fits) (hk : f.isReady k = true) : f.raised = true := by
  obtain ⟨w, hw, hready⟩ := (Option.any_eq_true _ _).1 hk
  have hfits := (h.waiters w (List.mem_of_getElem? hw)).stage
  rw [beq_iff_eq.1 hready] at hfits
  exact hfits

/-- **Nobody waits in vain** for a flag that is set by calls. -/
theorem SetBy.serves (h : SetBy φ owes acts) (ms : List α) : Serves φ owes ms := by
  have hsound := h.course.sound ms
  refine ⟨fun k hready => hsound.fits.raised_of_isReady hready, fun k hcalled => ?_, fun k => ?_,
    fun before m x hb hx => (h.only hx hb).2, fun before m x hb hx hdone k htold => ?_,
    fun before k hb hraised hnew w hw => ?_⟩
  · obtain hzero | ⟨w, hw, hwakes⟩ := (φ ms).wakesOf_cases k
    · exact hzero
    · rw [hwakes]
      exact (hsound.fits.waiters w (List.mem_of_getElem? hw)).wakes hcalled
  · obtain hzero | ⟨w, hw, hwakes⟩ := (φ ms).wakesOf_cases k
    · rw [hzero]
      exact Nat.zero_le 1
    · rw [hwakes]
      exact (hsound.counted k w hw).wakes_le
  · obtain ⟨hraised, honly⟩ := h.only hx hb
    exact h.woken hraised (fun y hy => hdone (honly y hy ▸ hy)) htold
  · have hfirst : Prompts (φ before) k := ⟨hraised, fun v hv => Waiter.prompt_of_fresh (hnew v hv)⟩
    have hprompts : Prompts (φ ms) k :=
      h.course.keeps (P := fun f => f.Prompts k) (fun f g ht hf => hf.turn ht) hb hfirst
    have hprompt := hprompts.2 w hw
    by_cases hgone : w.stage = .gone
    · exact .inl hgone
    · refine .inr ⟨hprompt.isParked, ?_⟩
      rw [poll_eq hw, hprompts.1, hprompt.asks hgone]
      rfl

/-- **Whoever was told to wait**, and is still there after the call, was woken once and is told that
the flag is up. -/
theorem Serves.woken_once (h : Serves φ owes ms) {m : α} {x : ι} (hb : before ++ [m] <+: ms)
    (hx : RaisedBy φ owes before m x) (hdone : ¬ owes ms x) (htold : WasTold φ ms k)
    (hhere : (φ ms).waiters[k]?.map Waiter.stage ≠ some .gone) :
    (φ ms).wakesOf k = 1 ∧ (φ ms).answer k = true := by
  obtain ⟨w, hw, hgone | ⟨hwakes, hanswer⟩⟩ := h.woken before m x hb hx hdone k htold
  · rw [hw, Option.map_some, hgone] at hhere
    exact absurd rfl hhere
  · exact ⟨(wakesOf_eq hw).trans hwakes, hanswer⟩

/-- **A one-shot flag**: the call that raises it calls the waiters, nobody else does, and nobody
waits in vain. -/
structure OneShot (φ : List α → Flag) (owes : List α → ι → Prop) (acts : α → ι → Prop) : Prop
    extends SetBy φ owes acts where
  serves : ∀ ms, Serves φ owes ms

theorem SetBy.oneShot (h : SetBy φ owes acts) : OneShot φ owes acts :=
  ⟨h, h.serves⟩

end Flag

end HeldReply
