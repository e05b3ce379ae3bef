import HeldReply.Scope.Reentry
import HeldReply.Proofs.Flag

/-!
# What happens in a world of scopes

One thread creates scopes, registers clean-ups and disposes of scopes, one call after the other; a
call in progress goes on step by step.  Meanwhile anybody waits for scopes to be disposed of.  What
holds in every world that comes about like that is said here.

* `World.Deed`, `World.after` — what is done, and the world after that;
* `World.Moves`, `World.moves_of_step` — **everything that a step of a call can do**;
* `World.Sound`, `World.sound_after` — **the invariant**: what is disposed of has no clean-up queued,
  and its waiters were called, or its disposal is in progress;
* `World.after_run` — a call in progress comes to its end.
-/

namespace HeldReply

/-- A scope whose flag is put up and whose clean-ups are taken. -/
def Scope.shut {κ : Type} (s : Scope κ) : Scope κ :=
  { s with flag := s.flag.raise.1, queue := [] }

namespace World

variable {w v : World} {i : Nat}

/-- Put the flag of a scope up, and take its clean-ups. -/
def shut (w : World) (i : Nat) : World :=
  w.modify i Scope.shut

/-- **A disposal begins**, if this call is the one to do it. -/
def beginDispose (w : World) (i : Nat) : World :=
  match w.scopes[i]?.bind Scope.begin with
  | some (s, cleanups) =>
    { w with scopes := w.scopes.set i s, stack := .drain i cleanups :: w.stack }
  | none => w

/-- **A registration begins**: the clean-up is queued, or it is to be run. -/
def beginRegister (w : World) (i : Nat) (body : List Action) : World :=
  if w.scopes[i]?.any Scope.isDisposed then { w with stack := .body body :: w.stack }
  else w.modify i (fun s => s.push body)

/-- What is **done** in a world. -/
inductive Deed where
  | create (label : String)
  /-- Call for a registration from outside; nobody does while a call is in progress. -/
  | register (scope : Nat) (body : List Action)
  /-- Call for a disposal from outside; nobody does while a call is in progress. -/
  | dispose (scope : Nat)
  /-- The call in progress goes on by a step. -/
  | proceed
  /-- Somebody waits for a scope to be disposed of, and asks. -/
  | ask (scope : Nat) (q : Flag.Ask)

/-- **What comes of it.** -/
def deed (w : World) : Deed → World
  | .create label => w.create label
  | .register i body => if w.stack.isEmpty then w.beginRegister i body else w
  | .dispose i => if w.stack.isEmpty then w.beginDispose i else w
  | .proceed => w.step.getD w
  | .ask i q => w.modify i fun s => { s with flag := s.flag.ask q }

/-- The world **after** several deeds, from a world without scopes. -/
def after (ds : List Deed) : World :=
  ds.foldl deed {}

theorem after_append (ds more : List Deed) : after (ds ++ more) = more.foldl deed (after ds) :=
  List.foldl_append

theorem after_concat (ds : List Deed) (d : Deed) : after (ds ++ [d]) = (after ds).deed d :=
  after_append ds [d]

@[simp]
theorem note_stack (w : World) (text : String) : (w.note text).stack = w.stack := rfl

@[simp]
theorem note_scopes (w : World) (text : String) : (w.note text).scopes = w.scopes := rfl

@[simp]
theorem modify_stack (w : World) (i : Nat) (f : Scope (List Action) → Scope (List Action)) :
    (w.modify i f).stack = w.stack := rfl

@[simp]
theorem modify_scopes (w : World) (i : Nat) (f : Scope (List Action) → Scope (List Action)) :
    (w.modify i f).scopes = w.scopes.modify i f := rfl

/-! ### What a call can do -/

/-- Whether a scope is disposed of is known of each that there is. -/
theorem any_isDisposed_iff : w.scopes[i]?.any Scope.isDisposed = true ↔
    ∃ s, w.scopes[i]? = some s ∧ s.isDisposed = true := by
  rw [Option.any_eq_true_iff_get]
  constructor
  · intro ⟨hs, hd⟩
    exact ⟨_, (Option.some_get hs).symm, hd⟩
  · intro ⟨s, hs, hd⟩
    rw [hs]
    exact ⟨rfl, hd⟩

theorem isDisposed_eq_false {s : Scope (List Action)}
    (hd : ¬ w.scopes[i]?.any Scope.isDisposed = true) (hi : w.scopes[i]? = some s) :
    s.isDisposed = false :=
  Bool.eq_false_iff.2 fun hs => hd (any_isDisposed_iff.2 ⟨s, hi, hs⟩)

/-- **Whether a call for a disposal is the one to do it.** -/
theorem begin_cases {κ : Type} (scopes : List (Scope κ)) (i : Nat) :
    (∃ s, scopes[i]? = some s ∧ s.isDisposed = false ∧
      scopes[i]?.bind Scope.begin = some (s.shut, s.queue.reverse)) ∨
    ((∀ s, scopes[i]? = some s → s.isDisposed = true) ∧ scopes[i]?.bind Scope.begin = none) := by
  cases hs : scopes[i]? with
  | none => exact .inr ⟨fun s h => (by cases h), rfl⟩
  | some s =>
    cases hd : s.isDisposed with
    | false =>
      have hbegin : s.begin = some (s.shut, s.queue.reverse) := by
        have hraised : s.flag.raised = false := hd
        simp [Scope.begin, Scope.raise, Flag.raise, Scope.takeQueue, Scope.shut, hraised]
      exact .inl ⟨s, rfl, hd, hbegin⟩
    | true =>
      have hbegin : s.begin = none := by
        have hraised : s.flag.raised = true := hd
        simp [Scope.begin, Scope.raise, Flag.raise, hraised]
      exact .inr ⟨fun t ht => Option.some.inj ht ▸ hd, hbegin⟩

/-- Putting what has changed into its place is a change in that place. -/
theorem set_of_getElem? {α : Type} {xs : List α} {x : α} (h : xs[i]? = some x) (f : α → α) :
    xs.set i (f x) = xs.modify i f := by
  obtain ⟨hi, rfl⟩ := List.getElem?_eq_some_iff.1 h
  obtain ⟨before, x, later, hxs, hlen, hmodify⟩ := List.exists_of_modify f hi
  rw [hmodify]
  subst hxs hlen
  simp

theorem beginDispose_cases (w : World) (i : Nat) :
    (∃ s, w.scopes[i]? = some s ∧ s.isDisposed = false ∧
      w.beginDispose i = { w.shut i with stack := .drain i s.queue.reverse :: w.stack }) ∨
    ((∀ s, w.scopes[i]? = some s → s.isDisposed = true) ∧ w.beginDispose i = w) := by
  unfold beginDispose
  obtain ⟨s, hs, hd, hbegin⟩ | ⟨hd, hbegin⟩ := begin_cases w.scopes i
  · refine .inl ⟨s, hs, hd, ?_⟩
    rw [hbegin]
    simp only [set_of_getElem? hs Scope.shut, shut, modify]
  · exact .inr ⟨hd, by rw [hbegin]⟩

/-- **Everything that a step of a call can do.** -/
inductive Moves (w : World) : World → Prop
  | note {text : String} {rest : List Frame} (hs : w.stack = .note text :: rest) :
      Moves w ({ w with stack := rest }.note text)
  /-- A disposal ends. -/
  | announce {i : Nat} {rest : List Frame} (hs : w.stack = .drain i [] :: rest) :
      Moves w ({ w with stack := rest }.modify i Scope.announce)
  /-- A disposal goes on with the next clean-up. -/
  | next {i : Nat} {c : List Action} {cs : List (List Action)} {rest : List Frame}
      (hs : w.stack = .drain i (c :: cs) :: rest) :
      Moves w { w with stack := .body c :: .drain i cs :: rest }
  /-- A clean-up returns or gives up. -/
  | leave {as : List Action} {rest : List Frame} (hs : w.stack = .body as :: rest)
      (has : as = [] ∨ ∃ more, as = .crash :: more) : Moves w { w with stack := rest }
  /-- A clean-up logs something, or calls for a disposal that was done before. -/
  | log {a : Action} {as : List Action} {rest : List Frame} {text : String}
      (hs : w.stack = .body (a :: as) :: rest)
      (ha : a = .log text ∨ (∃ i, a = .observe i ∧ text = w.observed i) ∨
        ∃ i, a = .dispose i ∧ text = answer "dispose" false ∧
          ∀ s, w.scopes[i]? = some s → s.isDisposed = true) :
      Moves w ({ w with stack := .body as :: rest }.note text)
  /-- A clean-up disposes of a scope. -/
  | shut {i : Nat} {as : List Action} {rest : List Frame} {s : Scope (List Action)}
      (hs : w.stack = .body (.dispose i :: as) :: rest) (hi : w.scopes[i]? = some s)
      (hd : s.isDisposed = false) :
      Moves w { w.shut i with
        stack := .drain i s.queue.reverse :: .note (answer "dispose" true) :: .body as :: rest }
  /-- A clean-up registers one with a scope that is disposed of. -/
  | here {i : Nat} {body as : List Action} {rest : List Frame} {s : Scope (List Action)}
      (hs : w.stack = .body (.register i body :: as) :: rest) (hi : w.scopes[i]? = some s)
      (hd : s.isDisposed = true) :
      Moves w { w with
        stack := .body body :: .note (answer "register" false) :: .body as :: rest }
  /-- A clean-up registers one with another scope. -/
  | push {i : Nat} {body as : List Action} {rest : List Frame}
      (hs : w.stack = .body (.register i body :: as) :: rest)
      (hd : ∀ s, w.scopes[i]? = some s → s.isDisposed = false) :
      Moves w (({ w with stack := .body as :: rest }.modify i fun s => s.push body).note
        (answer "register" true))

theorem moves_of_step (h : w.step = some v) : Moves w v := by
  unfold step at h
  split at h
  · cases h
  · rename_i hs
    cases h
    exact .note hs
  · rename_i hs
    cases h
    exact .announce hs
  · rename_i hs
    cases h
    exact .next hs
  · rename_i hs
    cases h
    exact .leave hs (.inl rfl)
  · rename_i hs
    cases h
    exact .leave hs (.inr ⟨_, rfl⟩)
  · rename_i hs
    cases h
    exact .log hs (.inl rfl)
  · rename_i hs
    cases h
    exact .log hs (.inr (.inl ⟨_, rfl, rfl⟩))
  · rename_i i as rest hs
    cases h
    unfold callDispose
    obtain ⟨s, hi, hd, hbegin⟩ | ⟨hd, hbegin⟩ := begin_cases w.scopes i
    · rw [hbegin]
      simp only [set_of_getElem? hi Scope.shut]
      exact .shut hs hi hd
    · rw [hbegin]
      exact .log hs (.inr (.inr ⟨i, rfl, rfl, hd⟩))
  · rename_i i body as rest hs
    cases h
    unfold callRegister
    by_cases hd : w.scopes[i]?.any Scope.isDisposed = true
    · rw [if_pos hd]
      obtain ⟨s, hi, hd⟩ := any_isDisposed_iff.1 hd
      exact .here hs hi hd
    · rw [if_neg hd]
      exact .push hs fun s hi => isDisposed_eq_false hd hi

/-! ### What always holds -/

/-- The scope that a call disposes of. -/
def Frame.drained? : Frame → Option Nat
  | .drain i _ => some i
  | .body _ | .note _ => none

/-- The disposals among some calls. -/
def drainsOf (stack : List Frame) : List Nat :=
  stack.filterMap Frame.drained?

@[simp]
theorem drainsOf_body (as : List Action) (rest : List Frame) :
    drainsOf (.body as :: rest) = drainsOf rest := rfl

@[simp]
theorem drainsOf_note (text : String) (rest : List Frame) :
    drainsOf (.note text :: rest) = drainsOf rest := rfl

@[simp]
theorem drainsOf_drain (i : Nat) (cs : List (List Action)) (rest : List Frame) :
    drainsOf (.drain i cs :: rest) = i :: drainsOf rest := rfl

/-- **The disposals in progress**, innermost first. -/
def drains (w : World) : List Nat :=
  drainsOf w.stack

end World

/-- **What holds of a scope**, given whether its disposal is in progress: once it is disposed of it has
no clean-up queued, and those who wait for that are called when the disposal is over. -/
structure Scope.Fits {κ : Type} (draining : Prop) (s : Scope κ) : Prop where
  flag : s.flag.Fits
  drained : s.isDisposed = true → s.queue = []
  disposed : draining → s.isDisposed = true
  called : s.isDisposed = true → (s.flag.called = true ↔ ¬ draining)

namespace Scope

variable {κ : Type} {p q : Prop} {s : Scope κ}

/-- The waiters of a scope that is not disposed of were not called. -/
theorem Fits.not_called (h : Fits p s) (hs : s.isDisposed = false) : s.flag.called = false :=
  Bool.eq_false_iff.2 fun hc => Bool.eq_false_iff.1 hs (h.flag.called_raised hc)

/-- A scope is disposed of, and its disposal begins. -/
theorem Fits.shut (h : Fits p s) (hs : s.isDisposed = false) (hq : q) : Fits q s.shut := by
  refine ⟨h.flag.raise, fun _ => rfl, fun _ => rfl, fun _ => ?_⟩
  show s.flag.called = true ↔ ¬ q
  simp [h.not_called hs, hq]

/-- A disposal ends. -/
theorem Fits.announce (h : Fits p s) (hp : p) (hq : ¬ q) : Fits q s.announce := by
  refine ⟨h.flag.call (h.disposed hp), h.drained, fun hq' => absurd hq' hq, fun _ => ?_⟩
  show true = true ↔ ¬ q
  simp [hq]

/-- A clean-up is queued with a scope that is not disposed of. -/
theorem Fits.push (h : Fits p s) (c : κ) (hs : s.isDisposed = false) : Fits p (s.push c) :=
  ⟨h.flag, fun h' => absurd h' (Bool.eq_false_iff.1 hs), h.disposed, h.called⟩

/-- A scope that is new. -/
theorem fits_new (id : Nat) (label : String) (h : ¬ p) :
    Fits p ({ id := id, label := label } : Scope κ) :=
  ⟨Flag.fits_new, fun _ => rfl, fun hp => absurd hp h, fun hd => (by cases hd)⟩

/-- Somebody waits for a scope to be disposed of. -/
theorem Fits.ask (h : Fits p s) (q : Flag.Ask) : Fits p { s with flag := s.flag.ask q } := by
  have hraised := s.flag.ask_raised q
  refine ⟨h.flag.ask q, fun hd => h.drained (hraised.symm.trans hd), fun hp => ?_, fun hd => ?_⟩
  · exact hraised.trans (h.disposed hp)
  · show (s.flag.ask q).called = true ↔ ¬ p
    rw [Flag.ask_called]
    exact h.called (hraised.symm.trans hd)

end Scope

namespace World

variable {w v : World} {i : Nat}

/-- **The invariant.** -/
structure Sound (w : World) : Prop where
  fits : ∀ i (s : Scope (List Action)), w.scopes[i]? = some s → Scope.Fits (i ∈ w.drains) s
  /-- Every disposal in progress is that of a scope. -/
  inRange : ∀ i ∈ w.drains, i < w.scopes.length
  /-- No scope is disposed of twice. -/
  once : w.drains.Nodup

/-- The scopes stay as they are, and so do the disposals in progress. -/
theorem Sound.of_drains (h : Sound w) (hs : v.scopes = w.scopes) (hd : v.drains = w.drains) :
    Sound v := by
  refine ⟨?_, ?_, ?_⟩
  · rw [hs, hd]
    exact h.fits
  · rw [hs, hd]
    exact h.inRange
  · rw [hd]
    exact h.once

/-- One scope changes. -/
theorem Sound.of_modify (h : Sound w) {f : Scope (List Action) → Scope (List Action)}
    (hs : v.scopes = w.scopes.modify i f) (hd : ∀ j, j ≠ i → (j ∈ v.drains ↔ j ∈ w.drains))
    (hi : ∀ s, w.scopes[i]? = some s → Scope.Fits (i ∈ w.drains) s →
      Scope.Fits (i ∈ v.drains) (f s))
    (hrange : i ∈ v.drains → i < w.scopes.length) (honce : v.drains.Nodup) : Sound v := by
  refine ⟨fun j s hj => ?_, fun j hj => ?_, honce⟩
  · rw [hs] at hj
    by_cases hji : j = i
    · subst hji
      rw [List.getElem?_modify_eq] at hj
      obtain ⟨t, ht, rfl⟩ := Option.map_eq_some_iff.1 hj
      exact hi t ht (h.fits j t ht)
    · rw [List.getElem?_modify_ne _ _ (Ne.symm hji)] at hj
      rw [hd j hji]
      exact h.fits j s hj
  · rw [hs, List.length_modify]
    by_cases hji : j = i
    · subst hji
      exact hrange hj
    · exact h.inRange j ((hd j hji).1 hj)

/-- One scope changes, and the disposals in progress stay as they are. -/
theorem Sound.of_modify_drains (h : Sound w) {f : Scope (List Action) → Scope (List Action)}
    (hs : v.scopes = w.scopes.modify i f) (hd : v.drains = w.drains)
    (hi : ∀ s, w.scopes[i]? = some s → Scope.Fits (i ∈ w.drains) s →
      Scope.Fits (i ∈ w.drains) (f s)) : Sound v := by
  refine h.of_modify hs (fun j _ => by rw [hd]) ?_ ?_ ?_
  · rw [hd]
    exact hi
  · rw [hd]
    exact h.inRange i
  · rw [hd]
    exact h.once

/-- A disposal in progress is that of a scope that is disposed of. -/
theorem Sound.notMem_drains (h : Sound w) {s : Scope (List Action)} (hi : w.scopes[i]? = some s)
    (hs : s.isDisposed = false) : i ∉ w.drains :=
  fun hd => Bool.eq_false_iff.1 hs ((h.fits i s hi).disposed hd)

/-- **A disposal begins.** -/
theorem Sound.shut (h : Sound w) {s : Scope (List Action)} (hi : w.scopes[i]? = some s)
    (hs : s.isDisposed = false) (hv : v.scopes = w.scopes.modify i Scope.shut)
    (hd : v.drains = i :: w.drains) : Sound v := by
  refine h.of_modify hv (fun j hj => ?_) (fun t ht hfits => ?_) (fun _ => ?_) ?_
  · simp [hd, hj]
  · obtain rfl : s = t := Option.some.inj (hi.symm.trans ht)
    exact hfits.shut hs (by simp [hd])
  · exact (List.getElem?_eq_some_iff.1 hi).1
  · rw [hd]
    exact List.nodup_cons.2 ⟨h.notMem_drains hi hs, h.once⟩

/-- **A disposal ends.** -/
theorem Sound.announce (h : Sound w) (hv : v.scopes = w.scopes.modify i Scope.announce)
    (hd : w.drains = i :: v.drains) : Sound v := by
  have honce := h.once
  rw [hd, List.nodup_cons] at honce
  refine h.of_modify hv (fun j hj => ?_) (fun s hs hfits => ?_) (fun hi => ?_) honce.2
  · simp [hd, hj]
  · exact hfits.announce (by simp [hd]) honce.1
  · exact absurd hi honce.1

/-- **A step of a call** keeps the invariant. -/
theorem Sound.moves (h : Sound w) (hm : Moves w v) : Sound v := by
  cases hm with
  | note hs | next hs | leave hs _ | log hs _ | here hs _ _ =>
    refine h.of_drains rfl ?_
    simp [drains, hs]
  | announce hs =>
    refine h.announce rfl ?_
    simp [drains, hs]
  | shut hs hi hd =>
    refine h.shut hi hd rfl ?_
    simp [drains, hs]
  | push hs hd =>
    refine h.of_modify_drains (f := fun s => s.push _) rfl ?_ fun s hi hfits => ?_
    · simp [drains, hs]
    · exact hfits.push _ (hd s hi)

/-- **A disposal is called for**: the invariant is kept. -/
theorem Sound.beginDispose (h : Sound w) (i : Nat) : Sound (w.beginDispose i) := by
  obtain ⟨s, hi, hd, hw⟩ | ⟨-, hw⟩ := w.beginDispose_cases i
  · rw [hw]
    exact h.shut hi hd rfl rfl
  · rw [hw]
    exact h

/-- **A registration is called for**: the invariant is kept. -/
theorem Sound.beginRegister (h : Sound w) (i : Nat) (body : List Action) :
    Sound (w.beginRegister i body) := by
  unfold World.beginRegister
  split
  · exact h.of_drains rfl rfl
  · rename_i hd
    refine h.of_modify_drains (f := fun s => s.push body) rfl rfl fun s hi hfits => ?_
    exact hfits.push body (isDisposed_eq_false hd hi)

theorem Sound.create (h : Sound w) (label : String) : Sound (w.create label) := by
  have hlen : (w.create label).scopes.length = w.scopes.length + 1 := List.length_append
  refine ⟨fun i s hi => ?_, fun i hi => hlen ▸ Nat.lt_succ_of_lt (h.inRange i hi), h.once⟩
  by_cases hlt : i < w.scopes.length
  · exact h.fits i s ((List.getElem?_append_left hlt).symm.trans hi)
  · obtain rfl : { id := w.scopes.length + 1, label } = s := by
      rw [World.create, List.getElem?_append_right (Nat.le_of_not_lt hlt)] at hi
      exact List.mem_singleton.1 (List.mem_of_getElem? hi) |>.symm
    exact Scope.fits_new _ _ fun hd => hlt (h.inRange i hd)

/-- **Whatever is done**, the invariant is kept. -/
theorem Sound.deed (h : Sound w) (d : Deed) : Sound (w.deed d) := by
  cases d with
  | create label => exact h.create label
  | register i body =>
    show Sound (if w.stack.isEmpty then w.beginRegister i body else w)
    split
    · exact h.beginRegister i body
    · exact h
  | dispose i =>
    show Sound (if w.stack.isEmpty then w.beginDispose i else w)
    split
    · exact h.beginDispose i
    · exact h
  | proceed =>
    show Sound (w.step.getD w)
    cases hv : w.step with
    | none => exact h
    | some v => exact h.moves (moves_of_step hv)
  | ask i q =>
    exact h.of_modify_drains rfl rfl fun s _ hfits => hfits.ask q

theorem sound_empty : Sound {} := by
  refine ⟨fun i s hi => ?_, fun i hi => ?_, List.nodup_nil⟩
  · cases hi
  · cases hi

theorem Sound.foldl (h : Sound w) (ds : List Deed) : Sound (ds.foldl World.deed w) := by
  induction ds generalizing w with
  | nil => exact h
  | cons d ds ih => exact ih (h.deed d)

/-- **The invariant holds in every world** that comes about. -/
theorem sound_after (ds : List Deed) : Sound (after ds) :=
  sound_empty.foldl ds

/-! ### A call comes to its end -/

theorem step_eq_none_iff : w.step = none ↔ w.stack = [] := by
  unfold step
  split
  · rename_i hs
    exact ⟨fun _ => hs, fun _ => rfl⟩
  all_goals
    rename_i hs
    exact ⟨fun h => (by cases h), fun h => (by rw [hs] at h; cases h)⟩

theorem run_of_step (h : w.step = some v) : w.run = v.run := by
  rw [run]
  split
  · rename_i h'
    rw [h'] at h
    cases h
  · rename_i h'
    rw [h'] at h
    cases h
    rfl

theorem run_of_none (h : w.step = none) : w.run = w := by
  rw [run]
  split
  · rfl
  · rename_i h'
    rw [h'] at h
    cases h

/-- When no call is in progress, nothing is left to do. -/
theorem run_of_stack (h : w.stack = []) : w.run = w :=
  run_of_none (step_eq_none_iff.2 h)

/-- **No call is in progress at the end.** -/
theorem stack_run (w : World) : w.run.stack = [] := by
  fun_induction run w with
  | case1 w h => exact step_eq_none_iff.1 h
  | case2 w v h ih => exact ih

/-- When no call is in progress, none goes on. -/
theorem foldl_proceed_of_none (h : w.step = none) (n : Nat) :
    (List.replicate n Deed.proceed).foldl deed w = w := by
  induction n with
  | zero => rfl
  | succ n ih =>
    rw [List.replicate_succ, List.foldl_cons, show w.deed .proceed = w.step.getD w from rfl, h]
    exact ih

/-- The end is reached by as many steps as there is weight, or fewer; after that nothing happens any
more. -/
theorem foldl_proceed (w : World) (n : Nat) (h : w.weight ≤ n) :
    (List.replicate n Deed.proceed).foldl deed w = w.run := by
  induction n generalizing w with
  | zero =>
    cases hv : w.step with
    | none => exact (run_of_none hv).symm
    | some v =>
      have hlt := weight_step hv
      omega
  | succ n ih =>
    rw [List.replicate_succ, List.foldl_cons, show w.deed .proceed = w.step.getD w from rfl]
    cases hv : w.step with
    | none =>
      rw [Option.getD_none, run_of_none hv]
      exact foldl_proceed_of_none hv n
    | some v =>
      have hlt := weight_step hv
      rw [Option.getD_some, ih v (by omega), run_of_step hv]

/-- **A call in progress comes to its end**, if it goes on, in as many steps as there is weight. -/
theorem after_run (ds : List Deed) {m : Nat} (hm : (after ds).weight ≤ m) :
    after (ds ++ List.replicate m .proceed) = (after ds).run := by
  rw [after_append]
  exact foldl_proceed _ m hm

end World

end HeldReply
