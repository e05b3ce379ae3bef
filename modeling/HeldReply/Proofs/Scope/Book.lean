import HeldReply.Proofs.Scope.Worlds
import Mathlib.Data.List.Nodup

/-!
# Clean-ups by number

Two clean-ups may do the same things, so that neither the log nor a queue tells one from the other.
Here every clean-up gets a number when somebody registers it, and a book is kept of those that were
started.  Without the numbers and the book it is the world of scopes, step by step.

* `Book.Entry`, `Book`, `Book.step`, `Book.after` — a world in which clean-ups have numbers;
* `Book.erase_step`, `Book.erase_after` — **the numbers change nothing**;
* `Book.Fits`, `Book.fits_after` — **every clean-up is in one place**: it was started, or it is about
  to be run, or it is queued;
* `Book.started_nodup`, `Book.started_or_queued` — **no clean-up is started twice**, and none is lost.
-/

namespace HeldReply

/-- A clean-up with a **number**. -/
structure Book.Entry where
  number : Nat
  body : List Action

/-- A **call in progress**. -/
inductive Book.Frame where
  | body (rest : List Action)
  | drain (scope : Nat) (rest : List Book.Entry)
  | note (text : String)

/-- Scopes with clean-ups that bear numbers, and the **book** of those that were started. -/
structure Book where
  scopes : List (Scope Book.Entry) := []
  log : List String := []
  stack : List Book.Frame := []
  /-- How many clean-ups were registered; they are numbered in that order. -/
  registered : Nat := 0
  started : List Nat := []

/-- The scope with other clean-ups. -/
def Scope.map {κ ι : Type} (f : κ → ι) (s : Scope κ) : Scope ι :=
  { id := s.id, label := s.label, flag := s.flag, queue := s.queue.map f }

namespace Book

variable {b c : Book} {i n : Nat}

/-- Forget the numbers of a call. -/
def Frame.erase : Frame → World.Frame
  | .body rest => .body rest
  | .drain i rest => .drain i (rest.map Entry.body)
  | .note text => .note text

/-- **Forget the numbers** and the book. -/
def erase (b : Book) : World :=
  { scopes := b.scopes.map (Scope.map Entry.body), log := b.log, stack := b.stack.map Frame.erase }

/-! ### The machine, with numbers -/

/-- One more log entry. -/
def note (b : Book) (text : String) : Book :=
  { b with log := b.log ++ [text] }

/-- Change a scope. -/
def modify (b : Book) (i : Nat) (f : Scope Entry → Scope Entry) : Book :=
  { b with scopes := b.scopes.modify i f }

/-- A clean-up is **started**. -/
def start (b : Book) (number : Nat) : Book :=
  { b with started := b.started ++ [number] }

/-- **A disposal begins**, if this call is the one to do it. -/
def open? (b : Book) (i : Nat) (rest : List Frame) : Option Book :=
  (b.scopes[i]?.bind Scope.begin).map fun p =>
    { b with scopes := b.scopes.set i p.1, stack := .drain i p.2 :: rest }

/-- Whether a clean-up for a scope is run at once. -/
def isLate (b : Book) (i : Nat) : Bool :=
  b.scopes[i]?.any Scope.isDisposed

/-- A clean-up is registered and **gets a number**; it is started at once. -/
def runHere (b : Book) (body : List Action) (rest : List Frame) : Book :=
  { b with registered := b.registered + 1, stack := .body body :: rest }.start b.registered

/-- A clean-up is registered and gets a number; it is queued. -/
def enqueue (b : Book) (i : Nat) (body : List Action) : Book :=
  match b.scopes[i]? with
  | some s =>
    { b with
      scopes := b.scopes.set i (s.push ⟨b.registered, body⟩)
      registered := b.registered + 1 }
  | none => b

/-- **One step** of the innermost call. -/
def step (b : Book) : Option Book :=
  match b.stack with
  | [] => none
  | .note text :: rest => some ({ b with stack := rest }.note text)
  | .drain i [] :: rest => some ({ b with stack := rest }.modify i Scope.announce)
  | .drain i (e :: es) :: rest =>
    some ({ b with stack := .body e.body :: .drain i es :: rest }.start e.number)
  | .body [] :: rest => some { b with stack := rest }
  | .body (.crash :: _) :: rest => some { b with stack := rest }
  | .body (.log text :: as) :: rest => some ({ b with stack := .body as :: rest }.note text)
  | .body (.observe i :: as) :: rest =>
    some ({ b with stack := .body as :: rest }.note (b.erase.observed i))
  | .body (.dispose i :: as) :: rest =>
    some ((b.open? i (.note (World.answer "dispose" true) :: .body as :: rest)).getD
      ({ b with stack := .body as :: rest }.note (World.answer "dispose" false)))
  | .body (.register i body :: as) :: rest =>
    some (if b.isLate i then
        b.runHere body (.note (World.answer "register" false) :: .body as :: rest)
      else ({ b with stack := .body as :: rest }.enqueue i body).note
        (World.answer "register" true))

/-- What comes of something that is done. -/
def deed (b : Book) : World.Deed → Book
  | .create label => { b with scopes := b.scopes ++ [{ id := b.scopes.length + 1, label }] }
  | .register i body =>
    if b.stack.isEmpty then
      if b.isLate i then b.runHere body b.stack else b.enqueue i body
    else b
  | .dispose i => if b.stack.isEmpty then (b.open? i b.stack).getD b else b
  | .proceed => b.step.getD b
  | .ask i q => b.modify i fun s => { s with flag := s.flag.ask q }

/-- The book **after** several deeds. -/
def after (ds : List World.Deed) : Book :=
  ds.foldl deed {}

/-! ### The numbers change nothing -/

section Erase

variable {κ ι : Type} (f : κ → ι)

theorem map_begin (s : Scope κ) :
    (s.map f).begin = s.begin.map fun p => (p.1.map f, p.2.map f) := by
  cases hraised : s.flag.raised <;>
    simp [Scope.begin, Scope.raise, Scope.takeQueue, Flag.raise, Scope.map, hraised]

theorem map_modify {g : Scope κ → Scope κ} {g' : Scope ι → Scope ι}
    (h : ∀ s, (g s).map f = g' (s.map f)) (scopes : List (Scope κ)) (i : Nat) :
    (scopes.modify i g).map (Scope.map f) = (scopes.map (Scope.map f)).modify i g' := by
  apply List.ext_getElem?
  intro j
  rw [List.getElem?_map, List.getElem?_modify, List.getElem?_modify, List.getElem?_map]
  cases scopes[j]? with
  | none => rfl
  | some s => by_cases hij : i = j <;> simp [hij, h]

end Erase

theorem erase_modify {g : Scope Entry → Scope Entry}
    {g' : Scope (List Action) → Scope (List Action)}
    (h : ∀ s, (g s).map Entry.body = g' (s.map Entry.body)) (b : Book) (i : Nat) :
    (b.modify i g).erase = b.erase.modify i g' := by
  simp only [erase, modify, World.modify, map_modify Entry.body h]

theorem erase_begin (b : Book) (i : Nat) :
    b.erase.scopes[i]?.bind Scope.begin = (b.scopes[i]?.bind Scope.begin).map fun p =>
      (p.1.map Entry.body, p.2.map Entry.body) := by
  rw [erase, List.getElem?_map]
  cases b.scopes[i]? with
  | none => rfl
  | some s => exact map_begin Entry.body s

theorem erase_isLate (b : Book) (i : Nat) :
    b.erase.scopes[i]?.any Scope.isDisposed = b.isLate i := by
  rw [erase, List.getElem?_map, isLate]
  cases b.scopes[i]? <;> rfl

/-- A scope that there is gets the clean-up and its number; where there is none, nothing happens. -/
theorem enqueue_cases (b : Book) (i : Nat) (body : List Action) :
    (∃ s, b.scopes[i]? = some s ∧ b.enqueue i body
      = { b with registered := b.registered + 1 }.modify i fun s => s.push ⟨b.registered, body⟩) ∨
    (b.scopes.length ≤ i ∧ b.enqueue i body = b) := by
  unfold enqueue
  cases hi : b.scopes[i]? with
  | none => exact .inr ⟨List.getElem?_eq_none_iff.1 hi, rfl⟩
  | some s =>
    refine .inl ⟨s, rfl, ?_⟩
    simp only [modify, World.set_of_getElem? hi fun s => s.push ⟨b.registered, body⟩]

theorem erase_enqueue (b : Book) (i : Nat) (body : List Action) :
    (b.enqueue i body).erase = b.erase.modify i fun s => s.push body := by
  obtain ⟨s, -, hb⟩ | ⟨hi, hb⟩ := b.enqueue_cases i body
  · rw [hb]
    refine erase_modify (fun s => ?_) _ i
    simp [Scope.map, Scope.push]
  · rw [hb, World.modify, List.modify_eq_self]
    simpa [erase] using hi

/-- A disposal ends. -/
theorem erase_announce (b : Book) (i : Nat) :
    (b.modify i Scope.announce).erase = b.erase.modify i Scope.announce :=
  erase_modify (fun _ => rfl) b i

/-- **Whether a call for a disposal is the one to do it**, with the numbers and without them. -/
theorem open_cases (b : Book) (i : Nat) (rest : List Frame) :
    (∃ s, b.scopes[i]? = some s ∧ b.open? i rest = some { b with
        scopes := b.scopes.modify i Scope.shut
        stack := .drain i s.queue.reverse :: rest } ∧
      b.erase.scopes[i]?.bind Scope.begin
        = some (s.shut.map Entry.body, (s.queue.reverse).map Entry.body)) ∨
    (b.open? i rest = none ∧ b.erase.scopes[i]?.bind Scope.begin = none) := by
  rw [erase_begin, open?]
  obtain ⟨s, hi, -, hbegin⟩ | ⟨-, hbegin⟩ := World.begin_cases b.scopes i
  · refine .inl ⟨s, hi, ?_, ?_⟩
    · rw [hbegin, Option.map_some, World.set_of_getElem? hi Scope.shut]
    · rw [hbegin, Option.map_some]
  · rw [hbegin]
    exact .inr ⟨rfl, rfl⟩

theorem erase_set_shut {s : Scope Entry} (hi : b.scopes[i]? = some s) :
    b.erase.scopes.set i (s.shut.map Entry.body)
      = (b.scopes.modify i Scope.shut).map (Scope.map Entry.body) := by
  rw [← World.set_of_getElem? hi Scope.shut, List.map_set]
  rfl

theorem erase_callDispose (b : Book) (i : Nat) (rest : List Frame) :
    b.erase.callDispose i (rest.map Frame.erase)
      = ((b.open? i (.note (World.answer "dispose" true) :: rest)).getD
          ({ b with stack := rest }.note (World.answer "dispose" false))).erase := by
  unfold World.callDispose
  obtain ⟨s, hi, hopen, hbegin⟩ | ⟨hopen, hbegin⟩ :=
    b.open_cases i (.note (World.answer "dispose" true) :: rest)
  · rw [hopen, hbegin]
    simp only [erase_set_shut hi]
    rfl
  · rw [hopen, hbegin]
    rfl

theorem erase_callRegister (b : Book) (i : Nat) (body : List Action) (rest : List Frame) :
    b.erase.callRegister i body (rest.map Frame.erase)
      = (if b.isLate i then b.runHere body (.note (World.answer "register" false) :: rest)
          else ({ b with stack := rest }.enqueue i body).note (World.answer "register" true)).erase := by
  unfold World.callRegister
  rw [erase_isLate]
  cases b.isLate i with
  | true => rfl
  | false =>
    have henqueue := erase_enqueue { b with stack := rest } i body
    exact congrArg (World.note · (World.answer "register" true)) henqueue.symm

/-- **Without the numbers it is a step of the world.** -/
theorem erase_step (b : Book) : b.erase.step = b.step.map erase := by
  cases hb : b with
  | mk scopes log stack registered started =>
    cases stack with
    | nil => rfl
    | cons f rest =>
      cases f with
      | note text => rfl
      | body as =>
        cases as with
        | nil => rfl
        | cons a as =>
          cases a with
          | log text => rfl
          | observe i => rfl
          | crash => rfl
          | dispose i => exact congrArg some (erase_callDispose _ i (.body as :: rest))
          | register i body => exact congrArg some (erase_callRegister _ i body (.body as :: rest))
      | drain i es =>
        cases es with
        | cons e es => rfl
        | nil =>
          have hannounce := erase_announce { scopes, log, stack := rest, registered, started } i
          exact congrArg some hannounce.symm

/-- **Without the numbers it is what is done in the world.** -/
theorem erase_deed (b : Book) (d : World.Deed) : (b.deed d).erase = b.erase.deed d := by
  have hstack : b.erase.stack.isEmpty = b.stack.isEmpty := List.isEmpty_map
  cases d with
  | create label => simp [deed, World.deed, World.create, erase, Scope.map]
  | register i body =>
    simp only [deed, World.deed, hstack, World.beginRegister, erase_isLate]
    cases b.stack.isEmpty with
    | false => rfl
    | true =>
      cases b.isLate i with
      | true => rfl
      | false => exact erase_enqueue b i body
  | dispose i =>
    simp only [deed, World.deed, hstack, World.beginDispose]
    cases b.stack.isEmpty with
    | false => rfl
    | true =>
      obtain ⟨s, hi, hopen, hbegin⟩ | ⟨hopen, hbegin⟩ := b.open_cases i b.stack
      · simp only [hopen, hbegin, erase_set_shut hi]
        rfl
      · simp only [hopen, hbegin]
        rfl
  | proceed =>
    simp only [deed, World.deed, erase_step]
    cases b.step <;> rfl
  | ask i q => exact erase_modify (fun _ => rfl) b i

/-- **The numbers change nothing.** -/
theorem erase_after (ds : List World.Deed) : (after ds).erase = World.after ds := by
  have hfold (b : Book) : (ds.foldl deed b).erase = ds.foldl World.deed b.erase := by
    induction ds generalizing b with
    | nil => rfl
    | cons d ds ih => rw [List.foldl_cons, List.foldl_cons, ih, erase_deed]
  exact hfold {}

/-! ### Every clean-up is in one place -/

/-- The clean-ups **about to be run**, by number. -/
def Frame.numbers : Frame → List Nat
  | .drain _ rest => rest.map Entry.number
  | .body _ | .note _ => []

/-- The clean-ups that are **queued** with a scope, by number. -/
def queueNumbers (s : Scope Entry) : List Nat :=
  s.queue.map Entry.number

/-- How often a clean-up is in a place: it was started, or it is about to be run, or it is queued. -/
def places (b : Book) (n : Nat) : Nat :=
  b.started.count n + (b.stack.flatMap Frame.numbers).count n
    + (b.scopes.flatMap queueNumbers).count n

/-- **Every clean-up is in one place.** -/
def Fits (b : Book) : Prop :=
  ∀ n, b.places n = (List.range b.registered).count n

/-- A change of one scope changes what is queued by what it does to that scope. -/
theorem count_modify {scopes : List (Scope Entry)} {s : Scope Entry} (h : scopes[i]? = some s)
    (f : Scope Entry → Scope Entry) (n : Nat) :
    ((scopes.modify i f).flatMap queueNumbers).count n + (queueNumbers s).count n
      = (scopes.flatMap queueNumbers).count n + (queueNumbers (f s)).count n := by
  obtain ⟨hi, rfl⟩ := List.getElem?_eq_some_iff.1 h
  obtain ⟨before, s, later, hs, rfl, hmodify⟩ := List.exists_of_modify f hi
  rw [hmodify]
  simp only [hs, List.flatMap_append, List.flatMap_cons, List.count_append, List.getElem_append_right,
    Nat.le_refl, Nat.sub_self, List.getElem_cons_zero]
  omega

/-- A change that keeps the queue of every scope keeps what is queued. -/
theorem flatMap_modify {f : Scope Entry → Scope Entry} (hf : ∀ s, (f s).queue = s.queue)
    (scopes : List (Scope Entry)) (i : Nat) :
    (scopes.modify i f).flatMap queueNumbers = scopes.flatMap queueNumbers := by
  induction scopes generalizing i with
  | nil => simp
  | cons t ts ih => cases i <;> simp [ih, queueNumbers, hf]

/-- Other calls are in progress, that have the same clean-ups to run. -/
theorem Fits.of_stack (h : Fits b) {stack : List Frame}
    (hs : stack.flatMap Frame.numbers = b.stack.flatMap Frame.numbers) :
    Fits { b with stack } := by
  intro n
  simp only [places, hs]
  exact h n

theorem Fits.note (h : Fits b) (text : String) : Fits (b.note text) := h

theorem Fits.modify (h : Fits b) (i : Nat) {f : Scope Entry → Scope Entry}
    (hf : ∀ s, (f s).queue = s.queue) : Fits (b.modify i f) := by
  intro n
  simp only [places, Book.modify, flatMap_modify hf]
  exact h n

/-- **A disposal begins**: what was queued is about to be run. -/
theorem Fits.shut (h : Fits b) {s : Scope Entry} (hi : b.scopes[i]? = some s) {rest : List Frame}
    (hs : rest.flatMap Frame.numbers = b.stack.flatMap Frame.numbers) :
    Fits { b with
      scopes := b.scopes.modify i Scope.shut
      stack := .drain i s.queue.reverse :: rest } := by
  intro n
  have hsum := count_modify hi Scope.shut n
  have hplaces := h n
  have hshut : queueNumbers s.shut = [] := rfl
  have hdrain : (Frame.drain i s.queue.reverse).numbers.count n = (queueNumbers s).count n := by
    simp [Frame.numbers, queueNumbers]
  simp only [hshut, List.count_nil] at hsum
  simp only [places, List.flatMap_cons, List.count_append, hs, hdrain] at hplaces ⊢
  omega

/-- What is registered gets the number after all the others. -/
theorem Fits.fresh (h : Fits b) {c : Book} (hc : c.registered = b.registered + 1)
    (hn : ∀ n, c.places n = b.places n + [b.registered].count n) : Fits c := by
  intro n
  rw [hc, List.range_succ, List.count_append, hn, h n]

/-- **A clean-up is registered and started.** -/
theorem Fits.runHere (h : Fits b) (body : List Action) {rest : List Frame}
    (hs : rest.flatMap Frame.numbers = b.stack.flatMap Frame.numbers) :
    Fits (b.runHere body rest) := by
  refine h.fresh rfl fun n => ?_
  simp only [places, Book.runHere, start, List.flatMap_cons, Frame.numbers, List.nil_append, hs,
    List.count_append]
  omega

/-- **A clean-up is registered and queued.** -/
theorem Fits.enqueue (h : Fits b) (i : Nat) (body : List Action) : Fits (b.enqueue i body) := by
  obtain ⟨s, hi, hb⟩ | ⟨-, hb⟩ := b.enqueue_cases i body
  · rw [hb]
    refine h.fresh rfl fun n => ?_
    have hsum := count_modify hi (fun s => s.push ⟨b.registered, body⟩) n
    have hpush : queueNumbers (s.push ⟨b.registered, body⟩) = queueNumbers s ++ [b.registered] := by
      simp [queueNumbers, Scope.push]
    simp only [hpush, List.count_append] at hsum
    simp only [places, Book.modify]
    omega
  · rw [hb]
    exact h

/-- **A step of a call** leaves every clean-up in one place. -/
theorem Fits.step (h : Fits b) (hc : b.step = some c) : Fits c := by
  unfold Book.step at hc
  split at hc
  · cases hc
  · rename_i text rest hs
    cases hc
    refine (h.of_stack ?_).note text
    simp [hs, Frame.numbers]
  · rename_i i rest hs
    cases hc
    refine Fits.modify (f := Scope.announce) (h.of_stack ?_) i fun _ => rfl
    simp [hs, Frame.numbers]
  · rename_i i e es rest hs
    cases hc
    intro n
    have hplaces := h n
    simp only [places, start, hs, List.flatMap_cons, Frame.numbers, List.map_cons, List.nil_append,
      List.cons_append, List.count_append, List.count_cons, List.count_nil] at hplaces ⊢
    omega
  · rename_i rest hs
    cases hc
    refine h.of_stack ?_
    simp [hs, Frame.numbers]
  · rename_i as rest hs
    cases hc
    refine h.of_stack ?_
    simp [hs, Frame.numbers]
  · rename_i text as rest hs
    cases hc
    refine (h.of_stack ?_).note text
    simp [hs, Frame.numbers]
  · rename_i i as rest hs
    cases hc
    refine (h.of_stack ?_).note _
    simp [hs, Frame.numbers]
  · rename_i i as rest hs
    cases hc
    obtain ⟨s, hi, hopen, -⟩ | ⟨hopen, -⟩ :=
      b.open_cases i (.note (World.answer "dispose" true) :: .body as :: rest)
    · rw [hopen]
      refine h.shut hi ?_
      simp [hs, Frame.numbers]
    · rw [hopen]
      refine (h.of_stack ?_).note _
      simp [hs, Frame.numbers]
  · rename_i i body as rest hs
    cases hc
    split
    · refine h.runHere body ?_
      simp [hs, Frame.numbers]
    · refine ((h.of_stack ?_).enqueue i body).note _
      simp [hs, Frame.numbers]

/-- **Whatever is done** leaves every clean-up in one place. -/
theorem Fits.deed (h : Fits b) (d : World.Deed) : Fits (b.deed d) := by
  cases d with
  | create label =>
    intro n
    have hplaces := h n
    simpa [places, Book.deed, queueNumbers] using hplaces
  | register i body =>
    simp only [Book.deed]
    split
    · split
      · exact h.runHere body rfl
      · exact h.enqueue i body
    · exact h
  | dispose i =>
    simp only [Book.deed]
    split
    · obtain ⟨s, hi, hopen, -⟩ | ⟨hopen, -⟩ := b.open_cases i b.stack
      · rw [hopen]
        exact h.shut hi rfl
      · rw [hopen]
        exact h
    · exact h
  | proceed =>
    simp only [Book.deed]
    cases hc : b.step with
    | none => exact h
    | some c => exact h.step hc
  | ask i q => exact h.modify i (f := fun s => { s with flag := s.flag.ask q }) fun _ => rfl

/-- **Every clean-up is in one place**, after whatever was done. -/
theorem fits_after (ds : List World.Deed) : Fits (after ds) := by
  have hfold {b : Book} (h : Fits b) : Fits (ds.foldl Book.deed b) := by
    induction ds generalizing b with
    | nil => exact h
    | cons d ds ih => exact ih (h.deed d)
  exact hfold fun n => by simp [places]

/-- **No clean-up is started twice.** -/
theorem started_nodup (ds : List World.Deed) : (after ds).started.Nodup := by
  rw [List.nodup_iff_count_le_one]
  intro n
  have hplaces := fits_after ds n
  have honce := List.nodup_iff_count_le_one.1 (List.nodup_range (n := (after ds).registered)) n
  simp only [places] at hplaces
  omega

/-- **No clean-up is lost**: when no call is in progress, every one was started, or is queued with a
scope that is not disposed of. -/
theorem started_or_queued (ds : List World.Deed) (hrest : (after ds).stack = [])
    (hn : n < (after ds).registered) :
    n ∈ (after ds).started ∨
      ∃ s ∈ (after ds).scopes, s.isDisposed = false ∧ n ∈ queueNumbers s := by
  have hplaces := fits_after ds n
  have hregistered := List.count_pos_iff.2 (List.mem_range.2 hn)
  simp only [places, hrest, List.flatMap_nil, List.count_nil] at hplaces
  by_cases hstarted : n ∈ (after ds).started
  · exact .inl hstarted
  · rw [List.count_eq_zero_of_not_mem hstarted] at hplaces
    have hqueued : 0 < ((after ds).scopes.flatMap queueNumbers).count n := by omega
    obtain ⟨s, hs, hns⟩ := List.mem_flatMap.1 (List.count_pos_iff.1 hqueued)
    refine .inr ⟨s, hs, ?_, hns⟩
    obtain ⟨i, hi⟩ := List.mem_iff_getElem?.1 hs
    have hsound := World.sound_after ds
    rw [← erase_after] at hsound
    have hfits := hsound.fits i (s.map Entry.body) (by simp [erase, hi])
    refine Bool.eq_false_iff.2 fun hdisposed => ?_
    have hempty : s.queue.map Entry.body = [] := hfits.drained hdisposed
    rw [queueNumbers, List.map_eq_nil_iff.1 hempty] at hns
    cases hns

end Book

end HeldReply
