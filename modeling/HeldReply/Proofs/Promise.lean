import HeldReply.Promise

/-!
# The past of a promise

Whoever holds a callback answers, asks whether there was an answer, copies the callback or lets it
go; the listener asks for the outcome, or goes away.  All of this may come in any order, and between
the two steps of an answer anything else.  What came of all of it so far is the past of the promise,
and a past alone tells what comes next.

* `Promise.Act`, `Promise.Event`, `Promise.act` — what is done, and what comes of it
  (`Promise.act_cases`);
* `Promise.Past` — **the promises that can be**, each with its past;
* `Promise.Taken`, `Promise.IsHeld`, `Promise.Resolves`, `Promise.Woken` — what a past tells;
* `Promise.Shows`, `Promise.Past.shows` — **the invariant**: a promise shows just what its past tells;
* `Promise.Past.settles_once` — **a promise is settled once**.
-/

namespace HeldReply.Promise

/-- What is **done** with a promise. -/
inductive Act where
  /-- An answer begins: it takes the right to answer if that is still there. -/
  | claim (o : Outcome)
  /-- The answer that took the right sends its outcome. -/
  | send
  /-- Somebody asks whether the right is taken. -/
  | inspect
  | share
  | release
  /-- The listener asks. -/
  | poll
  /-- The listener goes away. -/
  | leave

/-- What **comes** of it. -/
inductive Event where
  /-- An answer, and whether it counts. -/
  | claimed (o : Outcome) (counts : Bool)
  | sent
  | inspected (isClaimed : Bool)
  | shared
  | released
  | polled (answer : Option Outcome)
  | left

/-- Whether there is one callback more. -/
def Event.isShared : Event → Bool
  | .shared => true
  | _ => false

/-- Whether there is one callback less. -/
def Event.isReleased : Event → Bool
  | .released => true
  | _ => false

/-- How many callbacks are **in use**: an answer that took the right and is still to send its outcome
uses the one by which it was given. -/
def inUse (p : Promise) : Nat :=
  match p.stage with
  | .claimed _ => 1
  | _ => 0

/-- **Do** something; `none` if it is not possible.  It takes a callback to answer, to ask, to copy
and to let go, and one that is in use does not go.  A listener that has its outcome is gone. -/
def act (p : Promise) : Act → Option (Promise × Event)
  | .claim o =>
    if 0 < p.holders then some ((p.claim o).1, .claimed o (p.claim o).2) else none
  | .send => if p.inUse = 1 then some (p.send, .sent) else none
  | .inspect => if 0 < p.holders then some (p, .inspected p.isClaimed) else none
  | .share => if 0 < p.holders then some (p.share, .shared) else none
  | .release => if p.inUse < p.holders then some (p.release, .released) else none
  | .poll => if p.isHeard then some (p.poll.1, .polled p.poll.2) else none
  | .leave => if p.isHeard then some (p.leave, .left) else none

/-- **The promises that can be**, each with its past. -/
inductive Past : Promise → List Event → Prop
  | new : Past {} []
  | act {p q : Promise} {es : List Event} {e : Event} (h : Past p es) (a : Act)
      (hs : p.act a = some (q, e)) : Past q (es ++ [e])

/-- Do one thing after the other. -/
def acts : List Act → Promise → List Event → Option (Promise × List Event)
  | [], p, es => some (p, es)
  | a :: as, p, es => (p.act a).bind fun (q, e) => acts as q (es ++ [e])

variable {p q : Promise} {es fs gs : List Event} {d e : Event} {o : Outcome}

theorem Past.acts (h : Past p es) (as : List Act) (hs : Promise.acts as p es = some (q, fs)) :
    Past q fs := by
  induction as generalizing p es with
  | nil =>
    cases hs
    exact h
  | cons a as ih =>
    obtain ⟨⟨r, e⟩, hr, hs⟩ := Option.bind_eq_some_iff.1 hs
    exact ih (h.act a hr) hs

/-- **Everything that can be done**, with what comes of it. -/
theorem act_cases {a : Act} (h : p.act a = some (q, e)) :
    (∃ o, 0 < p.holders ∧ q = (p.claim o).1 ∧ e = .claimed o (p.claim o).2) ∨
    (p.inUse = 1 ∧ q = p.send ∧ e = .sent) ∨
    (0 < p.holders ∧ q = p ∧ e = .inspected p.isClaimed) ∨
    (0 < p.holders ∧ q = p.share ∧ e = .shared) ∨
    (p.inUse < p.holders ∧ q = p.release ∧ e = .released) ∨
    (p.isHeard = true ∧ q = p.poll.1 ∧ e = .polled p.poll.2) ∨
    (p.isHeard = true ∧ q = p.leave ∧ e = .left) := by
  unfold act at h
  cases a with
  | claim o =>
    obtain ⟨hp, h⟩ := Option.ite_none_right_eq_some.1 h
    cases h
    exact .inl ⟨o, hp, rfl, rfl⟩
  | send | inspect | share | release | poll | leave =>
    obtain ⟨hp, h⟩ := Option.ite_none_right_eq_some.1 h
    cases h
    simp [hp]

/-- What came is the last thing that came, or came before it. -/
theorem append_eq_append_cons :
    es ++ [e] = fs ++ d :: gs ↔
      (es = fs ∧ e = d ∧ gs = []) ∨ ∃ hs, gs = hs ++ [e] ∧ es = fs ++ d :: hs := by
  constructor
  · intro h
    rcases List.eq_nil_or_concat gs with rfl | ⟨hs, d', rfl⟩
    · obtain ⟨rfl, hd⟩ := List.append_inj' h rfl
      exact .inl ⟨rfl, by simpa using hd, rfl⟩
    · rw [List.concat_eq_append, ← List.cons_append, ← List.append_assoc] at h
      obtain ⟨rfl, hd⟩ := List.append_inj' h rfl
      obtain rfl : e = d' := by simpa using hd
      exact .inr ⟨hs, List.concat_eq_append, rfl⟩
  · rintro (⟨rfl, rfl, rfl⟩ | ⟨hs, rfl, rfl⟩)
    · rfl
    · rw [← List.cons_append, List.append_assoc]

/-- Before everything that came there was a promise, and something was done with it. -/
theorem Past.before (h : Past p (fs ++ e :: gs)) :
    ∃ q r a, Past q fs ∧ q.act a = some (r, e) := by
  generalize hes : fs ++ e :: gs = es at h
  induction h generalizing gs with
  | new => simp at hes
  | @act p q es d h a hs ih =>
    obtain ⟨rfl, rfl, -⟩ | ⟨hs', -, rfl⟩ := append_eq_append_cons.1 hes.symm
    · exact ⟨p, q, a, h, hs⟩
    · exact ih rfl

/-! ### What a past tells -/

/-- **The right to answer was taken.** -/
def Taken (es : List Event) : Prop :=
  ∃ o counts, .claimed o counts ∈ es

/-- **Some callback is alive**: there was one to begin with. -/
def IsHeld (es : List Event) : Prop :=
  es.countP Event.isReleased ≤ es.countP Event.isShared

/-- What comes **resolves** the promise: an outcome is sent, or the last callback goes although nobody
took the right to answer. -/
def Resolves (es : List Event) (e : Event) : Prop :=
  e = .sent ∨ e = .released ∧ ¬ Taken es ∧ ¬ IsHeld (es ++ [e])

/-- **The listener waits**: it asked too early, and did not go away since. -/
def Waits (es : List Event) : Prop :=
  .polled none ∈ es ∧ .left ∉ es

/-- The promise was resolved while **the listener waited**. -/
def Woken (es : List Event) : Prop :=
  ∃ fs e gs, es = fs ++ e :: gs ∧ Resolves fs e ∧ Waits fs

theorem taken_append : Taken (es ++ [e]) ↔ Taken es ∨ ∃ o counts, e = .claimed o counts := by
  simp only [Taken, List.mem_append, List.mem_singleton, ← exists_or]
  simp only [eq_comm]

theorem woken_append : Woken (es ++ [e]) ↔ Woken es ∨ (Resolves es e ∧ Waits es) := by
  constructor
  · rintro ⟨fs, d, gs, hes, hr, hw⟩
    obtain ⟨rfl, rfl, -⟩ | ⟨hs, -, rfl⟩ := append_eq_append_cons.1 hes
    · exact .inr ⟨hr, hw⟩
    · exact .inl ⟨fs, d, hs, rfl, hr, hw⟩
  · rintro (⟨fs, d, gs, rfl, hr, hw⟩ | ⟨hr, hw⟩)
    · exact ⟨fs, d, gs ++ [e], by simp, hr, hw⟩
    · exact ⟨es, e, [], rfl, hr, hw⟩

/-- What a stage **tells of the past**. -/
def Stage.Fits (holders : Nat) (es : List Event) : Stage → Prop
  | .unclaimed => ¬ Taken es ∧ .sent ∉ es ∧ 0 < holders
  | .claimed o => (∀ o', .claimed o' true ∈ es ↔ o' = o) ∧ .sent ∉ es ∧ 0 < holders
  | .sent o => (∀ o', .claimed o' true ∈ es ↔ o' = o) ∧ .sent ∈ es
  | .broken => ¬ Taken es ∧ .sent ∉ es ∧ holders = 0

/-- What a listener tells of the past. -/
def Listener.Fits (es : List Event) : Listener → Prop
  | .idle => .polled none ∉ es ∧ .left ∉ es
  | .waiting => Waits es
  | .served => True
  | .gone => .left ∈ es

/-- **A promise shows what its past tells.** -/
structure Shows (p : Promise) (es : List Event) : Prop where
  holders : p.holders + es.countP Event.isReleased = 1 + es.countP Event.isShared
  stage : p.stage.Fits p.holders es
  listener : p.listener.Fits es
  /-- A listener has its outcome only if there is one. -/
  served : p.listener = .served → p.stage.outcome?.isSome
  /-- As long as there is no outcome nobody was woken. -/
  early : p.stage.outcome? = none → p.wakes = 0 ∧ ¬ Woken es
  wakes : (p.wakes = 1 ↔ Woken es) ∧ p.wakes ≤ 1

/-! ### What a step does -/

theorem Listener.Fits.append {l : Listener} (h : l.Fits es) (hp : e ≠ .polled none)
    (hl : e ≠ .left) : l.Fits (es ++ [e]) := by
  cases l with
  | idle => simpa [Fits, Ne.symm hp, Ne.symm hl] using h
  | waiting => simpa [Fits, Waits, Ne.symm hp, Ne.symm hl] using h
  | served => trivial
  | gone => exact List.mem_append_left _ h

/-- A listener of a promise that is not resolved waits just if its past says so. -/
theorem Shows.listener_eq_waiting (h : Shows p es) (hn : p.stage.outcome? = none) :
    p.listener = .waiting ↔ Waits es := by
  have hl := h.listener
  cases hp : p.listener with
  | idle =>
    rw [hp] at hl
    exact iff_of_false Listener.noConfusion fun hw => hl.1 hw.1
  | waiting =>
    rw [hp] at hl
    exact iff_of_true rfl hl
  | served =>
    have := h.served hp
    simp [hn] at this
  | gone =>
    rw [hp] at hl
    exact iff_of_false Listener.noConfusion fun hw => hw.2 hl

/-- **Nothing is resolved**: nobody is woken. -/
theorem Shows.unresolved (h : Shows p es) (hr : ¬ Resolves es e) (hw : q.wakes = p.wakes)
    (hh : q.holders + (es ++ [e]).countP Event.isReleased = 1 + (es ++ [e]).countP Event.isShared)
    (hs : q.stage.Fits q.holders (es ++ [e])) (hl : q.listener.Fits (es ++ [e]))
    (hserved : q.listener = .served → q.stage.outcome?.isSome)
    (hearly : q.stage.outcome? = none → p.stage.outcome? = none) : Shows q (es ++ [e]) := by
  have hwoken : Woken (es ++ [e]) ↔ Woken es := by
    rw [woken_append, or_iff_left fun hn => hr hn.1]
  refine ⟨hh, hs, hl, hserved, fun hn => ?_, ?_⟩
  · rw [hw, hwoken]
    exact h.early (hearly hn)
  · rw [hw, hwoken]
    exact h.wakes

/-- **The promise is resolved**: a listener that waits is woken. -/
theorem Shows.resolved (h : Shows p es) (hn : p.stage.outcome? = none)
    (hr : Resolves es e) (hp : e ≠ .polled none) (hl : e ≠ .left)
    (hq : q.listener = p.listener ∧
      q.wakes = if p.listener = .waiting then p.wakes + 1 else p.wakes)
    (hh : q.holders + (es ++ [e]).countP Event.isReleased = 1 + (es ++ [e]).countP Event.isShared)
    (hs : q.stage.Fits q.holders (es ++ [e])) (ho : q.stage.outcome?.isSome) :
    Shows q (es ++ [e]) := by
  obtain ⟨hlistener, hwakes⟩ := hq
  obtain ⟨hzero, hnot⟩ := h.early hn
  have hwoken : Woken (es ++ [e]) ↔ p.listener = .waiting := by
    rw [woken_append, or_iff_right hnot, and_iff_right hr, h.listener_eq_waiting hn]
  refine ⟨hh, hs, hlistener ▸ h.listener.append hp hl, fun _ => ho, fun hnone => ?_, ?_⟩
  · simp [hnone] at ho
  · rw [hwoken, hwakes, hzero]
    split <;> simp_all

/-- What is neither an answer nor the sending of one changes nothing of what a stage tells. -/
theorem Stage.Fits.append {stage : Stage} {m n : Nat} (h : stage.Fits m es)
    (hc : ∀ o counts, e ≠ .claimed o counts) (hs : e ≠ .sent) (hn : 0 < n ↔ 0 < m) :
    stage.Fits n (es ++ [e]) := by
  have htaken : Taken (es ++ [e]) ↔ Taken es := by
    rw [taken_append]
    exact or_iff_left fun ⟨o, counts, he⟩ => hc o counts he
  have hcount (o : Outcome) : .claimed o true ∈ es ++ [e] ↔ .claimed o true ∈ es := by
    simp [Ne.symm (hc o true)]
  have hsent : .sent ∈ es ++ [e] ↔ .sent ∈ es := by simp [Ne.symm hs]
  cases stage with
  | unclaimed =>
    simp only [Fits, htaken, hsent, hn] at h ⊢
    exact h
  | claimed o =>
    simp only [Fits, hcount, hsent, hn] at h ⊢
    exact h
  | sent o =>
    simp only [Fits, hcount, hsent] at h ⊢
    exact h
  | broken =>
    simp only [Fits, htaken, hsent] at h ⊢
    exact ⟨h.1, h.2.1, by omega⟩

/-- An answer that comes too late. -/
theorem Stage.Fits.claimed_late {stage : Stage} {n : Nat} (h : stage.Fits n es)
    (hs : stage ≠ .unclaimed) (hn : 0 < n) : stage.Fits n (es ++ [.claimed o false]) := by
  cases stage with
  | unclaimed => exact absurd rfl hs
  | claimed o' | sent o' => simpa [Fits] using h
  | broken =>
    obtain ⟨-, -, hz⟩ := h
    omega

/-- The right to answer is taken just if the stage says so. -/
theorem Shows.taken_iff (h : Shows p es) : Taken es ↔ p.isClaimed = true := by
  have hs := h.stage
  unfold isClaimed
  cases hp : p.stage with
  | unclaimed | broken =>
    rw [hp] at hs
    simpa using hs.1
  | claimed o | sent o =>
    rw [hp] at hs
    simpa using ⟨o, true, (hs.1 o).2 rfl⟩

theorem claim_cases (p : Promise) (o : Outcome) :
    (p.stage = .unclaimed ∧ p.claim o = ({ p with stage := .claimed o }, true)) ∨
    (p.stage ≠ .unclaimed ∧ p.claim o = (p, false)) := by
  unfold claim
  cases p.stage <;> simp

/-- **An answer** takes the right to answer, or comes too late. -/
theorem Shows.claim (h : Shows p es) (o : Outcome) (hp : 0 < p.holders) :
    Shows (p.claim o).1 (es ++ [.claimed o (p.claim o).2]) := by
  have hr (counts : Bool) : ¬ Resolves es (.claimed o counts) := by simp [Resolves]
  have hh (counts : Bool) : p.holders + (es ++ [Event.claimed o counts]).countP Event.isReleased =
      1 + (es ++ [Event.claimed o counts]).countP Event.isShared := by
    simpa [Event.isReleased, Event.isShared] using h.holders
  have hl (counts : Bool) : p.listener.Fits (es ++ [Event.claimed o counts]) :=
    h.listener.append Event.noConfusion Event.noConfusion
  obtain ⟨hstage, hclaim⟩ | ⟨hstage, hclaim⟩ := claim_cases p o <;> rw [hclaim]
  · have hn : p.stage.outcome? = none := by rw [hstage]; rfl
    obtain ⟨hfree, hsent, -⟩ : Stage.Fits p.holders es .unclaimed := hstage ▸ h.stage
    refine h.unresolved (hr true) rfl (hh true) ?_ (hl true) (fun hserved => ?_) fun _ => hn
    · have hfirst (o' : Outcome) : .claimed o' true ∉ es := fun hm => hfree ⟨o', true, hm⟩
      refine ⟨fun o' => ?_, by simpa using hsent, hp⟩
      simp [hfirst]
    · have := h.served hserved
      simp [hn] at this
  · exact h.unresolved (hr false) rfl (hh false) (h.stage.claimed_late hstage hp) (hl false)
      h.served id

/-- **The outcome is sent.** -/
theorem Shows.send (h : Shows p es) (hp : p.inUse = 1) : Shows p.send (es ++ [.sent]) := by
  obtain ⟨o, hstage⟩ : ∃ o, p.stage = .claimed o := by
    unfold inUse at hp
    cases hs : p.stage <;> simp_all
  have hn : p.stage.outcome? = none := by rw [hstage]; rfl
  obtain ⟨hfirst, -, -⟩ : Stage.Fits p.holders es (.claimed o) := hstage ▸ h.stage
  have hsend : p.send = p.settle (.sent o) := by rw [Promise.send, hstage]
  rw [hsend]
  refine h.resolved hn (.inl rfl) Event.noConfusion Event.noConfusion ⟨rfl, rfl⟩ ?_ ?_ rfl
  · simpa [settle, Event.isReleased, Event.isShared] using h.holders
  · exact ⟨fun o' => by simpa using hfirst o', by simp⟩

/-- Somebody asks whether the right is taken. -/
theorem Shows.inspect (h : Shows p es) : Shows p (es ++ [.inspected p.isClaimed]) := by
  refine h.unresolved (by simp [Resolves]) rfl ?_ ?_ ?_ h.served id
  · simpa [Event.isReleased, Event.isShared] using h.holders
  · exact h.stage.append (fun _ _ => Event.noConfusion) Event.noConfusion .rfl
  · exact h.listener.append Event.noConfusion Event.noConfusion

/-- There is one callback more. -/
theorem Shows.share (h : Shows p es) (hp : 0 < p.holders) :
    Shows p.share (es ++ [.shared]) := by
  refine h.unresolved (by simp [Resolves]) rfl ?_ ?_ ?_ h.served id
  · have := h.holders
    simp [Promise.share, Event.isReleased, Event.isShared]
    omega
  · refine h.stage.append (fun _ _ => Event.noConfusion) Event.noConfusion ?_
    show 0 < p.holders + 1 ↔ 0 < p.holders
    omega
  · exact h.listener.append Event.noConfusion Event.noConfusion

theorem release_cases (p : Promise) :
    (p.stage = .unclaimed ∧ p.holders - 1 = 0 ∧
      p.release = { p with holders := p.holders - 1 }.settle .broken) ∨
    ((p.stage = .unclaimed → 0 < p.holders - 1) ∧
      p.release = { p with holders := p.holders - 1 }) := by
  unfold release
  cases p.stage with
  | unclaimed =>
    by_cases hz : p.holders - 1 = 0
    · simp [hz]
    · simp [hz]
      omega
  | claimed o | sent o | broken => simp

/-- There is one callback less.  If it was the last and nobody took the right to answer, the promise
is broken. -/
theorem Shows.release (h : Shows p es) (hp : p.inUse < p.holders) :
    Shows p.release (es ++ [.released]) := by
  have hh : (p.holders - 1) + (es ++ [Event.released]).countP Event.isReleased =
      1 + (es ++ [Event.released]).countP Event.isShared := by
    have := h.holders
    simp [Event.isReleased, Event.isShared]
    omega
  have hheld : IsHeld (es ++ [.released]) ↔ 0 < p.holders - 1 := by
    unfold IsHeld
    omega
  obtain ⟨hstage, hz, hrelease⟩ | ⟨hmore, hrelease⟩ := release_cases p <;> rw [hrelease]
  · have hn : p.stage.outcome? = none := by rw [hstage]; rfl
    obtain ⟨hfree, hsent, -⟩ : Stage.Fits p.holders es .unclaimed := hstage ▸ h.stage
    have hr : Resolves es .released := .inr ⟨rfl, hfree, by rw [hheld]; omega⟩
    refine h.resolved hn hr Event.noConfusion Event.noConfusion ⟨rfl, rfl⟩ hh ?_ rfl
    refine ⟨?_, by simpa using hsent, hz⟩
    rw [taken_append]
    simpa using hfree
  · have hr : ¬ Resolves es .released := by
      rintro (he | ⟨-, hfree, hnone⟩)
      · cases he
      · rw [hheld] at hnone
        have hs := h.stage
        cases hstage : p.stage with
        | unclaimed => exact hnone (hmore hstage)
        | claimed o | sent o =>
          rw [hstage] at hs
          exact hfree ⟨o, true, (hs.1 o).2 rfl⟩
        | broken =>
          rw [hstage] at hs
          have := hs.2.2
          omega
    refine h.unresolved hr rfl hh ?_ ?_ h.served id
    · have hs := h.stage
      show p.stage.Fits (p.holders - 1) (es ++ [.released])
      cases hstage : p.stage with
      | unclaimed =>
        rw [hstage] at hs
        have := hmore hstage
        exact hs.append (fun _ _ => Event.noConfusion) Event.noConfusion (by omega)
      | claimed o =>
        rw [hstage] at hs
        have : p.inUse = 1 := by rw [inUse, hstage]
        exact hs.append (fun _ _ => Event.noConfusion) Event.noConfusion (by omega)
      | sent o =>
        rw [hstage] at hs
        exact Stage.Fits.append (m := p.holders - 1) hs (fun _ _ => Event.noConfusion)
          Event.noConfusion .rfl
      | broken =>
        rw [hstage] at hs
        have := hs.2.2
        omega
    · exact h.listener.append Event.noConfusion Event.noConfusion

/-- **The listener asks.** -/
theorem Shows.poll (h : Shows p es) (hp : p.isHeard = true) :
    Shows p.poll.1 (es ++ [.polled p.poll.2]) := by
  have hr (a : Option Outcome) : ¬ Resolves es (.polled a) := by simp [Resolves]
  have hh (a : Option Outcome) : p.holders + (es ++ [Event.polled a]).countP Event.isReleased =
      1 + (es ++ [Event.polled a]).countP Event.isShared := by
    simpa [Event.isReleased, Event.isShared] using h.holders
  have hs (a : Option Outcome) : p.stage.Fits p.holders (es ++ [.polled a]) :=
    h.stage.append (fun _ _ => Event.noConfusion) Event.noConfusion .rfl
  cases ho : p.stage.outcome? with
  | some o =>
    have hpoll : p.poll = ({ p with listener := .served }, some o) := by rw [Promise.poll, ho]
    rw [hpoll]
    exact h.unresolved (hr _) rfl (hh _) (hs _) trivial (fun _ => by simp [ho]) fun hn => by
      simp [ho] at hn
  | none =>
    have hpoll : p.poll = ({ p with listener := .waiting }, none) := by rw [Promise.poll, ho]
    rw [hpoll]
    have hstays : .left ∉ es := by
      have hl := h.listener
      unfold isHeard at hp
      cases hlistener : p.listener with
      | idle | waiting =>
        rw [hlistener] at hl
        exact hl.2
      | served | gone => simp [hlistener] at hp
    exact h.unresolved (hr _) rfl (hh _) (hs _) ⟨by simp, by simpa using hstays⟩
      (fun hserved => by cases hserved) fun _ => ho

/-- **The listener goes away.** -/
theorem Shows.leave (h : Shows p es) : Shows p.leave (es ++ [.left]) := by
  refine h.unresolved (by simp [Resolves]) rfl ?_ ?_ ?_ (fun hserved => by cases hserved) id
  · simpa [Promise.leave, Event.isReleased, Event.isShared] using h.holders
  · exact h.stage.append (fun _ _ => Event.noConfusion) Event.noConfusion .rfl
  · exact List.mem_append_right _ (List.mem_singleton.2 rfl)

/-- **A step keeps the promise and its past together.** -/
theorem Shows.act {a : Act} (h : Shows p es) (hs : p.act a = some (q, e)) : Shows q (es ++ [e]) := by
  rcases act_cases hs with ⟨o, hp, rfl, rfl⟩ | ⟨hp, rfl, rfl⟩ | ⟨hp, rfl, rfl⟩ | ⟨hp, rfl, rfl⟩ |
    ⟨hp, rfl, rfl⟩ | ⟨hp, rfl, rfl⟩ | ⟨hp, rfl, rfl⟩
  · exact h.claim o hp
  · exact h.send hp
  · exact h.inspect
  · exact h.share hp
  · exact h.release hp
  · exact h.poll hp
  · exact h.leave

/-- **A promise shows what its past tells**, whatever was done with it. -/
theorem Past.shows (h : Past p es) : Shows p es := by
  induction h with
  | new =>
    have hnever : ¬ Woken [] := by
      rintro ⟨fs, e, gs, hes, -⟩
      simp at hes
    have hfree : ¬ Taken [] := by
      rintro ⟨o, counts, hm⟩
      cases hm
    exact {
      holders := rfl
      stage := ⟨hfree, List.not_mem_nil, Nat.one_pos⟩
      listener := ⟨List.not_mem_nil, List.not_mem_nil⟩
      served := fun hserved => by cases hserved
      early := fun _ => ⟨rfl, hnever⟩
      wakes := ⟨iff_of_false Nat.zero_ne_one hnever, Nat.zero_le 1⟩ }
  | act h a hs ih => exact ih.act hs

/-! ### What a whole past shows -/

/-- An answer counts just if it was the first to take the right. -/
theorem Shows.claimed_iff {a : Act} {counts : Bool} (h : Shows p es)
    (hs : p.act a = some (q, .claimed o counts)) : counts = true ↔ ¬ Taken es := by
  obtain ⟨o, hp, -, he⟩ | ⟨-, -, he⟩ | ⟨-, -, he⟩ | ⟨-, -, he⟩ | ⟨-, -, he⟩ | ⟨-, -, he⟩ |
    ⟨-, -, he⟩ := act_cases hs <;> cases he
  have hstage := h.stage
  obtain ⟨hfree, hclaim⟩ | ⟨hfree, hclaim⟩ := claim_cases p o <;> rw [hclaim]
  · rw [hfree] at hstage
    exact iff_of_true rfl hstage.1
  · rw [h.taken_iff]
    refine iff_of_false Bool.false_ne_true (not_not_intro ?_)
    unfold isClaimed
    cases hp' : p.stage with
    | unclaimed => exact absurd hp' hfree
    | claimed o | sent o => rfl
    | broken =>
      rw [hp'] at hstage
      have := hstage.2.2
      omega

theorem Shows.inspected_iff {a : Act} {isClaimed : Bool} (h : Shows p es)
    (hs : p.act a = some (q, .inspected isClaimed)) : isClaimed = true ↔ Taken es := by
  obtain ⟨_, -, -, he⟩ | ⟨-, -, he⟩ | ⟨-, -, he⟩ | ⟨-, -, he⟩ | ⟨-, -, he⟩ | ⟨-, -, he⟩ |
    ⟨-, -, he⟩ := act_cases hs <;> cases he
  exact h.taken_iff.symm

/-- Some callback is alive just if one is counted. -/
theorem Shows.isHeld_iff (h : Shows p es) : IsHeld es ↔ 0 < p.holders := by
  have := h.holders
  unfold IsHeld
  omega

/-- **What the listener is told**, from the past alone. -/
theorem Shows.polled_iff {a : Act} {answer : Option Outcome} (h : Shows p es)
    (hs : p.act a = some (q, .polled answer)) :
    (.sent ∈ es → ∃ o, .claimed o true ∈ es ∧ answer = some o) ∧
    (answer = some .unanswered ↔
      (¬ Taken es ∧ ¬ IsHeld es) ∨ (.sent ∈ es ∧ .claimed .unanswered true ∈ es)) ∧
    (answer = none ↔ .sent ∉ es ∧ IsHeld es) := by
  obtain rfl : answer = p.stage.outcome? := by
    obtain ⟨_, -, -, he⟩ | ⟨-, -, he⟩ | ⟨-, -, he⟩ | ⟨-, -, he⟩ | ⟨-, -, he⟩ | ⟨-, -, he⟩ |
      ⟨-, -, he⟩ := act_cases hs <;> cases he
    unfold Promise.poll
    cases p.stage.outcome? <;> rfl
  rw [h.isHeld_iff]
  have hstage := h.stage
  have htaken := h.taken_iff
  unfold isClaimed at htaken
  cases hp : p.stage with
  | unclaimed =>
    rw [hp] at hstage
    obtain ⟨hfree, hsent, hholders⟩ := hstage
    simp [Stage.outcome?, hsent, hholders]
  | claimed o =>
    rw [hp] at hstage htaken
    obtain ⟨-, hsent, hholders⟩ := hstage
    simp [Stage.outcome?, hsent, hholders]
  | sent o =>
    rw [hp] at hstage htaken
    obtain ⟨hfirst, hsent⟩ := hstage
    simp [Stage.outcome?, hsent, hfirst, htaken, eq_comm]
  | broken =>
    rw [hp] at hstage
    obtain ⟨hfree, hsent, hholders⟩ := hstage
    simp [Stage.outcome?, hsent, hholders, hfree]

/-- **A promise is settled once**, whatever was done with it and in whatever order.

* An answer counts just if no other one took the right before, whether or not there is a listener;
  and whoever asks is told that the right is taken just if it was.
* Once an outcome was sent the listener is told that of the answer that counts, whatever goes
  afterwards.  It is told that there was no answer just if the last callback went with nobody having
  taken the right, or if this is what was sent.  It has to wait just as long as nothing was sent and
  some callback is alive.
* The listener is woken once if it waited when the promise was resolved, and never otherwise. -/
theorem Past.settles_once (p : Promise) (es : List Event) (h : Past p es) :
    (∀ fs o counts gs, es = fs ++ .claimed o counts :: gs → (counts = true ↔ ¬ Taken fs)) ∧
    (∀ fs isClaimed gs, es = fs ++ .inspected isClaimed :: gs →
      (isClaimed = true ↔ Taken fs)) ∧
    (∀ fs answer gs, es = fs ++ .polled answer :: gs →
      (.sent ∈ fs → ∃ o, .claimed o true ∈ fs ∧ answer = some o) ∧
      (answer = some .unanswered ↔
        (¬ Taken fs ∧ ¬ IsHeld fs) ∨ (.sent ∈ fs ∧ .claimed .unanswered true ∈ fs)) ∧
      (answer = none ↔ .sent ∉ fs ∧ IsHeld fs)) ∧
    (p.wakes = 1 ↔ Woken es) ∧ p.wakes ≤ 1 := by
  refine ⟨?_, ?_, ?_, h.shows.wakes⟩
  · rintro fs o counts gs rfl
    obtain ⟨q, r, a, hq, hs⟩ := h.before
    exact hq.shows.claimed_iff hs
  · rintro fs isClaimed gs rfl
    obtain ⟨q, r, a, hq, hs⟩ := h.before
    exact hq.shows.inspected_iff hs
  · rintro fs answer gs rfl
    obtain ⟨q, r, a, hq, hs⟩ := h.before
    exact hq.shows.polled_iff hs

/-- The listener waits, and one of two callbacks goes between the two steps of the answer that counts;
another answer comes too late.  The last callback goes, and the listener is told the outcome. -/
theorem settles_once_beside_late_answer :
    ∃ p es, Past p es ∧
      es = [.shared, .polled none, .claimed (.ok .null) true, .inspected true,
        .claimed .unanswered false, .released, .sent, .released] ++ .polled (some (.ok .null)) :: [] ∧
      (∃ o, .claimed o true ∈ es ∧ some (.ok .null) = some o) ∧ Woken es := by
  let as : List Act := [.share, .poll, .claim (.ok .null), .inspect, .claim .unanswered, .release,
    .send, .release, .poll]
  let fs : List Event := [.shared, .polled none, .claimed (.ok .null) true, .inspected true,
    .claimed .unanswered false, .released, .sent, .released]
  have h : Past { stage := .sent (.ok .null), holders := 0, listener := .served, wakes := 1 }
      (fs ++ .polled (some (.ok .null)) :: []) := Past.new.acts as rfl
  obtain ⟨-, -, hpolled, hwakes, -⟩ := Past.settles_once _ _ h
  obtain ⟨o, ho, heq⟩ := (hpolled fs _ [] rfl).1 (by simp [fs])
  exact ⟨_, _, h, rfl, ⟨o, List.mem_append_left _ ho, heq⟩, hwakes.1 rfl⟩

/-- **Nobody is woken who went away.**  The listener asks too early and goes away, and then an outcome
is sent.  And a listener may be told that there was no answer while a callback is alive: that is what
the answer said. -/
theorem settles_unheard :
    (∃ p fs gs, Past p (fs ++ .sent :: gs) ∧ Resolves fs .sent ∧ .polled none ∈ fs ∧ p.wakes = 0) ∧
    (∃ p fs gs, Past p (fs ++ .polled (some .unanswered) :: gs) ∧ Taken fs ∧ IsHeld fs) := by
  constructor
  · let as : List Act := [.poll, .leave, .claim (.ok .null), .send]
    have h : Past { stage := .sent (.ok .null), listener := .gone }
        ([.polled none, .left, .claimed (.ok .null) true] ++ .sent :: []) :=
      Past.new.acts as rfl
    exact ⟨_, _, _, h, .inl rfl, by simp, rfl⟩
  · let as : List Act := [.claim .unanswered, .send, .poll]
    have h : Past { stage := .sent .unanswered, listener := .served }
        ([.claimed .unanswered true, .sent] ++ .polled (some .unanswered) :: []) :=
      Past.new.acts as rfl
    exact ⟨_, _, _, h, ⟨.unanswered, true, by simp⟩, Nat.le_refl 0⟩

end HeldReply.Promise
