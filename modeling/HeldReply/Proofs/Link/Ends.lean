import HeldReply.Proofs.Link.Past

/-!
# How the body of a reply ends

A body that ends after an abort frame is cut off, and one that ends without it looks complete.  It is
to look complete only when the writing side was finished in good order.  Closing does not see to it:
when the buffer has no place for the abort frame, the frame is dropped, and the body ends cleanly as
soon as the client has read what is left.  This is the only way, and it never fails to come about.

* `Channel.Ending` — **the invariant**: what a body that goes on is still to meet;
* `Channel.Past.ends_cleanly_iff` — **a body ends cleanly** exactly after a good end, or after it
  was closed silently.
-/

namespace HeldReply.Channel

variable {c : Channel} {timeout : Span} {now ticket : Nat} {chunk : String} {es : List Event}

/-- The body was cut off, and was told so, or is still to be told. -/
def IsCut (c : Channel) (es : List Event) : Prop :=
  .abort ∈ c.buffer ∨ .pulled (.frame .abort) ∈ es

/-- The writing side ended in good order, or nobody tells the body that it did not. -/
def EndedCleanly (es : List Event) : Prop :=
  .finished .done ∈ es ∨ .closed true ∈ es

/-- Whether an event tells nothing of how the reply ends. -/
def Event.isQuiet : Event → Bool
  | .finished .done | .closed true | .pulled (.frame .abort) | .pulled .finished => false
  | _ => true

/-- **What the end of a channel was**, as long as its body goes on, and what it was for a body that
came to its end. -/
structure Ending (c : Channel) (es : List Event) : Prop where
  /-- What can still be written to has not ended. -/
  not_ended : c.writable = true → ¬ IsCut c es ∧ ¬ EndedCleanly es
  /-- What has ended was cut, or it ended cleanly. -/
  cut_iff : c.writable = false → c.hasBody = true → (¬ IsCut c es ↔ EndedCleanly es)
  /-- Nothing comes after the end of the body. -/
  at_end : .pulled .finished ∈ es → c.writable = false ∧ c.waiting = [] ∧ c.buffer = [] ∧
    (.pulled (.frame .abort) ∉ es ↔ EndedCleanly es)
  /-- It ends once. -/
  once : ¬ (.finished .done ∈ es ∧ .closed true ∈ es)

/-! ### Quiet steps -/

section Quiet

variable {e : Event}

theorem mem_of_isQuiet {x : Event} (he : e.isQuiet = true) (hx : x.isQuiet = false) :
    x ∈ es ++ [e] ↔ x ∈ es := by
  have hne : x ≠ e := by
    rintro rfl
    cases hx.symm.trans he
  rw [List.mem_append, List.mem_singleton, or_iff_left hne]

theorem endedCleanly_of_isQuiet (he : e.isQuiet = true) :
    EndedCleanly (es ++ [e]) ↔ EndedCleanly es :=
  or_congr (mem_of_isQuiet he rfl) (mem_of_isQuiet he rfl)

/-- **A quiet step** changes nothing about the end. -/
theorem Ending.of_isQuiet {d : Channel} (h : Ending c es) (he : e.isQuiet = true)
    (hw : d.writable = true → c.writable = true)
    (hb : d.writable = false → d.hasBody = true → c.writable = false ∧ c.hasBody = true)
    (hcut : .abort ∈ d.buffer → .abort ∈ c.buffer)
    (hbody : d.hasBody = true → .abort ∈ c.buffer → .abort ∈ d.buffer)
    (hover : c.writable = false → c.waiting = [] → c.buffer = [] → d.waiting = [] ∧ d.buffer = []) :
    Ending d (es ++ [e]) := by
  have habort : .pulled (.frame .abort) ∈ es ++ [e] ↔ .pulled (.frame .abort) ∈ es :=
    mem_of_isQuiet he rfl
  have hclean : EndedCleanly (es ++ [e]) ↔ EndedCleanly es := endedCleanly_of_isQuiet he
  constructor
  · intro hd
    obtain ⟨hc, hn⟩ := h.not_ended (hw hd)
    rw [hclean]
    exact ⟨fun hi => hc (hi.imp hcut habort.1), hn⟩
  · intro hd hbd
    obtain ⟨hwc, hbc⟩ := hb hd hbd
    rw [hclean, ← h.cut_iff hwc hbc]
    exact not_congr (or_congr ⟨hcut, hbody hbd⟩ habort)
  · intro hf
    obtain ⟨hwc, hwt, hbf, hiff⟩ := h.at_end ((mem_of_isQuiet he rfl).1 hf)
    obtain ⟨hdt, hdf⟩ := hover hwc hwt hbf
    rw [habort, hclean]
    refine ⟨?_, hdt, hdf, hiff⟩
    cases hd : d.writable with
    | false => rfl
    | true => cases hwc.symm.trans (hw hd)
  · rw [mem_of_isQuiet he rfl, mem_of_isQuiet he rfl]
    exact h.once

/-- A quiet step that leaves both ends as they are. -/
theorem Ending.of_same {d : Channel} (h : Ending c es) (he : e.isQuiet = true)
    (hw : d.writable = c.writable) (hb : d.hasBody = c.hasBody)
    (hcut : .abort ∈ d.buffer ↔ .abort ∈ c.buffer)
    (hover : c.writable = false → c.waiting = [] → c.buffer = [] → d.waiting = [] ∧ d.buffer = []) :
    Ending d (es ++ [e]) := by
  refine h.of_isQuiet he ?_ ?_ hcut.1 (fun _ => hcut.2) hover
  · rw [hw]
    exact id
  · rw [hw, hb]
    exact fun hd hb => ⟨hd, hb⟩

/-- A quiet step that leaves the frames and the writes that wait as they are, too. -/
theorem Ending.of_eq {d : Channel} (h : Ending c es) (he : e.isQuiet = true)
    (hw : d.writable = c.writable) (hb : d.hasBody = c.hasBody) (hf : d.buffer = c.buffer)
    (ht : d.waiting = c.waiting) : Ending d (es ++ [e]) := by
  refine h.of_same he hw hb (by rw [hf]) ?_
  rw [hf, ht]
  exact fun _ hwt hbf => ⟨hwt, hbf⟩

end Quiet

/-! ### Steps that end something -/

/-- A channel that can still be written to has no body at its end. -/
theorem Ending.not_over (h : Ending c es) (hw : c.writable = true) : .pulled .finished ∉ es :=
  fun hf => by cases hw.symm.trans (h.at_end hf).1

/-- **The writing side ends**, and the body goes on: it is cut or it will end cleanly. -/
theorem Ending.of_end {d : Channel} {e : Event} (h : Ending c es) (hw : c.writable = true)
    (hd : d.writable = false) (he : e ≠ .pulled .finished)
    (hiff : ¬ IsCut d (es ++ [e]) ↔ EndedCleanly (es ++ [e])) : Ending d (es ++ [e]) := by
  have hnot := (h.not_ended hw).2
  have hshut : ¬ d.writable = true := by
    rw [hd]
    exact Bool.false_ne_true
  refine ⟨fun hw => absurd hw hshut, fun _ _ => hiff, fun hf => ?_, ?_⟩
  · rcases List.mem_append.1 hf with hf | hf
    · exact absurd hf (h.not_over hw)
    · exact absurd (List.mem_singleton.1 hf).symm he
  · rintro ⟨hf, hc⟩
    have hf := (List.mem_append.1 hf).resolve_left fun hi => hnot (.inl hi)
    have hc := (List.mem_append.1 hc).resolve_left fun hi => hnot (.inr hi)
    cases (List.mem_singleton.1 hf).trans (List.mem_singleton.1 hc).symm

/-- An end that puts no abort frame into the buffer cuts nothing off. -/
theorem Ending.not_isCut {d : Channel} {e : Event} (h : Ending c es) (hw : c.writable = true)
    (hd : d.buffer = c.buffer) (he : e ≠ .pulled (.frame .abort)) : ¬ IsCut d (es ++ [e]) := by
  rintro (hi | hi)
  · rw [hd] at hi
    exact (h.not_ended hw).1 (.inl hi)
  · rcases List.mem_append.1 hi with hi | hi
    · exact (h.not_ended hw).1 (.inr hi)
    · exact he (List.mem_singleton.1 hi).symm

theorem Ending.finish (h : Ending c es) : Ending c.finish.1 (es ++ [.finished c.finish.2]) := by
  unfold Channel.finish
  by_cases hwb : c.writable = true ∧ c.hasBody = true
  · obtain ⟨hw, hb⟩ := hwb
    rw [if_pos (by simp [hw, hb])]
    refine h.of_end hw rfl (fun he => nomatch he) (iff_of_true ?_ (.inl ?_))
    · exact h.not_isCut hw rfl fun he => nomatch he
    · exact List.mem_append_right es (List.mem_singleton_self _)
  · rw [if_neg (by simpa using hwb)]
    refine h.of_isQuiet rfl (fun hd => nomatch hd) (fun _ hb => ?_) id (fun _ => id)
      fun _ hwt hbf => ⟨hwt, hbf⟩
    exact ⟨by simpa [show c.hasBody = true from hb] using hwb, hb⟩

theorem Ending.close (h : Ending c es) (hp : Places c) :
    Ending c.close (es ++ [.closed c.closesSilently]) := by
  have hsilent := closesSilently_iff hp
  obtain ⟨hw, hb, hf, hs⟩ | ⟨hn, hs⟩ := close_cases c <;> rw [hs]
  · have hno : c.closesSilently = false := by
      rw [← Bool.not_eq_true, hsilent]
      omega
    rw [hno]
    refine h.of_end hw rfl (fun he => nomatch he) (iff_of_false (not_not_intro (.inl ?_)) ?_)
    · exact List.mem_append_right _ (List.mem_singleton_self _)
    · rw [endedCleanly_of_isQuiet rfl]
      exact (h.not_ended hw).2
  · -- No abort frame: all places are taken, or one of the two sides is gone already.
    cases hc : c.closesSilently with
    | true =>
      obtain ⟨hw, hb, hf⟩ := hsilent.1 hc
      refine h.of_end hw rfl (fun he => nomatch he) (iff_of_true ?_ (.inr ?_))
      · exact h.not_isCut hw rfl fun he => nomatch he
      · exact List.mem_append_right es (List.mem_singleton_self _)
    | false =>
      refine h.of_isQuiet rfl (fun hd => nomatch hd) (fun _ hb => ⟨?_, hb⟩) id (fun _ => id)
        fun _ hwt hbf => ⟨hwt, hbf⟩
      have hb : c.hasBody = true := hb
      have hno := (not_congr hsilent).1 (by simp [hc])
      cases hw : c.writable with
      | false => rfl
      | true =>
        rw [hw, hb] at hn hno
        simp only [true_and] at hn hno
        omega

/-- A frame of the reply cuts nothing off. -/
theorem abort_mem_append {fs : List Frame} {chunk : String} :
    .abort ∈ fs ++ [.data chunk] ↔ .abort ∈ fs := by
  rw [List.mem_append, List.mem_singleton, or_iff_left fun he => nomatch he]

theorem Ending.startWrite (h : Ending c es) (now : Nat) (chunk : String) :
    Ending (c.startWrite now chunk).1
      (es ++ [.began now chunk (c.startWrite now chunk).2]) := by
  obtain ⟨-, hs⟩ | ⟨hw, -, hs⟩ | ⟨hw, -, -, hs⟩ | ⟨hw, -, -, -, hs⟩ | ⟨hw, -, -, -, hs⟩ :=
    startWrite_cases c now chunk <;> rw [hs]
  · exact h.of_eq rfl rfl rfl rfl rfl
  · exact h.of_eq rfl rfl rfl rfl rfl
  · refine h.of_same rfl rfl rfl abort_mem_append fun hn => ?_
    cases hw.symm.trans hn
  · exact h.of_eq rfl rfl rfl rfl rfl
  · refine h.of_same rfl rfl rfl .rfl fun hn => ?_
    cases hw.symm.trans hn

theorem Ending.pollWrite (h : Ending c es) (now ticket : Nat) :
    Ending (c.pollWrite now ticket).1
      (es ++ [.asked now ticket (c.pollWrite now ticket).2]) := by
  have hnone (hwt : c.waiting = []) : (c.forget ticket).waiting = [] := by
    show c.waiting.filter _ = []
    rw [hwt, List.filter_nil]
  obtain ⟨-, hs⟩ | ⟨w, hw, ⟨-, hs⟩ | ⟨-, -, hs⟩ | ⟨-, -, -, hs⟩ | ⟨-, -, -, hs⟩⟩ :=
    pollWrite_cases c now ticket <;> rw [hs]
  · exact h.of_eq rfl rfl rfl rfl rfl
  · exact h.of_same rfl rfl rfl .rfl fun _ hwt hbf => ⟨hnone hwt, hbf⟩
  · refine h.of_same rfl rfl rfl abort_mem_append fun _ hwt => ?_
    cases hwt ▸ (mem_of_waiting? hw).1
  · exact h.of_same rfl rfl rfl .rfl fun _ hwt hbf => ⟨hnone hwt, hbf⟩
  · exact h.of_eq rfl rfl rfl rfl rfl

/-- A body that takes a frame out may meet with the abort frame, but it is not at its end. -/
theorem Ending.of_frame {d : Channel} {f : Frame} {rest : List Frame} (h : Ending c es)
    (hf : c.buffer = f :: rest) (hw : d.writable = c.writable) (hb : d.hasBody = c.hasBody)
    (hd : d.buffer = rest) : Ending d (es ++ [.pulled (.frame f)]) := by
  have hcut : IsCut d (es ++ [.pulled (.frame f)]) ↔ IsCut c es := by
    rw [IsCut, IsCut, hd, hf, List.mem_cons, List.mem_append, List.mem_singleton, Event.pulled.injEq,
      Pull.frame.injEq]
    simp only [or_comm, or_left_comm, or_assoc]
  have hclean : EndedCleanly (es ++ [.pulled (.frame f)]) ↔ EndedCleanly es := by
    simp [EndedCleanly]
  constructor
  · rw [hw, hcut, hclean]
    exact h.not_ended
  · rw [hw, hb, hcut, hclean]
    exact h.cut_iff
  · intro hi
    rcases List.mem_append.1 hi with hi | hi
    · cases hf.symm.trans (h.at_end hi).2.2.1
    · cases List.mem_singleton.1 hi
  · simpa using h.once

theorem Ending.pull (h : Ending c es) (hb : c.hasBody = true) :
    Ending c.pull.1 (es ++ [.pulled c.pull.2]) := by
  obtain ⟨f, rest, ws, hf, -, hs⟩ | ⟨f, rest, hf, -, hs⟩ | ⟨hn, hs⟩ := pull_cases c <;> rw [hs]
  · exact h.of_frame hf rfl rfl rfl
  · exact h.of_frame hf rfl rfl rfl
  · cases ho : c.isOver with
    | false => exact h.of_eq rfl rfl rfl rfl rfl
    | true =>
      obtain ⟨hw, hwt⟩ : c.writable = false ∧ c.waiting = [] := by simpa [isOver] using ho
      have hclean : EndedCleanly (es ++ [.pulled .finished]) ↔ EndedCleanly es := by
        simp [EndedCleanly]
      have hmet : .pulled (.frame .abort) ∈ es ++ [.pulled .finished] ↔ IsCut c es := by
        simp [IsCut, hn]
      have hiff := h.cut_iff hw hb
      show Ending { c with opened := true } (es ++ [.pulled .finished])
      refine ⟨fun hd => absurd (hw.symm.trans hd) Bool.false_ne_true, fun _ _ => ?_, fun _ => ?_,
        by simpa using h.once⟩
      · rw [hclean, ← hiff, ← hmet, IsCut, or_iff_right (by simp [hn])]
      · exact ⟨hw, hwt, hn, by rw [hmet, hclean, hiff]⟩

/-! ### A whole past -/

/-- **What is done keeps account of the end.** -/
theorem Ending.act (h : Ending c es) (hp : Places c) (now : Nat) (a : Act)
    (ha : a = .pull → c.hasBody = true) : Ending (c.act now a).1 (es ++ [(c.act now a).2]) := by
  cases a with
  | write chunk => exact h.startWrite now chunk
  | ask ticket => exact h.pollWrite now ticket
  | finish => exact h.finish
  | close => exact h.close hp
  | pull => exact h.pull (ha rfl)
  | drop =>
    exact h.of_isQuiet rfl id (fun _ hb => nomatch hb) (fun hi => nomatch hi) (fun hb => nomatch hb)
      fun _ hwt _ => ⟨hwt, rfl⟩

theorem Past.ending (h : Past timeout now c es) : Ending c es := by
  induction h with
  | new =>
    refine ⟨fun _ => ⟨?_, ?_⟩, (fun hw => nomatch hw), (fun hf => nomatch hf), ?_⟩
    · simp [IsCut]
    · simp [EndedCleanly]
    · simp
  | wait _ _ ih => exact ih
  | act h a ha ih => exact ih.act h.places _ a ha

/-- **How the body of a reply ends.**  Of whatever was done to a channel in whatever order and at
whatever times, with whatever came of it: a body that came to its end met no abort frame exactly
when the writing side was finished in good order, or it was closed while each place in the buffer was
taken by a frame or kept for a write.  So a clean end tells of a good one, unless the channel was
closed like that. -/
theorem Past.ends_cleanly_iff (timeout : Span) (now : Nat) (c : Channel) (es : List Event)
    (h : Past timeout now c es) (hf : .pulled .finished ∈ es) :
    (.pulled (.frame .abort) ∉ es ↔ .finished .done ∈ es ∨ .closed true ∈ es) ∧
    ((.pulled (.frame .abort) ∉ es → .finished .done ∈ es) ↔ .closed true ∉ es) := by
  obtain ⟨-, -, -, hiff⟩ := h.ending.at_end hf
  refine ⟨hiff, fun hgood hc => ?_, fun hn hcut => ?_⟩
  · exact h.ending.once ⟨hgood (hiff.2 (.inr hc)), hc⟩
  · exact (hiff.1 hcut).resolve_right hn

/-- **Too many frames for an abort.**  Sixteen frames are written, the channel is closed, and the
client reads to the end.  It meets no abort frame, and nobody had finished the reply. -/
theorem ends_cleanly_of_full_buffer :
    ∃ c es, Past (.ofMillis 20) 0 c es ∧ .pulled .finished ∈ es ∧ .closed true ∈ es ∧
      .finished .done ∉ es ∧ .pulled (.frame .abort) ∉ es := by
  let as := List.replicate 16 (Act.write " ") ++ .close :: List.replicate 17 .pull
  have h := (@Past.new (.ofMillis 20)).acts as (by decide) rfl
  have hf : .pulled .finished ∈ (acts 0 as { timeout := .ofMillis 20 } []).2 := by decide
  have hc : .closed true ∈ (acts 0 as { timeout := .ofMillis 20 } []).2 := by decide
  exact ⟨_, _, h, hf, hc, by decide,
    (Past.ends_cleanly_iff (.ofMillis 20) 0 _ _ h hf).1.2 (.inr hc)⟩

end HeldReply.Channel
