import HeldReply.Proofs.Link.Past

/-!
# Whether a channel is closed

A channel is asked in two ways whether it is closed: who asks at once hears of every end, and who
waits for it is told of an abort and of a body that went away.  What the two say is read off the past
of the channel.

* `Channel.WasFinished`, `Channel.WasCutOff` — the ends that lie in a past;
* `Channel.Recalls` — **the invariant**: what a channel knows of the ends in its past;
* `Channel.Recalls.act`, `Channel.Past.recalls` — what is done and a whole past keep it;
* `Channel.Past.closed_alike_iff` — **what both say**, and that they differ after a good end.
-/

namespace HeldReply.Channel

variable {c d : Channel} {timeout : Span} {now : Nat} {e : Event} {es fs : List Event}

/-- The writing side was **finished**, in good order or too late. -/
def WasFinished (es : List Event) : Prop :=
  ∃ r, .finished r ∈ es

/-- The channel was **cut off**: it was closed in disorder, or the body went away. -/
def WasCutOff (es : List Event) : Prop :=
  (∃ silently, .closed silently ∈ es) ∨ .dropped ∈ es

theorem wasFinished_append : WasFinished (es ++ fs) ↔ WasFinished es ∨ WasFinished fs := by
  simp only [WasFinished, List.mem_append, exists_or]

theorem wasCutOff_append : WasCutOff (es ++ fs) ↔ WasCutOff es ∨ WasCutOff fs := by
  simp only [WasCutOff, List.mem_append, exists_or]
  exact or_or_or_comm

/-- **What a channel knows** of the ends in its past. -/
structure Recalls (c : Channel) (es : List Event) : Prop where
  gone_iff : c.hasBody = false ↔ .dropped ∈ es
  unwritable_iff : c.writable = false ↔ WasFinished es ∨ ∃ silently, .closed silently ∈ es
  closed_iff : c.closed = true ↔ WasCutOff es

/-! ### One step -/

/-- An event that is no end adds nothing, whoever finds the body gone. -/
theorem Recalls.of_write (h : Recalls c es) (hfinished : ¬ WasFinished [e])
    (hcut : ¬ WasCutOff [e]) (hb : d.hasBody = c.hasBody) (hw : d.writable = c.writable)
    (hc : d.closed = c.closed ∨ c.hasBody = false ∧ d.closed = true) : Recalls d (es ++ [e]) := by
  have hclosed : ¬ ∃ silently, Event.closed silently ∈ [e] := fun hs => hcut (.inl hs)
  have hdropped : Event.dropped ∉ [e] := fun hs => hcut (.inr hs)
  constructor
  · rw [hb, h.gone_iff, List.mem_append, or_iff_left hdropped]
  · rw [hw, h.unwritable_iff, wasFinished_append, or_iff_left hfinished]
    simp only [List.mem_append, exists_or]
    rw [or_iff_left hclosed]
  · rw [wasCutOff_append, or_iff_left hcut, ← h.closed_iff]
    obtain hc | ⟨hgone, hc⟩ := hc
    · rw [hc]
    · have hcutOff : WasCutOff es := .inr (h.gone_iff.1 hgone)
      exact iff_of_true hc (h.closed_iff.2 hcutOff)

theorem Recalls.finish (h : Recalls c es) : Recalls c.finish.1 (es ++ [.finished c.finish.2]) := by
  rw [finish_fst]
  constructor
  · show c.hasBody = false ↔ _
    rw [h.gone_iff]
    simp
  · exact iff_of_true rfl (.inl ⟨c.finish.2, by simp⟩)
  · show c.closed = true ↔ _
    rw [h.closed_iff, wasCutOff_append, or_iff_left]
    simp [WasCutOff]

theorem Recalls.close (h : Recalls c es) : Recalls c.close (es ++ [.closed c.closesSilently]) := by
  have hb : c.close.hasBody = c.hasBody := by
    obtain ⟨-, -, -, hs⟩ | ⟨-, hs⟩ := close_cases c <;> rw [hs]
  have hw : c.close.writable = false ∧ c.close.closed = true := by
    obtain ⟨-, -, -, hs⟩ | ⟨-, hs⟩ := close_cases c <;> rw [hs] <;> exact ⟨rfl, rfl⟩
  have hmem : ∃ silently, Event.closed silently ∈ es ++ [.closed c.closesSilently] :=
    ⟨c.closesSilently, by simp⟩
  constructor
  · rw [hb, h.gone_iff]
    simp
  · exact iff_of_true hw.1 (.inr hmem)
  · exact iff_of_true hw.2 (.inl hmem)

theorem Recalls.dropBody (h : Recalls c es) : Recalls c.dropBody (es ++ [.dropped]) := by
  have hmem : Event.dropped ∈ es ++ [.dropped] := by simp
  constructor
  · exact iff_of_true rfl hmem
  · show c.writable = false ↔ _
    rw [h.unwritable_iff]
    simp [WasFinished]
  · exact iff_of_true rfl (.inr hmem)

/-- **What is done keeps what is known**: a finish, a close and the body going away are ends, and
nothing else is. -/
theorem Recalls.act (h : Recalls c es) (now : Nat) (a : Act) :
    Recalls (c.act now a).1 (es ++ [(c.act now a).2]) := by
  cases a with
  | write chunk =>
    apply h.of_write (by simp [Channel.act, WasFinished]) (by simp [Channel.act, WasCutOff])
    · exact hasBody_act c now (by simp)
    · show (c.startWrite now chunk).1.writable = c.writable
      obtain ⟨-, hs⟩ | ⟨-, -, hs⟩ | ⟨-, -, -, hs⟩ | ⟨-, -, -, -, hs⟩ | ⟨-, -, -, -, hs⟩ :=
        startWrite_cases c now chunk <;> rw [hs]
    · show (c.startWrite now chunk).1.closed = c.closed ∨
        c.hasBody = false ∧ (c.startWrite now chunk).1.closed = true
      obtain ⟨-, hs⟩ | ⟨-, hb, hs⟩ | ⟨-, -, -, hs⟩ | ⟨-, -, -, -, hs⟩ | ⟨-, -, -, -, hs⟩ :=
        startWrite_cases c now chunk <;> rw [hs]
      · exact .inl rfl
      · exact .inr ⟨hb, rfl⟩
      · exact .inl rfl
      · exact .inl rfl
      · exact .inl rfl
  | ask ticket =>
    apply h.of_write (by simp [Channel.act, WasFinished]) (by simp [Channel.act, WasCutOff])
    · exact hasBody_act c now (by simp)
    · show (c.pollWrite now ticket).1.writable = c.writable
      obtain ⟨-, hs⟩ | ⟨w, -, ⟨-, hs⟩ | ⟨-, -, hs⟩ | ⟨-, -, -, hs⟩ | ⟨-, -, -, hs⟩⟩ :=
        pollWrite_cases c now ticket <;> rw [hs] <;> rfl
    · show (c.pollWrite now ticket).1.closed = c.closed ∨
        c.hasBody = false ∧ (c.pollWrite now ticket).1.closed = true
      obtain ⟨-, hs⟩ | ⟨w, -, ⟨hb, hs⟩ | ⟨-, -, hs⟩ | ⟨-, -, -, hs⟩ | ⟨-, -, -, hs⟩⟩ :=
        pollWrite_cases c now ticket <;> rw [hs]
      · exact .inl rfl
      · exact .inr ⟨hb, rfl⟩
      · exact .inl rfl
      · exact .inl rfl
      · exact .inl rfl
  | finish => exact h.finish
  | close => exact h.close
  | pull =>
    apply h.of_write (by simp [Channel.act, WasFinished]) (by simp [Channel.act, WasCutOff])
    · exact hasBody_act c now (by simp)
    · show c.pull.1.writable = c.writable
      obtain ⟨f, rest, ws, -, -, hs⟩ | ⟨f, rest, -, -, hs⟩ | ⟨-, hs⟩ := pull_cases c <;> rw [hs]
    · show c.pull.1.closed = c.closed ∨ _
      left
      obtain ⟨f, rest, ws, -, -, hs⟩ | ⟨f, rest, -, -, hs⟩ | ⟨-, hs⟩ := pull_cases c <;> rw [hs]
  | drop => exact h.dropBody

/-! ### A whole past -/

theorem Past.recalls (h : Past timeout now c es) : Recalls c es := by
  induction h with
  | new => constructor <;> simp [WasFinished, WasCutOff]
  | wait _ _ ih => exact ih
  | act _ a _ ih => exact ih.act _ a

/-- Who asks at once hears of **every end**. -/
theorem Recalls.isClosed_iff (h : Recalls c es) :
    Link.isClosed c = true ↔ WasFinished es ∨ WasCutOff es := by
  have hasked : Link.isClosed c = true ↔
      c.closed = true ∨ c.writable = false ∨ c.hasBody = false := by
    show c.isClosed = true ↔ _
    simp [isClosed, or_assoc]
  rw [hasked, h.closed_iff, h.unwritable_iff, h.gone_iff, WasCutOff]
  constructor
  · rintro (hcut | (hfin | hclosed) | hdropped)
    · exact .inr hcut
    · exact .inl hfin
    · exact .inr (.inl hclosed)
    · exact .inr (.inr hdropped)
  · rintro (hfin | hcut)
    · exact .inr (.inl (.inl hfin))
    · exact .inl hcut

/-- **The two questions whether a channel is closed.**  Of whatever was done to a channel in whatever
order and at whatever times: who asks at once hears that it is closed exactly if the writing side was
finished, or the channel was cut off; who waits for it is told exactly if it was cut off.  So both say
the same exactly if a channel that was finished was also cut off.  What one of them says it says ever
after. -/
theorem Past.closed_alike_iff (timeout : Span) (now : Nat) (c : Channel) (es : List Event)
    (h : Past timeout now c es) :
    (Link.isClosed c = true ↔ WasFinished es ∨ WasCutOff es) ∧
    (Link.tellsClosed c = true ↔ WasCutOff es) ∧
    ((Link.isClosed c = true ↔ Link.tellsClosed c = true) ↔ (WasFinished es → WasCutOff es)) ∧
    ∀ later d fs, Past timeout later d (es ++ fs) →
      (Link.isClosed c = true → Link.isClosed d = true) ∧
      (Link.tellsClosed c = true → Link.tellsClosed d = true) := by
  have hasked := h.recalls.isClosed_iff
  have htold : Link.tellsClosed c = true ↔ WasCutOff es := h.recalls.closed_iff
  refine ⟨hasked, htold, ?_, ?_⟩
  · rw [hasked, htold]
    exact or_iff_right_iff_imp
  · intro later d fs hd
    have hasked' := hd.recalls.isClosed_iff
    have htold' : Link.tellsClosed d = true ↔ WasCutOff (es ++ fs) := hd.recalls.closed_iff
    rw [wasFinished_append, wasCutOff_append] at hasked'
    rw [wasCutOff_append] at htold'
    rw [hasked, htold, hasked', htold']
    exact ⟨Or.imp .inl .inl, .inl⟩

/-- **A channel that was finished** counts as closed, and who waits for that is not told. -/
theorem closed_unalike_of_finish :
    ∃ c es, Past (.ofMillis 20) 0 c es ∧ es = [.finished .done] ∧ Link.isClosed c = true ∧
      Link.tellsClosed c = false := by
  have h := (@Past.new (.ofMillis 20)).act .finish (by simp)
  obtain ⟨hasked, htold, -⟩ := Past.closed_alike_iff (.ofMillis 20) 0 _ _ h
  refine ⟨_, _, h, rfl, hasked.2 (.inl ⟨.done, by decide⟩), ?_⟩
  rw [← Bool.not_eq_true, htold]
  simp [WasCutOff, Channel.act]

end HeldReply.Channel
