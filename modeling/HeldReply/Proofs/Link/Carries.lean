import HeldReply.Proofs.Link.Past

/-!
# What a channel carries

The body takes out of a channel what was put in, in the same order.  What the body took and what was
put in is told beside the channel; so is how often the body met the end, after which nothing more is
put in.

* `Channel.Carries` — **what was put in**, what was taken, and what lies in between;
* `Channel.Carries.pull`, `Channel.Carries.close` — the body pulls, and the channel is closed;
* `Channel.Carries.startWrite`, `Channel.Carries.pollWrite` — a write, when at most one waits.
-/

namespace HeldReply

namespace Channel

variable {c d : Channel} {ends : Nat} {taken sent : List Frame} {x : String}

/-- The **terms** of the writes that wait: whether places are kept for them is left out. -/
def terms (c : Channel) : List (Nat × String × Nat) :=
  c.waiting.map fun w => (w.ticket, w.chunk, w.deadline)

/-- The frames **taken** out of a channel, and those ever **put** into it.  Once the body ends the
end, nothing more is put in. -/
structure Carries (ends : Nat) (taken sent : List Frame) (c : Channel) : Prop where
  took : taken <+: sent
  buffered : c.hasBody = true → taken ++ c.buffer = sent
  intact : c.writable = true → .abort ∉ sent
  ended : 0 < ends → c.writable = false ∧ c.waiting = [] ∧ taken = sent

/-- A frame is put in by somebody who can still write. -/
theorem Carries.put (h : c.Carries ends taken sent) (hb : c.hasBody = true)
    (hopen : c.writable = true ∨ c.waiting ≠ []) (hdb : d.buffer = c.buffer ++ [.data x])
    (hdw : d.writable = c.writable) : d.Carries ends taken (sent ++ [.data x]) := by
  refine ⟨h.took.trans (List.prefix_append _ _), fun _ => ?_, fun hw => ?_, fun he => ?_⟩
  · rw [hdb, ← List.append_assoc, h.buffered hb]
  · have hno := h.intact (hdw ▸ hw)
    simpa using hno
  · obtain ⟨hw, hn, -⟩ := h.ended he
    rcases hopen with ho | ho
    · rw [hw] at ho
      cases ho
    · exact absurd hn ho

/-- No frame is put in. -/
theorem Carries.of_buffer (h : c.Carries ends taken sent) (hb : d.hasBody = c.hasBody)
    (hbuf : d.buffer = c.buffer) (hw : d.writable = true → c.writable = true)
    (hn : c.writable = false → c.waiting = [] → d.waiting = []) : d.Carries ends taken sent := by
  refine ⟨h.took, fun hd => ?_, fun hd => h.intact (hw hd), fun he => ?_⟩
  · rw [hbuf]
    exact h.buffered (hb ▸ hd)
  · obtain ⟨hcw, hcn, htaken⟩ := h.ended he
    refine ⟨Bool.eq_false_iff.2 fun hd => ?_, hn hcw hcn, htaken⟩
    rw [hw hd] at hcw
    cases hcw

/-- **Closing** puts an abort frame in, or nothing. -/
theorem Carries.close (h : c.Carries ends taken sent) : ∃ sent', c.close.Carries ends taken sent' ∧
    (sent' = sent ∨ c.writable = true ∧ sent' = sent ++ [.abort]) := by
  obtain ⟨hw, hb, -, hs⟩ | ⟨-, hs⟩ := c.close_cases <;> rw [hs]
  · refine ⟨_, ⟨h.took.trans (List.prefix_append sent [.abort]), fun _ => ?_, ?_, fun he => ?_⟩,
      .inr ⟨hw, rfl⟩⟩
    · show taken ++ (c.buffer ++ [.abort]) = sent ++ [.abort]
      rw [← List.append_assoc, h.buffered hb]
    · intro hf
      cases hf
    · obtain ⟨hcw, -⟩ := h.ended he
      rw [hw] at hcw
      cases hcw
  · exact ⟨sent, h.of_buffer rfl rfl (fun hf => by cases hf) fun _ hn => hn, .inl rfl⟩

/-- **A pull** takes a frame out, or nothing; the end is met when nobody can write any more. -/
theorem Carries.pull (h : c.Carries ends taken sent) (hb : c.hasBody = true) :
    (∃ f, c.pull.2 = .frame f ∧ ends = 0 ∧ c.pull.1.Carries ends (taken ++ [f]) sent) ∨
    (c.pull.2 = .pending ∧ c.pull.1.Carries ends taken sent) ∨
    (c.pull.2 = .finished ∧ c.pull.1.Carries (ends + 1) taken sent) := by
  have hbuffer := h.buffered hb
  -- Who has met the end has taken all there was, so what is still there was not passed over.
  have hzero {f : Frame} {rest : List Frame} (hf : c.buffer = f :: rest) : ends = 0 := by
    rcases Nat.eq_zero_or_pos ends with he | he
    · exact he
    · obtain ⟨-, -, ht⟩ := h.ended he
      rw [hf, ← ht] at hbuffer
      simp at hbuffer
  have htake {f : Frame} {rest : List Frame} (hf : c.buffer = f :: rest) :
      taken ++ [f] ++ rest = sent := by
    rw [hf] at hbuffer
    rw [List.append_assoc]
    exact hbuffer
  have hnot {f : Frame} {rest : List Frame} {P : Prop} (hf : c.buffer = f :: rest)
      (he : 0 < ends) : P := by
    rw [hzero hf] at he
    cases he
  obtain ⟨f, rest, ws, hf, -, hs⟩ | ⟨f, rest, hf, -, hs⟩ | ⟨hnil, hs⟩ := c.pull_cases <;> rw [hs]
  · exact .inl ⟨f, rfl, hzero hf, ⟨rest, htake hf⟩, fun _ => htake hf, h.intact, hnot hf⟩
  · exact .inl ⟨f, rfl, hzero hf, ⟨rest, htake hf⟩, fun _ => htake hf, h.intact, hnot hf⟩
  · right
    cases hover : c.isOver with
    | true =>
      obtain ⟨hw, hn⟩ := Bool.and_eq_true_iff.1 hover
      refine .inr ⟨rfl, h.took, h.buffered, h.intact, fun _ => ⟨?_, ?_, ?_⟩⟩
      · simpa using hw
      · simpa using hn
      · rw [hnil, List.append_nil] at hbuffer
        exact hbuffer
    | false => exact .inl ⟨rfl, h.took, h.buffered, h.intact, h.ended⟩

/-- The body **goes away**. -/
theorem Carries.dropBody (h : c.Carries ends taken sent) : c.dropBody.Carries ends taken sent :=
  ⟨h.took, (fun hb => by cases hb), h.intact, h.ended⟩

theorem grantFirst_terms {ws vs : List Waiting} (h : grantFirst ws = some vs) :
    vs.map (fun w => (w.ticket, w.chunk, w.deadline)) =
      ws.map (fun w => (w.ticket, w.chunk, w.deadline)) := by
  induction ws generalizing vs with
  | nil => cases h
  | cons w ws ih =>
    rw [grantFirst] at h
    split at h
    · obtain ⟨us, hu, rfl⟩ := Option.map_eq_some_iff.1 h
      rw [List.map_cons, List.map_cons, ih hu]
    · cases h
      rfl

/-- The limit and the writes that wait **last**; the writing side may go, and does not come back. -/
structure Lasts (c d : Channel) : Prop where
  timeout : d.timeout = c.timeout
  terms : d.terms = c.terms
  writable : d.writable = true → c.writable = true

theorem lasts_pull (c : Channel) : c.Lasts c.pull.1 := by
  obtain ⟨f, rest, ws, -, hg, hs⟩ | ⟨f, rest, -, -, hs⟩ | ⟨-, hs⟩ := c.pull_cases <;> rw [hs]
  · exact ⟨rfl, grantFirst_terms hg, id⟩
  · exact ⟨rfl, rfl, id⟩
  · exact ⟨rfl, rfl, id⟩

theorem lasts_close (c : Channel) : c.Lasts c.close := by
  have hnot {d : Channel} (hd : d.writable = false) (hw : d.writable = true) :
      c.writable = true := by
    rw [hd] at hw
    cases hw
  obtain ⟨-, -, -, hs⟩ | ⟨-, hs⟩ := c.close_cases <;> rw [hs]
  · exact ⟨rfl, rfl, hnot rfl⟩
  · exact ⟨rfl, rfl, hnot rfl⟩

theorem writable_pull (c : Channel) : c.pull.1.writable = c.writable := by
  obtain ⟨f, rest, ws, -, -, hs⟩ | ⟨f, rest, -, -, hs⟩ | ⟨-, hs⟩ := c.pull_cases <;> rw [hs]

/-- The only write that waits, or that begins, is **answered**: its chunk was put in, or not. -/
def Answers (ends : Nat) (taken sent : List Frame) (x : String) (c d : Channel) (r : Reply) :
    Prop :=
  d.timeout = c.timeout ∧ d.terms = [] ∧
    ((∃ f, r = .refused f) ∧ d.Carries ends taken sent ∨
      r = .done ∧ d.Carries ends taken (sent ++ [.data x]))

/-- **A write that begins** while nothing waits is answered, or the only one that waits. -/
theorem Carries.startWrite (h : c.Carries ends taken sent) (hn : c.terms = []) (now : Nat)
    (x : String) :
    (∃ d r, c.startWrite now x = (d, .answered r) ∧ Answers ends taken sent x c d r) ∨
    ∃ d ticket, c.startWrite now x = (d, .inFlight ticket) ∧ d.timeout = c.timeout ∧
      d.terms = [(ticket, x, c.timeout.waitUntil now)] ∧ d.Carries ends taken sent := by
  have hwaiting : c.waiting = [] := List.map_eq_nil_iff.1 hn
  obtain ⟨-, hs⟩ | ⟨-, -, hs⟩ | ⟨hw, hb, -, hs⟩ | ⟨-, -, -, -, hs⟩ | ⟨hw, -, -, -, hs⟩ :=
    c.startWrite_cases now x <;> rw [hs]
  · exact .inl ⟨c, _, rfl, rfl, hn, .inl ⟨⟨_, rfl⟩, h⟩⟩
  · exact .inl ⟨_, _, rfl, rfl, hn, .inl ⟨⟨_, rfl⟩, h.of_buffer rfl rfl id fun _ hn => hn⟩⟩
  · exact .inl ⟨_, _, rfl, rfl, hn, .inr ⟨rfl, h.put hb (.inl hw) rfl rfl⟩⟩
  · exact .inl ⟨c, _, rfl, rfl, hn, .inl ⟨⟨_, rfl⟩, h⟩⟩
  · refine .inr ⟨_, _, rfl, rfl, ?_, h.of_buffer rfl rfl id fun hw' => ?_⟩
    · show List.map _ (c.waiting ++ _) = _
      rw [hwaiting]
      rfl
    · rw [hw] at hw'
      cases hw'

/-- **The only write that waits** goes on waiting, or it is answered. -/
theorem Carries.pollWrite {ticket deadline : Nat} (h : c.Carries ends taken sent)
    (ht : c.terms = [(ticket, x, deadline)]) (now : Nat) :
    c.pollWrite now ticket = (c, none) ∨
    ∃ d r, c.pollWrite now ticket = (d, some r) ∧ Answers ends taken sent x c d r := by
  obtain ⟨w, hw, hticket⟩ := List.map_eq_singleton_iff.1 ht
  obtain ⟨rfl, rfl, rfl⟩ : w.ticket = ticket ∧ w.chunk = x ∧ w.deadline = deadline := by
    simpa using hticket
  have hfind : c.waiting? w.ticket = some w := by simp [waiting?, hw]
  have hforget : (c.forget w.ticket).waiting = [] := by simp [forget, hw]
  have hnil : (c.forget w.ticket).terms = [] := List.map_eq_nil_iff.2 hforget
  obtain ⟨hnone, -⟩ | ⟨w', hfind', hs⟩ := c.pollWrite_cases now w.ticket
  · rw [hfind] at hnone
    cases hnone
  · rw [hfind, Option.some.injEq] at hfind'
    subst hfind'
    obtain ⟨-, hs⟩ | ⟨hb, -, hs⟩ | ⟨-, -, -, hs⟩ | ⟨-, -, -, hs⟩ := hs <;> rw [hs]
    · refine .inr ⟨_, _, rfl, rfl, hnil, .inl ⟨⟨_, rfl⟩, ?_⟩⟩
      exact h.of_buffer rfl rfl id fun _ _ => hforget
    · have hopen : c.waiting ≠ [] := by
        rw [hw]
        exact List.cons_ne_nil _ _
      exact .inr ⟨_, _, rfl, rfl, hnil, .inr ⟨rfl, h.put hb (.inr hopen) rfl rfl⟩⟩
    · refine .inr ⟨_, _, rfl, rfl, hnil, .inl ⟨⟨_, rfl⟩, ?_⟩⟩
      exact h.of_buffer rfl rfl id fun _ _ => hforget
    · exact .inl rfl

end Channel

end HeldReply
