import HeldReply.Link.Channel

/-!
# The past of a channel

Whoever holds an end of a channel does something to it, at any time and in any order, and something
comes of it.  What came of all of it so far is the past of the channel.  Every theorem on channels is
about the channels that have a past, and about what lies in it.

* `Channel.Act`, `Channel.Event`, `Channel.act` — what is done, and what comes of it;
* `Channel.Past` — **the channels that can be**, each with its past;
* `Channel.Ticketed`, `Channel.Past.ticketed` — no two writes wait under one ticket;
* `Channel.Places`, `Channel.Past.places` — every place in the buffer is free, or taken, or kept.
-/

namespace HeldReply.Channel

/-- What is **done** to a channel. -/
inductive Act where
  | write (chunk : String)
  /-- Somebody asks for a write that waits. -/
  | ask (ticket : Nat)
  | finish
  | close
  | pull
  /-- The body goes away. -/
  | drop
  deriving DecidableEq, Repr

/-- What **comes** of it. -/
inductive Event where
  | began (now : Nat) (chunk : String) (s : Started)
  | asked (now ticket : Nat) (r : Option Reply)
  | finished (r : Reply)
  /-- It was closed, and it may be that the body is not told although it is still there. -/
  | closed (silently : Bool)
  | pulled (p : Pull)
  | dropped
  deriving DecidableEq, Repr

/-- The places that are kept for writes. -/
def kept (c : Channel) : Nat :=
  c.waiting.countP Waiting.granted

/-- Whether closing would cut the body off without telling it: the buffer has no place for an abort
frame, since each one is taken by a frame or kept for a write. -/
def closesSilently (c : Channel) : Bool :=
  c.writable && c.hasBody && decide (capacity ≤ c.buffer.length + c.kept)

/-- **Do** something at a time. -/
def act (now : Nat) (c : Channel) : Act → Channel × Event
  | .write chunk => ((c.startWrite now chunk).1, .began now chunk (c.startWrite now chunk).2)
  | .ask ticket => ((c.pollWrite now ticket).1, .asked now ticket (c.pollWrite now ticket).2)
  | .finish => (c.finish.1, .finished c.finish.2)
  | .close => (c.close, .closed c.closesSilently)
  | .pull => (c.pull.1, .pulled c.pull.2)
  | .drop => (c.dropBody, .dropped)

/-- **The channels that can be** at a time, each with its past. -/
inductive Past (timeout : Span) : Nat → Channel → List Event → Prop
  | new : Past timeout 0 { timeout } []
  | wait {now later : Nat} {c : Channel} {es : List Event} (h : Past timeout now c es)
      (hle : now ≤ later) : Past timeout later c es
  /-- Something is done; only a body that is there pulls. -/
  | act {now : Nat} {c : Channel} {es : List Event} (h : Past timeout now c es) (a : Act)
      (ha : a = .pull → c.hasBody = true) :
      Past timeout now (c.act now a).1 (es ++ [(c.act now a).2])

variable {c : Channel} {timeout : Span} {now ticket : Nat} {chunk : String} {es : List Event}

/-- Do one thing after the other at one time. -/
def acts (now : Nat) : List Act → Channel → List Event → Channel × List Event
  | [], c, es => (c, es)
  | a :: as, c, es => acts now as (c.act now a).1 (es ++ [(c.act now a).2])

/-! ### What a step does -/

/-- **Everything that starting a write can do.** -/
theorem startWrite_cases (c : Channel) (now : Nat) (chunk : String) :
    (c.writable = false ∧ c.startWrite now chunk = (c, .answered (.refused endedFailure))) ∨
    (c.writable = true ∧ c.hasBody = false ∧
      c.startWrite now chunk = ({ c with closed := true }, .answered (.refused goneFailure))) ∨
    (c.writable = true ∧ c.hasBody = true ∧ 0 < c.free ∧ c.startWrite now chunk =
      ({ c with free := c.free - 1, buffer := c.buffer ++ [.data chunk] }, .answered .done)) ∨
    (c.writable = true ∧ c.hasBody = true ∧ c.free = 0 ∧ c.timeout.isZero = true ∧
      c.startWrite now chunk = (c, .answered (.refused c.timeoutFailure))) ∨
    (c.writable = true ∧ c.hasBody = true ∧ c.free = 0 ∧ c.timeout.isZero = false ∧
      c.startWrite now chunk =
        ({ c with
            waiting := c.waiting ++ [⟨c.nextTicket, chunk, c.timeout.waitUntil now, false⟩]
            nextTicket := c.nextTicket + 1 }, .inFlight c.nextTicket)) := by
  cases hw : c.writable with
  | false => exact .inl ⟨rfl, by simp [startWrite, hw]⟩
  | true =>
    right
    cases hb : c.hasBody with
    | false => exact .inl ⟨rfl, rfl, by simp [startWrite, loseBody, hw, hb]⟩
    | true =>
      right
      by_cases hf : 0 < c.free
      · exact .inl ⟨rfl, rfl, hf, by simp [startWrite, hw, hb, hf]⟩
      · have hf : c.free = 0 := by omega
        right
        cases hz : c.timeout.isZero with
        | true => exact .inl ⟨rfl, rfl, hf, rfl, by simp [startWrite, hw, hb, hf, hz]⟩
        | false => exact .inr ⟨rfl, rfl, hf, rfl, by simp [startWrite, hw, hb, hf, hz]⟩

/-- **Everything that asking for a write can do.** -/
theorem pollWrite_cases (c : Channel) (now ticket : Nat) :
    (c.waiting? ticket = none ∧ c.pollWrite now ticket = (c, none)) ∨
    ∃ w, c.waiting? ticket = some w ∧
      ((c.hasBody = false ∧ c.pollWrite now ticket =
          ({ c.forget ticket with closed := true }, some (.refused goneFailure))) ∨
        (c.hasBody = true ∧ w.granted = true ∧ c.pollWrite now ticket =
          ({ c.forget ticket with buffer := c.buffer ++ [.data w.chunk] }, some .done)) ∨
        (c.hasBody = true ∧ w.granted = false ∧ w.deadline ≤ now ∧ c.pollWrite now ticket =
          (c.forget ticket, some (.refused c.timeoutFailure))) ∨
        (c.hasBody = true ∧ w.granted = false ∧ now < w.deadline ∧
          c.pollWrite now ticket = (c, none))) := by
  cases hw : c.waiting? ticket with
  | none => exact .inl ⟨rfl, by simp [pollWrite, hw]⟩
  | some w =>
    refine .inr ⟨w, rfl, ?_⟩
    cases hb : c.hasBody with
    | false => exact .inl ⟨rfl, by simp [pollWrite, loseBody, hw, hb]⟩
    | true =>
      right
      cases hg : w.granted with
      | true => exact .inl ⟨rfl, rfl, by simp [pollWrite, hw, hb, hg]⟩
      | false =>
        right
        by_cases hd : w.deadline ≤ now
        · exact .inl ⟨rfl, rfl, hd, by simp [pollWrite, hw, hb, hg, hd]⟩
        · exact .inr ⟨rfl, rfl, by omega, by simp [pollWrite, hw, hb, hg, hd]⟩

/-- **Everything that a pull can do.**  The place of a frame is kept for a write that waits, or it is
free from then on. -/
theorem pull_cases (c : Channel) :
    (∃ f rest ws, c.buffer = f :: rest ∧ grantFirst c.waiting = some ws ∧
      c.pull = ({ c with opened := true, buffer := rest, waiting := ws }, .frame f)) ∨
    (∃ f rest, c.buffer = f :: rest ∧ grantFirst c.waiting = none ∧
      c.pull = ({ c with opened := true, buffer := rest, free := c.free + 1 }, .frame f)) ∨
    (c.buffer = [] ∧
      c.pull = ({ c with opened := true }, if c.isOver then .finished else .pending)) := by
  cases hb : c.buffer with
  | nil => exact .inr (.inr ⟨rfl, by simp [pull, isOver, hb]⟩)
  | cons f rest =>
    cases hg : grantFirst c.waiting with
    | some ws => exact .inl ⟨f, rest, ws, rfl, rfl, by simp [pull, giveBack, hb, hg]⟩
    | none => exact .inr (.inl ⟨f, rest, rfl, rfl, by simp [pull, giveBack, hb, hg]⟩)

/-- **Everything that closing can do.** -/
theorem close_cases (c : Channel) :
    (c.writable = true ∧ c.hasBody = true ∧ 0 < c.free ∧ c.close =
      { c with free := c.free - 1, buffer := c.buffer ++ [.abort], writable := false,
               closed := true }) ∨
    (¬ (c.writable = true ∧ c.hasBody = true ∧ 0 < c.free) ∧
      c.close = { c with writable := false, closed := true }) := by
  by_cases h : c.writable = true ∧ c.hasBody = true ∧ 0 < c.free
  · obtain ⟨hw, hb, hf⟩ := h
    exact .inl ⟨hw, hb, hf, by simp [close, hw, hb, hf]⟩
  · exact .inr ⟨h, by
      unfold close
      rw [if_neg (by simpa [and_assoc] using h)]⟩

/-- **Everything that finishing can do** to a channel: nobody can begin a write any more. -/
theorem finish_fst (c : Channel) : c.finish.1 = { c with writable := false } := by
  unfold Channel.finish
  split <;> rfl

/-- The body stays until it goes away itself. -/
theorem hasBody_act (c : Channel) (now : Nat) {a : Act} (ha : a ≠ .drop) :
    (c.act now a).1.hasBody = c.hasBody := by
  cases a with
  | write chunk =>
    show (c.startWrite now chunk).1.hasBody = c.hasBody
    obtain ⟨-, hs⟩ | ⟨-, -, hs⟩ | ⟨-, -, -, hs⟩ | ⟨-, -, -, -, hs⟩ | ⟨-, -, -, -, hs⟩ :=
      startWrite_cases c now chunk <;> rw [hs]
  | ask ticket =>
    show (c.pollWrite now ticket).1.hasBody = c.hasBody
    obtain ⟨-, hs⟩ | ⟨w, -, ⟨-, hs⟩ | ⟨-, -, hs⟩ | ⟨-, -, -, hs⟩ | ⟨-, -, -, hs⟩⟩ :=
      pollWrite_cases c now ticket <;> rw [hs] <;> rfl
  | finish =>
    show c.finish.1.hasBody = c.hasBody
    rw [finish_fst]
  | close =>
    show c.close.hasBody = c.hasBody
    obtain ⟨-, -, -, hs⟩ | ⟨-, hs⟩ := close_cases c <;> rw [hs]
  | pull =>
    show c.pull.1.hasBody = c.hasBody
    obtain ⟨f, rest, ws, -, -, hs⟩ | ⟨f, rest, -, -, hs⟩ | ⟨-, hs⟩ := pull_cases c <;> rw [hs]
  | drop => exact absurd rfl ha

/-- **What each act keeps** is kept by several acts, as long as the body stays. -/
theorem acts_induction {P : Channel → List Event → Prop}
    (hact : ∀ c es a, P c es → (a = .pull → c.hasBody = true) →
      P (c.act now a).1 (es ++ [(c.act now a).2]))
    (h : P c es) (as : List Act) (hd : .drop ∉ as) (hb : c.hasBody = true) :
    P (acts now as c es).1 (acts now as c es).2 := by
  induction as generalizing c es with
  | nil => exact h
  | cons a as ih =>
    obtain ⟨ha, hd⟩ := not_or.1 ((not_congr List.mem_cons).1 hd)
    refine ih (hact c es a h fun _ => hb) hd ?_
    rw [hasBody_act c now (Ne.symm ha), hb]

/-- Whatever is done to a channel whose body stays gives it a longer past. -/
theorem Past.acts (h : Past timeout now c es) (as : List Act) (hd : .drop ∉ as)
    (hb : c.hasBody = true) :
    Past timeout now (Channel.acts now as c es).1 (Channel.acts now as c es).2 :=
  acts_induction (fun _ _ a h ha => h.act a ha) h as hd hb

/-! ### Tickets -/

theorem grantFirst_tickets {ws vs : List Waiting} (h : grantFirst ws = some vs) :
    vs.map Waiting.ticket = ws.map Waiting.ticket := by
  induction ws generalizing vs with
  | nil => cases h
  | cons w ws ih =>
    rw [grantFirst] at h
    split at h
    · obtain ⟨us, hu, rfl⟩ := Option.map_eq_some_iff.1 h
      rw [List.map_cons, List.map_cons, ih hu]
    · cases h
      rfl

/-- A write that waits under a ticket is one of those that wait. -/
theorem mem_of_waiting? {w : Waiting} (h : c.waiting? ticket = some w) :
    w ∈ c.waiting ∧ w.ticket = ticket :=
  ⟨List.mem_of_find?_eq_some h, by simpa using List.find?_some h⟩

/-- **No two writes wait under one ticket.** -/
structure Ticketed (c : Channel) : Prop where
  nodup : (c.waiting.map Waiting.ticket).Nodup
  lt_next : ∀ w ∈ c.waiting, w.ticket < c.nextTicket

/-- Writes that wait no more leave the others their tickets. -/
theorem Ticketed.of_sublist {d : Channel} (h : Ticketed c)
    (hs : (d.waiting.map Waiting.ticket).Sublist (c.waiting.map Waiting.ticket))
    (hn : d.nextTicket = c.nextTicket) : Ticketed d := by
  refine ⟨h.nodup.sublist hs, fun w hw => ?_⟩
  obtain ⟨v, hv, hvw⟩ := List.mem_map.1 (hs.subset (List.mem_map_of_mem hw))
  rw [← hvw, hn]
  exact h.lt_next v hv

theorem Ticketed.forget (h : Ticketed c) (ticket : Nat) : Ticketed (c.forget ticket) :=
  h.of_sublist (List.filter_sublist.map _) rfl

theorem Ticketed.startWrite (h : Ticketed c) (now : Nat) (chunk : String) :
    Ticketed (c.startWrite now chunk).1 := by
  obtain ⟨-, hs⟩ | ⟨-, -, hs⟩ | ⟨-, -, -, hs⟩ | ⟨-, -, -, -, hs⟩ | ⟨-, -, -, -, hs⟩ :=
    startWrite_cases c now chunk <;> rw [hs]
  · exact h
  · exact ⟨h.nodup, h.lt_next⟩
  · exact ⟨h.nodup, h.lt_next⟩
  · exact h
  · constructor
    · show ((c.waiting ++ [_]).map Waiting.ticket).Nodup
      rw [List.map_append, List.nodup_append]
      refine ⟨h.nodup, by simp, fun t ht u hu => ?_⟩
      obtain ⟨w, hw, rfl⟩ := List.mem_map.1 ht
      obtain rfl : u = c.nextTicket := List.mem_singleton.1 hu
      exact Nat.ne_of_lt (h.lt_next w hw)
    · show ∀ w ∈ c.waiting ++ [_], w.ticket < c.nextTicket + 1
      intro w hw
      rcases List.mem_append.1 hw with hw | hw
      · exact Nat.lt_succ_of_lt (h.lt_next w hw)
      · rw [List.mem_singleton.1 hw]
        exact Nat.lt_succ_self _

/-- What is done keeps the tickets apart. -/
theorem Ticketed.act (h : Ticketed c) (now : Nat) (a : Act) : Ticketed (c.act now a).1 := by
  cases a with
  | write chunk => exact h.startWrite now chunk
  | ask ticket =>
    show Ticketed (c.pollWrite now ticket).1
    obtain ⟨-, hs⟩ | ⟨w, -, ⟨-, hs⟩ | ⟨-, -, hs⟩ | ⟨-, -, -, hs⟩ | ⟨-, -, -, hs⟩⟩ :=
      pollWrite_cases c now ticket <;> rw [hs]
    · exact h
    · exact h.of_sublist (List.filter_sublist.map _) rfl
    · exact h.of_sublist (List.filter_sublist.map _) rfl
    · exact h.forget ticket
    · exact h
  | finish =>
    show Ticketed c.finish.1
    rw [finish_fst]
    exact ⟨h.nodup, h.lt_next⟩
  | close =>
    show Ticketed c.close
    obtain ⟨-, -, -, hs⟩ | ⟨-, hs⟩ := close_cases c <;> rw [hs]
    · exact ⟨h.nodup, h.lt_next⟩
    · exact ⟨h.nodup, h.lt_next⟩
  | pull =>
    show Ticketed c.pull.1
    obtain ⟨f, rest, ws, -, hg, hs⟩ | ⟨f, rest, -, -, hs⟩ | ⟨-, hs⟩ := pull_cases c <;> rw [hs]
    · have hticket : ws.map Waiting.ticket = c.waiting.map Waiting.ticket := grantFirst_tickets hg
      exact h.of_sublist (hticket ▸ List.Sublist.refl _) rfl
    · exact ⟨h.nodup, h.lt_next⟩
    · exact ⟨h.nodup, h.lt_next⟩
  | drop => exact ⟨h.nodup, h.lt_next⟩

theorem Past.ticketed (h : Past timeout now c es) : Ticketed c := by
  induction h with
  | new => exact ⟨List.nodup_nil, fun _ hw => nomatch hw⟩
  | wait _ _ ih => exact ih
  | act _ a _ ih => exact ih.act _ a

/-! ### Places -/

theorem grantFirst_granted {ws vs : List Waiting} (h : grantFirst ws = some vs) :
    vs.countP Waiting.granted = ws.countP Waiting.granted + 1 := by
  induction ws generalizing vs with
  | nil => cases h
  | cons w ws ih =>
    rw [grantFirst] at h
    split at h
    · obtain ⟨us, hu, rfl⟩ := Option.map_eq_some_iff.1 h
      rw [List.countP_cons, List.countP_cons, ih hu]
      omega
    · rename_i hw
      cases h
      rw [List.countP_cons, List.countP_cons, if_pos rfl, if_neg hw]

/-- One write that waits no more gives back the place kept for it. -/
theorem countP_granted_filter {w : Waiting} {ws : List Waiting}
    (hn : (ws.map Waiting.ticket).Nodup) (h : (ws.find? fun v => v.ticket == ticket) = some w) :
    (ws.filter fun v => v.ticket != ticket).countP Waiting.granted + w.granted.toNat =
      ws.countP Waiting.granted := by
  induction ws with
  | nil => cases h
  | cons v ws ih =>
    obtain ⟨hv, hn⟩ := List.nodup_cons.1 hn
    by_cases ht : v.ticket = ticket
    · rw [List.find?_cons_of_pos (by simpa using ht)] at h
      obtain rfl : v = w := Option.some.inj h
      have hrest : (ws.filter fun v => v.ticket != ticket) = ws := by
        refine List.filter_eq_self.2 fun u hu => ?_
        have hne : u.ticket ≠ v.ticket := fun he => hv (he ▸ List.mem_map_of_mem hu)
        simpa [← ht] using hne
      rw [List.filter_cons_of_neg (by simpa using ht), hrest, List.countP_cons]
      cases v.granted <;> rfl
    · rw [List.find?_cons_of_neg (by simpa using ht)] at h
      rw [List.filter_cons_of_pos (by simpa using ht), List.countP_cons, List.countP_cons]
      have := ih hn h
      omega

/-- **Every place in the buffer is free, or taken by a frame, or kept for a write**, as long as the
body is there. -/
def Places (c : Channel) : Prop :=
  c.hasBody = true → c.free + c.buffer.length + c.kept = capacity

theorem kept_forget {w : Waiting} (ht : Ticketed c) (h : c.waiting? ticket = some w) :
    (c.forget ticket).kept + w.granted.toNat = c.kept :=
  countP_granted_filter ht.nodup h

/-- What is done keeps every place what it is, or makes one of the other kinds of it. -/
theorem Places.act (h : Places c) (ht : Ticketed c) (now : Nat) (a : Act) :
    Places (c.act now a).1 := by
  cases a with
  | write chunk =>
    show Places (c.startWrite now chunk).1
    obtain ⟨-, hs⟩ | ⟨-, -, hs⟩ | ⟨-, hb, hf, hs⟩ | ⟨-, -, -, -, hs⟩ | ⟨-, hb, -, -, hs⟩ :=
      startWrite_cases c now chunk <;> rw [hs]
    · exact h
    · exact h
    · intro _
      have := h hb
      show c.free - 1 + (c.buffer ++ [Frame.data chunk]).length + c.kept = capacity
      rw [List.length_append, List.length_singleton]
      omega
    · exact h
    · intro _
      rw [← h hb]
      show c.free + c.buffer.length + (c.waiting ++ [_]).countP Waiting.granted =
        c.free + c.buffer.length + c.waiting.countP Waiting.granted
      rw [List.countP_append, List.countP_singleton]
      rfl
  | ask ticket =>
    show Places (c.pollWrite now ticket).1
    obtain ⟨-, hs⟩ | ⟨w, hw, ⟨hb, hs⟩ | ⟨hb, hg, hs⟩ | ⟨hb, hg, -, hs⟩ | ⟨-, -, -, hs⟩⟩ :=
      pollWrite_cases c now ticket <;> rw [hs]
    · exact h
    · intro hb'
      cases hb.symm.trans hb'
    · intro _
      have := h hb
      have hkept := kept_forget ht hw
      rw [hg, Bool.toNat_true] at hkept
      show c.free + (c.buffer ++ [Frame.data w.chunk]).length + (c.forget ticket).kept = capacity
      rw [List.length_append, List.length_singleton]
      omega
    · intro _
      have := h hb
      have hkept := kept_forget ht hw
      rw [hg, Bool.toNat_false] at hkept
      show c.free + c.buffer.length + (c.forget ticket).kept = capacity
      omega
    · exact h
  | finish =>
    show Places c.finish.1
    rw [finish_fst]
    exact h
  | close =>
    show Places c.close
    obtain ⟨-, hb, hf, hs⟩ | ⟨-, hs⟩ := close_cases c <;> rw [hs]
    · intro _
      have := h hb
      show c.free - 1 + (c.buffer ++ [Frame.abort]).length + c.kept = capacity
      rw [List.length_append, List.length_singleton]
      omega
    · exact h
  | pull =>
    show Places c.pull.1
    obtain ⟨f, rest, ws, hf, hg, hs⟩ | ⟨f, rest, hf, -, hs⟩ | ⟨-, hs⟩ := pull_cases c <;> rw [hs]
    · intro hb
      have := h hb
      rw [hf, List.length_cons, kept] at this
      have hkept := grantFirst_granted hg
      show c.free + rest.length + ws.countP Waiting.granted = capacity
      omega
    · intro hb
      have := h hb
      rw [hf, List.length_cons] at this
      show c.free + 1 + rest.length + c.kept = capacity
      omega
    · exact h
  | drop =>
    intro hb
    cases hb

theorem Past.places (h : Past timeout now c es) : Places c := by
  induction h with
  | new => exact fun _ => rfl
  | wait _ _ ih => exact ih
  | act h a _ ih => exact ih.act h.ticketed _ a

/-- Closing is silent when the writing side and the body are there, and no place is free. -/
theorem closesSilently_iff (h : Places c) :
    c.closesSilently = true ↔ c.writable = true ∧ c.hasBody = true ∧ c.free = 0 := by
  unfold closesSilently
  rw [Bool.and_eq_true, Bool.and_eq_true, decide_eq_true_iff, and_assoc]
  refine and_congr_right fun _ => and_congr_right fun hb => ?_
  have := h hb
  omega

end HeldReply.Channel
