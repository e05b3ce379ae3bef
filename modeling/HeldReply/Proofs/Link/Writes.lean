import HeldReply.Proofs.Link.Carries
import Mathlib.Data.List.Nodup

/-!
# What becomes of a write

A write that finds no place waits under a ticket of its own until somebody who asks for it is told the
answer.  From the past of a channel one reads when each write began to wait, whether it was answered,
and when.

* `Channel.origin` — when and with which chunk the write of a ticket began;
* `Channel.Writes`, `Channel.Past.writes` — **the invariant**: every write waits, or it was answered
  once; and it gave up no sooner than its time was over;
* `Channel.Timely`, `Channel.Timely.onTime` — who waits is asked for when its time is over, and then
  it gives up at that very time;
* `Channel.Blocked`, `Channel.Past.blocked` — while a write waits for a place there is none.
-/

namespace HeldReply.Channel

variable {c d : Channel} {timeout : Span} {now ticket : Nat} {e : Event} {es : List Event}

/-! ### Reading the past -/

/-- What an event tells of when the write of a ticket began. -/
def Event.origin? (ticket : Nat) : Event → Option (Nat × String)
  | .began now chunk (.inFlight t) => if t = ticket then some (now, chunk) else none
  | _ => none

/-- **When and with which chunk** the write of a ticket began. -/
def origin (es : List Event) (ticket : Nat) : Option (Nat × String) :=
  es.findSome? (Event.origin? ticket)

/-- Whether an event answers the write of a ticket. -/
def Event.answers (ticket : Nat) : Event → Bool
  | .asked _ t (some _) => t == ticket
  | _ => false

/-- The failure of a write that waited too long. -/
def lateFailure (timeout : Span) : Failure :=
  timeoutFailure { timeout }

/-- A write that waited too long fails in its own way. -/
theorem lateFailure_ne (timeout : Span) :
    lateFailure timeout ≠ goneFailure ∧ lateFailure timeout ≠ endedFailure := by
  have hhead {text : String} (h : lateFailure timeout = .transport text) :
      text.toList.head? = some '写' := by
    rw [← Failure.transport.inj h]
    simp [String.toList_append]
  exact ⟨fun h => absurd (hhead h) (by decide), fun h => absurd (hhead h) (by decide)⟩

theorem origin?_eq_some {x : String} :
    e.origin? ticket = some (now, x) ↔ e = .began now x (.inFlight ticket) := by
  constructor
  · intro h
    unfold Event.origin? at h
    split at h
    · split at h
      · rename_i ht
        obtain ⟨rfl, rfl⟩ := Prod.mk.inj (Option.some.inj h)
        rw [ht]
      · cases h
    · cases h
  · rintro rfl
    simp [Event.origin?]

theorem origin_concat (es : List Event) (e : Event) (t : Nat) :
    origin (es ++ [e]) t = (origin es t).or (e.origin? t) := by
  rw [origin, List.findSome?_append, List.findSome?_singleton]
  rfl

/-- What is known of a write is known ever after. -/
theorem origin_concat_of_some {p : Nat × String} (h : origin es ticket = some p) (e : Event) :
    origin (es ++ [e]) ticket = some p := by
  rw [origin_concat, h, Option.some_or]

/-- The **tickets** of the writes that wait. -/
def tickets (c : Channel) : List Nat :=
  c.terms.map Prod.fst

theorem tickets_eq (c : Channel) : c.tickets = c.waiting.map Waiting.ticket := by
  simp [tickets, terms]

theorem mem_terms {w : Waiting} (h : w ∈ c.waiting) :
    (w.ticket, w.chunk, w.deadline) ∈ c.terms :=
  List.mem_map.2 ⟨w, h, rfl⟩

/-- Who waits after a write was forgotten waited before. -/
theorem mem_terms_of_forget {p : Nat × String × Nat} (h : p ∈ (c.forget ticket).terms) :
    p ∈ c.terms := by
  obtain ⟨w, hw, hp⟩ := List.mem_map.1 h
  exact List.mem_map.2 ⟨w, List.mem_of_mem_filter hw, hp⟩

/-! ### What is true of every write -/

/-- **What is true of the writes** in a past. -/
structure Writes (timeout : Span) (c : Channel) (es : List Event) : Prop where
  timeout_eq : c.timeout = timeout
  /-- A ticket is that of one write. -/
  began_iff : ∀ now x t, .began now x (.inFlight t) ∈ es ↔ origin es t = some (now, x)
  fresh : ∀ t, c.nextTicket ≤ t → origin es t = none
  /-- A write waits, or it was answered once. -/
  settled : ∀ t, es.countP (Event.answers t) + c.tickets.count t = (List.range c.nextTicket).count t
  waits : ∀ t x due, (t, x, due) ∈ c.terms →
    ∃ began, origin es t = some (began, x) ∧ due = timeout.waitUntil began
  answered : ∀ now t r, .asked now t (some r) ∈ es → ∃ began x, origin es t = some (began, x) ∧
    (r = .refused (lateFailure timeout) → timeout.waitUntil began ≤ now)
  atOnce : ∀ now x, .began now x (.answered (.refused (lateFailure timeout))) ∈ es →
    timeout.isZero = true

theorem Writes.lateFailure_eq (h : Writes timeout c es) : c.timeoutFailure = lateFailure timeout := by
  rw [← h.timeout_eq]
  rfl

/-- An event adds to what is read off the past what it tells itself. -/
theorem Writes.began_concat (h : Writes timeout c es) (hfresh : ∀ t, e.origin? t ≠ none →
    origin es t = none) (now : Nat) (x : String) (t : Nat) :
    .began now x (.inFlight t) ∈ es ++ [e] ↔ origin (es ++ [e]) t = some (now, x) := by
  rw [List.mem_append, List.mem_singleton, h.began_iff, origin_concat, Option.or_eq_some_iff,
    origin?_eq_some, eq_comm (b := e)]
  refine or_congr_right ⟨fun he => ⟨hfresh t ?_, he⟩, And.right⟩
  rw [he]
  simp [Event.origin?]

/-- **A step that neither lets a write wait nor answers one** that waits. -/
theorem Writes.of_other (h : Writes timeout c es) (horigin : ∀ t, e.origin? t = none)
    (hanswers : ∀ t, e.answers t = false) (hterms : d.terms = c.terms)
    (hnext : d.nextTicket = c.nextTicket) (htimeout : d.timeout = c.timeout)
    (hlate : ∀ now x, e = .began now x (.answered (.refused (lateFailure timeout))) →
      timeout.isZero = true) : Writes timeout d (es ++ [e]) := by
  have hsame (t : Nat) : origin (es ++ [e]) t = origin es t := by
    rw [origin_concat, horigin, Option.or_none]
  refine ⟨htimeout.trans h.timeout_eq, h.began_concat fun t ht => absurd (horigin t) ht, ?_, ?_, ?_,
    ?_, ?_⟩
  · intro t ht
    rw [hsame]
    exact h.fresh t (hnext ▸ ht)
  · intro t
    rw [List.countP_append, List.countP_singleton, hanswers, tickets, hterms, hnext]
    exact h.settled t
  · intro t x due ht
    rw [hsame]
    exact h.waits t x due (hterms ▸ ht)
  · intro now t r hr
    rw [hsame]
    obtain hr | hr := List.mem_append.1 hr
    · exact h.answered now t r hr
    · have ht := hanswers t
      rw [← List.mem_singleton.1 hr] at ht
      simp [Event.answers] at ht
  · intro now x hx
    obtain hx | hx := List.mem_append.1 hx
    · exact h.atOnce now x hx
    · exact hlate now x (List.mem_singleton.1 hx).symm

/-- **A write begins to wait**, under a ticket that no other has. -/
theorem Writes.of_begin (h : Writes timeout c es) (now : Nat) (x : String) :
    Writes timeout
      { c with
        waiting := c.waiting ++ [⟨c.nextTicket, x, c.timeout.waitUntil now, false⟩]
        nextTicket := c.nextTicket + 1 }
      (es ++ [.began now x (.inFlight c.nextTicket)]) := by
  have hfresh := h.fresh c.nextTicket (Nat.le_refl _)
  have horigin {t : Nat} (ht : t ≠ c.nextTicket) :
      origin (es ++ [.began now x (.inFlight c.nextTicket)]) t = origin es t := by
    rw [origin_concat, Event.origin?, if_neg (Ne.symm ht), Option.or_none]
  have hterms : ({ c with
      waiting := c.waiting ++ [⟨c.nextTicket, x, c.timeout.waitUntil now, false⟩]
      nextTicket := c.nextTicket + 1 } : Channel).terms
        = c.terms ++ [(c.nextTicket, x, c.timeout.waitUntil now)] := by
    simp [terms]
  refine ⟨h.timeout_eq, h.began_concat fun t ht => ?_, ?_, ?_, ?_, ?_, ?_⟩
  · by_cases htn : c.nextTicket = t
    · exact htn ▸ hfresh
    · exact absurd (if_neg htn) ht
  · intro t ht
    rw [horigin (Nat.ne_of_gt ht)]
    exact h.fresh t (Nat.le_of_succ_le ht)
  · intro t
    have hsettled := h.settled t
    rw [tickets, hterms, List.map_append, List.count_append, List.range_succ, List.count_append,
      List.countP_append]
    show es.countP (Event.answers t) + 0 + (c.tickets.count t + [c.nextTicket].count t) = _
    omega
  · intro t y due ht
    rw [hterms] at ht
    obtain ht | ht := List.mem_append.1 ht
    · obtain ⟨began, horig, hdue⟩ := h.waits t y due ht
      exact ⟨began, origin_concat_of_some horig _, hdue⟩
    · obtain ⟨rfl, rfl, rfl⟩ := by simpa using ht
      refine ⟨now, ?_, by rw [h.timeout_eq]⟩
      rw [origin_concat, hfresh, Option.none_or]
      simp [Event.origin?]
  · intro later t r hr
    obtain ⟨began, y, horig, hlate⟩ := h.answered later t r (by simpa using hr)
    exact ⟨began, y, origin_concat_of_some horig _, hlate⟩
  · intro later y hy
    exact h.atOnce later y (by simpa using hy)

/-- Who waits no more has no ticket any more, and the others keep theirs. -/
theorem count_forget {w : Waiting} (ht : Ticketed c) (hw : c.waiting? ticket = some w) (t : Nat) :
    (c.forget ticket).tickets.count t + [ticket].count t = c.tickets.count t := by
  have hforget : (c.forget ticket).tickets = c.tickets.filter fun u => u != ticket := by
    rw [tickets_eq, tickets_eq, List.filter_map]
    rfl
  obtain ⟨hmem, hticket⟩ := mem_of_waiting? hw
  rw [hforget]
  by_cases htt : t = ticket
  · subst htt
    have hone : c.tickets.count t = 1 := by
      rw [tickets_eq]
      exact List.count_eq_one_of_mem ht.nodup (hticket ▸ List.mem_map_of_mem hmem)
    have hnone : (c.tickets.filter fun u => u != t).count t = 0 :=
      List.count_eq_zero.2 (by simp)
    simp [hone, hnone]
  · rw [List.count_filter (by simpa using htt), List.count_singleton]
    simp [Ne.symm htt]

/-- **A write that waits is answered.** -/
theorem Writes.of_answer {w : Waiting} {r : Reply} (h : Writes timeout c es) (hc : Ticketed c)
    (hw : c.waiting? ticket = some w) (hterms : d.terms = (c.forget ticket).terms)
    (hnext : d.nextTicket = c.nextTicket) (htimeout : d.timeout = c.timeout)
    (hlate : r = .refused (lateFailure timeout) → w.deadline ≤ now) :
    Writes timeout d (es ++ [.asked now ticket (some r)]) := by
  obtain ⟨hmem, rfl⟩ := mem_of_waiting? hw
  obtain ⟨began, horigin, hdue⟩ := h.waits _ _ _ (mem_terms hmem)
  have hsame (t : Nat) : origin (es ++ [.asked now w.ticket (some r)]) t = origin es t := by
    rw [origin_concat, Event.origin?, Option.or_none]
    simp
  refine ⟨htimeout.trans h.timeout_eq, h.began_concat fun t ht => ?_, ?_, ?_, ?_, ?_, ?_⟩
  · exact absurd rfl ht
  · intro t ht
    rw [hsame]
    exact h.fresh t (hnext ▸ ht)
  · intro t
    have hsettled := h.settled t
    have hcount := count_forget hc hw t
    have hanswer : [Event.asked now w.ticket (some r)].countP (Event.answers t)
        = [w.ticket].count t := rfl
    rw [List.countP_append, hanswer, tickets, hterms, hnext]
    rw [tickets] at hcount
    omega
  · intro t x due ht
    rw [hsame]
    exact h.waits t x due (mem_terms_of_forget (hterms ▸ ht))
  · intro later t r' hr'
    rw [hsame]
    obtain hr' | hr' := List.mem_append.1 hr'
    · exact h.answered later t r' hr'
    · obtain ⟨rfl, rfl, rfl⟩ := by simpa using hr'
      exact ⟨began, w.chunk, horigin, fun hr => hdue ▸ hlate hr⟩
  · intro later x hx
    exact h.atOnce later x (by simpa using hx)

theorem Writes.startWrite (h : Writes timeout c es) (now : Nat) (x : String) :
    Writes timeout (c.startWrite now x).1 (es ++ [.began now x (c.startWrite now x).2]) := by
  have hother (d : Channel) (r : Reply) (hterms : d.terms = c.terms)
      (hnext : d.nextTicket = c.nextTicket) (htimeout : d.timeout = c.timeout)
      (hlate : r = .refused (lateFailure timeout) → timeout.isZero = true) :
      Writes timeout d (es ++ [.began now x (.answered r)]) := by
    refine h.of_other (fun _ => rfl) (fun _ => rfl) hterms hnext htimeout fun later y he => ?_
    obtain ⟨-, -, hr⟩ := Event.began.inj he
    exact hlate (Started.answered.inj hr)
  obtain ⟨hlate, hended⟩ := lateFailure_ne timeout
  obtain ⟨-, hs⟩ | ⟨-, -, hs⟩ | ⟨-, -, -, hs⟩ | ⟨-, -, -, hz, hs⟩ | ⟨-, -, -, -, hs⟩ :=
    c.startWrite_cases now x <;> rw [hs]
  · exact hother c _ rfl rfl rfl fun hr => absurd (Reply.refused.inj hr).symm hended
  · exact hother _ _ rfl rfl rfl fun hr => absurd (Reply.refused.inj hr).symm hlate
  · exact hother _ _ rfl rfl rfl fun hr => by cases hr
  · exact hother c _ rfl rfl rfl fun _ => h.timeout_eq ▸ hz
  · exact h.of_begin now x

theorem Writes.pollWrite (h : Writes timeout c es) (hc : Ticketed c) (now ticket : Nat) :
    Writes timeout (c.pollWrite now ticket).1
      (es ++ [.asked now ticket (c.pollWrite now ticket).2]) := by
  have hnone : Writes timeout c (es ++ [.asked now ticket none]) :=
    h.of_other (fun _ => rfl) (fun _ => rfl) rfl rfl rfl fun _ _ he => by cases he
  obtain ⟨hgone, -⟩ := lateFailure_ne timeout
  obtain ⟨-, hs⟩ | ⟨w, hw, ⟨-, hs⟩ | ⟨-, -, hs⟩ | ⟨-, -, hd, hs⟩ | ⟨-, -, -, hs⟩⟩ :=
    c.pollWrite_cases now ticket <;> rw [hs]
  · exact hnone
  · exact h.of_answer hc hw rfl rfl rfl fun hr => absurd (Reply.refused.inj hr).symm hgone
  · exact h.of_answer hc hw rfl rfl rfl fun hr => by cases hr
  · exact h.of_answer hc hw rfl rfl rfl fun _ => hd
  · exact hnone

/-- **What is done** keeps it true of every write. -/
theorem Writes.act (h : Writes timeout c es) (hc : Ticketed c) (now : Nat) (a : Act) :
    Writes timeout (c.act now a).1 (es ++ [(c.act now a).2]) := by
  have hother (d : Channel) (e : Event) (hterms : d.terms = c.terms)
      (hnext : d.nextTicket = c.nextTicket) (htimeout : d.timeout = c.timeout)
      (he : ∀ t, e.origin? t = none ∧ e.answers t = false) (hbegan : ∀ at' x s, e ≠ .began at' x s) :
      Writes timeout d (es ++ [e]) :=
    h.of_other (fun t => (he t).1) (fun t => (he t).2) hterms hnext htimeout
      fun later y hy => absurd hy (hbegan _ _ _)
  cases a with
  | write x => exact h.startWrite now x
  | ask ticket => exact h.pollWrite hc now ticket
  | finish =>
    show Writes timeout c.finish.1 _
    rw [finish_fst]
    exact hother _ _ rfl rfl rfl (fun _ => ⟨rfl, rfl⟩) fun _ _ _ he => by cases he
  | close =>
    have hlasts := lasts_close c
    refine hother c.close _ hlasts.terms ?_ hlasts.timeout (fun _ => ⟨rfl, rfl⟩)
      fun _ _ _ he => by cases he
    obtain ⟨-, -, -, hs⟩ | ⟨-, hs⟩ := c.close_cases <;> rw [hs]
  | pull =>
    have hlasts := lasts_pull c
    refine hother c.pull.1 _ hlasts.terms ?_ hlasts.timeout (fun _ => ⟨rfl, rfl⟩)
      fun _ _ _ he => by cases he
    obtain ⟨f, rest, ws, -, -, hs⟩ | ⟨f, rest, -, -, hs⟩ | ⟨-, hs⟩ := c.pull_cases <;> rw [hs]
  | drop => exact hother c.dropBody _ rfl rfl rfl (fun _ => ⟨rfl, rfl⟩) fun _ _ _ he => by cases he

/-- **Every past** is one of writes that wait, or were answered once. -/
theorem Past.writes (h : Past timeout now c es) : Writes timeout c es := by
  induction h with
  | new =>
    refine ⟨rfl, ?_, fun _ _ => rfl, fun _ => rfl, ?_, ?_, ?_⟩
    · intro now x t
      exact iff_of_false List.not_mem_nil (by simp [origin])
    · intro t x due ht
      cases ht
    · intro now t r hr
      cases hr
    · intro now x hx
      cases hx
  | wait _ _ ih => exact ih
  | act h a _ ih => exact ih.act h.ticketed _ a

/-! ### In time -/

/-- **The channels that can be**, if whoever waits asks when its time is over: the clock does not pass
the end of a wait. -/
inductive Timely (timeout : Span) : Nat → Channel → List Event → Prop
  | new : Timely timeout 0 { timeout } []
  | wait {now later : Nat} {c : Channel} {es : List Event} (h : Timely timeout now c es)
      (hle : now ≤ later) (hdue : ∀ w ∈ c.waiting, later ≤ w.deadline) : Timely timeout later c es
  | act {now : Nat} {c : Channel} {es : List Event} (h : Timely timeout now c es) (a : Act)
      (ha : a = .pull → c.hasBody = true) :
      Timely timeout now (c.act now a).1 (es ++ [(c.act now a).2])

theorem Timely.past (h : Timely timeout now c es) : Past timeout now c es := by
  induction h with
  | new => exact .new
  | wait _ hle _ ih => exact ih.wait hle
  | act _ a ha ih => exact ih.act a ha

/-- Whatever is done at one time, while the body stays, is done in time. -/
theorem Timely.acts (h : Timely timeout now c es) (as : List Act) (hd : .drop ∉ as)
    (hb : c.hasBody = true) :
    Timely timeout now (Channel.acts now as c es).1 (Channel.acts now as c es).2 :=
  acts_induction (fun _ _ a h ha => h.act a ha) h as hd hb

/-- A write that waits after something was done waited before, or has just begun. -/
theorem mem_terms_act {t due : Nat} {x : String} (a : Act) (h : (t, x, due) ∈ (c.act now a).1.terms) :
    (t, x, due) ∈ c.terms ∨ due = c.timeout.waitUntil now := by
  cases a with
  | write y =>
    change (t, x, due) ∈ (c.startWrite now y).1.terms at h
    obtain ⟨-, hs⟩ | ⟨-, -, hs⟩ | ⟨-, -, -, hs⟩ | ⟨-, -, -, -, hs⟩ | ⟨-, -, -, -, hs⟩ :=
      c.startWrite_cases now y <;> rw [hs] at h
    · exact .inl h
    · exact .inl h
    · exact .inl h
    · exact .inl h
    · obtain h | h : (t, x, due) ∈ c.terms ∨ _ := by simpa [terms, or_comm] using h
      · exact .inl h
      · exact .inr h.2.2
  | ask ticket =>
    left
    change (t, x, due) ∈ (c.pollWrite now ticket).1.terms at h
    obtain ⟨-, hs⟩ | ⟨w, -, ⟨-, hs⟩ | ⟨-, -, hs⟩ | ⟨-, -, -, hs⟩ | ⟨-, -, -, hs⟩⟩ :=
      c.pollWrite_cases now ticket <;> rw [hs] at h
    · exact h
    · exact mem_terms_of_forget h
    · exact mem_terms_of_forget h
    · exact mem_terms_of_forget h
    · exact h
  | finish =>
    change (t, x, due) ∈ c.finish.1.terms at h
    rw [finish_fst] at h
    exact .inl h
  | close => exact .inl ((lasts_close c).terms ▸ h)
  | pull => exact .inl ((lasts_pull c).terms ▸ h)
  | drop => exact .inl h

/-- Only who waits is answered. -/
theorem waits_of_answer {a : Act} {later t : Nat} {r : Reply}
    (h : (c.act now a).2 = .asked later t (some r)) :
    later = now ∧ ∃ x due, (t, x, due) ∈ c.terms := by
  cases a with
  | ask ticket =>
    obtain ⟨rfl, rfl, hr⟩ := Event.asked.inj h
    refine ⟨rfl, ?_⟩
    obtain ⟨-, hs⟩ | ⟨w, hw, -⟩ := c.pollWrite_cases now ticket
    · rw [hs] at hr
      cases hr
    · obtain ⟨hmem, rfl⟩ := mem_of_waiting? hw
      exact ⟨w.chunk, w.deadline, mem_terms hmem⟩
  | write _ | finish | close | pull | drop => cases h

/-- **No wait is over its time**: neither of those that go on nor of those that were answered. -/
structure OnTime (timeout : Span) (now : Nat) (c : Channel) (es : List Event) : Prop where
  waits : ∀ t x due, (t, x, due) ∈ c.terms → now ≤ due
  answered : ∀ later t r, .asked later t (some r) ∈ es →
    ∃ began x, origin es t = some (began, x) ∧ later ≤ timeout.waitUntil began

theorem OnTime.act (h : OnTime timeout now c es) (hw : Writes timeout c es) (a : Act) :
    OnTime timeout now (c.act now a).1 (es ++ [(c.act now a).2]) := by
  constructor
  · intro t x due ht
    obtain ht | rfl := mem_terms_act a ht
    · exact h.waits t x due ht
    · exact Span.le_waitUntil _ now
  · intro later t r hr
    obtain hr | hr := List.mem_append.1 hr
    · obtain ⟨began, x, horigin, hle⟩ := h.answered later t r hr
      exact ⟨began, x, origin_concat_of_some horigin _, hle⟩
    · obtain ⟨rfl, x, due, ht⟩ := waits_of_answer (List.mem_singleton.1 hr).symm
      obtain ⟨began, horigin, rfl⟩ := hw.waits t x due ht
      exact ⟨began, x, origin_concat_of_some horigin _, h.waits t x _ ht⟩

/-- **Who asks in time is never late.** -/
theorem Timely.onTime (h : Timely timeout now c es) : OnTime timeout now c es := by
  induction h with
  | new => exact ⟨fun _ _ _ ht => (by cases ht), fun _ _ _ hr => (by cases hr)⟩
  | wait _ _ hdue ih =>
    refine ⟨fun t x due ht => ?_, ih.answered⟩
    obtain ⟨w, hw, hwt⟩ := List.mem_map.1 ht
    obtain ⟨rfl, rfl, rfl⟩ := by simpa using hwt
    exact hdue w hw
  | act h a _ ih => exact ih.act h.past.writes a

/-! ### While a write waits -/

/-- A place is kept for a write, unless there is a place for each of them. -/
theorem grantFirst_eq_none_iff {ws : List Waiting} :
    grantFirst ws = none ↔ ∀ w ∈ ws, w.granted = true := by
  induction ws with
  | nil => simp [grantFirst]
  | cons v ws ih =>
    rw [grantFirst]
    split
    · rename_i hv
      simp [hv, ih]
    · rename_i hv
      simp [hv]

/-- **While a write waits for a place there is none.** -/
def Blocked (c : Channel) : Prop :=
  ∀ w ∈ c.waiting, w.granted = false → c.free = 0

theorem Blocked.of_sublist (h : Blocked c) (hw : d.waiting.Sublist c.waiting)
    (hfree : d.free ≤ c.free) : Blocked d := by
  intro w hmem hg
  have := h w (hw.subset hmem) hg
  omega

theorem Blocked.act (h : Blocked c) (now : Nat) (a : Act) : Blocked (c.act now a).1 := by
  cases a with
  | write x =>
    show Blocked (c.startWrite now x).1
    obtain ⟨-, hs⟩ | ⟨-, -, hs⟩ | ⟨-, -, -, hs⟩ | ⟨-, -, -, -, hs⟩ | ⟨-, -, hfree, -, hs⟩ :=
      c.startWrite_cases now x <;> rw [hs]
    · exact h
    · exact h
    · exact h.of_sublist (List.Sublist.refl _) (Nat.sub_le _ _)
    · exact h
    · exact fun _ _ _ => hfree
  | ask ticket =>
    have hforget : (c.forget ticket).waiting.Sublist c.waiting := List.filter_sublist
    show Blocked (c.pollWrite now ticket).1
    obtain ⟨-, hs⟩ | ⟨w, -, ⟨-, hs⟩ | ⟨-, -, hs⟩ | ⟨-, -, -, hs⟩ | ⟨-, -, -, hs⟩⟩ :=
      c.pollWrite_cases now ticket <;> rw [hs]
    · exact h
    · exact h.of_sublist hforget (Nat.le_refl _)
    · exact h.of_sublist hforget (Nat.le_refl _)
    · exact h.of_sublist hforget (Nat.le_refl _)
    · exact h
  | finish =>
    show Blocked c.finish.1
    rw [finish_fst]
    exact h
  | close =>
    show Blocked c.close
    obtain ⟨-, -, -, hs⟩ | ⟨-, hs⟩ := c.close_cases <;> rw [hs]
    · exact h.of_sublist (List.Sublist.refl _) (Nat.sub_le _ _)
    · exact h
  | pull =>
    show Blocked c.pull.1
    obtain ⟨f, rest, ws, -, hg, hs⟩ | ⟨f, rest, -, hg, hs⟩ | ⟨-, hs⟩ := c.pull_cases <;> rw [hs]
    · -- A place is kept for a write that waited for one, so none was free before.
      have hsome : ¬ ∀ w ∈ c.waiting, w.granted = true := fun hall => by
        rw [grantFirst_eq_none_iff.2 hall] at hg
        cases hg
      obtain ⟨w, hmem, hw⟩ := by simpa using hsome
      exact fun _ _ _ => h w hmem hw
    · intro w hmem hw
      cases hw.symm.trans (grantFirst_eq_none_iff.1 hg w hmem)
    · exact h
  | drop => exact h

theorem Past.blocked (h : Past timeout now c es) : Blocked c := by
  induction h with
  | new => exact fun _ hw => by cases hw
  | wait _ _ ih => exact ih
  | act _ a _ ih => exact ih.act _ a

end HeldReply.Channel
