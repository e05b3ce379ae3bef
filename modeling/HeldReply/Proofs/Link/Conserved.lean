import HeldReply.Proofs.Link.Writes
import Mathlib.Data.List.Perm.Subperm

/-!
# No frame is lost, doubled or out of order

The frames that a body reads are the chunks of the writes that were told that they are done, in the
order in which they were told so.  A write may wait for a place, give up, find the body gone, or get
its place after the writing side was finished or closed; what was ever put into the channel is told
beside its past, so that nothing can be put in by somebody who is told otherwise.

* `Channel.added`, `Channel.Course` — what a step puts in, and a past with all that was put in;
* `Channel.frames`, `Channel.accepted` — what the body read, and the chunks of the writes that are
  done, in order;
* `Channel.Conserves`, `Channel.Course.conserves` — **the invariant**: what was put in is what was
  accepted, with one abort frame at most;
* `Channel.Course.in_order` — **what is true of every channel**, its writes, its frames and its ends.
-/

namespace HeldReply.Channel

variable {c d : Channel} {timeout : Span} {now : Nat} {e : Event} {es : List Event}
  {put fs : List Frame}

/-! ### What was put in, and what came out -/

/-- The frames that are **put into** a channel when it becomes another: those behind what lay in the
buffer before. -/
def added (c d : Channel) : List Frame :=
  d.buffer.drop c.buffer.length

/-- **The channels that can be**, each with its past and with all frames that were ever put in. -/
inductive Course (timeout : Span) : Nat → Channel → List Event → List Frame → Prop
  | new : Course timeout 0 { timeout } [] []
  | wait {now later : Nat} {c : Channel} {es : List Event} {put : List Frame}
      (h : Course timeout now c es put) (hle : now ≤ later) : Course timeout later c es put
  | act {now : Nat} {c : Channel} {es : List Event} {put : List Frame}
      (h : Course timeout now c es put) (a : Act) (ha : a = .pull → c.hasBody = true) :
      Course timeout now (c.act now a).1 (es ++ [(c.act now a).2]) (put ++ c.added (c.act now a).1)

theorem Course.past (h : Course timeout now c es put) : Past timeout now c es := by
  induction h with
  | new => exact .new
  | wait _ hle ih => exact ih.wait hle
  | act _ a ha ih => exact ih.act a ha

/-- Every past is one in which some frames were put in. -/
theorem Past.exists_course (h : Past timeout now c es) : ∃ put, Course timeout now c es put := by
  induction h with
  | new => exact ⟨[], .new⟩
  | wait _ hle ih =>
    obtain ⟨put, h⟩ := ih
    exact ⟨put, h.wait hle⟩
  | act _ a ha ih =>
    obtain ⟨put, h⟩ := ih
    exact ⟨_, h.act a ha⟩

/-- The frame that the body read. -/
def Event.frame? : Event → Option Frame
  | .pulled (.frame f) => some f
  | _ => none

/-- The frames that the body **read**, in order. -/
def frames (es : List Event) : List Frame :=
  es.filterMap Event.frame?

/-- The chunk of a frame of the reply. -/
def chunk? : Frame → Option String
  | .data x => some x
  | .abort => none

/-- The **chunks** among some frames. -/
def chunks (fs : List Frame) : List String :=
  fs.filterMap chunk?

/-- The chunk of the write that an event tells to be done. -/
def Event.accepted? (es : List Event) : Event → Option String
  | .began _ x (.answered .done) => some x
  | .asked _ t (some .done) => (origin es t).map Prod.snd
  | _ => none

/-- The chunks of the writes that are **done**, in the order in which they were told so. -/
def accepted (es : List Event) : List String :=
  es.filterMap (Event.accepted? es)

theorem added_of_append (h : d.buffer = c.buffer ++ fs) : c.added d = fs := by
  rw [added, h, List.drop_left]

theorem added_of_suffix (h : d.buffer <:+ c.buffer) : c.added d = [] :=
  List.drop_eq_nil_of_le h.length_le

/-- What is known of the writes that were answered stays as it is. -/
theorem Writes.accepted_concat (h : Writes timeout c es) (e : Event) :
    accepted (es ++ [e]) = accepted es ++ (e.accepted? (es ++ [e])).toList := by
  have hsame : es.filterMap (Event.accepted? (es ++ [e])) = accepted es := by
    apply List.filterMap_congr
    intro x hx
    unfold Event.accepted?
    split
    · rfl
    · obtain ⟨began, y, horigin, -⟩ := h.answered _ _ _ hx
      rw [horigin, origin_concat_of_some horigin]
    · rfl
  rw [accepted, List.filterMap_append, hsame, List.filterMap_cons]
  cases e.accepted? (es ++ [e]) <;> rfl

/-! ### Nothing is lost -/

/-- How often a frame or an event ends the reply: an abort frame in disorder, a finish in good
order. -/
def endings (fs : List Frame) (es : List Event) : Nat :=
  fs.count .abort + es.count (.finished .done)

/-- **What was put in** is what was accepted, and what was read comes from it. -/
structure Conserves (c : Channel) (es : List Event) (put : List Frame) : Prop where
  took : frames es <+: put
  buffered : c.hasBody = true → frames es ++ c.buffer = put
  gone : c.hasBody = false → c.buffer = []
  accepted_eq : chunks put = accepted es
  /-- What can still be written to has not ended. -/
  intact : c.writable = true → endings put es = 0
  /-- It ends once. -/
  once : endings put es ≤ 1

theorem endings_append (gs fs : List Frame) (es : List Event) (e : Event) :
    endings (gs ++ fs) (es ++ [e]) = endings gs es + endings fs [e] := by
  simp only [endings, List.count_append]
  omega

theorem chunks_append (gs fs : List Frame) : chunks (gs ++ fs) = chunks gs ++ chunks fs :=
  List.filterMap_append

/-- **A step that puts frames in**, or none. -/
theorem Conserves.add (h : Conserves c es put) (hw : Writes timeout c es) (fs : List Frame)
    (hbuffer : d.buffer = c.buffer ++ fs) (hbody : d.hasBody = c.hasBody)
    (hgone : c.hasBody = false → fs = []) (hframe : e.frame? = none)
    (haccepted : (e.accepted? (es ++ [e])).toList = chunks fs)
    (hintact : d.writable = true → c.writable = true ∧ endings fs [e] = 0)
    (honce : endings fs [e] = 0 ∨ c.writable = true ∧ endings fs [e] ≤ 1) :
    Conserves d (es ++ [e]) (put ++ c.added d) := by
  have hframes : frames (es ++ [e]) = frames es := by
    simp [frames, hframe]
  rw [added_of_append hbuffer]
  refine ⟨?_, fun hb => ?_, fun hb => ?_, ?_, fun hd => ?_, ?_⟩
  · rw [hframes]
    exact h.took.trans (List.prefix_append _ _)
  · rw [hframes, hbuffer, ← List.append_assoc, h.buffered (hbody ▸ hb)]
  · rw [hbuffer, h.gone (hbody ▸ hb), hgone (hbody ▸ hb), List.append_nil]
  · rw [chunks_append, h.accepted_eq, hw.accepted_concat, haccepted]
  · obtain ⟨hc, hzero⟩ := hintact hd
    rw [endings_append, h.intact hc, hzero]
  · rw [endings_append]
    obtain hzero | ⟨hc, hone⟩ := honce
    · rw [hzero]
      exact h.once
    · rw [h.intact hc, Nat.zero_add]
      exact hone

/-- **A step that does nothing to the buffer** and ends nothing. -/
theorem Conserves.of_buffer (h : Conserves c es put) (hw : Writes timeout c es)
    (hbuffer : d.buffer = c.buffer) (hbody : d.hasBody = c.hasBody)
    (hwritable : d.writable = true → c.writable = true) (hframe : e.frame? = none)
    (haccepted : ∀ es, e.accepted? es = none) (he : e ≠ .finished .done) :
    Conserves d (es ++ [e]) (put ++ c.added d) := by
  have hzero : endings [] [e] = 0 := by
    simp [endings, he]
  refine h.add hw [] (by rw [hbuffer, List.append_nil]) hbody (fun _ => rfl) hframe ?_ ?_ ?_
  · rw [haccepted]
    rfl
  · exact fun hd => ⟨hwritable hd, hzero⟩
  · exact .inl hzero

theorem Conserves.startWrite (h : Conserves c es put) (hw : Writes timeout c es) (now : Nat)
    (x : String) : Conserves (c.startWrite now x).1
      (es ++ [.began now x (c.startWrite now x).2]) (put ++ c.added (c.startWrite now x).1) := by
  have hother {s : Started} (hs : s ≠ .answered .done) (d : Channel) (hbuffer : d.buffer = c.buffer)
      (hbody : d.hasBody = c.hasBody) (hwritable : d.writable = c.writable) :
      Conserves d (es ++ [.began now x s]) (put ++ c.added d) := by
    refine h.of_buffer hw hbuffer hbody (fun hd => hwritable ▸ hd) rfl (fun es => ?_)
      fun he => by cases he
    unfold Event.accepted?
    split
    · rename_i heq
      obtain ⟨-, -, hdone⟩ := Event.began.inj heq
      exact absurd hdone hs
    · rename_i heq
      cases heq
    · rfl
  obtain ⟨-, hs⟩ | ⟨-, -, hs⟩ | ⟨-, hb, -, hs⟩ | ⟨-, -, -, -, hs⟩ | ⟨-, -, -, -, hs⟩ :=
    c.startWrite_cases now x <;> rw [hs]
  · exact hother (fun hd => by cases hd) _ rfl rfl rfl
  · exact hother (fun hd => by cases hd) _ rfl rfl rfl
  · refine h.add hw [.data x] rfl rfl (fun hn => ?_) rfl rfl (fun hd => ⟨hd, rfl⟩) (.inl rfl)
    cases hb.symm.trans hn
  · exact hother (fun hd => by cases hd) _ rfl rfl rfl
  · exact hother (fun hd => by cases hd) _ rfl rfl rfl

theorem Conserves.pollWrite (h : Conserves c es put) (hw : Writes timeout c es) (now ticket : Nat) :
    Conserves (c.pollWrite now ticket).1 (es ++ [.asked now ticket (c.pollWrite now ticket).2])
      (put ++ c.added (c.pollWrite now ticket).1) := by
  have hother {r : Option Reply} (hr : r ≠ some .done) (d : Channel)
      (hbuffer : d.buffer = c.buffer) (hbody : d.hasBody = c.hasBody)
      (hwritable : d.writable = c.writable) :
      Conserves d (es ++ [.asked now ticket r]) (put ++ c.added d) := by
    refine h.of_buffer hw hbuffer hbody (fun hd => hwritable ▸ hd) rfl (fun es => ?_)
      fun he => by cases he
    unfold Event.accepted?
    split
    · rename_i heq
      cases heq
    · rename_i heq
      obtain ⟨-, -, hdone⟩ := Event.asked.inj heq
      exact absurd hdone hr
    · rfl
  obtain ⟨-, hs⟩ | ⟨w, hwait, ⟨-, hs⟩ | ⟨hb, -, hs⟩ | ⟨-, -, -, hs⟩ | ⟨-, -, -, hs⟩⟩ :=
    c.pollWrite_cases now ticket <;> rw [hs]
  · exact hother (fun hd => by cases hd) _ rfl rfl rfl
  · exact hother (fun hd => by cases hd) _ rfl rfl rfl
  · -- The chunk is that with which the write began.
    obtain ⟨hmem, rfl⟩ := mem_of_waiting? hwait
    obtain ⟨began, horigin, -⟩ := hw.waits _ _ _ (mem_terms hmem)
    refine h.add hw [.data w.chunk] rfl rfl (fun hn => ?_) rfl ?_ (fun hd => ⟨hd, rfl⟩)
      (.inl rfl)
    · cases hb.symm.trans hn
    · rw [Event.accepted?, origin_concat_of_some horigin]
      rfl
  · exact hother (fun hd => by cases hd) _ rfl rfl rfl
  · exact hother (fun hd => by cases hd) _ rfl rfl rfl

theorem Conserves.finish (h : Conserves c es put) (hw : Writes timeout c es) :
    Conserves c.finish.1 (es ++ [.finished c.finish.2]) (put ++ c.added c.finish.1) := by
  unfold Channel.finish
  split
  · rename_i hwb
    obtain ⟨hwritable, -⟩ := Bool.and_eq_true_iff.1 hwb
    exact h.add hw [] (List.append_nil _).symm rfl (fun _ => rfl) rfl rfl
      (fun hd => by cases hd) (.inr ⟨hwritable, by simp [endings]⟩)
  · exact h.of_buffer hw rfl rfl (fun hd => by cases hd) rfl (fun _ => rfl) fun he => by cases he

theorem Conserves.close (h : Conserves c es put) (hw : Writes timeout c es) :
    Conserves c.close (es ++ [.closed c.closesSilently]) (put ++ c.added c.close) := by
  obtain ⟨hwritable, hb, -, hs⟩ | ⟨-, hs⟩ := c.close_cases <;> rw [hs]
  · refine h.add hw [.abort] rfl rfl (fun hn => ?_) rfl rfl (fun hd => by cases hd)
      (.inr ⟨hwritable, ?_⟩)
    · cases hb.symm.trans hn
    · simp [endings]
  · exact h.of_buffer hw rfl rfl (fun hd => by cases hd) rfl (fun _ => rfl) fun he => by cases he

/-- **A frame is read.** -/
theorem Conserves.of_frame {f : Frame} {rest : List Frame} (h : Conserves c es put)
    (hw : Writes timeout c es) (hf : c.buffer = f :: rest) (hd : d.buffer = rest)
    (hbody : d.hasBody = c.hasBody) (hwritable : d.writable = c.writable) (hb : c.hasBody = true) :
    Conserves d (es ++ [.pulled (.frame f)]) (put ++ c.added d) := by
  have hnone : c.added d = [] := added_of_suffix (by rw [hd, hf]; exact List.suffix_cons f rest)
  have hframes : frames (es ++ [.pulled (.frame f)]) = frames es ++ [f] := by
    simp [frames, Event.frame?]
  have hput : frames es ++ [f] ++ rest = put := by
    rw [List.append_assoc, List.singleton_append, ← hf]
    exact h.buffered hb
  have hendings : endings put (es ++ [.pulled (.frame f)]) = endings put es := by
    simp [endings]
  rw [hnone, List.append_nil]
  refine ⟨?_, fun _ => ?_, fun hn => ?_, ?_, fun hd' => ?_, ?_⟩
  · rw [hframes]
    exact ⟨rest, hput⟩
  · rw [hframes, hd]
    exact hput
  · cases hb.symm.trans (hbody ▸ hn)
  · rw [hw.accepted_concat, h.accepted_eq]
    exact (List.append_nil _).symm
  · rw [hendings]
    exact h.intact (hwritable ▸ hd')
  · rw [hendings]
    exact h.once

theorem Conserves.pull (h : Conserves c es put) (hw : Writes timeout c es) (hb : c.hasBody = true) :
    Conserves c.pull.1 (es ++ [.pulled c.pull.2]) (put ++ c.added c.pull.1) := by
  obtain ⟨f, rest, ws, hf, -, hs⟩ | ⟨f, rest, hf, -, hs⟩ | ⟨-, hs⟩ := c.pull_cases <;> rw [hs]
  · exact h.of_frame hw hf rfl rfl rfl hb
  · exact h.of_frame hw hf rfl rfl rfl hb
  · refine h.of_buffer hw rfl rfl id ?_ (fun _ => rfl) fun he => by cases he
    cases c.isOver <;> rfl

/-- **The body goes away**, and what it did not read with it. -/
theorem Conserves.dropBody (h : Conserves c es put) (hw : Writes timeout c es) :
    Conserves c.dropBody (es ++ [.dropped]) (put ++ c.added c.dropBody) := by
  have hnone : c.added c.dropBody = [] := added_of_suffix (List.nil_suffix)
  have hframes : frames (es ++ [.dropped]) = frames es := by
    simp [frames, Event.frame?]
  have hendings : endings put (es ++ [.dropped]) = endings put es := by
    simp [endings]
  rw [hnone, List.append_nil]
  refine ⟨?_, (fun hb => by cases hb), fun _ => rfl, ?_, fun hd => ?_, ?_⟩
  · rw [hframes]
    exact h.took
  · rw [hw.accepted_concat, h.accepted_eq]
    exact (List.append_nil _).symm
  · rw [hendings]
    exact h.intact hd
  · rw [hendings]
    exact h.once

/-- **What is done** loses nothing. -/
theorem Conserves.act (h : Conserves c es put) (hw : Writes timeout c es) (now : Nat) (a : Act)
    (ha : a = .pull → c.hasBody = true) :
    Conserves (c.act now a).1 (es ++ [(c.act now a).2]) (put ++ c.added (c.act now a).1) := by
  cases a with
  | write x => exact h.startWrite hw now x
  | ask ticket => exact h.pollWrite hw now ticket
  | finish => exact h.finish hw
  | close => exact h.close hw
  | pull => exact h.pull hw (ha rfl)
  | drop => exact h.dropBody hw

/-- **Nothing is ever lost**, doubled or out of order. -/
theorem Course.conserves (h : Course timeout now c es put) : Conserves c es put := by
  induction h with
  | new =>
    refine ⟨List.prefix_refl _, fun _ => rfl, fun hb => ?_, rfl, fun _ => rfl, by decide⟩
    cases hb
  | wait _ _ ih => exact ih
  | act h a ha ih => exact ih.act h.past.writes _ a ha

/-! ### What is true of every channel -/

/-- The buffer holds no more than it has places. -/
theorem Course.length_buffer_le (h : Course timeout now c es put) : c.buffer.length ≤ capacity := by
  cases hb : c.hasBody with
  | true =>
    have hplaces := h.past.places hb
    omega
  | false =>
    rw [h.conserves.gone hb]
    exact Nat.zero_le _

/-- **It ends once**: in disorder, or in good order. -/
theorem Conserves.ends_once (h : Conserves c es put) :
    put.count .abort ≤ 1 ∧ (.finished .done ∈ es → .abort ∉ put) ∧ es.count (.finished .done) ≤ 1 := by
  have honce := h.once
  unfold endings at honce
  refine ⟨by omega, fun hfinished habort => ?_, by omega⟩
  have hf := List.count_pos_iff.2 hfinished
  have ha := List.count_pos_iff.2 habort
  omega

/-- **No write is answered twice**; so who was refused is never told that it is done. -/
theorem Writes.answered_once (h : Writes timeout c es) (ticket : Nat) :
    es.countP (Event.answers ticket) ≤ 1 := by
  have hsettled := h.settled ticket
  have honce := List.nodup_iff_count_le_one.1 (List.nodup_range (n := c.nextTicket)) ticket
  omega

theorem Writes.not_done_of_refused (h : Writes timeout c es) {ticket later : Nat} {f : Failure}
    (hrefused : .asked now ticket (some (.refused f)) ∈ es) :
    .asked later ticket (some .done) ∉ es := by
  intro hdone
  have honce := h.answered_once ticket
  have hpair : List.Subperm [.asked now ticket (some (.refused f)),
      .asked later ticket (some .done)] es :=
    List.subperm_of_subset (by simp) (by simp [hrefused, hdone])
  have htwo := hpair.countP_le (Event.answers ticket)
  simp only [List.countP_cons, List.countP_nil, Event.answers, beq_self_eq_true, if_true] at htwo
  omega

/-- A ticket under which a write began is waited under, or the write was answered. -/
theorem Writes.waits_or_answered (h : Writes timeout c es) {began t : Nat} {x : String}
    (hbegan : .began began x (.inFlight t) ∈ es) :
    (c.waiting? t).isSome = true ∨ ∃ later r, .asked later t (some r) ∈ es := by
  have hlt : t < c.nextTicket := by
    refine Nat.lt_of_not_le fun hle => ?_
    have hnone := h.fresh t hle
    rw [(h.began_iff began x t).1 hbegan] at hnone
    cases hnone
  have hsettled := h.settled t
  have hone := List.count_pos_iff.2 (List.mem_range.2 hlt)
  by_cases hwaits : t ∈ c.tickets
  · left
    rw [tickets_eq] at hwaits
    obtain ⟨w, hw, rfl⟩ := List.mem_map.1 hwaits
    exact List.find?_isSome.2 ⟨w, hw, beq_self_eq_true _⟩
  · right
    rw [List.count_eq_zero_of_not_mem hwaits] at hsettled
    have hanswered : 0 < es.countP (Event.answers t) := by omega
    obtain ⟨e, he, hanswers⟩ := List.countP_pos_iff.1 hanswered
    unfold Event.answers at hanswers
    split at hanswers
    · rename_i later t' r
      obtain rfl : t' = t := beq_iff_eq.1 hanswers
      exact ⟨later, r, he⟩
    · cases hanswers

/-- **How long a write waits** that began to wait at a time. -/
structure WaitsOn (timeout : Span) (now : Nat) (c : Channel) (es : List Event) (began t : Nat) :
    Prop where
  /-- It is answered, or it waits. -/
  waits_or_answered : (c.waiting? t).isSome = true ∨ ∃ later r, .asked later t (some r) ∈ es
  /-- It has no place because there is none. -/
  full : ∀ w, c.waiting? t = some w → w.granted = false → c.free = 0
  /-- It gives up when it is asked for at the end of its time or later, unless the body is gone by
  then or a place is kept for it. -/
  gives_up_iff : ∀ w, c.waiting? t = some w → ∀ later,
    (c.pollWrite later t).2 = some (.refused (lateFailure timeout)) ↔
      c.hasBody = true ∧ w.granted = false ∧ timeout.waitUntil began ≤ later
  not_early : ∀ later, .asked later t (some (.refused (lateFailure timeout))) ∈ es →
    timeout.waitUntil began ≤ later
  /-- If those who wait ask when their time is over, it gives up at that very time. -/
  exact : Timely timeout now c es →
    (∀ later, .asked later t (some (.refused (lateFailure timeout))) ∈ es →
      later = timeout.waitUntil began) ∧
    ((c.waiting? t).isSome = true → now ≤ timeout.waitUntil began)

theorem Past.waitsOn (h : Past timeout now c es) {began t : Nat} {x : String}
    (hbegan : .began began x (.inFlight t) ∈ es) : WaitsOn timeout now c es began t := by
  have hwrites := h.writes
  have horigin := (hwrites.began_iff began x t).1 hbegan
  have hsame {began' : Nat} {y : String} (h' : origin es t = some (began', y)) : began' = began :=
    (Prod.mk.inj (Option.some.inj (h'.symm.trans horigin))).1
  have hdue {w : Waiting} (hw : c.waiting? t = some w) :
      (t, w.chunk, w.deadline) ∈ c.terms ∧ w.deadline = timeout.waitUntil began := by
    obtain ⟨hmem, rfl⟩ := mem_of_waiting? hw
    obtain ⟨began', horigin', hdue⟩ := hwrites.waits _ _ _ (mem_terms hmem)
    exact ⟨mem_terms hmem, hsame horigin' ▸ hdue⟩
  have hnotEarly (later : Nat) (hr : .asked later t (some (.refused (lateFailure timeout))) ∈ es) :
      timeout.waitUntil began ≤ later := by
    obtain ⟨began', y, horigin', hlate⟩ := hwrites.answered later t _ hr
    exact hsame horigin' ▸ hlate rfl
  refine ⟨hwrites.waits_or_answered hbegan, fun w hw hg => ?_, fun w hw later => ?_, hnotEarly,
    fun htimely => ⟨fun later hr => ?_, fun hwaits => ?_⟩⟩
  · exact h.blocked w (mem_of_waiting? hw).1 hg
  · obtain ⟨hgone, -⟩ := lateFailure_ne timeout
    rw [← (hdue hw).2, ← hwrites.lateFailure_eq]
    obtain ⟨hnone, -⟩ | ⟨v, hv, hs⟩ := c.pollWrite_cases later t
    · cases hw.symm.trans hnone
    · obtain rfl : w = v := Option.some.inj (hw.symm.trans hv)
      obtain ⟨hb, hs⟩ | ⟨hb, hg, hs⟩ | ⟨hb, hg, hd, hs⟩ | ⟨hb, hg, hd, hs⟩ := hs
      · have hne : goneFailure ≠ c.timeoutFailure := hwrites.lateFailure_eq ▸ hgone.symm
        simp [hs, hb, hne]
      · simp [hs, hg]
      · simp [hs, hb, hg, hd]
      · simp [hs, Nat.not_le_of_gt hd]
  · obtain ⟨began', y, horigin', hle⟩ := htimely.onTime.answered later t _ hr
    rw [hsame horigin'] at hle
    exact Nat.le_antisymm hle (hnotEarly later hr)
  · obtain ⟨w, hw⟩ := Option.isSome_iff_exists.1 hwaits
    obtain ⟨hterm, hdeadline⟩ := hdue hw
    rw [← hdeadline]
    exact htimely.onTime.waits _ _ _ hterm

/-- **What is true of every channel**, of whatever was done to it in whatever order and at whatever
times, with all that was ever put in:

* the body reads what was put in, in that order, and the buffer holds the rest of it;
* what was put in are the chunks of the writes that were told that they are done, in the order in which
  they were told so; a write is told once, so one that was refused puts nothing in, ever;
* the buffer holds sixteen frames at most;
* one abort frame at most is put in, and none if a finish succeeded; a finish succeeds once at most;
* a write that finds no place gives up when its time is over and neither the body is gone nor a place
  is kept for it: exactly then, if it is asked for in time, and at once if it was given no time;
* its time is over in the first millisecond by which all the time it was given has passed. -/
theorem Course.in_order (timeout : Span) (now : Nat) (c : Channel) (es : List Event)
    (put : List Frame) (h : Course timeout now c es put) :
    (frames es <+: put ∧ (c.hasBody = true → frames es ++ c.buffer = put)) ∧
    (chunks put = accepted es ∧ chunks (frames es) <+: accepted es) ∧
    (∀ t, es.countP (Event.answers t) ≤ 1 ∧
      ∀ f before later, .asked before t (some (.refused f)) ∈ es →
        .asked later t (some .done) ∉ es) ∧
    c.buffer.length ≤ capacity ∧
    (put.count .abort ≤ 1 ∧ (.finished .done ∈ es → .abort ∉ put) ∧
      es.count (.finished .done) ≤ 1) ∧
    (∀ began x t, .began began x (.inFlight t) ∈ es → WaitsOn timeout now c es began t) ∧
    (∀ began x, .began began x (.answered (.refused (lateFailure timeout))) ∈ es →
      timeout.isZero = true) ∧
    ∀ began later, timeout.waitUntil began ≤ later ↔ timeout.HasPassed began later := by
  have hconserves := h.conserves
  have hwrites := h.past.writes
  refine ⟨⟨hconserves.took, hconserves.buffered⟩, ⟨hconserves.accepted_eq, ?_⟩, fun t => ⟨?_, ?_⟩,
    h.length_buffer_le, hconserves.ends_once, fun began x t => h.past.waitsOn, hwrites.atOnce,
    timeout.waitUntil_le_iff⟩
  · rw [← hconserves.accepted_eq]
    exact hconserves.took.filterMap _
  · exact hwrites.answered_once t
  · exact fun f before later => hwrites.not_done_of_refused

/-- **A write that gets its place and one that does not.**  The buffer is full, two writes wait, and
one frame is read; when the time of both is over, the second one gives up and the first one is done. -/
theorem in_order_of_full_buffer :
    ∃ c es put, Course (.ofMillis 20) 20 c es put ∧
      .asked 20 1 (some (.refused (lateFailure (.ofMillis 20)))) ∈ es ∧
      .asked 20 0 (some .done) ∈ es ∧ chunks put = List.replicate 16 "a" ++ ["b"] ∧
      (∀ later, .asked later 1 (some (.refused (lateFailure (.ofMillis 20)))) ∈ es →
        later = 20) := by
  let before := List.replicate 16 (Act.write "a") ++ [.write "b", .write "c", .pull]
  let c := acts 0 before { timeout := .ofMillis 20 } []
  have hbefore : Timely (.ofMillis 20) 0 c.1 c.2 := Timely.new.acts before (by decide) rfl
  have hwait : Timely (.ofMillis 20) 20 c.1 c.2 := hbefore.wait (by decide) (by decide +kernel)
  have hlater := hwait.acts [.ask 1, .ask 0, .finish] (by decide) (by decide +kernel)
  obtain ⟨put, h⟩ := hlater.past.exists_course
  obtain ⟨-, ⟨hput, -⟩, -, -, -, hwaits, -⟩ := Course.in_order _ _ _ _ _ h
  refine ⟨_, _, put, h, by decide +kernel, by decide +kernel, hput.trans (by decide +kernel), ?_⟩
  exact ((hwaits 0 "c" 1 (by decide +kernel)).exact hlater).1

end HeldReply.Channel
