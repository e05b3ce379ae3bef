import HeldReply.Proofs.Link.Recorded
import HeldReply.Proofs.Outcome
import HeldReply.Session.Basic
import Mathlib.Data.List.Basic

/-!
# What is recorded of a session

The record of the link of a session comes in three parts: beats, then the last chunk, then the end.
How far it has come can be read off what the closing does.

* `beatsBegun`, `lastChunks` — what a record tells of the calls that began;
* `Unpaid`, `Paid`, `Landed`, `Ended` — **how far a record has come**, with a lemma for each way to
  the next one, and for entries that tell of no beginning;
* `Closing.Fits` — what a closing tells of the record.
-/

namespace HeldReply

open Recorded Session

/-! ### Records -/

/-- The beats that began. -/
def beatsBegun (log : List Entry) : Nat :=
  (starts log).count (.write beatChunk)

/-- The chunk of a write that is no beat. -/
def lastChunk? : Call → Option String
  | .write chunk => if chunk = beatChunk then none else some chunk
  | .finish => none

/-- The last chunks whose writes began. -/
def lastChunks (log : List Entry) : List String :=
  (starts log).filterMap lastChunk?

/-- Nothing but beats began. -/
def Unpaid (log : List Entry) : Prop :=
  ∀ call ∈ starts log, call = .write beatChunk

/-- The last chunk began after nothing but beats, and nothing began after it; `rest` is what was
recorded since. -/
def PaidWith (o : Outcome) (number : Nat) (rest log : List Entry) : Prop :=
  ∃ before now beside, log = before ++ .began now number (.write o.payload) beside :: rest ∧
    Unpaid before ∧ starts rest = []

/-- **The last chunk began.** -/
def Paid (o : Outcome) (number : Nat) (log : List Entry) : Prop :=
  ∃ rest, PaidWith o number rest log

/-- **The last chunk was written.** -/
def Landed (o : Outcome) (log : List Entry) : Prop :=
  ∃ number rest now, PaidWith o number rest log ∧ .answered now number .done ∈ rest

/-- **The end began**, after the last chunk was written. -/
def Ended (o : Outcome) (log : List Entry) : Prop :=
  ∃ before now number beside rest, log = before ++ .began now number .finish beside :: rest ∧
    Landed o before ∧ starts rest = []

section Records

variable {o : Outcome} {number : Nat} {log es : List Entry}

theorem Unpaid.append (h : Unpaid log) (hes : starts es = []) : Unpaid (log ++ es) := by
  rw [Unpaid, starts_append, hes, List.append_nil]
  exact h

theorem PaidWith.append {rest : List Entry} (h : PaidWith o number rest log)
    (hes : starts es = []) : PaidWith o number (rest ++ es) (log ++ es) := by
  obtain ⟨before, now, beside, rfl, hb, hr⟩ := h
  refine ⟨before, now, beside, ?_, hb, ?_⟩
  · rw [List.append_assoc, List.cons_append]
  · rw [starts_append, hr, hes]
    rfl

theorem Paid.append (h : Paid o number log) (hes : starts es = []) : Paid o number (log ++ es) := by
  obtain ⟨rest, h⟩ := h
  exact ⟨_, h.append hes⟩

theorem Ended.append (h : Ended o log) (hes : starts es = []) : Ended o (log ++ es) := by
  obtain ⟨before, now, number, beside, rest, rfl, hb, hr⟩ := h
  refine ⟨before, now, number, beside, rest ++ es, ?_, hb, ?_⟩
  · rw [List.append_assoc, List.cons_append]
  · rw [starts_append, hr, hes]
    rfl

/-- Nothing but beats began, and then the last chunk does. -/
theorem Unpaid.pay (h : Unpaid log) (o : Outcome) (now number : Nat) (beside : List Nat)
    (hes : starts es = []) :
    Paid o number (log ++ .began now number (.write o.payload) beside :: es) :=
  ⟨es, log, now, beside, rfl, h, hes⟩

/-- The last chunk began, and then it is answered that it was written. -/
theorem Paid.land (h : Paid o number log) (now : Nat) :
    Landed o (log ++ [.answered now number .done]) := by
  obtain ⟨rest, h⟩ := h
  exact ⟨number, _, now, h.append rfl, List.mem_append_right _ (List.mem_singleton_self _)⟩

theorem Landed.paid (h : Landed o log) : ∃ number, Paid o number log := by
  obtain ⟨number, rest, -, h, -⟩ := h
  exact ⟨number, rest, h⟩

/-- The last chunk was written, and then the end begins. -/
theorem Landed.finish (h : Landed o log) (now number : Nat) (beside : List Nat)
    (hes : starts es = []) : Ended o (log ++ .began now number .finish beside :: es) :=
  ⟨log, now, number, beside, es, rfl, h, hes⟩

/-! ### Records read -/

variable {before after : List Entry} {now : Nat} {call : Call} {beside : List Nat} {chunk : String}

theorem call_mem_starts (h : .began now number call beside ∈ log) : call ∈ starts log :=
  List.mem_filterMap.2 ⟨_, h, rfl⟩

theorem lastChunk?_payload (o : Outcome) : lastChunk? (.write o.payload) = some o.payload :=
  if_neg o.payload_ne_blank

theorem lastChunk?_beat : lastChunk? (.write beatChunk) = none := by
  rw [lastChunk?, if_pos rfl]

theorem Unpaid.lastChunks (h : Unpaid log) : lastChunks log = [] := by
  refine List.filterMap_eq_nil_iff.2 fun call hc => ?_
  rw [h call hc, lastChunk?_beat]

theorem Unpaid.finish_not_mem (h : Unpaid log) : .finish ∉ starts log :=
  fun hc => nomatch h _ hc

theorem Paid.lastChunks (h : Paid o number log) : HeldReply.lastChunks log = [o.payload] := by
  obtain ⟨rest, before, now, beside, rfl, hb, hr⟩ := h
  rw [HeldReply.lastChunks, starts_append, starts_cons, hr, List.filterMap_append]
  rw [show (starts before).filterMap lastChunk? = [] from hb.lastChunks]
  simp [Entry.start?, lastChunk?_payload]

theorem Paid.finish_not_mem (h : Paid o number log) : .finish ∉ starts log := by
  obtain ⟨rest, before, now, beside, rfl, hb, hr⟩ := h
  rw [starts_append, starts_cons, hr]
  simp [Entry.start?, hb.finish_not_mem]

theorem Ended.lastChunks (h : Ended o log) : HeldReply.lastChunks log = [o.payload] := by
  obtain ⟨before, now, number, beside, rest, rfl, hl, hr⟩ := h
  obtain ⟨_, hp⟩ := hl.paid
  rw [HeldReply.lastChunks, starts_append, starts_cons, hr, List.filterMap_append]
  rw [show (starts before).filterMap lastChunk? = [o.payload] from hp.lastChunks]
  rfl

theorem Ended.count_finish (h : Ended o log) : (starts log).count .finish = 1 := by
  obtain ⟨before, now, number, beside, rest, rfl, hl, hr⟩ := h
  obtain ⟨_, hp⟩ := hl.paid
  rw [starts_append, starts_cons, hr, List.count_append]
  rw [List.count_eq_zero_of_not_mem hp.finish_not_mem]
  rfl

/-- Before the end, the last chunk was written. -/
theorem Ended.landed (h : Ended o (before ++ .began now number .finish beside :: after)) :
    Landed o before := by
  obtain ⟨before', now', number', beside', rest, hlog, hl, hr⟩ := h
  obtain ⟨_, hp⟩ := hl.paid
  have hbefore : .began now number .finish beside ∉ before' :=
    fun hm => hp.finish_not_mem (call_mem_starts hm)
  have hrest : .began now number .finish beside ∉ rest := by
    intro hm
    have := call_mem_starts hm
    rw [hr] at this
    cases this
  obtain ⟨rfl, -, -⟩ := (List.append_cons_inj_of_notMem hbefore hrest).1 hlog.symm
  exact hl

/-- Only the end begins after a last chunk that began after nothing but beats. -/
theorem Unpaid.starts_after {before' rest : List Entry} {e : Entry} (hb : Unpaid before')
    (hr : ∀ call ∈ starts rest, call = .finish) (hne : chunk ≠ beatChunk)
    (hlog : before ++ .began now number (.write chunk) beside :: after = before' ++ e :: rest) :
    ∀ call ∈ starts after, call = .finish := by
  have hbefore : .began now number (.write chunk) beside ∉ before' :=
    fun hm => hne (Call.write.inj (hb _ (call_mem_starts hm)))
  have hrest : .began now number (.write chunk) beside ∉ rest :=
    fun hm => nomatch hr _ (call_mem_starts hm)
  obtain ⟨-, -, rfl⟩ := (List.append_cons_inj_of_notMem hbefore hrest).1 hlog.symm
  exact hr

theorem Paid.starts_after (hne : chunk ≠ beatChunk) {n : Nat}
    (h : Paid o n (before ++ .began now number (.write chunk) beside :: after)) :
    ∀ call ∈ starts after, call = .finish := by
  obtain ⟨rest, before', now', beside', hlog, hb, hr⟩ := h
  refine hb.starts_after ?_ hne hlog
  rw [hr]
  exact fun _ hm => nomatch hm

theorem Ended.starts_after (hne : chunk ≠ beatChunk)
    (h : Ended o (before ++ .began now number (.write chunk) beside :: after)) :
    ∀ call ∈ starts after, call = .finish := by
  obtain ⟨before', now', number', beside', rest', hlog, ⟨_, rest, _, hp, -⟩, hr'⟩ := h
  obtain ⟨before'', now'', beside'', rfl, hb, hr⟩ := hp
  rw [List.append_assoc, List.cons_append] at hlog
  refine hb.starts_after ?_ hne hlog
  rw [starts_append, starts_cons, hr, hr']
  exact fun _ hm => List.mem_singleton.1 hm

end Records

/-! ### Records and closings -/

/-- Whether the closing did **not yet stop** the beat. -/
def Closing.isEarly : Closing → Bool
  | .absent | .fresh | .delayed .. | .waiting => true
  | _ => false

/-- Whether the closing did not begin, and may still begin, to **write the last chunk**. -/
def Closing.isUnpaid : Closing → Bool
  | .stopping .. => true
  | k => k.isEarly

/-- The outcome is there, and its last chunk began. -/
def HasPaid (outcome : Option Outcome) (log : List Entry) : Prop :=
  ∃ o, outcome = some o ∧ ((∃ number, Paid o number log) ∨ Ended o log)

/-- What a closing tells of **the record**, given the outcome that can be had. -/
def Closing.Fits (outcome : Option Outcome) (log : List Entry) : Closing → Prop
  | .absent | .fresh | .waiting | .over .discarded => Unpaid log
  | .delayed .. => False
  | .stopping _ held => Unpaid log ∧ ∀ o, held = some o → outcome = some o
  | .writing number => ∃ o, outcome = some o ∧ Paid o number log
  | .finishing _ => ∃ o, outcome = some o ∧ Ended o log
  | .over _ => HasPaid outcome log
  | .crashed => Unpaid log ∨ HasPaid outcome log

section Fits

variable {log es : List Entry} {outcome outcome' : Option Outcome}

theorem beatsBegun_append (hes : starts es = []) :
    beatsBegun (log ++ es) = beatsBegun log := by
  rw [beatsBegun, starts_append, hes, List.append_nil, beatsBegun]

theorem began_mem_append (hes : starts es = []) {now number : Nat} {call : Call}
    {beside : List Nat} (h : .began now number call beside ∈ log ++ es) :
    .began now number call beside ∈ log := by
  refine (List.mem_append.1 h).resolve_right fun hm => ?_
  have hm := call_mem_starts hm
  rw [hes] at hm
  cases hm

/-- Of the last entries only the first may tell of a beginning. -/
theorem began_mem_append_cons {e : Entry} (hes : starts es = []) {now number : Nat} {call : Call}
    {beside : List Nat} (h : .began now number call beside ∈ log ++ e :: es) :
    .began now number call beside ∈ log ∨ .began now number call beside = e := by
  rw [List.append_cons] at h
  have hm := began_mem_append hes h
  rwa [List.mem_append, List.mem_singleton] at hm

theorem HasPaid.mono (h : HasPaid outcome log)
    (ho : ∀ o, outcome = some o → outcome' = some o) (hes : starts es = []) :
    HasPaid outcome' (log ++ es) := by
  obtain ⟨o, hout, ⟨number, h⟩ | h⟩ := h
  · exact ⟨o, ho o hout, .inl ⟨number, h.append hes⟩⟩
  · exact ⟨o, ho o hout, .inr (h.append hes)⟩

/-- What a closing tells of the record holds on as long as no call begins. -/
theorem Closing.Fits.mono {k : Closing} (h : k.Fits outcome log)
    (ho : ∀ o, outcome = some o → outcome' = some o) (hes : starts es = []) :
    k.Fits outcome' (log ++ es) := by
  match k, h with
  | .absent, h | .fresh, h | .waiting, h | .over .discarded, h => exact Unpaid.append h hes
  | .stopping _ _, h => exact ⟨h.1.append hes, fun o hh => ho o (h.2 o hh)⟩
  | .writing _, ⟨o, hout, hp⟩ => exact ⟨o, ho o hout, hp.append hes⟩
  | .finishing _, ⟨o, hout, he⟩ => exact ⟨o, ho o hout, he.append hes⟩
  | .over .delivered, h | .over .writeFailed, h => exact HasPaid.mono h ho hes
  | .crashed, h => exact h.imp (fun h => h.append hes) fun h => h.mono ho hes

/-- Until the closing begins to write the last chunk, only beats began. -/
theorem Closing.Fits.unpaid {k : Closing} (h : k.Fits outcome log) (hk : k.isUnpaid = true) :
    Unpaid log := by
  match k, h with
  | .absent, h | .fresh, h | .waiting, h => exact h
  | .stopping _ _, h => exact h.1

/-- **Three parts at most**: only beats began, or the last chunk of the outcome did too, and the end
perhaps. -/
theorem Closing.Fits.unpaid_or_hasPaid {k : Closing} (h : k.Fits outcome log) :
    Unpaid log ∨ HasPaid outcome log := by
  match k, h with
  | .absent, h | .fresh, h | .waiting, h | .over .discarded, h => exact .inl h
  | .stopping _ _, h => exact .inl h.1
  | .writing number, ⟨o, ho, hp⟩ => exact .inr ⟨o, ho, .inl ⟨number, hp⟩⟩
  | .finishing _, ⟨o, ho, he⟩ => exact .inr ⟨o, ho, .inr he⟩
  | .over .delivered, h | .over .writeFailed, h => exact .inr h
  | .crashed, h => exact h

end Fits

end HeldReply
