import HeldReply.Link.Basic

/-!
# Links with a record

A link of any kind can be had with a record of what was done with it: which calls began, beside which
calls that were still in flight, which answers were fetched, and when it was closed.  The record does
not change what the link does.

* `Recorded.Entry`, `Recorded.Flight`, `Recorded` — what is recorded, and a link with its record;
* `Recorded.unsettled` — the calls for which asking gives no answer yet;
* `Recorded.closings` — what closing the link leaves in the record;
* the instance of `Link`, with `Recorded.start_cases` and `Recorded.poll_cases` — **everything that a
  call and a question can do**;
* `Recorded.starts` — the calls that began, in order.
-/

namespace HeldReply

/-- What is **recorded** of a link, calls going by numbers. -/
inductive Recorded.Entry where
  /-- A call began beside those in flight. -/
  | began (now number : Nat) (call : Call) (beside : List Nat)
  | answered (now number : Nat) (r : Reply)
  /-- The link was closed in disorder, and closing it crashed whoever did. -/
  | closed (now : Nat) (crash : Option Crash)
  deriving DecidableEq, Repr

/-- A call whose answer was **not fetched** yet. -/
structure Recorded.Flight where
  number : Nat
  call : Call
  beganAt : Nat
  /-- What the link itself asks for to tell the answer. -/
  ticket : Nat
  deriving DecidableEq, Repr

/-- A link with its **record**. -/
structure Recorded (σ : Type) where
  link : σ
  log : List Recorded.Entry := []
  flights : List Recorded.Flight := []

namespace Recorded

variable {σ : Type} [Link σ]

/-- The calls that are **in flight** at a time: asking for them gives no answer yet. -/
def unsettled (now : Nat) (l : Recorded σ) : List Flight :=
  l.flights.filter fun f => !Link.isReady now f.ticket l.link

/-- Start a call, under a number that no call had before. -/
def start (now : Nat) (call : Call) (l : Recorded σ) : Recorded σ × Started :=
  let number := l.log.length
  let began := Entry.began now number call ((l.unsettled now).map Flight.number)
  match Link.start now call l.link with
  | (link, .answered r) =>
    ({ l with link, log := l.log ++ [began, .answered now number r] }, .answered r)
  | (link, .inFlight ticket) =>
    ({ l with
        link, log := l.log ++ [began]
        flights := l.flights ++ [⟨number, call, now, ticket⟩] }, .inFlight number)

/-- The call under a number whose answer was not fetched yet. -/
def flight? (l : Recorded σ) (number : Nat) : Option Flight :=
  l.flights.find? fun f => f.number == number

/-- Ask for a call. -/
def poll (now number : Nat) (l : Recorded σ) : Recorded σ × Option Reply :=
  match l.flight? number with
  | none => (l, none)
  | some f =>
    match Link.poll now f.ticket l.link with
    | (link, some r) =>
      ({ link, log := l.log ++ [.answered now number r]
         flights := l.flights.filter fun f => f.number != number }, some r)
    | (link, none) => ({ l with link }, none)

/-- Close in disorder. -/
def close (now : Nat) (l : Recorded σ) : Recorded σ × Option Crash :=
  let (link, crash) := Link.close now l.link
  ({ l with link, log := l.log ++ [.closed now crash] }, crash)

instance : Link (Recorded σ) where
  start := start
  poll := poll
  isReady now number l := (l.flight? number).any fun f => Link.isReady now f.ticket l.link
  dueAt number l := (l.flight? number).bind fun f => Link.dueAt f.ticket l.link
  close := close
  isClosed l := Link.isClosed l.link
  tellsClosed l := Link.tellsClosed l.link

/-- **Everything that starting a call can do.** -/
theorem start_cases (now : Nat) (call : Call) (l : Recorded σ) :
    (∃ (link : σ) (r : Reply), start now call l =
      ({ l with
          link
          log := l.log ++ [.began now l.log.length call ((l.unsettled now).map Flight.number),
            .answered now l.log.length r] }, .answered r)) ∨
    (∃ (link : σ) (ticket : Nat), start now call l =
      ({ l with
          link
          log := l.log ++ [.began now l.log.length call ((l.unsettled now).map Flight.number)]
          flights := l.flights ++ [⟨l.log.length, call, now, ticket⟩] },
        .inFlight l.log.length)) := by
  rcases hs : Link.start now call l.link with ⟨link, r | ticket⟩
  · exact .inl ⟨link, r, by simp [start, hs]⟩
  · exact .inr ⟨link, ticket, by simp [start, hs]⟩

/-- **Everything that asking for a call can do.** -/
theorem poll_cases (now number : Nat) (l : Recorded σ) :
    (∃ link : σ, poll now number l = ({ l with link }, none)) ∨
    (∃ (link : σ) (r : Reply), poll now number l =
      ({ link, log := l.log ++ [.answered now number r]
         flights := l.flights.filter fun f => f.number != number }, some r)) := by
  cases hf : l.flight? number with
  | none => exact .inl ⟨l.link, by simp [poll, hf]⟩
  | some f =>
    rcases hp : Link.poll now f.ticket l.link with ⟨link, _ | r⟩
    · exact .inl ⟨link, by simp [poll, hf, hp]⟩
    · exact .inr ⟨link, r, by simp [poll, hf, hp]⟩

/-! ### Entries of closings -/

/-- What is recorded when the link was **closed** so often. -/
def closings (ts : List (Nat × Option Crash)) : List Entry :=
  ts.map fun t => .closed t.1 t.2

@[simp] theorem closings_nil : closings [] = [] := rfl

theorem closings_concat (ts : List (Nat × Option Crash)) (now : Nat) (crash : Option Crash) :
    closings (ts ++ [(now, crash)]) = closings ts ++ [.closed now crash] :=
  List.map_append

@[simp] theorem began_notMem_closings (ts : List (Nat × Option Crash)) (now number : Nat)
    (call : Call) (beside : List Nat) : Entry.began now number call beside ∉ closings ts := by
  simp [closings]

@[simp] theorem answered_notMem_closings (ts : List (Nat × Option Crash)) (now number : Nat)
    (r : Reply) : Entry.answered now number r ∉ closings ts := by
  simp [closings]

/-! ### The calls that began -/

/-- The call that an entry tells the beginning of. -/
def Entry.start? : Entry → Option Call
  | .began _ _ call _ => some call
  | _ => none

/-- **The calls that began**, in order. -/
def starts (log : List Entry) : List Call :=
  log.filterMap Entry.start?

@[simp] theorem starts_nil : starts [] = [] := rfl

@[simp] theorem starts_append (l k : List Entry) : starts (l ++ k) = starts l ++ starts k :=
  List.filterMap_append

@[simp] theorem starts_cons (e : Entry) (l : List Entry) :
    starts (e :: l) = e.start?.toList ++ starts l := by
  cases e <;> rfl

@[simp] theorem starts_closings (ts : List (Nat × Option Crash)) : starts (closings ts) = [] := by
  simp [starts, closings, Entry.start?]

end Recorded

end HeldReply
