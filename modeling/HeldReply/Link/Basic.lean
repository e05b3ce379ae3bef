import HeldReply.Failure

/-!
# Links

A link is one end of a held reply: chunks are written to it, it is finished in good order or closed
in disorder, and it tells when it is closed.  A call may take time; it is then in flight under a
ticket until asking for it gives the answer.  Time is counted in milliseconds.

* `Call`, `Reply`, `Started` — the calls that may take time, their answers, and what comes of
  starting one;
* `Link` — what a link can do.
-/

namespace HeldReply

/-- A **call** that may take time. -/
inductive Call where
  | write (chunk : String)
  /-- End the reply in good order. -/
  | finish
  deriving DecidableEq, Repr, Inhabited

/-- The **answer** to a call. -/
inductive Reply where
  | done
  | refused (f : Failure)
  /-- The call crashes whoever made it. -/
  | crashed (c : Crash)
  deriving DecidableEq, Repr, Inhabited

/-- What comes of **starting** a call. -/
inductive Started where
  | answered (r : Reply)
  /-- The call is in flight, and asked for by this ticket. -/
  | inFlight (ticket : Nat)
  deriving DecidableEq, Repr, Inhabited

/-- What a **link** can do. -/
class Link (σ : Type) where
  /-- Start a call at the given time. -/
  start : Nat → Call → σ → σ × Started
  /-- Ask at the given time for a call in flight; `none` if it is still in flight. -/
  poll : Nat → Nat → σ → σ × Option Reply
  /-- Whether asking at the given time gives an answer. -/
  isReady : Nat → Nat → σ → Bool
  /-- When a call in flight is over at the latest, if it is known. -/
  dueAt : Nat → σ → Option Nat
  /-- Close in disorder at the given time; the second component is the crash of whoever closes it. -/
  close : Nat → σ → σ × Option Crash
  /-- Whether it is closed, however it came about. -/
  isClosed : σ → Bool
  /-- Whether those who wait for it to be closed are told. -/
  tellsClosed : σ → Bool

/-- The answer when a call is over at once. -/
def Started.reply? : Started → Option Reply
  | .answered r => some r
  | .inFlight _ => none

end HeldReply
