import HeldReply.Link.Channel

/-!
# Channels under a script

A script uses a channel step by step.  Beside its steps, writes may go on in the background, and
others may wait for the channel to be opened or closed.  The clock stands still within a step,
unless the script itself sleeps or waits for its own write.

* `ChannelScript` — the channel with the clock, what goes on beside the steps, and what of it is
  over;
* `ChannelScript.settle`, `ChannelScript.advance` — what happens by itself, now and up to a time;
* `ChannelScript.write`, `ChannelScript.writeBeside`, `ChannelScript.await`, `ChannelScript.sleep`,
  `ChannelScript.pull` — the steps that do not only call the channel.
-/

namespace HeldReply

/-- What is **waited for** beside the steps. -/
inductive ChannelScript.Latch where
  | opened
  | closed
  deriving DecidableEq, Repr, Inhabited

/-- What is **over** beside the steps. -/
inductive ChannelScript.Done where
  | wrote (id : String) (reply : Reply)
  | reached (latch : ChannelScript.Latch)
  deriving Repr, Inhabited

/-- A channel under a **script**. -/
structure ChannelScript where
  channel : Channel
  now : Nat := 0
  /-- The writes in the background, by ticket, in the order in which they began. -/
  writes : List (String × Nat) := []
  /-- What is waited for. -/
  awaited : List ChannelScript.Latch := []
  /-- What is over, with the times. -/
  done : List (Nat × ChannelScript.Done) := []
  deriving Repr, Inhabited

namespace ChannelScript

/-- Whether what is waited for has come. -/
def hasCome (c : Channel) : Latch → Bool
  | .opened => c.opened
  | .closed => c.closed

/-- One thing more is over. -/
def finish (s : ChannelScript) (d : Done) : ChannelScript :=
  { s with done := s.done ++ [(s.now, d)] }

/-- What was waited for and has come is over. -/
def settleLatch (s : ChannelScript) (latch : Latch) : ChannelScript :=
  if hasCome s.channel latch then
    (s.awaited.filter (· == latch)).foldl (fun s l => s.finish (.reached l))
      { s with awaited := s.awaited.filter (· != latch) }
  else s

/-- Ask for a write in the background. -/
def settleWrite (s : ChannelScript) (w : String × Nat) : ChannelScript :=
  match s.channel.pollWrite s.now w.2 with
  | (channel, some reply) =>
    { s with channel, writes := s.writes.filter (·.2 != w.2) }.finish (.wrote w.1 reply)
  | (channel, none) => { s with channel }

/-- **What happens by itself** at this time: those who wait for the opening are told first, then the
writes go on, and last those who wait for the closing are told. -/
def settle (s : ChannelScript) : ChannelScript :=
  let s := s.settleLatch .opened
  (s.writes.foldl settleWrite s).settleLatch .closed

/-- **What happens by itself** up to a time: writes give up when their time comes. -/
def advance (s : ChannelScript) (goal : Nat) : ChannelScript :=
  let due (s : ChannelScript) (w : String × Nat) :=
    (s.channel.waiting? w.2).map Channel.Waiting.deadline
  let s := s.writes.foldl (fun s w =>
    match due s w with
    | some t => if t ≤ goal then { s with now := max s.now t }.settle else s
    | none => s) s
  { s with now := max s.now goal }.settle

/-- A **write** of the script itself, which waits for its end. -/
def write (s : ChannelScript) (chunk : String) : ChannelScript × Reply :=
  match s.channel.startWrite s.now chunk with
  | (channel, .answered reply) => ({ s with channel }, reply)
  | (channel, .inFlight ticket) =>
    let goal := ((channel.waiting? ticket).map Channel.Waiting.deadline).getD s.now
    let s := { s with channel }.advance goal
    match s.channel.pollWrite s.now ticket with
    | (channel, some reply) => ({ s with channel }, reply)
    | (channel, none) => ({ s with channel }, .refused s.channel.timeoutFailure)

/-- Several writes one after another; the answer to the last one, if there is one. -/
def writeAll (s : ChannelScript) (chunk : String) : Nat → ChannelScript × Option Reply
  | 0 => (s, none)
  | 1 =>
    let (s, reply) := s.write chunk
    (s, some reply)
  | n + 2 => (s.write chunk).1.writeAll chunk (n + 1)

/-- A **write beside** the steps. -/
def writeBeside (s : ChannelScript) (id chunk : String) : ChannelScript :=
  match s.channel.startWrite s.now chunk with
  | (channel, .answered reply) => { s with channel }.finish (.wrote id reply)
  | (channel, .inFlight ticket) => { s with channel, writes := s.writes ++ [(id, ticket)] }

/-- **Wait** beside the steps. -/
def await (s : ChannelScript) (latch : Latch) : ChannelScript :=
  { s with awaited := s.awaited ++ [latch] }

/-- **Sleep.** -/
def sleep (s : ChannelScript) (ms : Nat) : ChannelScript :=
  s.advance ((Span.ofMillis ms).restUntil s.now)

/-- How often a script gets something by pulling in one step; more often it gets nothing, whatever
there is. -/
def allowance : Nat := 128

/-- Pull so often, and get something so often at most. -/
def pullWithin (s : ChannelScript) (allowed : Nat) : Nat → ChannelScript × List Pull
  | 0 => (s, [])
  | n + 1 =>
    match allowed with
    | 0 => (s, List.replicate (n + 1) Pull.pending)
    | left + 1 =>
      match s.channel.pull with
      | (channel, .pending) => ({ s with channel }, List.replicate (n + 1) Pull.pending)
      | (channel, p) =>
        let (s, ps) := { s with channel }.pullWithin left n
        (s, p :: ps)

/-- **Pull** so often. -/
def pull (s : ChannelScript) (times : Nat) : ChannelScript × List Pull :=
  s.pullWithin allowance times

/-- What is over so far, and the script without it. -/
def takeDone (s : ChannelScript) : List (Nat × Done) × ChannelScript :=
  (s.done, { s with done := [] })

end ChannelScript

end HeldReply
