import HeldReply.Link.Basic
import HeldReply.Span

/-!
# Channels

The link of a real reply is a channel with a bounded buffer.  One side writes frames into it, and
the body of the reply takes them out, as fast as the client reads.  A write that finds the buffer
full waits for its turn, first come, first served, but not longer than a given time.  The body ends
when nobody can write any more: cleanly after a good end, after an abort frame otherwise.

* `Frame`, `Pull` — what lies in the buffer, and what the body gets when it pulls;
* `Channel` — the channel, with the writes that wait;
* `Channel.startWrite`, `Channel.pollWrite`, `Channel.finish`, `Channel.close` — the writing side;
* `Channel.pull`, `Channel.dropBody` — the body;
* the instance of `Link`.
-/

namespace HeldReply

/-- What lies in the **buffer**. -/
inductive Frame where
  | data (chunk : String)
  /-- The reply was cut off. -/
  | abort
  deriving DecidableEq, Repr, Inhabited

/-- What the body **gets** when it pulls. -/
inductive Pull where
  | frame (f : Frame)
  /-- There will be no frame any more. -/
  | finished
  /-- There is no frame yet. -/
  | pending
  deriving DecidableEq, Repr, Inhabited

/-- A **write that waits**. -/
structure Channel.Waiting where
  ticket : Nat
  chunk : String
  /-- When it gives up. -/
  deadline : Nat
  /-- A place in the buffer is kept for it. -/
  granted : Bool := false
  deriving DecidableEq, Repr, Inhabited

/-- How many frames the buffer holds. -/
def Channel.capacity : Nat := 16

/-- A **channel**. -/
structure Channel where
  /-- How long a write waits at most. -/
  timeout : Span
  /-- The writing side is neither finished nor closed. -/
  writable : Bool := true
  /-- The body is still there. -/
  hasBody : Bool := true
  /-- The body pulled at least once. -/
  opened : Bool := false
  /-- Those who wait for the channel to be closed are told. -/
  closed : Bool := false
  /-- The places in the buffer that are neither taken nor kept for a write. -/
  free : Nat := Channel.capacity
  buffer : List Frame := []
  waiting : List Channel.Waiting := []
  nextTicket : Nat := 0
  deriving Repr, Inhabited

namespace Channel

/-- The failure of a write after the end. -/
def endedFailure : Failure := .transport "连接已关闭"

/-- The failure of a write to a body that is gone. -/
def goneFailure : Failure := .transport "对端已断开"

/-- The failure of a write that waited too long. -/
def timeoutFailure (c : Channel) : Failure :=
  .transport ("写入超时 (" ++ c.timeout.toText ++ ")")

/-- The failure of an end after the end. -/
def unfinishedFailure : Failure := .transport "连接已关闭，无法结束响应"

/-- What the client's side is told of a cut-off reply. -/
def abortText : String := "tunnel session closed"

/-- A write that finds the body gone: the channel counts as closed. -/
def loseBody (c : Channel) : Channel × Reply :=
  ({ c with closed := true }, .refused goneFailure)

/-- **Start a write.** -/
def startWrite (c : Channel) (now : Nat) (chunk : String) : Channel × Started :=
  if !c.writable then (c, .answered (.refused endedFailure))
  else if !c.hasBody then
    let (c, reply) := c.loseBody
    (c, .answered reply)
  else if 0 < c.free then
    ({ c with free := c.free - 1, buffer := c.buffer ++ [.data chunk] }, .answered .done)
  else if c.timeout.isZero then (c, .answered (.refused c.timeoutFailure))
  else
    let w := { ticket := c.nextTicket, chunk, deadline := c.timeout.waitUntil now }
    ({ c with waiting := c.waiting ++ [w], nextTicket := c.nextTicket + 1 },
      .inFlight c.nextTicket)

/-- The write that waits under a ticket. -/
def waiting? (c : Channel) (ticket : Nat) : Option Waiting :=
  c.waiting.find? fun w => w.ticket == ticket

/-- A write waits no more. -/
def forget (c : Channel) (ticket : Nat) : Channel :=
  { c with waiting := c.waiting.filter fun w => w.ticket != ticket }

/-- **Ask for a write** that waits.  The body being gone counts first, then a place that is kept,
then the time. -/
def pollWrite (now ticket : Nat) (c : Channel) : Channel × Option Reply :=
  match c.waiting? ticket with
  | none => (c, none)
  | some w =>
    if !c.hasBody then
      let (c, reply) := (c.forget ticket).loseBody
      (c, some reply)
    else if w.granted then
      ({ c.forget ticket with buffer := c.buffer ++ [.data w.chunk] }, some .done)
    else if w.deadline ≤ now then (c.forget ticket, some (.refused c.timeoutFailure))
    else (c, none)

/-- Whether asking for a write gives an answer. -/
def isReady (now ticket : Nat) (c : Channel) : Bool :=
  (c.waiting? ticket).any fun w => !c.hasBody || w.granted || w.deadline ≤ now

/-- **End in good order.** -/
def finish (c : Channel) : Channel × Reply :=
  if c.writable && c.hasBody then ({ c with writable := false }, .done)
  else ({ c with writable := false }, .refused unfinishedFailure)

/-- **Close in disorder**: an abort frame goes into the buffer if there is a place for it. -/
def close (c : Channel) : Channel :=
  let c :=
    if c.writable && c.hasBody && 0 < c.free then
      { c with free := c.free - 1, buffer := c.buffer ++ [.abort] }
    else c
  { c with writable := false, closed := true }

/-- Whether the channel is closed, however it came about. -/
def isClosed (c : Channel) : Bool :=
  c.closed || !c.writable || !c.hasBody

/-- Keep a place for the first write that has none. -/
def grantFirst : List Waiting → Option (List Waiting)
  | [] => none
  | w :: ws =>
    if w.granted then (grantFirst ws).map (w :: ·)
    else some ({ w with granted := true } :: ws)

/-- **A place in the buffer** becomes free: it is kept for a write that waits, if there is one. -/
def giveBack (c : Channel) : Channel :=
  match grantFirst c.waiting with
  | some waiting => { c with waiting }
  | none => { c with free := c.free + 1 }

/-- Whether nobody can write any more. -/
def isOver (c : Channel) : Bool :=
  !c.writable && c.waiting.isEmpty

/-- The body **pulls**; its first pull opens the channel. -/
def pull (c : Channel) : Channel × Pull :=
  let c := { c with opened := true }
  match c.buffer with
  | f :: rest => ({ c with buffer := rest }.giveBack, .frame f)
  | [] => (c, if c.isOver then .finished else .pending)

/-- Whether a pull gives something. -/
def canPull (c : Channel) : Bool :=
  !c.buffer.isEmpty || c.isOver

/-- The body **goes away**. -/
def dropBody (c : Channel) : Channel :=
  { c with hasBody := false, closed := true, buffer := [] }

/-- Start a call. -/
def start (now : Nat) (call : Call) (c : Channel) : Channel × Started :=
  match call with
  | .write chunk => c.startWrite now chunk
  | .finish =>
    let (c, reply) := c.finish
    (c, .answered reply)

instance : Link Channel where
  start := start
  poll := pollWrite
  isReady := isReady
  dueAt ticket c := (c.waiting? ticket).map Waiting.deadline
  close _ c := (c.close, none)
  isClosed := isClosed
  tellsClosed := closed

end Channel

end HeldReply
