import HeldReply.Handler.Basic
import HeldReply.Handler.Parameters

/-!
# Ready-made handlers

Handlers that are put together from a rule for reading the request and a rule for the work.  They
try out every way in which a handler can behave: it answers at once, later, twice or never, fails,
crashes, lets go of its callback, or reaches for its scope.

* `ReadRule`, `ReadRule.read` — how the parameters are read;
* `WorkRule`, `WorkRule.program` — what is done with them;
* `Stock.handler` — the handler of two rules;
* `Stock.witness` — a clean-up that tells what it finds.
-/

namespace HeldReply

/-- Two whole numbers. -/
def Shape.add : Shape := ⟨"Add", [("a", .signed), ("b", .signed)]⟩

/-- A number of milliseconds. -/
def Shape.sleep : Shape := ⟨"Sleep", [("millis", .unsigned)]⟩

/-- **How the parameters are read.** -/
inductive ReadRule where
  /-- The request itself. -/
  | whole
  | record (shape : Shape)
  | crash (c : Crash)
  | refuse (f : Failure)
  /-- The request itself, unless it is an object with a member `reject`. -/
  | unlessReject

/-- Read a request by a rule. -/
def ReadRule.read : ReadRule → Json → Reading Json
  | .whole, request => .read request
  | .record shape, request =>
    match shape.read request with
    | .ok v => .read v
    | .error fault => .refused (.badJson fault.message)
  | .crash c, _ => .crashed c
  | .refuse f, _ => .refused f
  | .unlessReject, request =>
    if (request.get? "reject").isSome then .refused (.badRequest "rejected") else .read request

/-- **What is done** with the parameters. -/
inductive WorkRule where
  /-- Answer the parameters. -/
  | echo
  /-- Answer the sum of `a` and `b`. -/
  | sum
  | value (v : Json)
  | deliver (o : Outcome)
  | crash (c : Crash)
  /-- Answer the parameters, then crash. -/
  | echoCrash (c : Crash)
  /-- Let go of the callback. -/
  | drop
  /-- Answer three times. -/
  | thrice
  /-- Answer what the scope looks like. -/
  | look
  /-- Answer only when the scope is disposed of. -/
  | hang
  /-- Dispose of the scope, then answer the parameters. -/
  | dispose
  /-- Keep the callback for later. -/
  | later

namespace WorkRule

/-- Make an answer and return with a remark. -/
def answer (o : Outcome) (remark : String) : Program :=
  .deliver o fun _ => .finish remark

/-- The sum of the members `a` and `b`, if they are numbers of 64 bits with a sign and the sum is
one too. -/
def total (params : Json) : Outcome :=
  let term (key : String) := (params.get? key).bind fun v => v.int?.filter Width.signed.holds
  match term "a", term "b" with
  | some a, some b =>
    if Width.signed.holds (a + b) then .ok (.ofMembers [("sum", .ofInt (a + b))])
    else .error (.handlerFailed "overflow")
  | _, _ => .error (.handlerFailed "overflow")

/-- The scope as a value. -/
def seen (v : View) : Json :=
  .ofMembers [("label", .text v.label), ("disposed", .bool v.disposed),
    ("pending", .ofNat v.pending)]

/-- A truth value in a remark. -/
def word (b : Bool) : String := if b then "true" else "false"

/-- The **program** of a rule, which returns with the given remark. -/
def program (rule : WorkRule) (remark : String) (params : Json) : Program :=
  match rule with
  | .echo => answer (.ok params) remark
  | .sum => answer (total params) remark
  | .value v => answer (.ok v) remark
  | .deliver o => answer o remark
  | .crash c => .crash c
  | .echoCrash c => .deliver (.ok params) fun _ => .crash c
  | .drop => .finish remark
  | .later => .keep (.finish remark)
  | .thrice =>
    .deliver (.ok (.ofMembers [("first", params)])) fun first =>
      .deliver (.ok (.text "second")) fun second =>
        .deliver (.error (.handlerFailed "third")) fun third =>
          .finish (remark ++ ":" ++ word first ++ "," ++ word second ++ "," ++ word third)
  | .look => .inspect fun v => answer (.ok (seen v)) remark
  | .hang =>
    .keep (.register (.deliver (.ok (.text "too late")) fun _ => .release (.finish ""))
      fun _ => .finish remark)
  | .dispose => .dispose fun _ => answer (.ok params) remark

end WorkRule

/-- A clean-up that **notes** under a name what it finds, and may then crash. -/
def Stock.witness (name : String) (crashes : Bool) : Program :=
  .inspect fun v =>
    .note
      (name ++ " cancelled=" ++ WorkRule.word v.cancelled ++ " closed=" ++ WorkRule.word v.closed)
      (if crashes then .crash (.text "cleanup panicked") else .finish "")

/-- The **handler** of two rules. -/
def Stock.handler (read : ReadRule) (work : WorkRule) (remark : String) : Handler :=
  fun request => (read.read request).map (work.program remark)

end HeldReply
