import HeldReply.Admission
import HeldReply.Handler.Basic
import HeldReply.Http.Request
import HeldReply.Http.Head
import HeldReply.Json.Reader

/-!
# Reception

A request is accepted or refused before anything of the reply is sent.  First it is judged without
its body.  Then the body is read, which must be JSON and may ask for another time between two beats,
and the handler of the path makes the request ready.

* `Accepted` — what is kept of a request that is accepted;
* `intervalFor` — the time between two beats that a request asks for;
* `accept` — what is done once the body may be read;
* `Decision`, `receive` — the whole decision, with whether the body was read;
* `Decision.head` — the head of the reply.
-/

namespace HeldReply

/-- What is kept of a request that is **accepted**. -/
structure Accepted where
  /-- The request, ready to be executed. -/
  prepared : Prepared
  /-- The time between two beats. -/
  interval : Span

/-- The member of a request that asks for a time between two beats, in milliseconds. -/
def intervalMember : String := "heartbeatMillis"

/-- The **time between two beats** for a request: what it asks for, or else what the settings
say. -/
def intervalFor (s : Settings) (request : Json) : Except Failure Span :=
  match request.get? intervalMember with
  | none | some .null => .ok s.heartbeat
  | some v =>
    match v.int? with
    | some i =>
      if 0 < i ∧ i < 0x10000000000000000 then .ok (.ofMillis i.toNat)
      else .error (.badRequest (intervalMember ++ " 必须是正整数: " ++ v.compact))
    | none => .error (.badRequest (intervalMember ++ " 必须是正整数: " ++ v.compact))

/-- The **JSON of a body**. -/
def Http.Body.json (b : Http.Body) : Except Failure Json :=
  match b.read with
  | .error fault => .error (.badRequest ("读取请求体失败: " ++ fault))
  | .ok bytes =>
    match Json.readBytes bytes with
    | some v => .ok v
    | none => .error (.badRequest "请求体不是合法的 JSON")

/-- **Accept** a request whose body may be read. -/
def accept (s : Settings) (routes : Routes Handler) (r : Http.Request) :
    Except Failure Accepted := do
  let request ← r.body.json
  let interval ← intervalFor s request
  let (name, handler) ← routes.lookup r.path
  let prepared ← handler.prepare name request
  return { prepared, interval }

/-- What was **decided** on a request. -/
structure Decision where
  result : Except Failure Accepted
  /-- The body was read. -/
  bodyRead : Bool

/-- **Decide** on a request; a request that may not go on is refused without a look at its body. -/
def receive (s : Settings) (routes : Routes Handler) (r : Http.Request) : Decision :=
  match (judge s routes r.method r.path r.credential).toResult r.path with
  | .error f => { result := .error f, bodyRead := false }
  | .ok () => { result := accept s routes r, bodyRead := true }

namespace Decision

/-- Whether the request was accepted. -/
def isAccepted (d : Decision) : Bool :=
  match d.result with
  | .ok _ => true
  | .error _ => false

/-- The **head of the reply**, as of the given date. -/
def head (d : Decision) (date : String) : Http.Head :=
  match d.result with
  | .ok _ => .held date
  | .error f => .bare f.status

end Decision

end HeldReply
