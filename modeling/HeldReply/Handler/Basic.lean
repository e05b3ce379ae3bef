import HeldReply.Handler.Program

/-!
# Handlers

A handler reads its parameters from the JSON of a request.  If it can, the request is ready to be
executed; if it cannot, the request is refused as a bad one, whatever the handler says the reason
is.

* `Reading` — what comes of a handler's attempt to read its parameters;
* `Handler` — what a handler does with a request;
* `Prepared`, `Handler.prepare` — a request that is ready to be executed, and how it is made ready.
-/

namespace HeldReply

/-- What comes of an attempt to **read** something from a request. -/
inductive Reading (α : Type) where
  | read (a : α)
  | refused (f : Failure)
  | crashed (c : Crash)
  deriving Repr

/-- Go on with what was read. -/
def Reading.map {α β : Type} (f : α → β) : Reading α → Reading β
  | .read a => .read (f a)
  | .refused e => .refused e
  | .crashed c => .crashed c

/-- A **handler**: from the JSON of a request to a program. -/
abbrev Handler := Json → Reading Program

/-- A request that is **ready** to be executed. -/
structure Prepared where
  /-- The name of its handler. -/
  name : String
  program : Program

/-- A request that is ready, as a diagnostic shows it. -/
def Prepared.shown (p : Prepared) : String :=
  "ParsedRequest(" ++ p.name ++ ")"

/-- **Make a request ready** for the handler with the given name.  A failure of the kind
`badRequest` stands as it is, and every other reason is named in one. -/
def Handler.prepare (h : Handler) (name : String) (request : Json) : Except Failure Prepared :=
  match h request with
  | .read program => .ok { name, program }
  | .refused (.badRequest text) => .error (.badRequest text)
  | .refused f => .error (.badRequest (name ++ " 请求参数无效: " ++ f.message))
  | .crashed c => .error (.badRequest ("解析 " ++ name ++ " 请求时发生 panic: " ++ c.message))

end HeldReply
