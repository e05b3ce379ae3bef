import HeldReply.Failure
import HeldReply.Json.Printer

/-!
# Outcomes and their payload

A handler ends with a value or with a failure.  The client gets the value as compact JSON; of a
failure it learns only that there was one.

* `Outcome` — what a handler ends with;
* `Outcome.unanswered` — the outcome of a handler that let go of its callbacks without an answer;
* `errorDocument`, `Outcome.payload` — the last chunk of the reply.
-/

namespace HeldReply

/-- What a handler **ends with**. -/
abbrev Outcome := Except Failure Json

/-- What is sent in place of a failure. -/
def errorDocument : Json :=
  .object [("status", .text "error")]

namespace Outcome

/-- The outcome of a handler that **let go** of all its callbacks without an answer. -/
def unanswered : Outcome :=
  .error (.handlerFailed "结果回调在交付前被丢弃")

/-- What the client gets to see of an outcome. -/
def document : Outcome → Json
  | .ok v => v
  | .error _ => errorDocument

/-- The **last chunk** of the reply. -/
def payload (o : Outcome) : String :=
  o.document.compact

end Outcome

end HeldReply
