/-!
# Failures

Everything that can go wrong, as one type of causes.  A failure before the head of a reply is sent
decides the status of the reply; a later one only decides what the last chunk says.

* `Failure` — the causes;
* `Failure.message` — the wording;
* `Failure.status` — the status of a reply that is refused for the cause;
* `Crash`, `Crash.message` — what a crashed piece of a handler leaves behind, and its text;
* `exists_of_bind_eq_ok` — what succeeds in two parts succeeds in each.
-/

namespace HeldReply

/-- Why something **failed**. -/
inductive Failure where
  /-- The settings, a handler's name or the worker pool do not allow it. -/
  | misconfigured (text : String)
  /-- A handler of that name is registered already. -/
  | nameTaken (name : String)
  /-- No handler answers the path. -/
  | noHandler (path : String)
  /-- The secret is missing or wrong; which of the two is not told. -/
  | unauthorized
  /-- The body of the request, or the parameters in it, cannot be used. -/
  | badRequest (text : String)
  /-- The handler gave no answer. -/
  | handlerFailed (text : String)
  /-- A chunk could not be written. -/
  | transport (text : String)
  /-- The operating system refused. -/
  | io (text : String)
  /-- The peer does not keep to the protocol, or cannot be reached. -/
  | http (text : String)
  /-- A JSON value does not have the expected shape. -/
  | badJson (text : String)
  /-- A TOML document cannot be read, or holds a value of the wrong kind; only the latter is
  worded. -/
  | badToml (reason : Option String)
  deriving DecidableEq, Repr, Inhabited

namespace Failure

/-- The **wording** of a failure. -/
def message : Failure → String
  | .misconfigured text => "配置错误: " ++ text
  | .nameTaken name => "处理器已注册: " ++ name
  | .noHandler path => "未找到处理器: " ++ path
  | .unauthorized => "未授权的请求"
  | .badRequest text => "请求错误: " ++ text
  | .handlerFailed text => "处理器执行失败: " ++ text
  | .transport text => "传输错误: " ++ text
  | .io text => "IO错误: " ++ text
  | .http text => "HTTP错误: " ++ text
  | .badJson text => "JSON错误: " ++ text
  | .badToml reason => "TOML解析错误: " ++ reason.getD ""

/-- The **status** of a reply that is refused for this cause.  A missing handler and a wrong secret
look the same from outside. -/
def status : Failure → Nat
  | .noHandler _ | .unauthorized => 404
  | .badRequest _ => 400
  | _ => 500

end Failure

/-- What a piece of a handler leaves behind when it **crashes**: a text, or something else. -/
inductive Crash where
  | text (s : String)
  | other
  deriving DecidableEq, Repr, Inhabited

/-- The text of a crash. -/
def Crash.message : Crash → String
  | .text s => s
  | .other => "unknown panic"

/-- What succeeds in two parts **succeeds in each**. -/
theorem exists_of_bind_eq_ok {ε α β : Type} {x : Except ε α} {f : α → Except ε β} {b : β}
    (h : x >>= f = .ok b) : ∃ a, x = .ok a ∧ f a = .ok b := by
  cases x with
  | error e => cases h
  | ok a => exact ⟨a, rfl, h⟩

end HeldReply
