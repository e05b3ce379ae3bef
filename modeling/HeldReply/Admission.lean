import HeldReply.Routes
import HeldReply.Settings.Basic

/-!
# Admission

Before the body of a request is read, it is decided whether the request may go on.  It may if the
client proves that it knows the secret, if its path lies under the mount path and has a handler, and
if its method is `POST`.  A refusal does not tell which of these failed.

* `Verdict` — the three outcomes, `Verdict.toResult` with the failure of a refusal;
* `isMounted` — a path lies under a mount path;
* `judge` — the verdict on a request.
-/

namespace HeldReply

/-- The **verdict** on a request. -/
inductive Verdict where
  | authorized
  /-- The secret is missing or wrong. -/
  | unauthorized
  /-- The path, the handler or the method is not supported. -/
  | unsupported
  deriving DecidableEq, Repr

namespace Verdict

/-- Whether the request may go on. -/
def isAuthorized (v : Verdict) : Bool :=
  v == .authorized

/-- The verdict as a result; the failure of a path that is not supported names the path. -/
def toResult (v : Verdict) (path : String) : Except Failure Unit :=
  match v with
  | .authorized => .ok ()
  | .unauthorized => .error .unauthorized
  | .unsupported => .error (.noHandler path)

end Verdict

/-- The path, its query aside, **lies under** the mount path: the mount path without its trailing
slashes stands at the start, and a slash follows it. -/
def isMounted (basePath path : List Char) : Bool :=
  (Text.stripEnd (· == '/') basePath ++ ['/']).isPrefixOf (beforeQuery path)

variable {α : Type}

/-- The **verdict** on a request with the given method, path and credential. -/
def judge (s : Settings) (routes : Routes α) (method path : String) (credential : Option String) :
    Verdict :=
  match s.credential with
  | none => .unauthorized
  | some expected =>
    if credential ≠ some expected then .unauthorized
    else if !isMounted s.basePath.toList path.toList || !routes.contains path then .unsupported
    else if method ≠ "POST" then .unsupported
    else .authorized

end HeldReply
