/-!
# Heads of replies

A reply is refused with a bare status, or it has a head with six fields, and its body is held open.

* `Head` — the status and the fields of a reply;
* `Head.bare`, `Head.held` — the two kinds of heads.
-/

namespace HeldReply.Http

/-- The **head** of a reply. -/
structure Head where
  status : Nat
  /-- The fields by name. -/
  fields : List (String × String) := []
  deriving DecidableEq, Repr, Inhabited

namespace Head

/-- The name under which the service shows itself. -/
def serverName : String := "rat_tunnel/0.1.0"

/-- The head of a reply that is **refused**: its body is empty. -/
def bare (status : Nat) : Head := { status }

/-- The head of a reply that is **held open**, as of the given date. -/
def held (date : String) : Head where
  status := 200
  fields :=
    [("content-type", "application/json; charset=utf-8"),
      ("cache-control", "private, must-revalidate"),
      ("transfer-encoding", "chunked"),
      ("x-content-type-options", "nosniff"),
      ("server", serverName),
      ("last-modified", date)]

end Head

end HeldReply.Http
