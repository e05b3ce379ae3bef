import HeldReply.Failure
import HeldReply.Text.Blank
import HeldReply.Text.Quoted

/-!
# Routes

Handlers are registered under names before the service starts.  A request path that ends in a slash
and a registered name is answered by that handler; if several names fit, the one registered first.

* `beforeQuery` — a path without its query, and with `beforeQuery_eq_iff` what that is;
* `endsIn` — a path ends in a slash and a name;
* `normalName` — a name as it is kept: without blanks and slashes at its ends;
* `Routes`, `Routes.register` — the handlers by name, and one more of them;
* `Routes.lookup`, `Routes.contains` — the handler of a path, and whether there is one.
-/

namespace HeldReply

/-- The characters of a path **before its query**, which starts at the first question mark. -/
def beforeQuery (path : List Char) : List Char :=
  path.takeWhile (· != '?')

/-- The path without its query is **all before the first question mark**. -/
theorem beforeQuery_eq_iff {path p : List Char} : beforeQuery path = p ↔
    '?' ∉ p ∧ (path = p ∨ ∃ query, path = p ++ '?' :: query) := by
  have hsplit : beforeQuery path ++ path.dropWhile (· != '?') = path :=
    List.takeWhile_append_dropWhile
  constructor
  · rintro rfl
    refine ⟨fun hmem => ?_, ?_⟩
    · have hne := List.all_eq_true.1 List.all_takeWhile _ hmem
      simp at hne
    · cases hrest : path.dropWhile (· != '?') with
      | nil =>
        rw [hrest, List.append_nil] at hsplit
        exact .inl hsplit.symm
      | cons c query =>
        have hc := Text.head?_dropWhile (· != '?') path (by rw [hrest]; rfl)
        have hc : c = '?' := by simpa using hc
        rw [hrest, hc] at hsplit
        exact .inr ⟨query, hsplit.symm⟩
  · rintro ⟨hp, hpath⟩
    have hall : ∀ c ∈ p, (c != '?') = true := by
      intro c hc
      rw [bne_iff_ne]
      rintro rfl
      exact hp hc
    have htake (rest : List Char) : beforeQuery (p ++ rest) = p ++ beforeQuery rest :=
      List.takeWhile_append_of_pos hall
    obtain rfl | ⟨query, rfl⟩ := hpath
    · have hnil := htake []
      rw [List.append_nil] at hnil
      exact hnil.trans (List.append_nil _)
    · exact (htake _).trans (List.append_nil _)

/-- The path **ends in** a slash and the name. -/
def endsIn (path name : List Char) : Bool :=
  ('/' :: name).isSuffixOf path

/-- A name **as it is kept**: without the blanks at its ends, and then without the slashes there. -/
def normalName (name : String) : String :=
  String.ofList (Text.strip (· == '/') (Text.strip Text.isBlank name.toList))

/-- The **handlers by name**, in the order of their registration. -/
structure Routes (α : Type) where
  entries : List (String × α) := []

namespace Routes

variable {α : Type}

/-- The names, in the order of registration. -/
def names (r : Routes α) : List String :=
  r.entries.map Prod.fst

/-- The number of handlers. -/
def size (r : Routes α) : Nat :=
  r.entries.length

/-- **Register** a handler.  A name of which nothing is left, or that is taken, is refused. -/
def register (r : Routes α) (name : String) (handler : α) : Except Failure (Routes α) :=
  let kept := normalName name
  if kept.isEmpty then .error (.misconfigured ("处理器请求名无效: '" ++ name ++ "'"))
  else if kept ∈ r.names then .error (.nameTaken kept)
  else .ok { r with entries := r.entries ++ [(kept, handler)] }

/-- Register several handlers, up to the first that is refused. -/
def registerAll (r : Routes α) (handlers : List (String × α)) : Except Failure (Routes α) :=
  handlers.foldlM (fun r h => r.register h.1 h.2) r

/-- The first handler whose name the path ends in, its query aside. -/
def find? (r : Routes α) (path : String) : Option (String × α) :=
  r.entries.find? fun e => endsIn (beforeQuery path.toList) e.1.toList

/-- The **handler of a path**, with its name. -/
def lookup (r : Routes α) (path : String) : Except Failure (String × α) :=
  match r.find? path with
  | some e => .ok e
  | none => .error (.noHandler (String.ofList (beforeQuery path.toList)))

/-- Whether a path **has a handler**. -/
def contains (r : Routes α) (path : String) : Bool :=
  r.entries.any fun e => endsIn (beforeQuery path.toList) e.1.toList

/-- A handler as a diagnostic shows it. -/
def shownEntry (name : String) : String :=
  "RegisteredHandler \x7b name: " ++ Text.quoted name ++ " \x7d"

/-- The handlers as a diagnostic shows them. -/
def shown (r : Routes α) : String :=
  "HandlerRegistry \x7b handlers: ["
    ++ String.intercalate ", " (r.names.map shownEntry) ++ "] \x7d"

end Routes

end HeldReply
