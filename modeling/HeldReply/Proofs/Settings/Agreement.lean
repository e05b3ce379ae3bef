import HeldReply.Proofs.Number
import HeldReply.Proofs.Settings.Secret
import HeldReply.Proofs.Settings.Written

/-!
# Settings from the environment and from a document

The same secret, the same numbers and the same endpoint may be said in the environment or in a
document.  There the numbers are typed by people; here they were read with the document.  What is
made of them is the same.

* `Environment.Says`, `Environment.exists_says` — **what an environment says**, and that it can say
  whatever is to be said;
* `Settings.Follows`, `Settings.ofFields_eq_ok_iff` — the settings that keep to what is said, and
  that these and no others are made;
* `Settings.ofEnvironment_eq_ofFields`, `Settings.ofDocument_eq_ofFields` — an environment and a
  document make the settings of what they say;
* `Settings.Loaded.check` — settings that are loaded keep the rules;
* `Settings.loaded_alike` — **both make the same settings, or fail alike**.
-/

namespace HeldReply

/-- **What an environment says**: the numbers are spelled in it, and have no more than 64 bits; of
the scheme and the path it says nothing. -/
structure Environment.Says (env : Environment) (fs : Fields) : Prop where
  token : env.token = fs.token
  heartbeat : Option.Rel Number.Spells env.heartbeat fs.heartbeatMillis
  heartbeat_le : ∀ n, fs.heartbeatMillis = some n → n ≤ Number.maxWord
  workers : Option.Rel Number.Spells env.workers fs.workerThreads
  workers_le : ∀ n, fs.workerThreads = some n → n ≤ Number.maxWord
  endpoint : env.endpoint = fs.bindAddr
  scheme : fs.authScheme = none
  basePath : fs.basePath = none

/-- **Whatever numbers**, secret and endpoint there are, an environment says them. -/
theorem Environment.exists_says {fs : Fields}
    (hheartbeat : ∀ n, fs.heartbeatMillis = some n → n ≤ Number.maxWord)
    (hworkers : ∀ n, fs.workerThreads = some n → n ≤ Number.maxWord)
    (hscheme : fs.authScheme = none) (hpath : fs.basePath = none) :
    ∃ env : Environment, env.Says fs := by
  have hspelled (number : Option Nat) :
      Option.Rel Number.Spells (number.map Number.decimal) number := by
    cases number with
    | none => exact .none
    | some n => exact .some (Number.spells_decimal n)
  exact ⟨{ token := fs.token
           heartbeat := fs.heartbeatMillis.map Number.decimal
           workers := fs.workerThreads.map Number.decimal
           endpoint := fs.bindAddr },
    rfl, hspelled _, hheartbeat, hspelled _, hworkers, rfl, hscheme, hpath⟩

namespace Settings

variable {processors : Nat} {env : Environment} {content : String} {fs : Fields} {s t : Settings}

/-- The settings **follow** what is said: what is not said is as it holds where nothing is said, and
an empty secret is none. -/
structure Follows (processors : Nat) (fs : Fields) (s : Settings) : Prop where
  token : ∀ text, s.token = some text ↔ fs.token = some text ∧ text ≠ ""
  heartbeat : s.heartbeat = (fs.heartbeatMillis.map Span.ofMillis).getD (base processors).heartbeat
  scheme : s.scheme = fs.authScheme.getD (base processors).scheme
  basePath : s.basePath = fs.basePath.getD (base processors).basePath
  workers : s.workers = fs.workerThreads.getD (base processors).workers
  endpoint : fs.bindAddr.elim (some (base processors).endpoint)
    (fun text => Endpoint.read (Text.trim text)) = some s.endpoint

theorem readEndpoint_eq_ok_iff {text : String} {e : Endpoint} :
    readEndpoint text = .ok e ↔ Endpoint.read (Text.trim text) = some e := by
  unfold readEndpoint
  cases Endpoint.read (Text.trim text) <;> simp

theorem ok_bind {ε α β : Type} (a : α) (f : α → Except ε β) : (.ok a >>= f) = f a := rfl

/-- The settings with an endpoint that is said, if it is. -/
def withEndpoint (s : Settings) (addr : Option String) : Except SettingsFault Settings :=
  addr.elim s.checked fun text => do checked { s with endpoint := ← readEndpoint text }

/-- The settings of the values of a document, but for the endpoint. -/
def ofFieldsHere (processors : Nat) (fs : Fields) : Settings where
  token := fs.token.filter fun token => !token.isEmpty
  heartbeat := (fs.heartbeatMillis.map Span.ofMillis).getD (base processors).heartbeat
  scheme := fs.authScheme.getD (base processors).scheme
  basePath := fs.basePath.getD (base processors).basePath
  workers := fs.workerThreads.getD (base processors).workers
  endpoint := (base processors).endpoint

theorem ofFields_eq :
    ofFields processors fs = (ofFieldsHere processors fs).withEndpoint fs.bindAddr := by
  unfold ofFields
  cases fs.bindAddr <;> rfl

/-- **An environment**, whose variables are read one after the other. -/
theorem ofEnvironment_eq : ofEnvironment processors env = (do
    let heartbeat ← env.heartbeat.elim (.ok (base processors).heartbeat) fun text =>
      (readNumber .heartbeatText text).map Span.ofMillis
    let workers ← env.workers.elim (.ok (base processors).workers) (readNumber .workersText)
    let token := env.token.filter fun token => !token.isEmpty
    withEndpoint { base processors with token, heartbeat, workers } env.endpoint) := by
  obtain ⟨token, heartbeat, workers, endpoint⟩ := env
  have htoken (text : String) : ((some text).filter fun token => !token.isEmpty) =
      if text.isEmpty then none else some text := by
    cases h : text.isEmpty <;> simp [Option.filter_some, h]
  unfold ofEnvironment withEndpoint
  cases token <;> cases heartbeat <;> cases workers <;> cases endpoint <;>
    simp only [htoken, Option.filter_none, Option.elim, ok_bind]

/-- **A number that is said** is read. -/
theorem elim_readNumber {α : Type} {said : Option String} {number : Option Nat}
    (h : Option.Rel Number.Spells said number)
    (hle : ∀ n, number = some n → n ≤ Number.maxWord) (fault : Number.WholeFault → SettingsFault)
    (g : Nat → α) (d : α) :
    (said.elim (.ok d) fun text => (readNumber fault text).map g) =
      .ok ((number.map g).getD d) := by
  cases h with
  | none => rfl
  | some hspells =>
    rw [Option.elim_some, readNumber, Number.readWhole_trim hspells (hle _ rfl)]
    rfl

/-- **An environment** makes the settings of what it says. -/
theorem ofEnvironment_eq_ofFields (h : env.Says fs) :
    ofEnvironment processors env = ofFields processors fs := by
  have hheartbeat := elim_readNumber h.heartbeat h.heartbeat_le .heartbeatText Span.ofMillis
    (base processors).heartbeat
  have hworkers := elim_readNumber h.workers h.workers_le .workersText id (base processors).workers
  simp only [Except.map_id, id_eq, Option.map_id_fun] at hworkers
  rw [ofEnvironment_eq, ofFields_eq, hheartbeat, hworkers, ok_bind, ok_bind, h.token, h.endpoint]
  simp only [ofFieldsHere, h.scheme, h.basePath, Option.getD_none]

/-- **A document** makes the settings of what it says. -/
theorem ofDocument_eq_ofFields (h : fs.ReadFrom content) :
    ofDocument processors content = (ofFields processors fs).mapError SettingsFault.toFailure := by
  obtain ⟨es, hread, hfields⟩ := h
  simp only [ofDocument, hread, ok_bind, hfields, Except.mapError]

theorem withEndpoint_eq_ok_iff {addr : Option String} : s.withEndpoint addr = .ok t ↔
    ∃ e, addr.elim (some s.endpoint) (fun text => Endpoint.read (Text.trim text)) = some e ∧
      t = { s with endpoint := e } ∧ t.check = .ok () := by
  cases addr with
  | none =>
    rw [withEndpoint, Option.elim_none, Option.elim_none, checked_eq_ok_iff]
    constructor
    · rintro ⟨rfl, hcheck⟩
      exact ⟨s.endpoint, rfl, rfl, hcheck⟩
    · rintro ⟨e, he, rfl, hcheck⟩
      cases he
      exact ⟨rfl, hcheck⟩
  | some text =>
    simp only [withEndpoint, Option.elim_some, ← readEndpoint_eq_ok_iff]
    constructor
    · intro h
      obtain ⟨e, he, h⟩ := exists_of_bind_eq_ok h
      obtain ⟨rfl, hcheck⟩ := checked_eq_ok_iff.1 h
      exact ⟨e, he, rfl, hcheck⟩
    · rintro ⟨e, he, rfl, hcheck⟩
      rw [he, ok_bind, checked_eq_ok_iff]
      exact ⟨rfl, hcheck⟩

theorem follows_iff : s.Follows processors fs ↔
    ∃ e, fs.bindAddr.elim (some (base processors).endpoint)
        (fun text => Endpoint.read (Text.trim text)) = some e ∧
      s = { ofFieldsHere processors fs with endpoint := e } := by
  constructor
  · intro h
    refine ⟨s.endpoint, h.endpoint, ?_⟩
    have htoken : s.token = (ofFieldsHere processors fs).token := by
      ext text
      simp [h.token, ofFieldsHere, Option.filter_eq_some_iff]
    obtain ⟨token, heartbeat, scheme, basePath, workers, endpoint⟩ := s
    simp only [Settings.mk.injEq, and_true]
    exact ⟨htoken, h.heartbeat, h.scheme, h.basePath, h.workers⟩
  · rintro ⟨e, he, rfl⟩
    refine ⟨fun text => ?_, rfl, rfl, rfl, rfl, he⟩
    simp [ofFieldsHere, Option.filter_eq_some_iff]

/-- **The settings that are made** of the values of a document. -/
theorem ofFields_eq_ok_iff :
    ofFields processors fs = .ok s ↔ s.Follows processors fs ∧ s.check = .ok () := by
  rw [ofFields_eq, withEndpoint_eq_ok_iff, follows_iff]
  constructor
  · rintro ⟨e, he, hs, hcheck⟩
    exact ⟨⟨e, he, hs⟩, hcheck⟩
  · rintro ⟨⟨e, he, hs⟩, hcheck⟩
    exact ⟨e, he, hs, hcheck⟩

/-- **The rules** for settings. -/
theorem check_eq_ok_iff : s.check = .ok () ↔ s.heartbeat.isZero = false ∧ s.workers ≠ 0 ∧
    s.basePath.toList.head? = some '/' ∧ (Text.trim s.scheme).isEmpty = false := by
  unfold Settings.check
  split_ifs <;> simp_all

/-- With the scheme and the path that hold where nothing is said, **only the numbers** matter. -/
theorem check_eq_ok_of_base (hscheme : s.scheme = "toolbox") (hpath : s.basePath = "/api/toolbox")
    (hheartbeat : s.heartbeat.isZero = false) (hworkers : s.workers ≠ 0) : s.check = .ok () := by
  rw [check_eq_ok_iff, hscheme, hpath]
  exact ⟨hheartbeat, hworkers, by decide, by decide⟩

/-- **The settings that hold where nothing is said** keep the rules. -/
theorem check_base (processors : Nat) : (base processors).check = .ok () := by
  refine check_eq_ok_of_base rfl rfl rfl ?_
  show max processors 1 ≠ 0
  omega

/-- **Settings that are loaded** keep the rules. -/
theorem Loaded.check (h : Loaded processors s) : s.check = .ok () := by
  cases h with
  | base => exact check_base processors
  | environment env h =>
    rw [ofEnvironment_eq] at h
    obtain ⟨heartbeat, -, h⟩ := exists_of_bind_eq_ok h
    obtain ⟨workers, -, h⟩ := exists_of_bind_eq_ok h
    obtain ⟨-, -, -, hcheck⟩ := withEndpoint_eq_ok_iff.1 h
    exact hcheck
  | document content h =>
    obtain ⟨fs, hf⟩ := exists_ofFields_of_ofDocument h
    exact (ofFields_eq_ok_iff.1 hf).2

/-- **Both make the same settings, or fail alike**, and whatever there is to be said can be said in
both. -/
theorem loaded_alike (processors : Nat) :
    (∀ fs : Fields, (∀ n, fs.heartbeatMillis = some n → n < 2 ^ 63) →
      (∀ n, fs.workerThreads = some n → n < 2 ^ 63) → fs.authScheme = none → fs.basePath = none →
      (∃ env : Environment, env.Says fs) ∧ ∃ content, fs.ReadFrom content) ∧
    (∀ (env : Environment) (content : String) (fs : Fields), env.Says fs → fs.ReadFrom content →
      (∃ s : Settings, s.Follows processors fs ∧ s.check = .ok () ∧
        ofEnvironment processors env = .ok s ∧ ofDocument processors content = .ok s) ∨
      (¬ (∃ s : Settings, s.Follows processors fs ∧ s.check = .ok ()) ∧ ∃ text,
        (ofEnvironment processors env).mapError SettingsFault.toFailure =
          .error (.misconfigured text) ∧
        ofDocument processors content = .error (.misconfigured text))) ∧
    ∀ s : Settings, Loaded processors s → s.check = .ok () ∧ s.token ≠ some "" := by
  refine ⟨fun fs hheartbeat hworkers hscheme hpath => ?_, fun env content fs henv hdocument => ?_,
    fun s h => ⟨h.check, h.token_ne⟩⟩
  · have hword {n : Nat} (hn : n < 2 ^ 63) : n ≤ Number.maxWord := by
      unfold Number.maxWord
      omega
    exact ⟨Environment.exists_says (fun n hn => hword (hheartbeat n hn))
      (fun n hn => hword (hworkers n hn)) hscheme hpath, Fields.exists_readFrom hheartbeat hworkers⟩
  · rw [ofEnvironment_eq_ofFields henv, ofDocument_eq_ofFields hdocument]
    cases hf : ofFields processors fs with
    | ok s =>
      obtain ⟨hfollows, hcheck⟩ := ofFields_eq_ok_iff.1 hf
      exact .inl ⟨s, hfollows, hcheck, rfl, rfl⟩
    | error fault =>
      refine .inr ⟨?_, fault.message, rfl, rfl⟩
      rintro ⟨s, hs⟩
      rw [ofFields_eq_ok_iff.2 hs] at hf
      cases hf

/-- What is said: a secret, two numbers and an endpoint. -/
def typedFields : Fields where
  token := some "abc"
  heartbeatMillis := some 250
  workerThreads := some 2
  bindAddr := some " [::1]:9000"

/-- An environment that says it. -/
def typedEnvironment : Environment where
  token := some "abc"
  heartbeat := some "\u00a0 250\n"
  workers := some "+002"
  endpoint := some " [::1]:9000"

/-- A document that says it. -/
def typedDocument : String :=
  "worker_threads = 0x2 # two\ntoken = \"abc\"\nheartbeat_millis = 2_50\nbind_addr = ' [::1]:9000'\n"

theorem typedEnvironment_says : typedEnvironment.Says typedFields := by
  refine ⟨rfl, .some ?_, ?_, .some ?_, ?_, rfl, rfl, rfl⟩
  · exact ⟨['\u00a0', ' '], [], ['2', '5', '0'], ['\n'], rfl, List.all_eq_true.1 rfl,
      List.all_eq_true.1 rfl, .inl rfl, List.cons_ne_nil _ _, rfl⟩
  · rintro n ⟨⟩
    decide
  · exact ⟨[], ['+'], ['0', '0', '2'], [], rfl, List.all_eq_true.1 rfl, List.all_eq_true.1 rfl,
      .inr rfl, List.cons_ne_nil _ _, rfl⟩
  · rintro n ⟨⟩
    decide

theorem typedFields_readFrom : typedFields.ReadFrom typedDocument := by
  decide +kernel

/-- **What is typed** in an environment and in a document is loaded alike. -/
theorem loaded_alike_typed : ∃ s : Settings, s.heartbeat = .ofMillis 250 ∧
    ofEnvironment 1 typedEnvironment = .ok s ∧ ofDocument 1 typedDocument = .ok s ∧
    s.check = .ok () ∧ s.token ≠ some "" := by
  obtain ⟨-, halike, hloaded⟩ := loaded_alike 1
  obtain ⟨s, hfollows, -, henvironment, hdocument⟩ | ⟨hnone, -⟩ :=
    halike _ _ _ typedEnvironment_says typedFields_readFrom
  · exact ⟨s, hfollows.heartbeat, henvironment, hdocument, hloaded s (.environment _ henvironment)⟩
  · have hendpoint : typedFields.bindAddr.elim (some (base 1).endpoint)
        (fun text => Endpoint.read (Text.trim text))
          = some (.six [0, 0, 0, 0, 0, 0, 0, 1] 0 9000) := by
      decide
    refine absurd ⟨{ ofFieldsHere 1 typedFields with
      endpoint := .six [0, 0, 0, 0, 0, 0, 0, 1] 0 9000 }, ?_, ?_⟩ hnone
    · exact follows_iff.2 ⟨_, hendpoint, rfl⟩
    · exact check_eq_ok_of_base rfl rfl rfl (by decide)

end Settings

end HeldReply
