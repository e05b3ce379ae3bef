import HeldReply.Proofs.Admission
import HeldReply.Service

/-!
# What is decided on a request

A request is refused with one of two bare heads, or its reply is held open.  The first refusal comes
without a look at the body and tells nothing of its reason; the second one has a reason in the body.
There is no third one: every failure that can still come up is worded as a bad request.

* `IsBad` — **what makes a request a bad one** after it was let in;
* `accept_cases` — such a request is refused as a bad one, and any other is accepted;
* `receive_congr` — a decision depends on the handlers by their names, and by what the handler of the
  path makes of the request;
* `Service.handle_decides` — **the decision on a request**.
-/

namespace HeldReply

/-! ### Bodies -/

/-- The body arrives whole and **holds a value**. -/
def Http.Body.Holds (b : Http.Body) (v : Json) : Prop :=
  ∃ bytes, b.read = .ok bytes ∧ Json.readBytes bytes = some v

theorem Http.Body.Holds.json_eq {b : Http.Body} {v : Json} (h : b.Holds v) : b.json = .ok v := by
  obtain ⟨bytes, hr, hv⟩ := h
  simp only [Http.Body.json, hr, hv]

theorem Http.Body.Holds.unique {b : Http.Body} {v w : Json} (h : b.Holds v) (k : b.Holds w) :
    v = w := by
  have := h.json_eq.symm.trans k.json_eq
  simpa using this

theorem Http.Body.read_eq_error_iff (b : Http.Body) (fault : String) :
    b.read = .error fault ↔ b.fault = some fault := by
  unfold read
  cases b.fault <;> simp

/-- **Everything that can come of a body.** -/
theorem Http.Body.json_cases (b : Http.Body) :
    ((∃ fault, b.fault = some fault) ∧ ∃ text, b.json = .error (.badRequest text)) ∨
    (∃ bytes, b.read = .ok bytes ∧ Json.readBytes bytes = none ∧
      ∃ text, b.json = .error (.badRequest text)) ∨
    (∃ v, b.Holds v ∧ b.json = .ok v) := by
  cases hr : b.read with
  | error fault =>
    left
    exact ⟨⟨fault, (b.read_eq_error_iff fault).1 hr⟩, _, by rw [json, hr]⟩
  | ok bytes =>
    right
    cases hv : Json.readBytes bytes with
    | none => exact .inl ⟨bytes, rfl, hv, _, by simp only [json, hr, hv]; rfl⟩
    | some v =>
      have h : b.Holds v := ⟨bytes, hr, hv⟩
      exact .inr ⟨v, h, h.json_eq⟩

/-! ### The time between two beats -/

/-- The value asks for a time between two beats that **cannot be had**: it is neither left out nor a
number of milliseconds from 1 to what 64 bits hold. -/
def AsksInVain (v : Json) : Prop :=
  ∃ members asked, v = .object members ∧ members.lookup intervalMember = some asked ∧
    asked ≠ .null ∧ ¬ ∃ n, 0 < n ∧ n < 0x10000000000000000 ∧ asked = .ofNat n

/-- A member of an object, of whatever value it is asked. -/
theorem Json.get?_eq_some_iff (v : Json) (key : String) (asked : Json) :
    v.get? key = some asked ↔ ∃ members, v = .object members ∧ members.lookup key = some asked := by
  cases v <;> simp [get?]

theorem Json.int?_eq_some_iff (v : Json) (i : Int) : v.int? = some i ↔ v = .number (.int i) := by
  cases v with
  | number n => cases n <;> simp [int?]
  | _ => simp [int?]

/-- A member that is there: it gives the time exactly if it is a positive number of 64 bits. -/
theorem intervalFor_of_member (s : Settings) {v asked : Json} (h : v.get? intervalMember = some asked)
    (hn : asked ≠ .null) :
    (∃ n, 0 < n ∧ n < 0x10000000000000000 ∧ asked = .ofNat n ∧
      intervalFor s v = .ok (.ofMillis n)) ∨
    ((¬ ∃ n, 0 < n ∧ n < 0x10000000000000000 ∧ asked = .ofNat n) ∧
      ∃ text, intervalFor s v = .error (.badRequest text)) := by
  cases hi : asked.int? with
  | none =>
    have herror : intervalFor s v =
        .error (.badRequest (intervalMember ++ " 必须是正整数: " ++ asked.compact)) := by
      rw [intervalFor, h]
      cases asked <;> first | exact absurd rfl hn | simp only [hi]
    refine .inr ⟨?_, _, herror⟩
    rintro ⟨n, -, -, rfl⟩
    cases hi
  | some i =>
    have hasked := (asked.int?_eq_some_iff i).1 hi
    have hself : intervalFor s v = if 0 < i ∧ i < 0x10000000000000000 then .ok (.ofMillis i.toNat)
        else .error (.badRequest (intervalMember ++ " 必须是正整数: " ++ asked.compact)) := by
      rw [intervalFor, h]
      cases asked <;> first | exact absurd rfl hn | simp only [hi]
    rw [hself]
    by_cases hb : 0 < i ∧ i < 0x10000000000000000
    · refine .inl ⟨i.toNat, by omega, by omega, ?_, if_pos hb⟩
      rw [hasked, Json.ofNat, Int.toNat_of_nonneg (by omega)]
    · refine .inr ⟨?_, _, if_neg hb⟩
      rintro ⟨n, h0, h1, rfl⟩
      cases hi
      exact hb ⟨by omega, by omega⟩

/-- **Everything that can come of the time** that a value asks for. -/
theorem intervalFor_cases (s : Settings) (v : Json) :
    (AsksInVain v ∧ ∃ text, intervalFor s v = .error (.badRequest text)) ∨
    (¬ AsksInVain v ∧ ∃ d, intervalFor s v = .ok d) := by
  cases hg : v.get? intervalMember with
  | none =>
    refine .inr ⟨?_, s.heartbeat, by rw [intervalFor, hg]⟩
    rintro ⟨members, asked, hv, hm, -⟩
    have := (v.get?_eq_some_iff _ asked).2 ⟨members, hv, hm⟩
    simp [hg] at this
  | some asked =>
    obtain ⟨members, hv, hm⟩ := (v.get?_eq_some_iff _ asked).1 hg
    by_cases hn : asked = .null
    · refine .inr ⟨?_, s.heartbeat, by rw [intervalFor, hg, hn]⟩
      rintro ⟨members', asked', hv', hm', hne, -⟩
      have := (v.get?_eq_some_iff _ asked').2 ⟨members', hv', hm'⟩
      rw [hg, hn, Option.some.injEq] at this
      exact hne this.symm
    · rcases intervalFor_of_member s hg hn with ⟨n, h0, h1, ha, hi⟩ | ⟨hno, hi⟩
      · refine .inr ⟨?_, _, hi⟩
        rintro ⟨members', asked', hv', hm', -, hno⟩
        have := (v.get?_eq_some_iff _ asked').2 ⟨members', hv', hm'⟩
        rw [hg, Option.some.injEq] at this
        exact hno ⟨n, h0, h1, this ▸ ha⟩
      · exact .inl ⟨⟨members, asked, hv, hm, hn, hno⟩, hi⟩

/-! ### Handlers -/

/-- **Everything that can come of making a request ready.** -/
theorem Handler.prepare_cases (h : Handler) (name : String) (v : Json) :
    (∃ program, h v = .read program ∧ h.prepare name v = .ok { name, program }) ∨
    (((∃ f, h v = .refused f) ∨ ∃ c, h v = .crashed c) ∧
      ∃ text, h.prepare name v = .error (.badRequest text)) := by
  cases hv : h v with
  | read program => exact .inl ⟨program, rfl, by rw [prepare, hv]⟩
  | refused f =>
    refine .inr ⟨.inl ⟨f, rfl⟩, ?_⟩
    cases f <;> exact ⟨_, by rw [prepare, hv]⟩
  | crashed c => exact .inr ⟨.inr ⟨c, rfl⟩, _, by rw [prepare, hv]⟩

/-! ### Requests that were let in -/

/-- **What makes a request a bad one** after it was let in. -/
inductive IsBad (routes : Routes Handler) (path : String) (body : Http.Body) : Prop
  | cutOff (fault : String) (h : body.fault = some fault)
  | noJson (bytes : ByteArray) (hr : body.read = .ok bytes) (h : Json.readBytes bytes = none)
  | interval (v : Json) (hb : body.Holds v) (h : AsksInVain v)
  | refused (v : Json) (hb : body.Holds v) (name : String) (handler : Handler)
      (hl : routes.lookup path = .ok (name, handler)) (f : Failure) (h : handler v = .refused f)
  | crashed (v : Json) (hb : body.Holds v) (name : String) (handler : Handler)
      (hl : routes.lookup path = .ok (name, handler)) (c : Crash) (h : handler v = .crashed c)

/-- A body that holds a value leaves the time and the handler as reasons. -/
theorem isBad_iff_of_holds {routes : Routes Handler} {path : String} {body : Http.Body} {v : Json}
    {name : String} {handler : Handler} (hb : body.Holds v)
    (hl : routes.lookup path = .ok (name, handler)) :
    IsBad routes path body ↔
      AsksInVain v ∨ (∃ f, handler v = .refused f) ∨ ∃ c, handler v = .crashed c := by
  have hbytes := hb
  obtain ⟨bytes, hr, hv⟩ := hbytes
  constructor
  · intro h
    cases h with
    | cutOff fault hf =>
      rw [← body.read_eq_error_iff, hr] at hf
      cases hf
    | noJson bytes' hr' hn =>
      rw [hr, Except.ok.injEq] at hr'
      rw [← hr', hv] at hn
      cases hn
    | interval w hw ha => exact .inl (hb.unique hw ▸ ha)
    | refused w hw name' handler' hl' f hf =>
      rw [hl, Except.ok.injEq, Prod.mk.injEq] at hl'
      obtain ⟨-, rfl⟩ := hl'
      exact .inr (.inl ⟨f, hb.unique hw ▸ hf⟩)
    | crashed w hw name' handler' hl' c hc =>
      rw [hl, Except.ok.injEq, Prod.mk.injEq] at hl'
      obtain ⟨-, rfl⟩ := hl'
      exact .inr (.inr ⟨c, hb.unique hw ▸ hc⟩)
  · rintro (ha | ⟨f, hf⟩ | ⟨c, hc⟩)
    · exact .interval v hb ha
    · exact .refused v hb name handler hl f hf
    · exact .crashed v hb name handler hl c hc

/-- What is done with a body that holds a value. -/
theorem accept_of_holds {s : Settings} {routes : Routes Handler} {r : Http.Request} {v : Json}
    {name : String} {handler : Handler} (hb : r.body.Holds v)
    (hl : routes.lookup r.path = .ok (name, handler)) :
    accept s routes r = (intervalFor s v).bind fun interval =>
      (handler.prepare name v).bind fun prepared => .ok { prepared, interval } := by
  simp only [accept, hb.json_eq, hl]
  rfl

/-- **A bad request is refused as one, and any other is accepted.** -/
theorem accept_cases (s : Settings) {routes : Routes Handler} (r : Http.Request)
    (h : ∃ e, routes.lookup r.path = .ok e) :
    (IsBad routes r.path r.body ∧ ∃ text, accept s routes r = .error (.badRequest text)) ∨
    (¬ IsBad routes r.path r.body ∧ ∃ a, accept s routes r = .ok a) := by
  obtain ⟨⟨name, handler⟩, hl⟩ := h
  rcases r.body.json_cases with ⟨⟨fault, hf⟩, text, hj⟩ | ⟨bytes, hr, hn, text, hj⟩ | ⟨v, hb, -⟩
  · exact .inl ⟨.cutOff fault hf, text, by rw [accept, hj]; rfl⟩
  · exact .inl ⟨.noJson bytes hr hn, text, by rw [accept, hj]; rfl⟩
  · rw [isBad_iff_of_holds hb hl, accept_of_holds hb hl]
    rcases intervalFor_cases s v with ⟨ha, text, hi⟩ | ⟨ha, d, hi⟩
    · exact .inl ⟨.inl ha, text, by rw [hi]; rfl⟩
    · rw [hi]
      rcases handler.prepare_cases name v with ⟨program, hv, hp⟩ | ⟨hv, text, hp⟩
      · refine .inr ⟨?_, { prepared := { name, program }, interval := d }, by rw [hp]; rfl⟩
        simp [ha, hv]
      · exact .inl ⟨.inr hv, text, by rw [hp]; rfl⟩

/-- **What a decision depends on**: the handlers may be others under the same names, if they make the
same of a request that gets as far as to them. -/
theorem receive_congr (s : Settings) {routes others : Routes Handler} (r : Http.Request)
    (hn : others.names = routes.names)
    (h : ∀ v name handler name' handler',
      judge s routes r.method r.path r.credential = .authorized → r.body.Holds v → ¬ AsksInVain v →
      routes.lookup r.path = .ok (name, handler) → others.lookup r.path = .ok (name', handler') →
      handler' v = handler v) :
    receive s others r = receive s routes r := by
  unfold receive
  rw [judge_of_names s hn]
  cases hj : judge s routes r.method r.path r.credential with
  | unauthorized | unsupported => rfl
  | authorized =>
    show Decision.mk (accept s others r) true = Decision.mk (accept s routes r) true
    congr 1
    obtain ⟨⟨name, handler⟩, hl⟩ := exists_lookup_of_judge hj
    obtain ⟨⟨name', handler'⟩, hl'⟩ :=
      exists_lookup_of_judge ((judge_of_names s hn r.method r.path r.credential).trans hj)
    rcases r.body.json_cases with ⟨-, text, hb⟩ | ⟨_, -, -, text, hb⟩ | ⟨v, hb, -⟩
    · rw [accept, accept, hb]
      rfl
    · rw [accept, accept, hb]
      rfl
    · obtain rfl : name' = name := Routes.name_of_names hn hl hl'
      rw [accept_of_holds hb hl, accept_of_holds hb hl']
      rcases intervalFor_cases s v with ⟨-, text, hi⟩ | ⟨ha, d, hi⟩
      · rw [hi]
        rfl
      · have hsame := h v name' handler name' handler' hj hb ha hl hl'
        rw [Handler.prepare, Handler.prepare, hsame]

/-! ### The decision -/

/-- Of a request that is let in the body is read. -/
theorem receive_of_authorized {s : Settings} {routes : Routes Handler} {r : Http.Request}
    (h : judge s routes r.method r.path r.credential = .authorized) :
    receive s routes r = { result := accept s routes r, bodyRead := true } := by
  simp only [receive, h, Verdict.toResult]

/-- **Everything that can be decided on a request.** -/
theorem receive_cases (s : Settings) (routes : Routes Handler) (r : Http.Request) :
    (judge s routes r.method r.path r.credential ≠ .authorized ∧ ∃ f, f.status = 404 ∧
      ∀ body, receive s routes { r with body } = { result := .error f, bodyRead := false }) ∨
    (judge s routes r.method r.path r.credential = .authorized ∧
      (∃ e, routes.lookup r.path = .ok e) ∧ IsBad routes r.path r.body ∧
      ∃ text, receive s routes r = { result := .error (.badRequest text), bodyRead := true }) ∨
    (judge s routes r.method r.path r.credential = .authorized ∧
      (∃ e, routes.lookup r.path = .ok e) ∧ ¬ IsBad routes r.path r.body ∧
      ∃ a, receive s routes r = { result := .ok a, bodyRead := true }) := by
  cases hj : judge s routes r.method r.path r.credential with
  | unauthorized =>
    refine .inl ⟨Verdict.noConfusion, .unauthorized, rfl, fun body => ?_⟩
    simp only [receive, hj, Verdict.toResult]
  | unsupported =>
    refine .inl ⟨Verdict.noConfusion, .noHandler r.path, rfl, fun body => ?_⟩
    simp only [receive, hj, Verdict.toResult]
  | authorized =>
    have hl := exists_lookup_of_judge hj
    right
    rw [receive_of_authorized hj]
    rcases accept_cases s r hl with ⟨hb, text, ha⟩ | ⟨hb, a, ha⟩
    · exact .inl ⟨rfl, hl, hb, text, by rw [ha]⟩
    · exact .inr ⟨rfl, hl, hb, a, by rw [ha]⟩

theorem Http.Request.ofParts_eq_some {method target : String} {authorization : List (List UInt8)}
    {body : Http.Body} {r : Http.Request}
    (h : Http.Request.ofParts method target authorization body = some r) :
    Http.targetPath target = some r.path ∧ r.method = method ∧
      r.credential = authorization.head?.bind Http.visibleText ∧ r.body = body := by
  unfold ofParts at h
  obtain ⟨path, hp, h⟩ := Option.bind_eq_some_iff.1 h
  split at h <;> cases h
  exact ⟨hp, rfl, rfl, rfl⟩

namespace Service

/-- The request is **let in** by its method, its path and its first authorization field. -/
def LetsIn (s : Service) (method path : String) (authorization : List (List UInt8)) : Prop :=
  judge s.settings s.routes method path (authorization.head?.bind Http.visibleText) = .authorized

theorem handle_eq (s : Service) (r : Http.Request) :
    s.handle r = ((s.handle r).1, receive s.settings s.routes r) := by
  unfold handle
  cases h : (receive s.settings s.routes r).result <;> simp only [h]

/-- Whatever is decided, no session starts and no handler is executed. -/
theorem handle_counters (s : Service) (r : Http.Request) :
    (s.handle r).1.started = s.started ∧ (s.handle r).1.jobs = s.jobs := by
  unfold handle
  cases h : (receive s.settings s.routes r).result <;> simp only [h, and_self]

theorem handle_of_error {s : Service} {r : Http.Request} {f : Failure}
    (h : (receive s.settings s.routes r).result = .error f) : (s.handle r).1 = s := by
  simp only [handle, h]

theorem handle_of_ok {s : Service} {r : Http.Request} {a : Accepted}
    (h : (receive s.settings s.routes r).result = .ok a) :
    (s.handle r).1 = { s with exchanges := s.exchanges ++ [.ofAccepted a s.now] } := by
  simp only [handle, h]

/-- **The decision on a request**, whatever the settings, the handlers and the exchanges so far.

* It is refused with a bare 404 exactly if it is not let in, and then its body is not looked at.
* It is refused with a bare 400 exactly if it is let in and a bad one.
* Its reply is held open exactly if it is let in and no bad one, and there is no fourth head.
* Whoever is let in has a handler.  A refused request leaves the service as it was, and whatever is
  decided, no session starts and no handler is executed.
* With other handlers under the same names the decision is the same, unless the request is let in,
  holds a value and asks for a time that can be had, and the handler of the path makes something else
  of that value. -/
theorem handle_decides (s : Service) (method target date : String)
    (authorization : List (List UInt8)) (body : Http.Body) (r : Http.Request)
    (hr : Http.Request.ofParts method target authorization body = some r) :
    Http.targetPath target = some r.path ∧
    ((s.handle r).2.head date = .bare 404 ↔ ¬ s.LetsIn method r.path authorization) ∧
    (¬ s.LetsIn method r.path authorization →
      (s.handle r).2.bodyRead = false ∧ ∀ other, s.handle { r with body := other } = s.handle r) ∧
    ((s.handle r).2.head date = .bare 400 ↔
      s.LetsIn method r.path authorization ∧ IsBad s.routes r.path body) ∧
    ((s.handle r).2.head date = .held date ↔
      s.LetsIn method r.path authorization ∧ ¬ IsBad s.routes r.path body) ∧
    ((s.handle r).2.head date = .bare 404 ∨ (s.handle r).2.head date = .bare 400 ∨
      (s.handle r).2.head date = .held date) ∧
    (s.LetsIn method r.path authorization → ∃ e, s.routes.lookup r.path = .ok e) ∧
    (((s.handle r).2.head date ≠ .held date → (s.handle r).1 = s) ∧
      (s.handle r).1.started = s.started ∧ (s.handle r).1.jobs = s.jobs) ∧
    (∀ others : Routes Handler, others.names = s.routes.names →
      (∀ v name handler name' handler', s.LetsIn method r.path authorization → body.Holds v →
        ¬ AsksInVain v → s.routes.lookup r.path = .ok (name, handler) →
        others.lookup r.path = .ok (name', handler') → handler' v = handler v) →
      (handle { s with routes := others } r).2 = (s.handle r).2) := by
  obtain ⟨hpath, rfl, hcred, rfl⟩ := Http.Request.ofParts_eq_some hr
  have hdecision (s : Service) (r : Http.Request) :
      (s.handle r).2 = receive s.settings s.routes r := by
    rw [handle_eq]
  have hothers : ∀ others : Routes Handler, others.names = s.routes.names →
      (∀ v name handler name' handler', s.LetsIn r.method r.path authorization →
        r.body.Holds v → ¬ AsksInVain v → s.routes.lookup r.path = .ok (name, handler) →
        others.lookup r.path = .ok (name', handler') → handler' v = handler v) →
      (handle { s with routes := others } r).2 = (s.handle r).2 := by
    intro others hn h
    rw [hdecision, hdecision]
    refine receive_congr s.settings r hn fun v name handler name' handler' hj => ?_
    exact h v name handler name' handler' (by rw [LetsIn, ← hcred, hj])
  have hlets : s.LetsIn r.method r.path authorization =
      (judge s.settings s.routes r.method r.path r.credential = .authorized) := by
    rw [LetsIn, hcred]
  rw [hlets] at hothers ⊢
  refine ⟨hpath, ?_⟩
  -- Each decision fixes the head of the reply, and heads of other decisions have another status.
  rcases receive_cases s.settings s.routes r with ⟨hj, f, hf, hd⟩ | ⟨hj, hl, hb, text, hd⟩ | ⟨hj, hl, hb, a, hd⟩
  · have hd' := hd r.body
    have hhead : (s.handle r).2.head date = .bare 404 := by
      rw [hdecision, hd', ← hf]
      rfl
    have hsame (body : Http.Body) : s.handle { r with body } = (s, ⟨.error f, false⟩) := by
      rw [handle_eq, handle_of_error (f := f) (by rw [hd]), hd]
    have hbare : Http.Head.bare 404 ≠ .bare 400 := by decide
    have hheld : Http.Head.bare 404 ≠ .held date := fun h => nomatch congrArg Http.Head.status h
    rw [hhead]
    refine ⟨iff_of_true rfl hj, fun _ => ⟨by rw [hdecision, hd'], fun other => ?_⟩,
      iff_of_false hbare fun h => hj h.1, iff_of_false hheld fun h => hj h.1, .inl rfl,
      fun h => absurd h hj, ⟨fun _ => ?_, s.handle_counters r⟩, hothers⟩
    · rw [hsame other, ← hsame r.body]
    · exact congrArg Prod.fst (hsame r.body)
  · have hhead : (s.handle r).2.head date = .bare 400 := by
      rw [hdecision, hd]
      rfl
    have hbare : Http.Head.bare 400 ≠ .bare 404 := by decide
    have hheld : Http.Head.bare 400 ≠ .held date := fun h => nomatch congrArg Http.Head.status h
    rw [hhead]
    exact ⟨iff_of_false hbare fun h => h hj, fun h => absurd hj h, iff_of_true rfl ⟨hj, hb⟩,
      iff_of_false hheld fun h => h.2 hb, .inr (.inl rfl), fun _ => hl,
      ⟨fun _ => handle_of_error (by rw [hd]), s.handle_counters r⟩, hothers⟩
  · have hhead : (s.handle r).2.head date = .held date := by
      rw [hdecision, hd]
      rfl
    have hbare (n : Nat) (hn : n ≠ 200) : Http.Head.held date ≠ .bare n :=
      fun h => hn (congrArg Http.Head.status h).symm
    rw [hhead]
    exact ⟨iff_of_false (hbare 404 (by decide)) fun h => h hj, fun h => absurd hj h,
      iff_of_false (hbare 400 (by decide)) fun h => hb h.2, iff_of_true rfl ⟨hj, hb⟩,
      .inr (.inr rfl), fun _ => hl, ⟨fun h => absurd rfl h, s.handle_counters r⟩, hothers⟩

/-- A request in two pieces asks for no time at all between two beats.  It is a bad one, whatever the
handler would make of it. -/
theorem handle_decides_of_zero_interval :
    let s : Service := {
      settings := { Settings.base 1 with token := some "s3cret" }
      routes := { entries := [("job", fun _ => .crashed .other)] } }
    let body : Http.Body := { pieces := ["\x7b\"heartbeat".toUTF8, "Millis\": 0\x7d".toUTF8] }
    let r : Http.Request := {
      method := "POST", path := "/api/toolbox/v1/job", credential := some "toolbox s3cret", body }
    Http.Request.ofParts "POST" "/api/toolbox/v1/job?job" ["toolbox s3cret".toUTF8.toList] body =
        some r ∧
      (s.handle r).2.head "today" = .bare 400 ∧ (s.handle r).1 = s := by
  intro s body r
  have hr : Http.Request.ofParts "POST" "/api/toolbox/v1/job?job" ["toolbox s3cret".toUTF8.toList]
      body = some r := by
    have hpath : Http.targetPath "/api/toolbox/v1/job?job" = some "/api/toolbox/v1/job" := by
      decide +kernel
    have hfields : (Http.isMethod "POST" &&
        ["toolbox s3cret".toUTF8.toList].all Http.isFieldValue) = true := by decide +kernel
    have hcredential : ["toolbox s3cret".toUTF8.toList].head?.bind Http.visibleText =
        some "toolbox s3cret" := by decide +kernel
    rw [Http.Request.ofParts, hpath, Option.bind_eq_bind, Option.bind_some, if_pos hfields,
      hcredential]
  have hj : s.LetsIn "POST" r.path ["toolbox s3cret".toUTF8.toList] := by
    unfold LetsIn
    decide +kernel
  have hbytes : Json.readBytes (["\x7b\"heartbeat".toUTF8, "Millis\": 0\x7d".toUTF8].foldl
      (· ++ ·) .empty) = some (.object [(intervalMember, .ofNat 0)]) := by rfl
  have hv : body.Holds (.object [(intervalMember, .ofNat 0)]) := ⟨_, rfl, hbytes⟩
  have hb : IsBad s.routes r.path body := by
    refine .interval _ hv ⟨_, .ofNat 0, rfl, rfl, by simp [Json.ofNat], ?_⟩
    rintro ⟨n, h0, -, hn⟩
    simp only [Json.ofNat, Json.number.injEq, Json.Number.int.injEq] at hn
    omega
  obtain ⟨-, -, -, h400, -, -, -, ⟨hsame, -⟩, -⟩ := s.handle_decides "POST"
    "/api/toolbox/v1/job?job" "today" ["toolbox s3cret".toUTF8.toList] body r hr
  have hhead := h400.2 ⟨hj, hb⟩
  refine ⟨hr, hhead, hsame ?_⟩
  rw [hhead]
  decide

end Service

end HeldReply
