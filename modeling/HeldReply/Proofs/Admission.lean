import HeldReply.Admission
import HeldReply.Proofs.Routes
import HeldReply.Proofs.Settings.Secret

/-!
# Who is let in

A request is let in by its credential, by its path and by its method.  The path is looked at twice,
each time as a whole: the mount path has to stand at its start, and a slash and the name of a handler
at its end.  Nothing says that the two stand beside each other.

* `judge_eq_authorized_iff` — **what lets a request in**;
* `verdict_by_parts` — **the verdict** by the parts of the credential and of the path;
* `authorized_without_secret_iff` — what is let in where there is no secret;
* `lookup_within_mount_iff` — when the name of the handler lies within what follows the mount path.
-/

namespace HeldReply

variable {α : Type} {s : Settings} {routes : Routes α} {method path : String}
  {credential : Option String}

/-! ### Paths -/

/-- The mount path without its trailing slashes. -/
def Settings.mount (s : Settings) : List Char :=
  Text.stripEnd (· == '/') s.basePath.toList

theorem isMounted_iff (basePath path : List Char) :
    isMounted basePath path = true ↔
      ∃ r, beforeQuery path = Text.stripEnd (· == '/') basePath ++ '/' :: r := by
  rw [isMounted, List.isPrefixOf_iff_prefix]
  constructor
  · rintro ⟨r, h⟩
    exact ⟨r, by rw [← h, List.append_assoc]; rfl⟩
  · rintro ⟨r, h⟩
    exact ⟨r, by rw [h, List.append_assoc]; rfl⟩

/-! ### What lets a request in -/

/-- **What lets a request in**: the credential that the settings ask for, a path that lies under the
mount path and has a handler, and the method. -/
theorem judge_eq_authorized_iff :
    judge s routes method path credential = .authorized ↔
      (∃ c, s.credential = some c ∧ credential = some c) ∧
      isMounted s.basePath.toList path.toList = true ∧ routes.contains path = true ∧
      method = "POST" := by
  unfold judge
  cases hc : s.credential with
  | none => simp
  | some c =>
    by_cases hcredential : credential = some c <;>
      by_cases hmounted : isMounted s.basePath.toList path.toList = true <;>
        by_cases hroute : routes.contains path = true <;> simp [hcredential, hmounted, hroute]

theorem judge_of_names (s : Settings) {r q : Routes α} (h : q.names = r.names)
    (method path : String) (credential : Option String) :
    judge s q method path credential = judge s r method path credential := by
  unfold judge
  rw [Routes.contains_of_names h]

/-- A request that was let in has a handler. -/
theorem exists_lookup_of_judge (h : judge s routes method path credential = .authorized) :
    ∃ e, routes.lookup path = .ok e := by
  obtain ⟨-, -, hr, -⟩ := judge_eq_authorized_iff.1 h
  exact (routes.contains_iff_lookup path).1 hr

/-! ### The verdict -/

/-- The client **knows the secret**: there is one, and the scheme, a blank and the secret were sent. -/
def Settings.KnownBy (s : Settings) (credential : Option String) : Prop :=
  ∃ token, s.token = some token ∧ credential = some (s.scheme ++ " " ++ token)

/-- There is **something to do** for a request: the method is the one, the path lies under the mount
path, and it ends in a slash and a name. -/
def IsServed (routes : Routes α) (mount : List Char) (method : String) (p : List Char) : Prop :=
  method = "POST" ∧ (∃ r, p = mount ++ '/' :: r) ∧ ∃ name ∈ routes.names, EndsWith p name

theorem knownBy_iff : s.KnownBy credential ↔ ∃ c, s.credential = some c ∧ credential = some c := by
  unfold Settings.KnownBy Settings.credential
  constructor
  · intro ⟨token, htoken, hcredential⟩
    exact ⟨_, by rw [htoken]; rfl, hcredential⟩
  · intro ⟨c, hc, hcredential⟩
    obtain ⟨token, htoken, rfl⟩ := Option.map_eq_some_iff.1 hc
    exact ⟨token, htoken, hcredential⟩

theorem judge_eq_unauthorized_iff :
    judge s routes method path credential = .unauthorized ↔ ¬ s.KnownBy credential := by
  rw [knownBy_iff, judge]
  cases hc : s.credential with
  | none => simp
  | some c =>
    have hknown : (∃ c', some c = some c' ∧ credential = some c') ↔ credential = some c := by simp
    rw [hknown]
    dsimp only
    split
    · rename_i hne
      exact iff_of_true rfl hne
    · rename_i heq
      -- Whatever else is asked is not answered with a refusal.
      refine iff_of_false (fun hv => ?_) heq
      split at hv
      · cases hv
      · split at hv <;> cases hv

/-- Mounted, and with a handler: both are told by the path up to its query. -/
theorem isServed_iff : IsServed routes s.mount method (beforeQuery path.toList) ↔
    isMounted s.basePath.toList path.toList = true ∧ routes.contains path = true ∧
      method = "POST" := by
  have hnames : routes.contains path = true ↔
      ∃ name ∈ routes.names, EndsWith (beforeQuery path.toList) name := by
    rw [Routes.contains, List.any_eq_true, Routes.names]
    simp only [endsIn_iff_endsWith, List.mem_map, exists_exists_and_eq_and]
  rw [IsServed, isMounted_iff, hnames]
  constructor
  · intro h
    exact ⟨h.2.1, h.2.2, h.1⟩
  · intro h
    exact ⟨h.2.2, h.1, h.2.1⟩

theorem judge_eq_authorized_iff_isServed :
    judge s routes method path credential = .authorized ↔
      s.KnownBy credential ∧ IsServed routes s.mount method (beforeQuery path.toList) := by
  rw [judge_eq_authorized_iff, knownBy_iff, isServed_iff]

/-- **Of a path its query does not matter.** -/
theorem judge_of_beforeQuery {path' : String}
    (h : beforeQuery path'.toList = beforeQuery path.toList) :
    judge s routes method path' credential = judge s routes method path credential := by
  have hmounted : isMounted s.basePath.toList path'.toList =
      isMounted s.basePath.toList path.toList := by
    rw [isMounted, h, isMounted]
  have hroute : routes.contains path' = routes.contains path := by
    rw [Routes.contains, h, Routes.contains]
  unfold judge
  rw [hmounted, hroute]

/-- The mount path is what is left of a path **without the slashes at its end**. -/
theorem Settings.mount_spec (s : Settings) : s.mount.getLast? ≠ some '/' ∧
    ∃ k, s.basePath.toList = s.mount ++ List.replicate k '/' := by
  constructor
  · intro hslash
    cases Text.getLast?_stripEnd (· == '/') _ hslash
  · obtain ⟨cut, hcut, hall⟩ := Text.stripEnd_append (· == '/') s.basePath.toList
    refine ⟨cut.length, ?_⟩
    have hcut' : cut = List.replicate cut.length '/' :=
      List.eq_replicate_iff.2 ⟨rfl, fun c hc => beq_iff_eq.1 (hall c hc)⟩
    rw [← hcut']
    exact hcut

/-- **The verdict by parts**: those of the path up to its query, and of the mount path without the
slashes at its end.

* Who does not know the secret is not authorized, whatever else is asked.
* Who knows it is let in if there is something to do for the request, and only then; any other
  request is not supported.
* A query that is added, changed or left out does not change the verdict.
* Of a request that is let in, the handler is found. -/
theorem verdict_by_parts (s : Settings) (routes : Routes α) (method path : String)
    (credential : Option String) :
    ∃ p mount : List Char, IsUpToQuery path.toList p ∧
      (mount.getLast? ≠ some '/' ∧ ∃ k, s.basePath.toList = mount ++ List.replicate k '/') ∧
      (judge s routes method path credential = .unauthorized ↔ ¬ s.KnownBy credential) ∧
      (judge s routes method path credential = .authorized ↔
        s.KnownBy credential ∧ IsServed routes mount method p) ∧
      (judge s routes method path credential = .unsupported ↔
        s.KnownBy credential ∧ ¬ IsServed routes mount method p) ∧
      (judge s routes method (String.ofList p) credential =
          judge s routes method path credential ∧
        ∀ query, judge s routes method (String.ofList (p ++ '?' :: query)) credential =
          judge s routes method path credential) ∧
      (judge s routes method path credential = .authorized → ∃ e, routes.lookup path = .ok e) := by
  have hp := isUpToQuery_beforeQuery path.toList
  refine ⟨beforeQuery path.toList, s.mount, hp, s.mount_spec, judge_eq_unauthorized_iff,
    judge_eq_authorized_iff_isServed, ?_, ⟨?_, ?_⟩, exists_lookup_of_judge⟩
  · have hother : ∀ v : Verdict, v = .unsupported ↔ ¬ v = .unauthorized ∧ ¬ v = .authorized := by
      intro v
      cases v <;> simp
    rw [hother, judge_eq_unauthorized_iff, judge_eq_authorized_iff_isServed, not_not, not_and]
    exact and_congr_right fun hknown => ⟨fun hnot => hnot hknown, fun hnot _ => hnot⟩
  · apply judge_of_beforeQuery
    rw [String.toList_ofList, beforeQuery_eq_iff]
    exact ⟨hp.1, .inl rfl⟩
  · intro query
    apply judge_of_beforeQuery
    rw [String.toList_ofList, beforeQuery_eq_iff]
    exact ⟨hp.1, .inr ⟨query, rfl⟩⟩

/-! ### No secret -/

/-- A credential of an empty secret is the scheme and a blank. -/
theorem credential_eq_some_iff (ht : s.token = none ∨ s.token = some "") (c : String) :
    s.credential = some c ↔ s.token = some "" ∧ c = s.scheme ++ " " := by
  unfold Settings.credential
  rcases ht with ht | ht <;> rw [ht]
  · simp
  · simp [eq_comm]

/-- **What is let in where there is no secret**, or an empty one: of settings that are loaded and then
set from code nothing is let in, unless an empty secret was set and no other one after it.  Then the
scheme and a blank are a credential. -/
theorem authorized_without_secret_iff {processors : Nat} {t : Settings}
    (h : Settings.Loaded processors t) (settings : List Setting)
    (ht : (t.build settings).token = none ∨ (t.build settings).token = some "")
    (routes : Routes α) (method path : String) (credential : Option String) :
    judge (t.build settings) routes method path credential = .authorized ↔
      Settings.lastSecret? settings = some "" ∧
      credential = some ((t.build settings).scheme ++ " ") ∧
      isMounted (t.build settings).basePath.toList path.toList = true ∧
      routes.contains path = true ∧ method = "POST" := by
  rw [judge_eq_authorized_iff, ← Settings.token_build_eq_empty_iff h]
  constructor
  · rintro ⟨⟨c, hc, hcredential⟩, hrest⟩
    obtain ⟨hempty, rfl⟩ := (credential_eq_some_iff ht c).1 hc
    exact ⟨hempty, hcredential, hrest⟩
  · rintro ⟨hempty, hcredential, hrest⟩
    exact ⟨⟨_, (credential_eq_some_iff ht _).2 ⟨hempty, rfl⟩, hcredential⟩, hrest⟩

/-- An empty secret is set, the settings keep the rules, and who sends the scheme and a blank is let
in. -/
theorem authorized_without_secret_of_set_empty :
    ((Settings.base 1).build [.token ""]).check = .ok () ∧
    ((Settings.base 1).build [.token ""]).token = some "" ∧
    judge ((Settings.base 1).build [.token ""]) { entries := [("echo", ())] } "POST"
      "/api/toolbox/echo" (some "toolbox ") = .authorized :=
  ⟨rfl, rfl,
    (authorized_without_secret_iff (.base) [.token ""] (.inr rfl) _ _ _ _).2
      ⟨rfl, by decide +kernel, by decide +kernel, by decide +kernel, rfl⟩⟩

/-! ### Names and the mount path -/

/-- Where a text is put together in two ways, the second part of one of them lies within that of the
other. -/
theorem within_iff_of_append_eq {a r q n : List Char} (h : a ++ r = q ++ n) :
    (∃ p, r = p ++ n) ↔ ¬ ∃ t, t ≠ [] ∧ t <:+ a ∧ n = t ++ r := by
  constructor
  · rintro ⟨p, rfl⟩ ⟨t, ht, -, hn⟩
    have hlength := congrArg List.length hn
    have := List.length_pos_iff.2 ht
    simp only [List.length_append] at hlength
    omega
  · intro hnot
    obtain ⟨p, -, hr⟩ | ⟨t, ha, hn⟩ := List.append_eq_append_iff.1 h
    · exact ⟨p, hr⟩
    · by_cases ht : t = []
      · subst ht
        exact ⟨[], by simpa using hn.symm⟩
      · exact absurd ⟨t, ht, ⟨q, ha.symm⟩, hn⟩ hnot

/-- **When the name lies within what follows the mount path.**  Of a request that was let in, the path
is the mount path and what follows it, and the handler is found by its name.  The name lies within
what follows, unless the slash before it lies within the mount path: the name then begins with an end
of the mount path, and ends in all that follows.  A name without a slash always lies within what
follows. -/
theorem lookup_within_mount_iff (s : Settings) (routes : Routes α) (method path : String)
    (credential : Option String) (h : judge s routes method path credential = .authorized) :
    ∃ name handler r, routes.lookup path = .ok (name, handler) ∧
      beforeQuery path.toList = s.mount ++ r ∧ r.head? = some '/' ∧
      ((∃ q, r = q ++ '/' :: name.toList) ↔
        ¬ ∃ t, t ≠ [] ∧ t <:+ s.mount ∧ '/' :: name.toList = t ++ r) ∧
      ('/' ∉ name.toList → ∃ q, r = q ++ '/' :: name.toList) := by
  obtain ⟨-, hmounted, -, -⟩ := judge_eq_authorized_iff.1 h
  obtain ⟨⟨name, handler⟩, hlookup⟩ := exists_lookup_of_judge h
  obtain ⟨rest, hrest⟩ := (isMounted_iff _ _).1 hmounted
  obtain ⟨q, hq⟩ := Routes.endsIn_of_lookup hlookup
  have hwithin := within_iff_of_append_eq (hrest.symm.trans hq)
  refine ⟨name, handler, '/' :: rest, hlookup, hrest, rfl, hwithin, fun hname => ?_⟩
  rw [hwithin]
  rintro ⟨t, ht, -, hn⟩
  -- Such a name begins after the first character of the end of the mount path.
  obtain ⟨c, t, rfl⟩ := List.exists_cons_of_ne_nil ht
  obtain ⟨-, hn⟩ := List.cons.inj hn
  rw [hn] at hname
  simp at hname

/-- The name begins with the end of the mount path, and does not lie within what follows. -/
theorem lookup_across_mount :
    ∃ s : Settings, ∃ routes : Routes Unit, s.check = .ok () ∧
      judge s routes "POST" "/api/toolbox/echo" (some "toolbox secret") = .authorized ∧
      ∃ name handler r, routes.lookup "/api/toolbox/echo" = .ok (name, handler) ∧
        beforeQuery "/api/toolbox/echo".toList = s.mount ++ r ∧
        ¬ ∃ q, r = q ++ '/' :: name.toList := by
  let s := (Settings.base 1).build [.token "secret"]
  have hcheck : ((Settings.base 1).build [.token "secret"]).check = .ok () := rfl
  let routes : Routes Unit := { entries := [("toolbox/echo", ())] }
  have h : judge s routes "POST" "/api/toolbox/echo" (some "toolbox secret") = .authorized := by
    decide +kernel
  obtain ⟨name, handler, r, hlookup, hpath, -, hwithin, -⟩ :=
    lookup_within_mount_iff s routes _ _ _ h
  refine ⟨s, routes, hcheck, h, name, handler, r, hlookup, hpath, fun hin => hwithin.1 hin ?_⟩
  have hfind : routes.find? "/api/toolbox/echo" = some ("toolbox/echo", ()) := by decide +kernel
  have hname : name = "toolbox/echo" :=
    congrArg Prod.fst (Option.some.inj ((Routes.find?_of_lookup hlookup).symm.trans hfind))
  have hr : r = "/echo".toList := by
    have hsplit : beforeQuery "/api/toolbox/echo".toList = s.mount ++ "/echo".toList := by
      decide +kernel
    exact List.append_cancel_left (hpath.symm.trans hsplit)
  rw [hname, hr]
  exact ⟨"/toolbox".toList, by decide, ⟨"/api".toList, by decide +kernel⟩, by decide +kernel⟩

end HeldReply
