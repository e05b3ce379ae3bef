import HeldReply.Routes
import Mathlib.Data.List.Nodup

/-!
# What is registered, and what is found

Handlers are registered one after another, and some calls are refused.  What was registered can be
copied at any time, and the copy goes its own way.  However it came about, names are bare and
different, and a path is answered by the first name that it ends in.

* `EndsWith` — a text ends in a slash and a name; of two names that a path ends in, one may end in the
  other (`EndsWith.trans`);
* `Routes.lookup_eq_ok_iff`, `Routes.lookup_eq_error_iff` — **what is found for a path**;
* `Routes.register_cases` — **everything that registering can do**;
* `Routes.WellNamed` — **the invariant**: names are bare and different;
* `Routes.Kept`, `Routes.Act`, `Routes.run` — several collections of handlers, copied and added to in
  any order;
* `Routes.found_over_history` — **names and look-ups over any history**;
* `Routes.answers_iff` — **which handlers can be reached**.
-/

namespace HeldReply

variable {α : Type}

/-! ### Texts that end in a name -/

/-- A text **ends in** a slash and the name. -/
def EndsWith (text : List Char) (name : String) : Prop :=
  ∃ q, text = q ++ '/' :: name.toList

theorem endsIn_iff (path name : List Char) :
    endsIn path name = true ↔ ∃ q, path = q ++ '/' :: name := by
  rw [endsIn, List.isSuffixOf_iff_suffix]
  constructor
  · rintro ⟨q, h⟩
    exact ⟨q, h.symm⟩
  · rintro ⟨q, h⟩
    exact ⟨q, h.symm⟩

theorem endsIn_iff_endsWith (path : List Char) (name : String) :
    endsIn path name.toList = true ↔ EndsWith path name :=
  endsIn_iff path name.toList

/-- What ends in a name ends in all that the name ends in. -/
theorem EndsWith.trans {text : List Char} {n m : String} (h : EndsWith text n)
    (k : EndsWith n.toList m) : EndsWith text m := by
  obtain ⟨q, hq⟩ := h
  obtain ⟨x, hx⟩ := k
  refine ⟨q ++ '/' :: x, ?_⟩
  rw [hq, hx, List.append_assoc]
  rfl

/-- A slash and a name end in that name, and in the names that it ends in. -/
theorem endsWith_slash_iff {n m : String} :
    EndsWith ('/' :: n.toList) m ↔ n = m ∨ EndsWith n.toList m := by
  constructor
  · intro ⟨q, hq⟩
    obtain ⟨-, h⟩ | ⟨x, -, h⟩ := List.cons_eq_append_iff.1 hq
    · exact .inl (String.toList_injective (List.cons.inj h).2.symm)
    · exact .inr ⟨x, h⟩
  · intro h
    obtain rfl | ⟨x, hx⟩ := h
    · exact ⟨[], rfl⟩
    · exact ⟨'/' :: x, congrArg (List.cons '/') hx⟩

/-- The characters of a path **up to its query**. -/
def IsUpToQuery (path p : List Char) : Prop :=
  '?' ∉ p ∧ (path = p ∨ ∃ query, path = p ++ '?' :: query)

theorem isUpToQuery_beforeQuery (path : List Char) : IsUpToQuery path (beforeQuery path) :=
  beforeQuery_eq_iff.1 rfl

namespace Routes

variable {r q : Routes α} {path name : String} {handler : α} {e : String × α} {f : Failure}

/-! ### What is found -/

/-- A path **has a handler** exactly if one is found for it. -/
theorem contains_iff_lookup (r : Routes α) (path : String) :
    r.contains path = true ↔ ∃ e, r.lookup path = .ok e := by
  have hfind : r.contains path = (r.find? path).isSome := by
    rw [contains, find?, List.isSome_find?]
  rw [hfind, lookup]
  cases r.find? path <;> simp

theorem find?_of_lookup (h : r.lookup path = .ok e) : r.find? path = some e := by
  unfold lookup at h
  split at h <;> cases h
  assumption

theorem lookup_eq_ok_iff_find? : r.lookup path = .ok e ↔ r.find? path = some e := by
  constructor
  · exact find?_of_lookup
  · intro h
    rw [lookup, h]

/-- **What is found** is the first handler whose name the path ends in. -/
theorem lookup_eq_ok_iff : r.lookup path = .ok e ↔ ∃ before after,
    r.entries = before ++ e :: after ∧ EndsWith (beforeQuery path.toList) e.1 ∧
      ∀ b ∈ before, ¬ EndsWith (beforeQuery path.toList) b.1 := by
  rw [lookup_eq_ok_iff_find?, find?, List.find?_eq_some_iff_append, endsIn_iff_endsWith]
  constructor
  · intro ⟨hends, before, after, hentries, hnot⟩
    refine ⟨before, after, hentries, hends, fun b hb hbends => ?_⟩
    have hfalse := hnot b hb
    rw [(endsIn_iff_endsWith _ _).2 hbends] at hfalse
    cases hfalse
  · intro ⟨before, after, hentries, hends, hnot⟩
    refine ⟨hends, before, after, hentries, fun b hb => ?_⟩
    rw [Bool.not_eq_true', ← Bool.not_eq_true, endsIn_iff_endsWith]
    exact hnot b hb

/-- **Nothing is found** if the path ends in no name. -/
theorem lookup_eq_error_iff : r.lookup path = .error f ↔
    f = .noHandler (String.ofList (beforeQuery path.toList)) ∧
      ∀ e ∈ r.entries, ¬ EndsWith (beforeQuery path.toList) e.1 := by
  have hnone : r.find? path = none ↔
      ∀ e ∈ r.entries, ¬ EndsWith (beforeQuery path.toList) e.1 := by
    rw [find?, List.find?_eq_none]
    simp only [endsIn_iff_endsWith]
  rw [← hnone, lookup]
  cases r.find? path with
  | none => simp [eq_comm]
  | some e => simp

/-- The path ends in a slash and the name of its handler. -/
theorem endsIn_of_lookup (h : r.lookup path = .ok e) :
    ∃ q, beforeQuery path.toList = q ++ '/' :: e.1.toList := by
  obtain ⟨-, -, -, hends, -⟩ := lookup_eq_ok_iff.1 h
  exact hends

/-- Of a path the name of its handler depends on the names alone. -/
theorem find?_map_fst (r : Routes α) (path : String) :
    (r.find? path).map Prod.fst =
      r.names.find? fun name => endsIn (beforeQuery path.toList) name.toList := by
  rw [names, List.find?_map, find?]
  rfl

theorem contains_of_names (h : q.names = r.names) (path : String) :
    q.contains path = r.contains path := by
  have hany (r : Routes α) : r.contains path =
      r.names.any fun name => endsIn (beforeQuery path.toList) name.toList := by
    rw [contains, names, List.any_map]
    rfl
  rw [hany, hany, h]

theorem name_of_names (h : q.names = r.names) {e' : String × α} (hr : r.lookup path = .ok e)
    (hq : q.lookup path = .ok e') : e'.1 = e.1 := by
  have := q.find?_map_fst path
  rw [h, ← r.find?_map_fst path, find?_of_lookup hr, find?_of_lookup hq] at this
  simpa using this

/-- What is found stays, whatever else is registered **later**. -/
theorem lookup_of_append {es : List (String × α)} (hq : q.entries = r.entries ++ es)
    (h : r.lookup path = .ok e) : q.lookup path = .ok e := by
  obtain ⟨before, after, hentries, hends, hnot⟩ := lookup_eq_ok_iff.1 h
  refine lookup_eq_ok_iff.2 ⟨before, after ++ es, ?_, hends, hnot⟩
  rw [hq, hentries, List.append_assoc]
  rfl

/-! ### What is registered -/

/-- **Everything that registering can do**: a name of which nothing is left is refused, and one that
is taken; any other comes behind those that were there. -/
theorem register_cases (r : Routes α) (name : String) (handler : α) :
    (normalName name = "" ∧
      r.register name handler = .error (.misconfigured ("处理器请求名无效: '" ++ name ++ "'"))) ∨
    (normalName name ∈ r.names ∧
      r.register name handler = .error (.nameTaken (normalName name))) ∨
    (normalName name ≠ "" ∧ normalName name ∉ r.names ∧
      r.register name handler = .ok { entries := r.entries ++ [(normalName name, handler)] }) := by
  unfold register
  by_cases hempty : normalName name = ""
  · exact .inl ⟨hempty, if_pos (by rw [hempty]; rfl)⟩
  · have hsome : ¬ (normalName name).isEmpty = true := by
      rw [String.isEmpty_iff]
      exact hempty
    right
    by_cases htaken : normalName name ∈ r.names
    · exact .inl ⟨htaken, by simp only [if_neg hsome, if_pos htaken]⟩
    · exact .inr ⟨hempty, htaken, by simp only [if_neg hsome, if_neg htaken]⟩

/-- A name is **bare**: there is something of it, and no slash at its ends. -/
structure IsBare (name : String) : Prop where
  ne_empty : name ≠ ""
  head : name.toList.head? ≠ some '/'
  last : name.toList.getLast? ≠ some '/'

theorem isBare_normalName (h : normalName name ≠ "") : IsBare (normalName name) := by
  have hchars : (normalName name).toList =
      Text.strip (· == '/') (Text.strip Text.isBlank name.toList) := String.toList_ofList
  refine ⟨h, fun hslash => ?_, fun hslash => ?_⟩
  · rw [hchars] at hslash
    cases Text.head?_strip (· == '/') _ hslash
  · rw [hchars] at hslash
    cases Text.getLast?_strip (· == '/') _ hslash

/-- **Names are bare and different.** -/
structure WellNamed (r : Routes α) : Prop where
  bare : ∀ n ∈ r.names, IsBare n
  nodup : r.names.Nodup

theorem wellNamed_empty : WellNamed ({} : Routes α) :=
  ⟨fun _ hn => absurd hn List.not_mem_nil, List.nodup_nil⟩

/-- One more name is bare, and no other. -/
theorem WellNamed.register (h : WellNamed r) (hr : r.register name handler = .ok q) :
    WellNamed q := by
  obtain ⟨-, hs⟩ | ⟨-, hs⟩ | ⟨hne, hnew, hs⟩ := r.register_cases name handler
  · rw [hs] at hr
    cases hr
  · rw [hs] at hr
    cases hr
  · rw [hs] at hr
    cases hr
    have hnames : names { entries := r.entries ++ [(normalName name, handler)] } =
        r.names ++ [normalName name] := List.map_append
    constructor
    · rw [hnames]
      intro n hn
      obtain hn | hn := List.mem_append.1 hn
      · exact h.bare n hn
      · rw [List.mem_singleton.1 hn]
        exact isBare_normalName hne
    · rw [hnames, List.nodup_append]
      refine ⟨h.nodup, List.nodup_singleton _, ?_⟩
      intro n hn m hm hsame
      rw [hsame, List.mem_singleton.1 hm] at hn
      exact hnew hn

/-! ### Histories -/

/-- Handlers with the calls by which they were **registered**: those that were not refused, in
order. -/
structure Kept (α : Type) where
  routes : Routes α := {}
  accepted : List (String × α) := []

/-- What is **done** with collections of handlers, which go by number. -/
inductive Act (α : Type) where
  | register (i : Nat) (name : String) (handler : α)
  /-- One collection more, which is a copy of another. -/
  | copy (i : Nat)

/-- Register a handler, if it is not refused. -/
def Kept.register (k : Kept α) (name : String) (handler : α) : Kept α :=
  match k.routes.register name handler with
  | .ok routes => { routes, accepted := k.accepted ++ [(name, handler)] }
  | .error _ => k

/-- **One step.** -/
def step (ks : List (Kept α)) : Act α → List (Kept α)
  | .register i name handler => ks.modify i fun k => k.register name handler
  | .copy i => ks ++ ks[i]?.toList

/-- **What comes of any sequence of steps**, from a collection without handlers. -/
def run (acts : List (Act α)) : List (Kept α) :=
  acts.foldl step [{}]

/-- The collection to which a step may add. -/
def Act.target? : Act α → Option Nat
  | .register i _ _ => some i
  | .copy _ => none

theorem run_append (acts more : List (Act α)) : run (acts ++ more) = more.foldl step (run acts) :=
  List.foldl_append

/-- **What is kept of the history**: names are bare and different, and stand in the order of the calls
that were not refused. -/
structure Kept.Fits (k : Kept α) : Prop extends WellNamed k.routes where
  entries_eq : k.routes.entries = k.accepted.map fun c => (normalName c.1, c.2)

theorem Kept.Fits.register {k : Kept α} (h : k.Fits) (name : String) (handler : α) :
    (k.register name handler).Fits := by
  unfold Kept.register
  cases hr : k.routes.register name handler with
  | error f => exact h
  | ok q =>
    refine ⟨h.toWellNamed.register hr, ?_⟩
    obtain ⟨-, hs⟩ | ⟨-, hs⟩ | ⟨-, -, hs⟩ := k.routes.register_cases name handler
    · rw [hs] at hr
      cases hr
    · rw [hs] at hr
      cases hr
    · rw [hs] at hr
      cases hr
      show k.routes.entries ++ [_] = (k.accepted ++ [(name, handler)]).map _
      rw [List.map_append, h.entries_eq]
      rfl

/-- A collection **goes on** to another: what is added comes behind. -/
def Kept.GoesOn (k l : Kept α) : Prop :=
  ∃ es, l.routes.entries = k.routes.entries ++ es

theorem Kept.GoesOn.refl (k : Kept α) : k.GoesOn k :=
  ⟨[], (List.append_nil _).symm⟩

theorem Kept.GoesOn.trans {k l m : Kept α} (h : k.GoesOn l) (h' : l.GoesOn m) : k.GoesOn m := by
  obtain ⟨es, hes⟩ := h
  obtain ⟨fs, hfs⟩ := h'
  exact ⟨es ++ fs, by rw [hfs, hes, List.append_assoc]⟩

theorem Kept.goesOn_register (k : Kept α) (name : String) (handler : α) :
    k.GoesOn (k.register name handler) := by
  unfold Kept.register
  obtain ⟨-, hs⟩ | ⟨-, hs⟩ | ⟨-, -, hs⟩ := k.routes.register_cases name handler
  · rw [hs]
    exact .refl k
  · rw [hs]
    exact .refl k
  · rw [hs]
    exact ⟨_, rfl⟩

variable {ks : List (Kept α)} {k : Kept α} {i : Nat}

/-- **A step** keeps what every collection keeps. -/
theorem fits_step (h : ∀ k ∈ ks, k.Fits) (a : Act α) : ∀ k ∈ step ks a, k.Fits := by
  intro k hk
  cases a with
  | register i name handler =>
    obtain ⟨j, hj⟩ := List.mem_iff_getElem?.1 hk
    rw [step, List.getElem?_modify] at hj
    obtain ⟨l, hl, rfl⟩ := Option.map_eq_some_iff.1 hj
    have hfits := h l (List.mem_of_getElem? hl)
    by_cases hij : i = j
    · rw [if_pos hij]
      exact hfits.register name handler
    · rw [if_neg hij]
      exact hfits
  | copy i =>
    obtain hk | hk := List.mem_append.1 hk
    · exact h k hk
    · exact h k (List.mem_of_getElem? (Option.mem_toList.1 hk))

/-- **Every history** keeps it. -/
theorem fits_run (acts : List (Act α)) : ∀ k ∈ run acts, k.Fits := by
  have hfold : ∀ (ks : List (Kept α)), (∀ k ∈ ks, k.Fits) → ∀ k ∈ acts.foldl step ks, k.Fits := by
    induction acts with
    | nil => exact fun _ h => h
    | cons a acts ih => exact fun ks h => ih (step ks a) (fits_step h a)
  apply hfold
  intro k hk
  rw [List.mem_singleton.1 hk]
  exact ⟨wellNamed_empty, rfl⟩

/-- **A step** adds to one collection, and leaves all others as they are. -/
theorem goesOn_step (h : ks[i]? = some k) (a : Act α) :
    ∃ l, (step ks a)[i]? = some l ∧ k.GoesOn l ∧ (a.target? ≠ some i → l = k) := by
  cases a with
  | register j name handler =>
    rw [step, List.getElem?_modify, h]
    by_cases hj : j = i
    · refine ⟨k.register name handler, congrArg some (if_pos hj), k.goesOn_register _ _, ?_⟩
      intro hne
      exact absurd (congrArg some hj) hne
    · exact ⟨k, congrArg some (if_neg hj), .refl k, fun _ => rfl⟩
  | copy j =>
    have hlt : i < ks.length := (List.getElem?_eq_some_iff.1 h).1
    refine ⟨k, ?_, .refl k, fun _ => rfl⟩
    rw [step, List.getElem?_append_left hlt, h]

theorem goesOn_steps (h : ks[i]? = some k) (more : List (Act α)) :
    ∃ l, (more.foldl step ks)[i]? = some l ∧ k.GoesOn l ∧
      ((∀ a ∈ more, a.target? ≠ some i) → l = k) := by
  induction more generalizing ks k with
  | nil => exact ⟨k, h, .refl k, fun _ => rfl⟩
  | cons a more ih =>
    obtain ⟨l, hl, hgoes, hsame⟩ := goesOn_step h a
    obtain ⟨m, hm, hgoes', hsame'⟩ := ih hl
    refine ⟨m, hm, hgoes.trans hgoes', fun hnot => ?_⟩
    rw [hsame' fun b hb => hnot b (List.mem_cons_of_mem a hb)]
    exact hsame (hnot a List.mem_cons_self)

/-- **Names and look-ups over any history** of collections that are copied and added to.

* A call that is refused changes nothing.
* Names are not empty, begin and end with no slash, differ, and stand in the order of the calls that
  were not refused.
* A path, up to its query, is answered by the first handler whose name it ends in.  If there is none,
  the failure tells the path.
* What is found once is found ever after.  Only registering with a collection changes it, so neither
  does a copy change what it was taken from, nor the other way round. -/
theorem found_over_history (acts : List (Act α)) (i : Nat) (k : Kept α)
    (h : (run acts)[i]? = some k) :
    (∀ name handler f, k.routes.register name handler = .error f →
      run (acts ++ [.register i name handler]) = run acts) ∧
    ((∀ n ∈ k.routes.names, n ≠ "" ∧ n.toList.head? ≠ some '/' ∧ n.toList.getLast? ≠ some '/') ∧
      k.routes.names.Nodup ∧
      k.routes.entries = k.accepted.map fun c => (normalName c.1, c.2)) ∧
    (∀ path : String, ∃ p, IsUpToQuery path.toList p ∧
      (∀ e, k.routes.lookup path = .ok e ↔ ∃ before after,
        k.routes.entries = before ++ e :: after ∧ EndsWith p e.1 ∧
          ∀ b ∈ before, ¬ EndsWith p b.1) ∧
      (∀ f, k.routes.lookup path = .error f ↔
        f = .noHandler (String.ofList p) ∧ ∀ e ∈ k.routes.entries, ¬ EndsWith p e.1) ∧
      (k.routes.contains path = true ↔ ∃ e, k.routes.lookup path = .ok e)) ∧
    (∀ more : List (Act α), ∃ l, (run (acts ++ more))[i]? = some l ∧
      (∀ path e, k.routes.lookup path = .ok e → l.routes.lookup path = .ok e) ∧
      ((∀ a ∈ more, a.target? ≠ some i) → l = k)) ∧
    (run (acts ++ [.copy i]))[(run acts).length]? = some k := by
  have hfits := fits_run acts k (List.mem_of_getElem? h)
  refine ⟨?_, ⟨?_, hfits.nodup, hfits.entries_eq⟩, ?_, ?_, ?_⟩
  · intro name handler f hf
    have hsame : k.register name handler = k := by rw [Kept.register, hf]
    rw [run_append]
    show (run acts).modify i _ = run acts
    apply List.ext_getElem?
    intro j
    rw [List.getElem?_modify]
    by_cases hij : i = j
    · rw [← hij, h, Option.map_eq_map, Option.map_some, if_pos rfl, hsame]
    · simp [hij]
  · intro n hn
    obtain ⟨hne, hhead, hlast⟩ := hfits.bare n hn
    exact ⟨hne, hhead, hlast⟩
  · intro path
    exact ⟨_, isUpToQuery_beforeQuery _, fun _ => lookup_eq_ok_iff, fun _ => lookup_eq_error_iff,
      contains_iff_lookup _ _⟩
  · intro more
    obtain ⟨l, hl, ⟨es, hes⟩, hsame⟩ := goesOn_steps h more
    rw [run_append]
    exact ⟨l, hl, fun path e he => lookup_of_append hes he, hsame⟩
  · rw [run_append]
    show (run acts ++ (run acts)[i]?.toList)[(run acts).length]? = some k
    rw [h, List.getElem?_append_right (Nat.le_refl _), Nat.sub_self]
    rfl

/-- One collection is copied, and both are added to; what was found in the first one is found ever
after, and nothing of the copy. -/
theorem found_over_history_beside_copy :
    ∃ k : Kept Nat, (run [.register 0 "open" 0, .register 0 " /project/open/" 1, .copy 0,
        .register 1 "close" 2, .register 0 "open/" 3])[0]? = some k ∧
      k.routes.names = ["open", "project/open"] ∧ k.routes.names.Nodup ∧
      k.routes.lookup "/api/project/open?x=1" = .ok ("open", 0) ∧
      k.routes.lookup "/api/close?x=1" = .error (.noHandler "/api/close") ∧
      ∀ more, ∃ l, (run ([.register 0 "open" 0, .register 0 " /project/open/" 1, .copy 0,
          .register 1 "close" 2, .register 0 "open/" 3] ++ more))[0]? = some l ∧
        l.routes.lookup "/api/project/open?x=1" = .ok ("open", 0) := by
  let acts : List (Act Nat) := [.register 0 "open" 0, .register 0 " /project/open/" 1, .copy 0,
    .register 1 "close" 2, .register 0 "open/" 3]
  have hrun : ((run acts)[0]?).map (fun k => k.routes.entries) =
      some [("open", 0), ("project/open", 1)] := by decide +kernel
  obtain ⟨k, hk, hentries⟩ := Option.map_eq_some_iff.1 hrun
  obtain ⟨-, ⟨-, hnodup, -⟩, hfound, hlater, -⟩ := found_over_history acts 0 k hk
  have hlookup : k.routes.lookup "/api/project/open?x=1" = .ok ("open", 0) := by
    obtain ⟨p, hp, hok, -⟩ := hfound "/api/project/open?x=1"
    have hpath : p = "/api/project/open".toList := by
      rw [← beforeQuery_eq_iff.2 hp]
      decide +kernel
    refine (hok _).2 ⟨[], _, hentries, ?_, fun _ hb => absurd hb List.not_mem_nil⟩
    exact ⟨"/api/project".toList, by rw [hpath]; decide +kernel⟩
  have hmissing : k.routes.lookup "/api/close?x=1" = .error (.noHandler "/api/close") := by
    obtain ⟨p, hp, -, herror, -⟩ := hfound "/api/close?x=1"
    have hpath : p = "/api/close".toList := by
      rw [← beforeQuery_eq_iff.2 hp]
      decide +kernel
    refine (herror _).2 ⟨by rw [hpath]; decide +kernel, ?_⟩
    rw [hentries, hpath]
    intro e he
    rw [← endsIn_iff_endsWith]
    revert e
    decide +kernel
  refine ⟨k, hk, congrArg (List.map Prod.fst) hentries, hnodup, hlookup, hmissing, ?_⟩
  intro more
  obtain ⟨l, hl, hkept, -⟩ := hlater more
  exact ⟨l, hl, hkept _ _ hlookup⟩

/-! ### Which handlers can be reached -/

/-- A path that ends in a name is answered by the handler of that name, or by **one before it** if
there is an earlier name that it ends in. -/
theorem exists_lookup_of_endsWith {earlier later : List (String × α)}
    (hentries : r.entries = earlier ++ e :: later)
    (hends : EndsWith (beforeQuery path.toList) e.1) :
    ∃ found ∈ earlier ++ [e], r.lookup path = .ok found := by
  let p (e : String × α) : Bool := endsIn (beforeQuery path.toList) e.1.toList
  have hsome : ((earlier ++ [e]).find? p).isSome = true := by
    rw [List.isSome_find?, List.any_append]
    simp [p, (endsIn_iff_endsWith _ _).2 hends]
  obtain ⟨found, hfound⟩ := Option.isSome_iff_exists.1 hsome
  refine ⟨found, List.mem_of_find?_eq_some hfound, ?_⟩
  have hsplit : r.entries = (earlier ++ [e]) ++ later := by
    rw [hentries, List.append_assoc]
    rfl
  rw [lookup_eq_ok_iff_find?, find?, hsplit]
  show ((earlier ++ [e]) ++ later).find? p = some found
  rw [List.find?_append, hfound, Option.some_or]

/-- **Which handlers can be reached.**  There is a path that a handler answers exactly if its name has
no question mark, and ends in no earlier one.  If it ends in an earlier one, all its paths are
answered by that, or by one before it. -/
theorem answers_iff (acts : List (Act α)) (i : Nat) (k : Kept α) (h : (run acts)[i]? = some k)
    (before after : List (String × α)) (n : String) (handler : α)
    (hn : k.routes.entries = before ++ (n, handler) :: after) :
    ((∃ path, k.routes.lookup path = .ok (n, handler)) ↔
      '?' ∉ n.toList ∧ ∀ m ∈ before, ¬ EndsWith n.toList m.1) ∧
    ∀ earlier m later, before = earlier ++ m :: later → EndsWith n.toList m.1 →
      ∀ (path : String) (p : List Char), IsUpToQuery path.toList p → EndsWith p n →
        ∃ found ∈ earlier ++ [m], k.routes.lookup path = .ok found := by
  have hfits := fits_run acts k (List.mem_of_getElem? h)
  -- No earlier name is the same.
  have hdifferent : ∀ m ∈ before, m.1 ≠ n := by
    have hnodup := hfits.nodup
    rw [names, hn, List.map_append, List.nodup_append] at hnodup
    intro m hm
    exact hnodup.2.2 m.1 (List.mem_map_of_mem hm) n (List.mem_map_of_mem List.mem_cons_self)
  have hshadow : ∀ earlier m later, before = earlier ++ m :: later → EndsWith n.toList m.1 →
      ∀ path : String, EndsWith (beforeQuery path.toList) n →
        ∃ found ∈ earlier ++ [m], k.routes.lookup path = .ok found := by
    intro earlier m later hbefore hm path hpath
    have hentries : k.routes.entries = earlier ++ m :: (later ++ (n, handler) :: after) := by
      rw [hn, hbefore, List.append_assoc]
      rfl
    exact exists_lookup_of_endsWith hentries (hpath.trans hm)
  refine ⟨⟨?_, ?_⟩, ?_⟩
  · intro ⟨path, hpath⟩
    obtain ⟨-, -, -, ⟨q, hq⟩, -⟩ := lookup_eq_ok_iff.1 hpath
    constructor
    · have hquery := (isUpToQuery_beforeQuery path.toList).1
      rw [hq] at hquery
      intro hmem
      exact hquery (List.mem_append_right q (List.mem_cons_of_mem _ hmem))
    · intro m hm hends
      obtain ⟨earlier, later, hbefore⟩ := List.append_of_mem hm
      obtain ⟨found, hfound, hlookup⟩ := hshadow earlier m later hbefore hends path ⟨q, hq⟩
      rw [hpath] at hlookup
      cases hlookup
      refine hdifferent (n, handler) ?_ rfl
      rw [hbefore]
      obtain hfound | hfound := List.mem_append.1 hfound
      · exact List.mem_append_left _ hfound
      · exact List.mem_append_right _ (List.mem_singleton.1 hfound ▸ List.mem_cons_self)
  · intro ⟨hquery, hfree⟩
    -- The shortest path of the name is answered by it.
    have hpath : beforeQuery (String.ofList ('/' :: n.toList)).toList = '/' :: n.toList := by
      rw [String.toList_ofList, beforeQuery_eq_iff]
      refine ⟨?_, .inl rfl⟩
      intro hmem
      obtain hmem | hmem := List.mem_cons.1 hmem
      · cases hmem
      · exact hquery hmem
    refine ⟨String.ofList ('/' :: n.toList), lookup_eq_ok_iff.2 ⟨before, after, hn, ?_, ?_⟩⟩
    · rw [hpath]
      exact ⟨[], rfl⟩
    · intro m hm
      rw [hpath, endsWith_slash_iff]
      intro hends
      obtain hsame | hends := hends
      · exact hdifferent m hm hsame.symm
      · exact hfree m hm hends
  · intro earlier m later hbefore hm path p hp hends
    rw [← beforeQuery_eq_iff.2 hp] at hends
    exact hshadow earlier m later hbefore hm path hends

/-- A name that ends in an earlier one cannot be reached, and its path is answered by that one; one
that comes earlier can. -/
theorem answers_iff_behind_shorter_name :
    ∃ k : Kept Nat, (run [.register 0 "a/open" 0, .register 0 "open" 1,
        .register 0 "project/open" 2])[0]? = some k ∧
      k.routes.entries = [("a/open", 0), ("open", 1)] ++ ("project/open", 2) :: [] ∧
      (¬ ∃ path, k.routes.lookup path = .ok ("project/open", 2)) ∧
      (∃ path, k.routes.lookup path = .ok ("a/open", 0)) ∧
      ∃ found ∈ [("a/open", 0), ("open", 1)], k.routes.lookup "/api/project/open" = .ok found := by
  let acts : List (Act Nat) := [.register 0 "a/open" 0, .register 0 "open" 1,
    .register 0 "project/open" 2]
  have hrun : ((run acts)[0]?).map (fun k => k.routes.entries) =
      some [("a/open", 0), ("open", 1), ("project/open", 2)] := by decide +kernel
  obtain ⟨k, hk, hentries⟩ := Option.map_eq_some_iff.1 hrun
  have hends : EndsWith "project/open".toList "open" := ⟨"project".toList, by decide +kernel⟩
  obtain ⟨hreached, hshadowed⟩ := answers_iff acts 0 k hk [("a/open", 0), ("open", 1)] []
    "project/open" 2 hentries
  obtain ⟨hfirst, -⟩ := answers_iff acts 0 k hk [] [("open", 1), ("project/open", 2)] "a/open" 0
    hentries
  refine ⟨k, hk, hentries, ?_, ?_, ?_⟩
  · intro hpath
    have hfree := (hreached.1 hpath).2
    exact hfree ("open", 1) (by decide) hends
  · exact hfirst.2 ⟨by decide +kernel, fun _ hm => absurd hm List.not_mem_nil⟩
  · refine hshadowed [("a/open", 0)] ("open", 1) [] rfl hends "/api/project/open"
      "/api/project/open".toList ⟨by decide +kernel, .inl rfl⟩ ?_
    exact ⟨"/api".toList, by decide +kernel⟩

end Routes

end HeldReply
