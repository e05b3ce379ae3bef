import HeldReply.Proofs.Routes
import Mathlib.Data.List.TakeWhile

/-!
# Names under which handlers are kept

A name is kept without the blanks at its ends, and then without the slashes there.  A blank that
stands behind such slashes stays, and the name that is kept would be cut again.  Whoever registers
another handler under just that name is not told that it is taken.

* `Text.exists_strip`, `Text.strip_append_append` — **what cutting a text at its ends leaves**;
* `normalName_eq_self_iff` — the names that are kept as they are;
* `HidesBlank`, `head_isBlank_iff` — **where a blank at an end of a kept name comes from**;
* `Routes.register_eq_nameTaken_iff` — when a name is refused because it is taken;
* `Routes.kept_as_it_is_iff` — **which kept names are kept again as they are**.
-/

namespace HeldReply

/-! ### Texts cut at their ends -/

namespace Text

variable {α : Type} {p : α → Bool} {xs front middle back : List α}

theorem dropWhile_of_head? (h : ∀ x, xs.head? = some x → p x = false) : xs.dropWhile p = xs := by
  cases xs with
  | nil => rfl
  | cons x xs => exact List.dropWhile_cons_of_neg (by rw [h x rfl]; exact Bool.false_ne_true)

/-- What is cut off at either end satisfies `p`. -/
theorem exists_strip (p : α → Bool) (xs : List α) : ∃ front back, xs = front ++ strip p xs ++ back ∧
    (∀ x ∈ front, p x = true) ∧ ∀ x ∈ back, p x = true := by
  obtain ⟨back, hcut, hback⟩ := stripEnd_append p (xs.dropWhile p)
  refine ⟨xs.takeWhile p, back, ?_, ?_, hback⟩
  · show xs = xs.takeWhile p ++ stripEnd p (xs.dropWhile p) ++ back
    rw [List.append_assoc, ← hcut, List.takeWhile_append_dropWhile]
  · intro x hx
    exact List.all_eq_true.1 List.all_takeWhile x hx

theorem stripEnd_append_of_all (hback : ∀ x ∈ back, p x = true)
    (hlast : ∀ x, middle.getLast? = some x → p x = false) : stripEnd p (middle ++ back) = middle := by
  have hstop : middle.reverse.dropWhile p = middle.reverse := by
    apply dropWhile_of_head?
    intro x hx
    rw [List.head?_reverse] at hx
    exact hlast x hx
  rw [stripEnd, List.reverse_append,
    List.dropWhile_append_of_pos fun x hx => hback x (List.mem_reverse.1 hx), hstop,
    List.reverse_reverse]

/-- **What is left** is all between two ends that satisfy `p`, if neither of its own ends does. -/
theorem strip_append_append (hfront : ∀ x ∈ front, p x = true) (hback : ∀ x ∈ back, p x = true)
    (hhead : ∀ x, middle.head? = some x → p x = false)
    (hlast : ∀ x, middle.getLast? = some x → p x = false) :
    strip p (front ++ middle ++ back) = middle := by
  rw [strip, List.append_assoc, List.dropWhile_append_of_pos hfront]
  cases middle with
  | nil =>
    have hnil : back.dropWhile p = [] ++ [] := List.dropWhile_eq_nil_iff.2 hback
    rw [List.nil_append, hnil]
    exact stripEnd_append_of_all (fun _ hx => absurd hx List.not_mem_nil) hlast
  | cons x xs =>
    have hstop : (x :: xs ++ back).dropWhile p = x :: xs ++ back :=
      dropWhile_of_head? fun y hy => hhead y hy
    rw [hstop]
    exact stripEnd_append_of_all hback hlast

/-- It does not matter from which end a text is read. -/
theorem strip_reverse (p : α → Bool) (xs : List α) : strip p xs.reverse = (strip p xs).reverse := by
  obtain ⟨front, back, hxs, hfront, hback⟩ := exists_strip p xs
  have hreverse : xs.reverse = back.reverse ++ (strip p xs).reverse ++ front.reverse := by
    conv_lhs => rw [hxs]
    rw [List.reverse_append, List.reverse_append, List.append_assoc]
  rw [hreverse]
  apply strip_append_append
  · exact fun x hx => hback x (List.mem_reverse.1 hx)
  · exact fun x hx => hfront x (List.mem_reverse.1 hx)
  · intro x hx
    rw [List.head?_reverse] at hx
    exact getLast?_strip p xs hx
  · intro x hx
    rw [List.getLast?_reverse] at hx
    exact head?_strip p xs hx

theorem strip_eq_self_iff : strip p xs = xs ↔
    (∀ x, xs.head? = some x → p x = false) ∧ ∀ x, xs.getLast? = some x → p x = false := by
  constructor
  · intro h
    rw [← h]
    exact ⟨fun x hx => head?_strip p xs hx, fun x hx => getLast?_strip p xs hx⟩
  · intro ⟨hhead, hlast⟩
    have h := @strip_append_append _ p [] xs [] (by simp) (by simp) hhead hlast
    rwa [List.nil_append, List.append_nil] at h

/-- A text from which nothing is cut off is as long as what is left. -/
theorem strip_eq_self_of_le (h : xs.length ≤ (strip p xs).length) : strip p xs = xs := by
  obtain ⟨front, back, hxs, -, -⟩ := exists_strip p xs
  have hlength := congrArg List.length hxs
  rw [List.length_append, List.length_append] at hlength
  have hfront : front = [] := List.length_eq_zero_iff.1 (by omega)
  have hback : back = [] := List.length_eq_zero_iff.1 (by omega)
  rw [hfront, hback, List.nil_append, List.append_nil] at hxs
  exact hxs.symm

theorem length_strip_le (p : α → Bool) (xs : List α) : (strip p xs).length ≤ xs.length := by
  obtain ⟨front, back, hxs, -, -⟩ := exists_strip p xs
  have hlength := congrArg List.length hxs
  rw [List.length_append, List.length_append] at hlength
  omega

end Text

/-! ### What is kept of a name -/

/-- The characters that are kept of a name: blanks are cut off first, and slashes then. -/
def keptChars (text : List Char) : List Char :=
  Text.strip (· == '/') (Text.strip Text.isBlank text)

theorem toList_normalName (name : String) : (normalName name).toList = keptChars name.toList :=
  String.toList_ofList

theorem keptChars_reverse (text : List Char) : keptChars text.reverse = (keptChars text).reverse := by
  rw [keptChars, Text.strip_reverse, Text.strip_reverse]
  rfl

/-- **A name is kept as it is** exactly if it has neither a blank nor a slash at its ends. -/
theorem normalName_eq_self_iff {n : String} : normalName n = n ↔
    (∀ c, n.toList.head? = some c → Text.isBlank c = false ∧ c ≠ '/') ∧
      ∀ c, n.toList.getLast? = some c → Text.isBlank c = false ∧ c ≠ '/' := by
  have hlist : normalName n = n ↔ keptChars n.toList = n.toList := by
    rw [← toList_normalName]
    exact String.toList_inj.symm
  have hboth : keptChars n.toList = n.toList ↔
      Text.strip Text.isBlank n.toList = n.toList ∧ Text.strip (· == '/') n.toList = n.toList := by
    constructor
    · intro h
      have hslash := Text.length_strip_le (· == '/') (Text.strip Text.isBlank n.toList)
      have hlength : n.toList.length = (Text.strip (· == '/')
          (Text.strip Text.isBlank n.toList)).length := congrArg List.length h.symm
      have hblank : Text.strip Text.isBlank n.toList = n.toList :=
        Text.strip_eq_self_of_le (by omega)
      rw [keptChars, hblank] at h
      exact ⟨hblank, h⟩
    · intro ⟨hblank, hslash⟩
      rw [keptChars, hblank, hslash]
  rw [hlist, hboth, Text.strip_eq_self_iff, Text.strip_eq_self_iff]
  simp only [beq_eq_false_iff_ne, ne_eq]
  constructor
  · intro ⟨⟨hhead, hlast⟩, hhead', hlast'⟩
    exact ⟨fun c hc => ⟨hhead c hc, hhead' c hc⟩, fun c hc => ⟨hlast c hc, hlast' c hc⟩⟩
  · intro ⟨hhead, hlast⟩
    exact ⟨⟨fun c hc => (hhead c hc).1, fun c hc => (hlast c hc).1⟩,
      fun c hc => (hhead c hc).2, fun c hc => (hlast c hc).2⟩

/-- A text **hides a blank** if it begins with a blank behind slashes; other blanks may stand before
these. -/
def HidesBlank (text : List Char) : Prop :=
  ∃ blanks slashes c rest, text = blanks ++ slashes ++ c :: rest ∧
    (∀ b ∈ blanks, Text.isBlank b = true) ∧ slashes ≠ [] ∧ (∀ s ∈ slashes, s = '/') ∧
      Text.isBlank c = true

/-- What comes behind the blanks and slashes at the beginning of a text. -/
theorem behind_slashes {text blanks slashes rest : List Char} {c : Char}
    (htext : text = blanks ++ slashes ++ c :: rest) (hblanks : ∀ b ∈ blanks, Text.isBlank b = true)
    (hslashes : ∀ s ∈ slashes, s = '/') (hc : c ≠ '/')
    (hstart : ∀ x, (slashes ++ c :: rest).head? = some x → Text.isBlank x = false) :
    (text.dropWhile Text.isBlank).dropWhile (· == '/') = c :: rest := by
  rw [htext, List.append_assoc, List.dropWhile_append_of_pos hblanks, Text.dropWhile_of_head? hstart,
    List.dropWhile_append_of_pos fun s hs => beq_iff_eq.2 (hslashes s hs)]
  exact List.dropWhile_cons_of_neg (by simpa using hc)

/-- **Where a blank at the beginning of a kept name comes from**: it stood behind slashes. -/
theorem head_isBlank_iff {text : List Char} (h : keptChars text ≠ []) :
    (∃ c, (keptChars text).head? = some c ∧ Text.isBlank c = true) ↔ HidesBlank text := by
  obtain ⟨blanks, back, htext, hblanks, -⟩ := Text.exists_strip Text.isBlank text
  obtain ⟨slashes, tail, htrim, hslashes, -⟩ :
      ∃ slashes tail, Text.strip Text.isBlank text = slashes ++ keptChars text ++ tail ∧
        (∀ s ∈ slashes, (s == '/') = true) ∧ ∀ s ∈ tail, (s == '/') = true :=
    Text.exists_strip _ _
  obtain ⟨c, kept, hkept⟩ := List.exists_cons_of_ne_nil h
  have hc : c ≠ '/' := by
    have hhead : (keptChars text).head? = some c := by
      rw [hkept]
      rfl
    simpa using Text.head?_strip (· == '/') _ hhead
  have hslashes : ∀ s ∈ slashes, s = '/' := fun s hs => beq_iff_eq.1 (hslashes s hs)
  rw [hkept] at htrim ⊢
  have hsplit : text = blanks ++ slashes ++ c :: (kept ++ tail ++ back) := by
    rw [htext, htrim]
    simp only [List.append_assoc, List.cons_append]
  have hstart (x : Char) (hx : (slashes ++ c :: (kept ++ tail ++ back)).head? = some x) :
      Text.isBlank x = false := by
    apply Text.head?_strip Text.isBlank text
    rw [htrim]
    cases slashes with
    | nil => exact hx
    | cons s slashes => exact hx
  constructor
  · intro ⟨c', hc', hblank⟩
    obtain rfl : c = c' := Option.some.inj hc'
    refine ⟨blanks, slashes, c, _, hsplit, hblanks, ?_, hslashes, hblank⟩
    -- Without slashes the blank would have been cut off.
    rintro rfl
    rw [hstart c rfl] at hblank
    cases hblank
  · intro ⟨blanks', slashes', c', rest, hsplit', hblanks', hne, hslashes', hblank⟩
    have hc' : c' ≠ '/' := by
      rintro rfl
      cases hblank
    have hstart' (x : Char) (hx : (slashes' ++ c' :: rest).head? = some x) :
        Text.isBlank x = false := by
      obtain ⟨s, ss, rfl⟩ := List.exists_cons_of_ne_nil hne
      obtain rfl : s = x := Option.some.inj hx
      rw [hslashes' s List.mem_cons_self]
      rfl
    have hbehind := behind_slashes hsplit' hblanks' hslashes' hc' hstart'
    rw [behind_slashes hsplit hblanks hslashes hc hstart] at hbehind
    obtain rfl : c = c' := (List.cons.inj hbehind).1
    exact ⟨c, rfl, hblank⟩

/-- A name of which something is kept is kept **as it would be kept again**, unless it hides a blank,
read from the one end or from the other. -/
theorem normalName_normalName_iff {raw : String} (h : normalName raw ≠ "") :
    normalName (normalName raw) = normalName raw ↔
      ¬ HidesBlank raw.toList ∧ ¬ HidesBlank raw.toList.reverse := by
  have hne : keptChars raw.toList ≠ [] := by
    rw [← toList_normalName]
    exact fun hnil => h (String.toList_eq_nil_iff.1 hnil)
  have hbare := Routes.isBare_normalName h
  have hne' : keptChars raw.toList.reverse ≠ [] := by
    rw [keptChars_reverse]
    exact fun hnil => hne (List.reverse_eq_nil_iff.1 hnil)
  rw [normalName_eq_self_iff, ← head_isBlank_iff hne, ← head_isBlank_iff hne', keptChars_reverse,
    List.head?_reverse, ← toList_normalName]
  constructor
  · intro ⟨hhead, hlast⟩
    constructor
    · intro ⟨c, hc, hblank⟩
      rw [(hhead c hc).1] at hblank
      cases hblank
    · intro ⟨c, hc, hblank⟩
      rw [(hlast c hc).1] at hblank
      cases hblank
  · intro ⟨hhead, hlast⟩
    refine ⟨fun c hc => ⟨?_, ?_⟩, fun c hc => ⟨?_, ?_⟩⟩
    · exact Bool.eq_false_iff.2 fun hblank => hhead ⟨c, hc, hblank⟩
    · rintro rfl
      exact hbare.head hc
    · exact Bool.eq_false_iff.2 fun hblank => hlast ⟨c, hc, hblank⟩
    · rintro rfl
      exact hbare.last hc

/-! ### Registering under a kept name -/

namespace Routes

variable {α : Type}

/-- **A name is refused because another is taken** only if nothing else is kept of it. -/
theorem register_eq_nameTaken_iff {r : Routes α} {name n : String} {handler : α} (hn : n ∈ r.names)
    (hne : n ≠ "") : r.register name handler = .error (.nameTaken n) ↔ normalName name = n := by
  constructor
  · intro h
    obtain ⟨-, hs⟩ | ⟨-, hs⟩ | ⟨-, -, hs⟩ := r.register_cases name handler
    · rw [hs] at h
      cases h
    · rw [hs] at h
      exact Failure.nameTaken.inj (Except.error.inj h)
    · rw [hs] at h
      cases h
  · rintro rfl
    obtain ⟨hnil, -⟩ | ⟨-, hs⟩ | ⟨-, hnew, -⟩ := r.register_cases name handler
    · exact absurd hnil hne
    · exact hs
    · exact absurd hn hnew

/-- A call that is refused changes nothing. -/
theorem run_register_of_error {acts : List (Act α)} {i : Nat} {k : Kept α} {name : String}
    {handler : α} {f : Failure} (h : (run acts)[i]? = some k)
    (hf : k.routes.register name handler = .error f) :
    run (acts ++ [.register i name handler]) = run acts := by
  have hsame : k.register name handler = k := by rw [Kept.register, hf]
  rw [run_append]
  show (run acts).modify i (fun k => k.register name handler) = run acts
  obtain ⟨hlt, hget⟩ := List.getElem?_eq_some_iff.1 h
  rw [List.modify_eq_set_getElem?, h]
  show (run acts).set i (k.register name handler) = run acts
  rw [hsame, ← hget, List.set_getElem_self]

/-- **Which kept names are kept again as they are.**  However handlers were registered, a name comes
from a call that was not refused.  The name is kept again as it is, and whoever registers another
handler under it hears that just this name is taken, exactly if the name that was given hid no blank,
read from either end.  If so, the name has neither a slash nor a blank at its ends, it is not blank,
and such a call changes nothing. -/
theorem kept_as_it_is_iff (acts : List (Act α)) (i : Nat) (k : Kept α)
    (h : (run acts)[i]? = some k) :
    k.routes.names = k.accepted.map (fun c => normalName c.1) ∧
    ∀ call ∈ k.accepted, ∀ n, normalName call.1 = n →
      (normalName n = n ↔ ¬ HidesBlank call.1.toList ∧ ¬ HidesBlank call.1.toList.reverse) ∧
      (∀ handler, k.routes.register n handler = .error (.nameTaken n) ↔
        ¬ HidesBlank call.1.toList ∧ ¬ HidesBlank call.1.toList.reverse) ∧
      (¬ HidesBlank call.1.toList ∧ ¬ HidesBlank call.1.toList.reverse →
        (∀ c, n.toList.head? = some c → Text.isBlank c = false ∧ c ≠ '/') ∧
        (∀ c, n.toList.getLast? = some c → Text.isBlank c = false ∧ c ≠ '/') ∧
        (∃ c ∈ n.toList, Text.isBlank c = false) ∧
        ∀ handler, run (acts ++ [.register i n handler]) = run acts) := by
  have hfits := fits_run acts k (List.mem_of_getElem? h)
  have hnames : k.routes.names = k.accepted.map (fun c => normalName c.1) := by
    rw [names, hfits.entries_eq, List.map_map]
    rfl
  refine ⟨hnames, ?_⟩
  rintro call hcall n rfl
  have hmem : normalName call.1 ∈ k.routes.names := by
    rw [hnames]
    exact List.mem_map_of_mem hcall
  have hne := (hfits.bare _ hmem).ne_empty
  have hstable := normalName_normalName_iff hne
  have htaken (handler : α) :
      k.routes.register (normalName call.1) handler = .error (.nameTaken (normalName call.1)) ↔
        normalName (normalName call.1) = normalName call.1 :=
    register_eq_nameTaken_iff hmem hne
  refine ⟨hstable, fun handler => (htaken handler).trans hstable, fun hhides => ?_⟩
  have hsame := hstable.2 hhides
  obtain ⟨hhead, hlast⟩ := normalName_eq_self_iff.1 hsame
  refine ⟨hhead, hlast, ?_, ?_⟩
  · obtain ⟨c, cs, hcs⟩ := List.exists_cons_of_ne_nil fun hnil => hne (String.toList_eq_nil_iff.1 hnil)
    refine ⟨c, ?_, (hhead c ?_).1⟩
    · rw [hcs]
      exact List.mem_cons_self
    · rw [hcs]
      rfl
  · intro handler
    exact run_register_of_error h ((htaken handler).2 hsame)

/-- **A blank behind a slash** stays at the beginning of a kept name, and one before a slash at its
end; a handler that is registered under that very name is not refused. -/
theorem kept_with_hidden_blanks :
    ∃ k : Kept Nat, (run [.register 0 "/ x /" 0])[0]? = some k ∧ k.routes.names = [" x "] ∧
      normalName " x " ≠ " x " ∧
      k.routes.register " x " 1 = .ok { entries := [(" x ", 0), ("x", 1)] } ∧
      ¬ k.routes.register " x " 1 = .error (.nameTaken " x ") := by
  let acts : List (Act Nat) := [.register 0 "/ x /" 0]
  have hrun : ((run acts)[0]?).map (fun k => (k.routes.entries, k.accepted)) =
      some ([(" x ", 0)], [("/ x /", 0)]) := by decide +kernel
  obtain ⟨k, hk, hboth⟩ := Option.map_eq_some_iff.1 hrun
  obtain ⟨hentries, haccepted⟩ := Prod.mk.inj hboth
  have hcall : ("/ x /", 0) ∈ k.accepted := by
    rw [haccepted]
    exact List.mem_singleton_self _
  obtain ⟨hnames, hstable⟩ := kept_as_it_is_iff acts 0 k hk
  obtain ⟨hsame, htaken, -⟩ := hstable _ hcall " x " (by decide +kernel)
  have hhides : HidesBlank "/ x /".toList :=
    ⟨[], ['/'], ' ', ['x', ' ', '/'], by decide +kernel, by simp, by simp, by simp, by decide⟩
  have hroutes : k.routes = { entries := [(" x ", 0)] } := by
    rw [← hentries]
  refine ⟨k, hk, ?_, fun h => (hsame.1 h).1 hhides, ?_, fun h => ((htaken 1).1 h).1 hhides⟩
  · rw [hnames, haccepted]
    decide +kernel
  · have hcut : normalName " x " = "x" := by decide +kernel
    rw [hroutes, register, hcut]
    rfl

end Routes

end HeldReply
