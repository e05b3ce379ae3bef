import HeldReply.Toml.Reader
import Mathlib.Algebra.Group.Nat.Defs
import Mathlib.Data.List.Nodup

/-!
# Documents of plain lines

A name, an equals sign and a text or a natural number make a line; a document of such lines is read
as what its lines say, if no name comes twice.

* `Toml.written`, `Toml.basicString_written` — a character **by its number**, and that texts written
  like that are read back;
* `Toml.Line`, `Toml.Line.Reads` — a line, and that its value is read where it stands;
* `Toml.Line.reads_text`, `Toml.Line.reads_natural` — texts of any characters, and natural numbers
  of at most 63 bits;
* `Toml.read_lines` — **a document of lines is read**.
-/

namespace HeldReply.Toml

open HeldReply.Number (digits digitValue? isDigit pushDigit)

/-- Parts that are not empty are no more than their characters. -/
theorem length_le_flatMap {α β : Type} (xs : List α) {f : α → List β} (hf : ∀ x, f x ≠ []) :
    xs.length ≤ (xs.flatMap f).length := by
  induction xs with
  | nil => exact Nat.le_refl _
  | cons x xs ih =>
    have hx := List.length_pos_iff.2 (hf x)
    rw [List.flatMap_cons, List.length_append, List.length_cons]
    omega

/-! ### Texts -/

/-- Digits of base sixteen, as many as are asked for. -/
def hexDigits : Nat → Nat → List Char
  | 0, _ => []
  | width + 1, n => hexDigits width (n / 16) ++ [Nat.digitChar (n % 16)]

/-- A character **by its number**. -/
def written (c : Char) : List Char :=
  '\\' :: 'U' :: hexDigits 8 c.toNat

theorem length_hexDigits (width n : Nat) : (hexDigits width n).length = width := by
  induction width generalizing n with
  | zero => rfl
  | succ width ih => rw [hexDigits, List.length_append, ih, List.length_singleton]

theorem hexDigit?_digitChar {d : Nat} (h : d < 16) : hexDigit? (Nat.digitChar d) = some d := by
  have hall : ∀ e : Fin 16, hexDigit? (Nat.digitChar e.val) = some e.val := by decide
  exact hall ⟨d, h⟩

/-- The digits of a number stand for it, if there are enough of them. -/
theorem exists_values_hexDigits (width n : Nat) :
    ∃ ds, (hexDigits width n).mapM hexDigit? = some ds ∧ ds.length = width ∧
      ds.foldl (fun n d => 16 * n + d) 0 = n % 16 ^ width := by
  induction width generalizing n with
  | zero => exact ⟨[], rfl, rfl, (Nat.mod_one n).symm⟩
  | succ width ih =>
    obtain ⟨ds, hds, hlen, hvalue⟩ := ih (n / 16)
    have hlast := hexDigit?_digitChar (Nat.mod_lt n (by decide : 16 > 0))
    refine ⟨ds ++ [n % 16], ?_, by rw [List.length_append, hlen, List.length_singleton], ?_⟩
    · rw [hexDigits, List.mapM_append, hds]
      simp [hlast]
    · rw [List.foldl_append, hvalue, List.foldl_cons, List.foldl_nil, Nat.pow_succ',
        Nat.mod_mul, Nat.add_comm]

theorem scanCodePoint_hexDigits (c : Char) (rest : List Char) :
    scanCodePoint 8 (hexDigits 8 c.toNat ++ rest) = some (c, rest) := by
  obtain ⟨ds, hds, hlen, hvalue⟩ := exists_values_hexDigits 8 c.toNat
  have hlt : c.toNat < 16 ^ 8 := c.val.toNat_lt
  rw [Nat.mod_eq_of_lt hlt] at hvalue
  have htake : (hexDigits 8 c.toNat ++ rest).take 8 = hexDigits 8 c.toNat :=
    List.take_left' (length_hexDigits 8 c.toNat)
  have hdrop : (hexDigits 8 c.toNat ++ rest).drop 8 = rest :=
    List.drop_left' (length_hexDigits 8 c.toNat)
  have hvalid : c.toNat.isValidChar := c.valid
  simp [scanCodePoint, htake, hdrop, hds, hlen, hvalue, hvalid]

/-- **A text is read back.** -/
theorem basicString_written (s rest : List Char) {fuel : Nat} (h : s.length < fuel) :
    basicString fuel (s.flatMap written ++ '"' :: rest) = some (s, rest) := by
  induction s generalizing fuel with
  | nil =>
    obtain ⟨fuel, rfl⟩ := Nat.exists_eq_succ_of_ne_zero (Nat.ne_of_gt h)
    rfl
  | cons c s ih =>
    obtain ⟨fuel, rfl⟩ := Nat.exists_eq_succ_of_ne_zero (Nat.ne_of_gt (Nat.zero_lt_of_lt h))
    rw [List.flatMap_cons, List.append_assoc]
    show basicString (fuel + 1)
      ('\\' :: 'U' :: (hexDigits 8 c.toNat ++ (s.flatMap written ++ '"' :: rest))) = _
    rw [basicString, scanEscape, scanCodePoint_hexDigits]
    simp only [Option.bind_eq_bind, Option.bind_some, ih (Nat.lt_of_succ_lt_succ h)]
    rfl

/-! ### Lines -/

/-- A **line**: a name, and how its value is written. -/
structure Line where
  name : String
  value : List Char
  node : Node

/-- The characters of a line. -/
def Line.chars (l : Line) : List Char :=
  l.name.toList ++ ' ' :: '=' :: ' ' :: (l.value ++ ['\n'])

/-- A line can be **read**: its name needs no quotes, and its value is read where it stands. -/
structure Line.Reads (l : Line) : Prop where
  named : l.name.toList ≠ []
  bare : ∀ c ∈ l.name.toList, isBare c = true
  begins : ∀ rest, skipGap (l.value ++ '\n' :: rest) = l.value ++ '\n' :: rest
  scans : ∀ fuel rest,
    scanValue (fuel + 1) 0 (l.value ++ '\n' :: rest) = some (l.node, '\n' :: rest)

/-- A character of a name is none of those that mean something else. -/
theorem ne_of_isBare {c d : Char} (h : isBare c = true) (hd : isBare d = false) : c ≠ d := by
  rintro rfl
  rw [h] at hd
  cases hd

theorem isGap_of_isBare {c : Char} (h : isBare c = true) : isGap c = false := by
  have hspace := ne_of_isBare (d := ' ') h (by decide)
  have htab := ne_of_isBare (d := '\t') h (by decide)
  simp [isGap, hspace, htab]

theorem skipGap_cons {c : Char} (cs : List Char) (h : isGap c = false) :
    skipGap (c :: cs) = c :: cs := by
  rw [skipGap, List.dropWhile_cons, h]
  rfl

/-- **A name** is read up to the blank after it. -/
theorem scanName_bare {name : String} (hname : name.toList ≠ [])
    (hbare : ∀ c ∈ name.toList, isBare c = true) (rest : List Char) :
    scanName (name.toList ++ ' ' :: rest) = some (name, ' ' :: rest) := by
  obtain ⟨c, cs, hcs⟩ := List.exists_cons_of_ne_nil hname
  have hc : isBare c = true := hbare c (hcs ▸ List.mem_cons_self)
  have htake : (name.toList ++ ' ' :: rest).takeWhile isBare = name.toList := by
    rw [List.takeWhile_append_of_pos hbare]
    exact List.append_nil _
  have hdrop : (name.toList ++ ' ' :: rest).dropWhile isBare = ' ' :: rest := by
    rw [List.dropWhile_append_of_pos hbare]
    rfl
  unfold scanName
  split
  · rename_i heq
    rw [hcs] at heq
    cases heq
    exact absurd rfl (ne_of_isBare hc (by decide))
  · rename_i heq
    rw [hcs] at heq
    cases heq
    exact absurd rfl (ne_of_isBare hc (by decide))
  · rw [htake, hdrop]
    split
    · rename_i hnil
      exact absurd hnil hname
    · rw [String.ofList_toList]

namespace Line

variable {l : Line}

theorem chars_ne_nil (l : Line) : l.chars ≠ [] := by
  simp [chars]

/-- Where a line stands, there is no gap. -/
theorem Reads.skipGap_chars (h : l.Reads) (rest : List Char) :
    skipGap (l.chars ++ rest) = l.chars ++ rest := by
  obtain ⟨c, cs, hcs⟩ := List.exists_cons_of_ne_nil h.named
  rw [chars, hcs]
  exact skipGap_cons _ (isGap_of_isBare (h.bare c (hcs ▸ List.mem_cons_self)))

theorem chars_append (l : Line) (rest : List Char) : l.chars ++ rest =
    l.name.toList ++ ' ' :: '=' :: ' ' :: (l.value ++ '\n' :: rest) := by
  simp [chars]

/-- **A line** is read: its name is a key without a path. -/
theorem Reads.scanPair_chars (h : l.Reads) (rest : List Char) :
    scanPair (l.chars ++ rest) = some ((([], l.name), l.node), '\n' :: rest) := by
  have hkey : scanKey (l.chars ++ rest)
      = some (([], l.name), '=' :: ' ' :: (l.value ++ '\n' :: rest)) := by
    have hnames : scanNames (78 + 1) (l.chars ++ rest)
        = some ([l.name], '=' :: ' ' :: (l.value ++ '\n' :: rest)) := by
      rw [scanNames, h.skipGap_chars, chars_append, scanName_bare h.named h.bare]
      rfl
    show (scanNames (78 + 1) (l.chars ++ rest)).bind _ = _
    rw [hnames]
    rfl
  have hvalue : skipGap (' ' :: (l.value ++ '\n' :: rest)) = l.value ++ '\n' :: rest :=
    h.begins rest
  unfold scanPair
  rw [hkey]
  simp only [Option.bind_eq_bind, Option.bind_some, afterChar, if_true, hvalue, h.scans]
  rfl

/-- A line **begins** with a character of its name. -/
theorem Reads.exists_chars (h : l.Reads) (rest : List Char) :
    ∃ c cs, l.chars ++ rest = c :: cs ∧ isBare c = true := by
  obtain ⟨c, cs, hcs⟩ := List.exists_cons_of_ne_nil h.named
  rw [chars_append, hcs]
  exact ⟨c, _, rfl, h.bare c (hcs ▸ List.mem_cons_self)⟩

/-- **A line** puts its value under its name. -/
theorem Reads.readLines_chars (h : l.Reads) (fuel : Nat) (d : Draft) (rest : List Char) :
    readLines (fuel + 1) d (l.chars ++ rest)
      = (d.put [] l.name l.node).bind fun d => readLines fuel d rest := by
  obtain ⟨c, cs, hchars, hc⟩ := h.exists_chars rest
  have hpair := h.scanPair_chars rest
  rw [readLines, h.skipGap_chars]
  rw [hchars] at hpair ⊢
  split
  · rename_i heq
    cases heq
  · rename_i heq
    cases heq
    exact absurd rfl (ne_of_isBare hc (by decide))
  · rename_i heq
    cases heq
    exact absurd rfl (ne_of_isBare hc (by decide))
  · rename_i heq
    cases heq
    have hline : afterLineEnd (c :: cs) = none := by
      unfold afterLineEnd
      split
      · rename_i heq
        cases heq
        exact absurd rfl (ne_of_isBare hc (by decide))
      · rename_i heq
        cases heq
        exact absurd rfl (ne_of_isBare hc (by decide))
      · rfl
    have hrest : afterLine ('\n' :: rest) = some rest := rfl
    simp only [hline, hpair, Option.bind_eq_bind, Option.bind_some, hrest]

end Line

/-- A value under a new name goes to the end. -/
theorem Draft.put_new {d : Draft} {name : String} (h : d.current.lookup name = none) (node : Node) :
    d.put [] name node = some { d with current := d.current ++ [(name, node)] } := by
  simp [put, putAt, descend, putNew, h]

/-- **Several lines** are read, one after the other. -/
theorem readLines_lines (ls : List Line) (hreads : ∀ l ∈ ls, l.Reads) (d : Draft)
    (hnew : ∀ l ∈ ls, d.current.lookup l.name = none) (hnodup : (ls.map Line.name).Nodup)
    {fuel : Nat} (hfuel : ls.length < fuel) :
    readLines fuel d (ls.flatMap Line.chars)
      = some { d with current := d.current ++ ls.map fun l => (l.name, l.node) } := by
  induction ls generalizing d fuel with
  | nil =>
    obtain ⟨fuel, rfl⟩ := Nat.exists_eq_succ_of_ne_zero (Nat.ne_of_gt hfuel)
    simp [readLines, skipGap]
  | cons l ls ih =>
    obtain ⟨fuel, rfl⟩ := Nat.exists_eq_succ_of_ne_zero (Nat.ne_of_gt (Nat.zero_lt_of_lt hfuel))
    obtain ⟨hl, hls⟩ := List.forall_mem_cons.1 hreads
    obtain ⟨hfirst, hnewer⟩ := List.forall_mem_cons.1 hnew
    obtain ⟨hother, hnodup⟩ := List.nodup_cons.1 hnodup
    have hnext : ∀ k ∈ ls, (d.current ++ [(l.name, l.node)]).lookup k.name = none := by
      intro k hk
      have hne : k.name ≠ l.name := fun h => hother (h ▸ List.mem_map_of_mem hk)
      rw [List.lookup_append, hnewer k hk, List.lookup_cons, beq_eq_false_iff_ne.2 hne]
      rfl
    rw [List.flatMap_cons, hl.readLines_chars, Draft.put_new hfirst, Option.bind_some,
      ih hls _ hnext hnodup (Nat.lt_of_succ_lt_succ hfuel)]
    simp

/-- No line begins with a mark of the byte order. -/
theorem Line.Reads.ne_mark {l : Line} (h : l.Reads) (rest : List Char) (cs : List Char) :
    l.chars ++ rest ≠ '\ufeff' :: cs := by
  obtain ⟨c, cs, hchars, hc⟩ := h.exists_chars rest
  rw [hchars]
  rintro ⟨⟩
  exact absurd rfl (ne_of_isBare hc (by decide))

/-- **A document of lines is read** as what its lines say. -/
theorem read_lines {ls : List Line} (hreads : ∀ l ∈ ls, l.Reads)
    (hnodup : (ls.map Line.name).Nodup) :
    read (String.ofList (ls.flatMap Line.chars)) = some (ls.map fun l => (l.name, l.node)) := by
  have hlines := readLines_lines ls hreads .start (fun l _ => rfl) hnodup
    (Nat.lt_succ_of_le (length_le_flatMap ls Line.chars_ne_nil))
  unfold read
  rw [String.toList_ofList]
  split
  · rename_i cs heq
    cases ls with
    | nil => cases heq
    | cons l ls =>
      rw [List.flatMap_cons] at heq
      exact absurd heq ((List.forall_mem_cons.1 hreads).1.ne_mark _ cs)
  · show (readLines ((ls.flatMap Line.chars).length + 1) .start _).bind _ = _
    rw [hlines]
    rfl

/-! ### Values -/

/-- A line with a **text**. -/
def Line.text (name s : String) : Line where
  name := name
  value := '"' :: (s.toList.flatMap written ++ ['"'])
  node := .text s

/-- A line with a **natural number**. -/
def Line.natural (name : String) (n : Nat) : Line where
  name := name
  value := digits n
  node := .integer n

theorem scanString_written (s : String) (rest : List Char) :
    scanString ('"' :: (s.toList.flatMap written ++ '"' :: '\n' :: rest))
      = some (s, '\n' :: rest) := by
  have hlen : s.toList.length < (s.toList.flatMap written ++ '"' :: '\n' :: rest).length + 1 := by
    have hle : s.toList.length ≤ (s.toList.flatMap written).length :=
      length_le_flatMap _ fun _ => List.cons_ne_nil _ _
    rw [List.length_append]
    exact Nat.lt_succ_of_le (Nat.le_trans hle (Nat.le_add_right _ _))
  have hbasic := basicString_written s.toList ('\n' :: rest) hlen
  unfold scanString
  split
  · rename_i heq
    cases hs : s.toList with
    | nil =>
      rw [hs] at heq
      cases heq
    | cons c cs =>
      rw [hs] at heq
      cases heq
  · rename_i heq
    cases heq
    rw [hbasic]
    simp
  · rename_i heq
    cases heq
  · rename_i heq
    cases heq
  · rename_i hbasic _ _
    exact absurd rfl (hbasic _)

/-- **A line with a text** can be read, whatever characters the text has. -/
theorem Line.reads_text {name : String} (hname : name.toList ≠ [])
    (hbare : ∀ c ∈ name.toList, isBare c = true) (s : String) : (Line.text name s).Reads where
  named := hname
  bare := hbare
  begins := fun rest => skipGap_cons _ rfl
  scans := by
    intro fuel rest
    have htext : (Line.text name s).value ++ '\n' :: rest
        = '"' :: (s.toList.flatMap written ++ '"' :: '\n' :: rest) := by
      simp [text]
    rw [htext, scanValue]
    simp only [true_or, if_true, scanString_written]
    rfl

/-- A digit is none of the characters that mean something else. -/
theorem ne_of_isDigit {c d : Char} (h : isDigit c = true) (hd : isDigit d = false) : c ≠ d := by
  rintro rfl
  rw [h] at hd
  cases hd

/-- Digits up to the end of a line are no date and no time. -/
theorem looksMoment_digits {ds : List Char} (h : ∀ c ∈ ds, isDigit c = true) (rest : List Char) :
    looksMoment (ds ++ '\n' :: rest) = false := by
  have hline : isDigit '\n' = false := by decide
  rcases ds with _ | ⟨a, _ | ⟨b, _ | ⟨c, _ | ⟨d, _ | ⟨e, ds⟩⟩⟩⟩⟩
  · rcases rest with _ | ⟨b, _ | ⟨c, rest⟩⟩
    · rfl
    · rfl
    · simp [looksMoment, hline]
  · cases rest with
    | nil => rfl
    | cons c rest => simp [looksMoment, hline]
  · simp [looksMoment, hline]
  · have hc : c ≠ ':' := ne_of_isDigit (h c (by simp)) (by decide)
    cases rest with
    | nil => simp [looksMoment, hc]
    | cons e rest => simp [looksMoment, hc, hline]
  · have hc : c ≠ ':' := ne_of_isDigit (h c (by simp)) (by decide)
    simp [looksMoment, hc]
  · have hc : c ≠ ':' := ne_of_isDigit (h c (by simp)) (by decide)
    have he : e ≠ '-' := ne_of_isDigit (h e (by simp)) (by decide)
    simp [looksMoment, hc, he]

theorem moreDigits_digits {ds : List Char} (h : ∀ c ∈ ds, isDigit c = true) (rest : List Char) :
    moreDigits isDigit (ds ++ '\n' :: rest) = some (ds, '\n' :: rest) := by
  induction ds with
  | nil => rfl
  | cons c ds ih =>
    obtain ⟨hc, hds⟩ := List.forall_mem_cons.1 h
    rw [List.cons_append]
    generalize hcs : ds ++ '\n' :: rest = cs at ih ⊢
    unfold moreDigits
    split
    · rename_i heq
      cases heq
      exact absurd rfl (ne_of_isDigit hc (by decide))
    · rename_i heq
      cases heq
      exact absurd rfl (ne_of_isDigit hc (by decide))
    · rename_i heq
      cases heq
      simp only [if_pos hc, ih hds]
      rfl
    · rename_i heq
      cases heq

/-- **The digits of a number** are read up to the end of the line. -/
theorem scanDecimal_digits (n : Nat) (rest : List Char) :
    scanDecimal (digits n ++ '\n' :: rest) = some (digits n, '\n' :: rest) := by
  have hdigits := Number.isDigit_digits n
  obtain ⟨c, ds, hcs⟩ := List.exists_cons_of_ne_nil (Number.digits_ne_nil n)
  by_cases hn : n = 0
  · rw [hn, Number.digits_zero]
    rfl
  · have hhead := Number.head?_digits hn
    rw [hcs] at hhead hdigits ⊢
    obtain ⟨hc, hds⟩ := List.forall_mem_cons.1 hdigits
    unfold scanDecimal
    split
    · rename_i heq
      cases heq
      exact absurd rfl hhead
    · rw [List.cons_append, someDigits, if_pos hc, moreDigits_digits hds]
      rfl

/-- A decimal digit is a digit of base sixteen. -/
theorem hexDigit?_of_digitValue? {c : Char} {d : Nat} (h : digitValue? c = some d) :
    hexDigit? c = some d := by
  unfold digitValue? at h
  split at h
  · rename_i hrange
    rw [hexDigit?, if_pos ⟨Char.le_def.2 hrange.1, Char.le_def.2 hrange.2⟩]
    exact h
  · cases h

/-- The digits of a number stand for it. -/
theorem baseValue_digits (n : Nat) : baseValue 10 (digits n) = n := by
  have hvalue : ∀ (cs : List Char) (acc : Nat),
      cs.foldlM (fun n c => (digitValue? c).map (pushDigit n)) acc = some n →
        cs.foldl (fun n c => 10 * n + (hexDigit? c).getD 0) acc = n := by
    intro cs
    induction cs with
    | nil =>
      intro acc h
      exact Option.some.inj h
    | cons c cs ih =>
      intro acc h
      rw [List.foldlM_cons] at h
      obtain ⟨m, hm, h⟩ := Option.bind_eq_some_iff.1 h
      obtain ⟨d, hd, rfl⟩ := Option.map_eq_some_iff.1 hm
      have hhex := hexDigit?_of_digitValue? hd
      rw [List.foldl_cons, hhex]
      exact ih _ h
  exact hvalue _ 0 (Number.ofDigits_digits n)

/-- A number **begins** with a digit. -/
theorem exists_digits_append (n : Nat) (rest : List Char) :
    ∃ c cs, digits n ++ rest = c :: cs ∧ isDigit c = true := by
  obtain ⟨c, cs, hcs⟩ := List.exists_cons_of_ne_nil (Number.digits_ne_nil n)
  rw [hcs]
  exact ⟨c, cs ++ rest, rfl, Number.isDigit_digits n c (hcs ▸ List.mem_cons_self)⟩

/-- After a zero there is no sign of a base. -/
theorem digits_append_ne (n : Nat) (rest cs : List Char) {x : Char} (hx : isDigit x = false)
    (hline : x ≠ '\n') : digits n ++ '\n' :: rest ≠ '0' :: x :: cs := by
  intro h
  by_cases hn : n = 0
  · rw [hn, Number.digits_zero] at h
    cases h
    exact hline rfl
  · obtain ⟨c, ds, hcs⟩ := List.exists_cons_of_ne_nil (Number.digits_ne_nil n)
    have hhead := Number.head?_digits hn
    rw [hcs, List.cons_append] at h
    rw [hcs, (List.cons.inj h).1] at hhead
    exact hhead rfl

/-- A number has no sign. -/
theorem scanSign_digits (n : Nat) (rest : List Char) :
    scanSign (digits n ++ rest) = (false, digits n ++ rest) := by
  obtain ⟨c, cs, hcs, hc⟩ := exists_digits_append n rest
  rw [hcs]
  unfold scanSign
  split
  · rename_i heq
    cases heq
    exact absurd rfl (ne_of_isDigit hc (by decide))
  · rename_i heq
    cases heq
    exact absurd rfl (ne_of_isDigit hc (by decide))
  · rfl

/-- **A natural number** is read, if 63 bits hold it. -/
theorem scanInteger_digits {n : Nat} (h : n < 2 ^ 63) (rest : List Char) :
    scanInteger (digits n ++ '\n' :: rest) = some ((n : Int), '\n' :: rest) := by
  have hrange : inRange (n : Int) = some (n : Int) := by
    rw [inRange, if_pos]
    omega
  unfold scanInteger
  split
  · rename_i heq
    exact absurd heq (digits_append_ne n rest _ (by decide) (by decide))
  · rename_i heq
    exact absurd heq (digits_append_ne n rest _ (by decide) (by decide))
  · rename_i heq
    exact absurd heq (digits_append_ne n rest _ (by decide) (by decide))
  · rw [scanSign_digits]
    -- One step after the other: left to itself, the kernel computes with the bounds.
    refine Option.bind_eq_some_iff.2 ⟨(digits n, '\n' :: rest), scanDecimal_digits n rest, ?_⟩
    refine Option.bind_eq_some_iff.2 ⟨n, ?_, rfl⟩
    rw [if_neg Bool.false_ne_true, baseValue_digits]
    exact hrange

/-- A number is no name of a floating-point value, and has no fraction and no exponent. -/
theorem scanNamedReal_digits (n : Nat) (rest : List Char) :
    scanNamedReal (digits n ++ rest) = none := by
  obtain ⟨c, cs, hcs, hc⟩ := exists_digits_append n rest
  rw [scanNamedReal, scanSign_digits, hcs]
  dsimp only
  split
  · rename_i heq
    cases heq
    exact absurd rfl (ne_of_isDigit hc (by decide))
  · rename_i heq
    cases heq
    exact absurd rfl (ne_of_isDigit hc (by decide))
  · rfl

theorem looksReal_digits (n : Nat) (rest : List Char) :
    looksReal (digits n ++ '\n' :: rest) = false := by
  rw [looksReal, scanSign_digits, scanDecimal_digits]
  rfl

/-- **A line with a natural number** can be read, if 63 bits hold the number. -/
theorem Line.reads_natural {name : String} (hname : name.toList ≠ [])
    (hbare : ∀ c ∈ name.toList, isBare c = true) {n : Nat} (h : n < 2 ^ 63) :
    (Line.natural name n).Reads where
  named := hname
  bare := hbare
  begins := by
    intro rest
    obtain ⟨c, cs, hcs, hc⟩ := exists_digits_append n ('\n' :: rest)
    show skipGap (digits n ++ '\n' :: rest) = digits n ++ '\n' :: rest
    rw [hcs]
    exact skipGap_cons _ (isGap_of_isBare (by simp [isBare, hc]))
  scans := by
    intro fuel rest
    have hmoment := looksMoment_digits (Number.isDigit_digits n) rest
    have hnamed := scanNamedReal_digits n ('\n' :: rest)
    have hreal := looksReal_digits n rest
    have hinteger := scanInteger_digits h rest
    obtain ⟨c, cs, hcs, hc⟩ := exists_digits_append n ('\n' :: rest)
    have hother (d : Char) (hd : isDigit d = false) : c ≠ d := ne_of_isDigit hc hd
    show scanValue (fuel + 1) 0 (digits n ++ '\n' :: rest) = some (.integer n, '\n' :: rest)
    rw [hcs] at hmoment hnamed hreal hinteger ⊢
    rw [scanValue]
    simp only [hother '"' (by decide), hother '\'' (by decide), hother '[' (by decide),
      hother '\x7b' (by decide), hother 't' (by decide), hother 'f' (by decide), or_self, if_false,
      hmoment, hnamed, hreal, hinteger, Bool.false_eq_true]
    rfl

end HeldReply.Toml
