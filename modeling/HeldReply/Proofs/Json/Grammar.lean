import HeldReply.Json.Printer

/-!
# The grammar of JSON texts

A JSON text is one value with blanks around it.  The grammar says which texts are that, and nothing of
what is read from them: it knows no greatest number and no greatest depth.  Whatever value is written
as compact text, the text is one of the grammar.

* `Json.induction` — induction over values, through arrays and objects;
* `Json.IsNumeral`, `Json.IsString`, `Json.IsValue`, `Json.IsElement` — **the grammar**;
* `Json.isNumeral_chars`, `Json.isString_quotedChars` — numbers and strings are written as such;
* `Json.isValue_chars` — **every value is written as one value of the grammar**.
-/

namespace HeldReply

open HeldReply.Number

namespace Json

/-- **Induction over values**, through the items of arrays and the members of objects. -/
@[elab_as_elim]
theorem induction {P : Json → Prop} (null : P .null) (bool : ∀ b, P (.bool b))
    (number : ∀ n, P (.number n)) (text : ∀ s, P (.text s))
    (array : ∀ items, (∀ v ∈ items, P v) → P (.array items))
    (object : ∀ members, (∀ m ∈ members, P m.2) → P (.object members)) (v : Json) : P v := by
  refine @Json.rec P (fun items => ∀ v ∈ items, P v) (fun members => ∀ m ∈ members, P m.2)
    (fun m => P m.2) null bool number text array object ?_ ?_ ?_ ?_ ?_ v
  · exact fun v hv => absurd hv List.not_mem_nil
  · intro head tail hhead htail v hv
    rcases List.mem_cons.1 hv with rfl | hv
    · exact hhead
    · exact htail v hv
  · exact fun m hm => absurd hm List.not_mem_nil
  · intro head tail hhead htail m hm
    rcases List.mem_cons.1 hm with rfl | hm
    · exact hhead
    · exact htail m hm
  · exact fun _ _ h => h

/-! ### The grammar -/

/-- **Blanks** between the parts of a text. -/
def AreBlanks (cs : List Char) : Prop :=
  ∀ c ∈ cs, c = ' ' ∨ c = '\t' ∨ c = '\n' ∨ c = '\r'

/-- **Digits**, one at least. -/
def AreDigits (ds : List Char) : Prop :=
  ds ≠ [] ∧ ∀ c ∈ ds, isDigit c = true

/-- The **whole part** of a number has no zero before other digits. -/
def IsWhole (ds : List Char) : Prop :=
  AreDigits ds ∧ (ds.head? = some '0' → ds = ['0'])

/-- The **fraction** of a number, if it has one. -/
inductive IsFraction : List Char → Prop
  | none : IsFraction []
  | digits {ds : List Char} (h : AreDigits ds) : IsFraction ('.' :: ds)

/-- The **exponent** of a number, if it has one. -/
inductive IsExponent : List Char → Prop
  | none : IsExponent []
  | digits {mark : Char} {sign ds : List Char} (hm : mark = 'e' ∨ mark = 'E')
      (hs : sign = [] ∨ sign = ['+'] ∨ sign = ['-']) (h : AreDigits ds) :
      IsExponent (mark :: (sign ++ ds))

/-- A **number**. -/
inductive IsNumeral : List Char → Prop
  | parts {sign whole fraction exponent : List Char} (hs : sign = [] ∨ sign = ['-'])
      (hw : IsWhole whole) (hf : IsFraction fraction) (he : IsExponent exponent) :
      IsNumeral (sign ++ (whole ++ (fraction ++ exponent)))

/-- A digit of base sixteen, in either case. -/
def IsHex (c : Char) : Prop :=
  ('0' ≤ c ∧ c ≤ '9') ∨ ('a' ≤ c ∧ c ≤ 'f') ∨ ('A' ≤ c ∧ c ≤ 'F')

/-- The **characters of a string**, between its quotes. -/
inductive AreCharacters : List Char → Prop
  | none : AreCharacters []
  | plain {c : Char} {cs : List Char} (hq : c ≠ '"') (hb : c ≠ '\\') (hc : 0x20 ≤ c.toNat)
      (h : AreCharacters cs) : AreCharacters (c :: cs)
  | escaped {c : Char} {cs : List Char} (hc : c ∈ ['"', '\\', '/', 'b', 'f', 'n', 'r', 't'])
      (h : AreCharacters cs) : AreCharacters ('\\' :: c :: cs)
  | coded {a b c d : Char} {cs : List Char} (ha : IsHex a) (hb : IsHex b) (hc : IsHex c)
      (hd : IsHex d) (h : AreCharacters cs) : AreCharacters ('\\' :: 'u' :: a :: b :: c :: d :: cs)

/-- A **string** between its quotes. -/
inductive IsString : List Char → Prop
  | quoted {cs : List Char} (h : AreCharacters cs) : IsString ('"' :: cs ++ ['"'])

mutual

/-- A **value**. -/
inductive IsValue : List Char → Prop
  | null : IsValue "null".toList
  | true : IsValue "true".toList
  | false : IsValue "false".toList
  | number {cs : List Char} (h : IsNumeral cs) : IsValue cs
  | text {cs : List Char} (h : IsString cs) : IsValue cs
  | emptyArray {blanks : List Char} (h : AreBlanks blanks) : IsValue ('[' :: blanks ++ [']'])
  | array {cs : List Char} (h : AreElements cs) : IsValue ('[' :: cs ++ [']'])
  | emptyObject {blanks : List Char} (h : AreBlanks blanks) :
      IsValue ('\x7b' :: blanks ++ ['\x7d'])
  | object {cs : List Char} (h : AreMembers cs) : IsValue ('\x7b' :: cs ++ ['\x7d'])

/-- A value with blanks around it: an item of an array, and **a whole text**. -/
inductive IsElement : List Char → Prop
  | spaced {before v after : List Char} (hb : AreBlanks before) (hv : IsValue v)
      (ha : AreBlanks after) : IsElement (before ++ v ++ after)

/-- The items of an array. -/
inductive AreElements : List Char → Prop
  | last {cs : List Char} (h : IsElement cs) : AreElements cs
  | more {cs rest : List Char} (h : IsElement cs) (hs : AreElements rest) :
      AreElements (cs ++ ',' :: rest)

/-- A member of an object. -/
inductive IsMember : List Char → Prop
  | keyed {before key after v : List Char} (hb : AreBlanks before) (hk : IsString key)
      (ha : AreBlanks after) (hv : IsElement v) : IsMember (before ++ key ++ after ++ ':' :: v)

/-- The members of an object. -/
inductive AreMembers : List Char → Prop
  | last {cs : List Char} (h : IsMember cs) : AreMembers cs
  | more {cs rest : List Char} (h : IsMember cs) (hs : AreMembers rest) :
      AreMembers (cs ++ ',' :: rest)

end

theorem areBlanks_nil : AreBlanks [] :=
  fun _ hc => absurd hc List.not_mem_nil

theorem IsValue.isElement {cs : List Char} (h : IsValue cs) : IsElement cs := by
  simpa using IsElement.spaced areBlanks_nil h areBlanks_nil

/-! ### Numbers -/

theorem areDigits_nought : AreDigits ['0'] := by
  refine ⟨List.cons_ne_nil _ _, fun c hc => ?_⟩
  rw [List.mem_singleton.1 hc]
  decide

theorem areDigits_digits (n : Nat) : AreDigits (digits n) :=
  ⟨digits_ne_nil n, isDigit_digits n⟩

theorem isWhole_digits (n : Nat) : IsWhole (digits n) := by
  refine ⟨areDigits_digits n, fun h => ?_⟩
  by_cases hn : n = 0
  · rw [hn, digits_zero]
  · exact absurd h (head?_digits hn)

theorem IsWhole.isNumeral {ds : List Char} (h : IsWhole ds) : IsNumeral ds := by
  simpa using IsNumeral.parts (.inl rfl) h .none .none

theorem isNumeral_digitsInt (i : Int) : IsNumeral (digitsInt i) := by
  cases i with
  | ofNat n => exact (isWhole_digits n).isNumeral
  | negSucc n =>
    show IsNumeral ('-' :: digits (n + 1))
    simpa using IsNumeral.parts (.inr rfl) (isWhole_digits (n + 1)) .none .none

theorem areDigits_zeros_append {ds : List Char} (n : Nat) (h : AreDigits ds) :
    AreDigits (List.replicate n '0' ++ ds) := by
  refine ⟨by simp [h.1], fun c hc => ?_⟩
  rcases List.mem_append.1 hc with hc | hc
  · rw [List.eq_of_mem_replicate hc]
    exact areDigits_nought.2 _ (List.mem_singleton.2 rfl)
  · exact h.2 c hc

/-- Digits with a point are a number, if no zero comes before the whole part. -/
theorem isNumeral_positionalText {sign ds : List Char} {lead : Int}
    (hs : sign = [] ∨ sign = ['-']) (h : AreDigits ds)
    (hz : ds.head? = some '0' → lead ≤ 0 ∧ ds = ['0']) :
    IsNumeral (sign ++ positionalText ds lead) := by
  suffices hparts : ∃ whole fraction, positionalText ds lead = whole ++ '.' :: fraction ∧
      IsWhole whole ∧ AreDigits fraction by
    obtain ⟨whole, fraction, heq, hw, hf⟩ := hparts
    rw [heq]
    simpa using IsNumeral.parts hs hw (.digits hf) .none
  unfold positionalText
  by_cases hlead : lead < 0
  · rw [if_pos hlead]
    refine ⟨['0'], List.replicate (-lead - 1).toNat '0' ++ ds, rfl, ?_, areDigits_zeros_append _ h⟩
    exact ⟨areDigits_nought, fun _ => rfl⟩
  · rw [if_neg hlead]
    refine ⟨_, _, rfl, ⟨⟨?_, fun c hc => ?_⟩, fun hhead => ?_⟩, ?_⟩
    · cases ds with
      | nil => exact absurd rfl h.1
      | cons d ds => simp
    · rcases List.mem_append.1 hc with hc | hc
      · exact h.2 c (List.mem_of_mem_take hc)
      · rw [List.eq_of_mem_replicate hc]
        exact areDigits_nought.2 _ (List.mem_singleton.2 rfl)
    · have hfirst : ds.head? = some '0' := by
        cases ds with
        | nil => exact absurd rfl h.1
        | cons d ds => simpa using hhead
      obtain ⟨hle, rfl⟩ := hz hfirst
      obtain rfl : lead = 0 := by omega
      rfl
    · split
      · exact areDigits_nought
      · rename_i hd
        refine ⟨by simpa using hd, fun c hc => h.2 c (List.mem_of_mem_drop hc)⟩

/-- One digit before the point and a signed exponent are a number. -/
theorem isNumeral_scientificText {sign ds : List Char} {lead : Int}
    (hs : sign = [] ∨ sign = ['-']) (h : AreDigits ds) :
    IsNumeral (sign ++ scientificText ds lead) := by
  cases ds with
  | nil => exact absurd rfl h.1
  | cons d rest =>
    have hd : IsWhole [d] := by
      refine ⟨⟨List.cons_ne_nil _ _, fun c hc => h.2 c ?_⟩, fun hhead => ?_⟩
      · rw [List.mem_singleton.1 hc]
        exact List.mem_cons_self
      · rw [Option.some.inj hhead]
    have he : IsExponent ('e' :: ([if 0 ≤ lead then '+' else '-'] ++ digits lead.natAbs)) := by
      refine .digits (.inl rfl) (.inr ?_) (areDigits_digits _)
      split
      · exact .inl rfl
      · exact .inr rfl
    cases rest with
    | nil => exact .parts hs hd .none he
    | cons e rest =>
      refine .parts hs hd (.digits ⟨List.cons_ne_nil _ _, fun c hc => ?_⟩) he
      exact h.2 c (List.mem_cons_of_mem _ hc)

/-- A decimal without digits lies below every number but zero. -/
theorem readsBack_zero {x : Binary64} (hx : x.mantissa ≠ 0) (e : Int) :
    x.readsBack ⟨0, e⟩ = false := by
  unfold Binary64.readsBack
  have hlow : 0 < (if x.narrowBelow then 4 * x.mantissa - 1 else 4 * x.mantissa - 2) := by
    split <;> omega
  generalize (if x.narrowBelow then 4 * x.mantissa - 1 else 4 * x.mantissa - 2) = low at hlow
  have hlt : compareScaled 0 e low (x.exponent - 2) = .lt := by
    unfold compareScaled
    rw [Nat.zero_mul, Nat.zero_mul, Nat.compare_eq_lt]
    exact Nat.mul_pos (Nat.mul_pos hlow (Nat.pow_pos (by decide))) (Nat.pow_pos (by decide))
  simp [hlt]

theorem digits_of_nearestOn {x : Binary64} {d : Decimal} {tie : Tie} {e : Int}
    (hx : x.mantissa ≠ 0) (h : x.nearestOn tie e = some d) : d.digits ≠ 0 := by
  have hdown (hr : x.readsBack ⟨x.floorAt e, e⟩ = true) : x.floorAt e ≠ 0 := by
    intro hz
    rw [hz, readsBack_zero hx] at hr
    cases hr
  unfold Binary64.nearestOn at h
  dsimp only at h
  split at h
  · cases h
  · rename_i hr _
    cases h
    exact hdown hr
  · cases h
    exact Nat.succ_ne_zero _
  · rename_i hr _
    split at h
    · cases h
      exact hdown hr
    · cases h
      exact Nat.succ_ne_zero _
    · cases h
      split
      · exact hdown hr
      · exact Nat.succ_ne_zero _
    · cases h
      exact Nat.succ_ne_zero _

theorem digits_stripZeros {d : Decimal} (h : d.digits ≠ 0) (fuel : Nat) :
    (d.stripZeros fuel).digits ≠ 0 := by
  induction fuel generalizing d with
  | zero => exact h
  | succ fuel ih =>
    rw [Decimal.stripZeros]
    split
    · rename_i hz
      refine ih ?_
      show d.digits / 10 ≠ 0
      omega
    · exact h

/-- Only zero is written with the digit zero alone. -/
theorem digits_shortest {x : Binary64} (hx : x.mantissa ≠ 0) (tie : Tie) :
    (x.shortest tie).digits ≠ 0 := by
  unfold Binary64.shortest
  rw [if_neg hx]
  refine digits_stripZeros ?_ 800
  cases hf : (List.range 17).findSome? fun n => x.nearestOn tie (x.scale - (n + 1 : Nat)) with
  | some d =>
    obtain ⟨n, -, hn⟩ := List.exists_of_findSome?_eq_some hf
    exact digits_of_nearestOn hx hn
  | none =>
    show x.exact.digits ≠ 0
    unfold Binary64.exact
    split
    · exact Nat.mul_ne_zero hx (Nat.ne_of_gt (Nat.pow_pos (by decide)))
    · exact Nat.mul_ne_zero hx (Nat.ne_of_gt (Nat.pow_pos (by decide)))

/-- A floating-point number is written as a number of the grammar. -/
theorem isNumeral_write (x : Binary64) : IsNumeral (floatLayout.write x) := by
  have hsign : (if x.negative then ['-'] else []) = [] ∨
      (if x.negative then ['-'] else []) = ['-'] := by
    split
    · exact .inr rfl
    · exact .inl rfl
  have hds := areDigits_digits (x.shortest .toEven).digits
  have hzero (hhead : (digits (x.shortest .toEven).digits).head? = some '0') :
      x.shortest .toEven = ⟨0, 0⟩ := by
    by_cases hx : x.mantissa = 0
    · rw [Binary64.shortest, if_pos hx]
    · exact absurd hhead (head?_digits (digits_shortest hx _))
  unfold Layout.write
  dsimp only [floatLayout]
  generalize (if x.negative then ['-'] else []) = sign at hsign ⊢
  split
  · refine isNumeral_positionalText hsign hds fun hhead => ?_
    rw [hzero hhead]
    exact ⟨by simp [digits_zero], digits_zero⟩
  · exact isNumeral_scientificText hsign hds

theorem isNumeral_chars (n : Json.Number) : IsNumeral n.chars := by
  cases n with
  | int i => exact isNumeral_digitsInt i
  | float x => exact isNumeral_write x

/-! ### Strings -/

theorem isHex_hexDigit (n : Nat) : IsHex (hexDigit n) := by
  have hall : ∀ e : Fin 16, IsHex (Nat.digitChar e.val) := by
    unfold IsHex
    decide
  exact hall ⟨n % 16, Nat.mod_lt n (by decide)⟩

theorem areCharacters_escapeChar (c : Char) {cs : List Char} (h : AreCharacters cs) :
    AreCharacters (escapeChar c ++ cs) := by
  unfold escapeChar
  by_cases hq : c = '"' ∨ c = '\\'
  · rw [if_pos hq]
    refine .escaped ?_ h
    rcases hq with rfl | rfl <;> decide
  · rw [if_neg hq]
    by_cases hc : c.toNat < 0x20
    · rw [if_pos hc]
      cases hs : shortEscape? c with
      | some e =>
        refine .escaped ?_ h
        unfold shortEscape? at hs
        repeat' split at hs
        all_goals cases hs
        all_goals decide
      | none =>
        have hnought : IsHex '0' := .inl ⟨by decide, by decide⟩
        exact .coded hnought hnought (isHex_hexDigit _) (isHex_hexDigit _) h
    · rw [if_neg hc]
      rw [not_or] at hq
      exact .plain hq.1 hq.2 (by omega) h

theorem isString_quotedChars (s : String) : IsString (quotedChars s) := by
  refine .quoted ?_
  induction s.toList with
  | nil => exact .none
  | cons c cs ih => exact areCharacters_escapeChar c ih

/-! ### Values -/

/-- The items of an array are written as elements, if there are any. -/
theorem areElements_charsItems {v : Json} {items : List Json}
    (h : ∀ u ∈ v :: items, IsValue u.chars) : AreElements (charsItems (v :: items)) := by
  have hv : IsElement v.chars := (h v List.mem_cons_self).isElement
  induction items generalizing v with
  | nil => exact .last hv
  | cons u items ih =>
    have hu : ∀ w ∈ u :: items, IsValue w.chars := fun w hw => h w (List.mem_cons_of_mem _ hw)
    exact .more hv (ih hu (hu u List.mem_cons_self).isElement)

theorem isMember_chars {k : String} {v : Json} (h : IsValue v.chars) :
    IsMember (quotedChars k ++ ':' :: v.chars) := by
  simpa using IsMember.keyed areBlanks_nil (isString_quotedChars k) areBlanks_nil h.isElement

/-- The members of an object are written as members, if there are any. -/
theorem areMembers_charsMembers {m : String × Json} {members : List (String × Json)}
    (h : ∀ l ∈ m :: members, IsValue l.2.chars) : AreMembers (charsMembers (m :: members)) := by
  have hm : IsMember (quotedChars m.1 ++ ':' :: m.2.chars) :=
    isMember_chars (h m List.mem_cons_self)
  induction members generalizing m with
  | nil => exact .last hm
  | cons l members ih =>
    have hl : ∀ k ∈ l :: members, IsValue k.2.chars := fun k hk => h k (List.mem_cons_of_mem _ hk)
    have hrest := AreMembers.more hm (ih hl (isMember_chars (hl l List.mem_cons_self)))
    simpa [charsMembers] using hrest

/-- **Every value is written as one value of the grammar.** -/
theorem isValue_chars (v : Json) : IsValue v.chars := by
  induction v using Json.induction with
  | null =>
    rw [chars]
    exact .null
  | bool b =>
    cases b <;> rw [chars]
    · exact .false
    · exact .true
  | number n =>
    rw [chars]
    exact .number (isNumeral_chars n)
  | text s =>
    rw [chars]
    exact .text (isString_quotedChars s)
  | array items ih =>
    rw [chars]
    cases items with
    | nil => exact .emptyArray areBlanks_nil
    | cons v items => exact .array (areElements_charsItems ih)
  | object members ih =>
    rw [chars]
    cases members with
    | nil => exact .emptyObject areBlanks_nil
    | cons m members => exact .object (areMembers_charsMembers ih)

end Json

end HeldReply
