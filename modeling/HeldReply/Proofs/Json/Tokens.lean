import HeldReply.Json.Reader
import HeldReply.Proofs.Json.Grammar

/-!
# What is written is cut into its tokens

The compact text of a value is read token by token.  Every token that was written is found again,
whatever follows, as long as it begins with one of the characters that may come after a value.

* `Json.tokens` — the tokens of a value;
* `Json.HasIntegers` — values whose numbers are integers of 64 bits, with or without a sign;
* `Json.Delimits` — what may come after a value;
* `Json.scanString_quotedChars` — **a string is found again**, whatever characters it has;
* `Json.scanNumber_digitsInt` — **an integer is found again**;
* `Json.CutsInto`, `Json.cutsInto_chars` — **the text of a value is cut into its tokens**.
-/

namespace HeldReply.Json

open HeldReply.Number

/-! ### The tokens of a value -/

mutual

/-- The **tokens** of a value. -/
def tokens : Json → List Token
  | .null => [.null]
  | .bool b => [.bool b]
  | .number n => [.number n]
  | .text s => [.text s]
  | .array items => .openArray :: (tokensItems items ++ [.closeArray])
  | .object members => .openObject :: (tokensMembers members ++ [.closeObject])

/-- The tokens of the items of an array, with commas between them. -/
def tokensItems : List Json → List Token
  | [] => []
  | [v] => tokens v
  | v :: vs => tokens v ++ .comma :: tokensItems vs

/-- The tokens of the members of an object, with commas between them. -/
def tokensMembers : List (String × Json) → List Token
  | [] => []
  | [(k, v)] => .text k :: .colon :: tokens v
  | (k, v) :: ms => .text k :: .colon :: (tokens v ++ .comma :: tokensMembers ms)

end

/-- Values whose numbers are **integers of 64 bits**, with or without a sign. -/
inductive HasIntegers : Json → Prop
  | null : HasIntegers .null
  | bool (b : Bool) : HasIntegers (.bool b)
  | number {i : Int} (hl : -0x8000000000000000 ≤ i) (hu : i ≤ 0xFFFFFFFFFFFFFFFF) :
      HasIntegers (.number (.int i))
  | text (s : String) : HasIntegers (.text s)
  | array {items : List Json} (h : ∀ v ∈ items, HasIntegers v) : HasIntegers (.array items)
  | object {members : List (String × Json)} (h : ∀ m ∈ members, HasIntegers m.2) :
      HasIntegers (.object members)

/-- What may come **after a value**: the end of the text, or what goes on with an array or an
object. -/
def Delimits (rest : List Char) : Prop :=
  ∀ c, rest.head? = some c → c = ',' ∨ c = ']' ∨ c = '\x7d'

/-! ### Strings -/

theorem hexValue?_digitChar {n : Nat} (h : n < 16) : hexValue? (Nat.digitChar n) = some n := by
  have hall : ∀ e : Fin 16, hexValue? (Nat.digitChar e.val) = some e.val := by decide
  exact hall ⟨n, h⟩

/-- The code of a control character is read as its number. -/
theorem hexFour?_hexDigit {n : Nat} (h : n < 0x20) :
    hexFour? '0' '0' (hexDigit (n / 16)) (hexDigit n) = some n := by
  have hnought : hexValue? '0' = some 0 := by decide
  have hhigh : hexValue? (hexDigit (n / 16)) = some (n / 16 % 16) :=
    hexValue?_digitChar (Nat.mod_lt _ (by decide))
  have hlow : hexValue? (hexDigit n) = some (n % 16) :=
    hexValue?_digitChar (Nat.mod_lt _ (by decide))
  rw [hexFour?, hnought, hhigh, hlow]
  show some (4096 * 0 + 256 * 0 + 16 * (n / 16 % 16) + n % 16) = some n
  congr 1
  omega

/-- One character that stands for itself. -/
theorem scanString_plain {c : Char} (hq : c ≠ '"') (hb : c ≠ '\\') (hc : ¬ c.toNat < 0x20)
    (cs : List Char) :
    scanString (c :: cs) = (scanString cs).map fun p => (c :: p.1, p.2) := by
  rw [scanString.eq_def]
  split
  · simp_all
  · simp_all
  · simp_all
  · rename_i heq
    cases heq
    rw [if_neg (not_or.2 ⟨hb, hc⟩)]
    cases scanString cs <;> rfl
  · simp_all

/-- A short escape. -/
theorem scanString_escaped {c e : Char} (hu : e ≠ 'u') (he : unescape? e = some c)
    (cs : List Char) :
    scanString ('\\' :: e :: cs) = (scanString cs).map fun p => (c :: p.1, p.2) := by
  rw [scanString.eq_def]
  split
  · simp_all
  · simp_all
  · rename_i heq
    cases heq
    simp only [he]
    cases scanString cs <;> rfl
  · rename_i hno heq
    cases heq
    exact absurd rfl (hno e cs rfl)
  · simp_all

/-- The code of a control character. -/
theorem scanString_coded {c : Char} (hc : c.toNat < 0x20) (cs : List Char) :
    scanString ('\\' :: 'u' :: '0' :: '0' :: hexDigit (c.toNat / 16) :: hexDigit c.toNat :: cs) =
      (scanString cs).map fun p => (c :: p.1, p.2) := by
  have hhigh : isHighHalf c.toNat = false := by
    simp only [isHighHalf, Bool.and_eq_false_imp, decide_eq_true_eq, decide_eq_false_iff_not]
    omega
  have hlow : isLowHalf c.toNat = false := by
    simp only [isLowHalf, Bool.and_eq_false_imp, decide_eq_true_eq, decide_eq_false_iff_not]
    omega
  rw [scanString]
  simp only [hexFour?_hexDigit hc, hhigh, hlow, Bool.false_eq_true, if_false, Char.ofNat_toNat]
  cases scanString cs <;> rfl

/-- **One character of a string** is read as it was written. -/
theorem scanString_escapeChar (c : Char) (cs : List Char) :
    scanString (escapeChar c ++ cs) = (scanString cs).map fun p => (c :: p.1, p.2) := by
  unfold escapeChar
  by_cases hq : c = '"' ∨ c = '\\'
  · rw [if_pos hq]
    rcases hq with rfl | rfl
    · exact scanString_escaped (by decide) (by decide) cs
    · exact scanString_escaped (by decide) (by decide) cs
  · rw [if_neg hq]
    by_cases hc : c.toNat < 0x20
    · rw [if_pos hc]
      cases hs : shortEscape? c with
      | some e =>
        unfold shortEscape? at hs
        repeat' split at hs
        all_goals cases hs
        all_goals subst_vars
        all_goals exact scanString_escaped (by decide) (by decide) cs
      | none => exact scanString_coded hc cs
    · rw [if_neg hc]
      rw [not_or] at hq
      exact scanString_plain hq.1 hq.2 hc cs

/-- **A string is found again**, whatever characters it has. -/
theorem scanString_flatMap (s rest : List Char) :
    scanString (s.flatMap escapeChar ++ '"' :: rest) = some (s, rest) := by
  induction s with
  | nil => rfl
  | cons c s ih =>
    rw [List.flatMap_cons, List.append_assoc, scanString_escapeChar, ih]
    rfl

theorem scanToken_quotedChars (s : String) (rest : List Char) :
    scanToken (quotedChars s ++ rest) = some (.text s, rest) := by
  have hq : quotedChars s ++ rest = '"' :: (s.toList.flatMap escapeChar ++ '"' :: rest) := by
    rw [quotedChars]
    simp
  rw [hq, scanToken, scanString_flatMap]
  show some (Token.text (String.ofList s.toList), rest) = _
  rw [String.ofList_toList]

/-! ### Integers -/

theorem not_isDigit_of_delimits {rest : List Char} (h : Delimits rest) {c : Char}
    (hc : rest.head? = some c) : isDigit c = false := by
  rcases h c hc with rfl | rfl | rfl <;> decide

/-- Digits end where something else begins. -/
theorem span_digits {ds rest : List Char} (hd : ∀ c ∈ ds, isDigit c = true) (h : Delimits rest) :
    (ds ++ rest).takeWhile isDigit = ds ∧ (ds ++ rest).dropWhile isDigit = rest := by
  rw [List.takeWhile_append_of_pos hd, List.dropWhile_append_of_pos hd]
  cases rest with
  | nil => simp
  | cons c rest =>
    have hc := not_isDigit_of_delimits h rfl
    simp [hc]

theorem scanWhole_digits (n : Nat) {rest : List Char} (h : Delimits rest) :
    scanWhole (digits n ++ rest) = some (digits n, rest) := by
  obtain ⟨⟨hne, hd⟩, hzero⟩ := isWhole_digits n
  obtain ⟨htake, hdrop⟩ := span_digits hd h
  unfold scanWhole
  rw [htake, hdrop]
  split
  · rename_i hnil
    exact absurd hnil hne
  · rename_i heq
    rw [heq] at hzero
    simp at hzero
  · rfl

theorem scanFraction_of_delimits {rest : List Char} (h : Delimits rest) :
    scanFraction rest = some (none, rest) := by
  unfold scanFraction
  split
  · have hdot := h '.' rfl
    simp at hdot
  · rfl

theorem scanExponent_of_delimits {rest : List Char} (h : Delimits rest) :
    scanExponent rest = some (none, rest) := by
  cases rest with
  | nil => rfl
  | cons c rest =>
    have hc : ¬ (c = 'e' ∨ c = 'E') := by
      rcases h c rfl with rfl | rfl | rfl <;> decide
    simp only [scanExponent, if_neg hc]

/-- What the digits of a number are gathered to. -/
theorem gather_of_foldlM {acc n : Nat} {ds : List Char} (hn : n ≤ maxWord)
    (h : ds.foldlM (fun n c => (digitValue? c).map (pushDigit n)) acc = some n) :
    gather acc ds = (n, ds.length) := by
  induction ds generalizing acc with
  | nil =>
    cases h
    rfl
  | cons c ds ih =>
    rw [List.foldlM_cons] at h
    obtain ⟨m, hm, h⟩ := Option.bind_eq_some_iff.1 h
    obtain ⟨d, hd, rfl⟩ := Option.map_eq_some_iff.1 hm
    have hfits : pushDigit acc d ≤ maxWord := Nat.le_trans (le_of_pushDigits h) hn
    simp only [gather, hd, if_pos hfits, ih h, List.length_cons]

theorem gather_digits {n : Nat} (h : n ≤ maxWord) :
    gather 0 (digits n) = (n, (digits n).length) :=
  gather_of_foldlM h (ofDigits_digits n)

/-- The value of an integer without a sign. -/
theorem value_digits {n : Nat} (h : n ≤ maxWord) :
    Numeral.value ⟨false, digits n, none, none⟩ = some (.int n) := by
  simp [Numeral.value, gather_digits h]

/-- The value of an integer with a sign. -/
theorem value_neg_digits {n : Nat} (h : n + 1 ≤ 0x8000000000000000) :
    Numeral.value ⟨true, digits (n + 1), none, none⟩ = some (.int (.negSucc n)) := by
  have hword : n + 1 ≤ maxWord := by
    unfold maxWord
    omega
  have hrange : 1 ≤ n + 1 ∧ n + 1 ≤ 0x8000000000000000 := ⟨by omega, h⟩
  simp only [Numeral.value, gather_digits hword, Nat.sub_self, Bool.not_true, Bool.false_eq_true,
    if_false, if_pos hrange]
  rfl

theorem head_digits_ne {n : Nat} {c : Char} (hc : isDigit c = false) :
    (digits n).head? ≠ some c := by
  intro h
  obtain ⟨-, hd⟩ := areDigits_digits n
  rw [hd c (List.mem_of_mem_head? h)] at hc
  cases hc

/-- **An integer is found again.** -/
theorem scanNumber_digitsInt {i : Int} (hl : -0x8000000000000000 ≤ i)
    (hu : i ≤ 0xFFFFFFFFFFFFFFFF) {rest : List Char} (h : Delimits rest) :
    scanNumber (digitsInt i ++ rest) = some (.number (.int i), rest) := by
  cases i with
  | ofNat n =>
    have hn : n ≤ maxWord := Int.ofNat_le.1 hu
    have hnumeral : scanNumeral (digits n ++ rest) =
        some (⟨false, digits n, none, none⟩, rest) := by
      unfold scanNumeral
      split
      rename_i negative cs heq
      split at heq
      · rename_i r hminus
        have hhead : (digits n ++ rest).head? = some '-' := by rw [hminus]; rfl
        rw [List.head?_append] at hhead
        obtain ⟨d, ds, hd⟩ := List.exists_cons_of_ne_nil (digits_ne_nil n)
        rw [hd] at hhead
        have hne := head_digits_ne (n := n) (c := '-') (by decide)
        rw [hd] at hne
        exact absurd hhead hne
      · cases heq
        simp only [scanWhole_digits n h, scanFraction_of_delimits h, scanExponent_of_delimits h,
          Option.bind_eq_bind, Option.bind_some, Option.pure_def]
    show scanNumber (digits n ++ rest) = _
    rw [scanNumber, hnumeral]
    simp only [bind, Option.bind, value_digits hn]
    rfl
  | negSucc n =>
    have hn : n + 1 ≤ 0x8000000000000000 := by omega
    show scanNumber ('-' :: (digits (n + 1) ++ rest)) = _
    rw [scanNumber, scanNumeral]
    simp only [scanWhole_digits (n + 1) h, scanFraction_of_delimits h, scanExponent_of_delimits h,
      bind, Option.bind, pure, value_neg_digits hn]

/-! ### Values -/

/-- **A text is cut into its tokens**, whatever follows it that may come after a value.  Each token
takes one character at least, and one unit of fuel. -/
structure CutsInto (cs : List Char) (ts : List Token) : Prop where
  length_le : ts.length ≤ cs.length
  scan_eq : ∀ (fuel : Nat) (rest : List Char), Delimits rest →
    scanWith (ts.length + fuel) (cs ++ rest) = (scanWith fuel rest).map (ts ++ ·)

theorem scanWith_token {c : Char} {cs rest : List Char} {t : Token} (fuel : Nat)
    (hc : isSpace c = false) (h : scanToken (c :: cs) = some (t, rest)) :
    scanWith (fuel + 1) (c :: cs) = (scanWith fuel rest).map (t :: ·) := by
  have hdrop : (c :: cs).dropWhile isSpace = c :: cs := by simp [hc]
  rw [scanWith, hdrop]
  dsimp only
  rw [h]
  simp only [Option.bind_eq_bind, Option.bind_some]
  cases scanWith fuel rest <;> rfl

/-- A character of punctuation is a token by itself. -/
theorem scanWith_punctuation {c : Char} {t : Token} (h : punctuation? c = some t) (fuel : Nat)
    (cs : List Char) : scanWith (fuel + 1) (c :: cs) = (scanWith fuel cs).map (t :: ·) := by
  unfold punctuation? at h
  repeat' split at h
  all_goals cases h
  all_goals subst_vars
  all_goals exact scanWith_token fuel (by decide) rfl

/-- A text that is one token. -/
theorem CutsInto.token {c : Char} {cs : List Char} {t : Token} (hc : isSpace c = false)
    (h : ∀ rest, Delimits rest → scanToken (c :: (cs ++ rest)) = some (t, rest)) :
    CutsInto (c :: cs) [t] := by
  constructor
  · simp
  · intro fuel rest hrest
    rw [List.length_singleton, Nat.add_comm]
    exact scanWith_token fuel hc (h rest hrest)

/-- What is put between two brackets of one kind. -/
theorem CutsInto.between {a b : Char} {s t : Token} {cs : List Char} {ts : List Token}
    (ha : punctuation? a = some s) (hb : punctuation? b = some t) (hd : b = ']' ∨ b = '\x7d')
    (h : CutsInto cs ts) : CutsInto (a :: (cs ++ [b])) (s :: (ts ++ [t])) := by
  constructor
  · have := h.length_le
    simp only [List.length_cons, List.length_append, List.length_nil]
    omega
  · intro fuel rest hrest
    have hend : Delimits (b :: rest) := by
      intro c hc
      rw [← Option.some.inj hc]
      exact .inr hd
    have hlen : (s :: (ts ++ [t])).length + fuel = ts.length + (fuel + 1) + 1 := by
      simp only [List.length_cons, List.length_append, List.length_nil]
      omega
    have htext : a :: (cs ++ [b]) ++ rest = a :: (cs ++ b :: rest) := by simp
    rw [hlen, htext, scanWith_punctuation ha, h.scan_eq (fuel + 1) _ hend, scanWith_punctuation hb]
    simp [Function.comp_def]

/-- What is put one after the other, with a comma between. -/
theorem CutsInto.comma {cs ds : List Char} {ts us : List Token} (h : CutsInto cs ts)
    (k : CutsInto ds us) : CutsInto (cs ++ ',' :: ds) (ts ++ .comma :: us) := by
  constructor
  · have := h.length_le
    have := k.length_le
    simp only [List.length_cons, List.length_append]
    omega
  · intro fuel rest hrest
    have hcomma : Delimits (',' :: (ds ++ rest)) := by
      intro c hc
      rw [← Option.some.inj hc]
      exact .inl rfl
    have hlen : (ts ++ Token.comma :: us).length + fuel = ts.length + (us.length + fuel + 1) := by
      simp only [List.length_cons, List.length_append]
      omega
    have htext : cs ++ ',' :: ds ++ rest = cs ++ ',' :: (ds ++ rest) := by simp
    rw [hlen, htext, h.scan_eq _ _ hcomma,
      scanWith_punctuation (c := ',') (t := .comma) rfl, k.scan_eq fuel rest hrest]
    simp [Function.comp_def]

/-- A key with its value. -/
theorem CutsInto.member (k : String) {cs : List Char} {ts : List Token} (h : CutsInto cs ts) :
    CutsInto (quotedChars k ++ ':' :: cs) (.text k :: .colon :: ts) := by
  constructor
  · have := h.length_le
    have hlen : (quotedChars k).length = (k.toList.flatMap escapeChar).length + 2 := by
      rw [quotedChars]
      simp
    simp only [List.length_cons, List.length_append, hlen]
    omega
  · intro fuel rest hrest
    have hlen : (Token.text k :: .colon :: ts).length + fuel = ts.length + fuel + 1 + 1 := by
      simp only [List.length_cons]
      omega
    have hkey : scanWith (ts.length + fuel + 1 + 1) (quotedChars k ++ ':' :: (cs ++ rest)) =
        (scanWith (ts.length + fuel + 1) (':' :: (cs ++ rest))).map (.text k :: ·) :=
      scanWith_token _ (by decide) (scanToken_quotedChars k _)
    have htext : quotedChars k ++ ':' :: cs ++ rest = quotedChars k ++ ':' :: (cs ++ rest) := by
      simp
    rw [hlen, htext, hkey, scanWith_punctuation (c := ':') (t := .colon) rfl,
      h.scan_eq fuel rest hrest]
    simp [Function.comp_def]

theorem cutsInto_nil : CutsInto [] [] := by
  constructor
  · exact Nat.le_refl 0
  · intro fuel rest _
    simp

theorem cutsInto_charsItems {items : List Json} (h : ∀ v ∈ items, CutsInto v.chars v.tokens) :
    CutsInto (charsItems items) (tokensItems items) := by
  induction items with
  | nil => exact cutsInto_nil
  | cons v items ih =>
    have hv := h v List.mem_cons_self
    have hitems := ih fun u hu => h u (List.mem_cons_of_mem _ hu)
    cases items with
    | nil => exact hv
    | cons u items => exact hv.comma hitems

theorem cutsInto_charsMembers {members : List (String × Json)}
    (h : ∀ m ∈ members, CutsInto m.2.chars m.2.tokens) :
    CutsInto (charsMembers members) (tokensMembers members) := by
  induction members with
  | nil => exact cutsInto_nil
  | cons m members ih =>
    have hm : CutsInto (quotedChars m.1 ++ ':' :: m.2.chars) (.text m.1 :: .colon :: m.2.tokens) :=
      (h m List.mem_cons_self).member m.1
    have hmembers := ih fun l hl => h l (List.mem_cons_of_mem _ hl)
    cases members with
    | nil => exact hm
    | cons l members =>
      have hall := hm.comma hmembers
      simpa [charsMembers, tokensMembers] using hall

/-- A character with which no other token begins, begins a number. -/
theorem scanToken_of_digit {c : Char} (h : c = '-' ∨ isDigit c = true) :
    isSpace c = false ∧ ∀ cs, scanToken (c :: cs) = scanNumber (c :: cs) := by
  have hne {d : Char} (hd : isDigit d = false) (hm : d ≠ '-') : c ≠ d := by
    rintro rfl
    rcases h with h | h
    · exact hm h
    · rw [hd] at h
      cases h
  constructor
  · simp [isSpace, hne (d := ' ') (by decide) (by decide),
      hne (d := '\t') (by decide) (by decide), hne (d := '\n') (by decide) (by decide),
      hne (d := '\r') (by decide) (by decide)]
  · intro cs
    have hp : punctuation? c = none := by
      simp [punctuation?, hne (d := '[') (by decide) (by decide),
        hne (d := ']') (by decide) (by decide), hne (d := '\x7b') (by decide) (by decide),
        hne (d := '\x7d') (by decide) (by decide), hne (d := ',') (by decide) (by decide),
        hne (d := ':') (by decide) (by decide)]
    rw [scanToken.eq_def]
    split
    · rename_i heq
      exact absurd (List.cons.inj heq).1 (hne (by decide) (by decide))
    · rename_i heq
      exact absurd (List.cons.inj heq).1 (hne (by decide) (by decide))
    · rename_i heq
      exact absurd (List.cons.inj heq).1 (hne (by decide) (by decide))
    · rename_i heq
      exact absurd (List.cons.inj heq).1 (hne (by decide) (by decide))
    · rename_i heq
      cases heq
      simp only [hp]
    · rename_i heq
      cases heq

theorem cutsInto_digitsInt {i : Int} (hl : -0x8000000000000000 ≤ i)
    (hu : i ≤ 0xFFFFFFFFFFFFFFFF) : CutsInto (digitsInt i) [.number (.int i)] := by
  obtain ⟨c, cs, hcs, hc⟩ : ∃ c cs, digitsInt i = c :: cs ∧ (c = '-' ∨ isDigit c = true) := by
    cases i with
    | ofNat n =>
      obtain ⟨d, ds, hd⟩ := List.exists_cons_of_ne_nil (digits_ne_nil n)
      exact ⟨d, ds, hd, .inr ((areDigits_digits n).2 d (hd ▸ List.mem_cons_self))⟩
    | negSucc n => exact ⟨'-', digits (n + 1), rfl, .inl rfl⟩
  obtain ⟨hspace, hscan⟩ := scanToken_of_digit hc
  rw [hcs]
  refine .token hspace fun rest hrest => ?_
  rw [hscan, ← List.cons_append, ← hcs]
  exact scanNumber_digitsInt hl hu hrest

/-- **The text of a value is cut into the tokens of the value**, if its numbers are integers. -/
theorem cutsInto_chars {v : Json} (h : v.HasIntegers) : CutsInto v.chars v.tokens := by
  induction v using Json.induction with
  | null =>
    rw [chars, tokens]
    exact .token (by decide) fun rest _ => rfl
  | bool b =>
    cases b <;> rw [chars, tokens]
    · exact .token (by decide) fun rest _ => rfl
    · exact .token (by decide) fun rest _ => rfl
  | number n =>
    cases h with
    | number hl hu =>
      rw [chars, tokens]
      exact cutsInto_digitsInt hl hu
  | text s =>
    rw [chars, tokens]
    exact .token (by decide) fun rest _ => scanToken_quotedChars s rest
  | array items ih =>
    cases h with
    | array h =>
      rw [chars, tokens]
      exact (cutsInto_charsItems fun v hv => ih v hv (h v hv)).between rfl rfl (.inl rfl)
  | object members ih =>
    cases h with
    | object h =>
      rw [chars, tokens]
      exact (cutsInto_charsMembers fun m hm => ih m hm (h m hm)).between rfl rfl (.inr rfl)

end HeldReply.Json
