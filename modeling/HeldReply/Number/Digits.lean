/-!
# Decimal digits

Natural numbers written and read in base ten.

* `digitChar`, `digitValue?` — one digit as a character, and back;
* `digits` — the digits of a number, most significant first, without leading zeros;
* `ofDigits` — the number that a list of digit values stands for;
* `decimal`, `decimalInt` — the same as texts, the second with a sign for negative numbers;
* `ofDigits_digits` — reading the digits of a number gives it back;
* `le_of_pushDigits`, `isDigit_of_pushDigits` — what is read as a number, digit by digit;
* `head?_digits` — only zero begins with a zero.
-/

namespace HeldReply.Number

/-- The character of a digit below ten. -/
def digitChar (d : Nat) : Char :=
  Char.ofNat ('0'.toNat + d)

/-- The value of a decimal digit; `none` for any other character. -/
def digitValue? (c : Char) : Option Nat :=
  if '0'.toNat ≤ c.toNat ∧ c.toNat ≤ '9'.toNat then some (c.toNat - '0'.toNat) else none

/-- Whether a character is a decimal digit. -/
def isDigit (c : Char) : Bool :=
  (digitValue? c).isSome

/-- The **digits** of a number, most significant first; zero has one digit. -/
def digits (n : Nat) : List Char :=
  if n < 10 then [digitChar n] else digits (n / 10) ++ [digitChar (n % 10)]
termination_by n
decreasing_by omega

/-- One more digit at the end of a number. -/
def pushDigit (n d : Nat) : Nat :=
  10 * n + d

/-- The number that a list of characters stands for; `none` if one of them is no digit. -/
def ofDigits (cs : List Char) : Option Nat :=
  cs.foldlM (fun n c => (digitValue? c).map (pushDigit n)) 0

/-- A number as decimal text. -/
def decimal (n : Nat) : String :=
  String.ofList (digits n)

/-- An integer as decimal digits, with a minus sign if it is negative. -/
def digitsInt : Int → List Char
  | .ofNat n => digits n
  | .negSucc n => '-' :: digits (n + 1)

/-- An integer as decimal text. -/
def decimalInt (i : Int) : String :=
  String.ofList (digitsInt i)

theorem digitValue?_digitChar {d : Nat} (h : d < 10) : digitValue? (digitChar d) = some d := by
  have hd : ∀ e : Fin 10, digitValue? (digitChar e.val) = some e.val := by decide
  exact hd ⟨d, h⟩

/-- Reading the digits of a number gives it back. -/
theorem ofDigits_digits (n : Nat) : ofDigits (digits n) = some n := by
  induction n using digits.induct with
  | case1 n h =>
    rw [digits, if_pos h]
    simp [ofDigits, digitValue?_digitChar h, pushDigit]
  | case2 n h ih =>
    rw [digits, if_neg h]
    unfold ofDigits at ih ⊢
    rw [List.foldlM_append, ih]
    have hm : n % 10 < 10 := Nat.mod_lt _ (by decide)
    simp only [Option.bind_eq_bind, Option.bind_some, List.foldlM_cons, digitValue?_digitChar hm,
      Option.map_some, List.foldlM_nil, pushDigit]
    simp only [Option.pure_def, Option.some.injEq]
    omega

/-- Digits that come later make a number no smaller. -/
theorem le_of_pushDigits {acc n : Nat} {cs : List Char}
    (h : cs.foldlM (fun n c => (digitValue? c).map (pushDigit n)) acc = some n) : acc ≤ n := by
  induction cs generalizing acc with
  | nil =>
    cases h
    exact Nat.le_refl _
  | cons c cs ih =>
    rw [List.foldlM_cons] at h
    obtain ⟨m, hm, h⟩ := Option.bind_eq_some_iff.1 h
    obtain ⟨d, -, rfl⟩ := Option.map_eq_some_iff.1 hm
    have hle := ih h
    unfold pushDigit at hle
    omega

/-- What stands for a number are digits. -/
theorem isDigit_of_pushDigits {acc n : Nat} {cs : List Char}
    (h : cs.foldlM (fun n c => (digitValue? c).map (pushDigit n)) acc = some n) :
    ∀ c ∈ cs, isDigit c = true := by
  induction cs generalizing acc with
  | nil => exact fun c hc => absurd hc List.not_mem_nil
  | cons c cs ih =>
    rw [List.foldlM_cons] at h
    obtain ⟨m, hm, h⟩ := Option.bind_eq_some_iff.1 h
    obtain ⟨d, hd, -⟩ := Option.map_eq_some_iff.1 hm
    refine List.forall_mem_cons.2 ⟨?_, ih h⟩
    rw [isDigit, hd]
    rfl

theorem digits_ne_nil (n : Nat) : digits n ≠ [] := by
  rw [digits]
  split <;> simp

theorem isDigit_digits (n : Nat) : ∀ c ∈ digits n, isDigit c = true :=
  isDigit_of_pushDigits (ofDigits_digits n)

/-- Only zero begins with a zero. -/
theorem head?_digits {n : Nat} (h : n ≠ 0) : (digits n).head? ≠ some '0' := by
  induction n using digits.induct with
  | case1 n hn =>
    rw [digits, if_pos hn]
    have hall : ∀ e : Fin 10, e.val ≠ 0 → [digitChar e.val].head? ≠ some '0' := by decide
    exact hall ⟨n, hn⟩ h
  | case2 n hn ih =>
    obtain ⟨d, ds, hd⟩ := List.exists_cons_of_ne_nil (digits_ne_nil (n / 10))
    have hfirst := ih (by omega)
    rw [hd] at hfirst
    rw [digits, if_neg hn, hd]
    exact hfirst

theorem digits_zero : digits 0 = ['0'] := by
  rw [digits, if_pos (by decide)]
  rfl

end HeldReply.Number
