import HeldReply.Number.Whole
import HeldReply.Proofs.Naming

/-!
# Numbers as they are typed

A whole number is typed with blanks around it, with zeros before it, or with a plus sign.  It is
read digit by digit, and a number of at most 64 bits is read as what it is.

* `Number.readWholeFrom_of_pushDigits` — **digits are read** as the number they stand for;
* `Number.Spells`, `Number.spells_decimal` — a text that **spells a number**, and one that does;
* `Number.readWhole_trim` — such a text is read.
-/

namespace HeldReply.Number

variable {n acc : Nat} {c : Char} {cs : List Char} {text : String}

/-- **Digits are read**, if the number they stand for has no more than 64 bits. -/
theorem readWholeFrom_of_pushDigits (hn : n ≤ maxWord)
    (h : cs.foldlM (fun n c => (digitValue? c).map (pushDigit n)) acc = some n) :
    readWholeFrom acc cs = .ok n := by
  induction cs generalizing acc with
  | nil =>
    cases h
    rfl
  | cons c cs ih =>
    rw [List.foldlM_cons] at h
    obtain ⟨m, hm, h⟩ := Option.bind_eq_some_iff.1 h
    obtain ⟨d, hd, rfl⟩ := Option.map_eq_some_iff.1 hm
    have hfits : pushDigit acc d ≤ maxWord := Nat.le_trans (le_of_pushDigits h) hn
    rw [readWholeFrom, hd]
    simp only [if_pos hfits]
    exact ih h

/-- A digit is neither a blank nor a sign. -/
theorem not_isBlank_of_isDigit (h : isDigit c = true) : Text.isBlank c = false ∧ c ≠ '+' := by
  have hrange : '0'.toNat ≤ c.toNat ∧ c.toNat ≤ '9'.toNat := by
    unfold isDigit digitValue? at h
    split at h
    · assumption
    · cases h
  obtain ⟨hlow, hhigh⟩ : 48 ≤ c.toNat ∧ c.toNat ≤ 57 := hrange
  constructor
  · simp only [Text.isBlank, Bool.or_eq_false_iff, Bool.and_eq_false_iff, decide_eq_false_iff_not,
      beq_eq_false_iff_ne]
    omega
  · rintro rfl
    exact absurd hlow (by decide)

/-- A text **spells** a number: decimal digits, possibly with zeros before them and a plus sign
before these, and any blanks around. -/
def Spells (text : String) (n : Nat) : Prop :=
  ∃ front sign ds back, text.toList = front ++ (sign ++ ds) ++ back ∧
    (∀ c ∈ front, Text.isBlank c = true) ∧ (∀ c ∈ back, Text.isBlank c = true) ∧
    (sign = [] ∨ sign = ['+']) ∧ ds ≠ [] ∧ ofDigits ds = some n

/-- A number as decimal text spells itself. -/
theorem spells_decimal (n : Nat) : Spells (decimal n) n := by
  have hnone : ∀ c ∈ ([] : List Char), Text.isBlank c = true := List.forall_mem_nil _
  refine ⟨[], [], digits n, [], ?_, hnone, hnone, .inl rfl, digits_ne_nil n, ofDigits_digits n⟩
  rw [decimal, String.toList_ofList, List.append_nil]
  rfl

/-- Blanks around the digits are cut off, and nothing else. -/
theorem trim_of_spelled {front sign ds back : List Char}
    (htext : text.toList = front ++ (sign ++ ds) ++ back)
    (hfront : ∀ c ∈ front, Text.isBlank c = true) (hback : ∀ c ∈ back, Text.isBlank c = true)
    (hsign : sign = [] ∨ sign = ['+']) (hdigits : ∀ c ∈ ds, isDigit c = true) :
    (Text.trim text).toList = sign ++ ds := by
  have hall : ∀ c ∈ sign ++ ds, Text.isBlank c = false := by
    intro c hc
    obtain hc | hc := List.mem_append.1 hc
    · obtain rfl | rfl := hsign
      · exact absurd hc List.not_mem_nil
      · rw [List.mem_singleton.1 hc]
        decide
    · exact (not_isBlank_of_isDigit (hdigits c hc)).1
  rw [Text.trim, String.toList_ofList, htext]
  exact Text.strip_append_append hfront hback (fun c hc => hall c (List.mem_of_mem_head? hc))
    fun c hc => hall c (List.mem_of_mem_getLast? hc)

/-- **A number that is spelled is read**, if it has no more than 64 bits. -/
theorem readWhole_trim (h : Spells text n) (hn : n ≤ maxWord) :
    readWhole (Text.trim text) = .ok n := by
  obtain ⟨front, sign, ds, back, htext, hfront, hback, hsign, hds, hvalue⟩ := h
  have hdigits := isDigit_of_pushDigits hvalue
  have hread := readWholeFrom_of_pushDigits hn hvalue
  have htrim := trim_of_spelled htext hfront hback hsign hdigits
  obtain ⟨c, cs, rfl⟩ := List.exists_cons_of_ne_nil hds
  have hc : c ≠ '+' := (not_isBlank_of_isDigit (hdigits c List.mem_cons_self)).2
  unfold readWhole
  obtain rfl | rfl := hsign
  · rw [htrim]
    split
    · rename_i heq
      cases heq
    · rename_i heq
      cases heq
      exact absurd rfl hc
    · rename_i heq
      cases heq
      exact absurd rfl hc
    · exact hread
  · rw [htrim]
    exact hread

end HeldReply.Number
