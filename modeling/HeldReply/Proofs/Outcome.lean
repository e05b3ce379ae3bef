import HeldReply.Outcome

/-!
# The last chunk is no blank

A beat is a blank, and the last chunk of a reply is the compact text of a value.  No value has a
blank for its text, so the last chunk is never taken for a beat.

* `Json.compact_ne_blank` — **no value is written as a blank**;
* `Outcome.payload_ne_blank` — the same of the last chunk.
-/

namespace HeldReply

open HeldReply.Number

theorem digits_ne_blank (n : Nat) : digits n ≠ [' '] := by
  intro h
  have hread := ofDigits_digits n
  rw [h] at hread
  cases hread

theorem point_mem_positionalText (ds : List Char) (lead : Int) : '.' ∈ positionalText ds lead := by
  unfold positionalText
  split
  · simp
  · simp

theorem mark_mem_scientificText (ds : List Char) (lead : Int) : 'e' ∈ scientificText ds lead := by
  unfold scientificText
  simp

/-- Whatever the layout, a point or the mark of the exponent is written. -/
theorem point_or_mark_mem_write (l : Layout) (x : Binary64) :
    '.' ∈ l.write x ∨ 'e' ∈ l.write x := by
  rw [Layout.write, List.mem_append, List.mem_append]
  refine Or.imp .inr .inr ?_
  split
  · exact .inl (point_mem_positionalText _ _)
  · split
    · exact .inl (point_mem_positionalText _ _)
    · exact .inr (mark_mem_scientificText _ _)

theorem Json.Number.chars_ne_blank (n : Json.Number) : n.chars ≠ [' '] := by
  cases n with
  | int i =>
    cases i with
    | ofNat n => exact digits_ne_blank n
    | negSucc n => simp [chars, digitsInt]
  | float x =>
    intro h
    have hmem := point_or_mark_mem_write Json.floatLayout x
    rw [show Json.floatLayout.write x = [' '] from h] at hmem
    revert hmem
    decide

/-- **No value is written as a blank.** -/
theorem Json.compact_ne_blank (v : Json) : v.compact ≠ " " := by
  suffices h : v.chars ≠ [' '] by
    intro hv
    exact h (by simpa [compact] using congrArg String.toList hv)
  cases v with
  | null => decide
  | bool b => cases b <;> decide
  | number n =>
    rw [chars]
    exact n.chars_ne_blank
  | text s =>
    rw [chars, quotedChars]
    simp
  | array items =>
    rw [chars]
    simp
  | object members =>
    rw [chars]
    simp

theorem Outcome.payload_ne_blank (o : Outcome) : o.payload ≠ " " :=
  o.document.compact_ne_blank

end HeldReply
