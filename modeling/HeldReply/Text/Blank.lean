/-!
# Blanks and trimming

Names, numbers and addresses that people type come with blanks around them.  This file says which
characters are blank and how a text is cut at its ends:

* `isBlank` — the characters with the Unicode property *White_Space*;
* `strip p` — a list of characters without the leading and trailing ones that satisfy `p`, with
  `stripEnd_append`, `getLast?_stripEnd`, `head?_strip` and `getLast?_strip` on what is cut off and
  what is left;
* `trim` — a text without the blanks at its ends.
-/

namespace HeldReply.Text

/-- A character is **blank** if it has the Unicode property White_Space. -/
def isBlank (c : Char) : Bool :=
  let n := c.toNat
  (0x09 ≤ n && n ≤ 0x0d) || n == 0x20 || n == 0x85 || n == 0xa0 || n == 0x1680 ||
    (0x2000 ≤ n && n ≤ 0x200a) || n == 0x2028 || n == 0x2029 || n == 0x202f || n == 0x205f ||
    n == 0x3000

/-- A list without its trailing elements that satisfy `p`. -/
def stripEnd {α : Type} (p : α → Bool) (xs : List α) : List α :=
  (xs.reverse.dropWhile p).reverse

/-- A list without its leading and trailing elements that satisfy `p`. -/
def strip {α : Type} (p : α → Bool) (xs : List α) : List α :=
  stripEnd p (xs.dropWhile p)

section Strip

variable {α : Type} (p : α → Bool) (xs : List α)

/-- What is cut off at the end satisfies `p`. -/
theorem stripEnd_append : ∃ cut, xs = stripEnd p xs ++ cut ∧ ∀ x ∈ cut, p x = true := by
  refine ⟨(xs.reverse.takeWhile p).reverse, ?_, ?_⟩
  · rw [stripEnd, ← List.reverse_append, List.takeWhile_append_dropWhile, List.reverse_reverse]
  · intro x hx
    exact List.all_eq_true.1 List.all_takeWhile x (List.mem_reverse.1 hx)

/-- What is left does not begin with an element that satisfies `p`. -/
theorem head?_dropWhile {x : α} (h : (xs.dropWhile p).head? = some x) : p x = false := by
  have hhead := xs.head?_dropWhile_not p
  rw [h] at hhead
  exact hhead

theorem getLast?_stripEnd {x : α} (h : (stripEnd p xs).getLast? = some x) : p x = false := by
  rw [stripEnd, List.getLast?_reverse] at h
  exact head?_dropWhile p xs.reverse h

theorem getLast?_strip {x : α} (h : (strip p xs).getLast? = some x) : p x = false :=
  getLast?_stripEnd p _ h

theorem head?_strip {x : α} (h : (strip p xs).head? = some x) : p x = false := by
  obtain ⟨cut, hcut, -⟩ := stripEnd_append p (xs.dropWhile p)
  have hhead : (xs.dropWhile p).head? = some x := by
    rw [hcut, List.head?_append]
    show (strip p xs).head?.or cut.head? = some x
    rw [h, Option.some_or]
  exact head?_dropWhile p xs hhead

end Strip

/-- A text without the blanks at its ends. -/
def trim (s : String) : String :=
  String.ofList (strip isBlank s.toList)

end HeldReply.Text
