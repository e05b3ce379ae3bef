import HeldReply.Outcome
import HeldReply.Proofs.Json.Tokens
import HeldReply.Session.Basic

/-!
# What is written reads back

A reply is some beats and the last chunk.  Beats are blanks, so the whole is one JSON text whatever
the outcome; and whoever reads it gets just the value that the handler gave, or the document that
stands for every failure.

* `Json.IsOrdered` — values as they are kept: the keys of every object in ascending order;
* `Json.insertMember_last` — a member whose key is the greatest comes last;
* `Json.steps_tokens` — **the tokens of a value are read as the value**, wherever it stands;
* `Json.read_blanks_chars` — **what is written reads back**, behind any number of blanks;
* `replyBody` — the body that a client puts together;
* `replyBody_reads_back` — **the body is one text, and the answer is read from it**.
-/

namespace HeldReply

namespace Json

/-- Values **as they are kept**: the keys of every object stand in ascending order, each once. -/
inductive IsOrdered : Json → Prop
  | null : IsOrdered .null
  | bool (b : Bool) : IsOrdered (.bool b)
  | number (n : Json.Number) : IsOrdered (.number n)
  | text (s : String) : IsOrdered (.text s)
  | array {items : List Json} (h : ∀ v ∈ items, IsOrdered v) : IsOrdered (.array items)
  | object {members : List (String × Json)} (hk : members.Pairwise fun l m => l.1 < m.1)
      (h : ∀ m ∈ members, IsOrdered m.2) : IsOrdered (.object members)

variable {around : List Pending} {ts : List Token} {p q : Progress} {t : Token}

/-! ### The reader at work -/

namespace Progress

/-- One token after the other. -/
theorem steps_cons (h : p.step t = some q) : p.steps (t :: ts) = q.steps ts := by
  rw [steps, List.foldlM_cons, h]
  rfl

end Progress

open Progress

/-- A member whose key is **the greatest comes last**. -/
theorem insertMember_last {members : List (String × Json)} {key : String} {v : Json}
    (h : ∀ m ∈ members, m.1 < key) : insertMember key v members = members ++ [(key, v)] := by
  induction members with
  | nil => rfl
  | cons m members ih =>
    have hm : m.1 < key := h m List.mem_cons_self
    have hne : key ≠ m.1 := by
      rintro rfl
      exact String.lt_irrefl _ hm
    have hrest := ih fun l hl => h l (List.mem_cons_of_mem _ hl)
    obtain ⟨k, u⟩ := m
    rw [insertMember, if_neg (String.lt_asymm hm), if_neg hne, hrest]
    rfl

theorem depth_le_depthItems {v : Json} {items : List Json} (h : v ∈ items) :
    v.depth ≤ depthItems items := by
  induction items with
  | nil => exact absurd h List.not_mem_nil
  | cons u items ih =>
    rw [depthItems]
    rcases List.mem_cons.1 h with rfl | h
    · exact Nat.le_max_left _ _
    · exact Nat.le_trans (ih h) (Nat.le_max_right _ _)

theorem depth_le_depthMembers {m : String × Json} {members : List (String × Json)}
    (h : m ∈ members) : m.2.depth ≤ depthMembers members := by
  induction members with
  | nil => exact absurd h List.not_mem_nil
  | cons l members ih =>
    obtain ⟨k, u⟩ := l
    rw [depthMembers]
    rcases List.mem_cons.1 h with rfl | h
    · exact Nat.le_max_left _ _
    · exact Nat.le_trans (ih h) (Nat.le_max_right _ _)

/-- A value does not begin with the end of an array. -/
theorem exists_tokens_eq_cons (v : Json) : ∃ t ts, v.tokens = t :: ts ∧ t ≠ .closeArray := by
  cases v with
  | null | bool | number | text | array | object =>
    rw [tokens]
    exact ⟨_, _, rfl, Token.noConfusion⟩

/-- Where an array was opened, anything but its end is read as an item. -/
theorem step_arrayStart (h : t ≠ .closeArray) :
    (arrayStart around).step t = (value (.array [] :: around)).step t := by
  cases t with
  | closeArray => exact absurd rfl h
  | openArray | openObject | closeObject | comma | colon | null | bool | number | text => rfl

/-- **A value is read where it stands**, whatever comes after it. -/
def ReadsBack (v : Json) (around : List Pending) : Prop :=
  ∀ ts, (Progress.value around).steps (v.tokens ++ ts) = (put v around).steps ts

/-- The items of an array are read one after the other. -/
theorem steps_tokensItems (acc : List Json) {v : Json} {items : List Json}
    (h : ∀ u ∈ v :: items, ∀ acc, ReadsBack u (.array acc :: around)) (ts : List Token) :
    (value (.array acc :: around)).steps (tokensItems (v :: items) ++ .closeArray :: ts) =
      (put (.array (acc.reverse ++ v :: items)) around).steps ts := by
  induction items generalizing v acc with
  | nil =>
    rw [tokensItems, h v List.mem_cons_self acc]
    show (afterItem (v :: acc) around).steps (.closeArray :: ts) = _
    rw [steps_cons (q := put (.array (v :: acc).reverse) around) rfl, List.reverse_cons]
  | cons u items ih =>
    have hitems := ih (v :: acc) fun w hw => h w (List.mem_cons_of_mem _ hw)
    rw [List.reverse_cons, List.append_assoc, List.singleton_append] at hitems
    rw [tokensItems, List.append_assoc, h v List.mem_cons_self acc]
    · show (afterItem (v :: acc) around).steps (.comma :: (tokensItems (u :: items) ++ _)) = _
      rw [steps_cons (q := value (.array (v :: acc) :: around)) rfl, hitems]
    · exact fun hnil => List.cons_ne_nil _ _ hnil

/-- The members of an object are read one after the other, and stay in their order. -/
theorem steps_tokensMembers (acc : List (String × Json)) {m : String × Json}
    {members : List (String × Json)}
    (hk : (acc ++ m :: members).Pairwise fun l m => l.1 < m.1)
    (h : ∀ l ∈ m :: members, ∀ acc, ReadsBack l.2 (.object acc l.1 :: around))
    (hp : p.step (.text m.1) = some (.colon acc m.1 around)) (ts : List Token) :
    p.steps (tokensMembers (m :: members) ++ .closeObject :: ts) =
      (put (.object (acc ++ m :: members)) around).steps ts := by
  induction members generalizing m acc p with
  | nil =>
    have hlast : insertMember m.1 m.2 acc = acc ++ [m] := by
      refine insertMember_last fun l hl => ?_
      exact (List.pairwise_append.1 hk).2.2 l hl m List.mem_cons_self
    rw [tokensMembers, List.cons_append, List.cons_append, steps_cons hp,
      steps_cons (q := value (.object acc m.1 :: around)) rfl, h m List.mem_cons_self acc]
    show (afterMember (insertMember m.1 m.2 acc) around).steps (.closeObject :: ts) = _
    rw [hlast, steps_cons (q := put (.object (acc ++ [m])) around) rfl]
  | cons l members ih =>
    have hlast : insertMember m.1 m.2 acc = acc ++ [m] := by
      refine insertMember_last fun l hl => ?_
      exact (List.pairwise_append.1 hk).2.2 l hl m List.mem_cons_self
    have hmembers := ih (acc ++ [m]) (m := l) (p := nextKey (acc ++ [m]) around)
      (by simpa using hk) (fun k hl => h k (List.mem_cons_of_mem _ hl)) rfl
    rw [List.append_assoc, List.singleton_append] at hmembers
    rw [tokensMembers, List.cons_append, List.cons_append, steps_cons hp,
      steps_cons (q := value (.object acc m.1 :: around)) rfl, List.append_assoc,
      h m List.mem_cons_self acc]
    · show (afterMember (insertMember m.1 m.2 acc) around).steps
        (.comma :: (tokensMembers (l :: members) ++ _)) = _
      rw [hlast, steps_cons (q := nextKey (acc ++ [m]) around) rfl, hmembers]
    · exact fun hnil => List.cons_ne_nil _ _ hnil

/-- **The tokens of a value are read as the value**, wherever it stands, if it is kept in order and
not too deep. -/
theorem steps_tokens {v : Json} (ho : v.IsOrdered) (hd : v.depth + around.length ≤ maxDepth) :
    ReadsBack v around := by
  induction v using Json.induction generalizing around with
  | null | bool | number | text =>
    intro ts
    rw [tokens, List.singleton_append, steps_cons rfl]
  | array items ih =>
    rw [depth] at hd
    have hopen : (value around).step .openArray = some (arrayStart around) :=
      if_pos (by omega : around.length < maxDepth)
    have hall (v : Json) (hv : v ∈ items) (acc : List Json) :
        ReadsBack v (.array acc :: around) := by
      cases ho with
      | array ho =>
        have := depth_le_depthItems hv
        refine ih v hv (ho v hv) ?_
        rw [List.length_cons]
        omega
    intro ts
    rw [tokens, List.cons_append, steps_cons hopen, List.append_assoc, List.singleton_append]
    cases items with
    | nil => exact steps_cons rfl
    | cons v items =>
      obtain ⟨t, us, hts, hne⟩ := exists_tokens_eq_cons v
      have hstart (us : List Token) : (arrayStart around).steps (t :: us) =
          (value (.array [] :: around)).steps (t :: us) := by
        rw [steps, steps, List.foldlM_cons, List.foldlM_cons, step_arrayStart hne]
      have hitems := steps_tokensItems [] hall ts
      cases items with
      | nil =>
        rw [tokensItems, hts, List.cons_append] at hitems ⊢
        rw [hstart, hitems]
        rfl
      | cons u items =>
        rw [tokensItems, hts, List.cons_append, List.cons_append] at hitems ⊢
        · rw [hstart, hitems]
          rfl
        · exact fun hnil => List.cons_ne_nil _ _ hnil
        · exact fun hnil => List.cons_ne_nil _ _ hnil
  | object members ih =>
    rw [depth] at hd
    have hopen : (value around).step .openObject = some (objectStart around) :=
      if_pos (by omega : around.length < maxDepth)
    cases ho with
    | object hk ho =>
      have hall (m : String × Json) (hm : m ∈ members) (acc : List (String × Json)) :
          ReadsBack m.2 (.object acc m.1 :: around) := by
        have := depth_le_depthMembers hm
        refine ih m hm (ho m hm) ?_
        rw [List.length_cons]
        omega
      intro ts
      rw [tokens, List.cons_append, steps_cons hopen, List.append_assoc, List.singleton_append]
      cases members with
      | nil => exact steps_cons rfl
      | cons m members => exact steps_tokensMembers [] hk hall rfl ts

/-! ### Whole texts -/

/-- Blanks before a text are skipped. -/
theorem scanWith_blanks (fuel n : Nat) (cs : List Char) :
    scanWith (fuel + 1) (List.replicate n ' ' ++ cs) = scanWith (fuel + 1) cs := by
  have hdrop : (List.replicate n ' ' ++ cs).dropWhile isSpace = cs.dropWhile isSpace := by
    apply List.dropWhile_append_of_pos
    intro c hc
    rw [List.eq_of_mem_replicate hc]
    rfl
  rw [scanWith, scanWith, hdrop]

/-- **What is written reads back**, behind any number of blanks. -/
theorem read_blanks_chars {v : Json} (ho : v.IsOrdered) (hi : v.HasIntegers)
    (hd : v.depth ≤ maxDepth) (n : Nat) :
    read (List.replicate n ' ' ++ v.chars) = some v := by
  have hcut := cutsInto_chars hi
  have hscan : scan (List.replicate n ' ' ++ v.chars) = some v.tokens := by
    obtain ⟨fuel, hfuel⟩ : ∃ fuel, (List.replicate n ' ' ++ v.chars).length =
        v.tokens.length + fuel := by
      refine ⟨_, (Nat.add_sub_cancel' ?_).symm⟩
      have := hcut.length_le
      rw [List.length_append]
      omega
    have hnone : Delimits [] := fun c hc => by cases hc
    have heq := hcut.scan_eq (fuel + 1) [] hnone
    rw [List.append_nil, ← Nat.add_assoc] at heq
    rw [scan, hfuel, scanWith_blanks, heq]
    simp [scanWith]
  have hback : ReadsBack v [] := steps_tokens ho hd
  have hsteps := hback []
  rw [List.append_nil] at hsteps
  rw [read, hscan]
  show ((Progress.value []).steps v.tokens).bind _ = _
  rw [hsteps]
  rfl

/-- A text is read from the bytes that stand for it. -/
theorem readBytes_toUTF8 (s : String) : readBytes s.toUTF8 = read s.toList := by
  have hs : String.fromUTF8? s.toUTF8 = some s := by
    rw [String.fromUTF8?, String.toUTF8_eq_toByteArray, dif_pos s.isValidUTF8]
    rfl
  rw [readBytes, hs]
  rfl

end Json

open Json

/-! ### Replies -/

/-- **The body** that a client puts together: so many beats, and the last chunk. -/
def replyBody (beats : Nat) (o : Outcome) : String :=
  String.join (List.replicate beats Session.beatChunk ++ [o.payload])

theorem toList_replyBody (beats : Nat) (o : Outcome) :
    (replyBody beats o).toList = List.replicate beats ' ' ++ o.document.chars := by
  have hbeats : (List.replicate beats Session.beatChunk).flatMap String.toList =
      List.replicate beats ' ' := by
    induction beats with
    | zero => rfl
    | succ n ih =>
      rw [List.replicate_succ, List.flatMap_cons, ih]
      rfl
  rw [replyBody, String.toList_join, List.flatMap_append, hbeats]
  simp [Outcome.payload, compact]

/-- The document that stands for every failure is in order, and has neither numbers nor depth. -/
theorem reads_errorDocument (beats : Nat) :
    read (List.replicate beats ' ' ++ errorDocument.chars) = some errorDocument := by
  apply read_blanks_chars
  · refine .object (List.pairwise_singleton _ _) fun m hm => ?_
    rw [List.mem_singleton.1 hm]
    exact .text _
  · refine .object fun m hm => ?_
    rw [List.mem_singleton.1 hm]
    exact .text _
  · decide

/-- **The answer is read from the body of a reply**, whatever the outcome and however many beats came
before.

* The body is one JSON text.
* The value of a handler is read from it just as it was given, if its numbers are integers of 64 bits,
  with or without a sign, and it is no deeper than readers go.
* Of every failure the same document is read. -/
theorem replyBody_reads_back (beats : Nat) (o : Outcome) :
    IsElement (replyBody beats o).toList ∧
    (∀ v, o = .ok v → v.IsOrdered → v.HasIntegers → v.depth ≤ 127 →
      readBytes (replyBody beats o).toUTF8 = some v) ∧
    (∀ f, o = .error f →
      readBytes (replyBody beats o).toUTF8 = some (.object [("status", .text "error")])) := by
  rw [readBytes_toUTF8, toList_replyBody]
  refine ⟨?_, ?_, ?_⟩
  · have hblanks : AreBlanks (List.replicate beats ' ') :=
      fun c hc => .inl (List.eq_of_mem_replicate hc)
    simpa using IsElement.spaced hblanks (isValue_chars o.document) areBlanks_nil
  · rintro v rfl ho hi hd
    exact read_blanks_chars ho hi hd beats
  · rintro f rfl
    exact reads_errorDocument beats

/-- The least and the greatest integer, characters that are escaped and one that takes three bytes,
behind three beats. -/
theorem replyBody_reads_back_escaped :
    ∃ v, v = .object [("a\"\n", .array [.ofInt (-0x8000000000000000), .ofNat 0xFFFFFFFFFFFFFFFF]),
        ("答", .object [("\x1f\\", .null), ("b", .text "\t答")])] ∧
      v.IsOrdered ∧ v.HasIntegers ∧ v.depth ≤ 127 ∧
      readBytes (replyBody 3 (.ok v)).toUTF8 = some v := by
  let items : List Json := [.ofInt (-0x8000000000000000), .ofNat 0xFFFFFFFFFFFFFFFF]
  let inner : List (String × Json) := [("\x1f\\", .null), ("b", .text "\t答")]
  let v : Json := .object [("a\"\n", .array items), ("答", .object inner)]
  have ho : v.IsOrdered := by
    refine .object (by decide) ?_
    simp only [List.forall_mem_cons, List.not_mem_nil, false_implies, implies_true, and_true]
    refine ⟨.array ?_, .object (by decide) ?_⟩
    · simp only [items, List.forall_mem_cons, List.not_mem_nil, false_implies, implies_true,
        and_true]
      exact ⟨.number _, .number _⟩
    · simp only [inner, List.forall_mem_cons, List.not_mem_nil, false_implies, implies_true,
        and_true]
      exact ⟨.null, .text _⟩
  have hi : v.HasIntegers := by
    refine .object ?_
    simp only [List.forall_mem_cons, List.not_mem_nil, false_implies, implies_true, and_true]
    refine ⟨.array ?_, .object ?_⟩
    · simp only [items, List.forall_mem_cons, List.not_mem_nil, false_implies, implies_true,
        and_true]
      exact ⟨.number (by decide) (by decide), .number (by decide) (by decide)⟩
    · simp only [inner, List.forall_mem_cons, List.not_mem_nil, false_implies, implies_true,
        and_true]
      exact ⟨.null, .text _⟩
  have hd : v.depth ≤ 127 := by decide
  exact ⟨v, rfl, ho, hi, hd, (replyBody_reads_back 3 (.ok v)).2.1 v rfl ho hi hd⟩

end HeldReply
