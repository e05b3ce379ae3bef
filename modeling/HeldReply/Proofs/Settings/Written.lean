import HeldReply.Proofs.Toml
import HeldReply.Settings.Document

/-!
# What a document says

The settings that a document may hold are its fields.  Whatever the fields are, as long as TOML has
numbers that are so large, there is a document that says them: one line for each field.

* `Fields.ReadFrom` — what a document says, and that this can be decided;
* `Fields.lines`, `Fields.reads_lines` — the fields **line by line**, and that each line can be
  read;
* `Fields.exists_readFrom` — there is a document that says them.
-/

namespace HeldReply

/-- **What a document says.** -/
def Fields.ReadFrom (content : String) (fs : Fields) : Prop :=
  ∃ es, Toml.read content = some es ∧ Fields.ofEntries es = .ok fs

theorem Fields.readFrom_iff {content : String} {fs : Fields} : fs.ReadFrom content ↔
    ((Toml.read content).bind fun es => (ofEntries es).toOption) = some fs := by
  rw [Option.bind_eq_some_iff]
  refine exists_congr fun es => and_congr_right fun _ => ?_
  cases ofEntries es <;> simp [Except.toOption]

instance (content : String) (fs : Fields) : Decidable (fs.ReadFrom content) :=
  decidable_of_iff _ Fields.readFrom_iff.symm

namespace Field

/-- A name that a document may use needs no quotes. -/
theorem isBare_spelling (f : Field) :
    f.spelling.toList ≠ [] ∧ ∀ c ∈ f.spelling.toList, Toml.isBare c = true := by
  cases f <;> exact ⟨by decide, List.all_eq_true.1 rfl⟩

/-- The line of a text, if there is one. -/
def textLine (f : Field) (o : Option String) : List Toml.Line :=
  (o.map (Toml.Line.text f.spelling)).toList

/-- The line of a number, if there is one. -/
def numberLine (f : Field) (o : Option Nat) : List Toml.Line :=
  (o.map (Toml.Line.natural f.spelling)).toList

theorem names_textLine (f : Field) (o : Option String) :
    ((f.textLine o).map Toml.Line.name).Sublist [f.spelling] := by
  cases o with
  | none => exact List.nil_sublist _
  | some s => exact List.Sublist.refl _

theorem names_numberLine (f : Field) (o : Option Nat) :
    ((f.numberLine o).map Toml.Line.name).Sublist [f.spelling] := by
  cases o with
  | none => exact List.nil_sublist _
  | some n => exact List.Sublist.refl _

theorem reads_textLine (f : Field) (o : Option String) : ∀ l ∈ f.textLine o, l.Reads := by
  intro l hl
  obtain ⟨s, -, rfl⟩ := Option.map_eq_some_iff.1 (Option.mem_toList.1 hl)
  exact Toml.Line.reads_text f.isBare_spelling.1 f.isBare_spelling.2 s

theorem reads_numberLine (f : Field) {o : Option Nat} (h : ∀ n, o = some n → n < 2 ^ 63) :
    ∀ l ∈ f.numberLine o, l.Reads := by
  intro l hl
  obtain ⟨n, hn, rfl⟩ := Option.map_eq_some_iff.1 (Option.mem_toList.1 hl)
  exact Toml.Line.reads_natural f.isBare_spelling.1 f.isBare_spelling.2 (h n hn)

end Field

namespace Fields

variable {fs : Fields}

/-- What is said, **line by line**. -/
def lines (fs : Fields) : List Toml.Line :=
  Field.token.textLine fs.token ++ Field.heartbeatMillis.numberLine fs.heartbeatMillis ++
  Field.authScheme.textLine fs.authScheme ++ Field.basePath.textLine fs.basePath ++
  Field.workerThreads.numberLine fs.workerThreads ++ Field.bindAddr.textLine fs.bindAddr

/-- The lines say what is said. -/
theorem ofEntries_lines (fs : Fields) :
    ofEntries (fs.lines.map fun l => (l.name, l.node)) = .ok fs := by
  obtain ⟨_ | _, _ | _, _ | _, _ | _, _ | _, _ | _⟩ := fs <;> rfl

/-- No name comes twice. -/
theorem nodup_lines (fs : Fields) : (fs.lines.map Toml.Line.name).Nodup := by
  have hsub : (fs.lines.map Toml.Line.name).Sublist (Field.all.map Field.spelling) := by
    simp only [lines, List.map_append]
    exact (((((Field.token.names_textLine _).append (Field.heartbeatMillis.names_numberLine _)).append
      (Field.authScheme.names_textLine _)).append (Field.basePath.names_textLine _)).append
      (Field.workerThreads.names_numberLine _)).append (Field.bindAddr.names_textLine _)
  exact hsub.nodup (by decide)

/-- **Every line can be read**, if 63 bits hold the numbers. -/
theorem reads_lines (hheartbeat : ∀ n, fs.heartbeatMillis = some n → n < 2 ^ 63)
    (hworkers : ∀ n, fs.workerThreads = some n → n < 2 ^ 63) : ∀ l ∈ fs.lines, l.Reads := by
  simp only [lines, List.forall_mem_append]
  exact ⟨⟨⟨⟨⟨Field.token.reads_textLine _, Field.heartbeatMillis.reads_numberLine hheartbeat⟩,
    Field.authScheme.reads_textLine _⟩, Field.basePath.reads_textLine _⟩,
    Field.workerThreads.reads_numberLine hworkers⟩, Field.bindAddr.reads_textLine _⟩

/-- **Whatever is said** in texts and in numbers of 63 bits, there is a document that says it. -/
theorem exists_readFrom (hheartbeat : ∀ n, fs.heartbeatMillis = some n → n < 2 ^ 63)
    (hworkers : ∀ n, fs.workerThreads = some n → n < 2 ^ 63) : ∃ content, fs.ReadFrom content :=
  ⟨_, _, Toml.read_lines (reads_lines hheartbeat hworkers) fs.nodup_lines, fs.ofEntries_lines⟩

end Fields

end HeldReply
