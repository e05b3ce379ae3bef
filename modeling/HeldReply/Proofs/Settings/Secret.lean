import HeldReply.Settings.Document
import HeldReply.Settings.Environment
import HeldReply.Settings.Setting

/-!
# Where the secret comes from

Settings are loaded, from the environment, from a document or as they hold where nothing is said, and
then some of them may be set from code.  Who loads them takes an empty secret for none.  Who sets one
does not.

* `Settings.Loaded` — **the settings that are loaded**, which have no empty secret;
* `Settings.lastSecret?` — the secret that was set last;
* `Settings.token_build_eq_empty_iff` — **where an empty secret comes from**.
-/

namespace HeldReply.Settings

variable {processors : Nat} {s t : Settings}

/-- **The settings that are loaded** on a machine with so many processors. -/
inductive Loaded (processors : Nat) : Settings → Prop
  | base : Loaded processors (base processors)
  | environment {s : Settings} (env : Environment) (h : ofEnvironment processors env = .ok s) :
      Loaded processors s
  | document {s : Settings} (content : String) (h : ofDocument processors content = .ok s) :
      Loaded processors s

/-- Settings that are checked are left as they are. -/
theorem checked_eq_ok_iff : s.checked = .ok t ↔ s = t ∧ s.check = .ok () := by
  constructor
  · intro h
    obtain ⟨passed, hc, h⟩ := exists_of_bind_eq_ok h
    cases h
    exact ⟨rfl, hc⟩
  · rintro ⟨rfl, hc⟩
    rw [checked, hc]
    rfl

/-- A text that is taken for none where it is empty. -/
theorem ite_isEmpty_ne (text : String) :
    (if text.isEmpty then none else some text) ≠ some "" := by
  intro hs
  obtain ⟨hne, ht⟩ := Option.ite_none_left_eq_some.1 hs
  rw [Option.some.inj ht] at hne
  exact hne rfl

theorem ofEnvironment_token_ne {env : Environment} (h : ofEnvironment processors env = .ok s) :
    s.token ≠ some "" := by
  obtain ⟨token, heartbeat, workers, endpoint⟩ := env
  -- Each of the other variables may be set or not, and is read before the settings are checked.
  cases heartbeat <;> cases workers <;> cases endpoint <;>
    · obtain ⟨heartbeat, -, h⟩ := exists_of_bind_eq_ok h
      obtain ⟨workers, -, h⟩ := exists_of_bind_eq_ok h
      obtain ⟨endpoint, -, h⟩ := exists_of_bind_eq_ok h
      obtain ⟨rfl, -⟩ := checked_eq_ok_iff.1 h
      cases token with
      | none =>
        intro hs
        cases hs
      | some text => exact ite_isEmpty_ne text

theorem ofFields_token_ne {fs : Fields} (h : ofFields processors fs = .ok s) :
    s.token ≠ some "" := by
  obtain ⟨token, heartbeat, scheme, basePath, workers, bindAddr⟩ := fs
  cases bindAddr <;>
    · obtain ⟨endpoint, -, h⟩ := exists_of_bind_eq_ok h
      obtain ⟨rfl, -⟩ := checked_eq_ok_iff.1 h
      intro hs
      obtain ⟨-, hne⟩ := Option.filter_eq_some_iff.1 hs
      exact Bool.false_ne_true hne

/-- The settings of a document are made of the values that stand in it. -/
theorem exists_ofFields_of_ofDocument {content : String} (h : ofDocument processors content = .ok s) :
    ∃ fs, ofFields processors fs = .ok s := by
  unfold ofDocument at h
  dsimp only at h
  split at h
  · cases h
  · obtain ⟨es, -, h⟩ := exists_of_bind_eq_ok h
    obtain ⟨fs, -, h⟩ := exists_of_bind_eq_ok h
    cases hf : ofFields processors fs with
    | error fault =>
      rw [hf] at h
      cases h
    | ok s =>
      rw [hf] at h
      cases h
      exact ⟨fs, hf⟩

theorem ofDocument_token_ne {content : String} (h : ofDocument processors content = .ok s) :
    s.token ≠ some "" := by
  obtain ⟨fs, hf⟩ := exists_ofFields_of_ofDocument h
  exact ofFields_token_ne hf

/-- **Settings that are loaded have no empty secret.** -/
theorem Loaded.token_ne (h : Loaded processors s) : s.token ≠ some "" := by
  cases h with
  | base =>
    intro hs
    cases hs
  | environment env h => exact ofEnvironment_token_ne h
  | document content h => exact ofDocument_token_ne h

/-- The secret that a setting sets. -/
def secret? : Setting → Option String
  | .token text => some text
  | _ => none

/-- The secret that was **set last**. -/
def lastSecret? (settings : List Setting) : Option String :=
  (settings.filterMap secret?).getLast?

/-- The secret is the one set last; if none was set, the one that was there. -/
theorem token_build (s : Settings) (settings : List Setting) :
    (s.build settings).token = (lastSecret? settings).or s.token := by
  induction settings generalizing s with
  | nil => rfl
  | cons x settings ih =>
    have hbuild : s.build (x :: settings) = (s.set x).build settings := rfl
    rw [hbuild, ih]
    cases x with
    | token text =>
      have hset : (s.set (.token text)).token = some text := rfl
      have hlast : lastSecret? (.token text :: settings) = some ((lastSecret? settings).getD text) := by
        simp only [lastSecret?, secret?, List.filterMap_cons, List.getLast?_cons]
      rw [hset, hlast]
      cases lastSecret? settings <;> rfl
    | heartbeat | scheme | basePath | workers | endpoint => rfl

/-- **Where an empty secret comes from**: it was set, and no other one after it. -/
theorem token_build_eq_empty_iff (h : Loaded processors s) (settings : List Setting) :
    (s.build settings).token = some "" ↔ lastSecret? settings = some "" := by
  rw [token_build]
  cases hl : lastSecret? settings with
  | none => simpa using h.token_ne
  | some text => rfl

end HeldReply.Settings
