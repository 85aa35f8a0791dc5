import RepoAtlas.Proofs.Graph.Assembly
import RepoAtlas.Settings.Basic

/-! # The settings of a table

A table makes settings if all its names are those of settings and each value is one that its setting
takes; then every setting has the given value, in its one form, or the preset.
-/

namespace RepoAtlas.Settings

/-- The settings are those of a table, each value in the form that its setting takes. -/
structure Made (given : Table) (s : Settings) : Prop where
  extensions : extensionsOf (givenOr given .extensions) = .ok s.extensions
  someExtension : s.extensions ≠ []
  excludedDirs : itemsOf (givenOr given .excludedDirs) = .ok s.excludedDirs
  ignoreFile : s.ignoreFile = givenOr given .ignoreFile
  respectIgnoreFile : s.respectIgnoreFile = givenOr given .respectIgnoreFile
  includeFolders : s.includeFolders = givenOr given .includeFolders
  relativeFirst : s.relativeFirst = givenOr given .relativeFirst
  churnMode : choiceOf .churnMode History.ChurnMode.ofName? (History.ChurnMode.all.map (·.name))
    (givenOr given .churnMode) = .ok s.churnMode
  verbosity : choiceOf .verbosity Verbosity.ofName? (Verbosity.all.map (·.name))
    (givenOr given .verbosity) = .ok s.verbosity
  gitTimeoutSeconds : amountOf .gitTimeoutSeconds .atLeastOne (givenOr given .gitTimeoutSeconds) =
    .ok s.gitTimeoutSeconds
  workers : amountOf? .workers (givenOr given .workers) = .ok s.workers
  topN : amountOf .topN .atLeastOne (givenOr given .topN) = .ok s.topN
  explainModel : s.explainModel = givenOr given .explainModel
  explainMaxChars : amountOf .explainMaxChars .positive (givenOr given .explainMaxChars) =
    .ok s.explainMaxChars

variable {given : Table} {s : Settings}

theorem made_of_ofTable (done : ofTable given = .ok s) : Made given s := by
  rw [ofTable] at done
  split at done
  · cases done
  · obtain ⟨extensions, listed, done⟩ := exists_of_bind_ok done
    obtain ⟨excludedDirs, excluded, done⟩ := exists_of_bind_ok done
    split at done
    · cases done
    · rename_i someExtension
      obtain ⟨churnMode, counted, done⟩ := exists_of_bind_ok done
      obtain ⟨verbosity, logged, done⟩ := exists_of_bind_ok done
      obtain ⟨gitTimeoutSeconds, patient, done⟩ := exists_of_bind_ok done
      obtain ⟨workers, working, done⟩ := exists_of_bind_ok done
      obtain ⟨topN, bounded, done⟩ := exists_of_bind_ok done
      obtain ⟨explainMaxChars, explained, done⟩ := exists_of_bind_ok done
      cases done
      exact ⟨listed, by simpa using someExtension, excluded, rfl, rfl, rfl, rfl, counted, logged,
        patient, working, bounded, rfl, explained⟩

theorem itemsOf_eq_ok_iff {v : Value} {items : List Value} :
    itemsOf v = .ok items ↔ v.parts? = some items := by
  rw [itemsOf]
  cases v.parts? <;> simp

/-- What is refused is told with its text, if that can be written. -/
theorem refuse_eq {α : Type} {setting : Setting} {requirement : Requirement} {v : Value} :
    (refuse setting requirement v : Except SettingsProblem α) =
      .error (if v.isWritable then .invalid setting v.write requirement else .tooLong) := by
  rw [refuse, textOf]
  cases v.isWritable <;> rfl

theorem amountOf_eq_ok_iff {setting : Setting} {requirement : Requirement} {v : Value}
    {amount : Amount} :
    amountOf setting requirement v = .ok amount ↔
      Amount.ofValue? v = some amount ∧ amount.isBelowOne = false := by
  rw [amountOf]
  cases kind : Amount.ofValue? v with
  | none => simp
  | some known =>
      cases below : known.isBelowOne with
      | false =>
          simp only [below, Bool.false_eq_true, if_false, Except.ok.injEq, Option.some.injEq]
          exact ⟨fun same => ⟨same, same ▸ below⟩, And.left⟩
      | true =>
          simp only [below, if_true, refuse_eq, reduceCtorEq, Option.some.injEq, false_iff]
          rintro ⟨rfl, positive⟩
          exact absurd (positive.symm.trans below) Bool.false_ne_true

/-- Of the values that are amounts only fractions are not whole. -/
theorem whole_iff {v : Value} {amount : Amount} (kind : Amount.ofValue? v = some amount) :
    (∃ n, amount.whole? = some n) ↔ (∃ b, v = .bool b) ∨ ∃ n, v = .int n := by
  cases v with
  | bool b =>
      cases kind
      exact ⟨fun _ => .inl ⟨b, rfl⟩, fun _ => ⟨_, rfl⟩⟩
  | int n =>
      cases kind
      exact ⟨fun _ => .inr ⟨n, rfl⟩, fun _ => ⟨n, rfl⟩⟩
  | float x =>
      cases kind
      simp [Amount.whole?]
  | none | text s | moment m | list items | table members => cases kind

end RepoAtlas.Settings
