import RepoAtlas.Proofs.Settings

/-! # What settings take

Which value a setting takes is said of the value alone, and so is the one form in which the value is
kept. A table makes settings exactly if all its names are known and every setting takes the value in
effect; what a refusal is told by depends on the first value that is refused.
-/

namespace RepoAtlas

/-- A number that is not less than one. -/
def Value.IsAmount (v : Value) : Prop :=
  ∃ amount : Amount, v = amount.toValue ∧ amount.isBelowOne = false

namespace Setting

/-- Does a setting take the value? Extensions are written, so all of them have to have a text. -/
def Takes : Setting → Value → Prop
  | .extensions, v => ∃ items, v.parts? = some items ∧ (∀ item ∈ items, item.isWritable = true) ∧
      ∃ item ∈ items, Settings.extensionForm item.write ≠ none
  | .excludedDirs, v => ∃ items, v.parts? = some items
  | .churnMode, v => ∃ mode : History.ChurnMode, v = .text mode.name
  | .verbosity, v => ∃ verbosity : Verbosity, v = .text verbosity.name
  | .workers, v => v = .none ∨ v.IsAmount
  | .gitTimeoutSeconds, v | .topN, v | .explainMaxChars, v => v.IsAmount
  | .ignoreFile, _ | .respectIgnoreFile, _ | .includeFolders, _ | .relativeFirst, _
  | .explainModel, _ => True

/-- The form in which the value of a setting is kept: lists as such, of extensions only those with
    letters, each with its dot; everything else as it is. -/
def form : Setting → Value → Value
  | .extensions, v => .list (((v.parts?.getD []).filterMap
      fun item => Settings.extensionForm item.write).map .text)
  | .excludedDirs, v => .list (v.parts?.getD [])
  | _, v => v

theorem name_injective {s s' : Setting} (same : s.name = s'.name) : s = s' := by
  cases s <;> cases s' <;> first | rfl | exact absurd same (by decide)

theorem name_inj {s s' : Setting} : s.name = s'.name ↔ s = s' :=
  ⟨name_injective, fun same => same ▸ rfl⟩

theorem mem_all (s : Setting) : s ∈ all := by
  cases s <;> decide

theorem ofName?_eq_none_iff {name : String} :
    ofName? name = none ↔ ∀ s : Setting, s.name ≠ name := by
  rw [ofName?, List.find?_eq_none]
  simp [mem_all]

end Setting

/-! ## Reading single values -/

namespace Value

theorem text_of_mem_parts {v item : Value} {items : List Value} (parts : v.parts? = some items)
    (member : item ∈ items) (notList : ∀ known, v ≠ .list known) : ∃ s, item = .text s := by
  cases v with
  | text s =>
      cases parts
      obtain ⟨c, -, rfl⟩ := List.mem_map.mp member
      exact ⟨_, rfl⟩
  | table members =>
      cases parts
      obtain ⟨pair, -, rfl⟩ := List.mem_map.mp member
      exact ⟨_, rfl⟩
  | list known => exact absurd rfl (notList known)
  | none | bool | int | float | moment => cases parts

theorem areWritable_eq_all (items : List Value) : areWritable items = items.all isWritable := by
  induction items with
  | nil => rfl
  | cons item rest ih => rw [areWritable, List.all_cons, ih]

/-- A value with a part that is not written is not written either. -/
theorem isWritable_eq_false_of_part {v item : Value} {items : List Value}
    (parts : v.parts? = some items) (member : item ∈ items) (long : item.isWritable = false) :
    v.isWritable = false := by
  by_cases isList : ∃ known, v = .list known
  · obtain ⟨known, rfl⟩ := isList
    cases parts
    rw [isWritable, areWritable_eq_all, List.all_eq_false]
    exact ⟨item, member, by simp [long]⟩
  · obtain ⟨s, rfl⟩ := text_of_mem_parts parts member fun known same => isList ⟨known, same⟩
    cases long

end Value

theorem Amount.ofValue?_eq_some_iff {v : Value} {amount : Amount} :
    Amount.ofValue? v = some amount ↔ v = amount.toValue := by
  constructor
  · intro kind
    cases v <;> cases kind <;> rfl
  · rintro rfl
    cases amount <;> rfl

theorem History.ChurnMode.ofName?_eq_some_iff {name : String} {mode : History.ChurnMode} :
    History.ChurnMode.ofName? name = some mode ↔ name = mode.name := by
  constructor
  · intro found
    rw [ofName?] at found
    have same := List.find?_some found
    exact (beq_iff_eq.mp same).symm
  · rintro rfl
    cases mode <;> rfl

theorem History.ChurnMode.name_injective {m m' : History.ChurnMode} (same : m.name = m'.name) :
    m = m' :=
  Option.some.inj ((ofName?_eq_some_iff.mpr rfl).symm.trans (ofName?_eq_some_iff.mpr same))

theorem Verbosity.ofName?_eq_some_iff {name : String} {verbosity : Verbosity} :
    Verbosity.ofName? name = some verbosity ↔ name = verbosity.name := by
  constructor
  · intro found
    rw [ofName?] at found
    have same := List.find?_some found
    exact (beq_iff_eq.mp same).symm
  · rintro rfl
    cases verbosity <;> rfl

theorem Verbosity.name_injective {v v' : Verbosity} (same : v.name = v'.name) : v = v' :=
  Option.some.inj ((ofName?_eq_some_iff.mpr rfl).symm.trans (ofName?_eq_some_iff.mpr same))

namespace Settings

/-- The refusal of a value fits: it is not one that the setting takes, and only for lack of a text
    there is nothing to be told. -/
structure Refuses (setting : Setting) (v : Value) (problem : SettingsProblem) : Prop where
  untaken : ¬setting.Takes v
  long : problem = .tooLong → v.isWritable = false

variable {setting : Setting} {v : Value} {problem : SettingsProblem}

theorem refuses_of_refuse {α : Type} {requirement : Requirement} (untaken : ¬setting.Takes v)
    (failed : (refuse setting requirement v : Except SettingsProblem α) = .error problem) :
    Refuses setting v problem := by
  rw [refuse_eq, Except.error.injEq] at failed
  refine ⟨untaken, ?_⟩
  rintro rfl
  split at failed
  · cases failed
  · rename_i long
    exact Bool.eq_false_iff.mpr long

theorem itemsOf_eq_error (failed : itemsOf v = .error problem) :
    v.parts? = none ∧ problem = .noItems v.kindName := by
  rw [itemsOf] at failed
  cases parts : v.parts? with
  | some items => simp [parts] at failed
  | none => exact ⟨rfl, by simpa [parts, eq_comm] using failed⟩

/-- Texts are read of all values or of none. -/
theorem mapM_textOf (items : List Value) :
    items.mapM textOf = if items.all Value.isWritable then .ok (items.map Value.write)
      else .error .tooLong := by
  induction items with
  | nil => rfl
  | cons item rest ih =>
      rw [List.mapM_cons, ih, textOf, List.all_cons]
      cases item.isWritable with
      | false => rfl
      | true =>
          cases rest.all Value.isWritable <;> rfl

theorem extensionsOf_eq_ok_iff {extensions : List String} :
    extensionsOf v = .ok extensions ↔ ∃ items, v.parts? = some items ∧
      (∀ item ∈ items, item.isWritable = true) ∧
        extensions = items.filterMap fun item => extensionForm item.write := by
  rw [extensionsOf]
  cases known : itemsOf v with
  | error other =>
      obtain ⟨none, -⟩ := itemsOf_eq_error known
      simp [none, bind, Except.bind]
  | ok items =>
      rw [ok_bind, mapM_textOf, itemsOf_eq_ok_iff.mp known]
      by_cases written : items.all Value.isWritable = true
      · rw [if_pos written, ok_bind, List.filterMap_map]
        rw [List.all_eq_true] at written
        simp only [pure, Except.pure, Except.ok.injEq, Option.some.injEq, exists_eq_left',
          Function.comp_def]
        exact ⟨fun same => ⟨written, same.symm⟩, fun fits => fits.2.symm⟩
      · rw [if_neg written]
        simp only [List.all_eq_true] at written
        simp [bind, Except.bind, written]

theorem refuses_of_extensionsOf (failed : extensionsOf v = .error problem) :
    Refuses .extensions v problem := by
  have untaken : ¬Setting.Takes .extensions v := by
    rintro ⟨items, parts, written, -⟩
    cases failed.symm.trans (extensionsOf_eq_ok_iff.mpr ⟨items, parts, written, rfl⟩)
  refine ⟨untaken, ?_⟩
  rintro rfl
  rw [extensionsOf] at failed
  cases known : itemsOf v with
  | error other =>
      obtain ⟨-, rfl⟩ := itemsOf_eq_error known
      rw [known] at failed
      cases failed
  | ok items =>
      rw [known, ok_bind, mapM_textOf] at failed
      split at failed
      · cases failed
      · rename_i short
        rw [List.all_eq_true, not_forall] at short
        obtain ⟨item, short⟩ := short
        obtain ⟨member, long⟩ := Classical.not_imp.mp short
        exact Value.isWritable_eq_false_of_part (itemsOf_eq_ok_iff.mp known) member
          (Bool.eq_false_iff.mpr long)

theorem refuses_of_itemsOf (failed : itemsOf v = .error problem) :
    Refuses .excludedDirs v problem := by
  obtain ⟨none, rfl⟩ := itemsOf_eq_error failed
  refine ⟨?_, fun told => by cases told⟩
  rintro ⟨items, parts⟩
  cases none.symm.trans parts

theorem choiceOf_eq {α : Type} {ofName? : String → Option α} {choices : List String} :
    choiceOf setting ofName? choices v =
      match v.text?.bind ofName? with
      | some choice => .ok choice
      | none => refuse setting (.oneOf choices) v := by
  cases v <;> rfl

theorem choiceOf_eq_ok_iff {α : Type} {ofName? : String → Option α} {choices : List String}
    {choice : α} : choiceOf setting ofName? choices v = .ok choice ↔
      ∃ name, v = .text name ∧ ofName? name = some choice := by
  have named : v.text?.bind ofName? = some choice ↔
      ∃ name, v = .text name ∧ ofName? name = some choice := by
    cases v <;> simp [Value.text?]
  rw [choiceOf_eq, ← named]
  cases v.text?.bind ofName? <;> simp [refuse_eq]

theorem refuse_of_choiceOf {α : Type} {ofName? : String → Option α} {choices : List String}
    (failed : choiceOf setting ofName? choices v = .error problem) :
    (refuse setting (.oneOf choices) v : Except SettingsProblem α) = .error problem := by
  rw [choiceOf_eq] at failed
  cases named : v.text?.bind ofName? with
  | some choice => simp [named] at failed
  | none => simpa [named] using failed

theorem refuses_of_churnMode {choices : List String}
    (failed : choiceOf .churnMode History.ChurnMode.ofName? choices v = .error problem) :
    Refuses .churnMode v problem := by
  refine refuses_of_refuse ?_ (refuse_of_choiceOf failed)
  rintro ⟨mode, rfl⟩
  cases failed.symm.trans
    (choiceOf_eq_ok_iff.mpr ⟨_, rfl, History.ChurnMode.ofName?_eq_some_iff.mpr rfl⟩)

theorem refuses_of_verbosity {choices : List String}
    (failed : choiceOf .verbosity Verbosity.ofName? choices v = .error problem) :
    Refuses .verbosity v problem := by
  refine refuses_of_refuse ?_ (refuse_of_choiceOf failed)
  rintro ⟨verbosity, rfl⟩
  cases failed.symm.trans (choiceOf_eq_ok_iff.mpr ⟨_, rfl, Verbosity.ofName?_eq_some_iff.mpr rfl⟩)

theorem exists_amountOf_iff (setting : Setting) (requirement : Requirement) (v : Value) :
    (∃ amount, amountOf setting requirement v = .ok amount) ↔ v.IsAmount := by
  simp only [amountOf_eq_ok_iff, Amount.ofValue?_eq_some_iff]
  exact Iff.rfl

/-- What is no amount is refused by any setting that takes amounts only. -/
theorem refuses_of_amountOf {requirement : Requirement}
    (amounts : setting.Takes v → v.IsAmount)
    (failed : amountOf setting requirement v = .error problem) : Refuses setting v problem := by
  have untaken : ¬setting.Takes v := by
    intro taken
    obtain ⟨amount, read⟩ := (exists_amountOf_iff setting requirement v).mpr (amounts taken)
    cases failed.symm.trans read
  rw [amountOf] at failed
  cases kind : Amount.ofValue? v with
  | none =>
      simp only [kind, Except.error.injEq] at failed
      exact ⟨untaken, fun told => by cases failed.trans told⟩
  | some amount =>
      simp only [kind] at failed
      split at failed
      · exact refuses_of_refuse untaken failed
      · cases failed

theorem amountOf?_eq_ok_iff {workers : Option Amount} :
    amountOf? setting v = .ok workers ↔
      v = ((workers.map (·.toValue)).getD .none) ∧ ∀ amount ∈ workers, amount.isBelowOne = false := by
  by_cases missing : v = .none
  · subst missing
    cases workers with
    | none => simp [amountOf?]
    | some amount => cases amount <;> simp [amountOf?, Amount.toValue]
  · have present : amountOf? setting v = (amountOf setting .atLeastOne v).map some := by
      cases v <;> first | rfl | exact absurd rfl missing
    rw [present]
    constructor
    · intro done
      obtain ⟨amount, read, rfl⟩ := exists_of_map_ok done
      obtain ⟨kind, atLeast⟩ := amountOf_eq_ok_iff.mp read
      refine ⟨Amount.ofValue?_eq_some_iff.mp kind, ?_⟩
      rintro _ ⟨⟩
      exact atLeast
    · rintro ⟨same, atLeast⟩
      cases workers with
      | none => exact absurd same missing
      | some amount =>
          rw [amountOf_eq_ok_iff.mpr ⟨Amount.ofValue?_eq_some_iff.mpr same, atLeast amount rfl⟩]
          rfl

theorem refuses_of_workers (failed : amountOf? .workers v = .error problem) :
    Refuses .workers v problem := by
  have present : v ≠ .none := by
    rintro rfl
    cases failed
  have amounts : Setting.Takes .workers v → v.IsAmount := fun taken => taken.resolve_left present
  refine refuses_of_amountOf amounts (?_ : amountOf .workers .atLeastOne v = .error problem)
  have read : amountOf? .workers v = (amountOf .workers .atLeastOne v).map some := by
    cases v <;> first | rfl | exact absurd rfl present
  rw [read] at failed
  cases outcome : amountOf .workers .atLeastOne v with
  | ok amount =>
      rw [outcome] at failed
      cases failed
  | error other =>
      rw [outcome] at failed
      cases failed
      rfl

/-! ## Reading tables -/

variable {given : Table} {s : Settings}

theorem exists_of_bind_error {ε α β : Type} {x : Except ε α} {f : α → Except ε β} {e : ε}
    (failed : (x >>= f) = .error e) : x = .error e ∨ ∃ a, x = .ok a ∧ f a = .error e := by
  cases x with
  | error other => exact .inl (by simpa [bind, Except.bind] using failed)
  | ok a => exact .inr ⟨a, rfl, failed⟩

theorem nameProblem?_eq_none_iff {name : String} :
    nameProblem? name = none ↔ Setting.ofName? name ≠ none := by
  rw [nameProblem?]
  by_cases reserved : name = SettingsProblem.reservedName
  · subst reserved
    decide
  · rw [if_neg reserved]
    cases Setting.ofName? name <;> simp

theorem nameProblem?_ne_tooLong {name : String} : nameProblem? name ≠ some .tooLong := by
  rw [nameProblem?]
  split
  · simp
  · split <;> simp

/-- A table that makes no settings has an unknown name, or a value in effect is refused. -/
theorem refuses_of_ofTable (failed : ofTable given = .error problem) :
    (∃ pair ∈ given, Setting.ofName? pair.1 = none ∧ problem ≠ .tooLong) ∨
      ∃ setting, Refuses setting (givenOr given setting) problem := by
  rw [ofTable] at failed
  split at failed
  · rename_i first found
    cases failed
    obtain ⟨pair, member, told⟩ := List.exists_of_findSome?_eq_some found
    refine .inl ⟨pair, member, ?_, fun long => nameProblem?_ne_tooLong (long ▸ told)⟩
    by_contra known
    cases told.symm.trans (nameProblem?_eq_none_iff.mpr known)
  · -- The checks in their order: either one fails or the next is met.
    right
    rcases exists_of_bind_error failed with failed | ⟨extensions, listed, failed⟩
    · exact ⟨_, refuses_of_extensionsOf failed⟩
    rcases exists_of_bind_error failed with failed | ⟨excludedDirs, -, failed⟩
    · exact ⟨_, refuses_of_itemsOf failed⟩
    split at failed
    · rename_i none
      cases failed
      refine ⟨.extensions, ?_, fun told => by cases told⟩
      rintro ⟨items, parts, written, item, member, form⟩
      obtain ⟨_, parts', -, rfl⟩ := extensionsOf_eq_ok_iff.mp listed
      cases parts.symm.trans parts'
      rw [List.isEmpty_iff, List.filterMap_eq_nil_iff] at none
      exact form (none item member)
    rcases exists_of_bind_error failed with failed | ⟨churnMode, -, failed⟩
    · exact ⟨_, refuses_of_churnMode failed⟩
    rcases exists_of_bind_error failed with failed | ⟨verbosity, -, failed⟩
    · exact ⟨_, refuses_of_verbosity failed⟩
    rcases exists_of_bind_error failed with failed | ⟨gitTimeoutSeconds, -, failed⟩
    · exact ⟨_, refuses_of_amountOf id failed⟩
    rcases exists_of_bind_error failed with failed | ⟨workers, -, failed⟩
    · exact ⟨_, refuses_of_workers failed⟩
    rcases exists_of_bind_error failed with failed | ⟨topN, -, failed⟩
    · exact ⟨_, refuses_of_amountOf id failed⟩
    rcases exists_of_bind_error failed with failed | ⟨explainMaxChars, -, failed⟩
    · exact ⟨_, refuses_of_amountOf id failed⟩
    cases failed

theorem known_of_ofTable (done : ofTable given = .ok s) :
    ∀ pair ∈ given, Setting.ofName? pair.1 ≠ none := by
  rw [ofTable] at done
  split at done
  · cases done
  · rename_i clear
    intro pair member
    have fine : given.findSome? (fun x => nameProblem? x.1) = none :=
      Option.eq_none_iff_forall_ne_some.mpr clear
    exact nameProblem?_eq_none_iff.mp (List.findSome?_eq_none_iff.mp fine pair member)

theorem Made.takes (made : Made given s) (setting : Setting) :
    setting.Takes (givenOr given setting) := by
  cases setting with
  | extensions =>
      obtain ⟨items, parts, written, same⟩ := extensionsOf_eq_ok_iff.mp made.extensions
      obtain ⟨extension, member⟩ := List.exists_mem_of_ne_nil _ made.someExtension
      rw [same, List.mem_filterMap] at member
      obtain ⟨item, inside, form⟩ := member
      exact ⟨items, parts, written, item, inside, by simp [form]⟩
  | excludedDirs => exact ⟨_, itemsOf_eq_ok_iff.mp made.excludedDirs⟩
  | churnMode =>
      obtain ⟨name, same, named⟩ := choiceOf_eq_ok_iff.mp made.churnMode
      exact ⟨_, same.trans (congrArg _ (History.ChurnMode.ofName?_eq_some_iff.mp named))⟩
  | verbosity =>
      obtain ⟨name, same, named⟩ := choiceOf_eq_ok_iff.mp made.verbosity
      exact ⟨_, same.trans (congrArg _ (Verbosity.ofName?_eq_some_iff.mp named))⟩
  | gitTimeoutSeconds => exact (exists_amountOf_iff _ _ _).mp ⟨_, made.gitTimeoutSeconds⟩
  | topN => exact (exists_amountOf_iff _ _ _).mp ⟨_, made.topN⟩
  | explainMaxChars => exact (exists_amountOf_iff _ _ _).mp ⟨_, made.explainMaxChars⟩
  | workers =>
      obtain ⟨same, atLeast⟩ := amountOf?_eq_ok_iff.mp made.workers
      cases workers : s.workers with
      | none => exact .inl (by rw [same, workers]; rfl)
      | some amount =>
          exact .inr ⟨amount, by rw [same, workers]; rfl, atLeast amount workers⟩
  | ignoreFile | respectIgnoreFile | includeFolders | relativeFirst | explainModel => trivial

theorem Made.get_eq (made : Made given s) (setting : Setting) :
    s.get setting = setting.form (givenOr given setting) := by
  have amount : ∀ {setting : Setting} {requirement : Requirement} {v : Value} {amount : Amount},
      amountOf setting requirement v = .ok amount → amount.toValue = v := fun read =>
    (Amount.ofValue?_eq_some_iff.mp (amountOf_eq_ok_iff.mp read).1).symm
  cases setting with
  | extensions =>
      obtain ⟨items, parts, -, same⟩ := extensionsOf_eq_ok_iff.mp made.extensions
      rw [get, Setting.form, parts, same]
      rfl
  | excludedDirs =>
      rw [get, Setting.form, itemsOf_eq_ok_iff.mp made.excludedDirs]
      rfl
  | churnMode =>
      obtain ⟨name, same, named⟩ := choiceOf_eq_ok_iff.mp made.churnMode
      rw [get, ← History.ChurnMode.ofName?_eq_some_iff.mp named]
      exact same.symm
  | verbosity =>
      obtain ⟨name, same, named⟩ := choiceOf_eq_ok_iff.mp made.verbosity
      rw [get, ← Verbosity.ofName?_eq_some_iff.mp named]
      exact same.symm
  | gitTimeoutSeconds => exact amount made.gitTimeoutSeconds
  | topN => exact amount made.topN
  | explainMaxChars => exact amount made.explainMaxChars
  | workers => exact (amountOf?_eq_ok_iff.mp made.workers).1.symm
  | ignoreFile => exact made.ignoreFile
  | respectIgnoreFile => exact made.respectIgnoreFile
  | includeFolders => exact made.includeFolders
  | relativeFirst => exact made.relativeFirst
  | explainModel => exact made.explainModel

/-- A table makes settings exactly if its names are known and every value in effect is taken. -/
theorem ofTable_returns_iff :
    (∃ s, ofTable given = .ok s) ↔ (∀ pair ∈ given, Setting.ofName? pair.1 ≠ none) ∧
      ∀ setting : Setting, setting.Takes (givenOr given setting) := by
  constructor
  · rintro ⟨s, done⟩
    exact ⟨known_of_ofTable done, (made_of_ofTable done).takes⟩
  · rintro ⟨known, taken⟩
    cases outcome : ofTable given with
    | ok s => exact ⟨s, rfl⟩
    | error problem =>
        rcases refuses_of_ofTable outcome with ⟨pair, member, unknown, -⟩ | ⟨setting, refused⟩
        · exact absurd unknown (known pair member)
        · exact absurd (taken setting) refused.untaken

end Settings

end RepoAtlas
