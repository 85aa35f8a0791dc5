import RepoAtlas.Proofs.Loading
import RepoAtlas.Proofs.Text

/-! # Settings written into variables

A flag, a whole number or a text is written into a variable and read back as the same value. So
settings whose values are of the declared kinds are loaded again from variables alone, as long as the
lists, for which there are no variables, are the presets. What the variables of lists hold is never
looked at.
-/

namespace RepoAtlas

namespace Decimal

/-! ## Whole numbers -/

theorem digit?_of_isDigit {c : Char} (digit : c.isDigit = true) :
    Text.digit? c = some (c.toNat - 48) := by
  rw [Text.digit?, if_pos digit]

theorem digitRun_digits {ds : List Char} (digits : ∀ c ∈ ds, c.isDigit = true) (after : Bool) :
    digitRun after ds = (ds.map (·.toNat - 48), []) := by
  induction ds generalizing after with
  | nil => rfl
  | cons c rest ih =>
      have inner := ih (fun d member => digits d (List.mem_cons_of_mem c member)) true
      simp only [digitRun, digit?_of_isDigit (digits c List.mem_cons_self), inner, List.map_cons]

theorem numberOf_digits (n : Nat) : numberOf ((digits n).map (·.toNat - 48)) = n := by
  have read : numberOf ((digits n).map (·.toNat - 48)) = Nat.ofDigitChars 10 (digits n) 0 := by
    simp [numberOf, Nat.ofDigitChars, List.foldl_map, Nat.mul_comm]
  rw [read, digits, Nat.ofDigitChars_ten_toDigits]

theorem isDigit_of_mem_digits {n : Nat} {c : Char} (member : c ∈ digits n) : c.isDigit = true :=
  Nat.isDigit_of_mem_toDigits (by decide) (by decide) member

theorem isMargin_of_isDigit {c : Char} (digit : c.isDigit = true) : isMargin c = false := by
  have range : 48 ≤ c.toNat ∧ c.toNat ≤ 57 := by
    simpa [Char.isDigit, UInt32.le_iff_toNat_le] using digit
  have solid : Text.isBlank c = false := by
    refine Bool.eq_false_iff.mpr fun blank => ?_
    simp only [Text.isBlank, Bool.or_eq_true, Bool.and_eq_true, decide_eq_true_eq] at blank
    omega
  rw [isMargin, solid, Bool.false_and]

theorem trimmed_of_solid {cs : List Char} (solid : ∀ c ∈ cs, isMargin c = false) :
    trimmed cs = cs := by
  have kept : ∀ {ds : List Char}, (∀ c ∈ ds, isMargin c = false) → ds.dropWhile isMargin = ds := by
    intro ds solid
    cases ds with
    | nil => rfl
    | cons c rest => exact List.dropWhile_cons_of_neg (by simp [solid c List.mem_cons_self])
  rw [trimmed, kept solid, kept fun c member => solid c (List.mem_reverse.mp member),
    List.reverse_reverse]

theorem splitSign_digits (n : Nat) : splitSign (digits n) = (false, digits n) := by
  have noSign : ∀ c ∈ digits n, c ≠ '-' ∧ c ≠ '+' := by
    intro c member
    have digit := isDigit_of_mem_digits member
    constructor
    · rintro rfl
      exact absurd digit (by decide)
    · rintro rfl
      exact absurd digit (by decide)
  cases spelled : digits n with
  | nil => rfl
  | cons c rest =>
      obtain ⟨noMinus, noPlus⟩ := noSign c (spelled ▸ List.mem_cons_self)
      unfold splitSign
      split
      · rename_i same
        exact absurd (List.cons.inj same).1 noMinus
      · rename_i same
        exact absurd (List.cons.inj same).1 noPlus
      · rfl

/-- How a whole number is written. -/
theorem toList_toString (n : Int) :
    (toString n).toList = if n < 0 then '-' :: digits n.natAbs else digits n.natAbs := by
  rw [Int.toString_eq_repr, Int.repr_eq_if]
  by_cases negative : n < 0
  · have size : (-n).toNat = n.natAbs := by omega
    rw [if_neg (by omega), if_pos negative, String.toList_append, Nat.toList_repr, size]
    rfl
  · have size : n.toNat = n.natAbs := by omega
    rw [if_pos (by omega), if_neg negative, Nat.toList_repr, size]
    rfl

/-- A whole number that is not too long is read back. -/
theorem readWhole_toString {n : Int} (short : (digits n.natAbs).length ≤ mostDigits) :
    readWhole (toString n) = .ok n := by
  have solid : ∀ c ∈ (toString n).toList, isMargin c = false := by
    intro c member
    rw [toList_toString] at member
    split at member
    · rcases List.mem_cons.mp member with rfl | digit
      · decide
      · exact isMargin_of_isDigit (isDigit_of_mem_digits digit)
    · exact isMargin_of_isDigit (isDigit_of_mem_digits member)
  have parted : splitSign (trimmed (toString n).toList) = (decide (n < 0), digits n.natAbs) := by
    rw [trimmed_of_solid solid, toList_toString]
    by_cases negative : n < 0
    · rw [if_pos negative, decide_eq_true negative]
      rfl
    · rw [if_neg negative, splitSign_digits, decide_eq_false negative]
  have run : digitRun false (digits n.natAbs) = ((digits n.natAbs).map (·.toNat - 48), []) :=
    digitRun_digits (fun _ member => isDigit_of_mem_digits member) false
  have count : ((digits n.natAbs).map (·.toNat - 48)).length = (digits n.natAbs).length :=
    List.length_map _
  have value := numberOf_digits n.natAbs
  have some : (digits n.natAbs).map (·.toNat - 48) ≠ [] := by
    rw [ne_eq, List.map_eq_nil_iff]
    exact Nat.toDigits_ne_nil
  obtain ⟨first, rest, spelled⟩ := List.exists_cons_of_ne_nil some
  rw [spelled] at run count value
  rw [readWhole, parted]
  simp only [run, if_neg (show ¬mostDigits < (first :: rest).length by omega), value,
    decide_eq_true_eq]
  congr 1
  split <;> omega

end Decimal

/-! ## Values in variables -/

/-- The text is a way to write the value into a variable: a flag in any mix of small and capital
    letters, a whole number in decimal, and a text as it is. -/
inductive Value.WrittenAs : Value → String → Prop where
  | flag {b : Bool} {text : String}
      (letters : text.toList.map Char.toLower = (if b then "true" else "false").toList) :
      WrittenAs (.bool b) text
  | whole (n : Int) : WrittenAs (.int n) (toString n)
  | text (s : String) : WrittenAs (.text s) s

/-- The value is of the kind that the setting is declared with. Only the number of workers may be
    missing. -/
inductive Setting.Declares (setting : Setting) : Value → Prop where
  | flag (b : Bool) (kind : setting.variableKind = .flag) : Declares setting (.bool b)
  | whole (n : Int) (kind : setting.variableKind = .whole) : Declares setting (.int n)
  | text (s : String) (kind : setting.variableKind = .text) : Declares setting (.text s)
  | texts (ts : List String) (kind : setting.variableKind = .sequence) :
      Declares setting (.list (ts.map .text))
  | missing (workers : setting = .workers) : Declares setting .none

/-- A value that is written into a variable of its kind is read from it. -/
theorem Setting.Declares.read {setting : Setting} {v : Value} {text : String}
    (declared : setting.Declares v)
    (short : ∀ n, v = .int n → (Decimal.digits n.natAbs).length ≤ Decimal.mostDigits)
    (written : v.WrittenAs text) : setting.variableKind.read text = .ok (some v) := by
  cases written with
  | @flag b text letters =>
      cases declared with
      | flag _ kind =>
          have word : Text.lower text = if b then "true" else "false" := by
            have ascii : (if b then "true" else "false").toList.all (·.toNat < 128) = true := by
              cases b <;> decide
            rw [Text.lower_of_letters letters ascii, String.ofList_toList]
          rw [kind, VariableKind.read, word]
          cases b <;> rfl
  | whole n =>
      cases declared with
      | whole _ kind => rw [kind, VariableKind.read, Decimal.readWhole_toString (short n rfl)]
  | text s =>
      cases declared with
      | text _ kind => rw [kind, VariableKind.read]

/-- Only what is missing among the presets may be missing. -/
theorem Setting.Declares.eq_preset {setting : Setting} {v : Value} (declared : setting.Declares v)
    (missing : v.isMissing = true) : v = Settings.preset setting := by
  cases declared with
  | missing workers => rw [workers]; rfl
  | flag | whole | text | texts => cases missing

/-! ## Loading from variables -/

theorem Amount.toValue_injective {a b : Amount} (same : a.toValue = b.toValue) : a = b :=
  Option.some.inj ((ofValue?_eq_some_iff.mpr rfl).symm.trans (ofValue?_eq_some_iff.mpr same))

/-- An amount that may be missing is determined by its value. -/
theorem Amount.optional_injective {a b : Option Amount}
    (same : (a.map toValue).getD .none = (b.map toValue).getD .none) : a = b := by
  have present : ∀ amount : Amount, amount.toValue ≠ .none := by
    intro amount
    cases amount <;> simp [toValue]
  cases a with
  | none =>
      cases b with
      | none => rfl
      | some amount => exact absurd same.symm (present amount)
  | some amount =>
      cases b with
      | none => exact absurd same (present amount)
      | some amount' => rw [toValue_injective same]

theorem Setting.variableName_injective {s s' : Setting} (same : s.variableName = s'.variableName) :
    s = s' := by
  cases s <;> cases s' <;> first | rfl | exact absurd same (by decide)

theorem Setting.variableName_ne_home (s : Setting) : s.variableName ≠ "HOME" := by
  cases s <;> decide

namespace Settings

/-- Every value for which there is a variable is written into it, and one that is missing leaves its
    variable unset. -/
structure Exported (s : Settings) (environment : Variables) : Prop where
  set : ∀ setting : Setting, setting.variableKind ≠ .sequence →
    (s.get setting).isMissing = false →
      ∃ text, environment.lookup setting.variableName = some text ∧ (s.get setting).WrittenAs text
  unset : ∀ setting : Setting, setting.variableKind ≠ .sequence →
    (s.get setting).isMissing = true → environment.lookup setting.variableName = none

/-- Settings are determined by their values. -/
theorem eq_of_get {s s' : Settings} (same : ∀ setting, s.get setting = s'.get setting) : s = s' := by
  -- Fields that are kept as values are compared as such, all others by the one value that each has.
  have lists : ∀ {ts us : List String}, Value.list (ts.map .text) = .list (us.map .text) → ts = us :=
    fun spelled => List.map_injective_iff.mpr (fun _ _ => Value.text.inj) (Value.list.inj spelled)
  have workers := Amount.optional_injective (same .workers)
  have churnMode := History.ChurnMode.name_injective (Value.text.inj (same .churnMode))
  have verbosity := Verbosity.name_injective (Value.text.inj (same .verbosity))
  have gitTimeoutSeconds := Amount.toValue_injective (same .gitTimeoutSeconds)
  have topN := Amount.toValue_injective (same .topN)
  have explainMaxChars := Amount.toValue_injective (same .explainMaxChars)
  have extensions := lists (same .extensions)
  have excludedDirs := Value.list.inj (same .excludedDirs)
  have ignoreFile : s.ignoreFile = s'.ignoreFile := same .ignoreFile
  have respectIgnoreFile : s.respectIgnoreFile = s'.respectIgnoreFile := same .respectIgnoreFile
  have includeFolders : s.includeFolders = s'.includeFolders := same .includeFolders
  have relativeFirst : s.relativeFirst = s'.relativeFirst := same .relativeFirst
  have explainModel : s.explainModel = s'.explainModel := same .explainModel
  cases s
  cases s'
  rw [mk.injEq]
  exact ⟨extensions, excludedDirs, ignoreFile, respectIgnoreFile, includeFolders, relativeFirst,
    churnMode, gitTimeoutSeconds, workers, topN, verbosity, explainModel, explainMaxChars⟩

/-! ### Variables of lists -/

/-- A list has no text, so its variable gives nothing whether it is set or not. -/
theorem variableLayer_congr {environment environment' : Variables}
    (same : ∀ setting : Setting, setting.variableKind ≠ .sequence →
      environment'.lookup setting.variableName = environment.lookup setting.variableName)
    (settings : List Setting) :
    variableLayer environment' settings = variableLayer environment settings := by
  induction settings with
  | nil => rfl
  | cons setting rest ih =>
      by_cases sequence : setting.variableKind = .sequence
      · have skipped : ∀ named : Variables,
            variableLayer named (setting :: rest) = variableLayer named rest := by
          intro named
          rw [variableLayer, sequence]
          cases named.lookup setting.variableName with
          | none => rfl
          | some text => cases variableLayer named rest <;> rfl
        rw [skipped, skipped, ih]
      · rw [variableLayer, variableLayer, same setting sequence, ih]

theorem lookup_append_of_unused {more environment : Variables} {name : String}
    (unused : ∀ pair ∈ more, pair.1 ≠ name) :
    (more ++ environment).lookup name = environment.lookup name := by
  have none : more.lookup name = none := by
    rw [List.lookup_eq_none_iff]
    intro pair member
    simpa [bne_iff_ne] using (unused pair member).symm
  rw [List.lookup_append, none, Option.none_or]

/-- Setting the variables of lists changes nothing, whatever else is given. -/
theorem load_sequences (d : Disk) (environment : Variables) (document : Option Path) (given : Table)
    {more : Variables} (sequences : ∀ pair ∈ more, ∃ setting : Setting,
      setting.variableKind = .sequence ∧ pair.1 = setting.variableName) :
    load d (more ++ environment) document given = load d environment document given := by
  have same : ∀ setting : Setting, setting.variableKind ≠ .sequence →
      (more ++ environment).lookup setting.variableName =
        environment.lookup setting.variableName := by
    intro setting kind
    refine lookup_append_of_unused fun pair member spelled => ?_
    obtain ⟨sequence, own, named⟩ := sequences pair member
    have equal : sequence = setting := Setting.variableName_injective (named.symm.trans spelled)
    exact kind (equal ▸ own)
  have home : homeOf d (more ++ environment) = homeOf d environment := by
    have unused : (more ++ environment).lookup "HOME" = environment.lookup "HOME" := by
      refine lookup_append_of_unused fun pair member spelled => ?_
      obtain ⟨sequence, -, named⟩ := sequences pair member
      exact Setting.variableName_ne_home sequence (named.symm.trans spelled)
    rw [homeOf, homeOf, unused]
  have layered : layers d (more ++ environment) document given =
      layers d environment document given := by
    rw [layers, layers, home, variableLayer_congr same]
  rw [load, load, layered]

/-! ### Round trip -/

section RoundTrip

variable {s : Settings} {d : Disk} {environment : Variables}

/-- The settings are made by a table, with values of the declared kinds. Whole numbers are short
    enough to be read, and lists are the presets. -/
structure Exportable (s : Settings) : Prop where
  valid : ∃ given, ofTable given = .ok s
  declared : ∀ setting : Setting, setting.Declares (s.get setting)
  short : ∀ (setting : Setting) (n : Int), s.get setting = .int n →
    (Decimal.digits n.natAbs).length ≤ Decimal.mostDigits
  extensions : s.get .extensions = preset .extensions
  excludedDirs : s.get .excludedDirs = preset .excludedDirs

theorem Exportable.get_of_sequence (fit : s.Exportable) {setting : Setting}
    (sequence : setting.variableKind = .sequence) : s.get setting = preset setting := by
  cases setting with
  | extensions => exact fit.extensions
  | excludedDirs => exact fit.excludedDirs
  | _ => cases sequence

theorem form_preset_extensions :
    Setting.form .extensions (preset .extensions) = preset .extensions := by
  obtain ⟨items, parts, -, same⟩ := extensionsOf_eq_ok_iff.mp extensionsOf_preset
  rw [Setting.form, parts, Option.getD_some, ← same]
  rfl

theorem takes_preset_extensions : Setting.Takes .extensions (preset .extensions) := by
  obtain ⟨items, parts, written, same⟩ := extensionsOf_eq_ok_iff.mp extensionsOf_preset
  have listed : ∃ extension, extension ∈ Language.sourceExtensions := ⟨_, List.mem_cons_self⟩
  obtain ⟨extension, member⟩ := listed
  rw [same, List.mem_filterMap] at member
  obtain ⟨item, inside, form⟩ := member
  exact ⟨items, parts, written, item, inside, by simp [form]⟩

/-- Values are kept in the form in which they are. -/
theorem Exportable.form_get (fit : s.Exportable) (setting : Setting) :
    setting.form (s.get setting) = s.get setting := by
  cases setting with
  | extensions => rw [fit.extensions, form_preset_extensions]
  | excludedDirs => rfl
  | _ => rfl

theorem Exportable.takes (fit : s.Exportable) (setting : Setting) :
    setting.Takes (s.get setting) := by
  obtain ⟨given, done⟩ := fit.valid
  have made := made_of_ofTable done
  have taken := made.takes setting
  have kept := made.get_eq setting
  cases setting with
  | extensions => exact fit.extensions ▸ takes_preset_extensions
  | excludedDirs => exact ⟨_, rfl⟩
  | _ => exact kept ▸ taken

/-- A value is missing and its variable unset, or it is read from its variable. -/
theorem Exportable.read_cases (fit : s.Exportable) (exported : s.Exported environment)
    {setting : Setting} (kind : setting.variableKind ≠ .sequence) :
    (s.get setting).isMissing = true ∧ environment.lookup setting.variableName = none ∨
      (s.get setting).isMissing = false ∧ ∃ text,
        environment.lookup setting.variableName = some text ∧
          setting.variableKind.read text = .ok (some (s.get setting)) := by
  cases missing : (s.get setting).isMissing with
  | true => exact .inl ⟨rfl, exported.unset setting kind missing⟩
  | false =>
      obtain ⟨text, set, written⟩ := exported.set setting kind missing
      exact .inr ⟨rfl, text, set, (fit.declared setting).read (fit.short setting) written⟩

/-- Without documents the values in effect are those that were exported. -/
theorem Exportable.effective (fit : s.Exportable) (exported : s.Exported environment)
    (setting : Setting) :
    Documents.effective ⟨[], [], []⟩ environment [] setting = s.get setting := by
  have uncalled : callerValue? [] setting = none := by simp [callerValue?, isOn, plainOf, Table.last?]
  have undocumented : Documents.effective ⟨[], [], []⟩ environment [] setting =
      (Settings.variableValue? environment setting).getD (preset setting) := by
    simp [Documents.effective, uncalled, Table.last?]
  rw [undocumented]
  by_cases kind : setting.variableKind = .sequence
  · have unread : Settings.variableValue? environment setting = none := by
      rw [Settings.variableValue?, kind]
      cases environment.lookup setting.variableName <;> rfl
    rw [unread, fit.get_of_sequence kind, Option.getD_none]
  · rcases fit.read_cases exported kind with ⟨missing, unset⟩ | ⟨-, text, set, read⟩
    · rw [Settings.variableValue?, unset, (fit.declared setting).eq_preset missing]
      rfl
    · rw [Settings.variableValue?, set, Option.bind_some, read]
      rfl

theorem Documents.Read.eq_none {documents : Documents} (read : documents.Read d environment none)
    {home : Path} (known : homePath? d environment = some home) (noHome : d.hasEntry home = .ok false)
    (noProject : d.hasEntry (projectPath d) = .ok false) : documents = ⟨[], [], []⟩ :=
  read.eq ⟨⟨home, known, .absent noHome⟩, .absent noProject, .unnamed⟩

/-- What is exported stands for something. -/
theorem Exportable.readable (fit : s.Exportable) (exported : s.Exported environment)
    {setting : Setting} {text : String} {problem : VariableProblem}
    (set : environment.lookup setting.variableName = some text) :
    setting.variableKind.read text ≠ .error problem := by
  by_cases kind : setting.variableKind = .sequence
  · rw [kind]
    exact fun refused => nomatch refused
  · rcases fit.read_cases exported kind with ⟨-, unset⟩ | ⟨-, own, set', read⟩
    · rw [unset] at set
      cases set
    · cases set.symm.trans set'
      rw [read]
      exact fun refused => nomatch refused

theorem load_of_variables (fit : s.Exportable) (exported : s.Exported environment)
    {home : Path} (known : homePath? d environment = some home) (noHome : d.hasEntry home = .ok false)
    (noProject : d.hasEntry (projectPath d) = .ok false) : load d environment none [] = .ok s := by
  have effective : ∀ documents : Documents, documents.Read d environment none →
      ∀ setting, documents.effective environment [] setting = s.get setting := by
    intro documents read setting
    rw [read.eq_none known noHome noProject, fit.effective exported]
  have taken : ∀ documents : Documents, documents.Read d environment none →
      ∀ setting : Setting, setting.Takes (documents.effective environment [] setting) :=
    fun documents read setting => effective documents read setting ▸ fit.takes setting
  rcases load_cases d environment none [] with
    ⟨s', documents, done, read, kept, -⟩ | ⟨_, -, -, fails⟩ |
      ⟨documents, -, read, setting, untaken, -⟩ | ⟨_, -, escapes⟩
  · have same : ∀ setting, s'.get setting = s.get setting := by
      intro setting
      rw [(kept setting).2, effective documents read, fit.form_get]
    rw [done, eq_of_get same]
  · cases fails with
    | unreadable asked here broken =>
        rcases asked with home | rfl | named
        · cases known.symm.trans home
          cases noHome.symm.trans here
        · cases noProject.symm.trans here
        · cases named
    | missing asked absent => cases asked
    | unfit set refused => exact absurd refused (fit.readable exported set)
    | unknown read used unknown =>
        rw [read.eq_none known noHome noProject] at used
        exact absurd used List.not_mem_nil
    | refused read untaken => exact absurd (taken _ read _) untaken
  · exact absurd (taken documents read setting) untaken
  · have read : Documents.Read ⟨[], [], []⟩ d environment none :=
      ⟨⟨home, known, .absent noHome⟩, .absent noProject, .unnamed⟩
    exact absurd escapes read.not_escapes

/-- Settings that are written into variables are loaded from them if there are no documents, whatever
    the variables of lists hold. -/
theorem load_exported (fit : s.Exportable) (exported : s.Exported environment)
    {home : Path} (known : homePath? d environment = some home) (noHome : d.hasEntry home = .ok false)
    (noProject : d.hasEntry (projectPath d) = .ok false) :
    load d environment none [] = .ok s ∧ ∀ more : Variables,
      (∀ pair ∈ more, pair.1 = "ORBYT_EXTENSIONS" ∨ pair.1 = "ORBYT_EXCLUDED_DIRS") →
        load d (more ++ environment) none [] = .ok s := by
  have loaded := load_of_variables fit exported known noHome noProject
  refine ⟨loaded, fun more named => ?_⟩
  rw [load_sequences d environment none [], loaded]
  intro pair member
  rcases named pair member with first | second
  · exact ⟨.extensions, rfl, first⟩
  · exact ⟨.excludedDirs, rfl, second⟩

end RoundTrip

/-- Settings of a caller who wants neither folders nor a history. -/
def terse : Settings where
  extensions := Language.sourceExtensions
  excludedDirs := Language.excludedDirectories.map .text
  ignoreFile := .text ".ignore"
  respectIgnoreFile := .bool true
  includeFolders := .bool false
  relativeFirst := .bool false
  churnMode := .off
  gitTimeoutSeconds := .whole 10
  workers := none
  topN := .whole 25
  verbosity := .quiet
  explainModel := .text "gemini-2.5-flash"
  explainMaxChars := .whole 3000

/-- The same settings in variables. -/
def terseVariables : Variables :=
  [("HOME", "/"), ("ORBYT_IGNORE_FILE", ".ignore"), ("ORBYT_RESPECT_IGNORE_FILE", "TRUE"),
   ("ORBYT_INCLUDE_FOLDERS", "False"), ("ORBYT_RELATIVE_FIRST", "false"), ("ORBYT_CHURN_MODE", "off"),
   ("ORBYT_GIT_TIMEOUT_SECONDS", "10"), ("ORBYT_TOP_N", "25"), ("ORBYT_VERBOSITY", "quiet"),
   ("ORBYT_EXPLAIN_MODEL", "gemini-2.5-flash"), ("ORBYT_EXPLAIN_MAX_CHARS", "3000")]

theorem exportable_terse : terse.Exportable where
  valid := by
    let given : Table := [("ignore_file", .text ".ignore"), ("include_folders", .bool false),
      ("churn_mode", .text "off"), ("top_n", .int 25), ("verbosity", .text "quiet")]
    refine ⟨given, ?_⟩
    have presets : givenOr given .extensions = preset .extensions := rfl
    rw [ofTable]
    simp only [presets, extensionsOf_preset, ok_bind]
    rfl
  declared setting := by
    cases setting with
    | extensions => exact .texts _ rfl
    | excludedDirs => exact .texts _ rfl
    | respectIgnoreFile => exact .flag _ rfl
    | includeFolders => exact .flag _ rfl
    | relativeFirst => exact .flag _ rfl
    | ignoreFile => exact .text _ rfl
    | churnMode => exact .text _ rfl
    | verbosity => exact .text _ rfl
    | explainModel => exact .text _ rfl
    | workers => exact .missing rfl
    | gitTimeoutSeconds => exact .whole _ rfl
    | topN => exact .whole _ rfl
    | explainMaxChars => exact .whole _ rfl
  short setting n own := by
    cases setting <;> cases own <;> decide
  extensions := rfl
  excludedDirs := rfl

theorem exported_terse : terse.Exported terseVariables where
  set setting kind present := by
    cases setting with
    | extensions | excludedDirs => exact absurd rfl kind
    | workers => cases present
    | respectIgnoreFile | includeFolders | relativeFirst => exact ⟨_, rfl, .flag (by decide)⟩
    | ignoreFile | churnMode | verbosity | explainModel => exact ⟨_, rfl, .text _⟩
    | gitTimeoutSeconds | topN | explainMaxChars => exact ⟨_, rfl, .whole _⟩
  unset setting kind missing := by
    cases setting with
    | workers => rfl
    | _ => cases missing

/-- On a disk without documents the exported settings are loaded. -/
theorem load_exported_terse :
    let home := Path.parse "/.orbyt.toml"
    terse.Exportable ∧ terse.Exported terseVariables ∧
      homePath? .empty terseVariables = some home ∧ Disk.empty.hasEntry home = .ok false ∧
      Disk.empty.hasEntry (projectPath .empty) = .ok false ∧
      load .empty terseVariables none [] = .ok terse ∧
      load .empty (("ORBYT_EXTENSIONS", ".py") :: terseVariables) none [] = .ok terse := by
  intro home
  have known : homePath? .empty terseVariables = some home := by decide +kernel
  have noHome : Disk.empty.hasEntry home = .ok false :=
    Disk.hasEntry_of_unlisted (by decide +kernel : _ = [".orbyt.toml"]) rfl (by decide)
      (by decide +kernel) (by decide +kernel)
  have noProject : Disk.empty.hasEntry (projectPath .empty) = .ok false :=
    Disk.hasEntry_of_unlisted (by decide +kernel : _ = ["orbyt.toml"]) rfl (by decide)
      (by decide +kernel) (by decide +kernel)
  obtain ⟨loaded, more⟩ := load_exported exportable_terse exported_terse known noHome noProject
  exact ⟨exportable_terse, exported_terse, known, noHome, noProject, loaded,
    more [("ORBYT_EXTENSIONS", ".py")] (by simp)⟩

end Settings

end RepoAtlas
