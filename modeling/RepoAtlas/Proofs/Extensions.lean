import RepoAtlas.Proofs.Exporting
import RepoAtlas.Proofs.Lowercase

/-! # Extensions in settings

Every listed extension is kept in one form, which is its own form. So settings are made again from
their own values, and the blanks around a listed extension, the mix of its letters and a missing dot
make no difference.
-/

namespace RepoAtlas

namespace Text

/-! ## Dots -/

section Dots

variable {s : String}

theorem startsWith_dot_iff : startsWith s "." = true ↔ ∃ rest, s.toList = '.' :: rest := by
  rw [startsWith, List.isPrefixOf_iff_prefix]
  constructor <;> rintro ⟨rest, spelled⟩ <;> exact ⟨rest, spelled.symm⟩

theorem startsWith_dot (s : String) : startsWith ("." ++ s) "." = true :=
  startsWith_dot_iff.mpr ⟨_, toList_dot s⟩

/-- Only a dot becomes a dot in lower case. -/
theorem startsWith_lower (s : String) : startsWith (lower s) "." = startsWith s "." := by
  rw [Bool.eq_iff_iff, startsWith_dot_iff, startsWith_dot_iff, lower, String.toList_ofList]
  cases spelled : s.toList with
  | nil => exact Iff.rfl
  | cons c rest =>
      by_cases dot : c = '.'
      · subst dot
        simp [lowerFrom_dot]
      · obtain ⟨smalls, lowers, split⟩ := exists_lowers [] rest c
        obtain ⟨d, more, rfl⟩ := List.exists_cons_of_ne_nil lowers.nonempty
        have other := lowers.noDot dot d List.mem_cons_self
        simp [split, dot, other]

theorem tight_dot (tight : Tight s) (nonempty : s ≠ "") : Tight ("." ++ s) := by
  obtain ⟨c, rest, spelled⟩ := List.exists_cons_of_ne_nil (String.toList_eq_nil_iff.not.mpr nonempty)
  rw [Tight, toList_dot, spelled]
  refine ⟨rfl, ?_⟩
  rw [List.getLast?_cons_cons, ← spelled]
  exact tight.2

end Dots

end Text

namespace Settings

/-! ## Forms -/

section Forms

variable {text e a b : String}

/-- An extension as settings keep it. -/
structure Extension (e : String) : Prop where
  dotted : Text.startsWith e "." = true
  bare : Text.strip e = e
  small : Text.lower e = e

/-- The text with a dot in front, if it does not have one. -/
def withDot (s : String) : String := if Text.startsWith s "." then s else "." ++ s

theorem startsWith_withDot (s : String) : Text.startsWith (withDot s) "." = true := by
  rw [withDot]
  split
  · assumption
  · exact Text.startsWith_dot s

theorem tight_withDot {s : String} (tight : Text.Tight s) (nonempty : s ≠ "") :
    Text.Tight (withDot s) := by
  rw [withDot]
  split
  · exact tight
  · exact Text.tight_dot tight nonempty

/-- The form of an extension is its stripped text with a dot, in small letters. -/
theorem extensionForm_eq (text : String) : extensionForm text =
    if Text.strip text = "" then none else some (Text.lower (withDot (Text.strip text))) := by
  rw [extensionForm]
  simp only [Text.lower_eq_empty_iff, Text.startsWith_lower, withDot]
  by_cases dotted : Text.startsWith (Text.strip text) "." = true
  · rw [if_pos dotted, if_pos dotted]
  · rw [if_neg dotted, if_neg dotted, Text.lower_dot]

theorem extension_of_extensionForm (form : extensionForm text = some e) : Extension e := by
  rw [extensionForm_eq] at form
  split at form
  · cases form
  · rename_i nonempty
    obtain rfl := Option.some.inj form
    have tight := tight_withDot (Text.tight_strip text) nonempty
    exact {
      dotted := by rw [Text.startsWith_lower, startsWith_withDot]
      bare := Text.strip_of_tight (Text.tight_lower tight)
      small := Text.lower_of_small fun c => Text.small_of_mem_lower }

/-- What is kept is its own form. -/
theorem Extension.form (kept : Extension e) : extensionForm e = some e := by
  have nonempty : e ≠ "" := by
    rintro rfl
    exact absurd kept.dotted (by decide)
  rw [extensionForm_eq, kept.bare, if_neg nonempty, withDot, if_pos kept.dotted, kept.small]

/-- Two ways to spell an extension: with other blanks around it, with other letters of ASCII small or
    capital, or with a dot in front of its stripped text, which has none. -/
inductive Respelled : String → String → Prop where
  | blanks {before after before' after' : List Char} (cs : List Char)
      (blank : ∀ c ∈ before ++ after ++ before' ++ after', Text.isBlank c = true) :
      Respelled (String.ofList (before ++ (cs ++ after))) (String.ofList (before' ++ (cs ++ after')))
  | letters {a b : String} (same : a.toList.map Char.toLower = b.toList.map Char.toLower) :
      Respelled a b
  | dot {a : String} (undotted : Text.startsWith (Text.strip a) "." = false) :
      Respelled a ("." ++ Text.strip a)

theorem extensionForm_of_respelled (spelled : Respelled a b) (inked : Text.isBlankText a = false) :
    extensionForm b = extensionForm a := by
  cases spelled with
  | @blanks before after before' after' cs blank =>
      have bare : ∀ {before after : List Char}, (∀ c ∈ before, Text.isBlank c = true) →
          (∀ c ∈ after, Text.isBlank c = true) →
            Text.strip (String.ofList (before ++ (cs ++ after))) = Text.strip (String.ofList cs) := by
        intro before after start ending
        rw [Text.strip, String.toList_ofList, Text.stripped_between start ending, Text.strip,
          String.toList_ofList]
      simp only [List.forall_mem_append] at blank
      obtain ⟨⟨⟨start, ending⟩, start'⟩, ending'⟩ := blank
      rw [extensionForm, extensionForm, bare start ending, bare start' ending']
  | letters same =>
      have lower : Text.lower (Text.strip b) = Text.lower (Text.strip a) := by
        apply Text.lower_eq_of_letters
        rw [Text.strip, Text.strip, String.toList_ofList, String.toList_ofList,
          ← Text.stripped_map_toLower, ← Text.stripped_map_toLower, same]
      rw [extensionForm, extensionForm, lower]
  | dot undotted =>
      have nonempty : Text.strip a ≠ "" := fun empty =>
        Bool.false_ne_true (inked.symm.trans (Text.isBlankText_of_strip empty))
      have tight := Text.tight_dot (Text.tight_strip a) nonempty
      have some : "." ++ Text.strip a ≠ "" := by simp
      rw [extensionForm_eq, extensionForm_eq, Text.strip_of_tight tight, if_neg some, if_neg nonempty,
        withDot, withDot, if_pos (Text.startsWith_dot _), if_neg (by simp [undotted])]

end Forms

/-! ## Settings -/

section Made

variable {given given' : Table} {s : Settings}

theorem givenOr_table (s : Settings) (setting : Setting) : givenOr s.table setting = s.get setting := by
  cases setting <;> rfl

theorem known_table (s : Settings) : ∀ pair ∈ s.table, Setting.ofName? pair.1 ≠ none := by
  intro pair member
  obtain ⟨setting, -, rfl⟩ := List.mem_map.mp member
  exact fun unknown => Setting.ofName?_eq_none_iff.mp unknown setting rfl

/-- Settings are those of any table of known names with values of their forms. -/
theorem ofTable_of_form (known : ∀ pair ∈ given, Setting.ofName? pair.1 ≠ none)
    (taken : ∀ setting : Setting, setting.Takes (givenOr given setting))
    (form : ∀ setting : Setting, setting.form (givenOr given setting) = s.get setting) :
    ofTable given = .ok s := by
  obtain ⟨made, done⟩ := ofTable_returns_iff.mpr ⟨known, taken⟩
  have same : made = s := eq_of_get fun setting =>
    ((made_of_ofTable done).get_eq setting).trans (form setting)
  rw [done, same]

/-- The forms of listed extensions are their own forms. -/
theorem filterMap_forms (items : List Value) :
    ((items.filterMap fun item => extensionForm item.write).map Value.text).filterMap
      (fun item => extensionForm item.write) =
        items.filterMap fun item => extensionForm item.write := by
  rw [List.filterMap_map]
  have kept : ∀ e ∈ items.filterMap fun item => extensionForm item.write,
      ((fun item => extensionForm item.write) ∘ Value.text) e = some e := by
    intro e member
    obtain ⟨item, -, form⟩ := List.mem_filterMap.mp member
    have own : extensionForm e = some e := (extension_of_extensionForm form).form
    simp only [Function.comp_apply, Value.write, own]
  rw [List.filterMap_congr kept, List.filterMap_some]

/-- What is kept of a value is taken again, in the same form. -/
theorem takes_form {setting : Setting} {v : Value} (taken : setting.Takes v) :
    setting.Takes (setting.form v) ∧ setting.form (setting.form v) = setting.form v := by
  cases setting with
  | extensions =>
      obtain ⟨items, parts, -, item, member, some⟩ := taken
      obtain ⟨e, form⟩ := Option.ne_none_iff_exists'.mp some
      have own : extensionForm e = .some e := (extension_of_extensionForm form).form
      have kept : Setting.form .extensions v = .list ((items.filterMap fun item =>
          extensionForm item.write).map .text) := by
        rw [Setting.form, parts, Option.getD_some]
      rw [kept]
      constructor
      · refine ⟨_, rfl, ?_, .text e, ?_, ?_⟩
        · intro item member
          obtain ⟨e, -, rfl⟩ := List.mem_map.mp member
          rfl
        · exact List.mem_map_of_mem (List.mem_filterMap.mpr ⟨item, member, form⟩)
        · rw [Value.write, own]
          exact Option.some_ne_none e
      · rw [Setting.form, Value.parts?, Option.getD_some, filterMap_forms]
  | excludedDirs => exact ⟨⟨_, rfl⟩, rfl⟩
  | _ => exact ⟨taken, rfl⟩

/-- The other table gives the same for all settings but the extensions, and of these it spells one
    that is not blank in another way. -/
structure Respells (given given' : Table) : Prop where
  known : ∀ pair ∈ given', Setting.ofName? pair.1 ≠ none
  others : ∀ setting : Setting, setting ≠ .extensions → givenOr given' setting = givenOr given setting
  listed : ∃ before a b after, Respelled a b ∧ Text.isBlankText a = false ∧
    (givenOr given .extensions).parts? = some (before ++ .text a :: after) ∧
      (givenOr given' .extensions).parts? = some (before ++ .text b :: after)

/-- Another spelling is taken as well, and has the same form. -/
theorem takes_of_respells (respells : Respells given given') (setting : Setting)
    (taken : setting.Takes (givenOr given setting)) : setting.Takes (givenOr given' setting) ∧
      setting.form (givenOr given' setting) = setting.form (givenOr given setting) := by
  by_cases extensions : setting = .extensions
  · subst extensions
    obtain ⟨before, a, b, after, spelled, inked, listed, listed'⟩ := respells.listed
    have forms : ((before ++ .text b :: after).filterMap fun item => extensionForm item.write) =
        (before ++ .text a :: after).filterMap fun item => extensionForm item.write := by
      simp only [List.filterMap_append, List.filterMap_cons, Value.write,
        extensionForm_of_respelled spelled inked]
    obtain ⟨items, parts, written, item, member, some⟩ := taken
    obtain rfl := Option.some.inj (listed.symm.trans parts)
    constructor
    · refine ⟨_, listed', ?_, ?_⟩
      · simp only [List.forall_mem_append, List.forall_mem_cons] at written ⊢
        exact ⟨written.1, rfl, written.2.2⟩
      · by_contra none
        have blank : ((before ++ .text b :: after).filterMap fun item => extensionForm item.write) =
            [] := List.filterMap_eq_nil_iff.mpr fun item inside =>
          not_not.mp fun other => none ⟨item, inside, other⟩
        exact some (List.filterMap_eq_nil_iff.mp (forms.symm.trans blank) item member)
    · rw [Setting.form, Setting.form, listed, listed', Option.getD_some, Option.getD_some, forms]
  · rw [respells.others setting extensions]
    exact ⟨taken, rfl⟩

/-- The extensions of the settings are in their form, of which there is one at least; the settings are
    made again from their own values, and as well if a listed extension is spelled in another way. -/
structure Settled (given : Table) (s : Settings) : Prop where
  some : s.extensions ≠ []
  form : ∀ e ∈ s.extensions, Extension e
  again : ofTable s.table = .ok s
  respelled : ∀ given', Respells given given' → ofTable given' = .ok s

theorem ofTable_settles (done : ofTable given = .ok s) : Settled given s where
  some := (made_of_ofTable done).someExtension
  form := by
    obtain ⟨items, -, -, same⟩ := extensionsOf_eq_ok_iff.mp (made_of_ofTable done).extensions
    intro e member
    rw [same] at member
    obtain ⟨item, -, form⟩ := List.mem_filterMap.mp member
    exact extension_of_extensionForm form
  again := by
    have made := made_of_ofTable done
    refine ofTable_of_form (known_table s) (fun setting => ?_) fun setting => ?_
    · rw [givenOr_table, made.get_eq]
      exact (takes_form (made.takes setting)).1
    · rw [givenOr_table, made.get_eq]
      exact (takes_form (made.takes setting)).2
  respelled := by
    intro given' respells
    have made := made_of_ofTable done
    refine ofTable_of_form respells.known (fun setting => ?_) fun setting => ?_
    · exact (takes_of_respells respells setting (made.takes setting)).1
    · exact (takes_of_respells respells setting (made.takes setting)).2.trans (made.get_eq setting).symm

end Made

/-- A listed extension with blanks around it, one that is blank and one that is a number. -/
def mixed : Table :=
  [("top_n", .int 7), ("extensions", .list [.text " TS\t", .text "", .int 3])]

/-- The same with a dot in front of the first extension. -/
def mixedDotted : Table :=
  [("extensions", .list [.text ".TS", .text "", .int 3]), ("top_n", .int 7)]

/-- The settings that both make. -/
def ofMixed : Settings where
  extensions := [".ts", ".3"]
  excludedDirs := Language.excludedDirectories.map .text
  ignoreFile := .text ".gitignore"
  respectIgnoreFile := .bool true
  includeFolders := .bool true
  relativeFirst := .bool false
  churnMode := .history
  gitTimeoutSeconds := .whole 10
  workers := none
  topN := .whole 7
  verbosity := .normal
  explainModel := .text "gemini-2.5-flash"
  explainMaxChars := .whole 3000

theorem ofTable_mixed : ofTable mixed = .ok ofMixed := by
  have listed : extensionsOf (givenOr mixed .extensions) = .ok [".ts", ".3"] := by decide +kernel
  rw [ofTable]
  simp only [listed, ok_bind]
  rfl

theorem respells_mixed : Respells mixed mixedDotted where
  known := by decide
  others setting other := by
    cases setting <;> first | rfl | exact absurd rfl other
  listed := by
    refine ⟨[], " TS\t", ".TS", [.text "", .int 3], ?_, by decide, rfl, rfl⟩
    have spelled : ".TS" = "." ++ Text.strip " TS\t" := by decide +kernel
    rw [spelled]
    exact .dot (by decide)

/-- The settings of the mixed list come again from their values and from the dotted spelling. -/
theorem ofTable_settles_mixed : ofTable mixed = .ok ofMixed ∧ Settled mixed ofMixed ∧
    Respells mixed mixedDotted ∧ ofTable mixedDotted = .ok ofMixed :=
  have settled := ofTable_settles ofTable_mixed
  ⟨ofTable_mixed, settled, respells_mixed, settled.respelled mixedDotted respells_mixed⟩

end Settings

end RepoAtlas
