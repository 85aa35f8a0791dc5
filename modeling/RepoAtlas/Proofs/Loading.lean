import RepoAtlas.Proofs.Acceptance
import RepoAtlas.Proofs.Disk
import RepoAtlas.Proofs.Index
import RepoAtlas.Settings.Load

/-! # Where settings come from

Of all sources that give a value for a setting the strongest counts: the caller, then variables, then
the named document, the one in the working folder, and the one in the home folder. Only the values in
effect are checked. Loading fails if and only if a source cannot be read, a name is unknown, or a
value in effect is refused; a refusal is told to the caller as a problem of the configuration unless
the refused value has no text.
-/

namespace RepoAtlas

/-- The value of a name in a table; of several the last one counts. -/
def Table.last? (t : Table) (name : String) : Option Value := t.reverse.lookup name

namespace Table

theorem last?_append (t more : Table) (name : String) :
    (t ++ more).last? name = (more.last? name).or (t.last? name) := by
  rw [last?, List.reverse_append, List.lookup_append]
  rfl

theorem last?_singleton (name other : String) (value : Value) :
    Table.last? [(name, value)] other = if other = name then some value else none := by
  rw [last?, List.reverse_singleton, List.lookup_cons]
  by_cases same : other = name
  · simp [same]
  · simp [same, beq_false_of_ne same]

end Table

namespace Settings

theorem overlay_append (lower upper : Table) (pair : String × Value) :
    overlay lower (upper ++ [pair]) = putLast pair.1 pair.2 (overlay lower upper) := by
  simp only [overlay, List.foldl_append, List.foldl_cons, List.foldl_nil]

/-- What lies over another table covers it name by name. -/
theorem lookup_overlay (lower upper : Table) (name : String) :
    (overlay lower upper).lookup name = (upper.last? name).or (lower.lookup name) := by
  induction upper using List.reverseRecOn with
  | nil => rfl
  | append_singleton upper pair ih =>
      obtain ⟨key, value⟩ := pair
      rw [overlay_append, lookup_putLast, ih, Table.last?_append, Table.last?_singleton]
      by_cases same : name = key
      · simp [same]
      · simp [same]

theorem mem_names_overlay (lower upper : Table) (name : String) :
    name ∈ (overlay lower upper).map (·.1) ↔
      name ∈ lower.map (·.1) ∨ name ∈ upper.map (·.1) := by
  induction upper using List.reverseRecOn with
  | nil => simp [overlay]
  | append_singleton upper pair ih =>
      rw [overlay_append, keys_putLast, List.map_append, List.map_singleton, List.mem_append,
        List.mem_singleton, ← or_assoc, ← ih]
      split
      · rename_i known
        refine ⟨.inl, fun either => either.elim id ?_⟩
        rintro rfl
        exact known
      · rw [List.mem_append, List.mem_singleton]

end Settings

/-! ## Documents -/

/-- The document at a path can be read, and this is what it holds. -/
def Disk.Holds (d : Disk) (path : Path) (document : Table) : Prop :=
  ∃ bytes cs, d.bytes path = .ok bytes ∧ Text.decodeAll bytes = .ok cs ∧ Toml.read cs = .ok document

/-- The document at a path gives these settings: those of its own table alone if it has one, and all
    that it holds otherwise. -/
inductive Disk.Gives (d : Disk) (path : Path) : Table → Prop where
  | own {document members : Table} (holds : d.Holds path document)
      (own : document.lookup "orbyt" = some (.table members)) : Gives d path members
  | whole {document : Table} (holds : d.Holds path document)
      (none : ∀ members, document.lookup "orbyt" ≠ some (.table members)) : Gives d path document

namespace Disk

variable {d : Disk} {path : Path}

theorem Holds.eq {document other : Table} (holds : d.Holds path document)
    (holds' : d.Holds path other) : document = other := by
  obtain ⟨bytes, cs, read, decoded, parsed⟩ := holds
  obtain ⟨bytes', cs', read', decoded', parsed'⟩ := holds'
  cases read.symm.trans read'
  cases decoded.symm.trans decoded'
  cases parsed.symm.trans parsed'
  rfl

theorem Gives.eq {table other : Table} (gives : d.Gives path table)
    (gives' : d.Gives path other) : table = other := by
  cases gives with
  | own holds own =>
      cases gives' with
      | own holds' own' =>
          cases holds.eq holds'
          cases own.symm.trans own'
          rfl
      | whole holds' none =>
          cases holds.eq holds'
          exact absurd own (none _)
  | whole holds none =>
      cases gives' with
      | own holds' own =>
          cases holds.eq holds'
          exact absurd own (none _)
      | whole holds' => exact holds.eq holds'

theorem Gives.exists_holds {table : Table} (gives : d.Gives path table) :
    ∃ document, d.Holds path document := by
  cases gives with
  | own holds | whole holds => exact ⟨_, holds⟩

theorem gives_sectionOf {document : Table} (holds : d.Holds path document) :
    d.Gives path (Settings.sectionOf document) := by
  rw [Settings.sectionOf]
  split
  · rename_i members own
    exact .own holds own
  · rename_i none
    exact .whole holds none

/-- Reading a document gives its settings, or it holds nothing that can be read. -/
theorem readDocument_cases (d : Disk) (path : Path) :
    (∃ table, Settings.readDocument d path = .ok table ∧ d.Gives path table) ∨
      ∃ problem, Settings.readDocument d path = .error problem ∧ ∀ document, ¬d.Holds path document := by
  cases read : d.bytes path with
  | error problem =>
      refine .inr ⟨.access problem path, by simp only [Settings.readDocument, read], ?_⟩
      rintro document ⟨bytes, cs, read', -⟩
      cases read.symm.trans read'
  | ok bytes =>
      cases decoded : Text.decodeAll bytes with
      | error problem =>
          refine .inr ⟨.encoding problem, by simp only [Settings.readDocument, read, decoded], ?_⟩
          rintro document ⟨bytes', cs, read', decoded', -⟩
          cases read.symm.trans read'
          cases decoded.symm.trans decoded'
      | ok cs =>
          cases parsed : Toml.read cs with
          | error message =>
              refine .inr ⟨.contents message,
                by simp only [Settings.readDocument, read, decoded, parsed], ?_⟩
              rintro document ⟨bytes', cs', read', decoded', parsed'⟩
              cases read.symm.trans read'
              cases decoded.symm.trans decoded'
              cases parsed.symm.trans parsed'
          | ok document =>
              exact .inl ⟨_, by simp only [Settings.readDocument, read, decoded, parsed],
                gives_sectionOf ⟨bytes, cs, read, decoded, parsed⟩⟩

end Disk

namespace Settings

/-- Where the document of the home folder is looked for, if a home folder is known. -/
def homePath? (d : Disk) (environment : Variables) : Option Path :=
  (homeOf d environment).map (·.join (Path.parse ".orbyt.toml"))

/-- Where the document of the working folder is looked for. -/
def projectPath (d : Disk) : Path := d.here.join (Path.parse "orbyt.toml")

/-- A document is looked for at the path. -/
def Asks (d : Disk) (environment : Variables) (document : Option Path) (path : Path) : Prop :=
  homePath? d environment = some path ∨ projectPath d = path ∨ document = some path

/-- The settings of the three documents. -/
structure Documents where
  home : Table
  project : Table
  named : Table

/-- A document that is there gives these settings; one that is not gives none. -/
inductive MayGive (d : Disk) (path : Path) : Table → Prop where
  | present {table : Table} (here : d.hasEntry path = .ok true) (gives : d.Gives path table) :
      MayGive d path table
  | absent (absent : d.hasEntry path = .ok false) : MayGive d path []

/-- The document that is named is there and gives these settings; if none is named there are none. -/
inductive NamedGives (d : Disk) : Option Path → Table → Prop where
  | unnamed : NamedGives d none []
  | present {path : Path} {table : Table} (here : d.hasEntry path = .ok true)
      (gives : d.Gives path table) : NamedGives d (some path) table

/-- All documents are read, with these settings. -/
structure Documents.Read (documents : Documents) (d : Disk) (environment : Variables)
    (document : Option Path) : Prop where
  home : ∃ path, homePath? d environment = some path ∧ MayGive d path documents.home
  project : MayGive d (projectPath d) documents.project
  named : NamedGives d document documents.named

section Determined

variable {d : Disk} {environment : Variables} {document : Option Path}

theorem MayGive.eq {path : Path} {table other : Table} (gives : MayGive d path table)
    (gives' : MayGive d path other) : table = other := by
  cases gives with
  | present here gives =>
      cases gives' with
      | present _ gives' => exact gives.eq gives'
      | absent absent => cases here.symm.trans absent
  | absent absent =>
      cases gives' with
      | present here => cases absent.symm.trans here
      | absent => rfl

theorem NamedGives.eq {table other : Table} (gives : NamedGives d document table)
    (gives' : NamedGives d document other) : table = other := by
  cases gives with
  | unnamed =>
      cases gives'
      rfl
  | present _ gives =>
      cases gives' with
      | present _ gives' => exact gives.eq gives'

theorem Documents.Read.eq {documents other : Documents}
    (read : documents.Read d environment document) (read' : other.Read d environment document) :
    documents = other := by
  obtain ⟨home, project, named⟩ := documents
  obtain ⟨home', project', named'⟩ := other
  obtain ⟨path, known, gives⟩ := read.home
  obtain ⟨path', known', gives'⟩ := read'.home
  cases known.symm.trans known'
  cases gives.eq gives'
  cases read.project.eq read'.project
  cases read.named.eq read'.named
  rfl

theorem MayGive.hasEntry {path : Path} {table : Table} (gives : MayGive d path table) :
    ∃ here, d.hasEntry path = .ok here := by
  cases gives with
  | present here => exact ⟨_, here⟩
  | absent absent => exact ⟨_, absent⟩

theorem MayGive.exists_holds {path : Path} {table : Table} (gives : MayGive d path table)
    (here : d.hasEntry path = .ok true) : ∃ document, d.Holds path document := by
  cases gives with
  | present _ gives => exact gives.exists_holds
  | absent absent => cases here.symm.trans absent

end Determined

/-! ## The value in effect -/

/-- The value of a setting that its variable gives. -/
def variableValue? (environment : Variables) (setting : Setting) : Option Value :=
  (environment.lookup setting.variableName).bind fun text =>
    (setting.variableKind.read text).toOption.join

/-- The names of the caller that are meant as settings, with values that are not missing. -/
def plainOf (given : Table) : Table :=
  given.filter fun pair => !pair.2.isMissing && pair.1 ≠ "verbose" && pair.1 ≠ "quiet"

/-- The value of a setting that the caller gives. To be quiet, or else to tell more, is one for the
    verbosity and counts more than a verbosity that is given. -/
def callerValue? (given : Table) (setting : Setting) : Option Value :=
  if setting = .verbosity ∧ isOn given "quiet" = true then some (.text "quiet")
  else if setting = .verbosity ∧ isOn given "verbose" = true then some (.text "verbose")
  else (plainOf given).last? setting.name

namespace Documents

/-- The value in effect: that of the strongest source that gives one, or else the preset. -/
def effective (documents : Documents) (environment : Variables) (given : Table)
    (setting : Setting) : Value :=
  ((callerValue? given setting).or <| (variableValue? environment setting).or <|
    (documents.named.last? setting.name).or <| (documents.project.last? setting.name).or <|
      documents.home.last? setting.name).getD (preset setting)

/-- The names that have to be those of settings. -/
def names (documents : Documents) (given : Table) : List String :=
  (documents.home ++ documents.project ++ documents.named ++ plainOf given).map (·.1)

end Documents

/-- Why loading fails. -/
inductive LoadFails (d : Disk) (environment : Variables) (document : Option Path)
    (given : Table) : Prop where
  /-- A document that is there cannot be read. -/
  | unreadable {path : Path} (asked : Asks d environment document path)
      (here : d.hasEntry path = .ok true) (broken : ∀ table, ¬d.Holds path table)
  | missing {path : Path} (asked : document = some path) (absent : d.hasEntry path = .ok false)
  /-- The text of a variable stands for nothing that its setting is. -/
  | unfit {setting : Setting} {text : String} {problem : VariableProblem}
      (set : environment.lookup setting.variableName = some text)
      (refused : setting.variableKind.read text = .error problem)
  | unknown {documents : Documents} {name : String}
      (read : documents.Read d environment document) (used : name ∈ documents.names given)
      (unknown : ∀ setting : Setting, setting.name ≠ name)
  /-- A value in effect is not one that its setting takes. -/
  | refused {documents : Documents} {setting : Setting}
      (read : documents.Read d environment document)
      (untaken : ¬setting.Takes (documents.effective environment given setting))

/-- Why it cannot even be told which documents there are. -/
inductive LoadEscapes (d : Disk) (environment : Variables) (document : Option Path) :
    LoadProblem → Prop where
  | homeless (unknown : homeOf d environment = none) : LoadEscapes d environment document .homeless
  | access {path : Path} {problem : AccessProblem} (asked : Asks d environment document path)
      (failed : d.hasEntry path = .error problem) :
      LoadEscapes d environment document (.access problem)

theorem Documents.Read.not_escapes {documents : Documents} {d : Disk} {environment : Variables}
    {document : Option Path} {problem : LoadProblem}
    (read : documents.Read d environment document) :
    ¬LoadEscapes d environment document problem := by
  obtain ⟨path, known, gives⟩ := read.home
  intro escapes
  cases escapes with
  | homeless unknown => simp [homePath?, unknown] at known
  | access asked failed =>
      rcases asked with home | rfl | rfl
      · cases known.symm.trans home
        obtain ⟨here, told⟩ := gives.hasEntry
        cases told.symm.trans failed
      · obtain ⟨here, told⟩ := read.project.hasEntry
        cases told.symm.trans failed
      · cases read.named with
        | present here => cases here.symm.trans failed

/-! ## Layers -/

/-- The problem is one of the configuration. -/
def IsConfiguration (p : Problem) : Prop :=
  p.family = .configuration ∨ .configuration ∈ p.family.ancestors

/-- How a step of loading comes out: with something of a kind, with a problem of the configuration
    that is told for a reason, or with one that is not told so. -/
inductive Comes {α : Type} (gives : α → Prop) (fails : Prop) (escapes : LoadProblem → Prop) :
    Except LoadProblem α → Prop where
  | given {a : α} (given : gives a) : Comes gives fails escapes (.ok a)
  | told {problem : Problem} (told : IsConfiguration problem) (reason : fails) :
      Comes gives fails escapes (.error (.configuration problem))
  | escaped {problem : LoadProblem} (reason : escapes problem) :
      Comes gives fails escapes (.error problem)

theorem Comes.bind {α β : Type} {gives : α → Prop} {gives' : β → Prop} {fails : Prop}
    {escapes : LoadProblem → Prop} {first : Except LoadProblem α} {next : α → Except LoadProblem β}
    (comes : Comes gives fails escapes first)
    (comesNext : ∀ a, gives a → Comes gives' fails escapes (next a)) :
    Comes gives' fails escapes (first >>= next) := by
  cases comes with
  | given given => exact comesNext _ given
  | told told reason => exact .told told reason
  | escaped reason => exact .escaped reason

section Layers

variable {d : Disk} {environment : Variables} {document : Option Path} {given : Table}

theorem documentLayer_cases (d : Disk) (calling : String) (path : Path) :
    (∃ table, documentLayer d calling path = .ok table ∧ d.Gives path table) ∨
      ∃ problem, documentLayer d calling path = .error problem ∧ IsConfiguration problem ∧
        ∀ table, ¬d.Holds path table := by
  rw [documentLayer]
  rcases Disk.readDocument_cases d path with
    ⟨table, read, gives⟩ | ⟨problem, failed, broken⟩
  · rw [read]
    exact .inl ⟨table, rfl, gives⟩
  · rw [failed]
    exact .inr ⟨_, rfl, .inl rfl, broken⟩

/-- A document that is looked for is read, if it is there; what comes of one that is not there is
    left open. -/
theorem layerOr_comes {gives : Table → Prop} {path : Path} {absent : Except Problem Table}
    (asked : Asks d environment document path) (calling : String)
    (here : d.hasEntry path = .ok true → ∀ table, d.Gives path table → gives table)
    (gone : d.hasEntry path = .ok false → Comes gives (LoadFails d environment document given)
      (LoadEscapes d environment document) (absent.mapError .configuration)) :
    Comes gives (LoadFails d environment document given) (LoadEscapes d environment document)
      (layerOr d calling path absent) := by
  rw [layerOr]
  cases found : d.hasEntry path with
  | error problem => exact .escaped (.access asked found)
  | ok there =>
      cases there with
      | false => exact gone found
      | true =>
          rcases documentLayer_cases d calling path with
            ⟨table, read, gives⟩ | ⟨problem, failed, told, broken⟩
          · simp only [if_true, read]
            exact .given (here found table gives)
          · simp only [if_true, failed]
            exact .told told (.unreadable asked found broken)

theorem optionalLayer_comes {path : Path} (asked : Asks d environment document path)
    (calling : String) :
    Comes (MayGive d path) (LoadFails d environment document given)
      (LoadEscapes d environment document) (optionalLayer d calling path) :=
  layerOr_comes asked calling (fun here _ gives => .present here gives)
    fun absent => .given (.absent absent)

theorem namedLayer_comes (d : Disk) (environment : Variables) (document : Option Path)
    (given : Table) :
    Comes (NamedGives d document) (LoadFails d environment document given)
      (LoadEscapes d environment document) (namedLayer d document) := by
  cases document with
  | none => exact .given .unnamed
  | some path =>
      apply layerOr_comes (.inr (.inr rfl))
      · intro here table gives
        exact .present here gives
      · intro absent
        exact .told (.inl rfl) (.missing rfl absent)

/-- A value that is given under the name of a setting is one of that setting and of no other. -/
theorem last?_named (owner : Setting) (value : Option Value) (setting : Setting) :
    Table.last? (value.map fun v => (owner.name, v)).toList setting.name =
      if setting = owner then value else none := by
  cases value with
  | none => simp [Table.last?]
  | some v => simp only [Option.map_some, Option.toList_some, Table.last?_singleton, Setting.name_inj]

theorem last?_wished (wished : Option Verbosity) (setting : Setting) :
    Table.last? (wished.map fun v => (Setting.verbosity.name, Value.text v.name)).toList
        setting.name =
      if setting = .verbosity then wished.map fun v => .text v.name else none := by
  rw [← last?_named, Option.map_map]
  rfl

/-- The variables of some settings give the values that their texts stand for, under the names of
    their settings, and each text stands for a value. -/
structure VariablesGive (environment : Variables) (settings : List Setting) (table : Table) :
    Prop where
  read : ∀ setting ∈ settings, ∀ text problem,
    environment.lookup setting.variableName = some text →
      setting.variableKind.read text ≠ .error problem
  known : ∀ name ∈ table.map (·.1), ∃ setting : Setting, setting.name = name
  values : ∀ setting : Setting, table.last? setting.name =
    if setting ∈ settings then variableValue? environment setting else none

namespace VariablesGive

variable {first : Setting} {rest : List Setting} {table : Table}

theorem value (gives : VariablesGive environment Setting.all table) (setting : Setting) :
    table.last? setting.name = variableValue? environment setting := by
  rw [gives.values, if_pos setting.mem_all]

theorem nil (environment : Variables) : VariablesGive environment [] [] :=
  ⟨by simp, by simp, by simp [Table.last?]⟩

theorem unset (gives : VariablesGive environment rest table)
    (unset : environment.lookup first.variableName = none) :
    VariablesGive environment (first :: rest) table where
  read := by
    refine List.forall_mem_cons.mpr ⟨fun text problem set => ?_, gives.read⟩
    cases unset.symm.trans set
  known := gives.known
  values setting := by
    rw [gives.values]
    by_cases same : setting = first
    · subst same
      simp [variableValue?, unset]
    · simp [same]

theorem set {text : String} {value : Option Value} (gives : VariablesGive environment rest table)
    (set : environment.lookup first.variableName = some text)
    (read : first.variableKind.read text = .ok value) :
    VariablesGive environment (first :: rest)
      ((value.map fun v => (first.name, v)).toList ++ table) where
  read := by
    refine List.forall_mem_cons.mpr ⟨fun text' problem set' refused => ?_, gives.read⟩
    cases set.symm.trans set'
    cases read.symm.trans refused
  known name member := by
    rw [List.map_append, List.mem_append] at member
    rcases member with new | old
    · cases value with
      | none => simp at new
      | some v => exact ⟨first, by simpa [eq_comm] using new⟩
    · exact gives.known name old
  values setting := by
    have stands : variableValue? environment first = value := by
      simp [variableValue?, set, read, Except.toOption]
    rw [Table.last?_append, gives.values, last?_named]
    by_cases same : setting = first
    · subst same
      by_cases again : setting ∈ rest <;> simp [stands, again]
    · simp [same]

end VariablesGive

/-- The variables of some settings give their values, or the text of one stands for nothing. -/
theorem variableLayer_cases (environment : Variables) (settings : List Setting) :
    (∃ table, variableLayer environment settings = .ok table ∧
        VariablesGive environment settings table) ∨
      ∃ problem, variableLayer environment settings = .error problem ∧ IsConfiguration problem ∧
        ∃ (setting : Setting) (text : String) (refusal : VariableProblem),
          environment.lookup setting.variableName = some text ∧
            setting.variableKind.read text = .error refusal := by
  induction settings with
  | nil => exact .inl ⟨[], rfl, .nil environment⟩
  | cons first rest ih =>
      rw [variableLayer]
      cases set : environment.lookup first.variableName with
      | none => exact ih.imp_left fun ⟨table, done, gives⟩ => ⟨table, done, gives.unset set⟩
      | some text =>
          dsimp only
          cases read : first.variableKind.read text with
          | error refusal => exact .inr ⟨_, rfl, .inl rfl, first, text, refusal, set, read⟩
          | ok value =>
              rcases ih with ⟨table, done, gives⟩ | ⟨problem, failed, told⟩
              · rw [done]
                exact .inl ⟨_, rfl, gives.set set read⟩
              · rw [failed]
                exact .inr ⟨problem, rfl, told⟩

theorem last?_callerLayer (given : Table) (setting : Setting) :
    (callerLayer given).last? setting.name = callerValue? given setting := by
  have layer : callerLayer given = plainOf given ++ ((if isOn given "quiet" then some Verbosity.quiet
      else if isOn given "verbose" then some Verbosity.verbose else none).map
        fun v => (Setting.verbosity.name, Value.text v.name)).toList := rfl
  rw [layer, Table.last?_append, last?_wished, callerValue?]
  by_cases verbosity : setting = .verbosity
  · cases isOn given "quiet" with
    | true => simp [verbosity, Verbosity.name]
    | false =>
        cases isOn given "verbose" <;> simp [verbosity, Verbosity.name]
  · simp [verbosity]

theorem mem_names_callerLayer {given : Table} {name : String}
    (member : name ∈ (callerLayer given).map (·.1)) :
    name ∈ (plainOf given).map (·.1) ∨ name = Setting.verbosity.name := by
  have layer : callerLayer given = plainOf given ++ ((if isOn given "quiet" then some Verbosity.quiet
      else if isOn given "verbose" then some Verbosity.verbose else none).map
        fun v => (Setting.verbosity.name, Value.text v.name)).toList := rfl
  rw [layer, List.map_append, List.mem_append] at member
  refine member.imp_right fun wished => ?_
  obtain ⟨pair, inside, rfl⟩ := List.mem_map.mp wished
  rw [Option.mem_toList, Option.map_eq_some_iff] at inside
  obtain ⟨v, -, rfl⟩ := inside
  rfl

theorem names_plainOf_subset (given : Table) {name : String}
    (member : name ∈ (plainOf given).map (·.1)) : name ∈ (callerLayer given).map (·.1) := by
  change name ∈ (plainOf given ++ _).map (·.1)
  rw [List.map_append]
  exact List.mem_append_left _ member

theorem layers_comes (d : Disk) (environment : Variables) (document : Option Path)
    (given : Table) :
    Comes (fun all => ∃ (documents : Documents) (ofVariables : Table),
        all = [documents.home, documents.project, documents.named, ofVariables, callerLayer given] ∧
          documents.Read d environment document ∧ VariablesGive environment Setting.all ofVariables)
      (LoadFails d environment document given) (LoadEscapes d environment document)
      (layers d environment document given) := by
  rw [layers]
  cases known : homeOf d environment with
  | none => exact .escaped (.homeless known)
  | some home =>
      have path : homePath? d environment = some (home.join (Path.parse homeDocument)) := by
        rw [homePath?, known]
        rfl
      refine (optionalLayer_comes (.inl path) "global config").bind fun global globalGives => ?_
      refine (optionalLayer_comes (.inr (.inl rfl)) "project config").bind
        fun project projectGives => ?_
      refine (namedLayer_comes d environment document given).bind fun named namedGives => ?_
      rcases variableLayer_cases environment Setting.all with
        ⟨ofVariables, done, gives⟩ | ⟨problem, failed, told, setting, text, refusal, set, refused⟩
      · rw [done]
        exact .given ⟨⟨global, project, named⟩, ofVariables, rfl,
          ⟨⟨_, path, globalGives⟩, projectGives, namedGives⟩, gives⟩
      · rw [failed]
        exact .told told (.unfit set refused)

theorem layerOr_of_gives {path : Path} {table : Table} (here : d.hasEntry path = .ok true)
    (gives : d.Gives path table) (calling : String) (absent : Except Problem Table) :
    layerOr d calling path absent = .ok table := by
  rw [layerOr, here]
  rcases documentLayer_cases d calling path with ⟨read, done, gives'⟩ | ⟨_, -, -, broken⟩
  · simp only [if_true, done, gives'.eq gives, mapError_ok]
  · obtain ⟨held, holds⟩ := gives.exists_holds
    exact absurd holds (broken held)

theorem MayGive.layer {path : Path} {table : Table} (gives : MayGive d path table)
    (calling : String) : optionalLayer d calling path = .ok table := by
  cases gives with
  | present here gives => exact layerOr_of_gives here gives calling _
  | absent absent =>
      rw [optionalLayer, layerOr, absent]
      rfl

theorem NamedGives.layer {table : Table} (gives : NamedGives d document table) :
    namedLayer d document = .ok table := by
  cases gives with
  | unnamed => rfl
  | present here gives => exact layerOr_of_gives here gives "config file" _

/-- The layers of documents that are read and of variables that have values. -/
theorem Documents.Read.layers {documents : Documents} {ofVariables : Table}
    (read : documents.Read d environment document)
    (valued : variableLayer environment Setting.all = .ok ofVariables) :
    layers d environment document given =
      .ok [documents.home, documents.project, documents.named, ofVariables, callerLayer given] := by
  obtain ⟨path, known, home⟩ := read.home
  obtain ⟨folder, found, rfl⟩ := Option.map_eq_some_iff.mp known
  have global : optionalLayer d "global config" (folder.join (Path.parse homeDocument)) =
      .ok documents.home := home.layer "global config"
  have here : optionalLayer d "project config" (d.here.join (Path.parse projectDocument)) =
      .ok documents.project := read.project.layer "project config"
  rw [Settings.layers, found]
  change (optionalLayer d "global config" (folder.join (Path.parse homeDocument)) >>= _) = _
  rw [global, ok_bind, here, ok_bind, read.named.layer, ok_bind, valued, mapError_ok, ok_bind]
  rfl

/-! ## All layers together -/

section Merged

variable {documents : Documents} {ofVariables : Table}

/-- What all layers give together. -/
def Documents.merged (documents : Documents) (ofVariables given : Table) : Table :=
  [documents.home, documents.project, documents.named, ofVariables, callerLayer given].foldl overlay []

theorem givenOr_merged (gives : VariablesGive environment Setting.all ofVariables) (setting : Setting) :
    givenOr (documents.merged ofVariables given) setting =
      documents.effective environment given setting := by
  simp only [givenOr, Documents.merged, List.foldl_cons, List.foldl_nil, lookup_overlay,
    gives.value, last?_callerLayer, Documents.effective, List.lookup_nil, Option.or_none]

theorem known_merged_iff (gives : VariablesGive environment Setting.all ofVariables) :
    (∀ pair ∈ documents.merged ofVariables given, Setting.ofName? pair.1 ≠ none) ↔
      ∀ name ∈ documents.names given, ∃ setting : Setting, setting.name = name := by
  have known_iff : ∀ name, Setting.ofName? name ≠ none ↔ ∃ setting : Setting, setting.name = name := by
    intro name
    rw [ne_eq, Setting.ofName?_eq_none_iff]
    simp
  have names : ∀ name, name ∈ (documents.merged ofVariables given).map (·.1) ↔
      (name ∈ documents.home.map (·.1) ∨ name ∈ documents.project.map (·.1) ∨
        name ∈ documents.named.map (·.1)) ∨ name ∈ ofVariables.map (·.1) ∨
          name ∈ (callerLayer given).map (·.1) := by
    intro name
    simp only [Documents.merged, List.foldl_cons, List.foldl_nil, mem_names_overlay, List.map_nil,
      List.not_mem_nil, false_or, or_assoc]
  constructor
  · intro known name used
    rw [← known_iff]
    have inside : name ∈ (documents.merged ofVariables given).map (·.1) := by
      rw [names]
      simp only [Documents.names, List.map_append, List.mem_append] at used
      rcases used with ((home | project) | named) | caller
      · exact .inl (.inl home)
      · exact .inl (.inr (.inl project))
      · exact .inl (.inr (.inr named))
      · exact .inr (.inr (names_plainOf_subset given caller))
    obtain ⟨pair, member, rfl⟩ := List.mem_map.mp inside
    exact known pair member
  · intro known pair member
    rw [known_iff]
    have used : ∀ name ∈ (documents.home ++ documents.project ++ documents.named ++
        plainOf given).map (·.1), ∃ setting : Setting, setting.name = name := known
    simp only [List.map_append, List.mem_append] at used
    rcases (names pair.1).mp (List.mem_map_of_mem member) with
      (home | project | named) | fromVariable | caller
    · exact used _ (.inl (.inl (.inl home)))
    · exact used _ (.inl (.inl (.inr project)))
    · exact used _ (.inl (.inr named))
    · exact gives.known _ fromVariable
    · rcases mem_names_callerLayer caller with plain | verbosity
      · exact used _ (.inr plain)
      · exact ⟨.verbosity, verbosity.symm⟩

/-- Once everything is read, known and taken, there is no reason left to fail. -/
theorem not_loadFails (read : documents.Read d environment document)
    (gives : VariablesGive environment Setting.all ofVariables)
    (known : ∀ name ∈ documents.names given, ∃ setting : Setting, setting.name = name)
    (taken : ∀ setting : Setting, setting.Takes (documents.effective environment given setting)) :
    ¬LoadFails d environment document given := by
  intro fails
  cases fails with
  | unreadable asked here broken =>
      rcases asked with home | rfl | rfl
      · obtain ⟨path, known, gives⟩ := read.home
        cases known.symm.trans home
        obtain ⟨table, holds⟩ := gives.exists_holds here
        exact broken table holds
      · obtain ⟨table, holds⟩ := read.project.exists_holds here
        exact broken table holds
      · cases read.named with
        | present _ gives =>
            obtain ⟨table, holds⟩ := gives.exists_holds
            exact broken table holds
  | missing asked absent =>
      subst asked
      cases read.named with
      | present here => cases here.symm.trans absent
  | unfit set refused => exact gives.read _ (Setting.mem_all _) _ _ set refused
  | unknown read' used unknown =>
      cases read.eq read'
      obtain ⟨setting, same⟩ := known _ used
      exact unknown setting same
  | refused read' untaken =>
      cases read.eq read'
      exact untaken (taken _)

end Merged

theorem IsConfiguration.of_toProblem? {problem : SettingsProblem} {told : Problem}
    (reported : problem.toProblem? = some told) : IsConfiguration told := by
  cases problem with
  | invalid setting value requirement =>
      cases reported
      exact .inr List.mem_cons_self
  | tooLong => cases reported
  | unknown | reserved | noItems | noOrder =>
      cases reported
      exact .inl rfl

theorem exists_toProblem? {problem : SettingsProblem} (short : problem ≠ .tooLong) :
    ∃ told, problem.toProblem? = some told := by
  cases problem with
  | tooLong => exact absurd rfl short
  | unknown | reserved | noItems | noOrder | invalid => exact ⟨_, rfl⟩

/-- Once all layers are read, what they give together decides. -/
theorem load_of_layers {documents : Documents} {ofVariables : Table}
    (done : layers d environment document given =
      .ok [documents.home, documents.project, documents.named, ofVariables, callerLayer given]) :
    load d environment document given =
      match ofTable (documents.merged ofVariables given) with
      | .ok s => .ok s
      | .error refusal => .error ((refusal.toProblem?.map .configuration).getD .tooLong) := by
  rw [load, done]
  rfl

/-- Loading ends in one of four ways: with settings, with a problem that is told, for want of a text
    for a refused value, or because it cannot be told which documents there are. -/
theorem load_cases (d : Disk) (environment : Variables) (document : Option Path) (given : Table) :
    (∃ (s : Settings) (documents : Documents), load d environment document given = .ok s ∧
        documents.Read d environment document ∧
        (∀ setting : Setting, setting.Takes (documents.effective environment given setting) ∧
          s.get setting = setting.form (documents.effective environment given setting)) ∧
        ¬LoadFails d environment document given) ∨
      (∃ problem, load d environment document given = .error (.configuration problem) ∧
        IsConfiguration problem ∧ LoadFails d environment document given) ∨
      (∃ documents : Documents, load d environment document given = .error .tooLong ∧
        documents.Read d environment document ∧
        ∃ setting : Setting, ¬setting.Takes (documents.effective environment given setting) ∧
          (documents.effective environment given setting).isWritable = false) ∨
      ∃ problem, load d environment document given = .error problem ∧
        LoadEscapes d environment document problem := by
  have comes := layers_comes d environment document given
  generalize done : layers d environment document given = outcome at comes
  cases comes with
  | told told fails => exact .inr (.inl ⟨_, by rw [load, done], told, fails⟩)
  | escaped escapes => exact .inr (.inr (.inr ⟨_, by rw [load, done], escapes⟩))
  | given all =>
  obtain ⟨documents, ofVariables, rfl, read, gives⟩ := all
  rw [load_of_layers done]
  cases outcome : ofTable (documents.merged ofVariables given) with
  | ok s =>
      have made := made_of_ofTable outcome
      have taken : ∀ setting : Setting,
          setting.Takes (documents.effective environment given setting) := fun setting =>
        givenOr_merged gives setting ▸ made.takes setting
      have kept : ∀ setting : Setting,
          s.get setting = setting.form (documents.effective environment given setting) :=
        fun setting => givenOr_merged gives setting ▸ made.get_eq setting
      exact .inl ⟨s, documents, rfl, read, fun setting => ⟨taken setting, kept setting⟩,
        not_loadFails read gives ((known_merged_iff gives).mp (known_of_ofTable outcome)) taken⟩
  | error refusal =>
      rcases refuses_of_ofTable outcome with ⟨pair, member, unknown, short⟩ | ⟨setting, refused⟩
      · obtain ⟨told, reported⟩ := exists_toProblem? short
        refine .inr (.inl ⟨told, by simp only [reported, Option.map_some, Option.getD_some],
          .of_toProblem? reported, ?_⟩)
        have strange : ¬∀ name ∈ documents.names given, ∃ setting : Setting, setting.name = name :=
          fun known => (known_merged_iff gives).mpr known pair member unknown
        simp only [not_forall, not_exists] at strange
        obtain ⟨name, used, unknown⟩ := strange
        exact .unknown read used unknown
      · rw [givenOr_merged gives] at refused
        by_cases short : refusal = .tooLong
        · subst short
          exact .inr (.inr (.inl ⟨documents, rfl, read, setting, refused.untaken, refused.long rfl⟩))
        · obtain ⟨told, reported⟩ := exists_toProblem? short
          exact .inr (.inl ⟨told, by simp only [reported, Option.map_some, Option.getD_some],
            .of_toProblem? reported, .refused read refused.untaken⟩)

/-- Settings that are loaded are those of documents that are read, and nothing fails. -/
theorem exists_of_load {s : Settings} (loaded : load d environment document given = .ok s) :
    ∃ documents : Documents, documents.Read d environment document ∧
      (∀ setting : Setting,
        s.get setting = setting.form (documents.effective environment given setting)) ∧
      ¬LoadFails d environment document given := by
  rcases load_cases d environment document given with
    ⟨_, documents, loaded', read, kept, fine⟩ | ⟨_, failed, -⟩ | ⟨_, failed, -⟩ | ⟨_, failed, -⟩
  case inr.inl | inr.inr.inl | inr.inr.inr => cases loaded.symm.trans failed
  cases loaded.symm.trans loaded'
  exact ⟨documents, read, fun setting => (kept setting).2, fine⟩

/-- What the caller gives is in effect. -/
theorem get_of_caller {s : Settings} {setting : Setting} {v : Value}
    (loaded : load d environment document given = .ok s)
    (own : callerValue? given setting = some v) : s.get setting = setting.form v := by
  obtain ⟨documents, -, kept, -⟩ := exists_of_load loaded
  rw [kept, Documents.effective, own]
  rfl

/-! ## Two callers -/

section Callers

variable {given' : Table}
  (known : ∀ name ∈ (plainOf given').map (·.1), ∃ setting : Setting, setting.name = name)
  (each : ∀ setting : Setting, callerValue? given' setting = callerValue? given setting ∨
    ∀ documents : Documents, setting.Takes (documents.effective environment given' setting))

theorem Documents.effective_congr {documents : Documents} {setting : Setting}
    (same : callerValue? given' setting = callerValue? given setting) :
    documents.effective environment given' setting = documents.effective environment given setting := by
  rw [effective, effective, same]

include each in
theorem untaken_of_caller {documents : Documents} {setting : Setting}
    (untaken : ¬setting.Takes (documents.effective environment given' setting)) :
    ¬setting.Takes (documents.effective environment given setting) := by
  rcases each setting with same | taken
  · rw [← Documents.effective_congr same]
    exact untaken
  · exact absurd (taken documents) untaken

include known each in
theorem LoadFails.of_caller (fails : LoadFails d environment document given') :
    LoadFails d environment document given := by
  cases fails with
  | unreadable asked here broken => exact .unreadable asked here broken
  | missing asked absent => exact .missing asked absent
  | unfit set refused => exact .unfit set refused
  | unknown read used unknown =>
      rw [Documents.names, List.map_append, List.mem_append] at used
      rcases used with written | given
      · refine .unknown read ?_ unknown
        rw [Documents.names, List.map_append]
        exact List.mem_append_left _ written
      · obtain ⟨setting, same⟩ := known _ given
        exact absurd same (unknown setting)
  | refused read untaken => exact .refused read (untaken_of_caller each untaken)

include known each in
/-- If one caller gets settings, so does another whose values in effect are the same or taken, and the
    settings for which both give the same are the same. -/
theorem load_of_caller {s : Settings} (loaded : load d environment document given = .ok s) :
    ∃ s', load d environment document given' = .ok s' ∧ ∀ setting,
      callerValue? given' setting = callerValue? given setting → s'.get setting = s.get setting := by
  obtain ⟨documents, read, kept, fine⟩ := exists_of_load loaded
  rcases load_cases d environment document given' with
    ⟨s', _, done, read', kept', -⟩ | ⟨_, -, -, fails⟩ | ⟨_, -, read', setting, untaken, -⟩ |
      ⟨_, -, escapes⟩
  · cases read.eq read'
    refine ⟨s', done, fun setting same => ?_⟩
    rw [kept, (kept' setting).2, Documents.effective_congr same]
  · exact absurd (fails.of_caller known each) fine
  · exact absurd (.refused read' (untaken_of_caller each untaken)) fine
  · exact absurd escapes read.not_escapes

end Callers

end Layers

end Settings

/-- A document with a long number that is written in base sixteen. -/
def Disk.longNumberBytes : List UInt8 := "churn_mode = 0x1".toUTF8.toList ++ List.replicate 3600 48

/-- A disk whose working folder holds this document. -/
def Disk.longNumber : Disk where
  entries := [("orbyt.toml", .file longNumberBytes true)]
  here := Path.bare .root

namespace Settings

theorem extensionsOf_preset : extensionsOf (preset .extensions) = .ok Language.sourceExtensions := by
  decide +kernel

/-- A number is no mode, and one that is too long is refused without a word. -/
theorem ofTable_long {n : Int} (long : (Value.int n).isWritable = false) :
    ofTable [("churn_mode", .int n)] = .error .tooLong := by
  have presets : givenOr [("churn_mode", .int n)] .extensions = preset .extensions ∧
      givenOr [("churn_mode", .int n)] .excludedDirs = preset .excludedDirs := ⟨rfl, rfl⟩
  have given : givenOr [("churn_mode", .int n)] .churnMode = .int n := rfl
  have known : [("churn_mode", Value.int n)].findSome? (fun x => nameProblem? x.1) = none := by
    rw [List.findSome?_cons, (by decide : nameProblem? "churn_mode" = none)]
    rfl
  rw [ofTable]
  simp only [presets, extensionsOf_preset, known, given, ok_bind, choiceOf_eq, Value.text?,
    refuse_eq, long]
  rfl

theorem find_longNumber : Disk.longNumber.find (projectPath .longNumber) =
    .ok (["orbyt.toml"], .file Disk.longNumberBytes true) :=
  Disk.find_of_at? rfl rfl (by decide) fun _ => Entry.noConfusion

/-- One churn mode is all that the table gives, and it is a number too long to be written. -/
def givesLongMode : Table → Bool
  | [(name, .int n)] => name == "churn_mode" && !(Value.int n).isWritable
  | _ => false

theorem exists_of_givesLongMode {table : Table} (given : givesLongMode table) :
    ∃ n : Int, (Value.int n).isWritable = false ∧ table = [("churn_mode", .int n)] := by
  unfold givesLongMode at given
  split at given
  · rename_i name n
    rw [Bool.and_eq_true, beq_iff_eq, Bool.not_eq_true'] at given
    obtain ⟨rfl, long⟩ := given
    exact ⟨n, long, rfl⟩
  · cases given

theorem holds_longNumber : ∃ n : Int, (Value.int n).isWritable = false ∧
    Disk.longNumber.Holds (projectPath .longNumber) [("churn_mode", .int n)] := by
  have held : ((Text.decodeAll Disk.longNumberBytes).toOption.bind fun cs =>
      (Toml.read cs).toOption).any givesLongMode = true := by
    decide +kernel
  cases decoded : Text.decodeAll Disk.longNumberBytes with
  | error => rw [decoded] at held; cases held
  | ok cs =>
    cases parsed : Toml.read cs with
    | error => simp only [decoded, parsed, Except.toOption, Option.bind_some, Option.any_none,
        Bool.false_eq_true] at held
    | ok table =>
      simp only [decoded, parsed, Except.toOption, Option.bind_some, Option.any_some] at held
      obtain ⟨n, long, rfl⟩ := exists_of_givesLongMode held
      exact ⟨n, long, _, cs, by rw [Disk.bytes, find_longNumber]; rfl, decoded, parsed⟩

/-- If it can be told which documents there are, loading returns settings, each the form of its value
    in effect, if and only if there is no reason to fail. Otherwise a problem of the configuration is
    told, unless a value in effect is refused that has no text. As only values in effect are refused,
    a covered one does no harm. -/
theorem load_returns_or_reports (d : Disk) (environment : Variables) (document : Option Path)
    (given : Table) :
    ((∃ (s : Settings) (documents : Documents), load d environment document given = .ok s ∧
        documents.Read d environment document ∧ ∀ setting : Setting,
          s.get setting = setting.form (documents.effective environment given setting)) ∧
      ¬LoadFails d environment document given) ∨
    (((∃ problem, load d environment document given = .error (.configuration problem) ∧
          IsConfiguration problem) ∨
        (load d environment document given = .error .tooLong ∧
          ∃ (documents : Documents) (setting : Setting), documents.Read d environment document ∧
            ¬setting.Takes (documents.effective environment given setting) ∧
            (documents.effective environment given setting).isWritable = false)) ∧
      LoadFails d environment document given) ∨
    ∃ problem, load d environment document given = .error problem ∧
      LoadEscapes d environment document problem := by
  rcases load_cases d environment document given with
    ⟨s, documents, done, read, values, fine⟩ | ⟨problem, failed, told, fails⟩ |
      ⟨documents, failed, read, setting, untaken, long⟩ | escaped
  · exact .inl ⟨⟨s, documents, done, read, fun setting => (values setting).2⟩, fine⟩
  · exact .inr (.inl ⟨.inl ⟨problem, failed, told⟩, fails⟩)
  · exact .inr (.inl
      ⟨.inr ⟨failed, documents, setting, read, untaken, long⟩, .refused read untaken⟩)
  · exact .inr (.inr escaped)

/-- A whole number may be too long for the message that refuses it: then loading fails, but no
    problem of the configuration is told. -/
theorem load_longNumber_untold :
    let environment : Variables := [("HOME", "/")]
    (∀ problem, ¬LoadEscapes .longNumber environment none problem) ∧
      LoadFails .longNumber environment none [] ∧
      load .longNumber environment none [] = .error .tooLong := by
  intro environment
  obtain ⟨n, long, holds⟩ := holds_longNumber
  have home : homePath? .longNumber environment = some (Path.parse "/.orbyt.toml") := by
    decide +kernel
  have absent : Disk.longNumber.hasEntry (Path.parse "/.orbyt.toml") = .ok false :=
    Disk.hasEntry_of_unlisted (show _ = [".orbyt.toml"] by decide +kernel) rfl (by decide)
      (by decide +kernel) (by decide +kernel)
  have here : Disk.longNumber.hasEntry (projectPath .longNumber) = .ok true := by
    rw [Disk.hasEntry, Disk.lookUp_eq_some_iff.mpr ⟨by decide, by decide, _, find_longNumber⟩]
    rfl
  have gives : Disk.longNumber.Gives (projectPath .longNumber) [("churn_mode", .int n)] :=
    .whole holds fun _ own => by cases own
  let documents : Documents := ⟨[], [("churn_mode", .int n)], []⟩
  have read : documents.Read .longNumber environment none :=
    ⟨⟨_, home, .absent absent⟩, .present here gives, .unnamed⟩
  have merged : documents.merged [] [] = [("churn_mode", .int n)] := rfl
  have ends : load .longNumber environment none [] = .error .tooLong := by
    rw [load_of_layers (read.layers rfl), merged, ofTable_long long]
    rfl
  refine ⟨fun _ => read.not_escapes, ?_, ends⟩
  rcases load_cases .longNumber environment none [] with
    ⟨s, _, loaded, -⟩ | ⟨_, told, -⟩ | ⟨documents, -, read, setting, untaken, -⟩ | ⟨_, -, escapes⟩
  · cases ends.symm.trans loaded
  · cases ends.symm.trans told
  · exact .refused read untaken
  · exact absurd escapes read.not_escapes

end Settings

end RepoAtlas
