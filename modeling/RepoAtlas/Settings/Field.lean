/-! # Names of settings

The settings that a document, a variable or a caller may give, in their fixed order, with the name
of each and the kind of text that its variable holds.
-/

namespace RepoAtlas

/-- A setting. -/
inductive Setting where
  | extensions
  | excludedDirs
  | ignoreFile
  | respectIgnoreFile
  | includeFolders
  | relativeFirst
  | churnMode
  | gitTimeoutSeconds
  | workers
  | topN
  | verbosity
  | explainModel
  | explainMaxChars
  deriving DecidableEq, Repr

/-- What the text of a variable stands for. -/
inductive VariableKind where
  | flag
  | whole
  | real
  | text
  /-- A list has no text of its own; such a variable sets nothing. -/
  | sequence
  deriving DecidableEq, Repr

namespace Setting

/-- All settings in order. -/
def all : List Setting :=
  [.extensions, .excludedDirs, .ignoreFile, .respectIgnoreFile, .includeFolders, .relativeFirst,
   .churnMode, .gitTimeoutSeconds, .workers, .topN, .verbosity, .explainModel, .explainMaxChars]

/-- The name of a setting in documents. -/
def name : Setting → String
  | .extensions => "extensions"
  | .excludedDirs => "excluded_dirs"
  | .ignoreFile => "ignore_file"
  | .respectIgnoreFile => "respect_ignore_file"
  | .includeFolders => "include_folders"
  | .relativeFirst => "relative_first"
  | .churnMode => "churn_mode"
  | .gitTimeoutSeconds => "git_timeout_seconds"
  | .workers => "workers"
  | .topN => "top_n"
  | .verbosity => "verbosity"
  | .explainModel => "explain_model"
  | .explainMaxChars => "explain_max_chars"

/-- The setting of a name. -/
def ofName? (name : String) : Option Setting := all.find? (·.name == name)

/-- The environment variable of a setting. -/
def variableName (s : Setting) : String :=
  "ORBYT_" ++ String.ofList (s.name.toList.map Char.toUpper)

/-- What the text of a setting's variable stands for. -/
def variableKind : Setting → VariableKind
  | .extensions | .excludedDirs => .sequence
  | .respectIgnoreFile | .includeFolders | .relativeFirst => .flag
  | .gitTimeoutSeconds | .workers | .topN | .explainMaxChars => .whole
  | .ignoreFile | .churnMode | .verbosity | .explainModel => .text

end Setting

end RepoAtlas
