import RepoAtlas.Path
import RepoAtlas.Script.LineEnd
import RepoAtlas.Text.Lowercase

/-! # Languages

Which files are listed, and which of them are read as scripts. Every listed file becomes a node;
only scripts carry imports.
-/

namespace RepoAtlas

namespace Language

/-- The extensions of listed files, dot included. -/
def sourceExtensions : List String :=
  [".js", ".ts", ".jsx", ".tsx", ".py", ".java", ".cpp", ".c", ".cs", ".php", ".rb", ".go", ".rs",
   ".html", ".css", ".json", ".sh", ".yml", ".yaml"]

/-- The names of directories that are never entered. -/
def excludedDirectories : List String :=
  ["node_modules", ".git", "dist", "out", ".next", "build"]

/-- The suffixes of scripts with their dialects, in the order in which missing suffixes are
    tried. -/
def scriptSuffixes : List (String × Script.Dialect) :=
  [(".js", .javascript), (".ts", .typescript), (".jsx", .javascript), (".tsx", .tsx)]

/-- The dialect that a suffix stands for. -/
def dialectOfSuffix? (suffix : String) : Option Script.Dialect :=
  (scriptSuffixes.find? (·.1 == suffix)).map (·.2)

/-- The dialect of a script by its path. -/
def dialect? (p : Path) : Option Script.Dialect := dialectOfSuffix? (Text.lower p.suffix)

/-- The name of a dialect. -/
def dialectName : Script.Dialect → String
  | .javascript => "javascript"
  | .typescript => "typescript"
  | .tsx => "tsx"

/-- The dialect of a name. -/
def dialectOfName? (name : String) : Option Script.Dialect :=
  [Script.Dialect.javascript, .typescript, .tsx].find? fun d => dialectName d == name

/-- The name of the language of a path. -/
def nameOf (p : Path) : String := ((dialect? p).map dialectName).getD "unknown"

end Language

end RepoAtlas
