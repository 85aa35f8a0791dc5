import RepoAtlas.Text.Split

/-! # Words of a command line

A command line consists of switches and plain words. A switch has a long name, perhaps a short one,
and may take a value: behind an equals sign, as the next word, or, for a short name, right behind
it. Short switches may be joined. Behind two dashes all words are plain.
-/

namespace RepoAtlas.CommandLine

/-- A switch of any command. -/
inductive Switch where
  | version
  | help
  | output
  | noFolders
  | relativeFirst
  | churn
  | config
  | verbose
  | quiet
  | top
  | json
  | model
  | raw
  deriving DecidableEq, Repr

namespace Switch

/-- The long name of a switch, without its dashes. -/
def long : Switch → String
  | .version => "version"
  | .help => "help"
  | .output => "output"
  | .noFolders => "no-folders"
  | .relativeFirst => "relative-first"
  | .churn => "churn"
  | .config => "config"
  | .verbose => "verbose"
  | .quiet => "quiet"
  | .top => "top"
  | .json => "json"
  | .model => "model"
  | .raw => "raw"

/-- The short name of a switch. -/
def short? : Switch → Option Char
  | .output => some 'o'
  | .config => some 'c'
  | .verbose => some 'v'
  | .quiet => some 'q'
  | .top => some 'n'
  | .model => some 'm'
  | _ => none

/-- Does a value belong to the switch? -/
def takesValue : Switch → Bool
  | .output | .churn | .config | .top | .model => true
  | _ => false

end Switch

/-- The switches and plain words of a command line. -/
structure Given where
  /-- Switches with their values, in order. -/
  switches : List (Switch × String)
  words : List String
  deriving DecidableEq, Repr

namespace Given

/-- Is the switch given? -/
def has (g : Given) (s : Switch) : Bool := g.switches.any fun given => given.1 == s

/-- The value of a switch; of several the last counts. -/
def value? (g : Given) (s : Switch) : Option String := g.switches.reverse.lookup s

/-- With switches put in front. -/
def addSwitches (g : Given) (more : List (Switch × String)) : Given :=
  { g with switches := more ++ g.switches }

/-- With a plain word put in front. -/
def addWord (g : Given) (word : String) : Given := { g with words := word :: g.words }

end Given

/-- What a word that starts with a dash stands for: switches without values and perhaps one with a
    value, which stands in the word itself or is the next word. -/
structure Dashed where
  flags : List Switch
  valued : Option (Switch × Option String)
  deriving DecidableEq, Repr

/-- A switch without a value, or with one that is still to come. -/
def Dashed.ofSwitch (s : Switch) (value : Option String) : Option Dashed :=
  if s.takesValue then some { flags := [], valued := some (s, value) }
  else if value.isSome then none
  else some { flags := [s], valued := none }

/-- The part of a text before its first equals sign and the part behind it, if there is one. -/
def splitValue (cs : List Char) : List Char × Option String :=
  match cs.dropWhile (· != '=') with
  | [] => (cs, none)
  | _ :: value => (cs.takeWhile (· != '='), some (String.ofList value))

/-- The switches behind one dash. -/
def shortDashed? (known : List Switch) : List Char → Option Dashed
  | [] => some { flags := [], valued := none }
  | c :: rest =>
    match known.find? (·.short? == some c) with
    | none => none
    | some s =>
      if s.takesValue then
        some { flags := []
               valued := some (s, if rest.isEmpty then none else some (String.ofList rest)) }
      else (shortDashed? known rest).map fun d => { d with flags := s :: d.flags }

/-- The meaning of a word that starts with a dash, if it has one. -/
def dashed? (known : List Switch) (word : List Char) : Option Dashed :=
  match word with
  | '-' :: '-' :: body =>
    let (name, value) := splitValue body
    (known.find? fun s => s.long.toList == name).bind fun s => Dashed.ofSwitch s value
  | '-' :: body => shortDashed? known body
  | _ => none

/-- Does a word stand for switches? A lone dash does not. -/
def isDashed (word : String) : Bool :=
  match word.toList with
  | '-' :: _ :: _ => true
  | _ => false

/-- The switches and plain words of a command line, if all switches are known and have their
    values. If `mixed` does not hold, the first plain word ends the switches. -/
def read (known : List Switch) (mixed : Bool) : List String → Option Given
  | [] => some { switches := [], words := [] }
  | word :: rest =>
    if word = "--" then some { switches := [], words := rest }
    else if isDashed word then
      match dashed? known word.toList with
      | none => none
      | some d =>
        let flags := d.flags.map fun s => (s, "")
        match d.valued with
        | none => (read known mixed rest).map (·.addSwitches flags)
        | some (s, some value) =>
          (read known mixed rest).map (·.addSwitches (flags ++ [(s, value)]))
        | some (s, none) =>
          match rest with
          | [] => none
          | value :: rest => (read known mixed rest).map (·.addSwitches (flags ++ [(s, value)]))
    else if mixed then (read known mixed rest).map (·.addWord word)
    else some { switches := [], words := word :: rest }

end RepoAtlas.CommandLine
