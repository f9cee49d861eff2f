/-
RouteRegistry/Command/Line.lean

Reading the command line.

The words are read from left to right by the options of the level they are on:
those of the program up to the name of the command, then those of the command,
which include the global ones.  The first word that asks for help or, in front
of the command, for the version settles what is asked; so does the first that
makes no sense.
-/
import RouteRegistry.Command

namespace RouteRegistry

/-- A command with what is set for the program as a whole. -/
structure Invocation where
  command : Command
  logDir : Option Path
  logLevel : Option String
  deriving DecidableEq, Inhabited

/-- What a command line asks for. -/
inductive Request where
  | invoke (i : Invocation)
  | version
  | help
  | misuse
  deriving DecidableEq, Inhabited

namespace CommandLine

/-! ### Options -/

/-- Where on the command line a word stands: in front of the command, or behind it. -/
inductive Level where
  | program
  | generate
  | routes
  deriving DecidableEq, Inhabited

/-- What the options of all commands can set. -/
inductive Setting where
  | logDir
  | logLevel
  | out
  | config
  | dryRun
  | json
  deriving DecidableEq, Inhabited

/-- What an option is for. -/
inductive OptionKind where
  /-- It sets something to the value that comes with it. -/
  | valued (s : Setting)
  /-- It sets something by being there. -/
  | flag (s : Setting)
  | help
  | version
  deriving DecidableEq, Inhabited

/-- The options that stand in front of a command as well as behind it. -/
def globalOptions : List (String × OptionKind) :=
  [("log-dir", .valued .logDir), ("log-level", .valued .logLevel), ("help", .help)]

/-- The options by their long names. -/
def options : Level → List (String × OptionKind)
  | .program => ("version", .version) :: globalOptions
  | .generate =>
    [("out", .valued .out), ("config", .valued .config), ("dry-run", .flag .dryRun)] ++
      globalOptions
  | .routes => [("config", .valued .config), ("json", .flag .json)] ++ globalOptions

/-- A path must not be empty; all else may be. -/
def accepts (s : Setting) (value : String) : Bool :=
  match s with
  | .logDir | .out | .config => value != ""
  | .logLevel | .dryRun | .json => true

/-! ### Words -/

/-- What one word of a level is. -/
inductive Word where
  /-- Two dashes: no options follow. -/
  | ender
  | long (name : String) (value : Option String)
  | short (letters : String)
  | plain (text : String)
  deriving DecidableEq, Inhabited

/-- A word is told apart by its hyphens.  A single hyphen alone is a plain word, and so is the empty
one. -/
def Word.ofText (text : String) : Word :=
  match text.toList with
  | ['-', '-'] => .ender
  | '-' :: '-' :: cs =>
    let name := cs.takeWhile (· ≠ '=')
    .long (String.ofList name)
      (match cs.drop name.length with
      | [] => none
      | _ :: value => some (String.ofList value))
  | '-' :: c :: cs => .short (String.ofList (c :: cs))
  | _ => .plain text

/-- Whether the word can be the value of the option in front of it. -/
def isValue (text : String) : Bool := Word.ofText text == .plain text

/-- What the words of one level set: each thing at most once, and at most one path. -/
structure Settings where
  values : List (Setting × String)
  path : Option String
  deriving DecidableEq, Inhabited

namespace Settings

/-- Nothing is set yet. -/
def empty : Settings := ⟨[], none⟩

/-- The text that was given for the setting. -/
def value? (s : Settings) (k : Setting) : Option String := s.values.lookup k

/-- The setting as a path. -/
def path? (s : Settings) (k : Setting) : Option Path := (s.value? k).map Path.mk

/-- The setting was given. -/
def has (s : Settings) (k : Setting) : Bool := (s.value? k).isSome

/-- The settings with one more value; none if there is a value already or this one is not
accepted. -/
def set? (s : Settings) (k : Setting) (value : String) : Option Settings :=
  if s.has k ∨ !accepts k value then none else some { s with values := s.values ++ [(k, value)] }

/-- The settings with the path; there is one path, and it is not empty. -/
def setPath? (s : Settings) (text : String) : Option Settings :=
  if s.path.isSome ∨ text = "" then none else some { s with path := some text }

end Settings

/-! ### Levels -/

/-- How reading the words of a level ends. -/
inductive LevelEnd where
  | settled (r : Request)
  | finished (s : Settings)
  /-- At a plain word, which names a command on the level of the program. -/
  | word (s : Settings) (text : String) (rest : List String)
  deriving DecidableEq, Inhabited

/-- Goes on if something could be set. -/
def andThen (s : Option Settings) (next : Settings → LevelEnd) : LevelEnd :=
  match s with
  | none => .settled .misuse
  | some s => next s

/-- The paths that follow two dashes. -/
def readPaths (level : Level) (s : Settings) (texts : List String) : LevelEnd :=
  if level = .program ∧ texts ≠ [] then .settled .misuse
  else andThen (texts.foldlM Settings.setPath? s) .finished

/-- Reads words until a command is named, the words are used up, or one of them settles the request.
A short word that begins with `h` asks for help whatever letters follow it. -/
def readLevel (level : Level) (s : Settings) : List String → LevelEnd
  | [] => .finished s
  | text :: rest =>
    match Word.ofText text with
    | .ender => readPaths level s rest
    | .short letters =>
      if letters.startsWith "h" then .settled .help
      else if letters.startsWith "V" ∧ level = .program then .settled .version
      else .settled .misuse
    | .plain text =>
      if level = .program then .word s text rest
      else andThen (s.setPath? text) fun s => readLevel level s rest
    | .long name attached =>
      match (options level).lookup name, attached, rest with
      | some .help, none, _ => .settled .help
      | some .version, none, _ => .settled .version
      | some (.flag k), none, rest => andThen (s.set? k "") fun s => readLevel level s rest
      | some (.valued k), some value, rest => andThen (s.set? k value) fun s => readLevel level s rest
      | some (.valued k), none, value :: rest =>
        if isValue value then andThen (s.set? k value) fun s => readLevel level s rest
        else .settled .misuse
      | _, _, _ => .settled .misuse

/-- The command of a level that is read to its end. -/
def command? (level : Level) (s : Settings) : Option Command :=
  match level, s.path with
  | .generate, some path => some (.generate ⟨⟨path⟩, s.path? .out, s.path? .config, s.has .dryRun⟩)
  | .routes, some path => some (.routes ⟨⟨path⟩, s.path? .config, s.has .json⟩)
  | _, _ => none

/-- Reads the words of a command; what it sets globally wins over what is set in front of it. -/
def readCommand (program : Settings) (level : Level) (texts : List String) : Request :=
  match readLevel level .empty texts with
  | .settled r => r
  | .word _ _ _ => .misuse
  | .finished s =>
    match command? level s with
    | none => .misuse
    | some c =>
      .invoke ⟨c, (s.path? .logDir).or (program.path? .logDir),
        (s.value? .logLevel).or (program.value? .logLevel)⟩

/-- The level of the command with the name. -/
def levelOf? (name : String) : Option Level :=
  [("generate", Level.generate), ("routes", .routes)].lookup name

/-- The topics of the command `help`. -/
def isTopic (texts : List String) : Bool :=
  match texts with
  | [] => true
  | [topic] => topic == "help" || (levelOf? topic).isSome
  | _ => false

/-- What the words of a command line ask for.  Without a command they are misused. -/
def read (texts : List String) : Request :=
  match readLevel .program .empty texts with
  | .settled r => r
  | .finished _ => .misuse
  | .word s name rest =>
    match levelOf? name with
    | some level => readCommand s level rest
    | none => if name = "help" ∧ isTopic rest then .help else .misuse

end CommandLine

end RouteRegistry
