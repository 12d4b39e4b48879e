/-!
# Command lines

The words after the program's name: options and a command, which has options of its own. An option
takes its value from the same word (`--output=json`, `-ojson`, `-o=json`) or from the next one, which
must not look like an option. No option may be given twice at one place. Where the help or the version
is asked for, the rest of the line is not looked at; what comes before must be right.

Main definition: `Request.read`.
-/

namespace EcosystemSetup.CommandLine

/-- How results are written. -/
inductive OutputFormat where
  | human
  | json
  deriving DecidableEq, Repr, Inhabited

/-- The format of a name. -/
def OutputFormat.ofName? : String → Option OutputFormat
  | "human" => some .human
  | "json" => some .json
  | _ => none

/-- Where words are read: before the command, or after one. -/
inductive Place where
  | top
  | run
  | plan
  | state
  deriving DecidableEq, Repr, Inhabited

/-- The place after a command. -/
def Place.ofCommand? : String → Option Place
  | "run" => some .run
  | "plan" => some .plan
  | "state" => some .state
  | _ => none

/-- An option with a value. -/
inductive Key where
  | output
  | config
  | registry
  | namespaceName
  deriving DecidableEq, Repr, Inhabited

/-- The long name of an option. -/
def Key.long : Key → String
  | .output => "output"
  | .config => "config"
  | .registry => "registry"
  | .namespaceName => "namespace"

/-- The letter of an option. -/
def Key.letter? : Key → Option Char
  | .output => some 'o'
  | .config => some 'c'
  | .registry => none
  | .namespaceName => some 'n'

/-- Whether an option may have a value: a path must not be empty. -/
def Key.admits (key : Key) (value : String) : Bool :=
  match key with
  | .output => (OutputFormat.ofName? value).isSome
  | .config => value ≠ ""
  | .registry => value ≠ ""
  | .namespaceName => true

/-- The options of a place. -/
def Place.keys : Place → List Key
  | .top => [.output]
  | .run => [.output, .config, .registry]
  | .plan => [.output, .config, .registry]
  | .state => [.output, .namespaceName]

/-- The values given so far. -/
abbrev Values := List (Key × String)

/-! ## Words -/

/-- What a word asks for. -/
inductive Demand where
  | help
  | version
  | setting (key : Key) (value : String)
  /-- The value of an option is the next word. -/
  | pending (key : Key)
  | misuse

/-- The demand of an option with the value that came with it. -/
def Demand.ofKey (key : Option Key) (value : Option String) : Demand :=
  match key, value with
  | some key, some value => .setting key value
  | some key, none => .pending key
  | none, _ => .misuse

/-- What a word of the form `--name` or `--name=value` asks for. -/
def longDemand (place : Place) (word : List Char) : Demand :=
  let name := String.ofList (word.takeWhile (· ≠ '='))
  let value := match word.dropWhile (· ≠ '=') with
    | _ :: value => some (String.ofList value)
    | [] => none
  if name = "help" then (if value.isNone then .help else .misuse)
  else if name = "version" && place = .top then (if value.isNone then .version else .misuse)
  else .ofKey (place.keys.find? fun k => k.long == name) value

/-- What a word of the form `-letter` asks for, a value perhaps behind the letter. -/
def shortDemand (place : Place) (letter : Char) (rest : List Char) : Demand :=
  if letter = 'h' then .help
  else if letter = 'V' && place = .top then .version
  else
    let value := match rest with
      | [] => none
      | '=' :: value => some (String.ofList value)
      | value => some (String.ofList value)
    .ofKey (place.keys.find? fun k => k.letter? == some letter) value

/-- A word before or after the command: an option, the mark after which no options come, or plain. -/
inductive Word where
  | option (demand : Demand)
  | endOfOptions
  | plain (s : String)

/-- What a word is. A dash alone is plain. -/
def Word.read (place : Place) (s : String) : Word :=
  match s.toList with
  | ['-', '-'] => .endOfOptions
  | '-' :: '-' :: word => .option (longDemand place word)
  | '-' :: letter :: rest => .option (shortDemand place letter rest)
  | _ => .plain s

/-! ## Lines -/

/-- What the words of a place come to. -/
inductive Scan where
  | help
  | version
  | misuse
  | ended (values : Values)
  /-- A plain word, and the words after it. -/
  | word (values : Values) (s : String) (rest : List String)

/-- Adds a value, unless the option has one or may not have this one. -/
def addValue (values : Values) (key : Key) (value : String) : Option Values :=
  if key.admits value && (values.lookup key).isNone then some (values ++ [(key, value)]) else none

/-- Reads words up to the first plain one. -/
def scan (place : Place) (values : Values) : List String → Scan
  | [] => .ended values
  | s :: rest =>
    match Word.read place s with
    | .plain s => .word values s rest
    | .endOfOptions => if rest = [] then .ended values else .misuse
    | .option .help => .help
    | .option .version => .version
    | .option .misuse => .misuse
    | .option (.setting key value) =>
      match addValue values key value with
      | some values => scan place values rest
      | none => .misuse
    | .option (.pending key) =>
      match rest with
      | [] => .misuse
      | next :: rest =>
        match Word.read place next with
        | .plain value =>
          match addValue values key value with
          | some values => scan place values rest
          | none => .misuse
        | _ => .misuse

/-- A command with its options. -/
inductive Command where
  | run (config : String) (registry : Option String)
  | plan (config : String) (registry : Option String)
  | state (namespaceName : String)
  deriving DecidableEq, Repr, Inhabited

/-- What a command line asks for. -/
inductive Request where
  | command (output : OutputFormat) (command : Command)
  | help (place : Place)
  | version
  | misuse
  deriving DecidableEq, Repr, Inhabited

/-- The path of the configuration: from the line, or from the environment. -/
def configPath? (fromEnvironment : Option String) (values : Values) : Option String :=
  match values.lookup .config with
  | some path => some path
  | none => fromEnvironment.filter fun path => Key.config.admits path

/-- The command at a place, if nothing it needs is missing. -/
def Command.ofValues? (fromEnvironment : Option String) (values : Values) : Place → Option Command
  | .top => none
  | .run =>
    (configPath? fromEnvironment values).map fun path => .run path (values.lookup .registry)
  | .plan =>
    (configPath? fromEnvironment values).map fun path => .plan path (values.lookup .registry)
  | .state => some (.state ((values.lookup .namespaceName).getD "ecosystem"))

/-- The output format: the command's own option comes before that of the top. -/
def outputOf (top values : Values) : OutputFormat :=
  (((values.lookup .output).or (top.lookup .output)).bind OutputFormat.ofName?).getD .human

/-- Reads the words after a command. -/
def readCommand (fromEnvironment : Option String) (top : Values) (place : Place)
    (words : List String) : Request :=
  match scan place [] words with
  | .help => .help place
  | .version => .misuse
  | .misuse => .misuse
  | .word _ _ _ => .misuse
  | .ended values =>
    match Command.ofValues? fromEnvironment values place with
    | some command => .command (outputOf top values) command
    | none => .misuse

/-- Reads the words after `help`. -/
def readHelp : List String → Request
  | [] => .help .top
  | [s] =>
    match Place.ofCommand? s with
    | some place => .help place
    | none => .misuse
  | _ => .misuse

/-- Reads a command line, with the path of the configuration that the environment names. -/
def Request.read (fromEnvironment : Option String) (words : List String) : Request :=
  match scan .top [] words with
  | .help => .help .top
  | .version => .version
  | .misuse => .misuse
  | .ended _ => .misuse
  | .word top s rest =>
    if s = "help" then readHelp rest
    else
      match Place.ofCommand? s with
      | some place => readCommand fromEnvironment top place rest
      | none => .misuse

end EcosystemSetup.CommandLine
