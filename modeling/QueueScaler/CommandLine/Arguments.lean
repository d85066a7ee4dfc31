import QueueScaler.Text.Scanner
/-!
# Command-line arguments

The words of a command line, and what they ask for. Options may stand in any order, each at most
once, and those that take a value have it behind an equals sign or as the next word. A word that
starts with a hyphen is never a value.

## Main definitions

* `CommandLine.Key`: the options.
* `CommandLine.scanOptions`: the options in front.
* `CommandLine.Command`: what a command line asks for.
* `CommandLine.Command.parse?`: reads a command line.
-/

namespace QueueScaler.CommandLine

/-- The options. -/
inductive Key where
  /-- The file of the configuration. -/
  | config
  /-- The port of the status interface. -/
  | port
  /-- Whether commands are only noted. -/
  | dryRun
  /-- The application label. -/
  | application
  /-- The form of the log. -/
  | logFormat
  /-- Whether help is asked for. -/
  | help
  deriving DecidableEq, Repr

namespace Key

/-- Whether an option has a value. -/
def takesValue : Key → Bool
  | .dryRun => false
  | .help => false
  | _ => true

/-- The option of a long name. -/
def ofLong? (name : String) : Option Key :=
  if name = "config" then some .config
  else if name = "port" then some .port
  else if name = "dry-run" then some .dryRun
  else if name = "application" then some .application
  else if name = "log-format" then some .logFormat
  else if name = "help" then some .help
  else none

/-- The option of a short name. -/
def ofShort? (c : Char) : Option Key :=
  if c = 'c' then some .config
  else if c = 'h' then some .help
  else none

end Key

/-! ### Words -/

/-- What a word is by its look. -/
inductive Word where
  /-- An option, with the value that is attached to it. -/
  | option (key : Option Key) (attached : Option String)
  /-- The end of all options. -/
  | endOfOptions
  /-- Anything else. A single hyphen is no option. -/
  | plain
  deriving DecidableEq, Repr

/-- What a word is by its look. A value attached to a short name may have an equals sign in front.
-/
def Word.ofString (s : String) : Word :=
  match s.toList with
  | ['-', '-'] => .endOfOptions
  | '-' :: '-' :: long =>
    let key := Key.ofLong? (String.ofList (long.takeWhile (· ≠ '=')))
    match long.dropWhile (· ≠ '=') with
    | _ :: value => .option key (some (String.ofList value))
    | [] => .option key none
  | '-' :: short :: value =>
    match value with
    | [] => .option (Key.ofShort? short) none
    | '=' :: value => .option (Key.ofShort? short) (some (String.ofList value))
    | _ => .option (Key.ofShort? short) (some (String.ofList value))
  | _ => .plain

/-- The options in front of the first other word, and the rest. Each has to be one of the options
allowed here; an option without a value stands with an empty one. -/
def scanOptions (allowed : List Key) : List String → Option (List (Key × String) × List String)
  | [] => some ([], [])
  | word :: rest =>
    match Word.ofString word with
    | .option (some key) attached =>
      if key ∉ allowed then none
      else if key.takesValue then
        match attached with
        | some value => (scanOptions allowed rest).map fun (os, r) ↦ ((key, value) :: os, r)
        | none =>
          match rest with
          | [] => none
          | value :: rest =>
            if Word.ofString value = .plain then
              (scanOptions allowed rest).map fun (os, r) ↦ ((key, value) :: os, r)
            else none
      else if attached.isNone then
        (scanOptions allowed rest).map fun (os, r) ↦ ((key, "") :: os, r)
      else none
    | .option none _ => none
    | _ => some ([], word :: rest)

/-! ### Values -/

/-- A port as written: a number with 16 bits, perhaps with a sign. -/
def port? (value : String) : Option Nat :=
  match value.toList with
  | '-' :: digits => if digits.head? = some '+' then none else Digits.count? 1 digits
  | cs => Digits.count? 65536 cs

/-- Whether an option may have a value. -/
def Key.accepts (key : Key) (value : String) : Bool :=
  match key with
  | .config => !value.isEmpty
  | .port => (port? value).isSome
  | .logFormat => value = "text" || value = "json"
  | _ => true

/-- Whether some options may stand together: no option twice, and only with values that they
accept. -/
def acceptable (options : List (Key × String)) : Bool :=
  decide (options.map Prod.fst).Nodup && options.all fun (key, value) ↦ key.accepts value

/-- The value of an option. -/
def value? (options : List (Key × String)) (key : Key) : Option String :=
  (options.find? (·.1 = key)).map Prod.snd

/-! ### Commands -/

/-- How the daemon is to run. -/
structure RunOptions where
  /-- The file of the configuration. -/
  config : String
  /-- The port of the status interface. -/
  port : Nat
  /-- Whether commands are only noted. -/
  dryRun : Bool
  /-- The application label, if it is to differ from the configuration. -/
  application : Option String
  deriving DecidableEq, Repr

/-- What a command line asks for. -/
inductive Command where
  /-- To run the daemon. -/
  | run (options : RunOptions)
  /-- To check a configuration. -/
  | check (config : String)
  /-- To be told about the commands. -/
  | help
  deriving DecidableEq, Repr

namespace Command

/-- The file of the configuration if none is named. -/
def defaultConfig : String := "cascade.toml"

/-- The port of the status interface if none is named. -/
def defaultPort : Nat := 8080

/-- The options of the command of a given name, and the command that they come to. -/
def named? (name : String) : Option (List Key × (List (Key × String) → Command)) :=
  if name = "run" then
    some ([.config, .port, .dryRun, .application, .logFormat, .help], fun options ↦
      .run {
        config := (value? options .config).getD defaultConfig
        port := ((value? options .port).bind port?).getD defaultPort
        dryRun := (value? options .dryRun).isSome
        application := value? options .application })
  else if name = "check" then
    some ([.config, .logFormat, .help], fun options ↦
      .check ((value? options .config).getD defaultConfig))
  else none

/-- The command of a given name with the words after it. -/
def withWords? (name : String) (words : List String) : Option Command :=
  match named? name with
  | none => none
  | some (allowed, command) =>
    match scanOptions allowed words with
    | none => none
    | some (options, rest) =>
      if ¬ acceptable options then none
      else if (value? options .help).isSome then some .help
      else if rest = [] ∨ rest = ["--"] then some (command options)
      else none

/-- Reads a command line: options that go with every command, the name of a command, and its own
options. -/
def parse? (words : List String) : Option Command :=
  match scanOptions [.logFormat, .help] words with
  | none => none
  | some (options, rest) =>
    if ¬ acceptable options then none
    else if (value? options .help).isSome then some .help
    else
      match rest with
      | ["help"] => some .help
      | name :: words => withWords? name words
      | [] => none

end Command

end QueueScaler.CommandLine
