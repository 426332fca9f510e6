import ClientRegen.Config.Settings
/-!
# Command lines

What the program is asked to do: a subcommand for each client package, options of the whole program
before or after it, and options of its own after it.

* Each level, before the subcommand and after it, is read on its own; where both give an option of
  the whole program, the later level wins.
* The value of an option is taken in when the next option is met or the level is at its end. Until
  then an unknown argument is reported before a missing value.
-/

namespace ClientRegen.CommandLine

/-- Why a command line is refused, or why help is shown instead. -/
inductive UsageFault where
  /-- An argument that is not known. -/
  | unknownArgument
  /-- An option without a value, or with an empty one. -/
  | invalidValue
  /-- A subcommand that is not known. -/
  | invalidSubcommand
  /-- An option that is given twice. -/
  | argumentConflict
  /-- A flag with a value. -/
  | tooManyValues
  /-- No subcommand. -/
  | missingSubcommand
  /-- Help was asked for. -/
  | displayHelp
  /-- Nothing was asked for. -/
  | displayHelpOnMissing
deriving DecidableEq, Repr

/-- The name of a fault. -/
def UsageFault.name : UsageFault → String
  | unknownArgument => "UnknownArgument"
  | invalidValue => "InvalidValue"
  | invalidSubcommand => "InvalidSubcommand"
  | argumentConflict => "ArgumentConflict"
  | tooManyValues => "TooManyValues"
  | missingSubcommand => "MissingSubcommand"
  | displayHelp => "DisplayHelp"
  | displayHelpOnMissing => "DisplayHelpOnMissingArgumentOrSubcommand"

/-- An option that takes a value. -/
inductive Setting where
  /-- The configuration file. -/
  | config
  /-- The directory of the specification. -/
  | apidocDir
  /-- The output directory. -/
  | outputDir
  /-- The generator's command. -/
  | generatorBin
deriving DecidableEq, Repr

/-- An option without a value. -/
inductive Flag where
  /-- More is logged, each time it is given. -/
  | verbose
  /-- The log is written as JSON. -/
  | jsonLogs
  /-- Help is shown. -/
  | help
  /-- The generator's command line is shown, and nothing is done. -/
  | dryRun
  /-- The report is written as JSON. -/
  | json
deriving DecidableEq, Repr

/-- An option. -/
inductive Known where
  /-- One that takes a value. -/
  | setting (setting : Setting)
  /-- One without a value. -/
  | flag (flag : Flag)
deriving DecidableEq, Repr

/-- The options of the whole program, by their long names. -/
def globalOptions : List (String × Known) := [
  ("config", .setting .config), ("verbose", .flag .verbose), ("json-logs", .flag .jsonLogs),
  ("help", .flag .help)]

/-- The options of a subcommand, by their long names. -/
def subcommandOptions : List (String × Known) := [
  ("apidoc-dir", .setting .apidocDir), ("output-dir", .setting .outputDir),
  ("generator-bin", .setting .generatorBin), ("dry-run", .flag .dryRun), ("json", .flag .json)]

/-- The options with short names. -/
def shortFlags : List (Char × Flag) :=
  [('v', .verbose), ('h', .help)]

/-- The subcommand for a client, and its other spelling. -/
def subcommandNames (client : Client) : List String :=
  ["generate-client-" ++ client.label, "openapi:generate-client-" ++ client.label]

/-- The client of a subcommand. -/
def subcommand? (name : String) : Option Client :=
  Client.all.find? fun c => (subcommandNames c).contains name

/-- The subcommand that shows help. -/
def helpName : String := "help"

/-- What one level of a command line gives. -/
structure Level where
  /-- The options with their values. -/
  settings : List (Setting × String)
  /-- The flags, as often as they are given. -/
  flags : List Flag
  /-- An option that was not taken in yet, and its value once that is read. -/
  pending : Option (Setting × Option String)

namespace Level

/-- Nothing was read. -/
def empty : Level :=
  ⟨[], [], none⟩

/-- Takes in an option and its value. Only the generator's command may be empty. -/
def takeIn (l : Level) (s : Setting) (value : String) : Except UsageFault Level :=
  if (l.settings.lookup s).isSome then .error .argumentConflict
  else if value = "" ∧ s ≠ .generatorBin then .error .invalidValue
  else .ok { l with settings := l.settings ++ [(s, value)] }

/-- Takes in what is pending. -/
def settle (l : Level) : Except UsageFault Level :=
  match l.pending with
  | none => .ok l
  | some (_, none) => .error .invalidValue
  | some (s, some value) => { l with pending := none }.takeIn s value

/-- Takes in a flag. -/
def raise (l : Level) (f : Flag) : Except UsageFault Level := do
  let l ← l.settle
  if f = .help then throw .displayHelp
  if f ≠ .verbose ∧ l.flags.contains f then throw .argumentConflict
  return { l with flags := l.flags ++ [f] }

/-- Takes in an option by its long name, with the value after its equals sign. -/
def long (l : Level) (options : List (String × Known)) (name : String) (value : Option String) :
    Except UsageFault Level :=
  match options.lookup name, value with
  | none, _ => .error .unknownArgument
  | some (.flag _), some _ => .error .tooManyValues
  | some (.flag f), none => l.raise f
  | some (.setting s), some value => do (← l.settle).takeIn s value
  | some (.setting s), none => do return { ← l.settle with pending := some (s, none) }

/-- Takes in flags by their short names. -/
def short (l : Level) : List Char → Except UsageFault Level
  | [] => .ok l
  | c :: cs =>
    match shortFlags.lookup c with
    | none => .error .unknownArgument
    | some f => do short (← l.raise f) cs

/-- Whether the next word is a value. -/
def awaitsValue (l : Level) : Bool :=
  match l.pending with
  | some (_, none) => true
  | _ => false

/-- Takes in the value of the option that is pending. -/
def giveValue (l : Level) (value : String) : Level :=
  { l with pending := l.pending.map fun p => (p.1, some value) }

/-- Whether nothing is given. -/
def isEmpty (l : Level) : Bool :=
  l.settings.isEmpty && l.flags.isEmpty

/-- Takes in what is pending at the end. A variable of the environment stands for a configuration
file that is not given, and may then not be empty. -/
def finish (l : Level) (fallback : Option String) : Except UsageFault Level := do
  let l ← l.settle
  if fallback = some "" ∧ (l.settings.lookup .config).isNone then throw .invalidValue
  return l

end Level

/-- What an argument looks like. -/
inductive Shape where
  /-- Two hyphens: no options follow. -/
  | escape
  /-- A long option, with the value after its equals sign. -/
  | long (name : String) (value : Option String)
  /-- Short options. -/
  | short (names : List Char)
  /-- A word. -/
  | word
deriving DecidableEq, Repr

/-- The shape of an argument. -/
def shapeOf (arg : String) : Shape :=
  match arg.toList with
  | ['-', '-'] => .escape
  | '-' :: '-' :: cs =>
    let name := cs.takeWhile (· ≠ '=')
    match cs.drop name.length with
    | _ :: value => .long (String.ofList name) (some (String.ofList value))
    | [] => .long (String.ofList name) none
  | '-' :: c :: cs => .short (c :: cs)
  | _ => .word

/-- Help on subcommands, which have to be there and have no subcommands of their own. -/
def helpOn : List String → UsageFault
  | [] => .displayHelp
  | [name] =>
    if name = helpName ∨ (subcommand? name).isSome then .displayHelp else .invalidSubcommand
  | _ => .invalidSubcommand

/-- The fault of a word that is neither a value nor a subcommand. -/
def strayWord (top escaped : Bool) (arg : String) : UsageFault :=
  if !top then .unknownArgument
  else if escaped ∧ (arg = helpName ∨ (subcommand? arg).isSome) then .unknownArgument
  else .invalidSubcommand

/-- Reads a level: what it gives, and the subcommand with the arguments after it. `top` tells the
level before the subcommand from the one after it. -/
def readLevel (top : Bool) (l : Level) :
    List String → Except UsageFault (Level × Option (Client × List String))
  | [] => .ok (l, none)
  | arg :: args =>
    let started := if top ∧ !l.awaitsValue then subcommand? arg else none
    match started with
    | some client => .ok (l, some (client, args))
    | none =>
      if top ∧ !l.awaitsValue ∧ arg = helpName then .error (helpOn args)
      else
        match shapeOf arg with
        | .escape =>
          match args with
          | [] => .ok (l, none)
          | word :: _ => .error (strayWord top true word)
        | .long name value => do
          let options := if top then globalOptions else globalOptions ++ subcommandOptions
          readLevel top (← l.long options name value) args
        | .short names => do readLevel top (← l.short names) args
        | .word =>
          if l.awaitsValue then readLevel top (l.giveValue arg) args
          else .error (strayWord top false arg)

/-- What the program is asked to do. -/
structure Invocation where
  /-- The kind of package. -/
  client : Client
  /-- The configuration file. -/
  config : Option Path
  /-- How much is logged. -/
  verbose : Nat
  /-- Whether the log is written as JSON. -/
  jsonLogs : Bool
  /-- What wins over the configuration file. -/
  overrides : Overrides
  /-- Whether only the generator's command line is shown. -/
  dryRun : Bool
  /-- Whether the report is written as JSON. -/
  json : Bool

/-- The greatest count of a flag. -/
def countLimit : Nat := 255

/-- What two levels ask for together. -/
def combine (client : Client) (top sub : Level) (fallback : Option String) : Invocation :=
  let count (l : Level) : Nat := min (l.flags.count .verbose) countLimit
  let path (s : Setting) : Option Path := (sub.settings.lookup s).map Path.mk
  { client
    config :=
      (((sub.settings.lookup .config).or (top.settings.lookup .config)).or fallback).map Path.mk
    verbose := if count sub = 0 then count top else count sub
    jsonLogs := top.flags.contains .jsonLogs || sub.flags.contains .jsonLogs
    overrides := ⟨path .apidocDir, path .outputDir, sub.settings.lookup .generatorBin⟩
    dryRun := sub.flags.contains .dryRun
    json := sub.flags.contains .json }

/-- Reads a command line without the program's name. `fallback` is the configuration file that the
environment names. -/
def parse (fallback : Option String) (args : List String) : Except UsageFault Invocation := do
  let (top, rest) ← readLevel true .empty args
  match rest with
  | some (client, args) => do
    let (sub, _) ← readLevel false .empty args
    let sub ← sub.finish fallback
    let top ← top.finish fallback
    return combine client top sub fallback
  | none => do
    let top ← top.finish fallback
    throw (if top.isEmpty ∧ fallback.isNone then .displayHelpOnMissing else .missingSubcommand)

end ClientRegen.CommandLine
