import FlatLayout.Config

/-!
# Command line arguments

The arguments of the program: a subcommand with its options, and options that may stand in front of
it or behind it.

## Main definitions

* `Arguments`, `Command`, `SourceArgs` — what the arguments ask for
* `UsageError` — why a list of arguments asks for nothing
* `Arguments.parse` — reads the arguments

## Implementation notes

An option without its value in the same argument takes the next argument, unless that looks like an
option. The value is only looked at when the next option begins or the arguments end, so an unknown
argument is reported before a bad value in front of it. The options of a level are collected in
order as `Setting`s and read off at the end.
-/

namespace FlatLayout

/-- Where the declarations come from and how they are laid out. -/
structure SourceArgs where
  input : String
  /-- Units that only contribute declarations. -/
  aux : List String
  config : Option String
  target : Option Target
  defines : List String
  noInline : Bool
  noPadding : Bool

/-- What is to be done. -/
inductive Command where
  /-- Flatten the marked structs of the input. -/
  | flatten (source : SourceArgs) (format : Option OutputFormat) (output report : Option String)
      (verify : Bool)
  /-- Show layouts. -/
  | inspect (source : SourceArgs) (type : Option String) (accessors : Bool)

/-- What the arguments ask for. -/
structure Arguments where
  command : Command
  logLevel : String
  noColor : Bool

/-- Why arguments ask for nothing. -/
inductive UsageError where
  | displayHelp
  | displayVersion
  /-- There are no arguments at all. -/
  | nothingGiven
  | missingSubcommand
  | invalidSubcommand
  | unknownArgument
  /-- A value is missing or empty. -/
  | invalidValue
  /-- A value is not one of those allowed. -/
  | valueValidation
  /-- A flag is given a value. -/
  | tooManyValues
  /-- An option is given twice. -/
  | argumentConflict
  | missingRequiredArgument
  deriving DecidableEq

namespace CommandLine

/-- The options of the program. -/
inductive Key where
  | logLevel
  | noColor
  | help
  | version
  | input
  | aux
  | config
  | target
  | define
  | noInline
  | noPadding
  | format
  | output
  | report
  | verify
  | type
  | accessors
  deriving DecidableEq

/-- The subcommands. -/
inductive Verb where
  | flatten
  | inspect
  deriving DecidableEq

/-- An option with its long and its short name. -/
structure Spec where
  key : Key
  long : String
  short : Option Char

/-- The options that every level has. -/
def globalSpecs : List Spec :=
  [⟨.logLevel, "log-level", some 'l'⟩, ⟨.noColor, "no-color", none⟩, ⟨.help, "help", some 'h'⟩]

/-- The options that say where the declarations come from. -/
def sourceSpecs : List Spec :=
  [⟨.input, "input", some 'i'⟩, ⟨.aux, "aux", some 'a'⟩, ⟨.config, "config", some 'c'⟩,
    ⟨.target, "target", some 't'⟩, ⟨.define, "define", some 'D'⟩, ⟨.noInline, "no-inline", none⟩,
    ⟨.noPadding, "no-padding", none⟩]

/-- The options in front of a subcommand, or behind it. -/
def specs : Option Verb → List Spec
  | none => globalSpecs ++ [⟨.version, "version", some 'V'⟩]
  | some .flatten => globalSpecs ++ sourceSpecs ++
    [⟨.format, "format", some 'f'⟩, ⟨.output, "output", some 'o'⟩, ⟨.report, "report", none⟩,
      ⟨.verify, "verify", none⟩]
  | some .inspect => globalSpecs ++ sourceSpecs ++
    [⟨.type, "type", none⟩, ⟨.accessors, "accessors", none⟩]

namespace Key

/-- Whether an option has a value. -/
def takesValue : Key → Bool
  | logLevel | input | aux | config | target | define | format | output | report | type => true
  | _ => false

/-- Whether an option may be repeated. -/
def isRepeatable : Key → Bool
  | aux | define => true
  | _ => false

/-- Whether the value of an option is a path, which may not be empty. -/
def isPath : Key → Bool
  | input | aux | config | output | report => true
  | _ => false

/-- Looks at the value of an option. -/
def checkValue (k : Key) (value : String) : Except UsageError Unit :=
  if k.isPath && value.isEmpty then .error .invalidValue
  else if k = .target && !(Target.parse value).isOk then .error .valueValidation
  else if k = .format && !(OutputFormat.parse value).isOk then .error .valueValidation
  else .ok ()

end Key

/-- An option that was given, with its value. -/
structure Setting where
  key : Key
  value : String

/-- The state of reading a level: what is settled, and the last option, whose value may be still to
come and has not been looked at. -/
structure Reading where
  settled : List Setting
  pending : Option (Key × Option String)

namespace Reading

/-- Nothing was read. -/
def start : Reading := ⟨[], none⟩

/-- Whether the next argument is a value. -/
def awaiting (r : Reading) : Option Key :=
  match r.pending with
  | some (k, none) => some k
  | _ => none

/-- Settles an option that may be given once only, unless it is repeatable. -/
def settle (settled : List Setting) (k : Key) (value : String) :
    Except UsageError (List Setting) := do
  if !k.isRepeatable && settled.any (·.key = k) then .error .argumentConflict
  k.checkValue value
  .ok (settled ++ [⟨k, value⟩])

/-- Settles the last option. -/
def resolve (r : Reading) : Except UsageError Reading :=
  match r.pending with
  | none => .ok r
  | some (_, none) => .error .invalidValue
  | some (k, some value) => do
    let settled ← settle r.settled k value
    .ok ⟨settled, none⟩

/-- Takes an option whose value is at hand. -/
def takeAttached (r : Reading) (k : Key) (value : String) : Except UsageError Reading := do
  let r ← r.resolve
  let settled ← settle r.settled k value
  .ok ⟨settled, none⟩

/-- Takes an option whose value is the next argument. -/
def takeOpen (r : Reading) (k : Key) : Except UsageError Reading := do
  let r ← r.resolve
  .ok { r with pending := some (k, none) }

/-- Takes an option without a value. -/
def takeFlag (r : Reading) (k : Key) : Except UsageError Reading :=
  match k with
  | .help => do
    let _ ← r.resolve
    .error .displayHelp
  | .version => do
    let _ ← r.resolve
    .error .displayVersion
  | k => r.takeAttached k "true"

/-- Reads an argument with a long name, behind its two dashes. -/
def takeLong (verb : Option Verb) (r : Reading) (cs : List Char) : Except UsageError Reading :=
  let name := String.ofList (cs.takeWhile (· ≠ '='))
  match (specs verb).find? fun s => s.long == name with
  | none => .error .unknownArgument
  | some s =>
    match cs.dropWhile (· ≠ '='), s.key.takesValue with
    | [], true => r.takeOpen s.key
    | [], false => r.takeFlag s.key
    | _ :: value, true => r.takeAttached s.key (String.ofList value)
    | _ :: _, false => .error .tooManyValues

/-- Reads an argument of short names, behind its dash. All but the last are flags. -/
def takeShort (verb : Option Verb) (r : Reading) : List Char → Except UsageError Reading
  | [] => .ok r
  | c :: cs =>
    match (specs verb).find? fun s => s.short == some c with
    | none => .error .unknownArgument
    | some s =>
      if s.key.takesValue then
        match cs with
        | [] => r.takeOpen s.key
        | '=' :: value => r.takeAttached s.key (String.ofList value)
        | value => r.takeAttached s.key (String.ofList value)
      else do
        let r ← r.takeFlag s.key
        takeShort verb r cs

end Reading

/-- What an argument looks like. -/
inductive Look where
  /-- Two dashes alone: no options follow. -/
  | escape
  | long (rest : List Char)
  | short (rest : List Char)
  | word

/-- What an argument looks like. A single dash is a word. -/
def look (arg : String) : Look :=
  match arg.toList with
  | ['-', '-'] => .escape
  | '-' :: '-' :: cs => .long cs
  | '-' :: c :: cs => .short (c :: cs)
  | _ => .word

/-- The subcommand with a name. -/
def verbOf? : String → Option Verb
  | "flatten" => some .flatten
  | "inspect" => some .inspect
  | _ => none

/-- Reads the arguments behind a subcommand. No words are expected there. -/
def readVerb (verb : Verb) : Reading → List String → Except UsageError Reading
  | r, [] => r.resolve
  | r, arg :: args =>
    match look arg with
    | .escape => if args.isEmpty then r.resolve else .error .unknownArgument
    | .long cs => do
      let r ← r.takeLong (some verb) cs
      readVerb verb r args
    | .short cs => do
      let r ← r.takeShort (some verb) cs
      readVerb verb r args
    | .word =>
      match r.awaiting with
      | some k => readVerb verb { r with pending := some (k, some arg) } args
      | none => .error .unknownArgument

/-- What the arguments amount to: the settings in front of the subcommand, the subcommand, and the
settings behind it. -/
structure Given where
  before : List Setting
  verb : Verb
  after : List Setting

/-- The error for arguments without a subcommand. -/
def withoutVerb {α : Type} (r : Reading) : Except UsageError α := do
  let r ← r.resolve
  if r.settled.isEmpty then .error .nothingGiven else .error .missingSubcommand

/-- What the arguments behind `help` ask for: help on the program or on a subcommand. -/
def helpOutcome : List String → UsageError
  | [] => .displayHelp
  | [arg] => if arg = "help" ∨ (verbOf? arg).isSome then .displayHelp else .invalidSubcommand
  | _ => .invalidSubcommand

/-- The value of an option. -/
def valueOf? (settings : List Setting) (k : Key) : Option String :=
  (settings.find? (·.key = k)).map (·.value)

/-- The values of an option that may be repeated. -/
def valuesOf (settings : List Setting) (k : Key) : List String :=
  (settings.filter (·.key = k)).map (·.value)

/-- Whether a flag is given. -/
def given (settings : List Setting) (k : Key) : Bool := settings.any (·.key = k)

/-- Reads a subcommand with what is behind it. An input must be given. -/
def readBehind (r : Reading) (verb : Verb) (args : List String) : Except UsageError Given := do
  let behind ← readVerb verb .start args
  if !given behind.settled .input then .error .missingRequiredArgument
  let front ← r.resolve
  .ok ⟨front.settled, verb, behind.settled⟩

/-- Reads the arguments behind the name of the program. -/
def readAll : Reading → List String → Except UsageError Given
  | r, [] => withoutVerb r
  | r, arg :: args =>
    let asWord : Except UsageError Given :=
      if arg = "help" then .error (helpOutcome args)
      else
        match verbOf? arg with
        | some verb => readBehind r verb args
        | none => .error .invalidSubcommand
    match r.awaiting, look arg with
    | _, .escape =>
      match args with
      | [] => withoutVerb r
      | next :: _ =>
        if next = "help" ∨ (verbOf? next).isSome then .error .unknownArgument
        else .error .invalidSubcommand
    | _, .long cs => do
      let r ← r.takeLong none cs
      readAll r args
    | _, .short cs => do
      let r ← r.takeShort none cs
      readAll r args
    | some k, .word => readAll { r with pending := some (k, some arg) } args
    | none, .word => asWord

/-- The arguments that say where the declarations come from. -/
def sourceOf (settings : List Setting) : SourceArgs where
  input := (valueOf? settings .input).getD ""
  aux := valuesOf settings .aux
  config := valueOf? settings .config
  target := (valueOf? settings .target).bind fun s => (Target.parse s).toOption
  defines := valuesOf settings .define
  noInline := given settings .noInline
  noPadding := given settings .noPadding

/-- The command that a subcommand with its settings is. -/
def commandOf (verb : Verb) (settings : List Setting) : Command :=
  let source := sourceOf settings
  match verb with
  | .flatten =>
    .flatten source
      ((valueOf? settings .format).bind fun s => (OutputFormat.parse s).toOption)
      (valueOf? settings .output) (valueOf? settings .report) (given settings .verify)
  | .inspect => .inspect source (valueOf? settings .type) (given settings .accessors)

end CommandLine

/-- Reads the arguments behind the name of the program. An option that may stand on both sides of
the subcommand counts where it stands behind it. -/
def Arguments.parse (args : List String) : Except UsageError Arguments := do
  let g ← CommandLine.readAll .start args
  let all := g.after ++ g.before
  .ok ⟨CommandLine.commandOf g.verb g.after,
    (CommandLine.valueOf? all .logLevel).getD "info",
    CommandLine.given all .noColor⟩

end FlatLayout
