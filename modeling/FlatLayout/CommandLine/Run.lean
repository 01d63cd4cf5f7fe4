import FlatLayout.CommandLine.Arguments
import FlatLayout.Decl.Printer
import FlatLayout.Project
import FlatLayout.Report
import FlatLayout.Table
import FlatLayout.Terminal.Control
import FlatLayout.Text.Lower

/-!
# Running the program

The program as a function from its arguments and the files it can read to what it prints, which
files it writes and its exit code.

## Main definitions

* `Surroundings` — what the program finds when it starts
* `Transcript` — what it leaves behind
* `CommandLine.run` — the program

## Implementation notes

A run is a sequence of steps that may fail with a message. What was printed or written before stays;
files are only written after everything that can fail without them.
-/

namespace FlatLayout

/-- What the program finds when it starts. -/
structure Surroundings where
  /-- The contents of a file, if there is one. -/
  read? : String → Option String
  /-- Whether a file can be written. -/
  writable : String → Bool
  /-- Whether text is to be styled even though nobody watches. -/
  styled : Bool

/-- What the program leaves behind. -/
structure Transcript where
  exitCode : UInt32
  /-- The texts printed, in order. -/
  out : List String
  /-- The status messages and the log records, in order, as texts with their line ends. -/
  err : List String
  /-- The files written with their contents, in order. -/
  files : List (String × String)

namespace CommandLine

/-- Steps of a run. They fail with a message. -/
abbrev Steps (α : Type) := ExceptT String (StateM Transcript) α

/-- What a run needs to know besides its arguments. -/
structure Setup where
  surroundings : Surroundings
  /-- Whether the output is styled. -/
  styled : Bool
  /-- The least severe level that is logged, if any is. -/
  level : Option Log.Level

/-! ### Printing -/

/-- Prints a line. -/
def print (text : String) : Steps Unit :=
  modify fun t => { t with out := t.out ++ [text ++ "\n"] }

/-- A line of status: a label in a color, and a message. -/
def statusLine (styled : Bool) (style : Terminal.Style) (label message : String) : String :=
  Terminal.paintIf styled style label ++ " " ++ message ++ "\n"

/-- Prints a line of status. -/
def status (s : Setup) (style : Terminal.Style) (label message : String) : Steps Unit :=
  modify fun t => { t with err := t.err ++ [statusLine s.styled style label message] }

/-- Tells what is going on. -/
def info (s : Setup) (message : String) : Steps Unit := status s .cyan "[INFO]" message

/-- Tells what has been achieved. -/
def success (s : Setup) (message : String) : Steps Unit := status s .green "[OK]" message

/-- Tells what is unusual. -/
def warning (s : Setup) (message : String) : Steps Unit := status s .yellow "[WARN]" message

/-- The name under which a part of the program logs. -/
def originPath : Log.Origin → String
  | .conditional => "struct_flattener::syntax::preprocess"
  | .catalog => "struct_flattener::structure::resolver"
  | .engine => "struct_flattener::structure::engine"
  | .marked => "struct_flattener::structure::rewrite"
  | .project => "struct_flattener::structure::pass"
  | .command => "struct_flattener::ui::cli::handler"

/-- The style of a level in the log. -/
def levelStyle : Log.Level → Terminal.Style
  | .error => .redBold
  | .warn => .yellow
  | .info => .green
  | .debug => .blue
  | .trace => .cyan

/-- A record of the log: level and origin in brackets, then the message. Further lines of a message
are indented. Where there is no styling, nothing in the record steers the terminal, and a sequence
that the message leaves open may take the end of the line with it. -/
def logText (styled : Bool) (r : Log.Record) : String :=
  let level := Table.pad false 5 r.level.label
  let message := "\n    ".intercalate
    ((Text.splitOn '\n' r.message.toList).map String.ofList)
  let text := Terminal.paintIf styled .gray "[" ++
    Terminal.paintIf styled (levelStyle r.level) level ++ " " ++ originPath r.origin ++
    Terminal.paintIf styled .gray "]" ++ " " ++ message ++ "\n"
  if styled then text else Terminal.visible text

/-- Logs what is severe enough. -/
def log (s : Setup) (rs : List Log.Record) : Steps Unit :=
  match s.level with
  | none => pure ()
  | some level => modify fun t =>
    { t with err := t.err ++ (Log.atLeast level rs).map (logText s.surroundings.styled) }

/-- The result of a computation that reports. -/
def reported {α : Type} (s : Setup) (r : Reported (Except LayoutError α)) : Steps α := do
  log s r.2
  match r.1 with
  | .ok a => pure a
  | .error e => throw e.message

/-! ### Files -/

/-- The message for a file that is not there. -/
def missingFile : String := "No such file or directory (os error 2)"

/-- A message and the messages of its causes. -/
def chain (messages : List String) : String := ": ".intercalate messages

/-- Reads a file with a decoder. `context` says what was to be done. -/
def load {α : Type} (s : Setup) (context path : String)
    (decode : String → Except Json.DecodeError α) : Steps α :=
  match s.surroundings.read? path with
  | none => throw (chain [context, "IO error: " ++ missingFile, missingFile])
  | some text =>
    match decode text with
    | .ok a => pure a
    | .error e => throw (chain [context, "Parse error: " ++ e.message, e.message])

/-- Writes a file, or fails with a message. -/
def save (s : Setup) (path contents failure : String) : Steps Unit :=
  if s.surroundings.writable path then
    modify fun t => { t with files := t.files ++ [(path, contents)] }
  else throw failure

/-- A step of checking a configuration. -/
def checkConfig (context : List String) (c : Config) : Steps Unit :=
  match c.validate with
  | .ok _ => pure ()
  | .error e => throw (chain (context ++ [e.message]))

/-- The configuration from the file that the arguments name. -/
def configFile (s : Setup) (source : SourceArgs) : Steps Config :=
  match source.config with
  | none => pure .default
  | some path => do
    let context := "Failed to load config " ++ Text.quote path
    let c ← load s context path Config.ofJsonText
    checkConfig [context] c
    return c

/-- A configuration with what the arguments change. -/
def applyArgs (c : Config) (source : SourceArgs) : Config :=
  { c with
    target := source.target.getD c.target
    inlineNested := c.inlineNested && !source.noInline
    padTrailing := c.padTrailing && !source.noPadding
    defines := c.defines ++ source.defines }

/-- The configuration that is in effect. -/
def loadConfig (s : Setup) (source : SourceArgs) : Steps Config := do
  let file ← configFile s source
  let c := applyArgs file source
  checkConfig [] c
  log s [⟨.debug, .command, "Effective configuration: " ++ c.description⟩]
  return c

/-- The first of some files that is not there, with what it was to be. -/
def missing? (s : Setup) (source : SourceArgs) : Option String :=
  let absent (path : String) : Bool := (s.surroundings.read? path).isNone
  let say (what path : String) : String := what ++ " file does not exist: " ++ Text.quote path
  if absent source.input then some (say "Input" source.input)
  else
    match source.aux.find? absent with
    | some path => some (say "Auxiliary" path)
    | none => (source.config.filter absent).map (say "Config")

/-- Reads a unit. -/
def loadUnit (s : Setup) (path : String) : Steps SourceUnit :=
  load s ("Failed to load " ++ Text.quote path) path SourceUnit.ofJsonText

/-- Reads the units. All files must be there before one is read. -/
def loadUnits (s : Setup) (source : SourceArgs) : Steps (SourceUnit × List SourceUnit) := do
  match missing? s source with
  | some message => throw message
  | none => pure ()
  let primary ← loadUnit s source.input
  let aux ← source.aux.mapM (loadUnit s)
  info s ("Loaded " ++ primary.name ++ " (" ++ Text.decimal aux.length ++ " auxiliary units)")
  return (primary, aux)

/-! ### Commands -/

/-- The project of some units under a configuration. -/
def projectOf (c : Config) (units : SourceUnit × List SourceUnit) : Project :=
  ⟨c.options, c.activeDefines, units.1, units.2⟩

/-- The text of a flattened unit. -/
def outputText (c : Config) (u : SourceUnit) : String :=
  match c.outputFormat with
  | .source => u.sourceText
  | .json => u.jsonText (.ofPretty c.prettyJson)

/-- Flattens a project, and says if there was nothing to do. -/
def flattenProject (s : Setup) (p : Project) (verify : Bool) : Steps Outcome := do
  let outcome ← reported s p.run
  if outcome.replaced.isEmpty then warning s "No struct is marked for flattening"
  if verify then
    reported s (p.verify outcome)
    success s ("Verified " ++ Text.decimal outcome.replaced.length ++ " structs")
  return outcome

/-- Prints the flattened unit or writes it to a file. -/
def publish (s : Setup) (text : String) : Option String → Steps Unit
  | none => print text
  | some path => do
    save s path text (chain ["Failed to write " ++ Text.quote path, missingFile])
    success s ("Output written to: " ++ Text.quote path)

/-- Writes a report to a file if one is asked for. -/
def publishReport (s : Setup) (c : Config) (layouts : List FlatStruct) :
    Option String → Steps Unit
  | none => pure ()
  | some path => do
    let text := Report.text (.ofPretty c.prettyJson) (layouts.map Report.ofStruct)
    save s path text (chain ["IO error: " ++ missingFile, missingFile])
    success s ("Layout report written to: " ++ Text.quote path)

/-- Flattens the marked structs of the input. -/
def flatten (s : Setup) (source : SourceArgs) (format : Option OutputFormat)
    (output report : Option String) (verify : Bool) : Steps Unit := do
  let file ← loadConfig s source
  let c := { file with outputFormat := format.getD file.outputFormat }
  let units ← loadUnits s source
  let outcome ← flattenProject s (projectOf c units) verify
  publish s (outputText c outcome.unit) output
  publishReport s c outcome.layouts report
  success s ("Flattened " ++ Text.decimal outcome.replaced.length ++ " structs for " ++
    c.target.name)

/-- The first struct whose qualified or simple name is the one given. -/
def findStruct (c : Catalog) (name : String) : Option QualName :=
  (c.structs.map Prod.fst).find? fun k => k.text == name || k.simpleName == name

/-- The layout of one struct of a project, by its name. -/
def inspectStruct (s : Setup) (p : Project) (name : String) : Steps FlatStruct := do
  let c := p.catalog
  log s (p.selectionLog (p.primary :: p.auxiliary) ++ c.log)
  match findStruct c name with
  | none => throw ("No struct named " ++ name)
  | some key =>
    let (r, bench) := (Bench.flatten c p.options key).run.run .empty
    reported s (r, bench.log.reverse)

/-- The line above the table of a struct. -/
def caption (styled : Bool) (f : FlatStruct) : String :=
  let size := f.footprint.size.toNat
  Terminal.paintIf styled .cyanBold f.key.text ++ " " ++
    Terminal.paintIf styled .green
      ("size 0x" ++ Text.hex size ++ " (" ++ Text.decimal size ++ ")") ++ " " ++
    Terminal.paintIf styled .dimmed ("align " ++ Text.decimal f.footprint.alignment.toNat)

/-- Prints a layout. -/
def showStruct (s : Setup) (withAccessors : Bool) (f : FlatStruct) : Steps Unit := do
  print (caption s.styled f)
  print ((Table.ofStruct f withAccessors).text s.styled)
  let overlaps := f.overlaps.length
  if overlaps ≠ 0 then
    print ("  " ++ Terminal.paintIf s.styled .yellow (Text.decimal overlaps) ++
      " overlapping field pairs")
  print ""

/-- Shows one layout, or all that the marked structs of the input need. -/
def inspect (s : Setup) (source : SourceArgs) (type : Option String) (accessors : Bool) :
    Steps Unit := do
  let c ← loadConfig s source
  let units ← loadUnits s source
  let p := projectOf c units
  let layouts ← match type with
    | some name => do
      let f ← inspectStruct s p name
      pure [f]
    | none => do
      let outcome ← reported s p.run
      pure outcome.layouts
  layouts.forM (showStruct s accessors)

/-- Does what the arguments ask for. -/
def execute (s : Setup) : Command → Steps Unit
  | .flatten source format output report verify => flatten s source format output report verify
  | .inspect source type accessors => inspect s source type accessors

/-! ### The program -/

/-- The level that a user names, in any case; `off` is none. -/
def logLevelOf (name : String) : Except String (Option Log.Level) :=
  let lower := Text.lower name
  if lower = "off" then .ok none
  else
    match Log.Level.ofName? lower with
    | some level => .ok (some level)
    | none => .error ("Unknown log level: " ++ lower)

/-- Nothing has happened. -/
def Transcript.start : Transcript := ⟨0, [], [], []⟩

/-- What is left behind after a failure: a last line, and an exit code. -/
def failed (styled : Bool) (message : String) (t : Transcript) : Transcript :=
  { t with exitCode := 1, err := t.err ++ [statusLine styled .red "[!]" message] }

/-- What is left behind after the steps of a run. -/
def finish (styled : Bool) (steps : Steps Unit) : Transcript :=
  match steps.run.run Transcript.start with
  | (.ok _, t) => t
  | (.error message, t) => failed styled message t

/-- Runs the program with arguments that make sense. The log level is looked at first, when the
choice of colors is not yet in effect. -/
def runArguments (env : Surroundings) (a : Arguments) : Transcript :=
  match logLevelOf a.logLevel with
  | .error message => failed env.styled message Transcript.start
  | .ok level =>
    let styled := env.styled && !a.noColor
    finish styled (execute ⟨env, styled, level⟩ a.command)

/-- How the program is called. -/
def usage : String :=
  "Usage: struct-flattener [OPTIONS] <COMMAND>\n\nCommands:\n" ++
  "  flatten  Flatten every struct marked [Flatten] in the input unit\n" ++
  "  inspect  Print the computed layouts\n" ++
  "  help     Print this message\n"

/-- The words for a usage error. -/
def usageMessage : UsageError → String
  | .displayHelp | .nothingGiven => usage
  | .displayVersion => "struct-flattener 1.0.0\n"
  | .missingSubcommand => "error: a subcommand is needed\n"
  | .invalidSubcommand => "error: unrecognized subcommand\n"
  | .unknownArgument => "error: unexpected argument\n"
  | .invalidValue => "error: a value is needed\n"
  | .valueValidation => "error: invalid value\n"
  | .tooManyValues => "error: unexpected value\n"
  | .argumentConflict => "error: an argument is given twice\n"
  | .missingRequiredArgument => "error: an input is needed\n"

/-- What is left behind when the arguments ask for nothing. Help and version are what was asked
for. -/
def runUsage (e : UsageError) : Transcript :=
  match e with
  | .displayHelp | .displayVersion => ⟨0, [usageMessage e], [], []⟩
  | _ => ⟨2, [], [usageMessage e], []⟩

/-- Runs the program. -/
def run (env : Surroundings) (args : List String) : Transcript :=
  match Arguments.parse args with
  | .error e => runUsage e
  | .ok a => runArguments env a

end CommandLine

end FlatLayout
