import FlatLayout.Decl.Json
import FlatLayout.Layout.Placement

/-!
# Configuration

The target and the form of the output, from a file and from the command line.

## Main definitions

* `Target`, `OutputFormat` — the choices, by name
* `Config`, `Config.ofJsonText` — a configuration, and reading one
* `Config.validate` — whether its symbols are names and agree with the target
* `Config.options`, `Config.activeDefines` — what it means for flattening
-/

namespace FlatLayout

open Json (Decoder RecordField field)

/-- What is wrong with a configuration. -/
inductive ConfigError where
  | unknownTarget (name : String)
  | unknownFormat (name : String)
  | invalidSymbol (symbol : String)
  /-- The symbol of another target is defined. -/
  | conflictingSymbol (symbol : String) (target : String)
  deriving DecidableEq

/-- The message of an error. -/
def ConfigError.message (e : ConfigError) : String :=
  "Invalid configuration: " ++
    match e with
    | unknownTarget name => "unknown target " ++ name
    | unknownFormat name => "unknown output format " ++ name
    | invalidSymbol symbol => "'" ++ symbol ++ "' is not a valid conditional symbol"
    | conflictingSymbol symbol target => symbol ++ " is defined while targeting " ++ target

/-- What is laid out for. -/
inductive Target where
  | x86
  | x64
  deriving DecidableEq

namespace Target

/-- The name of a target. -/
def name : Target → String
  | x86 => "x86"
  | x64 => "x64"

/-- The targets under their names. -/
def names : List (String × Target) := [("x86", x86), ("x64", x64)]

/-- The width of a pointer. -/
def pointerWidth : Target → UInt32
  | x86 => 4
  | x64 => 8

/-- The symbol that is defined for a target. -/
def symbol : Target → String
  | x86 => "X86"
  | x64 => "X64"

/-- The other target. -/
def other : Target → Target
  | x86 => x64
  | x64 => x86

/-- The target that a user means, who may write it in several ways and in any case. -/
def parse (s : String) : Except ConfigError Target :=
  match Text.asciiLower s with
  | "x86" | "win32" | "i386" => .ok x86
  | "x64" | "amd64" | "x86_64" => .ok x64
  | unknown => .error (.unknownTarget unknown)

end Target

/-- What is written. -/
inductive OutputFormat where
  /-- Source text. -/
  | source
  /-- The flattened unit as JSON. -/
  | json
  deriving DecidableEq

namespace OutputFormat

/-- The name of a format. -/
def name : OutputFormat → String
  | source => "source"
  | json => "json"

/-- The formats under their names. -/
def names : List (String × OutputFormat) := [("source", source), ("json", json)]

/-- The format that a user means. -/
def parse (s : String) : Except ConfigError OutputFormat :=
  match Text.asciiLower s with
  | "source" | "cs" => .ok source
  | "json" => .ok json
  | unknown => .error (.unknownFormat unknown)

end OutputFormat

/-- A configuration. -/
structure Config where
  target : Target
  inlineNested : Bool
  padTrailing : Bool
  /-- Symbols that are defined besides that of the target. -/
  defines : List String
  outputFormat : OutputFormat
  prettyJson : Bool
  deriving DecidableEq

namespace Config

/-- The configuration without a file. A file may leave out what agrees with it. -/
def default : Config := ⟨.x64, true, true, [], .source, true⟩

/-- A configuration as an object. -/
def toJson (c : Config) : Json :=
  Json.fields [("target", Json.text c.target.name), ("inline_nested_structs", .bool c.inlineNested),
    ("pad_trailing", .bool c.padTrailing), ("defines", Json.texts c.defines),
    ("output_format", Json.text c.outputFormat.name), ("pretty_json", .bool c.prettyJson)]

/-- The fields of a configuration. -/
def jsonFields : List (RecordField Config) := [
  field "target" .defaulted (Json.keyword Target.names) fun t c => { c with target := t },
  field "inline_nested_structs" .defaulted Json.asBool fun b c => { c with inlineNested := b },
  field "pad_trailing" .defaulted Json.asBool fun b c => { c with padTrailing := b },
  field "defines" .defaulted textsDecoder fun ds c => { c with defines := ds },
  field "output_format" .defaulted (Json.keyword OutputFormat.names) fun f c =>
    { c with outputFormat := f },
  field "pretty_json" .defaulted Json.asBool fun b c => { c with prettyJson := b }]

/-- Reads a configuration. -/
def decoder : Decoder Config := Json.record jsonFields default

/-- Reads the text of a configuration. -/
def ofJsonText (s : String) : Except Json.DecodeError Config := Json.decodeText decoder s

/-- Whether every symbol is an identifier, and none belongs to the other target. -/
def validate (c : Config) : Except ConfigError Unit :=
  match c.defines.find? fun d => !TypeRef.isIdentifier d.toList with
  | some d => .error (.invalidSymbol d)
  | none =>
    if c.defines.contains c.target.other.symbol then
      .error (.conflictingSymbol c.target.other.symbol c.target.name)
    else .ok ()

/-- The options for flattening. -/
def options (c : Config) : Options := ⟨c.target.pointerWidth, c.inlineNested, c.padTrailing⟩

/-- Adds a symbol unless it is there. -/
def addDefine (ds : List String) (d : String) : List String :=
  if ds.contains d then ds else ds ++ [d]

/-- All symbols that are defined: that of the target, and the others once each. -/
def activeDefines (c : Config) : List String := c.defines.foldl addDefine [c.target.symbol]

/-- The words of a truth value. -/
private def boolText (b : Bool) : String := if b then "true" else "false"

/-- A configuration in one line, for the log. -/
def description (c : Config) : String :=
  let target := match c.target with
    | .x86 => "X86"
    | .x64 => "X64"
  let format := match c.outputFormat with
    | .source => "Source"
    | .json => "Json"
  "Config \x7b target: " ++ target ++ ", inline_nested_structs: " ++ boolText c.inlineNested ++
    ", pad_trailing: " ++ boolText c.padTrailing ++ ", defines: [" ++
    ", ".intercalate (c.defines.map Text.quote) ++ "], output_format: " ++ format ++
    ", pretty_json: " ++ boolText c.prettyJson ++ " \x7d"

end Config

end FlatLayout
