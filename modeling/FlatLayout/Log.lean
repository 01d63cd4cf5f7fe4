/-!
# Log records

What the program reports about its work, in order. Each record has a level and names the part of the
program that it comes from.

## Main definitions

* `Log.Level`, `Log.Level.ofName?` — how severe a record is
* `Log.Origin` — the part of the program
* `Log.Record` — one record
* `Log.atLeast` — the records that are at least so severe
-/

namespace FlatLayout.Log

/-- How severe a record is, the most severe first. -/
inductive Level where
  | error
  | warn
  | info
  | debug
  | trace
  deriving DecidableEq

/-- The place of a level among the others; the most severe has the least. -/
def Level.rank : Level → Nat
  | .error => 1
  | .warn => 2
  | .info => 3
  | .debug => 4
  | .trace => 5

/-- The name of a level in records. -/
def Level.label : Level → String
  | .error => "ERROR"
  | .warn => "WARN"
  | .info => "INFO"
  | .debug => "DEBUG"
  | .trace => "TRACE"

/-- The level with a lower case name. -/
def Level.ofName? : String → Option Level
  | "error" => some .error
  | "warn" => some .warn
  | "info" => some .info
  | "debug" => some .debug
  | "trace" => some .trace
  | _ => none

/-- The parts of the program that report. -/
inductive Origin where
  | conditional
  | catalog
  | engine
  | marked
  | project
  | command
  deriving DecidableEq

/-- A record. -/
structure Record where
  level : Level
  origin : Origin
  message : String

/-- A record as one line without its origin. -/
def Record.line (r : Record) : String := r.level.label ++ " " ++ r.message

/-- The records that are at least so severe. -/
def atLeast (level : Level) (rs : List Record) : List Record :=
  rs.filter fun r => r.level.rank ≤ level.rank

end FlatLayout.Log
