import FlatLayout.Decl.Conditional
import FlatLayout.Layout.Check
import FlatLayout.Layout.Marked

/-!
# Projects

One use of the program: a primary unit whose marked structs are flattened, and auxiliary units that
only contribute the declarations it refers to.

## Main definitions

* `Project` — units, options and defined symbols
* `Project.run` — the flattened unit and all layouts that were computed for it
* `Project.verify` — whether the flat structs are sound and lay out as they were computed

Every step also returns what it reports, in order.
-/

namespace FlatLayout

/-- What is flattened, and how. -/
structure Project where
  options : Options
  /-- The symbols that are defined in conditional blocks. -/
  defines : List String
  primary : SourceUnit
  auxiliary : List SourceUnit

/-- What flattening a project yields. -/
structure Outcome where
  /-- The primary unit with every marked struct replaced. -/
  unit : SourceUnit
  /-- Every layout that was computed, contained structs first. -/
  layouts : List FlatStruct
  /-- The structs that were replaced. -/
  replaced : List FlatStruct

/-- A result together with what was reported on the way. -/
abbrev Reported (α : Type) := α × List Log.Record

/-- What is reported when conditional blocks are replaced by their branches. -/
def SourceUnit.selectionLog (u : SourceUnit) (defines : List String) : List Log.Record :=
  (u.selections defines).map fun (symbol, count) =>
    ⟨.trace, .conditional,
      "#if " ++ symbol ++ ": splicing " ++ Text.decimal count ++ " member(s)"⟩

/-- What is reported when a catalog is made. -/
def Catalog.log (c : Catalog) : List Log.Record :=
  c.repeated.map fun key =>
    ⟨.warn, .catalog, "Duplicate declaration of struct " ++ key.text ++ ", keeping the first"⟩

namespace Project

/-- All units as they are without conditional blocks, the primary one first. -/
def selectedUnits (p : Project) : List SourceUnit :=
  (p.primary :: p.auxiliary).map (·.select p.defines)

/-- What is reported when the conditional blocks of some units are replaced. -/
def selectionLog (p : Project) (us : List SourceUnit) : List Log.Record :=
  us.flatMap (·.selectionLog p.defines)

/-- The declarations of all units. -/
def catalog (p : Project) : Catalog := .ofUnits p.selectedUnits

/-- What is reported before flattening begins. -/
def openingLog (p : Project) : List Log.Record :=
  let c := p.catalog
  p.selectionLog (p.primary :: p.auxiliary) ++ c.log ++
    [⟨.info, .project, "Indexed " ++ Text.decimal c.structs.length ++
      " struct declarations from " ++ Text.decimal (p.auxiliary.length + 1) ++ " units"⟩]

/-- Flattens the marked structs of the primary unit. -/
def run (p : Project) : Reported (Except LayoutError Outcome) :=
  let flattened := (p.primary.select p.defines).flattenMarked p.catalog p.options
  let (r, draft) := flattened.run.run ⟨.empty, []⟩
  let log := p.openingLog ++ draft.bench.log.reverse
  match r with
  | .error e => (.error e, log)
  | .ok unit =>
    let closing : Log.Record := ⟨.info, .project, "Flattened " ++
      Text.decimal draft.replaced.length ++ " structs (" ++ Text.decimal draft.bench.computed ++
      " layouts computed, " ++ Text.decimal draft.bench.memo.hits ++ " cache hits)"⟩
    (.ok ⟨unit, draft.bench.memo.entries, draft.replaced⟩, log ++ [closing])

/-- Lays out a flat struct again, which must give its footprint. -/
def verifyStruct (c : Catalog) (o : Options) (f : FlatStruct) : Bench Unit := do
  let again ← Bench.flatten c o f.key
  if again.footprint = f.footprint then pure ()
  else throw (.flawed (.drift f.key f.footprint.size f.footprint.alignment again.footprint.size
    again.footprint.alignment))

/-- Checks every struct that was replaced, and that its flat declaration lays out in the same
way. -/
def verify (p : Project) (out : Outcome) : Reported (Except LayoutError Unit) :=
  match out.replaced.forM FlatStruct.checked with
  | .error e => (.error e, [])
  | .ok _ =>
    let c := Catalog.ofUnits (out.unit :: p.auxiliary.map (·.select p.defines))
    let opening := p.selectionLog p.auxiliary ++ c.log
    let (r, bench) := (out.replaced.forM (verifyStruct c p.options)).run.run .empty
    let log := opening ++ bench.log.reverse
    match r with
    | .error e => (.error e, log)
    | .ok _ =>
      (.ok (), log ++ [⟨.debug, .project, "Verified " ++ Text.decimal out.replaced.length ++
        " rewritten structs"⟩])

end Project

end FlatLayout
