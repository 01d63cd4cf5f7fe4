import FlatLayout.Layout.Workbench

/-!
# Flattening the marked structs of a unit

The structs that are marked for flattening are replaced by their flat form, anonymous structs and
the classes that declare markers are dropped, and all remaining markers are removed. Everything else
is copied.

## Main definitions

* `Draft` — the workbench and the structs replaced so far
* `SourceUnit.flattenMarked` — the unit with its marked structs replaced

## Implementation notes

What is nested in a marked struct is taken from its flat form, which comes from the catalog. This is
the only step that does not go down the tree at hand, so it alone needs fuel: each time the
qualified name has grown and belongs to another struct of the catalog.
-/

namespace FlatLayout

/-- The state of flattening a unit. -/
structure Draft where
  bench : Workbench
  /-- The structs that were replaced, in the order of the unit. -/
  replaced : List FlatStruct

/-- Steps in flattening a unit. When a step fails, what was done before stays done. -/
abbrev Drafting (α : Type) := ExceptT LayoutError (StateM Draft) α

namespace Drafting

/-- A step at the workbench. -/
def ofBench {α : Type} (steps : Bench α) : Drafting α :=
  ExceptT.mk fun d =>
    let (r, bench) := steps.run.run d.bench
    (r, { d with bench := bench })

/-- Reports that something is left out. -/
def noteDropped (what : String) : Drafting Unit :=
  ofBench (Bench.note .debug .marked ("Dropping " ++ what))

/-- Counts a struct as replaced. -/
def addReplaced (f : FlatStruct) : Drafting Unit :=
  modify fun d => { d with replaced := d.replaced ++ [f] }

end Drafting

section

variable (c : Catalog) (o : Options) (nested : QualName → List Member → Drafting (List Member))

mutual

/-- What takes the place of a member of the struct `key`. -/
def Member.flattenMarked (key : QualName) : Member → Drafting (List Member)
  | .struct s => do
    match ← StructDecl.flattenMarked (key.child s.name) s with
    | some s => return [.struct s]
    | none => return []
  | .field f => return [.field { f with markers := .none }]
  | m => return [m]

/-- What takes the place of the struct `key`, if anything. `nested` treats the members of a flat
struct. -/
def StructDecl.flattenMarked (key : QualName) : StructDecl → Drafting (Option StructDecl)
  | ⟨modifiers, name, markers, layout, members⟩ => do
    if markers.anonymous then
      Drafting.noteDropped ("anonymous struct " ++ key.text)
      return none
    else if markers.flatten then
      let flat ← Drafting.ofBench (Bench.flatten c o key)
      Drafting.addReplaced flat
      let members ← nested key flat.decl.members
      return some { flat.decl with members := members }
    else
      let members ← Member.flattenMarkedAll key members
      return some ⟨modifiers, name, .none, layout, members⟩

/-- What takes the place of the members of the struct `key`. -/
def Member.flattenMarkedAll (key : QualName) : List Member → Drafting (List Member)
  | [] => return []
  | m :: ms => do
    let first ← m.flattenMarked key
    let rest ← Member.flattenMarkedAll key ms
    return first ++ rest

end

end

/-- What takes the place of the members of a flat struct, which may contain flat structs at most so
deep. -/
def flattenNested (c : Catalog) (o : Options) :
    Nat → QualName → List Member → Drafting (List Member)
  | 0, key, _ => throw (.cyclicLayout key)
  | fuel + 1, key, ms => Member.flattenMarkedAll c o (flattenNested c o fuel) key ms

/-- What takes the place of an item. -/
def Item.flattenMarked (c : Catalog) (o : Options) (space : Option String) :
    Item → Drafting (List Item)
  | .struct s => do
    let nested := flattenNested c o (c.structs.length + 1)
    match ← s.flattenMarked c o nested (.root space s.name) with
    | some s => return [.struct s]
    | none => return []
  | .classDecl d => do
    if isMarkerClass d.name d.base then
      Drafting.noteDropped ("marker declaration " ++ d.name)
      return []
    else return [.classDecl d]
  | i => return [i]

/-- What takes the place of some items. -/
def Item.flattenMarkedAll (c : Catalog) (o : Options) (space : Option String) :
    List Item → Drafting (List Item)
  | [] => return []
  | i :: is => do
    let first ← i.flattenMarked c o space
    let rest ← Item.flattenMarkedAll c o space is
    return first ++ rest

/-- The unit with its marked structs replaced. -/
def SourceUnit.flattenMarked (c : Catalog) (o : Options) (u : SourceUnit) :
    Drafting SourceUnit := do
  let items ← Item.flattenMarkedAll c o u.namespaceName u.items
  return { u with items := items }

end FlatLayout
