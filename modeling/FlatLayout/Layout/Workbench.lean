import FlatLayout.Layout.Catalog
import FlatLayout.Layout.Memo
import FlatLayout.Layout.Placement
import FlatLayout.Log

/-!
# Flattening structs

A struct is flattened by placing its fields in order. A field of struct type asks for that struct to
be flattened first; every struct is laid out once and then kept.

## Main definitions

* `Workbench` — the finished structs, those under way, and what was reported
* `Bench` — steps at the workbench, which may fail but keep what was finished before
* `layoutStruct` — one struct, given how the structs it contains are obtained
* `Bench.flatten` — a struct of a catalog
* `Bench.sizeOf` — the size of a type

## Implementation notes

`layoutStruct` knows nothing of recursion: it is told by `child` how to obtain a contained struct.
`flattenWithin` ties the knot with fuel. A struct is never asked for while it is under way, so the
structs under way are different structs of the catalog, and one more than there are structs is fuel
enough.
-/

namespace FlatLayout

/-- The state of flattening. -/
structure Workbench where
  memo : Memo
  /-- The structs under way, the innermost first. -/
  pending : List QualName
  /-- How many layouts were computed. -/
  computed : Nat
  /-- What was reported, the latest first. -/
  log : List Log.Record

/-- Nothing was done. -/
def Workbench.empty : Workbench := ⟨.empty, [], 0, []⟩

/-- Steps at the workbench. When a step fails, what was done before stays done. -/
abbrev Bench (α : Type) := ExceptT LayoutError (StateM Workbench) α

namespace Bench

/-- Reports something. -/
def note (level : Log.Level) (origin : Log.Origin) (message : String) : Bench Unit :=
  modify fun w => { w with log := ⟨level, origin, message⟩ :: w.log }

/-- The outcome of a computation that needs no workbench. -/
def ofExcept {α : Type} (r : Except LayoutError α) : Bench α := ExceptT.mk (pure r)

/-- Looks for a finished struct. -/
def finished? (key : QualName) : Bench (Option FlatStruct) := do
  let w ← get
  let (found, memo) := w.memo.get? key
  set { w with memo := memo }
  return found

/-- Does some steps while a struct is under way. Afterwards it is not, however they end. -/
def during {α : Type} (key : QualName) (steps : Bench α) : Bench α :=
  ExceptT.mk do
    modify fun w => { w with pending := key :: w.pending }
    let r ← steps.run
    modify fun w => { w with pending := w.pending.tail }
    return r

/-- Keeps a finished struct. -/
def finish (f : FlatStruct) : Bench Unit :=
  modify fun w => { w with memo := w.memo.insert f, computed := w.computed + 1 }

end Bench

/-! ### One struct -/

/-- What a field of a type is made of. `child` obtains the structs it contains. -/
def elementOf (o : Options) (child : QualName → Bench FlatStruct) : Binding → Bench Element
  | .pointer _ => pure (.scalar o.pointerWidth)
  | .primitive p => pure (.scalar (p.size o.pointerWidth))
  | .enum _ p => pure (.scalar (p.size o.pointerWidth))
  | .struct key => do return .struct (← child key)
  | .managed name => throw (.managedType name)

/-- Reports a contained struct that has no fields to contribute. -/
def noteEmpty (p : Placement) (f : FieldDecl) : Element → Bench Unit
  | .struct flat =>
    if flat.fields.isEmpty then
      Bench.note .debug .engine (p.name ++ "." ++ f.name ++ ": " ++ flat.key.text ++
        " has no instance fields, reserving " ++ Text.decimal flat.footprint.size.toNat ++ " bytes")
    else pure ()
  | .scalar _ => pure ()

/-- Places one field of the struct `scope`. -/
def placeField (c : Catalog) (o : Options) (child : QualName → Bench FlatStruct)
    (scope : QualName) (p : Placement) (f : FieldDecl) (source : Nat) : Bench Placement := do
  let type ← Bench.ofExcept (c.bind f.type scope)
  let base ← Bench.ofExcept (p.baseOffset f)
  let element ← elementOf o child type
  let placed ← Bench.ofExcept (p.place o f source type element base)
  noteEmpty p f element
  Bench.note .trace .engine (p.name ++ "." ++ f.name ++ " @ " ++
    Text.decimal placed.offset.toNat ++ " (" ++ Text.decimal placed.size.toNat ++ " bytes)")
  Bench.ofExcept (placed.placement.advance placed.offset placed.size)

/-- Takes one step in placing the fields of the struct `scope`. -/
def placeSlot (c : Catalog) (o : Options) (child : QualName → Bench FlatStruct)
    (scope : QualName) (p : Placement) : Slot → Bench Placement
  | .field f source => placeField c o child scope p f source
  | .groupedBuffer f => throw (.groupedBuffer f.names p.name)
  | .conditional symbol => throw (.conditionalBlock symbol p.name)

/-- The words for a placement rule. -/
def ruleText (rule : LayoutRule) (isUnion : Bool) : String :=
  (match rule.kind with
    | .sequential => "Sequential"
    | .explicit => "Explicit") ++
  ", pack " ++ Text.decimal rule.pack.toNat ++ (if isUnion then ", union" else "")

/-- Lays out a struct. `child` obtains the structs it contains. -/
def layoutStruct (c : Catalog) (o : Options) (child : QualName → Bench FlatStruct)
    (key : QualName) (s : StructDecl) : Bench FlatStruct := do
  let rule ← Bench.ofExcept (LayoutRule.ofAttr s.name s.layout)
  Bench.note .debug .engine
    ("Flattening " ++ key.text ++ " (" ++ ruleText rule s.markers.union ++ ")")
  let start := Placement.start s.name rule s.markers.union
  let p ← s.slots.foldlM (placeSlot c o child key) start
  Bench.ofExcept p.checkNames
  let footprint ← Bench.ofExcept (p.finish o.padTrailing)
  Bench.note .debug .engine (key.text ++ ": size " ++ Text.decimal footprint.size.toNat ++
    ", largest member alignment " ++ Text.decimal footprint.alignment.toNat)
  return ⟨key, s.markers, s.withPlaced p.members footprint.size, footprint, p.members⟩

/-! ### All structs of a catalog -/

/-- The declaration of a struct that is to be laid out. -/
def Catalog.declaration (c : Catalog) (key : QualName) : Except LayoutError StructDecl :=
  match c.struct? key with
  | some s => .ok s
  | none =>
    let scope := match key.parent? with
      | some k => k.text
      | none => ""
    .error (.unresolvedType key.text scope)

/-- Flattens a struct that contains other structs at most so deep. -/
def flattenWithin (c : Catalog) (o : Options) : Nat → QualName → Bench FlatStruct
  | 0, key => throw (.cyclicLayout key)
  | fuel + 1, key => do
    match ← Bench.finished? key with
    | some f => return f
    | none =>
      if (← get).pending.contains key then throw (.cyclicLayout key)
      let s ← Bench.ofExcept (c.declaration key)
      let f ← Bench.during key (layoutStruct c o (flattenWithin c o fuel) key s)
      Bench.finish f
      return f

/-- Flattens a struct of a catalog, or recalls it. -/
def Bench.flatten (c : Catalog) (o : Options) (key : QualName) : Bench FlatStruct :=
  flattenWithin c o (c.structs.length + 1) key

/-- What a field of some type would be made of. -/
def Bench.sizeOf (c : Catalog) (o : Options) (type : Binding) : Bench Element :=
  elementOf o (Bench.flatten c o) type

/-- The size of an element. -/
def Element.size : Element → UInt32
  | .scalar size => size
  | .struct flat => flat.footprint.size

end FlatLayout
