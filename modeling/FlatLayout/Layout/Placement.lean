import FlatLayout.Layout.Alignment
import FlatLayout.Layout.FlatStruct

/-!
# Placing the fields of one struct

The fields of a struct are placed one after the other. What a field contributes depends on its type
(a scalar, a fixed buffer, a struct that is flat already) and on what has been placed before it; all
of this is a function from a `Placement` to the next one.

## Main definitions

* `Options` — what can be chosen for a target
* `Placement` — what has been placed of a struct so far
* `Element` — what a field is made of: bytes, or a flat struct
* `Placement.place` — places one field
* `Placement.finish` — the footprint
* `StructDecl.slots` — the fields of a struct in the order in which they are placed
-/

namespace FlatLayout

/-- What can be chosen for a target. -/
structure Options where
  pointerWidth : UInt32
  /-- Whether the fields of nested structs are spread into their container. -/
  inlineNested : Bool
  /-- Whether the size of a struct is rounded up to its alignment. -/
  padTrailing : Bool
  deriving DecidableEq

/-- The usual options for pointers of some width. -/
def Options.ofPointerWidth (n : UInt32) : Options := ⟨n, true, true⟩

/-- What a field is made of. -/
inductive Element where
  | scalar (size : UInt32)
  | struct (flat : FlatStruct)

/-- What has been placed of a struct. -/
structure Placement where
  /-- The name of the struct, for messages. -/
  name : String
  rule : LayoutRule
  isUnion : Bool
  /-- The first byte behind all fields. -/
  size : UInt32
  /-- The largest alignment asked for. -/
  largest : UInt32
  members : List PlacedMember

/-- A field that was placed: where, how large, and what the placement is now. -/
structure Placed where
  offset : UInt32
  size : UInt32
  placement : Placement

namespace Placement

/-- Nothing has been placed. -/
def start (name : String) (rule : LayoutRule) (isUnion : Bool) : Placement :=
  ⟨name, rule, isUnion, 0, 0, []⟩

/-- Whether fields may share bytes. -/
def overlapping (p : Placement) : Bool := p.isUnion || p.rule.isExplicit

/-- Where a field goes before it is aligned: to the front of a union, to the offset its author
wrote, or behind all that was placed. -/
def baseOffset (p : Placement) (f : FieldDecl) : Except LayoutError UInt32 :=
  if p.isUnion then .ok 0
  else if p.rule.isExplicit then
    match f.offset with
    | some n => .ok n
    | none => .error (.missingOffset p.name f.name)
  else .ok p.size

/-- The next offset that suits a natural alignment. -/
def align (p : Placement) (natural base : UInt32) : Except LayoutError UInt32 :=
  match (Alignment.effective p.rule.pack natural).align base with
  | some offset => .ok offset
  | none => .error (.offsetOverflow p.name base)

/-- The role of a field that is placed as it was declared. -/
def plainRole (p : Placement) : Role := if p.isUnion then .unionMember else .plain

/-- The placement with more members, and with an alignment taken into account. -/
def add (p : Placement) (alignment : UInt32) (ms : List PlacedMember) : Placement :=
  { p with
    largest := if p.largest ≤ alignment then alignment else p.largest
    members := p.members ++ ms }

/-- Places a field of a scalar type. -/
def placeScalar (p : Placement) (f : FieldDecl) (source : Nat) (size base : UInt32) :
    Except LayoutError Placed := do
  let offset ← p.align size base
  .ok ⟨offset, size, p.add size [.ofField f source offset size p.plainRole]⟩

/-- The members that stand for a buffer: the buffer itself, or a field for its first element and an
accessor under the name of the buffer. -/
def bufferMembers (p : Placement) (f : FieldDecl) (source : Nat) (native : Bool)
    (offset size : UInt32) : List PlacedMember :=
  if native then [.ofField f source offset size p.plainRole]
  else
    let start := startName f.name
    [{ PlacedMember.ofField f source offset size .bufferStart with
        name := start, fixedCount := none },
      .bufferAccessor f start offset source]

/-- Places a fixed buffer. Its elements may not be structs. -/
def placeBuffer (p : Placement) (f : FieldDecl) (source : Nat) (count : UInt32) (native : Bool)
    (element : Element) (base : UInt32) : Except LayoutError Placed :=
  match element with
  | .struct _ => .error (.structBuffer p.name f.name f.type)
  | .scalar elementSize =>
    match Word.mulChecked elementSize count with
    | none => .error (.bufferOverflow p.name count)
    | some size => do
      let offset ← p.align elementSize base
      .ok ⟨offset, size, p.add elementSize (p.bufferMembers f source native offset size)⟩

/-- The members of a flat struct as members of a container in which it stands at `base`. -/
def promoteAll (child : FlatStruct) (outer : Option String) (base : UInt32) (source : Nat) :
    Option (List PlacedMember) :=
  child.members.mapM fun m => m.promote outer base source

/-- Puts a member behind the first one with storage, which `reference` is told the name of. -/
def insertReference (reference : String → PlacedMember) (ms : List PlacedMember) :
    List PlacedMember :=
  let before := ms.takeWhile (·.isAccessor)
  match ms.dropWhile (·.isAccessor) with
  | [] => before
  | first :: rest => before ++ first :: reference first.name :: rest

/-- The members that a nested struct contributes: its own ones, under their names if it is anonymous
and otherwise behind the name of the field and with an accessor for the whole; or, if nested structs
are kept together, one field and the accessor. -/
def nestedMembers (o : Options) (f : FieldDecl) (child : FlatStruct) (source : Nat)
    (offset : UInt32) : Option (List PlacedMember) :=
  match child.fields with
  | [] => some []
  | first :: _ =>
    if f.markers.anonymous || child.markers.anonymous then promoteAll child none offset source
    else if o.inlineNested then
      (promoteAll child (some f.name) offset source).map
        (insertReference fun name => .nestedAccessor f name offset source)
    else
      let start := startName f.name
      some [⟨start, first.type, offset, child.footprint.size, first.fixedCount, .nestedStart,
          f.modifiers, none, source⟩,
        .nestedAccessor f start offset source]

/-- Places a field whose type is a struct. -/
def placeNested (p : Placement) (o : Options) (f : FieldDecl) (source : Nat) (child : FlatStruct)
    (base : UInt32) : Except LayoutError Placed := do
  let alignment := child.footprint.alignment
  let offset ← p.align alignment base
  match nestedMembers o f child source offset with
  | some ms => .ok ⟨offset, child.footprint.size, p.add alignment ms⟩
  | none => .error (.offsetOverflow p.name offset)

/-- Places a field, given what it is made of and where it goes before it is aligned. -/
def place (p : Placement) (o : Options) (f : FieldDecl) (source : Nat) (type : Binding)
    (element : Element) (base : UInt32) : Except LayoutError Placed :=
  match f.fixedCount, element with
  | some count, element => p.placeBuffer f source count type.isBufferElement element base
  | none, .scalar size => p.placeScalar f source size base
  | none, .struct child => p.placeNested o f source child base

/-- Moves the end of the struct behind a field. -/
def advance (p : Placement) (offset size : UInt32) : Except LayoutError Placement :=
  match Word.addChecked offset size with
  | none => .error (.offsetOverflow p.name offset)
  | some fieldEnd =>
    if p.overlapping && fieldEnd < p.size then .ok p else .ok { p with size := fieldEnd }

/-- The first name that an earlier one repeats. -/
def firstRepeated : List String → List String → Option String
  | _, [] => none
  | seen, n :: ns => if seen.contains n then some n else firstRepeated (n :: seen) ns

/-- Refuses two members with one name. -/
def checkNames (p : Placement) : Except LayoutError Unit :=
  match firstRepeated [] (p.members.map (·.name)) with
  | some name => .error (.duplicateMember p.name name)
  | none => .ok ()

/-- The footprint of the struct: all bytes, rounded up to the alignment if that is asked for, and at
least the size that its author wrote. -/
def finish (p : Placement) (padTrailing : Bool) : Except LayoutError Footprint := do
  let size ← if padTrailing then p.align p.largest p.size else .ok p.size
  .ok ⟨if size ≤ p.rule.size then p.rule.size else size, p.largest⟩

end Placement

/-! ### What is placed -/

/-- A step in placing the fields of a struct. -/
inductive Slot where
  /-- A field with a single name. -/
  | field (decl : FieldDecl) (source : Nat)
  /-- A fixed buffer under several names, which has no layout. -/
  | groupedBuffer (decl : FieldDecl)
  /-- A conditional block, which has no layout. -/
  | conditional (symbol : String)

/-- The steps that a member of a declaration asks for. -/
def Member.slots (source : Nat) : Member → List Slot
  | .field f =>
    if !f.isInstance then []
    else if f.isGrouped then
      if f.fixedCount.isSome then [.groupedBuffer f] else f.split.map (.field · source)
    else [.field f source]
  | .conditional symbol _ _ => [.conditional symbol]
  | _ => []

/-- The steps in placing the fields of a struct, in order. -/
def StructDecl.slots (s : StructDecl) : List Slot :=
  (s.members.zipIdx).flatMap fun (m, i) => m.slots i

end FlatLayout
