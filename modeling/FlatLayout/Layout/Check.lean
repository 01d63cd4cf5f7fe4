import FlatLayout.Layout.FlatStruct

/-!
# Checking flat structs

Whether a flat struct is safe to publish, and which of its fields share bytes.

## Main definitions

* `FlatStruct.check` — the first flaw of a flat struct
* `FlatStruct.overlaps` — the pairs of fields that share a byte
-/

namespace FlatLayout

namespace FlatStruct

/-- The attribute says what was computed. -/
def checkAttr (f : FlatStruct) : Except Flaw Unit :=
  if f.decl.layout = some (LayoutAttr.flat f.footprint.size) then .ok ()
  else .error (.layoutAttr f.key f.footprint.size)

/-- Every instance field has an offset. -/
def checkOffsets (f : FlatStruct) : Except Flaw Unit :=
  match f.decl.fields.find? fun d => d.isInstance && d.offset.isNone with
  | some d => .error (.noOffset f.key d.name)
  | none => .ok ()

/-- No name is repeated and every member ends inside the struct. Both are checked for one member
after the other; `seen` holds the names of those before. -/
def checkMembers (key : QualName) (size : UInt32) :
    List String → List PlacedMember → Except Flaw Unit
  | _, [] => .ok ()
  | seen, m :: ms =>
    if seen.contains m.name then .error (.repeated key m.name)
    else if size < m.endOffset then .error (.pastEnd key m.name m.endOffset size)
    else checkMembers key size (m.name :: seen) ms

/-- Whether an accessor points at a field that is where the accessor says. -/
def pointsAtField (f : FlatStruct) (a : PlacedMember) : Bool :=
  match a.baseField.bind f.member? with
  | some target => !target.isAccessor && target.offset == a.offset
  | none => false

/-- Every accessor points at a field. -/
def checkAccessors (f : FlatStruct) : Except Flaw Unit :=
  match f.members.find? fun m => m.isAccessor && !f.pointsAtField m with
  | some a => .error (.dangling f.key a.name a.offset)
  | none => .ok ()

/-- The first flaw of a flat struct. -/
def check (f : FlatStruct) : Except Flaw Unit := do
  f.checkAttr
  f.checkOffsets
  checkMembers f.key f.footprint.size [] f.members
  f.checkAccessors

/-- The same, as a step that fails. -/
def checked (f : FlatStruct) : Except LayoutError Unit :=
  match f.check with
  | .ok _ => .ok ()
  | .error flaw => .error (.flawed flaw)

end FlatStruct

/-- Whether two members share a byte, by their ends. -/
def PlacedMember.overlaps (a b : PlacedMember) : Bool :=
  a.offset < b.endOffset && b.offset < a.endOffset

/-- The pairs of members that share a byte, each pair once and in order. -/
def overlapPairs : List PlacedMember → List (PlacedMember × PlacedMember)
  | [] => []
  | a :: ms => (ms.filter a.overlaps).map (fun b => (a, b)) ++ overlapPairs ms

/-- The pairs of fields that share a byte. Fields without bytes share none. -/
def FlatStruct.overlaps (f : FlatStruct) : List (PlacedMember × PlacedMember) :=
  overlapPairs (f.fields.filter fun m => m.size ≠ 0)

end FlatLayout
