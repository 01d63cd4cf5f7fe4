import FlatLayout.Layout.PlacedMember
import FlatLayout.Layout.Rule

/-!
# Flat structs

The result of laying out a struct: its footprint, its placed members, and the declaration made of
them.

## Main definitions

* `Footprint` — size and alignment, all that a container needs to know
* `FlatStruct` — the result for one struct
* `StructDecl.withPlaced` — the flat declaration: every instance field replaced by the members made
  from it
-/

namespace FlatLayout

/-- What a struct needs where it is embedded. -/
structure Footprint where
  /-- All bytes, padding at the end included. -/
  size : UInt32
  /-- The largest alignment that a member asks for. -/
  alignment : UInt32
  deriving DecidableEq

/-- The result of laying out a struct. -/
structure FlatStruct where
  key : QualName
  /-- The markers of the declaration. -/
  markers : Markers
  decl : StructDecl
  footprint : Footprint
  members : List PlacedMember

namespace FlatStruct

/-- The members with storage. -/
def fields (f : FlatStruct) : List PlacedMember := f.members.filter fun m => !m.isAccessor

/-- The first member with a name. -/
def member? (f : FlatStruct) (name : String) : Option PlacedMember :=
  f.members.find? fun m => m.name == name

end FlatStruct

/-- Members of a declaration, counted from `index` on, with each instance field replaced by the
placed members that were made from it. Placed members are taken in order, as long as they belong to
the field at hand. -/
def replaceFields (container : String) : Nat → List Member → List PlacedMember → List Member
  | _, [], _ => []
  | index, .field f :: ms, placed =>
    if f.isInstance then
      (placed.takeWhile (·.source == index)).map (·.toMember container) ++
        replaceFields container (index + 1) ms (placed.dropWhile (·.source == index))
    else .field f :: replaceFields container (index + 1) ms placed
  | index, m :: ms, placed => m :: replaceFields container (index + 1) ms placed

/-- The flat declaration of a struct: with the placed members for its instance fields, without
markers, and with a layout attribute that leaves nothing to be computed. -/
def StructDecl.withPlaced (s : StructDecl) (placed : List PlacedMember) (size : UInt32) :
    StructDecl :=
  { modifiers := s.modifiers
    name := s.name
    markers := .none
    layout := some (LayoutAttr.flat size)
    members := replaceFields s.name 0 s.members placed }

end FlatLayout
