import FlatLayout.Decl.Marker

/-!
# Declarations

The tree of declarations of one source file: structs with their fields and nested types, enums and
classes, and text that is carried along unread. Conditional blocks stand between the members of a
struct.

## Main definitions

* `LayoutAttr` — the layout attribute as its author wrote it
* `FieldDecl`, `AccessorDecl`, `EnumDecl`, `ClassDecl` — leaves of the tree
* `Member`, `StructDecl` — a struct and what stands in its body
* `Item`, `SourceUnit` — a source file
* `FieldDecl.split` — one declaration for each name of a grouped one
-/

namespace FlatLayout

/-- Whether offsets are computed or written by the author. -/
inductive LayoutKind where
  | sequential
  | explicit
  deriving DecidableEq

/-- The layout attribute of a struct as written. -/
structure LayoutAttr where
  kind : LayoutKind
  pack : Option UInt32
  size : Option UInt32
  deriving DecidableEq

/-- A field declaration, which may declare several fields of one type. -/
structure FieldDecl where
  modifiers : List String
  type : TypeRef
  names : List String
  fixedCount : Option UInt32
  offset : Option UInt32
  isStatic : Bool
  isConst : Bool
  markers : Markers
  deriving DecidableEq

namespace FieldDecl

/-- A public declaration of some fields and nothing else said about them. -/
def ofNames (type : TypeRef) (names : List String) : FieldDecl :=
  ⟨["public"], type, names, none, none, false, false, .none⟩

/-- Adds a modifier unless it is there. -/
def addModifier (modifiers : List String) (m : String) : List String :=
  if modifiers.contains m then modifiers else modifiers ++ [m]

/-- The field with an offset. -/
def withOffset (f : FieldDecl) (offset : UInt32) : FieldDecl := { f with offset := some offset }

/-- The field as a buffer of some elements, which only unsafe code may declare. -/
def withFixedCount (f : FieldDecl) (count : UInt32) : FieldDecl :=
  { f with fixedCount := some count, modifiers := addModifier f.modifiers "unsafe" }

/-- The field with other markers. -/
def withMarkers (f : FieldDecl) (markers : Markers) : FieldDecl := { f with markers := markers }

/-- The field as a static one. -/
def asStatic (f : FieldDecl) : FieldDecl := { f with isStatic := true }

/-- Whether every instance has storage for the field. -/
def isInstance (f : FieldDecl) : Bool := !f.isStatic && !f.isConst

/-- Whether several fields are declared at once. -/
def isGrouped (f : FieldDecl) : Bool := 1 < f.names.length

/-- The first name. -/
def name (f : FieldDecl) : String := f.names.headD ""

/-- One declaration for each name, in order. -/
def split (f : FieldDecl) : List FieldDecl := f.names.map fun n => { f with names := [n] }

end FieldDecl

/-- A computed, read-only pointer property: the address of `baseField` inside an instance of
`container`, as a pointer to `pointee`. It has no storage of its own. -/
structure AccessorDecl where
  modifiers : List String
  name : String
  pointee : TypeRef
  container : String
  baseField : String
  offset : UInt32
  deriving DecidableEq

namespace AccessorDecl

/-- The type of the property. -/
def returnType (a : AccessorDecl) : Except DeclError TypeRef := a.pointee.pointerTo

/-- The address that the property yields for an instance at an address. -/
def addressIn (a : AccessorDecl) (instanceBase : UInt64) : UInt64 :=
  instanceBase + a.offset.toUInt64

end AccessorDecl

/-- An enumeration. Its variants are text. -/
structure EnumDecl where
  modifiers : List String
  name : String
  underlying : Option TypeRef
  variants : List String
  deriving DecidableEq

/-- A class. Its body is text. -/
structure ClassDecl where
  modifiers : List String
  name : String
  base : Option String
  body : List String
  deriving DecidableEq

mutual

/-- What stands in the body of a struct. -/
inductive Member where
  | field (decl : FieldDecl)
  | accessor (decl : AccessorDecl)
  | struct (decl : StructDecl)
  | enum (decl : EnumDecl)
  /-- Members that are there if a symbol is defined, and others that are there if it is not. -/
  | conditional (symbol : String) (members : List Member) (otherwise : List Member)
  | verbatim (text : String)
  deriving BEq

/-- A struct declaration. -/
structure StructDecl where
  modifiers : List String
  name : String
  markers : Markers
  layout : Option LayoutAttr
  members : List Member
  deriving BEq

end

/-- The declaration of a member that is a field. -/
def Member.field? : Member → Option FieldDecl
  | .field f => some f
  | _ => none

/-- The declaration of a member that is an accessor. -/
def Member.accessor? : Member → Option AccessorDecl
  | .accessor a => some a
  | _ => none

/-- The declaration of a member that is a nested struct. -/
def Member.struct? : Member → Option StructDecl
  | .struct s => some s
  | _ => none

namespace StructDecl

/-- A public struct without members. -/
def ofName (name : String) : StructDecl := ⟨["public"], name, .none, none, []⟩

/-- The struct with a member added at its end. -/
def push (s : StructDecl) (m : Member) : StructDecl := { s with members := s.members ++ [m] }

/-- The field declarations, in order. -/
def fields (s : StructDecl) : List FieldDecl := s.members.filterMap Member.field?

/-- The accessors, in order. -/
def accessors (s : StructDecl) : List AccessorDecl := s.members.filterMap Member.accessor?

/-- The first field declaration that declares a name. -/
def field? (s : StructDecl) (name : String) : Option FieldDecl :=
  s.fields.find? fun f => f.names.contains name

/-- The first accessor with a name. -/
def accessor? (s : StructDecl) (name : String) : Option AccessorDecl :=
  s.accessors.find? fun a => a.name == name

/-- The first nested struct with a name. -/
def nested? (s : StructDecl) (name : String) : Option StructDecl :=
  (s.members.filterMap Member.struct?).find? fun n => n.name == name

end StructDecl

/-- What stands at the top of a source file. -/
inductive Item where
  | struct (decl : StructDecl)
  | enum (decl : EnumDecl)
  | classDecl (decl : ClassDecl)
  | verbatim (text : String)
  deriving BEq

/-- The declaration of an item that is a struct. -/
def Item.struct? : Item → Option StructDecl
  | .struct s => some s
  | _ => none

/-- One source file worth of declarations. -/
structure SourceUnit where
  name : String
  namespaceName : Option String
  imports : List String
  items : List Item
  deriving BEq

namespace SourceUnit

/-- A unit without items. -/
def ofName (name : String) : SourceUnit := ⟨name, none, [], []⟩

/-- The unit with an item added at its end. -/
def push (u : SourceUnit) (i : Item) : SourceUnit := { u with items := u.items ++ [i] }

/-- The structs at the top of the unit, in order. -/
def structs (u : SourceUnit) : List StructDecl := u.items.filterMap Item.struct?

/-- The first struct at the top of the unit with a name. -/
def struct? (u : SourceUnit) (name : String) : Option StructDecl :=
  u.structs.find? fun s => s.name == name

end SourceUnit

end FlatLayout
