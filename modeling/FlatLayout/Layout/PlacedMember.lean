import FlatLayout.Decl.Basic
import FlatLayout.Layout.Word

/-!
# Placed members

The members of a flat struct. A field occupies bytes at its offset; an accessor occupies none and
carries the offset of the field that it points at.

## Main definitions

* `Role` — how a member came to be where it is
* `PlacedMember` — a member with its offset and size
* `PlacedMember.promote` — the member as a member of a container of its struct
* `PlacedMember.toMember` — the declaration of the member
-/

namespace FlatLayout

/-- How a member of a flat struct came to be. -/
inductive Role where
  | plain
  | unionMember
  /-- A field of an anonymous struct, which keeps its name. -/
  | anonymousInlined
  /-- A field of a nested struct, named after both. -/
  | promoted
  /-- The single element that stands for a buffer without a native form. -/
  | bufferStart
  | bufferAccessor
  /-- The field that stands for a nested struct that is kept together. -/
  | nestedStart
  | nestedAccessor
  deriving DecidableEq

/-- Accessors have no storage. -/
def Role.isAccessor : Role → Bool
  | .bufferAccessor | .nestedAccessor => true
  | _ => false

/-- A member of a flat struct. -/
structure PlacedMember where
  name : String
  type : TypeRef
  offset : UInt32
  size : UInt32
  fixedCount : Option UInt32
  role : Role
  modifiers : List String
  /-- The field that an accessor points at. -/
  baseField : Option String
  /-- Which member of the declaration it was made from. -/
  source : Nat
  deriving DecidableEq

/-- The name of the field that stands for a buffer or a nested struct. -/
def startName (field : String) : String := field ++ "_Start"

/-- The name of the accessor of a nested struct. -/
def refName (field : String) : String := field ++ "_Ref"

namespace PlacedMember

/-- A declared field at an offset. -/
def ofField (f : FieldDecl) (source : Nat) (offset size : UInt32) (role : Role) : PlacedMember :=
  ⟨f.name, f.type, offset, size, f.fixedCount, role, f.modifiers, none, source⟩

/-- An accessor of a field at an offset. -/
def accessor (name : String) (pointee : TypeRef) (baseField : String) (offset : UInt32)
    (modifiers : List String) (role : Role) (source : Nat) : PlacedMember :=
  ⟨name, pointee, offset, 0, none, role, modifiers, some baseField, source⟩

/-- The accessor of a buffer, under the name that the buffer was declared with. -/
def bufferAccessor (buffer : FieldDecl) (start : String) (offset : UInt32) (source : Nat) :
    PlacedMember :=
  accessor buffer.name buffer.type start offset buffer.modifiers .bufferAccessor source

/-- The accessor of a nested struct as a whole. -/
def nestedAccessor (nested : FieldDecl) (first : String) (offset : UInt32) (source : Nat) :
    PlacedMember :=
  accessor (refName nested.name) nested.type first offset nested.modifiers .nestedAccessor source

/-- Whether the member has no storage. -/
def isAccessor (m : PlacedMember) : Bool := m.role.isAccessor

/-- The first byte behind the member, or the greatest word. -/
def endOffset (m : PlacedMember) : UInt32 := Word.addClamped m.offset m.size

/-- The name of a member inside a container: behind the name of the field it belongs to, if that
has a name of its own in the container. -/
def qualify (outer : Option String) (name : String) : String :=
  match outer with
  | some o => o ++ "_" ++ name
  | none => name

/-- The role of a promoted member. Accessors stay what they are. -/
def promotedRole (outer : Option String) (role : Role) : Role :=
  if role.isAccessor then role else if outer.isSome then .promoted else .anonymousInlined

/-- The member as a member of a container in which its struct stands at `base`; `none` if its offset
there is no word. -/
def promote (m : PlacedMember) (outer : Option String) (base : UInt32) (source : Nat) :
    Option PlacedMember :=
  (Word.addChecked m.offset base).map fun offset =>
    { m with
      name := qualify outer m.name
      offset := offset
      role := promotedRole outer m.role
      baseField := m.baseField.map (qualify outer)
      source := source }

/-- The declaration of the field that a member is. -/
def toField (m : PlacedMember) : FieldDecl :=
  ⟨m.modifiers, m.type, [m.name], m.fixedCount, some m.offset, false, false, .none⟩

/-- The declaration of the member in a struct with a name. -/
def toMember (m : PlacedMember) (container : String) : Member :=
  match m.baseField with
  | some base =>
    if m.isAccessor then
      .accessor ⟨FieldDecl.addModifier m.modifiers "unsafe", m.name, m.type, container, base,
        m.offset⟩
    else .field m.toField
  | none => .field m.toField

end PlacedMember

end FlatLayout
