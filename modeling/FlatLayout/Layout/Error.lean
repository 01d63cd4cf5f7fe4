import FlatLayout.Layout.Binding
import FlatLayout.Text.Number

/-!
# Why a struct has no layout

## Main definitions

* `Flaw` — what makes a flat struct unfit to be published
* `LayoutError` — why a struct cannot be laid out, with `LayoutError.message`
-/

namespace FlatLayout

/-- What makes a flat struct unfit to be published. -/
inductive Flaw where
  /-- The layout attribute does not say what was computed. -/
  | layoutAttr (key : QualName) (size : UInt32)
  /-- An instance field lacks an offset. -/
  | noOffset (key : QualName) (field : String)
  /-- Two members have one name. -/
  | repeated (key : QualName) (member : String)
  /-- A member does not end inside the struct. -/
  | pastEnd (key : QualName) (member : String) (memberEnd size : UInt32)
  /-- An accessor has no field at its offset. -/
  | dangling (key : QualName) (accessor : String) (offset : UInt32)
  /-- The flat declaration has another layout than the one it was computed from. -/
  | drift (key : QualName) (size alignment newSize newAlignment : UInt32)
  deriving DecidableEq

/-- The message for a flaw. -/
def Flaw.message : Flaw → String
  | layoutAttr key size =>
    key.text ++ " is not emitted as Explicit, Pack = 1, Size = " ++ Text.decimal size.toNat
  | noOffset key field => key.text ++ "." ++ field ++ " has no offset"
  | repeated key member => key.text ++ " declares " ++ member ++ " twice"
  | pastEnd key member memberEnd size =>
    key.text ++ "." ++ member ++ " ends at " ++ Text.decimal memberEnd.toNat ++ " past size " ++
      Text.decimal size.toNat
  | dangling key accessor offset =>
    "accessor " ++ key.text ++ "." ++ accessor ++ " does not point at a field at " ++
      Text.decimal offset.toNat
  | drift key size alignment newSize newAlignment =>
    key.text ++ " drifts on re-flatten: size " ++ Text.decimal size.toNat ++ " / alignment " ++
      Text.decimal alignment.toNat ++ " became size " ++ Text.decimal newSize.toNat ++
      " / alignment " ++ Text.decimal newAlignment.toNat

/-- Why a struct cannot be laid out. -/
inductive LayoutError where
  /-- A name is bound to nothing in its scope. -/
  | unresolvedType (type : String) (scope : String)
  /-- A member has a type without a layout. -/
  | managedType (name : String)
  /-- An enumeration is based on something that is no integer. -/
  | enumBase (key : QualName) (type : TypeRef)
  /-- A field of an explicit layout lacks an offset. -/
  | missingOffset (struct field : String)
  /-- A fixed buffer is declared under several names. -/
  | groupedBuffer (names : List String) (struct : String)
  /-- A conditional block is left among the members. -/
  | conditionalBlock (symbol struct : String)
  /-- A fixed buffer has structs for elements. -/
  | structBuffer (struct field : String) (element : TypeRef)
  /-- A pack is no small power of two. -/
  | invalidPack (struct : String) (value : UInt32)
  /-- An offset is no word. -/
  | offsetOverflow (struct : String) (value : UInt32)
  /-- The size of a buffer is no word. -/
  | bufferOverflow (struct : String) (count : UInt32)
  /-- Two members have one name. -/
  | duplicateMember (struct member : String)
  /-- A struct contains itself. -/
  | cyclicLayout (key : QualName)
  /-- A flat struct is unfit to be published. -/
  | flawed (flaw : Flaw)
  deriving DecidableEq

namespace LayoutError

/-- The message for a value out of its range. -/
def invalidMessage (parameter struct : String) (value : UInt32) : String :=
  "Invalid value for " ++ parameter ++ " in layout of " ++ struct ++ ", got " ++
    Text.decimal value.toNat

/-- The message of an error. -/
def message : LayoutError → String
  | unresolvedType type scope =>
    "Could not resolve member type " ++ type ++ " (from " ++ scope ++ ")"
  | managedType name => "Non-unmanaged or unsupported type: " ++ name
  | enumBase key type =>
    "Non-unmanaged or unsupported type: enum " ++ key.text ++ " : " ++ type.text
  | missingOffset struct field =>
    "Missing field offset from member in struct with explicit layout. Struct: " ++ struct ++
      ", field: " ++ field
  | groupedBuffer names struct =>
    "Not implemented: splitting grouped fixed buffer " ++ ", ".intercalate names ++ " in " ++ struct
  | conditionalBlock symbol struct =>
    "Not implemented: unexpanded #if " ++ symbol ++ " block in " ++ struct
  | structBuffer struct field element =>
    "Not implemented: fixed buffer " ++ struct ++ "." ++ field ++ " of struct elements (" ++
      element.text ++ ")"
  | invalidPack struct value => invalidMessage "Pack" struct value
  | offsetOverflow struct value => invalidMessage "offset" struct value
  | bufferOverflow struct count => invalidMessage "fixed buffer length" struct count
  | duplicateMember struct member =>
    "Duplicate member " ++ member ++ " in flattened struct " ++ struct
  | cyclicLayout key => "Struct " ++ key.text ++ " contains itself by value"
  | flawed flaw => "Validation failed: " ++ flaw.message

end LayoutError

end FlatLayout
