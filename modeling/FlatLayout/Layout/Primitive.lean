import FlatLayout.Text.Affix

/-!
# Primitive types

The types with a size of their own, under their keywords and under their library names. Some other
names are known too, but stand for types without a layout.

## Main definitions

* `Primitive`, `Primitive.ofName?`, `Primitive.size`
* `isManagedName` — the known names without a layout
-/

namespace FlatLayout

/-- A type with a size of its own. -/
inductive Primitive where
  | bool
  | byte
  | sbyte
  | ushort
  | short
  | char
  | uint
  | int
  | float
  | ulong
  | long
  | double
  | intPtr
  | uintPtr
  deriving DecidableEq

namespace Primitive

/-- The names of the primitive types, without the namespace that the second kind may carry. -/
def names : List (String × Primitive) := [
  ("bool", bool), ("Boolean", bool), ("byte", byte), ("Byte", byte), ("sbyte", sbyte),
  ("SByte", sbyte), ("ushort", ushort), ("UInt16", ushort), ("short", short), ("Int16", short),
  ("char", char), ("Char", char), ("uint", uint), ("UInt32", uint), ("int", int), ("Int32", int),
  ("float", float), ("Single", float), ("ulong", ulong), ("UInt64", ulong), ("long", long),
  ("Int64", long), ("double", double), ("Double", double), ("nint", intPtr), ("IntPtr", intPtr),
  ("nuint", uintPtr), ("UIntPtr", uintPtr)]

/-- The primitive type with a name. Any name may be qualified by `System`. -/
def ofName? (name : String) : Option Primitive := names.lookup (Text.withoutStart "System." name)

/-- The name that is shown. -/
def keyword : Primitive → String
  | bool => "bool"
  | byte => "byte"
  | sbyte => "sbyte"
  | ushort => "ushort"
  | short => "short"
  | char => "char"
  | uint => "uint"
  | int => "int"
  | float => "float"
  | ulong => "ulong"
  | long => "long"
  | double => "double"
  | intPtr => "IntPtr"
  | uintPtr => "UIntPtr"

/-- The size in bytes on a target with pointers of some width. -/
def size (pointerWidth : UInt32) : Primitive → UInt32
  | bool | byte | sbyte => 1
  | ushort | short | char => 2
  | uint | int | float => 4
  | ulong | long | double => 8
  | intPtr | uintPtr => pointerWidth

/-- The types that an enumeration may be based on. -/
def isInteger : Primitive → Bool
  | bool | float | double => false
  | _ => true

/-- The types that a fixed buffer may hold natively. -/
def isBufferElement : Primitive → Bool
  | intPtr | uintPtr => false
  | _ => true

end Primitive

/-- The names that stand for types without a layout. -/
def managedNames : List String :=
  ["string", "String", "object", "Object", "decimal", "Decimal", "dynamic", "void", "Void"]

/-- Whether a name stands for a type without a layout. -/
def isManagedName (name : String) : Bool :=
  managedNames.contains (Text.withoutStart "System." name)

end FlatLayout
