import FlatLayout.Decl.TypeRef
import FlatLayout.Layout.Primitive
import FlatLayout.Layout.QualName

/-!
# What type references are bound to

## Main definitions

* `Binding` — a primitive type, a pointer, an enumeration, a struct, or a type without a layout
-/

namespace FlatLayout

/-- What a type reference is bound to. -/
inductive Binding where
  | primitive (type : Primitive)
  /-- What is pointed at stays as written: no pointer's size depends on it. -/
  | pointer (pointee : TypeRef)
  | enum (key : QualName) (underlying : Primitive)
  | struct (key : QualName)
  /-- A type without a layout. -/
  | managed (name : String)
  deriving DecidableEq

namespace Binding

/-- Whether it is a struct. -/
def isStruct : Binding → Bool
  | struct _ => true
  | _ => false

/-- Whether a fixed buffer may hold it natively. -/
def isBufferElement : Binding → Bool
  | primitive p => p.isBufferElement
  | _ => false

/-- How it is shown. -/
def text : Binding → String
  | primitive p => p.keyword
  | pointer t => t.text ++ "*"
  | enum key _ => "enum " ++ key.text
  | struct key => "struct " ++ key.text
  | managed name => name

end Binding

end FlatLayout
