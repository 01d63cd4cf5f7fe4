import FlatLayout.Decl.Basic
import FlatLayout.Layout.Error

/-!
# Placement rules

How the members of a struct are placed: the layout attribute with its defaults filled in.

## Main definitions

* `LayoutRule`, `LayoutRule.ofAttr` — the rule that an attribute asks for
* `LayoutAttr.flat` — the attribute of every flat struct
-/

namespace FlatLayout

/-- How the members of a struct are placed. -/
structure LayoutRule where
  kind : LayoutKind
  /-- No member is aligned to more than this. -/
  pack : UInt32
  /-- The least size of the struct; zero asks for nothing. -/
  size : UInt32
  deriving DecidableEq

namespace LayoutRule

/-- The pack of a struct that asks for none: the size of the largest primitive type. -/
def defaultPack : UInt32 := 8

/-- The packs that may be asked for. -/
def packs : List UInt32 := [1, 2, 4, 8, 16, 32, 64, 128]

/-- The rule of a struct without an attribute. -/
def default : LayoutRule := ⟨.sequential, defaultPack, 0⟩

/-- The pack that an attribute asks for. Zero asks for none. -/
def packOf (struct : String) : Option UInt32 → Except LayoutError UInt32
  | none => .ok defaultPack
  | some n =>
    if n = 0 then .ok defaultPack
    else if packs.contains n then .ok n
    else .error (.invalidPack struct n)

/-- The rule that the attribute of a struct asks for. -/
def ofAttr (struct : String) : Option LayoutAttr → Except LayoutError LayoutRule
  | none => .ok default
  | some a => do
    let pack ← packOf struct a.pack
    .ok ⟨a.kind, pack, a.size.getD 0⟩

/-- Whether the author writes the offsets. -/
def isExplicit (r : LayoutRule) : Bool := r.kind = .explicit

end LayoutRule

/-- The attribute of a flat struct: the offsets are absolute and need no alignment when they are
read. -/
def LayoutAttr.flat (size : UInt32) : LayoutAttr := ⟨.explicit, some 1, some size⟩

end FlatLayout
