import FlatLayout.Decl.Basic

/-!
# Conditional compilation

Choosing between the branches of conditional blocks. A block whose symbol is defined stands for its
first branch, another for its second one; the members of the branch take the place of the block.

## Main definitions

* `SourceUnit.select` — the unit without conditional blocks
* `SourceUnit.selections` — the blocks met on the way, with the number of members that replace each
-/

namespace FlatLayout

mutual

/-- What a member stands for under some definitions. -/
def Member.select (defines : List String) : Member → List Member
  | .conditional symbol members otherwise =>
    if defines.contains symbol then Member.selectAll defines members
    else Member.selectAll defines otherwise
  | .struct s => [.struct (StructDecl.select defines s)]
  | m => [m]

/-- The struct with the blocks in its body replaced by their branches. -/
def StructDecl.select (defines : List String) : StructDecl → StructDecl
  | ⟨modifiers, name, markers, layout, members⟩ =>
    ⟨modifiers, name, markers, layout, Member.selectAll defines members⟩

/-- What some members stand for. -/
def Member.selectAll (defines : List String) : List Member → List Member
  | [] => []
  | m :: ms => m.select defines ++ Member.selectAll defines ms

end

/-- The item with the blocks in it replaced by their branches. -/
def Item.select (defines : List String) : Item → Item
  | .struct s => .struct (s.select defines)
  | i => i

/-- The unit with all blocks replaced by their branches. -/
def SourceUnit.select (u : SourceUnit) (defines : List String) : SourceUnit :=
  { u with items := u.items.map (Item.select defines) }

mutual

/-- The blocks that are replaced in a member, in order: the symbol of each, and how many members its
branch has. -/
def Member.selections (defines : List String) : Member → List (String × Nat)
  | .conditional symbol members otherwise =>
    if defines.contains symbol then
      (symbol, members.length) :: Member.selectionsAll defines members
    else (symbol, otherwise.length) :: Member.selectionsAll defines otherwise
  | .struct s => StructDecl.selections defines s
  | _ => []

/-- The blocks that are replaced in a struct. -/
def StructDecl.selections (defines : List String) : StructDecl → List (String × Nat)
  | ⟨_, _, _, _, members⟩ => Member.selectionsAll defines members

/-- The blocks that are replaced in some members. -/
def Member.selectionsAll (defines : List String) : List Member → List (String × Nat)
  | [] => []
  | m :: ms => m.selections defines ++ Member.selectionsAll defines ms

end

/-- The blocks that are replaced in a unit. -/
def SourceUnit.selections (u : SourceUnit) (defines : List String) : List (String × Nat) :=
  u.structs.flatMap (StructDecl.selections defines)

end FlatLayout
