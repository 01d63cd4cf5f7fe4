import FlatLayout.Decl.Basic

/-!
# Declarations as source text

A unit is printed as a list of lines, indented by two spaces for each level. Conditional blocks are
printed as directives, which always begin in the first column.

## Main definitions

* `StructDecl.lines`, `SourceUnit.lines` — the lines of a declaration
* `SourceUnit.sourceText`, `StructDecl.sourceText` — the text, every line ended by a line feed
-/

namespace FlatLayout

/-- The lines of a source text, without their ends. -/
abbrev Lines := List String

/-- A line at a level of indentation. -/
def indented (depth : Nat) (line : String) : String :=
  String.ofList (List.replicate (2 * depth) ' ') ++ line

/-- Lines in braces, one level further in. -/
def braced (depth : Nat) (body : Lines) : Lines :=
  indented depth "\x7b" :: body ++ [indented depth "\x7d"]

/-- Words in front of a declaration, each with a space behind it. -/
def modifierText (modifiers : List String) : String :=
  String.join (modifiers.map (· ++ " "))

/-- The line of markers in front of a declaration, if it has any. -/
def Markers.lines (depth : Nat) (s : Markers) : Lines :=
  if s.isEmpty then [] else [indented depth ("[" ++ ", ".intercalate s.names ++ "]")]

/-- A layout attribute as source text. -/
def LayoutAttr.sourceText (a : LayoutAttr) : String :=
  let kind := match a.kind with
    | .sequential => "LayoutKind.Sequential"
    | .explicit => "LayoutKind.Explicit"
  let pack := match a.pack with
    | none => ""
    | some n => ", Pack = " ++ Text.decimal n.toNat
  let size := match a.size with
    | none => ""
    | some n => ", Size = " ++ Text.decimal n.toNat
  "[StructLayout(" ++ kind ++ pack ++ size ++ ")]"

/-- Text that is carried along: each line is indented, and blank lines are left empty. -/
def verbatimLines (depth : Nat) (text : String) : Lines :=
  (Text.lines text).map fun line =>
    if line.toList.all Text.isBlank then "" else indented depth line

namespace FieldDecl

/-- A modifier that a field carries by its nature, unless it is written already. -/
def impliedModifier (applies : Bool) (modifiers : List String) (m : String) : String :=
  if applies && !modifiers.contains m then m ++ " " else ""

/-- The line of a field, without indentation. -/
def sourceText (f : FieldDecl) : String :=
  let offset := match f.offset with
    | none => ""
    | some n => "[FieldOffset(" ++ Text.decimal n.toNat ++ ")] "
  let names := ", ".intercalate f.names
  let body := match f.fixedCount with
    | some count =>
      "fixed " ++ f.type.text ++ " " ++ names ++ "[" ++ Text.decimal count.toNat ++ "];"
    | none => f.type.text ++ " " ++ names ++ ";"
  offset ++ modifierText f.modifiers ++ impliedModifier f.isStatic f.modifiers "static" ++
    impliedModifier f.isConst f.modifiers "const" ++ body

/-- The lines of a field. -/
def lines (depth : Nat) (f : FieldDecl) : Lines :=
  f.markers.lines depth ++ [indented depth f.sourceText]

end FieldDecl

/-- The lines of an accessor: a getter that pins the instance while it takes the address. -/
def AccessorDecl.lines (depth : Nat) (container : String) (a : AccessorDecl) : Lines :=
  let type := a.pointee.text ++ "*"
  indented depth (modifierText a.modifiers ++ type ++ " " ++ a.name) ::
    braced depth (indented (depth + 1) "get" ::
      braced (depth + 1) (indented (depth + 2) ("fixed (" ++ container ++ "* __s = &this)") ::
        braced (depth + 2)
          [indented (depth + 3) ("return (" ++ type ++ ")&__s->" ++ a.baseField ++ ";")]))

/-- The lines of an enumeration. -/
def EnumDecl.lines (depth : Nat) (e : EnumDecl) : Lines :=
  let underlying := match e.underlying with
    | none => ""
    | some t => " : " ++ t.text
  indented depth (modifierText e.modifiers ++ "enum " ++ e.name ++ underlying) ::
    braced depth (e.variants.map fun v => indented (depth + 1) (v ++ ","))

/-- The lines of a class. One without a body stands on one line. -/
def ClassDecl.lines (depth : Nat) (c : ClassDecl) : Lines :=
  let base := match c.base with
    | none => ""
    | some b => " : " ++ b
  let head := modifierText c.modifiers ++ "class " ++ c.name ++ base
  if c.body.isEmpty then [indented depth (head ++ " \x7b \x7d")]
  else indented depth head :: braced depth (c.body.flatMap (verbatimLines (depth + 1)))

mutual

/-- The lines of a member of a struct with a name. -/
def Member.lines (depth : Nat) (container : String) : Member → Lines
  | .field f => f.lines depth
  | .accessor a => a.lines depth container
  | .struct s => StructDecl.lines depth s
  | .enum e => e.lines depth
  | .conditional symbol members otherwise =>
    ("#if " ++ symbol) :: Member.allLines depth container members ++
      (if otherwise.isEmpty then [] else "#else" :: Member.allLines depth container otherwise) ++
      ["#endif"]
  | .verbatim text => verbatimLines depth text

/-- The lines of a struct declaration. -/
def StructDecl.lines (depth : Nat) : StructDecl → Lines
  | ⟨modifiers, name, markers, layout, members⟩ =>
    markers.lines depth ++
      (match layout with
        | none => []
        | some a => [indented depth a.sourceText]) ++
      indented depth (modifierText modifiers ++ "struct " ++ name) ::
        braced depth (Member.allLines (depth + 1) name members)

/-- The lines of some members. -/
def Member.allLines (depth : Nat) (container : String) : List Member → Lines
  | [] => []
  | m :: ms => m.lines depth container ++ Member.allLines depth container ms

end

/-- The lines of an item. -/
def Item.lines (depth : Nat) : Item → Lines
  | .struct s => s.lines depth
  | .enum e => e.lines depth
  | .classDecl c => c.lines depth
  | .verbatim text => verbatimLines depth text

/-- The lines of all items, with an empty line between two of them. -/
def Item.allLines (depth : Nat) (items : List Item) : Lines :=
  [""].intercalate (items.map (Item.lines depth))

namespace SourceUnit

/-- The lines of a unit: its imports, and its items inside of its namespace. -/
def lines (u : SourceUnit) : Lines :=
  u.imports.map (fun i => "using " ++ i ++ ";") ++
    (if u.imports.isEmpty then [] else [""]) ++
    (match u.namespaceName with
      | some name => ("namespace " ++ name) :: braced 0 (Item.allLines 1 u.items)
      | none => Item.allLines 0 u.items)

end SourceUnit

/-- Lines as a text, each ended by a line feed. -/
def Lines.text (ls : Lines) : String := String.join (ls.map (· ++ "\n"))

/-- The text of a unit. -/
def SourceUnit.sourceText (u : SourceUnit) : String := Lines.text u.lines

/-- The text of a struct declaration. -/
def StructDecl.sourceText (s : StructDecl) : String := Lines.text (s.lines 0)

end FlatLayout
