import FlatLayout.Layout.FlatStruct
import FlatLayout.Terminal
import FlatLayout.Text.Number

/-!
# Member tables

The members of a flat struct as a table with a frame.

## Main definitions

* `Table` — rows of cells under headers
* `Table.ofStruct` — the table of a flat struct, with or without its accessors
* `Table.text` — the lines of the table

## Implementation notes

A column is as wide as its widest cell takes bytes in UTF-8, while cells are filled up to that width
by characters. With characters outside of ASCII a column is then wider than it had to be, but never
too narrow.
-/

namespace FlatLayout

/-- A row of cells. -/
structure Row where
  /-- One cell for each column. -/
  cells : List String
  /-- Whether the name in the row is to stand out. -/
  marked : Bool

/-- Rows of cells under headers. -/
structure Table where
  rows : List Row

namespace Table

/-- How the columns are headed, and whether their cells stand at the right. -/
def columns : List (String × Bool) :=
  [("Offset", true), ("Size", true), ("Name", false), ("Type", false), ("Role", false)]

/-- The headers. -/
def headers : List String := columns.map Prod.fst

/-- The column that shows names. -/
def nameColumn : Nat := 2

/-- The words for a role. -/
def roleLabel : Role → String
  | .plain => "plain"
  | .unionMember => "union"
  | .anonymousInlined => "anonymous"
  | .promoted => "promoted"
  | .bufferStart => "buffer start"
  | .bufferAccessor => "buffer accessor"
  | .nestedStart => "nested start"
  | .nestedAccessor => "nested accessor"

/-- The type of a member: with the length of a buffer, or the star of an accessor. -/
def typeLabel (m : PlacedMember) : String :=
  match m.fixedCount with
  | some count => m.type.text ++ "[" ++ Text.decimal count.toNat ++ "]"
  | none => if m.isAccessor then m.type.text ++ "*" else m.type.text

/-- The row of a member. All but plain fields stand out. -/
def rowOf (m : PlacedMember) : Row where
  cells := ["0x" ++ Text.hex m.offset.toNat, Text.decimal m.size.toNat, m.name, typeLabel m,
    roleLabel m.role]
  marked := m.role ≠ .plain

/-- The table of a flat struct. -/
def ofStruct (f : FlatStruct) (withAccessors : Bool) : Table :=
  ⟨(f.members.filter fun m => withAccessors || !m.isAccessor).map rowOf⟩

/-- The number of rows. -/
def size (t : Table) : Nat := t.rows.length

/-- The widths of the columns. -/
def widths (t : Table) : List Nat :=
  t.rows.foldl (fun ws r => ws.zipWith (fun w cell => max w cell.utf8ByteSize) r.cells)
    (headers.map String.utf8ByteSize)

/-- A line between rows. -/
def border (ws : List Nat) : String :=
  "+" ++ "+".intercalate (ws.map fun w => String.ofList (List.replicate (w + 2) '-')) ++ "+"

/-- A text filled up with blanks to a number of characters. -/
def pad (right : Bool) (width : Nat) (s : String) : String :=
  let blanks := String.ofList (List.replicate (width - s.length) ' ')
  if right then blanks ++ s else s ++ blanks

/-- A cell in its frame, with its style. -/
def framed (style : Option Terminal.Style) (right : Bool) (width : Nat) (cell : String) : String :=
  let padded := pad right width cell
  let shown := match style with
    | some s => Terminal.paint s padded
    | none => padded
  " " ++ shown ++ " |"

/-- A row in its frame. `style` gives the style of the cell in a column. -/
def rowText (ws : List Nat) (style : Nat → Option Terminal.Style) (cells : List String) : String :=
  let shown := (columns.zip (ws.zip cells)).zipIdx.map fun ((column, width, cell), i) =>
    framed (style i) column.2 width cell
  "|" ++ String.join shown

/-- The style of the headers. -/
def headerStyle (styled : Bool) : Nat → Option Terminal.Style := fun _ =>
  if styled then some .cyanBold else none

/-- The style of the cells of a row. -/
def rowStyle (styled : Bool) (r : Row) : Nat → Option Terminal.Style := fun i =>
  if styled && i == nameColumn && r.marked then some .yellow else none

/-- The lines of a table. -/
def lines (styled : Bool) (t : Table) : List String :=
  let ws := t.widths
  [border ws, rowText ws (headerStyle styled) headers, border ws] ++
    t.rows.map (fun r => rowText ws (rowStyle styled r) r.cells) ++ [border ws]

/-- A table as text, without a line feed at its end. -/
def text (styled : Bool) (t : Table) : String := "\n".intercalate (t.lines styled)

end Table

end FlatLayout
