import FlatLayout.Decl.Basic
import FlatLayout.Json.Decode
import FlatLayout.Json.Writer

/-!
# Declarations as JSON

Every declaration is an object; members and items carry their kind as its first entry. What is empty
or at its default is not written, apart from the lists that a reader would look for.

## Main definitions

* `SourceUnit.toJson`, `SourceUnit.ofJsonText` — a unit written and read
* `….toJson` and `….decoder` for the parts of a unit

## Implementation notes

Structs nest in structs, so the decoder of members is given how deep it may go. The nesting limit of
JSON texts is enough for every text.
-/

namespace FlatLayout

open Json (Decoder RecordField Place field)

/-! ### Leaves -/

namespace LayoutKind

/-- The names of the layout kinds. The automatic layout is a sequential one. -/
def names : List (String × LayoutKind) :=
  [("Sequential", .sequential), ("Auto", .sequential), ("Explicit", .explicit)]

/-- The name that is written. -/
def name : LayoutKind → String
  | .sequential => "Sequential"
  | .explicit => "Explicit"

end LayoutKind

/-- A type reference is a string. -/
def TypeRef.toJson (t : TypeRef) : Json := Json.text t.text

/-- A type reference is read from a string. -/
def TypeRef.decoder : Decoder TypeRef := fun place v => do
  let s ← Json.asText place v
  match TypeRef.parse s with
  | .ok t => .ok t
  | .error e => .error (.refused e.message)

/-- Markers are a list of their names. -/
def Markers.toJson (s : Markers) : Json := Json.texts s.names

/-- Markers are read from a list of names. -/
def Markers.decoder : Decoder Markers := fun place v => do
  let names ← Json.listOf Json.asText place v
  match Markers.ofNames names with
  | .ok s => .ok s
  | .error e => .error (.refused e.message)

/-- A list of strings. -/
def textsDecoder : Decoder (List String) := Json.listOf Json.asText

/-- A word or null. -/
def wordOption : Decoder (Option UInt32) := Json.option Json.asWord

namespace LayoutAttr

/-- The entries of a layout attribute. -/
def entries (a : LayoutAttr) : List (String × Json) :=
  ("kind", Json.text a.kind.name) :: Json.present "pack" Json.word a.pack ++
    Json.present "size" Json.word a.size

/-- A layout attribute as an object. -/
def toJson (a : LayoutAttr) : Json := Json.fields a.entries

/-- The fields of a layout attribute. -/
def jsonFields : List (RecordField LayoutAttr) := [
  field "kind" .required (Json.keyword LayoutKind.names) fun k a => { a with kind := k },
  field "pack" .defaulted wordOption fun n a => { a with pack := n },
  field "size" .defaulted wordOption fun n a => { a with size := n }]

/-- Reads a layout attribute. -/
def decoder : Decoder LayoutAttr := Json.record jsonFields ⟨.sequential, none, none⟩

end LayoutAttr

namespace FieldDecl

/-- The entries of a field declaration. -/
def entries (f : FieldDecl) : List (String × Json) :=
  [("modifiers", Json.texts f.modifiers), ("type", f.type.toJson),
    ("names", Json.texts f.names)] ++
  Json.present "fixed_count" Json.word f.fixedCount ++
  Json.present "offset" Json.word f.offset ++
  Json.presentIf f.isStatic "is_static" (.bool true) ++
  Json.presentIf f.isConst "is_const" (.bool true) ++
  Json.presentIf (!f.markers.isEmpty) "markers" f.markers.toJson

/-- A field declaration as an object. -/
def toJson (f : FieldDecl) : Json := Json.fields f.entries

/-- The fields of a field declaration. -/
def jsonFields : List (RecordField FieldDecl) := [
  field "modifiers" .defaulted textsDecoder fun ms f => { f with modifiers := ms },
  field "type" .required TypeRef.decoder fun t f => { f with type := t },
  field "names" .required textsDecoder fun ns f => { f with names := ns },
  field "fixed_count" .defaulted wordOption fun n f => { f with fixedCount := n },
  field "offset" .defaulted wordOption fun n f => { f with offset := n },
  field "is_static" .defaulted Json.asBool fun b f => { f with isStatic := b },
  field "is_const" .defaulted Json.asBool fun b f => { f with isConst := b },
  field "markers" .defaulted Markers.decoder fun s f => { f with markers := s }]

/-- Reads a field declaration. -/
def decoder : Decoder FieldDecl :=
  Json.record jsonFields ⟨[], .named "", [], none, none, false, false, .none⟩

end FieldDecl

namespace AccessorDecl

/-- The entries of an accessor. -/
def entries (a : AccessorDecl) : List (String × Json) :=
  [("modifiers", Json.texts a.modifiers), ("name", Json.text a.name),
    ("pointee", a.pointee.toJson), ("container", Json.text a.container),
    ("base_field", Json.text a.baseField), ("offset", Json.word a.offset)]

/-- An accessor as an object. -/
def toJson (a : AccessorDecl) : Json := Json.fields a.entries

/-- The fields of an accessor. -/
def jsonFields : List (RecordField AccessorDecl) := [
  field "modifiers" .defaulted textsDecoder fun ms a => { a with modifiers := ms },
  field "name" .required Json.asText fun s a => { a with name := s },
  field "pointee" .required TypeRef.decoder fun t a => { a with pointee := t },
  field "container" .required Json.asText fun s a => { a with container := s },
  field "base_field" .required Json.asText fun s a => { a with baseField := s },
  field "offset" .required Json.asWord fun n a => { a with offset := n }]

/-- Reads an accessor. -/
def decoder : Decoder AccessorDecl :=
  Json.record jsonFields ⟨[], "", .named "", "", "", 0⟩

end AccessorDecl

namespace EnumDecl

/-- The entries of an enumeration. -/
def entries (e : EnumDecl) : List (String × Json) :=
  [("modifiers", Json.texts e.modifiers), ("name", Json.text e.name)] ++
  Json.present "underlying" TypeRef.toJson e.underlying ++
  Json.presentIf (!e.variants.isEmpty) "variants" (Json.texts e.variants)

/-- The fields of an enumeration. -/
def jsonFields : List (RecordField EnumDecl) := [
  field "modifiers" .defaulted textsDecoder fun ms e => { e with modifiers := ms },
  field "name" .required Json.asText fun s e => { e with name := s },
  field "underlying" .defaulted (Json.option TypeRef.decoder) fun t e =>
    { e with underlying := t },
  field "variants" .defaulted textsDecoder fun vs e => { e with variants := vs }]

/-- Reads an enumeration. -/
def decoder : Decoder EnumDecl := Json.record jsonFields ⟨[], "", none, []⟩

end EnumDecl

namespace ClassDecl

/-- The entries of a class. -/
def entries (c : ClassDecl) : List (String × Json) :=
  [("modifiers", Json.texts c.modifiers), ("name", Json.text c.name)] ++
  Json.present "base" Json.text c.base ++
  Json.presentIf (!c.body.isEmpty) "body" (Json.texts c.body)

/-- The fields of a class. -/
def jsonFields : List (RecordField ClassDecl) := [
  field "modifiers" .defaulted textsDecoder fun ms c => { c with modifiers := ms },
  field "name" .required Json.asText fun s c => { c with name := s },
  field "base" .defaulted (Json.option Json.asText) fun b c => { c with base := b },
  field "body" .defaulted textsDecoder fun b c => { c with body := b }]

/-- Reads a class. -/
def decoder : Decoder ClassDecl := Json.record jsonFields ⟨[], "", none, []⟩

end ClassDecl

/-- The only field of text that is carried along. -/
def verbatimFields : List (RecordField String) := [field "text" .required Json.asText fun s _ => s]

/-- Reads text that is carried along. -/
def verbatimDecoder : Decoder String := Json.record verbatimFields ""

/-! ### Structs and their members -/

/-- An object with a kind. -/
def ofKind (kind : String) (entries : List (String × Json)) : Json :=
  Json.fields ((Json.tagKey, Json.text kind) :: entries)

mutual

/-- A member as an object. -/
def Member.toJson : Member → Json
  | .field f => ofKind "field" f.entries
  | .accessor a => ofKind "accessor" a.entries
  | .struct s => ofKind "struct" s.entries
  | .enum e => ofKind "enum" e.entries
  | .conditional symbol members otherwise =>
    ofKind "conditional" ([("symbol", Json.text symbol),
      ("members", Json.list (Member.listToJson members))] ++
      Json.presentIf (!otherwise.isEmpty) "else_members"
        (Json.list (Member.listToJson otherwise)))
  | .verbatim text => ofKind "verbatim" [("text", Json.text text)]

/-- The entries of a struct declaration. -/
def StructDecl.entries : StructDecl → List (String × Json)
  | ⟨modifiers, name, markers, layout, members⟩ =>
    [("modifiers", Json.texts modifiers), ("name", Json.text name)] ++
    Json.presentIf (!markers.isEmpty) "markers" markers.toJson ++
    Json.present "layout" LayoutAttr.toJson layout ++
    [("members", Json.list (Member.listToJson members))]

/-- Members as objects. -/
def Member.listToJson : List Member → List Json
  | [] => []
  | m :: ms => m.toJson :: Member.listToJson ms

end

/-- A struct declaration as an object. -/
def StructDecl.toJson (s : StructDecl) : Json := Json.fields s.entries

/-- The kinds of members. -/
inductive Member.Kind where
  | field
  | accessor
  | struct
  | enum
  | conditional
  | verbatim

/-- The names of the kinds of members. -/
def Member.kinds : List (String × Member.Kind) :=
  [("field", .field), ("accessor", .accessor), ("struct", .struct), ("enum", .enum),
    ("conditional", .conditional), ("verbatim", .verbatim)]

/-- A conditional block under construction. -/
structure Member.Block where
  symbol : String
  members : List Member
  otherwise : List Member

/-- The fields of a conditional block, given how its members are read. -/
def Member.Block.jsonFields (member : Decoder Member) : List (RecordField Member.Block) := [
  Json.field "symbol" .required Json.asText fun s b => { b with symbol := s },
  Json.field "members" .required (Json.listOf member) fun ms b => { b with members := ms },
  Json.field "else_members" .defaulted (Json.listOf member) fun ms b => { b with otherwise := ms }]

/-- Reads a conditional block, given how its members are read. -/
def Member.Block.decoder (member : Decoder Member) : Decoder Member.Block :=
  Json.record (Member.Block.jsonFields member) ⟨"", [], []⟩

/-- The fields of a struct declaration, given how its members are read. -/
def StructDecl.jsonFields (member : Decoder Member) : List (RecordField StructDecl) := [
  field "modifiers" .defaulted textsDecoder fun ms s => { s with modifiers := ms },
  field "name" .required Json.asText fun n s => { s with name := n },
  field "markers" .defaulted Markers.decoder fun m s => { s with markers := m },
  field "layout" .defaulted (Json.option LayoutAttr.decoder) fun l s => { s with layout := l },
  field "members" .defaulted (Json.listOf member) fun ms s => { s with members := ms }]

/-- Reads a struct declaration, given how its members are read. -/
def StructDecl.decoderWith (member : Decoder Member) : Decoder StructDecl :=
  Json.record (StructDecl.jsonFields member) ⟨[], "", .none, none, []⟩

/-- Reads a member that has at most so many members inside each other. -/
def Member.decoderWithin : Nat → Decoder Member
  | 0 => fun _ _ => .error .malformed
  | depth + 1 => fun place v => do
    let (kind, content) ← Json.tagged Member.kinds place v
    match kind with
    | .field => (FieldDecl.decoder .buffered content).map .field
    | .accessor => (AccessorDecl.decoder .buffered content).map .accessor
    | .struct =>
      (StructDecl.decoderWith (Member.decoderWithin depth) .buffered content).map .struct
    | .enum => (EnumDecl.decoder .buffered content).map .enum
    | .conditional =>
      (Member.Block.decoder (Member.decoderWithin depth) .buffered content).map fun b =>
        .conditional b.symbol b.members b.otherwise
    | .verbatim => (verbatimDecoder .buffered content).map .verbatim

/-- Reads a member. -/
def Member.decoder : Decoder Member := Member.decoderWithin Json.maxDepth

/-- Reads a struct declaration. -/
def StructDecl.decoder : Decoder StructDecl := StructDecl.decoderWith Member.decoder

/-! ### Units -/

namespace Item

/-- An item as an object. -/
def toJson : Item → Json
  | .struct s => ofKind "struct" s.entries
  | .enum e => ofKind "enum" e.entries
  | .classDecl c => ofKind "class" c.entries
  | .verbatim text => ofKind "verbatim" [("text", Json.text text)]

/-- The kinds of items. -/
inductive Kind where
  | struct
  | enum
  | classDecl
  | verbatim

/-- The names of the kinds of items. -/
def kinds : List (String × Kind) :=
  [("struct", .struct), ("enum", .enum), ("class", .classDecl), ("verbatim", .verbatim)]

/-- Reads an item. -/
def decoder : Decoder Item := fun place v => do
  let (kind, content) ← Json.tagged kinds place v
  match kind with
  | .struct => (StructDecl.decoder .buffered content).map .struct
  | .enum => (EnumDecl.decoder .buffered content).map .enum
  | .classDecl => (ClassDecl.decoder .buffered content).map .classDecl
  | .verbatim => (verbatimDecoder .buffered content).map .verbatim

end Item

namespace SourceUnit

/-- The entries of a unit. -/
def entries (u : SourceUnit) : List (String × Json) :=
  ("name", Json.text u.name) :: Json.present "namespace" Json.text u.namespaceName ++
    Json.presentIf (!u.imports.isEmpty) "imports" (Json.texts u.imports) ++
    [("items", Json.list (u.items.map Item.toJson))]

/-- A unit as an object. -/
def toJson (u : SourceUnit) : Json := Json.fields u.entries

/-- The text of a unit. -/
def jsonText (u : SourceUnit) (style : Json.Style) : String := u.toJson.write style

/-- The fields of a unit. -/
def jsonFields : List (RecordField SourceUnit) := [
  field "name" .required Json.asText fun s u => { u with name := s },
  field "namespace" .defaulted (Json.option Json.asText) fun s u => { u with namespaceName := s },
  field "imports" .defaulted textsDecoder fun is u => { u with imports := is },
  field "items" .defaulted (Json.listOf Item.decoder) fun is u => { u with items := is }]

/-- Reads a unit. -/
def decoder : Decoder SourceUnit := Json.record jsonFields ⟨"", none, [], []⟩

/-- Reads the text of a unit. -/
def ofJsonText (s : String) : Except Json.DecodeError SourceUnit := Json.decodeText decoder s

end SourceUnit

end FlatLayout
