import FlatLayout.Decl.Json
import FlatLayout.Layout.FlatStruct

/-!
# Layout reports

Layouts as JSON: for other programs to read, and to write down the placed members of a struct in
full.

## Main definitions

* `Report.Entry`, `Report.ofStruct` — the layout of one struct
* `Report.text` — a report on several structs
* `PlacedMember.toJson`, `PlacedMember.decoder` — a placed member in full
-/

namespace FlatLayout

open Json (Decoder RecordField field)

/-- The names of the roles. -/
def Role.names : List (String × Role) := [
  ("plain", .plain), ("union_member", .unionMember), ("anonymous_inlined", .anonymousInlined),
  ("promoted", .promoted), ("buffer_start", .bufferStart), ("buffer_accessor", .bufferAccessor),
  ("nested_start", .nestedStart), ("nested_accessor", .nestedAccessor)]

/-- The name of a role. -/
def Role.name : Role → String
  | .plain => "plain"
  | .unionMember => "union_member"
  | .anonymousInlined => "anonymous_inlined"
  | .promoted => "promoted"
  | .bufferStart => "buffer_start"
  | .bufferAccessor => "buffer_accessor"
  | .nestedStart => "nested_start"
  | .nestedAccessor => "nested_accessor"

example : Role.names.all (fun (s, r) => r.name == s) = true := by decide +kernel

/-- Reads a role. -/
def Role.decoder : Decoder Role := Json.keyword Role.names

namespace PlacedMember

/-- The entries of a placed member. -/
def entries (m : PlacedMember) : List (String × Json) :=
  [("name", Json.text m.name), ("type_ref", m.type.toJson), ("offset", Json.word m.offset),
    ("size", Json.word m.size), ("fixed_count", Json.ofOption Json.word m.fixedCount),
    ("role", Json.text m.role.name), ("modifiers", Json.texts m.modifiers),
    ("base_field", Json.ofOption Json.text m.baseField)]

/-- A placed member as an object. -/
def toJson (m : PlacedMember) : Json := Json.fields m.entries

/-- The fields of a placed member. -/
def jsonFields : List (RecordField PlacedMember) := [
  field "name" .required Json.asText fun s m => { m with name := s },
  field "type_ref" .required TypeRef.decoder fun t m => { m with type := t },
  field "offset" .required Json.asWord fun n m => { m with offset := n },
  field "size" .required Json.asWord fun n m => { m with size := n },
  field "fixed_count" .optional wordOption fun n m => { m with fixedCount := n },
  field "role" .required Role.decoder fun r m => { m with role := r },
  field "modifiers" .required textsDecoder fun ms m => { m with modifiers := ms },
  field "base_field" .optional (Json.option Json.asText) fun b m => { m with baseField := b }]

/-- Reads a placed member. What it was made from is not part of its text. -/
def decoder : Decoder PlacedMember :=
  Json.record jsonFields ⟨"", .named "", 0, 0, none, .plain, [], none, 0⟩

end PlacedMember

namespace Footprint

/-- A footprint as an object. -/
def toJson (f : Footprint) : Json :=
  Json.fields [("size", Json.word f.size), ("largest_member_alignment", Json.word f.alignment)]

/-- The fields of a footprint. -/
def jsonFields : List (RecordField Footprint) := [
  field "size" .required Json.asWord fun n f => { f with size := n },
  field "largest_member_alignment" .required Json.asWord fun n f => { f with alignment := n }]

/-- Reads a footprint. -/
def decoder : Decoder Footprint := Json.record jsonFields ⟨0, 0⟩

end Footprint

namespace Report

/-- A member in a report. -/
structure EntryField where
  name : String
  /-- The type as it is written. -/
  type : String
  offset : UInt32
  size : UInt32
  role : Role
  count : Option UInt32
  baseField : Option String

/-- The layout of one struct in a report. -/
structure Entry where
  name : String
  size : UInt32
  alignment : UInt32
  fields : List EntryField

/-- A placed member in a report. -/
def EntryField.ofMember (m : PlacedMember) : EntryField :=
  ⟨m.name, m.type.text, m.offset, m.size, m.role, m.fixedCount, m.baseField⟩

/-- A flat struct in a report. -/
def ofStruct (f : FlatStruct) : Entry :=
  ⟨f.key.text, f.footprint.size, f.footprint.alignment, f.members.map .ofMember⟩

/-- A member of a report as an object. -/
def EntryField.toJson (f : EntryField) : Json :=
  Json.fields ([("name", Json.text f.name), ("type", Json.text f.type),
    ("offset", Json.word f.offset), ("size", Json.word f.size),
    ("role", Json.text f.role.name)] ++
    Json.present "count" Json.word f.count ++
    Json.present "base_field" Json.text f.baseField)

/-- The layout of one struct as an object. -/
def Entry.toJson (e : Entry) : Json :=
  Json.fields [("name", Json.text e.name), ("size", Json.word e.size),
    ("alignment", Json.word e.alignment), ("fields", Json.list (e.fields.map EntryField.toJson))]

/-- The fields of a member in a report. -/
def EntryField.jsonFields : List (RecordField EntryField) := [
  field "name" .required Json.asText fun s f => { f with name := s },
  field "type" .required Json.asText fun s f => { f with type := s },
  field "offset" .required Json.asWord fun n f => { f with offset := n },
  field "size" .required Json.asWord fun n f => { f with size := n },
  field "role" .required Role.decoder fun r f => { f with role := r },
  field "count" .defaulted wordOption fun n f => { f with count := n },
  field "base_field" .defaulted (Json.option Json.asText) fun b f => { f with baseField := b }]

/-- Reads a member of a report. -/
def EntryField.decoder : Decoder EntryField :=
  Json.record EntryField.jsonFields ⟨"", "", 0, 0, .plain, none, none⟩

/-- The fields of the layout of one struct. -/
def Entry.jsonFields : List (RecordField Entry) := [
  field "name" .required Json.asText fun s e => { e with name := s },
  field "size" .required Json.asWord fun n e => { e with size := n },
  field "alignment" .required Json.asWord fun n e => { e with alignment := n },
  field "fields" .required (Json.listOf EntryField.decoder) fun fs e => { e with fields := fs }]

/-- Reads the layout of one struct. -/
def Entry.decoder : Decoder Entry := Json.record Entry.jsonFields ⟨"", 0, 0, []⟩

/-- The text of a report. -/
def text (style : Json.Style) (es : List Entry) : String :=
  (Json.list (es.map Entry.toJson)).write style

end Report

end FlatLayout
