import FlatLayout.Json.Reader
import FlatLayout.Decimal.Shortest
import FlatLayout.Text.Quoted

/-!
# Decoding JSON trees

A decoder walks a tree in document order and stops at the first problem. Values stand in one of two
places: in the *text* itself, where unknown fields are only lexed and every container entered counts
against a nesting limit; or *buffered*, inside an object that had to be read whole to find its tag,
where everything was checked already.

## Main definitions

* `Json.DecodeError` — the problems, with `DecodeError.message`
* `Json.Place`, `Json.Decoder` — where a value stands, and what reads it
* `Json.record` — objects with named fields, which may also be written as arrays
* `Json.keyword` — one of some names
* `Json.tagged` — objects whose kind is named by their entry `kind`
* `Json.decodeText` — a whole text

## Implementation notes

A field of a record is a setter on the record under construction. Fields that may be absent keep the
value of the blank record, so the blank record holds the defaults.
-/

namespace FlatLayout.Json

open Decimal (Binary64)

/-- What a value is, as far as a message tells. -/
inductive Shape where
  | null
  | bool (value : Bool)
  | integer (value : Int)
  | float (negative : Bool) (magnitude : Binary64)
  | string (content : String)
  | sequence
  | map

/-- The words for a shape. -/
def Shape.describe : Shape → String
  | .null => "null"
  | .bool b => "boolean `" ++ (if b then "true" else "false") ++ "`"
  | .integer i => "integer `" ++ toString i ++ "`"
  | .float negative v => "floating point `" ++ v.text negative ++ "`"
  | .string s => "string " ++ Text.quote s
  | .sequence => "sequence"
  | .map => "map"

/-- Why a text does not decode. -/
inductive DecodeError where
  /-- The text is not JSON, or nests too deep. -/
  | malformed
  | missingField (name : String)
  | duplicateField (name : String)
  | unknownVariant (name : String)
  | invalidLength (length : Nat)
  | invalidType (found : Shape)
  | invalidValue (found : Shape)
  /-- A value of the right shape that its type refuses. -/
  | refused (reason : String)

/-- The message of a decoding error. -/
def DecodeError.message : DecodeError → String
  | .malformed => "invalid JSON"
  | .missingField name => "missing field `" ++ name ++ "`"
  | .duplicateField name => "duplicate field `" ++ name ++ "`"
  | .unknownVariant name => "unknown variant `" ++ name ++ "`"
  | .invalidLength n => "invalid length " ++ toString n
  | .invalidType found => "invalid type: " ++ found.describe
  | .invalidValue found => "invalid value: " ++ found.describe
  | .refused reason => reason

/-- Where a value stands. -/
inductive Place where
  /-- In the text, where this many more levels of containers may be entered. -/
  | text (levels : Nat)
  | buffered

/-- Containers nest at most this deep. -/
def maxDepth : Nat := 127

/-- The place of a whole text. -/
def Place.start : Place := .text maxDepth

/-- The place of the contents of a container. -/
def Place.enter : Place → Except DecodeError Place
  | .text 0 => .error .malformed
  | .text (levels + 1) => .ok (.text levels)
  | .buffered => .ok .buffered

/-- Whether a value can be skipped: in the text it has only to be read to its end. -/
def Place.skips (place : Place) (v : Json) : Bool :=
  match place with
  | .text _ => v.lexical
  | .buffered => true

/-- Whether a value can be kept for later. -/
def Place.keeps (place : Place) (v : Json) : Bool :=
  match place with
  | .text levels => v.sound levels
  | .buffered => true

/-- Whether all items can be kept for later. -/
def Place.keepsItems (place : Place) (items : Items) : Bool :=
  match place with
  | .text levels => items.sound levels
  | .buffered => true

/-- What reads a value at a place. -/
abbrev Decoder (α : Type) := Place → Json → Except DecodeError α

/-- What a value is. -/
def shape : Json → Except DecodeError Shape
  | .null => .ok .null
  | .bool b => .ok (.bool b)
  | .number n =>
    match n.value with
    | .integer i => .ok (.integer i)
    | .float negative v => .ok (.float negative v)
    | .outOfRange => .error .malformed
  | .string (some s) => .ok (.string s)
  | .string none => .error .malformed
  | .array _ => .ok .sequence
  | .object _ => .ok .map
  | .broken => .error .malformed

/-- A value of the wrong kind. -/
def mismatch {α : Type} (v : Json) : Except DecodeError α := do
  let found ← shape v
  .error (.invalidType found)

/-! ### Scalars -/

/-- A string. -/
def asText : Decoder String := fun _ v =>
  match v with
  | .string (some s) => .ok s
  | v => mismatch v

/-- A truth value. -/
def asBool : Decoder Bool := fun _ v =>
  match v with
  | .bool b => .ok b
  | v => mismatch v

/-- A 32-bit word. An integer outside of its range is of the right type but has an invalid value. -/
def asWord : Decoder UInt32 := fun _ v =>
  match v with
  | .number n =>
    match n.value with
    | .integer i =>
      if 0 ≤ i ∧ i.toNat < UInt32.size then .ok (UInt32.ofNat i.toNat)
      else .error (.invalidValue (.integer i))
    | _ => mismatch v
  | v => mismatch v

/-- A value or null. -/
def option {α : Type} (d : Decoder α) : Decoder (Option α) := fun place v =>
  match v with
  | .null => .ok none
  | v => (d place v).map some

/-- The items of an array, all decoded alike. -/
def decodeItems {α : Type} (d : Decoder α) (place : Place) : Items → Except DecodeError (List α)
  | .closed => .ok []
  | .broken => .error .malformed
  | .item v rest => do
    let a ← d place v
    let as ← decodeItems d place rest
    .ok (a :: as)

/-- An array. -/
def listOf {α : Type} (d : Decoder α) : Decoder (List α) := fun place v =>
  match v with
  | .array items => do
    let inside ← place.enter
    decodeItems d inside items
  | v => mismatch v

/-! ### Records -/

/-- Whether a field may be absent. -/
inductive Presence where
  | required
  /-- May be absent from an object, but not from an array. -/
  | optional
  | defaulted
  deriving DecidableEq

/-- A field of a record of type `ρ`, which is built by setting one field after the other. -/
structure RecordField (ρ : Type) where
  name : String
  presence : Presence
  read : Place → Json → ρ → Except DecodeError ρ

section Record

variable {ρ : Type}

/-- A field from a decoder of its value and a setter. -/
def field {α : Type} (name : String) (presence : Presence) (d : Decoder α) (set : α → ρ → ρ) :
    RecordField ρ where
  name := name
  presence := presence
  read place v r := (d place v).map fun a => set a r

/-- The entries of an object, with the names of the fields seen. Unknown entries are skipped. -/
def recordEntries (fs : List (RecordField ρ)) (place : Place) :
    Entries → List String → ρ → Except DecodeError (List String × ρ)
  | .closed, seen, r => .ok (seen, r)
  | .broken, _, _ => .error .malformed
  | .entry none _ _, _, _ => .error .malformed
  | .entry (some key) v rest, seen, r =>
    match fs.find? fun f => f.name == key with
    | none =>
      if place.skips v then recordEntries fs place rest seen r else .error .malformed
    | some f =>
      if seen.contains key then .error (.duplicateField key)
      else do
        let r ← f.read place v r
        recordEntries fs place rest (key :: seen) r

/-- What is wrong with an array that has more items than the record has fields. -/
def surplus (place : Place) (count : Nat) : Items → Except DecodeError Unit
  | .closed => .ok ()
  | .broken => .error .malformed
  | items@(.item _ _) =>
    match place with
    | .text _ => .error .malformed
    | .buffered => .error (.invalidLength (count + items.toList.length))

/-- The items of an array, field by field. -/
def recordItems (place : Place) :
    List (RecordField ρ) → Nat → Items → ρ → Except DecodeError ρ
  | [], count, items, r => do
    surplus place count items
    .ok r
  | f :: fs, count, .item v rest, r => do
    let r ← f.read place v r
    recordItems place fs (count + 1) rest r
  | f :: fs, count, .closed, r =>
    if f.presence = .defaulted then recordItems place fs (count + 1) .closed r
    else .error (.invalidLength count)
  | _ :: _, _, .broken, _ => .error .malformed

/-- A record, from an object or from an array of its fields in order. Absent fields are reported
after all present ones are read. -/
def record (fs : List (RecordField ρ)) (blank : ρ) : Decoder ρ := fun place v =>
  match v with
  | .array items => do
    let inside ← place.enter
    recordItems inside fs 0 items blank
  | .object entries => do
    let inside ← place.enter
    let (seen, r) ← recordEntries fs inside entries [] blank
    match fs.find? fun f => f.presence == .required && !seen.contains f.name with
    | some f => .error (.missingField f.name)
    | none => .ok r
  | v => mismatch v

end Record

/-! ### Keywords and tags -/

section Names

variable {τ : Type}

/-- What a name stands for. -/
def lookupName (names : List (String × τ)) (name : String) : Except DecodeError τ :=
  match names.lookup name with
  | some t => .ok t
  | none => .error (.unknownVariant name)

/-- Whether a value counts as no content: null, and when buffered also the empty object. -/
def contentFree (place : Place) : Json → Except DecodeError Unit
  | .null => .ok ()
  | .object .closed =>
    match place with
    | .text _ => .error (.invalidType .map)
    | .buffered => .ok ()
  | v => mismatch v

/-- One of some names: a string, or an object whose only key is the name and whose value is
empty. -/
def keyword (names : List (String × τ)) : Decoder τ := fun place v =>
  match place, v with
  | _, .string (some s) => lookupName names s
  | .text _, .object (.entry (some key) v rest) => do
    let inside ← place.enter
    let t ← lookupName names key
    contentFree inside v
    match rest with
    | .closed => .ok t
    | _ => .error .malformed
  | .text _, _ => .error .malformed
  | .buffered, .object (.entry (some key) v .closed) => do
    let t ← lookupName names key
    contentFree place v
    .ok t
  | .buffered, .object _ => .error (.invalidValue .map)
  | .buffered, v => mismatch v

/-- The name of the entry that names the kind of an object. -/
def tagKey : String := "kind"

/-- The kind of an object: a name, or when buffered also its number. -/
def tagValue (names : List (String × τ)) : Decoder τ := fun place v =>
  match place, v with
  | _, .string (some s) => lookupName names s
  | .buffered, .number n =>
    match n.value with
    | .integer i =>
      if 0 ≤ i then
        match names[i.toNat]? with
        | some (_, t) => .ok t
        | none => .error (.invalidValue (.integer i))
      else mismatch v
    | _ => mismatch v
  | _, v => mismatch v

/-- The kind of an object, which is read as soon as it is met, and the other entries. -/
def tagEntries (names : List (String × τ)) (place : Place) :
    Entries → Option τ → Except DecodeError (Option τ × Entries)
  | .closed, tag => .ok (tag, .closed)
  | .broken, _ => .error .malformed
  | .entry none _ _, _ => .error .malformed
  | .entry (some key) v rest, tag =>
    if key = tagKey then
      match tag with
      | some _ => .error (.duplicateField tagKey)
      | none => do
        let t ← tagValue names place v
        tagEntries names place rest (some t)
    else if place.keeps v then do
      let (tag, rest) ← tagEntries names place rest tag
      .ok (tag, .entry (some key) v rest)
    else .error .malformed

/-- The kind of a value and its content, which is buffered: the other entries of an object, or the
other items of an array that begins with the kind. -/
def tagged (names : List (String × τ)) : Decoder (τ × Json) := fun place v =>
  match v with
  | .object entries => do
    let inside ← place.enter
    match ← tagEntries names inside entries none with
    | (some t, rest) => .ok (t, .object rest)
    | (none, _) => .error (.missingField tagKey)
  | .array items => do
    let inside ← place.enter
    match items with
    | .item v rest =>
      let t ← tagValue names inside v
      if inside.keepsItems rest then .ok (t, .array rest) else .error .malformed
    | .closed => .error (.missingField tagKey)
    | .broken => .error .malformed
  | v => mismatch v

end Names

/-! ### Whole texts -/

/-- A value that stands alone. -/
def decode {α : Type} (d : Decoder α) (v : Json) : Except DecodeError α := d .start v

/-- A text that holds one value and nothing behind it. -/
def decodeText {α : Type} (d : Decoder α) (s : String) : Except DecodeError α := do
  let (v, complete) := read s
  let a ← decode d v
  if complete then .ok a else .error .malformed

end FlatLayout.Json
