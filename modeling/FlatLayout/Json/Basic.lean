import FlatLayout.Json.Numeral

/-!
# JSON trees

The tree read from a text, also from a text that stops being JSON somewhere: what was read before
that place is kept, and the place itself is `broken`. A decoder that walks the tree in order meets
the first problem of the text first, be it a value of the wrong kind or the broken place.

## Main definitions

* `Json`, `Json.Items`, `Json.Entries` — a value, and the contents of arrays and objects up to the
  closing bracket or to the broken place
* `Json.list`, `Json.fields`, `Json.text`, `Json.nat` — values to be written
* `Json.lexical`, `Json.sound` — whether a value was read to its end, and whether it also means
  something
-/

namespace FlatLayout

mutual

/-- A JSON value. -/
inductive Json where
  | null
  | bool (value : Bool)
  | number (value : Numeral)
  /-- A string; `none` when an escape names half of a surrogate pair, which no text can hold. -/
  | string (content : Option String)
  | array (items : Json.Items)
  | object (entries : Json.Entries)
  /-- No value could be read here. -/
  | broken

/-- The items of an array, in order. -/
inductive Json.Items where
  | closed
  | broken
  | item (value : Json) (rest : Json.Items)

/-- The entries of an object, in order. A key is a string, with the same proviso. -/
inductive Json.Entries where
  | closed
  | broken
  | entry (key : Option String) (value : Json) (rest : Json.Entries)

end

namespace Json

/-- The items of a complete array. -/
def Items.ofList : List Json → Items
  | [] => .closed
  | v :: vs => .item v (ofList vs)

/-- The entries of a complete object. -/
def Entries.ofList : List (String × Json) → Entries
  | [] => .closed
  | (k, v) :: fs => .entry (some k) v (ofList fs)

/-- The items that were read. -/
def Items.toList : Items → List Json
  | .closed | .broken => []
  | .item v rest => v :: rest.toList

/-- The entries that were read and have a key. -/
def Entries.toList : Entries → List (String × Json)
  | .closed | .broken => []
  | .entry (some k) v rest => (k, v) :: rest.toList
  | .entry none _ rest => rest.toList

/-- An array. -/
def list (vs : List Json) : Json := .array (.ofList vs)

/-- An object. -/
def fields (fs : List (String × Json)) : Json := .object (.ofList fs)

/-- A string. -/
def text (s : String) : Json := .string (some s)

/-- An array of strings. -/
def texts (ss : List String) : Json := list (ss.map text)

/-- A natural number. -/
def nat (n : Nat) : Json := .number (.ofNat n)

/-- A 32-bit word. -/
def word (n : UInt32) : Json := nat n.toNat

/-- A value, or null in its absence. -/
def ofOption {α : Type} (write : α → Json) : Option α → Json
  | none => .null
  | some a => write a

/-- An entry that is left out in the absence of a value. -/
def present {α : Type} (key : String) (write : α → Json) : Option α → List (String × Json)
  | none => []
  | some a => [(key, write a)]

/-- An entry that is written only under a condition. -/
def presentIf (condition : Bool) (key : String) (value : Json) : List (String × Json) :=
  if condition then [(key, value)] else []

mutual

/-- Whether the value was read to its end. Numbers and strings may still be without a meaning. -/
def lexical : Json → Bool
  | .broken => false
  | .array items => items.lexical
  | .object entries => entries.lexical
  | _ => true

/-- Whether an array was read to its end. -/
def Items.lexical : Items → Bool
  | .closed => true
  | .broken => false
  | .item v rest => v.lexical && rest.lexical

/-- Whether an object was read to its end. -/
def Entries.lexical : Entries → Bool
  | .closed => true
  | .broken => false
  | .entry _ v rest => v.lexical && rest.lexical

end

/-- Whether a number has a value. -/
def meaningful (n : Numeral) : Bool :=
  match n.value with
  | .outOfRange => false
  | _ => true

mutual

/-- Whether the value was read to its end, all its numbers and strings have a meaning, and its
arrays and objects nest at most `depth` deep. -/
def sound (depth : Nat) : Json → Bool
  | .broken => false
  | .number n => meaningful n
  | .string s => s.isSome
  | .array items => 0 < depth && items.sound (depth - 1)
  | .object entries => 0 < depth && entries.sound (depth - 1)
  | .null | .bool _ => true

/-- The same for all items of an array. -/
def Items.sound (depth : Nat) : Items → Bool
  | .closed => true
  | .broken => false
  | .item v rest => v.sound depth && rest.sound depth

/-- The same for all entries of an object. -/
def Entries.sound (depth : Nat) : Entries → Bool
  | .closed => true
  | .broken => false
  | .entry k v rest => k.isSome && v.sound depth && rest.sound depth

end

end Json

end FlatLayout
