import FlatLayout.Decl.TypeRef

/-!
# Intent markers

The attributes by which an author says what is to become of a struct: that it is to be flattened,
that its members share one place, that its members belong to the container. They steer the
flattening and are gone from its result.

## Main definitions

* `Marker`, `Marker.ofName?` — a marker and its attribute name
* `Markers` — the markers of a declaration, a set
* `isMarkerClass` — the classes that exist only to declare the attributes
-/

namespace FlatLayout

/-- An intent marker. -/
inductive Marker where
  | flatten
  | union
  | anonymous
  deriving DecidableEq

namespace Marker

/-- All markers, in the order in which they are listed. -/
def all : List Marker := [.flatten, .union, .anonymous]

/-- The name of the attribute. -/
def name : Marker → String
  | .flatten => "Flatten"
  | .union => "Union"
  | .anonymous => "AnonymousStruct"

/-- The marker with a name, which may carry the ending `Attribute` once. -/
def ofName? (name : String) : Option Marker :=
  all.find? fun m => m.name == Text.withoutEnd "Attribute" name

example : all.map (fun m => ofName? m.name) = all.map some := by decide +kernel

end Marker

/-- A set of markers. -/
structure Markers where
  flatten : Bool := false
  union : Bool := false
  anonymous : Bool := false
  deriving DecidableEq

namespace Markers

/-- No marker. -/
def none : Markers := {}

/-- Whether a marker is in the set. -/
def has (s : Markers) : Marker → Bool
  | .flatten => s.flatten
  | .union => s.union
  | .anonymous => s.anonymous

/-- The set with a marker added. -/
def insert (s : Markers) : Marker → Markers
  | .flatten => { s with flatten := true }
  | .union => { s with union := true }
  | .anonymous => { s with anonymous := true }

/-- The markers of the set, in their order. -/
def toList (s : Markers) : List Marker := Marker.all.filter s.has

/-- Whether the set is empty. -/
def isEmpty (s : Markers) : Bool := !s.flatten && !s.union && !s.anonymous

/-- The names of the markers of the set. -/
def names (s : Markers) : List String := s.toList.map Marker.name

/-- The set of the markers with some names. -/
def ofNames (names : List String) : Except DeclError Markers :=
  names.foldlM (fun s name =>
    match Marker.ofName? name with
    | some m => .ok (s.insert m)
    | Option.none => .error (.unknownMarker name)) .none

end Markers

/-- Whether a class only declares a marker: it is named after one and derives from `Attribute`. -/
def isMarkerClass (name : String) (base : Option String) : Bool :=
  (base == some "Attribute" || base == some "System.Attribute") && (Marker.ofName? name).isSome

end FlatLayout
