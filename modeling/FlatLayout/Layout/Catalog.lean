import FlatLayout.Layout.Rule

/-!
# The catalog of declarations

Every struct, enumeration and class of some units under its qualified name, and the namespaces that
the units contribute. Names written in declarations are bound by looking them up here.

## Main definitions

* `Catalog`, `Catalog.ofUnits` — the declarations of some units
* `Catalog.declared?` — what a qualified name declares
* `Catalog.candidates` — the qualified names that a written name may mean, the preferred ones first
* `Catalog.bind` — what a type reference is bound to

## Implementation notes

Of several structs with one name the first is kept, and the name is noted in `repeated`. Only
structs are guarded in this way: enumerations and classes go in front of those that are there, and
hide one of the same name without a note. What is nested in a struct is entered before it, also when
it is itself not kept.
-/

namespace FlatLayout

/-- What a qualified name declares. -/
inductive Declared where
  | struct
  | enum (decl : EnumDecl)
  /-- A class, which has no layout. -/
  | managed

/-- The declarations of some units. -/
structure Catalog where
  /-- The structs, in the order in which they were entered. -/
  structs : List (QualName × StructDecl)
  /-- The enumerations, the latest in front. -/
  enums : List (QualName × EnumDecl)
  /-- The classes, the latest in front. -/
  classes : List (QualName × ClassDecl)
  /-- The namespaces and imports of the units, each once. -/
  namespaces : List String
  /-- The names of the structs that were not kept because their name was taken. -/
  repeated : List QualName

namespace Catalog

/-- The catalog of no units. -/
def empty : Catalog := ⟨[], [], [], [], []⟩

/-- The struct with a qualified name. -/
def struct? (c : Catalog) (key : QualName) : Option StructDecl := c.structs.lookup key

/-- Enters a struct unless its name is taken. -/
def putStruct (c : Catalog) (key : QualName) (s : StructDecl) : Catalog :=
  if (c.struct? key).isSome then { c with repeated := c.repeated ++ [key] }
  else { c with structs := c.structs ++ [(key, s)] }

/-- Enters an enumeration. -/
def putEnum (c : Catalog) (key : QualName) (e : EnumDecl) : Catalog :=
  { c with enums := (key, e) :: c.enums }

/-- Enters a class. -/
def putClass (c : Catalog) (key : QualName) (d : ClassDecl) : Catalog :=
  { c with classes := (key, d) :: c.classes }

/-- Adds a namespace unless it is there. -/
def putNamespace (c : Catalog) (ns : String) : Catalog :=
  if c.namespaces.contains ns then c else { c with namespaces := c.namespaces ++ [ns] }

mutual

/-- Enters the declarations that a member of a struct makes. -/
def addMember (key : QualName) (c : Catalog) : Member → Catalog
  | .struct s => addStruct (key.child s.name) c s
  | .enum e => c.putEnum (key.child e.name) e
  | _ => c

/-- Enters a struct, after all that is declared inside of it. -/
def addStruct (key : QualName) (c : Catalog) : StructDecl → Catalog
  | ⟨modifiers, name, markers, layout, members⟩ =>
    (addMembers key c members).putStruct key ⟨modifiers, name, markers, layout, members⟩

/-- Enters the declarations that the members of a struct make. -/
def addMembers (key : QualName) (c : Catalog) : List Member → Catalog
  | [] => c
  | m :: ms => addMembers key (addMember key c m) ms

end

/-- Enters the declarations that an item of a unit makes. -/
def addItem (space : Option String) (c : Catalog) : Item → Catalog
  | .struct s => addStruct (.root space s.name) c s
  | .enum e => c.putEnum (.root space e.name) e
  | .classDecl d => c.putClass (.root space d.name) d
  | .verbatim _ => c

/-- Enters the declarations of a unit. -/
def addUnit (c : Catalog) (u : SourceUnit) : Catalog :=
  let c := (u.namespaceName.toList ++ u.imports).foldl putNamespace c
  u.items.foldl (addItem u.namespaceName) c

/-- The declarations of some units. -/
def ofUnits (us : List SourceUnit) : Catalog := us.foldl addUnit empty

/-! ### Binding -/

/-- What a qualified name declares. A struct goes before an enumeration, and that before a class. -/
def declared? (c : Catalog) (key : QualName) : Option Declared :=
  if (c.struct? key).isSome then some .struct
  else
    match c.enums.lookup key with
    | some e => some (.enum e)
    | none => if (c.classes.lookup key).isSome then some .managed else none

/-- The qualified names that a name written in a scope may mean: in the scope and everything that
encloses it, at the top, and in each namespace. -/
def candidates (c : Catalog) (name : String) (scope : QualName) : List QualName :=
  scope.scopes.map (·.child name) ++ .root none name ::
    c.namespaces.map fun ns => .root (some ns) name

/-- The integer type that an enumeration is based on, `int` if it names none. -/
def enumBase (key : QualName) (e : EnumDecl) : Except LayoutError Primitive :=
  match e.underlying with
  | none => .ok .int
  | some t =>
    match Primitive.ofName? t.name with
    | some p =>
      if p.isInteger && !t.isPointer then .ok p else .error (.enumBase key t)
    | none => .error (.enumBase key t)

/-- The binding of a name that declares something. -/
def bindDeclared (key : QualName) : Declared → Except LayoutError Binding
  | .struct => .ok (.struct key)
  | .enum e => (enumBase key e).map (.enum key)
  | .managed => .ok (.managed key.text)

/-- The first of some qualified names that declares something. -/
def firstDeclared (c : Catalog) (keys : List QualName) : Option (QualName × Declared) :=
  keys.findSome? fun k => (c.declared? k).map fun d => (k, d)

/-- What a type reference written in a scope is bound to. -/
def bind (c : Catalog) (t : TypeRef) (scope : QualName) : Except LayoutError Binding :=
  match t.pointee? with
  | some pointee => .ok (.pointer pointee)
  | none =>
    match Primitive.ofName? t.name with
    | some p => .ok (.primitive p)
    | none =>
      if isManagedName t.name then .ok (.managed t.name)
      else
        match c.firstDeclared (c.candidates t.name scope) with
        | some (key, d) => bindDeclared key d
        | none => .error (.unresolvedType t.text scope.text)

end Catalog

end FlatLayout
