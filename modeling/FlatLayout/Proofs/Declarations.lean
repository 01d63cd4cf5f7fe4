import FlatLayout.Layout.Catalog
import Mathlib.Tactic.Tauto

/-!
# What units declare

A catalog is filled by going through the trees of some units. Here a unit is the list of its
declarations under their qualified names, in the order in which they are entered, and the catalog of
some units is read off these lists: a struct is the first one of its name, and a name declares
nothing if it is on no list. How the names are nested no longer matters.

This is what is needed to compare the catalogs of two projects that differ in one unit.

## Main definitions

* `Declaration` — a declaration under its qualified name
* `SourceUnit.declarations` — what a unit declares, in the order in which it is entered
* `SourceUnit.structAt?` — the struct that a unit declares under a name
* `SourceUnit.structKeys` — the names of all structs of a unit

## Main results

* `struct?_ofUnits` — the struct with a name is the one of the first unit that has one
* `declared?_ofUnits_eq_none_iff` — what declares nothing
* `namespaces_ofUnits_cons` — the namespaces do not depend on the declarations
-/

namespace FlatLayout

/-- A declaration under its qualified name. -/
inductive Declaration where
  | struct (key : QualName) (decl : StructDecl)
  | enum (key : QualName) (decl : EnumDecl)
  | managed (key : QualName) (decl : ClassDecl)

/-- The name of what is declared. -/
def Declaration.key : Declaration → QualName
  | struct k _ | enum k _ | managed k _ => k

/-- The struct that is declared, if it has the name `k`. -/
def Declaration.struct? (k : QualName) : Declaration → Option StructDecl
  | struct q s => if q = k then some s else none
  | _ => none

mutual

/-- What a member of a struct declares. -/
def Member.declarations (key : QualName) : Member → List Declaration
  | .struct s => StructDecl.declarations (key.child s.name) s
  | .enum e => [.enum (key.child e.name) e]
  | _ => []

/-- What a struct declares: all that is in it, and then itself. -/
def StructDecl.declarations (key : QualName) : StructDecl → List Declaration
  | ⟨modifiers, name, markers, layout, members⟩ =>
    Member.declarationsAll key members ++ [.struct key ⟨modifiers, name, markers, layout, members⟩]

/-- What the members of a struct declare. -/
def Member.declarationsAll (key : QualName) : List Member → List Declaration
  | [] => []
  | m :: ms => m.declarations key ++ Member.declarationsAll key ms

end

/-- What an item of a unit declares. -/
def Item.declarations (space : Option String) : Item → List Declaration
  | .struct s => s.declarations (.root space s.name)
  | .enum e => [.enum (.root space e.name) e]
  | .classDecl d => [.managed (.root space d.name) d]
  | .verbatim _ => []

/-- What a unit declares. -/
def SourceUnit.declarations (u : SourceUnit) : List Declaration :=
  u.items.flatMap (Item.declarations u.namespaceName)

/-- The struct that a unit declares under a name, the first one if there are several. -/
def SourceUnit.structAt? (u : SourceUnit) (k : QualName) : Option StructDecl :=
  u.declarations.findSome? (Declaration.struct? k)

/-- The name of the struct that is declared, if it is one. -/
def Declaration.structKey? : Declaration → Option QualName
  | .struct k _ => some k
  | _ => none

/-- The names of the structs that a unit declares, once for each declaration. -/
def SourceUnit.structKeys (u : SourceUnit) : List QualName :=
  u.declarations.filterMap Declaration.structKey?

/-! ### The structs of a unit -/

theorem Declaration.struct?_eq_some_iff {e : Declaration} {k : QualName} {s : StructDecl} :
    e.struct? k = some s ↔ e = .struct k s := by
  cases e with
  | struct q s' =>
    rw [struct?]
    split
    next heq => simp [heq]
    next hne => simp [hne]
  | enum q e => simp [struct?]
  | managed q d => simp [struct?]

theorem mem_of_structAt? {u : SourceUnit} {k : QualName} {s : StructDecl}
    (h : u.structAt? k = some s) : .struct k s ∈ u.declarations := by
  obtain ⟨e, he, hs⟩ := List.exists_of_findSome?_eq_some h
  rwa [← Declaration.struct?_eq_some_iff.1 hs]

theorem findSome?_struct?_of_mem {es : List Declaration} {k : QualName} {s : StructDecl}
    (hdistinct : (es.filterMap Declaration.structKey?).Nodup) (h : .struct k s ∈ es) :
    es.findSome? (Declaration.struct? k) = some s := by
  induction es with
  | nil => cases h
  | cons e es ih =>
    rw [List.findSome?_cons]
    cases e with
    | struct q s' =>
      obtain ⟨hfresh, hdistinct⟩ := List.nodup_cons.1 hdistinct
      rcases List.mem_cons.1 h with heq | h
      · obtain ⟨rfl, rfl⟩ := Declaration.struct.inj heq
        rw [Declaration.struct?, if_pos rfl]
      · have hne : q ≠ k := by
          rintro rfl
          exact hfresh (List.mem_filterMap.2 ⟨_, h, rfl⟩)
        rw [Declaration.struct?, if_neg hne]
        exact ih hdistinct h
    | enum q e => exact ih hdistinct ((List.mem_cons.1 h).resolve_left nofun)
    | managed q d => exact ih hdistinct ((List.mem_cons.1 h).resolve_left nofun)

/-- Where no name is used twice, every struct is found under its name. -/
theorem structAt?_of_mem {u : SourceUnit} {k : QualName} {s : StructDecl}
    (hdistinct : u.structKeys.Nodup) (h : .struct k s ∈ u.declarations) :
    u.structAt? k = some s := findSome?_struct?_of_mem hdistinct h

/-! ### Entering -/

namespace Catalog

/-- The catalog with a declaration entered. -/
def put (c : Catalog) : Declaration → Catalog
  | .struct key s => c.putStruct key s
  | .enum key e => c.putEnum key e
  | .managed key d => c.putClass key d

mutual

theorem addMember_eq (key : QualName) (c : Catalog) (m : Member) :
    addMember key c m = (m.declarations key).foldl put c := by
  cases m with
  | struct s =>
    rw [addMember, Member.declarations]
    exact addStruct_eq _ c s
  | field f => rfl
  | accessor a => rfl
  | enum e => rfl
  | conditional symbol ms otherwise => rfl
  | verbatim text => rfl

theorem addStruct_eq (key : QualName) (c : Catalog) (s : StructDecl) :
    addStruct key c s = (s.declarations key).foldl put c := by
  obtain ⟨modifiers, name, markers, layout, members⟩ := s
  rw [addStruct, StructDecl.declarations, List.foldl_append, addMembers_eq key c members]
  rfl

theorem addMembers_eq (key : QualName) (c : Catalog) (ms : List Member) :
    addMembers key c ms = (Member.declarationsAll key ms).foldl put c := by
  cases ms with
  | nil => rfl
  | cons m ms =>
    rw [addMembers, Member.declarationsAll, List.foldl_append, addMember_eq key c m]
    exact addMembers_eq key _ ms

end

theorem addItem_eq (space : Option String) (c : Catalog) (i : Item) :
    addItem space c i = (i.declarations space).foldl put c := by
  cases i with
  | struct s => exact addStruct_eq _ c s
  | enum e => rfl
  | classDecl d => rfl
  | verbatim text => rfl

/-- A unit enters its namespaces and then, one by one, what it declares. -/
theorem addUnit_eq (c : Catalog) (u : SourceUnit) :
    c.addUnit u =
      u.declarations.foldl put ((u.namespaceName.toList ++ u.imports).foldl putNamespace c) := by
  rw [addUnit, SourceUnit.declarations, List.foldl_flatMap]
  congr 1
  funext c i
  exact addItem_eq u.namespaceName c i

/-! ### Structs -/

variable {c : Catalog} {k q : QualName} {s : StructDecl}

theorem struct?_put (c : Catalog) (e : Declaration) (k : QualName) :
    (c.put e).struct? k = (c.struct? k).or (e.struct? k) := by
  cases e with
  | struct q s =>
    rw [put, putStruct, Declaration.struct?]
    split
    next htaken =>
      show c.struct? k = _
      split
      next heq =>
        subst heq
        obtain ⟨s', hs'⟩ := Option.isSome_iff_exists.1 htaken
        rw [hs', Option.some_or]
      · rw [Option.or_none]
    · rw [struct?, List.lookup_append]
      by_cases heq : q = k
      · rw [if_pos heq, heq, List.lookup_cons_self]
        rfl
      · rw [if_neg heq, List.lookup_cons, beq_false_of_ne (Ne.symm heq)]
        rfl
  | enum q e => exact (Option.or_none).symm
  | managed q d => exact (Option.or_none).symm

theorem struct?_foldl_put (c : Catalog) (es : List Declaration) (k : QualName) :
    (es.foldl put c).struct? k = (c.struct? k).or (es.findSome? (Declaration.struct? k)) := by
  induction es generalizing c with
  | nil => exact Option.or_none.symm
  | cons e es ih =>
    rw [List.foldl_cons, ih, struct?_put, Option.or_assoc, List.findSome?_cons]
    cases e.struct? k <;> rfl

/-- Namespaces are no declarations. -/
theorem foldl_putNamespace (c : Catalog) (names : List String) :
    ∃ namespaces, names.foldl putNamespace c = { c with namespaces := namespaces } := by
  induction names generalizing c with
  | nil => exact ⟨c.namespaces, rfl⟩
  | cons n names ih =>
    obtain ⟨namespaces, h⟩ := ih (c.putNamespace n)
    refine ⟨namespaces, ?_⟩
    rw [List.foldl_cons, h, putNamespace]
    split <;> rfl

theorem struct?_foldl_addUnit (c : Catalog) (us : List SourceUnit) (k : QualName) :
    (us.foldl addUnit c).struct? k = (c.struct? k).or (us.findSome? (·.structAt? k)) := by
  induction us generalizing c with
  | nil => exact Option.or_none.symm
  | cons u us ih =>
    obtain ⟨namespaces, h⟩ := foldl_putNamespace c (u.namespaceName.toList ++ u.imports)
    rw [List.foldl_cons, ih, addUnit_eq, struct?_foldl_put, h, Option.or_assoc,
      List.findSome?_cons]
    show (c.struct? k).or ((u.structAt? k).or _) = _
    cases u.structAt? k <;> rfl

/-- **A struct is the one of the first unit** that declares one of its name. -/
theorem struct?_ofUnits (us : List SourceUnit) (k : QualName) :
    (ofUnits us).struct? k = us.findSome? (·.structAt? k) := by
  rw [ofUnits, struct?_foldl_addUnit]
  exact Option.none_or

theorem struct?_ofUnits_cons (u : SourceUnit) (us : List SourceUnit) (k : QualName) :
    (ofUnits (u :: us)).struct? k = (u.structAt? k).or ((ofUnits us).struct? k) := by
  rw [struct?_ofUnits, struct?_ofUnits, List.findSome?_cons]
  cases u.structAt? k <;> rfl

/-! ### Declarations of any kind -/

theorem declared?_of_struct? (h : c.struct? q = some s) : c.declared? q = some .struct := by
  rw [declared?, h]
  rfl

theorem declared?_of_enum {d : EnumDecl} (hs : c.struct? q = none)
    (h : c.enums.lookup q = some d) : c.declared? q = some (.enum d) := by
  rw [declared?, hs, h]
  rfl

theorem declared?_of_isSome (hs : c.struct? q = none) (he : c.enums.lookup q = none)
    (h : (c.declared? q).isSome) : c.declared? q = some .managed := by
  rw [declared?, hs, he] at h ⊢
  cases hd : c.classes.lookup q with
  | some d => rfl
  | none => rw [hd] at h; cases h

theorem declared?_eq_none_iff :
    c.declared? q = none ↔
      c.struct? q = none ∧ c.enums.lookup q = none ∧ c.classes.lookup q = none := by
  unfold declared?
  cases c.struct? q with
  | some s => simp
  | none =>
    cases c.enums.lookup q with
    | some e => simp
    | none => cases c.classes.lookup q <;> simp

theorem lookup_cons_eq_none_iff {α : Type} {key : QualName} {a : α} {as : List (QualName × α)} :
    ((key, a) :: as).lookup q = none ↔ key ≠ q ∧ as.lookup q = none := by
  rw [List.lookup_cons]
  by_cases h : q = key
  · subst h
    simp
  · rw [beq_false_of_ne h]
    simp [Ne.symm h]

theorem declared?_put_eq_none_iff (c : Catalog) (e : Declaration) :
    (c.put e).declared? q = none ↔ c.declared? q = none ∧ e.key ≠ q := by
  rw [declared?_eq_none_iff, declared?_eq_none_iff, struct?_put, Option.or_eq_none_iff]
  cases e with
  | struct key s =>
    have henums : (c.put (.struct key s)).enums = c.enums := by
      rw [put, putStruct]; split <;> rfl
    have hclasses : (c.put (.struct key s)).classes = c.classes := by
      rw [put, putStruct]; split <;> rfl
    rw [henums, hclasses, Declaration.struct?]
    simp only [ite_eq_right_iff, reduceCtorEq, Declaration.key]
    tauto
  | enum key e =>
    show (_ ∧ _ = none) ∧ ((key, e) :: c.enums).lookup q = none ∧ _ ↔ _
    rw [lookup_cons_eq_none_iff]
    simp only [Declaration.struct?, Declaration.key, put, putEnum]
    tauto
  | managed key d =>
    show (_ ∧ _ = none) ∧ _ ∧ ((key, d) :: c.classes).lookup q = none ↔ _
    rw [lookup_cons_eq_none_iff]
    simp only [Declaration.struct?, Declaration.key, put, putClass]
    tauto

theorem declared?_foldl_put_eq_none_iff (c : Catalog) (es : List Declaration) :
    (es.foldl put c).declared? q = none ↔ c.declared? q = none ∧ ∀ e ∈ es, e.key ≠ q := by
  induction es generalizing c with
  | nil => simp
  | cons e es ih =>
    rw [List.foldl_cons, ih, declared?_put_eq_none_iff, List.forall_mem_cons]
    exact and_assoc

theorem declared?_foldl_addUnit_eq_none_iff (c : Catalog) (us : List SourceUnit) :
    (us.foldl addUnit c).declared? q = none ↔
      c.declared? q = none ∧ ∀ u ∈ us, ∀ e ∈ u.declarations, e.key ≠ q := by
  induction us generalizing c with
  | nil => simp
  | cons u us ih =>
    obtain ⟨namespaces, h⟩ := foldl_putNamespace c (u.namespaceName.toList ++ u.imports)
    rw [List.foldl_cons, ih, addUnit_eq, declared?_foldl_put_eq_none_iff, h, List.forall_mem_cons]
    exact and_assoc

/-- **What declares nothing** is on no list. -/
theorem declared?_ofUnits_eq_none_iff (us : List SourceUnit) :
    (ofUnits us).declared? q = none ↔ ∀ u ∈ us, ∀ e ∈ u.declarations, e.key ≠ q := by
  rw [ofUnits, declared?_foldl_addUnit_eq_none_iff]
  exact ⟨And.right, fun h => ⟨rfl, h⟩⟩

/-! ### Namespaces -/

theorem namespaces_put (c : Catalog) (e : Declaration) : (c.put e).namespaces = c.namespaces := by
  cases e with
  | struct key s => rw [put, putStruct]; split <;> rfl
  | enum key e => rfl
  | managed key d => rfl

theorem namespaces_foldl_put (c : Catalog) (es : List Declaration) :
    (es.foldl put c).namespaces = c.namespaces := by
  induction es generalizing c with
  | nil => rfl
  | cons e es ih => rw [List.foldl_cons, ih, namespaces_put]

theorem namespaces_putNamespace {c c' : Catalog} (h : c.namespaces = c'.namespaces)
    (names : List String) :
    (names.foldl putNamespace c).namespaces = (names.foldl putNamespace c').namespaces := by
  induction names generalizing c c' with
  | nil => exact h
  | cons n names ih =>
    refine ih ?_
    simp only [putNamespace, h]
    split
    · exact h
    · rfl

/-- Units with the same namespace and the same imports add the same. -/
theorem namespaces_addUnit {c c' : Catalog} (h : c.namespaces = c'.namespaces) {u u' : SourceUnit}
    (hspace : u.namespaceName = u'.namespaceName) (himports : u.imports = u'.imports) :
    (c.addUnit u).namespaces = (c'.addUnit u').namespaces := by
  rw [addUnit_eq, addUnit_eq, namespaces_foldl_put, namespaces_foldl_put, hspace, himports]
  exact namespaces_putNamespace h _

theorem namespaces_foldl_addUnit {c c' : Catalog} (h : c.namespaces = c'.namespaces)
    (us : List SourceUnit) :
    (us.foldl addUnit c).namespaces = (us.foldl addUnit c').namespaces := by
  induction us generalizing c c' with
  | nil => exact h
  | cons u us ih => exact ih (namespaces_addUnit h rfl rfl)

/-- **The namespaces** do not depend on the declarations of a unit. -/
theorem namespaces_ofUnits_cons {u u' : SourceUnit} (hspace : u.namespaceName = u'.namespaceName)
    (himports : u.imports = u'.imports) (us : List SourceUnit) :
    (ofUnits (u :: us)).namespaces = (ofUnits (u' :: us)).namespaces :=
  namespaces_foldl_addUnit (namespaces_addUnit rfl hspace himports) us

end Catalog

end FlatLayout
