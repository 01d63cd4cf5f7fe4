import FlatLayout.Project
import FlatLayout.Proofs.LaterUnits
import FlatLayout.Proofs.Locality
import FlatLayout.Proofs.Termination

/-!
# The order of auxiliary units

Where no name is declared twice, it does not matter which declaration was entered first: every name
declares the same, in whatever order the units were added. What depends on the order is the list of
namespaces, and with it the order in which a name is tried in them. This has no effect on a name
that is declared in one namespace at most. So two orders give catalogs that agree on every struct,
and as many structs in each.

On such catalogs flattening does the same steps, and not only answers the same: the same structs are
laid out one after the other, the same ones are recalled, and the same step is the first to fail.

## Main definitions

* `Catalog.Unambiguous` — a name is declared in one namespace at most

## Main results

* `findSome?_eq_of_unique` — a search that has one result at most does not depend on the order
* `Project.agreesAt_of_perm` — the catalogs of two orders agree
* `flattenWithin_eq`, `flattenMarked_eq` — the same steps in catalogs that agree
* `run_perm` — the order of the auxiliary units does not matter
-/

namespace FlatLayout

/-! ### Searches with one result -/

/-- A search does not depend on the order of what is searched, if only one thing can be found. -/
theorem findSome?_eq_of_unique {α β : Type} {as bs : List α} {f : α → Option β}
    (hmem : ∀ a, a ∈ as ↔ a ∈ bs)
    (hunique : ∀ a ∈ as, ∀ b ∈ as, (f a).isSome → (f b).isSome → f a = f b) :
    as.findSome? f = bs.findSome? f := by
  cases hbs : bs.findSome? f with
  | none =>
    rw [List.findSome?_eq_none_iff] at hbs ⊢
    exact fun a ha => hbs a ((hmem a).1 ha)
  | some y =>
    obtain ⟨b, hb, hy⟩ := List.exists_of_findSome?_eq_some hbs
    have hfound : (as.findSome? f).isSome := by
      rw [List.findSome?_isSome_iff]
      exact ⟨b, (hmem b).2 hb, by rw [hy]; rfl⟩
    obtain ⟨x, hx⟩ := Option.isSome_iff_exists.1 hfound
    obtain ⟨a, ha, hax⟩ := List.exists_of_findSome?_eq_some hx
    have hsame := hunique a ha b ((hmem b).2 hb) (by rw [hax]; rfl) (by rw [hy]; rfl)
    rw [hx, ← hax, hsame, hy]

/-! ### Declarations in another order -/

section

variable {es es' : List Declaration} {k : QualName}

theorem Declaration.key_of_struct? {e : Declaration} (h : (e.struct? k).isSome) : e.key = k := by
  obtain ⟨s, hs⟩ := Option.isSome_iff_exists.1 h
  rw [struct?_eq_some_iff.1 hs]
  rfl

theorem Declaration.key_of_enum? {e : Declaration} (h : (e.enum? k).isSome) : e.key = k := by
  by_contra hne
  rw [enum?_eq_none fun d heq => hne (by rw [heq]; rfl)] at h
  cases h

theorem Declaration.key_of_managed? {e : Declaration} (h : (e.managed? k).isSome) :
    e.key = k := by
  by_contra hne
  rw [managed?_eq_none fun d heq => hne (by rw [heq]; rfl)] at h
  cases h

/-- Where no name is used twice, what is searched by name is found in any order. -/
theorem findSome?_perm {α : Type} {f : Declaration → Option α} (hperm : es.Perm es')
    (hdistinct : (es.map Declaration.key).Nodup) (hkey : ∀ e, (f e).isSome → e.key = k) :
    es.findSome? f = es'.findSome? f := by
  refine findSome?_eq_of_unique (fun e => hperm.mem_iff) fun d hd e he hfd hfe => ?_
  rw [List.inj_on_of_nodup_map hdistinct hd he ((hkey d hfd).trans (hkey e hfe).symm)]

end

namespace Catalog

variable {us us' : List SourceUnit}

/-- The declarations of some units, in the order in which they are entered. -/
theorem declared?_ofUnits_perm
    (hperm : (us.flatMap (·.declarations)).Perm (us'.flatMap (·.declarations)))
    (hdistinct : ((us.flatMap (·.declarations)).map Declaration.key).Nodup) (k : QualName) :
    (ofUnits us').struct? k = (ofUnits us).struct? k ∧
      (ofUnits us').declared? k = (ofUnits us).declared? k := by
  have hreverse := (List.reverse_perm _).trans (hperm.trans (List.reverse_perm _).symm)
  have hdistinct' := ((List.reverse_perm _).map Declaration.key).nodup_iff.2 hdistinct
  have hstruct : (ofUnits us').struct? k = (ofUnits us).struct? k := by
    rw [ofUnits, ofUnits, struct?_foldl_addUnit_eq, struct?_foldl_addUnit_eq]
    rw [findSome?_perm hperm hdistinct fun e => Declaration.key_of_struct?]
  have henum : (ofUnits us').enums.lookup k = (ofUnits us).enums.lookup k := by
    rw [ofUnits, ofUnits, lookup_enums_foldl_addUnit, lookup_enums_foldl_addUnit]
    rw [findSome?_perm hreverse hdistinct' fun e => Declaration.key_of_enum?]
  have hclass : (ofUnits us').classes.lookup k = (ofUnits us).classes.lookup k := by
    rw [ofUnits, ofUnits, lookup_classes_foldl_addUnit, lookup_classes_foldl_addUnit]
    rw [findSome?_perm hreverse hdistinct' fun e => Declaration.key_of_managed?]
  exact ⟨hstruct, by rw [declared?, declared?, hstruct, henum, hclass]⟩

theorem length_structs_foldl_put {c : Catalog} {es : List Declaration}
    (hdistinct : (es.map Declaration.key).Nodup) (hfresh : ∀ e ∈ es, c.struct? e.key = none) :
    (es.foldl put c).structs.length =
      c.structs.length + (es.filterMap Declaration.structKey?).length := by
  induction es generalizing c with
  | nil => rfl
  | cons e es ih =>
    obtain ⟨hnew, hdistinct⟩ := List.nodup_cons.1 hdistinct
    have hfree : ¬ (c.struct? e.key).isSome := by
      rw [hfresh e List.mem_cons_self]
      exact Bool.false_ne_true
    rw [List.foldl_cons, ih hdistinct]
    · cases e with
      | struct k s =>
        have hfree : ¬ (c.struct? k).isSome := hfree
        rw [put_of_free hfree, List.filterMap_cons, List.length_append]
        simp only [Declaration.structKey?, List.length_cons, List.length_nil]
        omega
      | enum k d => rfl
      | managed k d => rfl
    · intro d hd
      rw [struct?_put, hfresh d (List.mem_cons_of_mem _ hd), Option.none_or]
      by_contra hsome
      have hkey := Declaration.key_of_struct? (Option.isSome_iff_ne_none.2 hsome)
      exact hnew (hkey ▸ List.mem_map.2 ⟨d, hd, rfl⟩)

theorem length_structs_ofUnits_perm
    (hperm : (us.flatMap (·.declarations)).Perm (us'.flatMap (·.declarations)))
    (hdistinct : ((us.flatMap (·.declarations)).map Declaration.key).Nodup) :
    (ofUnits us').structs.length = (ofUnits us).structs.length := by
  obtain ⟨_, h⟩ := foldl_addUnit_eq empty us
  obtain ⟨_, h'⟩ := foldl_addUnit_eq empty us'
  rw [ofUnits, ofUnits, h, h']
  have hdistinct' := (hperm.map Declaration.key).nodup_iff.1 hdistinct
  show (List.foldl put empty _).structs.length = (List.foldl put empty _).structs.length
  rw [length_structs_foldl_put hdistinct fun _ _ => rfl,
    length_structs_foldl_put hdistinct' fun _ _ => rfl, (hperm.filterMap _).length_eq]

/-! ### Namespaces in another order -/

theorem mem_namespaces_putNamespace {c : Catalog} {names : List String} {ns : String} :
    ns ∈ (names.foldl putNamespace c).namespaces ↔ ns ∈ c.namespaces ∨ ns ∈ names := by
  induction names generalizing c with
  | nil => simp
  | cons n names ih =>
    rw [List.foldl_cons, ih, putNamespace]
    split
    next hthere =>
      have hthere : n ∈ c.namespaces := by simpa using hthere
      rw [List.mem_cons]
      constructor
      · exact Or.imp_right .inr
      · rintro (h | rfl | h)
        · exact .inl h
        · exact .inl hthere
        · exact .inr h
    · rw [List.mem_append, List.mem_singleton, List.mem_cons, or_assoc]

theorem mem_namespaces_foldl_addUnit {c : Catalog} {ns : String} :
    ns ∈ (us.foldl addUnit c).namespaces ↔
      ns ∈ c.namespaces ∨ ∃ u ∈ us, ns ∈ u.namespaceName.toList ++ u.imports := by
  induction us generalizing c with
  | nil => simp
  | cons u us ih =>
    rw [List.foldl_cons, ih, addUnit_eq, namespaces_foldl_put, mem_namespaces_putNamespace,
      List.exists_mem_cons_iff, or_assoc]

/-- The name is declared in one of the namespaces at most. -/
def Unambiguous (c : Catalog) (name : String) : Prop :=
  ∀ ns ∈ c.namespaces, ∀ ns' ∈ c.namespaces, ns ≠ "" → ns' ≠ "" →
    (c.declared? (.root (some ns) name)).isSome → (c.declared? (.root (some ns') name)).isSome →
      ns = ns'

instance decidableUnambiguous (c : Catalog) (name : String) : Decidable (c.Unambiguous name) :=
  inferInstanceAs (Decidable (∀ ns ∈ c.namespaces, ∀ ns' ∈ c.namespaces, ns ≠ "" → ns' ≠ "" →
    (c.declared? (.root (some ns) name)).isSome → (c.declared? (.root (some ns') name)).isSome →
      ns = ns'))

/-- Whether this holds for the type names of all fields. -/
def unambiguousFields (c : Catalog) : Bool :=
  c.structs.all fun e => e.2.slots.all fun
    | .field g _ => decide (c.Unambiguous g.type.name)
    | _ => true

theorem of_unambiguousFields {c : Catalog} (h : c.unambiguousFields = true) {d : QualName}
    {g : FieldDecl} (hg : c.HasField d g) : c.Unambiguous g.type.name := by
  obtain ⟨s, source, hs, hslot⟩ := hg
  rw [unambiguousFields, List.all_eq_true] at h
  have hfield := List.all_eq_true.1 (h (d, s) (mem_structs_of_struct? hs)) _ hslot
  exact of_decide_eq_true hfield

theorem firstDeclared_append (c : Catalog) (near far : List QualName) :
    c.firstDeclared (near ++ far) = (c.firstDeclared near).or (c.firstDeclared far) :=
  List.findSome?_append

/-- A name that declares nothing at the top, and something in one namespace at most, is found in
whatever order the namespaces are tried. -/
theorem Unambiguous.firstDeclared_eq {c : Catalog} {name : String} (h : c.Unambiguous name)
    (htop : c.declared? (.root none name) = none) {names : List String}
    (hnames : ∀ ns, ns ∈ names ↔ ns ∈ c.namespaces) :
    c.firstDeclared (names.map fun ns => .root (some ns) name) =
      c.firstDeclared (c.namespaces.map fun ns => .root (some ns) name) := by
  -- the top may itself be contributed as a namespace without a name
  have hne : ∀ ns, (c.declared? (.root (some ns) name)).isSome → ns ≠ "" := by
    rintro ns hns rfl
    have hnone : c.declared? (.root (some "") name) = none := htop
    rw [hnone] at hns
    cases hns
  rw [firstDeclared, firstDeclared, List.findSome?_map, List.findSome?_map]
  refine findSome?_eq_of_unique hnames fun ns hns ns' hns' hsome hsome' => ?_
  rw [Function.comp_apply, Option.isSome_map] at hsome hsome'
  rw [h ns ((hnames ns).1 hns) ns' ((hnames ns').1 hns') (hne ns hsome) (hne ns' hsome') hsome
    hsome']

/-- Such a name is bound to the same where the same names are declared and the same namespaces
contributed. -/
theorem bind_eq_of_unambiguous {c c' : Catalog} (hdeclared : ∀ k, c'.declared? k = c.declared? k)
    (hnamespaces : ∀ ns, ns ∈ c'.namespaces ↔ ns ∈ c.namespaces) {t : TypeRef}
    (hname : c.Unambiguous t.name) (scope : QualName) : c'.bind t scope = c.bind t scope := by
  have hsame : c'.firstDeclared = c.firstDeclared := by
    funext keys
    simp only [firstDeclared, hdeclared]
  have hfirst : c.firstDeclared (c'.candidates t.name scope) =
      c.firstDeclared (c.candidates t.name scope) := by
    have hcut : ∀ far, c.firstDeclared
        (scope.scopes.map (·.child t.name) ++ .root none t.name :: far) =
          (c.firstDeclared (scope.scopes.map (·.child t.name) ++ [.root none t.name])).or
            (c.firstDeclared far) :=
      fun far => by rw [List.append_cons, firstDeclared_append]
    rw [candidates, candidates, hcut (c'.namespaces.map _), hcut (c.namespaces.map _)]
    cases hnear : c.firstDeclared (scope.scopes.map (·.child t.name) ++ [.root none t.name]) with
    | some r => rfl
    | none =>
      have htop : c.declared? (.root none t.name) = none := by
        have hnone := List.findSome?_eq_none_iff.1 hnear (.root none t.name) (by simp)
        exact Option.map_eq_none_iff.1 hnone
      rw [Option.none_or, Option.none_or, hname.firstDeclared_eq htop hnamespaces]
  simp only [bind, hsame, hfirst]

end Catalog

/-! ### The same steps -/

section

variable {c c' : Catalog} {o : Options} {key : QualName}

theorem placeSlots_eq {child : QualName → Bench FlatStruct} {slots : List Slot}
    (hbind : ∀ g source, Slot.field g source ∈ slots → c'.bind g.type key = c.bind g.type key)
    (p : Placement) :
    slots.foldlM (placeSlot c' o child key) p = slots.foldlM (placeSlot c o child key) p := by
  induction slots generalizing p with
  | nil => rfl
  | cons slot slots ih =>
    have hrest := ih fun g source hg => hbind g source (List.mem_cons_of_mem _ hg)
    have hfirst : placeSlot c' o child key p slot = placeSlot c o child key p slot := by
      cases slot with
      | groupedBuffer f => rfl
      | conditional symbol => rfl
      | field f source =>
        simp only [placeSlot, placeField, hbind f source List.mem_cons_self]
    rw [List.foldlM_cons, List.foldlM_cons, hfirst]
    exact congrArg _ (funext hrest)

theorem layoutStruct_eq {child : QualName → Bench FlatStruct} {s : StructDecl}
    (hbind : ∀ g source, Slot.field g source ∈ s.slots → c'.bind g.type key = c.bind g.type key) :
    layoutStruct c' o child key s = layoutStruct c o child key s := by
  simp only [layoutStruct, placeSlots_eq hbind]

theorem flattenOnce_eq {lay lay' : StructDecl → Bench FlatStruct}
    (hdeclaration : c'.declaration key = c.declaration key)
    (hlay : ∀ s, c.declaration key = .ok s → lay' s = lay s) :
    flattenOnce c' lay' key = flattenOnce c lay key := by
  unfold flattenOnce
  rw [hdeclaration]
  cases hs : c.declaration key with
  | error e => rfl
  | ok s =>
    have hok : ∀ f : StructDecl → Bench FlatStruct, Bench.ofExcept (.ok s) >>= f = f s :=
      fun _ => rfl
    simp only [hok, hlay s hs]

variable (hagree : ∀ d, c.AgreesAt c' d)

include hagree

/-- **Flattening does the same** in two catalogs that agree on every struct, step by step. -/
theorem flattenWithin_eq (fuel : Nat) (key : QualName) :
    flattenWithin c' o fuel key = flattenWithin c o fuel key := by
  induction fuel generalizing key with
  | zero => rfl
  | succ n ih =>
    have hchild : flattenWithin c' o n = flattenWithin c o n := funext ih
    rw [flattenWithin_succ, flattenWithin_succ, hchild]
    refine flattenOnce_eq (hagree key).declaration fun s hs => layoutStruct_eq fun g source hg => ?_
    exact (hagree key).bind g ⟨s, source, Catalog.declaration_eq_ok hs, hg⟩

variable (hlength : c'.structs.length = c.structs.length)

include hlength

theorem Bench.flatten_eq : Bench.flatten c' o = Bench.flatten c o := by
  funext key
  rw [Bench.flatten, Bench.flatten, hlength, flattenWithin_eq hagree]

omit hagree hlength

section

variable {nested : QualName → List Member → Drafting (List Member)}

mutual

theorem member_flattenMarked_eq (hflatten : Bench.flatten c' o = Bench.flatten c o)
    (key : QualName) (m : Member) :
    m.flattenMarked c' o nested key = m.flattenMarked c o nested key := by
  cases m with
  | struct s =>
    rw [Member.flattenMarked, Member.flattenMarked, struct_flattenMarked_eq hflatten _ s]
  | field f => rfl
  | accessor a => rfl
  | enum e => rfl
  | conditional symbol ms otherwise => rfl
  | verbatim text => rfl

theorem struct_flattenMarked_eq (hflatten : Bench.flatten c' o = Bench.flatten c o)
    (key : QualName) (s : StructDecl) :
    s.flattenMarked c' o nested key = s.flattenMarked c o nested key := by
  obtain ⟨modifiers, name, markers, layout, members⟩ := s
  rw [StructDecl.flattenMarked, StructDecl.flattenMarked, hflatten,
    members_flattenMarked_eq hflatten key members]

theorem members_flattenMarked_eq (hflatten : Bench.flatten c' o = Bench.flatten c o)
    (key : QualName) (ms : List Member) :
    Member.flattenMarkedAll c' o nested key ms = Member.flattenMarkedAll c o nested key ms := by
  cases ms with
  | nil => rfl
  | cons m ms =>
    rw [Member.flattenMarkedAll, Member.flattenMarkedAll, member_flattenMarked_eq hflatten key m,
      members_flattenMarked_eq hflatten key ms]

end

theorem flattenNested_eq (hflatten : Bench.flatten c' o = Bench.flatten c o) (fuel : Nat) :
    flattenNested c' o fuel = flattenNested c o fuel := by
  induction fuel with
  | zero => rfl
  | succ n ih =>
    funext key ms
    rw [flattenNested, flattenNested, ih, members_flattenMarked_eq hflatten]

end

include hagree hlength

theorem items_flattenMarked_eq (space : Option String) (is : List Item) :
    Item.flattenMarkedAll c' o space is = Item.flattenMarkedAll c o space is := by
  have hflatten := Bench.flatten_eq (o := o) hagree hlength
  induction is with
  | nil => rfl
  | cons i is ih =>
    have hfirst : i.flattenMarked c' o space = i.flattenMarked c o space := by
      cases i with
      | struct s =>
        rw [Item.flattenMarked, Item.flattenMarked, hlength, flattenNested_eq hflatten,
          struct_flattenMarked_eq hflatten]
      | classDecl d => rfl
      | enum e => rfl
      | verbatim text => rfl
    rw [Item.flattenMarkedAll, Item.flattenMarkedAll, hfirst, ih]

/-- **Flattening a unit** does the same in two catalogs that agree on every struct. -/
theorem flattenMarked_eq (u : SourceUnit) : u.flattenMarked c' o = u.flattenMarked c o := by
  rw [SourceUnit.flattenMarked, SourceUnit.flattenMarked, items_flattenMarked_eq hagree hlength]

end

/-! ### Projects -/

namespace Project

variable {p : Project}

/-- What is answered, apart from what is reported. -/
theorem run_fst (p : Project) :
    p.run.1 = match ((p.primary.select p.defines).flattenMarked p.catalog p.options).run.run
        ⟨.empty, []⟩ with
      | (.error e, _) => .error e
      | (.ok unit, draft) => .ok ⟨unit, draft.bench.memo.entries, draft.replaced⟩ := by
  rw [run]
  rcases ((p.primary.select p.defines).flattenMarked p.catalog p.options).run.run ⟨.empty, []⟩
    with ⟨r, draft⟩
  cases r <;> rfl

/-- The declarations of all units, in the order in which they are entered. -/
def declarations (p : Project) : List Declaration := p.selectedUnits.flatMap (·.declarations)

/-- The project with its auxiliary units in another order. -/
def withAuxiliary (p : Project) (us : List SourceUnit) : Project := { p with auxiliary := us }

variable {us : List SourceUnit}

theorem selectedUnits_perm (hperm : p.auxiliary.Perm us) :
    p.selectedUnits.Perm (p.withAuxiliary us).selectedUnits :=
  (hperm.cons p.primary).map _

/-- **The catalogs of two orders agree**, if no name is declared twice, and each type name of a
field in one namespace at most. -/
theorem agreesAt_of_perm (hperm : p.auxiliary.Perm us)
    (hdistinct : (p.declarations.map Declaration.key).Nodup)
    (hnames : ∀ d g, p.catalog.HasField d g → p.catalog.Unambiguous g.type.name) (d : QualName) :
    p.catalog.AgreesAt (p.withAuxiliary us).catalog d := by
  have hunits := selectedUnits_perm hperm
  have hsame := Catalog.declared?_ofUnits_perm (hunits.flatMap_right _) hdistinct
  have hnamespaces : ∀ ns, ns ∈ (p.withAuxiliary us).catalog.namespaces ↔
      ns ∈ p.catalog.namespaces := by
    intro ns
    simp only [catalog, Catalog.ofUnits, Catalog.mem_namespaces_foldl_addUnit, hunits.mem_iff]
  refine ⟨(hsame d).1, fun g hg => ?_⟩
  exact Catalog.bind_eq_of_unambiguous (fun k => (hsame k).2) hnamespaces (hnames d g hg) d

end Project

/-- **The order of the auxiliary units does not matter.** Take a project in which no struct,
enumeration or class is declared twice, once conditional blocks are gone, and in which the type name
of a field is never declared in two namespaces. With its auxiliary units in any other order, the
project is flattened to the same: the same unit, the same layouts in the same order, the same
structs replaced, or the same error. -/
theorem run_perm {p : Project} {us : List SourceUnit} (hperm : p.auxiliary.Perm us)
    (hdistinct : (p.declarations.map Declaration.key).Nodup)
    (hnames : ∀ d g, p.catalog.HasField d g → p.catalog.Unambiguous g.type.name) :
    (p.withAuxiliary us).run.1 = p.run.1 := by
  have hagree := Project.agreesAt_of_perm hperm hdistinct hnames
  have hlength : (p.withAuxiliary us).catalog.structs.length = p.catalog.structs.length :=
    Catalog.length_structs_ofUnits_perm
      ((Project.selectedUnits_perm hperm).flatMap_right _) hdistinct
  have hflat : (p.primary.select p.defines).flattenMarked (p.withAuxiliary us).catalog p.options =
      (p.primary.select p.defines).flattenMarked p.catalog p.options :=
    flattenMarked_eq hagree hlength _
  rw [Project.run_fst p, Project.run_fst (p.withAuxiliary us), ← hflat]
  rfl

/-- A struct that is made of structs and an enumeration from three units, two of which have a
namespace. -/
def scatteredProject : Project :=
  let field (type name : String) : Member := .field (.ofNames (.named type) [name])
  let struct (name : String) (markers : Markers) (members : List Member) : StructDecl :=
    ⟨["public"], name, markers, none, members⟩
  { options := .ofPointerWidth 8
    defines := []
    primary := ⟨"a.cs", none, ["C"], [
      .struct (struct "Flat" (Markers.none.insert .flatten) [
        field "Kind" "kind", field "Cell" "cell", field "Pair" "pair"])]⟩
    auxiliary := [
      ⟨"b.cs", some "B", [], [.struct (struct "Pair" .none [field "short" "x", field "int" "y"])]⟩,
      ⟨"c.cs", some "C", ["B"], [.struct (struct "Cell" .none [field "Pair" "pair"])]⟩,
      ⟨"d.cs", none, [], [.enum ⟨["public"], "Kind", some (.named "byte"), []⟩]⟩] }

/-- Here the theorem says that with its auxiliary units the other way round, the project is
flattened to the same. -/
theorem run_perm_scattered :
    ∃ out, (scatteredProject.withAuxiliary scatteredProject.auxiliary.reverse).run.1 = .ok out ∧
      out.layouts.map (·.key.text) = ["B.Pair", "C.Cell", "Flat"] ∧
      out.replaced.map (·.footprint) = [⟨20, 4⟩] := by
  have hrun : ∃ out, scatteredProject.run.1 = .ok out ∧
      out.layouts.map (·.key.text) = ["B.Pair", "C.Cell", "Flat"] ∧
      out.replaced.map (·.footprint) = [⟨20, 4⟩] := by decide +kernel
  have hnames : scatteredProject.catalog.unambiguousFields = true := by decide +kernel
  obtain ⟨out, hrun, hlayouts, hreplaced⟩ := hrun
  have hsame := run_perm (List.reverse_perm scatteredProject.auxiliary).symm (by decide +kernel)
    fun d g => Catalog.of_unambiguousFields hnames
  exact ⟨out, hsame.trans hrun, hlayouts, hreplaced⟩

end FlatLayout
