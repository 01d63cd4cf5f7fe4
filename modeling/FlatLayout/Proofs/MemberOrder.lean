import FlatLayout.Proofs.Exchange
import FlatLayout.Proofs.FieldOrder
import FlatLayout.Proofs.UnitOrder

/-!
# The order in which members are declared

A struct whose fields may share bytes is flattened to the same members in whatever order they are
declared. Here this is said of the units that declare it. The struct may stand at the top of its
unit or inside of other structs, at any depth, and among its members there may be declarations of
other structs and of enumerations.

Two things have to be seen to besides the fields. Declarations that change places inside of the
struct are entered in another order, which does not matter if no two of them have the same name. And
the structs around it are declared with another text, but they have the same fields; so they are laid
out as before, if the struct is not one of these fields.

## Main definitions

* `StructDecl.Replaced`, `ReplacedIn` — one struct in a declaration, or in some units, is replaced
* `DeclaredAlike` — lists of declarations in which every name is found alike

## Main results

* `declaredAlike_of_replaced` — a struct with other declarations inside
* `reorderedAt_of_replacedIn` — the catalogs of two projects that differ in the order of members
* `flatten_reordered` — the order of the members does not matter
-/

namespace FlatLayout

/-! ### One struct in another place -/

/-- The struct `s'` is the struct `s`, which is declared under a name, with `r'` in the place of
`r`. This is the struct itself or one that is declared inside of it, under the name `key`. -/
inductive StructDecl.Replaced (key : QualName) (r r' : StructDecl) :
    QualName → StructDecl → StructDecl → Prop
  | here : Replaced key r r' key r r'
  | inside {k : QualName} {modifiers : List String} {name : String} {markers : Markers}
      {layout : Option LayoutAttr} {before after : List Member} {t t' : StructDecl}
      (inner : Replaced key r r' (k.child t.name) t t') :
      Replaced key r r' k ⟨modifiers, name, markers, layout, before ++ .struct t :: after⟩
        ⟨modifiers, name, markers, layout, before ++ .struct t' :: after⟩

/-- One struct in some units is replaced by another one. -/
inductive ReplacedIn (key : QualName) (r r' : StructDecl) :
    List SourceUnit → List SourceUnit → Prop
  | mk {before after : List SourceUnit} {name : String} {space : Option String}
      {imports : List String} {front back : List Item} {s s' : StructDecl}
      (replaced : StructDecl.Replaced key r r' (.root space s.name) s s') :
      ReplacedIn key r r' (before ++ ⟨name, space, imports, front ++ .struct s :: back⟩ :: after)
        (before ++ ⟨name, space, imports, front ++ .struct s' :: back⟩ :: after)

theorem StructDecl.Replaced.name_eq {key k : QualName} {r r' s s' : StructDecl}
    (h : Replaced key r r' k s s') (hname : r'.name = r.name) : s'.name = s.name := by
  cases h with
  | here => exact hname
  | inside => rfl

/-- What is declared among the members of a struct adds nothing to its fields. -/
theorem slots_of_replaced {modifiers : List String} {name : String} {markers : Markers}
    {layout : Option LayoutAttr} (before after : List Member) (t t' : StructDecl) :
    StructDecl.slots ⟨modifiers, name, markers, layout, before ++ .struct t' :: after⟩ =
      StructDecl.slots ⟨modifiers, name, markers, layout, before ++ .struct t :: after⟩ := by
  simp only [StructDecl.slots, List.zipIdx_append, List.zipIdx_cons, List.flatMap_append,
    List.flatMap_cons]
  rfl

/-! ### Lists of declarations -/

/-- In both lists every name is found alike. The structs have the same fields, or the one with the
name `key` has its members in another order; everything else is the same. -/
structure DeclaredAlike (key : QualName) (es es' : List Declaration) : Prop where
  structs : ∀ d, Option.Rel (fun s s' => s.SameFields s' ∨ d = key ∧ s.Reordered s')
    (es.findSome? (Declaration.struct? d)) (es'.findSome? (Declaration.struct? d))
  enums : ∀ d, es'.reverse.findSome? (Declaration.enum? d) =
    es.reverse.findSome? (Declaration.enum? d)
  managed : ∀ d, es'.reverse.findSome? (Declaration.managed? d) =
    es.reverse.findSome? (Declaration.managed? d)

theorem rel_or {α : Type} {R : α → α → Prop} {a a' b b' : Option α} (ha : Option.Rel R a a')
    (hb : Option.Rel R b b') : Option.Rel R (a.or b) (a'.or b') := by
  cases ha with
  | none => exact hb
  | some h => exact .some h

theorem rel_self {α : Type} {R : α → α → Prop} (hR : ∀ a, R a a) (a : Option α) :
    Option.Rel R a a := by
  cases a with
  | none => exact .none
  | some a => exact .some (hR a)

namespace DeclaredAlike

variable {key : QualName} {es es' fs fs' : List Declaration}

theorem of_searches (h : ∀ d, es'.findSome? (Declaration.struct? d) =
      es.findSome? (Declaration.struct? d))
    (henums : ∀ d, es'.reverse.findSome? (Declaration.enum? d) =
      es.reverse.findSome? (Declaration.enum? d))
    (hmanaged : ∀ d, es'.reverse.findSome? (Declaration.managed? d) =
      es.reverse.findSome? (Declaration.managed? d)) : DeclaredAlike key es es' where
  structs := fun d => by
    rw [h d]
    exact rel_self (fun s => .inl (.refl s)) _
  enums := henums
  managed := hmanaged

theorem refl (key : QualName) (es : List Declaration) : DeclaredAlike key es es :=
  of_searches (fun _ => rfl) (fun _ => rfl) fun _ => rfl

theorem append (h : DeclaredAlike key es es') (hf : DeclaredAlike key fs fs') :
    DeclaredAlike key (es ++ fs) (es' ++ fs') where
  structs := fun d => by
    rw [List.findSome?_append, List.findSome?_append]
    exact rel_or (h.structs d) (hf.structs d)
  enums := fun d => by
    simp only [List.reverse_append, List.findSome?_append, h.enums, hf.enums]
  managed := fun d => by
    simp only [List.reverse_append, List.findSome?_append, h.managed, hf.managed]

/-- Declarations with different names may be listed in any order. -/
theorem of_perm (h : es'.Perm es) (hdistinct : (es.map Declaration.key).Nodup) :
    DeclaredAlike key es es' := by
  have hdistinct' := (h.map Declaration.key).nodup_iff.2 hdistinct
  have hreverse := (List.reverse_perm es').trans (h.trans (List.reverse_perm es).symm)
  have hdistinct'' := ((List.reverse_perm es').map Declaration.key).nodup_iff.2 hdistinct'
  exact of_searches (fun d => findSome?_perm h hdistinct' fun _ => Declaration.key_of_struct?)
    (fun d => findSome?_perm hreverse hdistinct'' fun _ => Declaration.key_of_enum?)
    fun d => findSome?_perm hreverse hdistinct'' fun _ => Declaration.key_of_managed?

/-- One struct. -/
theorem single {k : QualName} {s s' : StructDecl}
    (h : s.SameFields s' ∨ k = key ∧ s.Reordered s') :
    DeclaredAlike key [.struct k s] [.struct k s'] where
  structs := fun d => by
    simp only [List.findSome?_cons, Declaration.struct?, List.findSome?_nil]
    by_cases hd : k = d
    · rw [if_pos hd, if_pos hd]
      exact .some (hd ▸ h)
    · rw [if_neg hd, if_neg hd]
      exact .none
  enums := fun _ => rfl
  managed := fun _ => rfl

end DeclaredAlike

theorem Member.declarationsAll_eq_flatMap (k : QualName) (ms : List Member) :
    declarationsAll k ms = ms.flatMap (declarations k) := by
  induction ms with
  | nil => rw [declarationsAll]; rfl
  | cons m ms ih => rw [declarationsAll, ih, List.flatMap_cons]

section

variable {key k : QualName} {r r' s s' : StructDecl}

/-- **A struct in which one has its members in another order** declares everything alike, by
induction on how deep that one is declared. -/
theorem declaredAlike_of_replaced (h : StructDecl.Replaced key r r' k s s')
    (hreordered : r.Reordered r')
    (hdistinct : ((Member.declarationsAll key r.members).map Declaration.key).Nodup) :
    DeclaredAlike key (s.declarations k) (s'.declarations k) := by
  induction h with
  | here =>
    rw [StructDecl.declarations_eq, StructDecl.declarations_eq]
    refine .append (.of_perm ?_ hdistinct) (.single (.inr ⟨rfl, hreordered⟩))
    rw [Member.declarationsAll_eq_flatMap, Member.declarationsAll_eq_flatMap]
    exact hreordered.members.flatMap_right _
  | @inside k _ _ _ _ before after t t' inner ih =>
    have hname := inner.name_eq hreordered.name
    rw [StructDecl.declarations_eq, StructDecl.declarations_eq]
    refine .append ?_ (.single (.inl ⟨rfl, rfl, rfl, slots_of_replaced before after t t'⟩))
    simp only [Member.declarationsAll_eq_flatMap, List.flatMap_append, List.flatMap_cons]
    refine .append (.refl key _) (.append ?_ (.refl key _))
    rw [Member.declarations, Member.declarations, hname]
    exact ih

variable {us us' : List SourceUnit}

/-- The same for what some units declare. -/
theorem declaredAlike_of_replacedIn (h : ReplacedIn key r r' us us')
    (hreordered : r.Reordered r')
    (hdistinct : ((Member.declarationsAll key r.members).map Declaration.key).Nodup) :
    DeclaredAlike key (us.flatMap (·.declarations)) (us'.flatMap (·.declarations)) := by
  cases h with
  | @mk before after name space imports front back s s' replaced =>
    have hname := replaced.name_eq hreordered.name
    have halike := declaredAlike_of_replaced replaced hreordered hdistinct
    simp only [List.flatMap_append, List.flatMap_cons, SourceUnit.declarations]
    refine .append (.refl key _) (.append (.append (.refl key _) (.append ?_ (.refl key _)))
      (.refl key _))
    rw [Item.declarations, Item.declarations, hname]
    exact halike

theorem namespaces_of_replacedIn (h : ReplacedIn key r r' us us') :
    (Catalog.ofUnits us').namespaces = (Catalog.ofUnits us).namespaces := by
  cases h with
  | @mk before after name space imports front back s s' =>
    have hunit : ∀ c : Catalog,
        (c.addUnit ⟨name, space, imports, front ++ .struct s' :: back⟩).namespaces =
          (c.addUnit ⟨name, space, imports, front ++ .struct s :: back⟩).namespaces :=
      fun c => Catalog.namespaces_addUnit rfl rfl rfl
    rw [Catalog.ofUnits, Catalog.ofUnits, List.foldl_append, List.foldl_append, List.foldl_cons,
      List.foldl_cons]
    exact Catalog.namespaces_foldl_addUnit (hunit _) after

/-- Types are bound alike in two projects with the same namespaces and the same enumerations and
classes, if the same names are those of structs. -/
theorem bind_ofUnits_congr
    (hnamespaces : (Catalog.ofUnits us').namespaces = (Catalog.ofUnits us).namespaces)
    (hstructs : ∀ q, ((Catalog.ofUnits us').struct? q).isSome =
      ((Catalog.ofUnits us).struct? q).isSome)
    (henums : ∀ q, (us'.flatMap (·.declarations)).reverse.findSome? (Declaration.enum? q) =
      (us.flatMap (·.declarations)).reverse.findSome? (Declaration.enum? q))
    (hmanaged : ∀ q, (us'.flatMap (·.declarations)).reverse.findSome? (Declaration.managed? q) =
      (us.flatMap (·.declarations)).reverse.findSome? (Declaration.managed? q))
    (t : TypeRef) (scope : QualName) :
    (Catalog.ofUnits us').bind t scope = (Catalog.ofUnits us).bind t scope := by
  refine Catalog.bind_congr hnamespaces (fun q => ?_) t scope
  have henum : (Catalog.ofUnits us').enums.lookup q = (Catalog.ofUnits us).enums.lookup q := by
    rw [Catalog.ofUnits, Catalog.ofUnits, Catalog.lookup_enums_foldl_addUnit,
      Catalog.lookup_enums_foldl_addUnit, henums]
  have hclass : (Catalog.ofUnits us').classes.lookup q =
      (Catalog.ofUnits us).classes.lookup q := by
    rw [Catalog.ofUnits, Catalog.ofUnits, Catalog.lookup_classes_foldl_addUnit,
      Catalog.lookup_classes_foldl_addUnit, hmanaged]
  simp only [Catalog.declared?, hstructs, henum, hclass]

/-- **Two projects that differ in the order of members** have catalogs that differ in the struct
with these members. -/
theorem reorderedAt_of_replacedIn (h : ReplacedIn key r r' us us') (hreordered : r.Reordered r')
    (hdistinct : ((Member.declarationsAll key r.members).map Declaration.key).Nodup) :
    (Catalog.ofUnits us).ReorderedAt (.ofUnits us') key := by
  have halike := declaredAlike_of_replacedIn h hreordered hdistinct
  have hstructs : ∀ d, Option.Rel (fun s s' => s.SameFields s' ∨ d = key ∧ s.Reordered s')
      ((Catalog.ofUnits us).struct? d) ((Catalog.ofUnits us').struct? d) := by
    intro d
    rw [Catalog.ofUnits, Catalog.ofUnits, Catalog.struct?_foldl_addUnit_eq,
      Catalog.struct?_foldl_addUnit_eq]
    exact rel_or .none (halike.structs d)
  exact ⟨hstructs, bind_ofUnits_congr (namespaces_of_replacedIn h)
    (fun q => isSome_of_rel (hstructs q)) halike.enums halike.managed⟩

/-- **The order of members does not matter where fields may share bytes.** Take a union or an
explicit struct, anywhere in some units, in which no two declarations have the same name, and list
its members in another order. Then it can be flattened if and only if it could be before. If so, it
has the same size and the same alignment, and the same members up to their order and the numbers of
the declarations that they were made from. -/
theorem flatten_reordered {ms : List Member} (hover : r.Overlapping) (hperm : ms.Perm r.members)
    (hdistinct : ((Member.declarationsAll key r.members).map Declaration.key).Nodup)
    (h : ReplacedIn key r { r with members := ms } us us') (o : Options)
    (calls calls' : List Call) :
    let before := outcome (Bench.flatten (.ofUnits us) o key)
      (Workbench.afterCalls (.ofUnits us) o calls)
    let after := outcome (Bench.flatten (.ofUnits us') o key)
      (Workbench.afterCalls (.ofUnits us') o calls')
    ((∃ f', after = .ok f') ↔ ∃ f, before = .ok f) ∧
    ∀ f f', before = .ok f → after = .ok f' → f'.footprint = f.footprint ∧
      (f'.members.map fun m => { m with source := 0 }).Perm
        (f.members.map fun m => { m with source := 0 }) := by
  intro before after
  have hreordered : r.Reordered { r with members := ms } := ⟨rfl, rfl, rfl, hperm, hover⟩
  have hcatalogs := reorderedAt_of_replacedIn h hreordered hdistinct
  have hbefore : before = (Catalog.ofUnits us).answer o key := outcome_flatten_eq_answer ..
  have hafter : after = (Catalog.ofUnits us').answer o key := outcome_flatten_eq_answer ..
  rw [hbefore, hafter]
  refine ⟨⟨fun ⟨f', hf'⟩ => ?_, fun ⟨f, hf⟩ => ?_⟩, fun f f' hf hf' => ?_⟩
  · obtain ⟨f, hf, -⟩ := hcatalogs.symm.exists_answer hf'
    exact ⟨f, hf⟩
  · obtain ⟨f', hf', -⟩ := hcatalogs.exists_answer hf
    exact ⟨f', hf'⟩
  · obtain ⟨f'', hf'', hfootprint, hmembers⟩ := hcatalogs.exists_answer hf
    obtain rfl := Except.ok.inj (hf'.symm.trans hf'')
    exact ⟨hfootprint, hmembers⟩

end

/-! ### A union inside of a struct -/

/-- An enumeration and a struct that are declared inside of a union, and its fields. -/
def valueMembers : List Member := [
  .field (.ofNames (.named "Kind") ["kind"]),
  .struct ⟨["public"], "Pair", .none, none,
    [.field (.ofNames (.named "short") ["x"]), .field (.ofNames (.named "int") ["y"])]⟩,
  .field (.ofNames (.named "Pair") ["pair"]),
  .enum ⟨["public"], "Kind", some (.named "byte"), []⟩,
  .field ((FieldDecl.ofNames (.named "IntPtr") ["slots"]).withFixedCount 2)]

/-- The union, and the unit that declares it inside of a struct. -/
def valueUnion (ms : List Member) : StructDecl :=
  ⟨["public"], "Value", Markers.none.insert .union, none, ms⟩

def valueUnit (ms : List Member) : SourceUnit :=
  ⟨"a.cs", some "Data", [], [.struct ⟨["public"], "Holder", .none, none,
    [.field (.ofNames (.named "int") ["tag"]), .struct (valueUnion ms)]⟩]⟩

/-- Here the members of the union are listed from the last one to the first. It takes 16 bytes as
before, and has the same six members in another order. -/
theorem flatten_reordered_value :
    let o := Options.ofPointerWidth 8
    let key : QualName := ⟨"Data.Holder.Value"⟩
    let before := Catalog.ofUnits [valueUnit valueMembers]
    let after := Catalog.ofUnits [valueUnit valueMembers.reverse]
    ∃ f f', outcome (Bench.flatten before o key) (Workbench.afterCalls before o []) = .ok f ∧
      outcome (Bench.flatten after o key) (Workbench.afterCalls after o []) = .ok f' ∧
      f.members.map (·.name) = ["kind", "pair_x", "pair_Ref", "pair_y", "slots_Start", "slots"] ∧
      f'.footprint = ⟨16, 8⟩ ∧
      (f'.members.map fun m => { m with source := 0 }).Perm
        (f.members.map fun m => { m with source := 0 }) := by
  intro o key before after
  have hflat : ∃ f, outcome (Bench.flatten before o key) (Workbench.afterCalls before o []) =
        .ok f ∧ f.footprint = ⟨16, 8⟩ ∧
      f.members.map (·.name) = ["kind", "pair_x", "pair_Ref", "pair_y", "slots_Start", "slots"] := by
    decide +kernel
  obtain ⟨f, hf, hfootprint, hnames⟩ := hflat
  have hreplaced : ReplacedIn key (valueUnion valueMembers) (valueUnion valueMembers.reverse)
      [valueUnit valueMembers] [valueUnit valueMembers.reverse] := by
    have hholder := @StructDecl.Replaced.inside key _ _ ⟨"Data.Holder"⟩ ["public"] "Holder" .none
      none [.field (.ofNames (.named "int") ["tag"])] [] (valueUnion valueMembers)
      (valueUnion valueMembers.reverse) .here
    exact @ReplacedIn.mk key _ _ [] [] "a.cs" (some "Data") [] [] [] _ _ hholder
  obtain ⟨hiff, hsame⟩ := flatten_reordered (.inl rfl) (List.reverse_perm _) (by decide +kernel)
    hreplaced o [] []
  obtain ⟨f', hf'⟩ := hiff.2 ⟨f, hf⟩
  obtain ⟨hfootprint', hmembers⟩ := hsame f f' hf hf'
  exact ⟨f, f', hf, hf', hnames, hfootprint'.trans hfootprint, hmembers⟩

end FlatLayout
