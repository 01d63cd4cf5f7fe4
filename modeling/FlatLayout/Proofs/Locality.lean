import FlatLayout.Proofs.Origins

/-!
# What a layout depends on

A catalog holds the declarations of a whole project, and names are looked up in all of it. Yet the
layout of a struct is decided by the structs that it contains, at any depth, and by what the types
of their fields are bound to in there. Where two catalogs agree on these, they give the same flat
struct or the same error. In particular no look is taken at what a pointer points at.

There are two places where a catalog as a whole could show. One is the fuel, which is counted by all
structs of the catalog. It is never spent, so it may be counted by either of the two. The other is
the list of structs under way. As they all contain the struct at hand, the catalogs agree on them.

## Main definitions

* `Catalog.AgreesAt` — two catalogs declare a struct in the same way, with fields of the same types

## Main results

* `layoutFrom_congr` — one struct
* `flattenUnder_view` — flattening in two catalogs, each with its own fuel
* `flattenUnder_congr` — the same where they agree on all that is contained
* `flatten_congr` — flattening asks for nothing but the structs that are contained
-/

namespace FlatLayout

open Relation

/-- The struct `d` is declared in `c'` as it is in `c`, and the types of its fields are bound to the
same there. -/
structure Catalog.AgreesAt (c c' : Catalog) (d : QualName) : Prop where
  struct : c'.struct? d = c.struct? d
  bind : ∀ g, c.HasField d g → c'.bind g.type d = c.bind g.type d

section

variable {c c' : Catalog} {o : Options} {child child' : QualName → Except LayoutError FlatStruct}
  {key : QualName}

/-! ### One struct -/

theorem elementFrom_congr {type : Binding}
    (hchild : ∀ d, type = .struct d → child' d = child d) :
    elementFrom o child' type = elementFrom o child type := by
  cases type with
  | struct d => rw [elementFrom, elementFrom, hchild d rfl]
  | primitive p => rfl
  | pointer t => rfl
  | enum k p => rfl
  | managed name => rfl

theorem spotFor_congr {f : FieldDecl} (hbind : c'.bind f.type key = c.bind f.type key)
    (hchild : ∀ d, c.bind f.type key = .ok (.struct d) → child' d = child d) (p : Placement)
    (source : Nat) : spotFor c' o child' key p f source = spotFor c o child key p f source := by
  unfold spotFor
  rw [hbind]
  cases htype : c.bind f.type key with
  | error e => rfl
  | ok type =>
    have helement : elementFrom o child' type = elementFrom o child type :=
      elementFrom_congr fun d hd => hchild d (hd ▸ htype)
    simp only [bind, Except.bind, helement]

theorem spotsFor_congr {slots : List Slot}
    (hbind : ∀ f source, Slot.field f source ∈ slots → c'.bind f.type key = c.bind f.type key)
    (hchild : ∀ f source d, Slot.field f source ∈ slots → c.bind f.type key = .ok (.struct d) →
      child' d = child d) (p : Placement) :
    spotsFor c' o child' key p slots = spotsFor c o child key p slots := by
  induction slots generalizing p with
  | nil => rfl
  | cons slot slots ih =>
    have hrest := ih (fun f source hf => hbind f source (List.mem_cons_of_mem _ hf))
      fun f source d hf => hchild f source d (List.mem_cons_of_mem _ hf)
    cases slot with
    | groupedBuffer f => rfl
    | conditional symbol => rfl
    | field f source =>
      have hfirst := spotFor_congr (o := o) (hbind f source List.mem_cons_self)
        (fun d => hchild f source d List.mem_cons_self) p source
      simp only [spotsFor, hfirst, hrest]

/-- **One struct** is laid out in the same way if its fields are bound to the same, and the structs
among them are answered for in the same way. -/
theorem layoutFrom_congr {s : StructDecl}
    (hbind : ∀ f source, Slot.field f source ∈ s.slots → c'.bind f.type key = c.bind f.type key)
    (hchild : ∀ f source d, Slot.field f source ∈ s.slots → c.bind f.type key = .ok (.struct d) →
      child' d = child d) : layoutFrom c' o child' key s = layoutFrom c o child key s := by
  simp only [layoutFrom, spotsFor_congr hbind hchild]

end

/-! ### All structs -/

namespace Catalog

variable {c c' : Catalog} {o : Options} {key : QualName}

theorem AgreesAt.declaration (h : c.AgreesAt c' key) :
    c'.declaration key = c.declaration key := by
  rw [Catalog.declaration, Catalog.declaration, h.struct]

/-- A struct is declared in both catalogs, or the same error is answered for it. -/
theorem declaration_eq_or (h : (c'.struct? key).isSome = (c.struct? key).isSome) :
    (∃ e, c.declaration key = .error e ∧ c'.declaration key = .error e) ∨
      ∃ s s', c.struct? key = some s ∧ c'.struct? key = some s' := by
  unfold declaration
  cases hs : c.struct? key with
  | none =>
    rw [hs, Option.isSome_none, Option.isSome_eq_false_iff, Option.isNone_iff_eq_none] at h
    rw [h]
    exact .inl ⟨_, rfl, rfl⟩
  | some s =>
    obtain ⟨s', hs'⟩ := Option.isSome_iff_exists.1 (h.trans (by rw [hs]; rfl))
    exact .inr ⟨s, s', rfl, hs'⟩

/-- **Flattening in two catalogs, as far as it is looked at.** Where the structs at hand are
declared in both catalogs or in neither, and one of them looks the same in both as soon as the
structs that it contains do, flattening looks the same in both. Each catalog has fuel for its own
structs, and the structs under way are structs of both. -/
theorem flattenUnder_view {β : Type} {view : FlatStruct → β} {P : QualName → Prop}
    (hdeclared : ∀ d, P d → (c'.struct? d).isSome = (c.struct? d).isSome)
    (hlayout : ∀ d s s' (child child' : QualName → Except LayoutError FlatStruct), P d →
      c.struct? d = some s → c'.struct? d = some s' →
      (∀ e, P e → (child' e).map view = (child e).map view) →
      ((layoutFrom c' o child' d s').map Prod.snd).map view =
        ((layoutFrom c o child d s).map Prod.snd).map view)
    {m n : Nat} {pending : List QualName} (hkey : P key)
    (hstack : c.Stack pending) (hm : c.structs.length < m + pending.length)
    (hstack' : c'.Stack pending) (hn : c'.structs.length < n + pending.length) :
    (c'.flattenUnder o n pending key).map view = (c.flattenUnder o m pending key).map view := by
  induction m generalizing n pending key with
  | zero =>
    have := hstack.length_le
    omega
  | succ m ih =>
    obtain ⟨n, rfl⟩ : ∃ k, n = k + 1 := by
      have := hstack'.length_le
      exact ⟨n - 1, by omega⟩
    rw [flattenUnder, flattenUnder]
    by_cases hpending : pending.contains key = true
    · rw [if_pos hpending, if_pos hpending]
    rw [if_neg hpending, if_neg hpending]
    rcases declaration_eq_or (hdeclared key hkey) with ⟨e, he, he'⟩ | ⟨s, s', hs, hs'⟩
    · simp only [he, he', Bind.bind, Except.bind]
    have hnew : key ∉ pending := by simpa using hpending
    simp only [declaration_of_struct? hs, declaration_of_struct? hs', Bind.bind, Except.bind]
    refine hlayout key s s' _ _ hkey hs hs' fun e he => ?_
    refine ih he (hstack.cons hnew hs) ?_ (hstack'.cons hnew hs') ?_
    · rw [List.length_cons]; omega
    · rw [List.length_cons]; omega

/-- **Flattening in two catalogs** that agree on all that the struct contains. -/
theorem flattenUnder_congr {m n : Nat} {pending : List QualName}
    (hagree : ∀ d, ReflTransGen c.Contains key d → c.AgreesAt c' d)
    (hstack : c.Stack pending) (hm : c.structs.length < m + pending.length)
    (hstack' : c'.Stack pending) (hn : c'.structs.length < n + pending.length) :
    c'.flattenUnder o n pending key = c.flattenUnder o m pending key := by
  have hview : (c'.flattenUnder o n pending key).map id =
      (c.flattenUnder o m pending key).map id := by
    refine flattenUnder_view (P := ReflTransGen c.Contains key) (fun d hd => ?_) ?_ .refl hstack hm
      hstack' hn
    · rw [(hagree d hd).struct]
    intro d s s' child child' hd hs hs' hchild
    rw [(hagree d hd).struct, hs] at hs'
    obtain rfl := Option.some.inj hs'
    have hlayout : layoutFrom c' o child' d s = layoutFrom c o child d s := by
      refine layoutFrom_congr (fun f source hslot => ?_) fun f source e hslot hbind => ?_
      · exact (hagree d hd).bind f ⟨s, source, hs, hslot⟩
      · simpa only [Except.map_id, id] using hchild e (hd.tail ⟨s, hs, f, source, hslot, hbind⟩)
    rw [hlayout]
  simpa only [Except.map_id, id] using hview

end Catalog

/-- **A layout depends on nothing but what the struct contains.** Take two catalogs and a struct. If
every struct that can be reached from it by value in the first catalog is declared in the second one
as well, with the same declaration, or in neither, and if its fields have types that are bound to
the same there, be it a type or an error, then both catalogs answer with the same flat struct or
with the same error, whatever was flattened in them before. -/
theorem flatten_congr {c c' : Catalog} {key : QualName}
    (hagree : ∀ d, ReflTransGen c.Contains key d → c.AgreesAt c' d) (o : Options)
    (calls calls' : List Call) :
    outcome (Bench.flatten c' o key) (Workbench.afterCalls c' o calls') =
      outcome (Bench.flatten c o key) (Workbench.afterCalls c o calls) := by
  rw [outcome_flatten_eq_answer, outcome_flatten_eq_answer]
  exact Catalog.flattenUnder_congr hagree (.nil c) (by simp) (.nil c') (by simp)

/-! ### A crowded catalog -/

/-- A struct with a pointer to something that is not declared, and a struct inside. -/
def sparseCatalog : Catalog := .ofUnits [
  ⟨"a.cs", none, [], [
    .struct ⟨["public"], "Node", .none, none,
      [.field (.ofNames ⟨"Owner", 1⟩ ["owner"]), .field (.ofNames (.named "Pair") ["pair"])]⟩,
    .struct ⟨["public"], "Pair", .none, none,
      [.field (.ofNames (.named "short") ["x"]), .field (.ofNames (.named "int") ["y"])]⟩]⟩]

/-- The same among other declarations: what is pointed at is declared and contains the struct that
points at it, and itself; a class and an enumeration have names that are used elsewhere. -/
def crowdedCatalog : Catalog := .ofUnits [
  ⟨"b.cs", some "Other", ["Node"], [
    .enum ⟨["public"], "Pair", some (.named "byte"), []⟩,
    .struct ⟨["public"], "Cell", .none, none, [.field (.ofNames (.named "Missing") ["m"])]⟩]⟩,
  ⟨"a.cs", none, [], [
    .struct ⟨["public"], "Owner", .none, none,
      [.field (.ofNames (.named "Node") ["node"]), .field (.ofNames (.named "Owner") ["self"])]⟩,
    .classDecl ⟨["public"], "Pair", none, []⟩,
    .struct ⟨["public"], "Pair", .none, none,
      [.field (.ofNames (.named "short") ["x"]), .field (.ofNames (.named "int") ["y"])]⟩,
    .struct ⟨["public"], "Node", .none, none,
      [.field (.ofNames ⟨"Owner", 1⟩ ["owner"]), .field (.ofNames (.named "Pair") ["pair"])]⟩]⟩]

theorem reached_sparse {d : QualName} (h : ReflTransGen sparseCatalog.Contains ⟨"Node"⟩ d) :
    d = ⟨"Node"⟩ ∨ d = ⟨"Pair"⟩ := by
  have hfields : sparseCatalog.allFields (fun _ type =>
      type == .struct ⟨"Pair"⟩ || !type.isStruct) = true := by decide +kernel
  rcases h.cases_tail with rfl | ⟨outer, -, s, hs, g, source, hslot, hbind⟩
  · exact .inl rfl
  · have hsuits := Catalog.of_allFields hfields ⟨s, source, hs, hslot⟩ hbind
    exact .inr (by simpa [Binding.isStruct] using hsuits)

/-- Here the theorem says that the struct has the same flat form among the other declarations, some
of which have no layout at all. -/
theorem flatten_congr_crowded :
    (∀ d, ReflTransGen sparseCatalog.Contains ⟨"Node"⟩ d →
      sparseCatalog.AgreesAt crowdedCatalog d) ∧
    ∃ f, outcome (Bench.flatten crowdedCatalog (.ofPointerWidth 8) ⟨"Node"⟩)
        (Workbench.afterCalls crowdedCatalog (.ofPointerWidth 8)
          [.flatten ⟨"Owner"⟩, .flatten ⟨"Other.Cell"⟩]) = .ok f ∧
      f.footprint = ⟨16, 8⟩ := by
  have hagree : ∀ d, ReflTransGen sparseCatalog.Contains ⟨"Node"⟩ d →
      sparseCatalog.AgreesAt crowdedCatalog d := by
    intro d hd
    rcases reached_sparse hd with rfl | rfl
    all_goals
      refine ⟨rfl, fun g ⟨s, source, hs, hslot⟩ => ?_⟩
      obtain rfl := Option.some.inj hs
      rcases List.mem_pair.1 hslot with heq | heq <;> cases heq <;> rfl
  have hflat : ∃ f, outcome (Bench.flatten sparseCatalog (.ofPointerWidth 8) ⟨"Node"⟩)
        (Workbench.afterCalls sparseCatalog (.ofPointerWidth 8) []) = .ok f ∧
      f.footprint = ⟨16, 8⟩ := by decide +kernel
  obtain ⟨f, hf, hfootprint⟩ := hflat
  exact ⟨hagree, f, (flatten_congr hagree _ _ _).trans hf, hfootprint⟩

end FlatLayout
