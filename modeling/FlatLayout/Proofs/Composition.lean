import FlatLayout.Proofs.Memoisation
import FlatLayout.Proofs.TypeTree

/-!
# Flattening composes

A flat struct is put together from its fields, one contribution after the other. The contribution of
a nested struct is the flat form of that struct, moved to the offset of the field; it was computed
without any knowledge of the container. Therefore nothing is lost or moved twice at any depth: the
fields of a flat struct are the leaves of its type, in order, each at the sum of the offsets on the
way to it.

The last statement is proved for any function `place` that gives the fields of every contained
struct the offsets of their spots. Taken as those offsets themselves it is the composition theorem
below; where another rule is shown to give the same offsets, it carries over to that rule.

## Main definitions

* `Catalog.spots` — the fields of a struct with their places
* `Composed` — what a nested struct contributes when nested structs are spread
* `PlacedBy` — a function gives the fields of a struct their offsets

## Main results

* `describes_leaves_of_answer` — the fields of a flat struct are the leaves of its type
* `flatten_composes` — contributions of single fields, and leaves at any depth
-/

namespace FlatLayout

open Relation

/-- The spots of the fields of a struct. -/
def Catalog.spots (c : Catalog) (o : Options) (key : QualName) : List Spot :=
  match (do layoutFrom c o (c.flatten o) key (← c.declaration key)) with
  | .ok (ts, _) => ts
  | .error _ => []

/-- What the nested struct `child` contributes to its container: its members, each moved to the
spot; and if it has a name there and fields of its own, an accessor behind the first of them. -/
inductive Composed (t : Spot) (child : FlatStruct) : Prop
  | whole (unnamed : nestedLabel t.decl child = none ∨ child.fields = [])
      (moved : List.Forall₂ (Moved (nestedLabel t.decl child) t.offset t.source) child.members
        t.members)
  | referenced {before after : List PlacedMember} {first : PlacedMember}
      (named : nestedLabel t.decl child = some t.decl.name)
      (moved : List.Forall₂ (Moved (some t.decl.name) t.offset t.source) child.members
        (before ++ first :: after))
      (accessors : ∀ m ∈ before, m.isAccessor = true) (field : first.isAccessor = false)
      (members : t.members =
        before ++ first :: .nestedAccessor t.decl first.name t.offset t.source :: after)

variable {c : Catalog} {o : Options} {key : QualName} {f : FlatStruct}

theorem Laid.spots_eq {s : StructDecl} {rule : LayoutRule} {ts : List Spot} {p : Placement}
    (laid : Laid c o (c.answer o) key s rule ts p f) (hs : c.struct? key = some s) :
    c.spots o key = ts := by
  have hflatten : c.flatten o = c.answer o := funext (flatten_eq_answer c o)
  simp only [Catalog.spots, Catalog.declaration_of_struct? hs, hflatten, bind, Except.bind,
    laid.computed]

theorem Contributed.composed {t : Spot} {child : FlatStruct}
    (h : Contributed o t.decl child t.source t.offset t.members) (hinline : o.inlineNested = true)
    (hempty : child.fields = [] → child.members = []) : Composed t child := by
  generalize hms : t.members = ms at h
  cases h with
  | childless hfields =>
    refine .whole (.inr hfields) ?_
    rw [hempty hfields, hms]
    exact .nil
  | merged _ hanonymous moved =>
    have hlabel : nestedLabel t.decl child = none := by rw [nestedLabel, hanonymous, if_pos rfl]
    refine .whole (.inl hlabel) ?_
    rw [hlabel, hms]
    exact moved
  | spread hnamed _ moved hbefore hfirst =>
    have hlabel : nestedLabel t.decl child = some t.decl.name := by
      rw [nestedLabel, hnamed, if_neg (by decide)]
    exact .referenced hlabel moved hbefore hfirst hms
  | kept _ _ inline => rw [hinline] at inline; cases inline

/-! ### Leaves -/

section

variable {place : QualName → Markers → List TreeField → List Nat} {pointerWidth : UInt32}
  {trees : QualName → Option TypeTree}

theorem leaves_of_leaf {g : TreeField} (h : g.type.isRecord = false) (offset : Nat) :
    g.leaves place offset = [⟨[], g.decl, g.type, offset⟩] := by
  obtain ⟨decl, type⟩ := g
  rw [TreeField.leaves, if_neg (by simpa using h)]

theorem leaves_of_record {g : TreeField} (h : g.type.isRecord = true) (offset : Nat) :
    g.leaves place offset = (g.type.leaves place).map (Leaf.under g.label offset) := by
  obtain ⟨decl, type⟩ := g
  rw [TreeField.leaves, if_pos (by simpa using h)]

theorem describes_moved {leaves : List Leaf} {ms ms' : List PlacedMember} {label : Option String}
    {base : UInt32} {source : Nat} (h : List.Forall₂ Leaf.Describes leaves ms)
    (hmoved : List.Forall₂ (Moved label base source) ms ms') :
    List.Forall₂ Leaf.Describes (leaves.map (Leaf.under label base.toNat)) ms' := by
  induction h generalizing ms' with
  | nil => cases hmoved; exact .nil
  | cons first rest ih =>
    cases hmoved with
    | cons hfirst hrest => exact .cons (first.moved hfirst) (ih hrest)

/-- The tree of a contained struct describes its flat form. -/
structure TypeTree.Describes (place : QualName → Markers → List TreeField → List Nat)
    (tree : TypeTree) (f : FlatStruct) : Prop where
  isRecord : tree.isRecord = true
  markers : tree.markers = f.markers
  leaves : List.Forall₂ Leaf.Describes (tree.leaves place) f.fields

/-- One field: a leaf, or the leaves of a struct under its name. -/
theorem describes_field {g : TreeField} {t : Spot} {p q : Placement}
    {child : QualName → Except LayoutError FlatStruct} (hstep : SpotStep c o child key p t q)
    (hmatch : g.Matches o.pointerWidth trees t) (hinline : o.inlineNested = true)
    (hchild : ∀ d flat tree, t.type = .struct d → child d = .ok flat → trees d = some tree →
      tree.Describes place flat) :
    List.Forall₂ Leaf.Describes (g.leaves place t.offset.toNat)
      (t.members.filter fun m => !m.isAccessor) := by
  obtain ⟨decl, type⟩ := g
  obtain ⟨rfl, htype⟩ := hmatch
  rcases hstep.leaf_or_struct trees with ⟨tree, htree, hleaf⟩ | ⟨d, hstruct, htree⟩
  · obtain rfl : tree = type := Option.some.inj (htree.symm.trans htype)
    obtain ⟨m, hfields, hdescribes⟩ := hleaf.field
    rw [leaves_of_leaf hleaf.leaf, hfields]
    exact .cons hdescribes .nil
  · obtain ⟨flat, hflat, helement⟩ := made_struct hstep.made hstruct
    have hdescribes := hchild d flat type hstruct hflat (htree.symm.trans htype)
    obtain ⟨-, hcontributed⟩ := hstep.filled.of_struct helement
    have hlabel : TreeField.label ⟨t.decl, type⟩ = nestedLabel t.decl flat := by
      simp only [TreeField.label, nestedLabel, hdescribes.markers]
    rw [leaves_of_record hdescribes.isRecord, hlabel]
    exact describes_moved hdescribes.leaves (hcontributed.moved_fields hinline)

theorem describes_fields {fields : List TreeField} {ts : List Spot}
    (hmatches : List.Forall₂ (TreeField.Matches pointerWidth trees) fields ts)
    (hfield : ∀ (g : TreeField) (t : Spot), t ∈ ts → g.Matches pointerWidth trees t →
      List.Forall₂ Leaf.Describes (g.leaves place t.offset.toNat)
        (t.members.filter fun m => !m.isAccessor)) :
    List.Forall₂ Leaf.Describes (TreeField.leavesAll place fields (ts.map fun t => t.offset.toNat))
      (ts.flatMap fun t => t.members.filter fun m => !m.isAccessor) := by
  induction hmatches with
  | nil => rw [List.map_nil, TreeField.leavesAll]; exact .nil
  | cons hmatch _ ih =>
    rw [List.map_cons, TreeField.leavesAll, List.flatMap_cons, List.headD_cons, List.tail_cons]
    refine List.rel_append (hfield _ _ List.mem_cons_self hmatch) (ih fun g t ht => ?_)
    exact hfield g t (List.mem_cons_of_mem _ ht)

/-- The function `place` gives the fields of the struct `d` the offsets of their spots. -/
def PlacedBy (c : Catalog) (o : Options) (place : QualName → Markers → List TreeField → List Nat)
    (d : QualName) : Prop :=
  ∀ s n fields, c.struct? d = some s →
    s.slots.mapM (slotTree c o.pointerWidth (c.typeTreeWithin o.pointerWidth n) d) = some fields →
    place d s.markers fields = (c.spots o d).map fun t => t.offset.toNat

/-- **The fields of a flat struct are the leaves of its type**, in order. -/
theorem describes_leaves_of_answer (h : c.answer o key = .ok f) (hinline : o.inlineNested = true)
    (hplace : ∀ d, ReflTransGen c.Contains key d → PlacedBy c o place d) {n : Nat}
    {tree : TypeTree} (htree : c.typeTreeWithin o.pointerWidth n key = some tree) :
    tree.Describes place f := by
  refine Catalog.answer_induction (motive := fun _ key f =>
    (∀ d, ReflTransGen c.Contains key d → PlacedBy c o place d) → ∀ n tree,
      c.typeTreeWithin o.pointerWidth n key = some tree → tree.Describes place f)
    ?_ h hplace n tree htree
  intro _ key s rule ts p f hs laid ih hplace n tree htree
  obtain ⟨m, s', fields, rfl, hs', hfields, rfl⟩ := typeTreeWithin_eq_some htree
  obtain rfl := Option.some.inj (hs.symm.trans hs')
  refine ⟨rfl, laid.markers_eq.symm, ?_⟩
  rw [TypeTree.leaves, hplace key .refl s m fields hs hfields, laid.spots_eq hs,
    laid.fields_eq]
  refine describes_fields (laid.matches_of_mapM hfields) fun g t ht hmatch => ?_
  obtain ⟨p', q, hstep⟩ := laid.run.exists_step ht
  refine describes_field hstep hmatch hinline fun d flat tree htype hflat htree => ?_
  have hd : c.Contains key d := (laid.contains_iff hs).2 ⟨t, ht, htype⟩
  exact ih d flat hd hflat (fun e he => hplace e (he.head hd)) m tree htree

end

/-! ### The theorem -/

/-- The offsets of the spots, as a function that places fields. -/
def Catalog.placements (c : Catalog) (o : Options) (key : QualName) (_ : Markers)
    (_ : List TreeField) : List Nat :=
  (c.spots o key).map fun t => t.offset.toNat

/-- **Flattening composes.** Where nested structs are spread, a flat struct is what its fields
contribute, in order, and the contribution of a nested struct is its own flat form, moved to the
offset of the field and, if it has a name there, put behind that name and given an accessor. At
every depth, the fields of the flat struct are the scalars and buffers of its type, each once, under
the names on the way to it and at the sum of the offsets. -/
theorem flatten_composes (calls : List Call) (hinline : o.inlineNested = true)
    (h : outcome (Bench.flatten c o key) (Workbench.afterCalls c o calls) = .ok f) :
    (∃ s, c.struct? key = some s ∧ s.slots = (c.spots o key).map Spot.slot) ∧
    f.members = (c.spots o key).flatMap Spot.members ∧
    (∀ t ∈ c.spots o key, c.bind t.decl.type key = .ok t.type ∧
      ∀ d, t.type = .struct d → ∃ child, c.flatten o d = .ok child ∧ Composed t child) ∧
    ∃ tree, c.typeTree o.pointerWidth key = some tree ∧
      List.Forall₂ Leaf.Describes (tree.leaves (c.placements o)) f.fields ∧
      (f.fields.map (·.name)).Nodup := by
  rw [outcome_flatten_eq_answer] at h
  obtain ⟨s, rule, ts, p, hs, laid⟩ := Catalog.exists_laid_of_answer h
  obtain ⟨tree, htree⟩ := exists_typeTree_of_answer h
  rw [laid.spots_eq hs]
  refine ⟨⟨s, hs, laid.slots⟩, laid.members_eq, ?_, tree, htree, ?_, ?_⟩
  · intro t ht
    refine ⟨laid.bound ht, fun d htype => ?_⟩
    obtain ⟨child, hchild, -, hcontributed⟩ := laid.contributed ht htype
    exact ⟨child, (flatten_eq_answer c o d).trans hchild,
      hcontributed.composed hinline (members_eq_nil_of_answer hchild)⟩
  · have hplace : ∀ d, ReflTransGen c.Contains key d → PlacedBy c o (c.placements o) d :=
      fun _ _ _ _ _ _ _ => rfl
    exact (describes_leaves_of_answer h hinline hplace htree).leaves
  · exact laid.nodup.sublist (List.filter_sublist.map _)

/-! ### Three structs deep -/

/-- A struct with a named struct inside, and in there a buffer without a native form, a union
without a name and some padding. -/
def nestedCatalog : Catalog :=
  let field (type name : String) : Member := .field (.ofNames (.named type) [name])
  let slots := FieldDecl.withFixedCount (.ofNames (.named "IntPtr") ["slots"]) 2
  let either := (FieldDecl.ofNames (.named "Either") ["either"]).withMarkers
    (Markers.none.insert .anonymous)
  let struct (name : String) (markers : Markers) (members : List Member) :=
    (QualName.mk name, (⟨["public"], name, markers, none, members⟩ : StructDecl))
  ⟨[struct "Nothing" .none [],
    struct "Handles" .none [.field slots, field "byte" "tag"],
    struct "Either" (Markers.none.insert .union) [field "uint" "whole", field "ushort" "half"],
    struct "Middle" .none [field "byte" "flag", field "Handles" "handles", .field either],
    struct "Outer" .none [field "short" "lead", field "Middle" "middle", field "Nothing" "nothing",
      field "long" "last"]], [], [], [], []⟩

/-- Here the theorem gives the leaves of the type, which are these. -/
theorem flatten_composes_nested :
    ∃ f, outcome (Bench.flatten nestedCatalog (.ofPointerWidth 8) ⟨"Outer"⟩)
        (Workbench.afterCalls nestedCatalog (.ofPointerWidth 8) []) = .ok f ∧
      (f.fields.map fun m => (m.name, m.offset)) =
        [("lead", 0), ("middle_flag", 8), ("middle_handles_slots_Start", 16),
          ("middle_handles_tag", 32), ("middle_whole", 40), ("middle_half", 40), ("last", 48)] ∧
      ∃ tree, nestedCatalog.typeTree 8 ⟨"Outer"⟩ = some tree ∧
        List.Forall₂ Leaf.Describes (tree.leaves (nestedCatalog.placements (.ofPointerWidth 8)))
          f.fields := by
  have hflat : ∃ f, outcome (Bench.flatten nestedCatalog (.ofPointerWidth 8) ⟨"Outer"⟩)
        (Workbench.afterCalls nestedCatalog (.ofPointerWidth 8) []) = .ok f ∧
      (f.fields.map fun m => (m.name, m.offset)) =
        [("lead", 0), ("middle_flag", 8), ("middle_handles_slots_Start", 16),
          ("middle_handles_tag", 32), ("middle_whole", 40), ("middle_half", 40), ("last", 48)] := by
    decide +kernel
  obtain ⟨f, hf, hfields⟩ := hflat
  obtain ⟨-, -, -, tree, htree, hleaves, -⟩ := flatten_composes [] rfl hf
  exact ⟨f, hf, hfields, tree, htree, hleaves⟩

end FlatLayout
