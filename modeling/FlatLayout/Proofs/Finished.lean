import FlatLayout.Proofs.Reflattening
import FlatLayout.Proofs.Rewriting

/-!
# What a flattened unit is free of

Three things take the markers, the conditional blocks and the marker classes out of a unit, each in
its own part of the tree: blocks are replaced before anything else happens; a flat declaration has
no markers of its own but carries along what is nested in the struct, static fields included; and
the pass clears what it copies. That nothing is left is seen only for the whole tree, and for a flat
declaration it depends on the catalog: what is nested in there need not be what stands at hand.

`SourceUnit.parts` are all members at all depths, so that "nowhere" is one membership.

## Running it again

A unit in which nothing is left to be done is not changed, and for this it does not matter what else
there is: none of its structs is looked up. So `flattenMarked_of_finished` is an equation between
computations, for every catalog.

## Main definitions

* `SourceUnit.parts`, `SourceUnit.structsWithin` — the members of a unit, and its structs, at all
  depths
* `SourceUnit.Finished` — nothing is left that flattening looks at
* `StructDecl.IsFlat` — every offset of a struct is written down

## Main results

* `select_of_finished`, `flattenMarked_of_finished` — a finished unit stays as it is
* `finished_of_run` — whatever flattening a project yields is finished
-/

namespace FlatLayout

/-! ### All members -/

mutual

/-- A member and all that is in it. A conditional block has both its branches in it. -/
def Member.parts : Member → List Member
  | .struct s => .struct s :: StructDecl.parts s
  | .conditional symbol ms otherwise =>
    .conditional symbol ms otherwise :: (Member.partsAll ms ++ Member.partsAll otherwise)
  | m => [m]

/-- All that is in a struct. -/
def StructDecl.parts : StructDecl → List Member
  | ⟨_, _, _, _, members⟩ => Member.partsAll members

/-- Some members and all that is in them. -/
def Member.partsAll : List Member → List Member
  | [] => []
  | m :: ms => m.parts ++ Member.partsAll ms

end

/-- The members of an item, the item itself included if it is a struct. -/
def Item.parts : Item → List Member
  | .struct s => (Member.struct s).parts
  | _ => []

/-- The members of a unit, at all depths, containers first. -/
def SourceUnit.parts (u : SourceUnit) : List Member := u.items.flatMap Item.parts

/-- The structs of a unit, at all depths, containers first. -/
def SourceUnit.structsWithin (u : SourceUnit) : List StructDecl := u.parts.filterMap Member.struct?

/-- The member is not a conditional block, and it has no marker. -/
def Member.IsFinished : Member → Prop
  | .field f => f.markers = .none
  | .struct s => s.markers = .none
  | .conditional _ _ _ => False
  | _ => True

/-- Nothing is left in a unit that flattening looks at. -/
structure SourceUnit.Finished (u : SourceUnit) : Prop where
  members : ∀ m ∈ u.parts, m.IsFinished
  classes : ∀ d, .classDecl d ∈ u.items → isMarkerClass d.name d.base = false

/-- The offsets of a struct are written down, and they count bytes. -/
structure StructDecl.IsFlat (s : StructDecl) : Prop where
  layout : ∃ size, s.layout = some ⟨.explicit, some 1, some size⟩
  offsets : ∀ f ∈ s.fields, f.isInstance = true → f.offset.isSome = true

theorem partsAll_eq (ms : List Member) : Member.partsAll ms = ms.flatMap Member.parts := by
  induction ms with
  | nil => rw [Member.partsAll, List.flatMap_nil]
  | cons m ms ih => rw [Member.partsAll, List.flatMap_cons, ih]

theorem parts_struct (s : StructDecl) :
    (Member.struct s).parts = .struct s :: Member.partsAll s.members := by
  obtain ⟨modifiers, name, markers, layout, members⟩ := s
  rw [Member.parts, StructDecl.parts]

theorem forall_partsAll_cons {P : Member → Prop} {m : Member} {ms : List Member} :
    (∀ p ∈ Member.partsAll (m :: ms), P p) ↔
      (∀ p ∈ m.parts, P p) ∧ ∀ p ∈ Member.partsAll ms, P p := by
  rw [Member.partsAll, List.forall_mem_append]

theorem forall_partsAll_append {P : Member → Prop} {ms ms' : List Member} :
    (∀ p ∈ Member.partsAll (ms ++ ms'), P p) ↔
      (∀ p ∈ Member.partsAll ms, P p) ∧ ∀ p ∈ Member.partsAll ms', P p := by
  rw [partsAll_eq, partsAll_eq, partsAll_eq, List.flatMap_append, List.forall_mem_append]

theorem forall_parts_struct {P : Member → Prop} {s : StructDecl} :
    (∀ p ∈ (Member.struct s).parts, P p) ↔
      P (.struct s) ∧ ∀ p ∈ Member.partsAll s.members, P p := by
  rw [parts_struct, List.forall_mem_cons]

/-! ### Conditional blocks -/

/-- The member is no conditional block. -/
def Member.IsDefinite (m : Member) : Prop :=
  ∀ symbol ms otherwise, m ≠ .conditional symbol ms otherwise

mutual

/-- Selecting branches leaves no blocks, at no depth. -/
theorem definite_select (defines : List String) (m : Member) :
    ∀ p ∈ Member.partsAll (m.select defines), p.IsDefinite := by
  cases m with
  | conditional symbol ms otherwise =>
    rw [Member.select]
    split
    · exact definite_selectAll defines ms
    · exact definite_selectAll defines otherwise
  | struct s =>
    rw [Member.select, forall_partsAll_cons, forall_parts_struct]
    exact ⟨⟨nofun, definite_selectStruct defines s⟩, by simp [Member.partsAll]⟩
  | field f => simp [Member.select, Member.partsAll, Member.parts, Member.IsDefinite]
  | accessor a => simp [Member.select, Member.partsAll, Member.parts, Member.IsDefinite]
  | enum e => simp [Member.select, Member.partsAll, Member.parts, Member.IsDefinite]
  | verbatim text => simp [Member.select, Member.partsAll, Member.parts, Member.IsDefinite]

theorem definite_selectStruct (defines : List String) (s : StructDecl) :
    ∀ p ∈ Member.partsAll (s.select defines).members, p.IsDefinite := by
  obtain ⟨modifiers, name, markers, layout, members⟩ := s
  rw [StructDecl.select]
  exact definite_selectAll defines members

theorem definite_selectAll (defines : List String) (ms : List Member) :
    ∀ p ∈ Member.partsAll (Member.selectAll defines ms), p.IsDefinite := by
  cases ms with
  | nil => simp [Member.selectAll, Member.partsAll]
  | cons m ms =>
    rw [Member.selectAll, forall_partsAll_append]
    exact ⟨definite_select defines m, definite_selectAll defines ms⟩

end

theorem definite_unit (u : SourceUnit) (defines : List String) :
    ∀ p ∈ (u.select defines).parts, p.IsDefinite := by
  intro p hp
  obtain ⟨i, hi, hp⟩ := List.mem_flatMap.1 hp
  obtain ⟨j, -, rfl⟩ := List.mem_map.1 hi
  cases j with
  | struct s => exact forall_parts_struct.2 ⟨nofun, definite_selectStruct defines s⟩ p hp
  | enum e => cases hp
  | classDecl d => cases hp
  | verbatim text => cases hp

/-! ### What is declared inside -/

/-- A property of the members of a struct `key` that is handed on to the members of the structs in
there. -/
structure Hereditary (Q : QualName → List Member → Prop) : Prop where
  tail : ∀ {key m ms}, Q key (m :: ms) → Q key ms
  inside : ∀ {key s ms}, Q key (.struct s :: ms) → Q (key.child s.name) s.members

namespace Hereditary

variable {Q : QualName → List Member → Prop} {k : QualName} {s : StructDecl}

mutual

theorem of_member (hQ : Hereditary Q) {key : QualName} {m : Member} {ms : List Member}
    (h : Q key (m :: ms)) (hs : .struct k s ∈ m.declarations key) : Q k s.members := by
  cases m with
  | struct t =>
    rw [Member.declarations] at hs
    exact hQ.of_struct (hQ.inside h) hs
  | enum e => simp [Member.declarations] at hs
  | field f => simp [Member.declarations] at hs
  | accessor a => simp [Member.declarations] at hs
  | conditional symbol ms otherwise => simp [Member.declarations] at hs
  | verbatim text => simp [Member.declarations] at hs

theorem of_struct (hQ : Hereditary Q) {key : QualName} {t : StructDecl} (h : Q key t.members)
    (hs : .struct k s ∈ t.declarations key) : Q k s.members := by
  obtain ⟨modifiers, name, markers, layout, members⟩ := t
  rw [StructDecl.declarations_eq] at hs
  rcases List.mem_append.1 hs with hs | hs
  · exact hQ.of_members h hs
  · obtain ⟨rfl, rfl⟩ := Declaration.struct.inj (List.mem_singleton.1 hs)
    exact h

theorem of_members (hQ : Hereditary Q) {key : QualName} {ms : List Member} (h : Q key ms)
    (hs : .struct k s ∈ Member.declarationsAll key ms) : Q k s.members := by
  cases ms with
  | nil => simp [Member.declarationsAll] at hs
  | cons m ms =>
    rw [Member.declarationsAll] at hs
    rcases List.mem_append.1 hs with hs | hs
    · exact hQ.of_member h hs
    · exact hQ.of_members (hQ.tail h) hs

end

/-- **What holds of the structs at the top** of a unit holds of all that it declares. -/
theorem of_unit (hQ : Hereditary Q) {u : SourceUnit}
    (h : ∀ t, .struct t ∈ u.items → Q (.root u.namespaceName t.name) t.members)
    (hs : .struct k s ∈ u.declarations) : Q k s.members := by
  obtain ⟨i, hi, hs⟩ := List.mem_flatMap.1 hs
  cases i with
  | struct t => exact hQ.of_struct (h t hi) hs
  | enum e => simp [Item.declarations] at hs
  | classDecl d => simp [Item.declarations] at hs
  | verbatim text => simp [Item.declarations] at hs

end Hereditary

theorem hereditary_parts (P : Member → Prop) :
    Hereditary fun _ ms => ∀ p ∈ Member.partsAll ms, P p where
  tail h := (forall_partsAll_cons.1 h).2
  inside h := (forall_parts_struct.1 (forall_partsAll_cons.1 h).1).2

theorem hereditary_declarations (ds : List Declaration) :
    Hereditary fun key ms => Member.declarationsAll key ms ⊆ ds where
  tail h := by
    rw [Member.declarationsAll] at h
    exact (List.append_subset.1 h).2
  inside h := by
    rw [Member.declarationsAll, Member.declarations, StructDecl.declarations_eq] at h
    exact (List.append_subset.1 (List.append_subset.1 h).1).1

/-- There are no blocks in the structs of a catalog. -/
def Catalog.IsDefinite (c : Catalog) : Prop :=
  ∀ k s, c.struct? k = some s → ∀ p ∈ Member.partsAll s.members, p.IsDefinite

theorem Catalog.definite_ofUnits {us : List SourceUnit}
    (h : ∀ u ∈ us, ∀ p ∈ u.parts, p.IsDefinite) : (Catalog.ofUnits us).IsDefinite := by
  intro k s hs
  rw [Catalog.struct?_ofUnits] at hs
  obtain ⟨u, hu, hs⟩ := List.exists_of_findSome?_eq_some hs
  refine (hereditary_parts Member.IsDefinite).of_unit (fun t ht => ?_) (mem_of_structAt? hs)
  refine (forall_parts_struct.1 fun m hm => h u hu m ?_).2
  exact List.mem_flatMap.2 ⟨_, ht, hm⟩

theorem Project.definite_catalog (p : Project) : p.catalog.IsDefinite := by
  refine Catalog.definite_ofUnits fun u hu => ?_
  obtain ⟨v, -, rfl⟩ := List.mem_map.1 hu
  exact definite_unit v p.defines

section

variable {c : Catalog} {o : Options} {key : QualName} {f : FlatStruct}

/-- A struct that is declared in the first unit has all that the catalog knows of it there. -/
theorem declarations_subset_of_struct? {u : SourceUnit} {us : List SourceUnit} {k : QualName}
    {s s' : StructDecl} (h : .struct k s ∈ u.declarations)
    (hs' : (Catalog.ofUnits (u :: us)).struct? k = some s') :
    Member.declarationsAll k s'.members ⊆ u.declarations := by
  have hs' : u.structAt? k = some s' := by
    cases hfound : u.structAt? k with
    | some t => rwa [Catalog.struct?_ofUnits_cons, hfound, Option.some_or] at hs'
    | none =>
      have hnone := List.findSome?_eq_none_iff.1 hfound _ h
      rw [Declaration.struct?_eq_some_iff.2 rfl] at hnone
      cases hnone
  refine (hereditary_declarations u.declarations).of_unit (fun t ht => ?_) (mem_of_structAt? hs')
  intro d hd
  refine List.mem_flatMap.2 ⟨_, ht, ?_⟩
  rw [Item.declarations, StructDecl.declarations_eq]
  exact List.mem_append_left _ hd

/-! ### What comes out of the pass -/

theorem definite_of_answer (hc : c.IsDefinite) (h : c.answer o key = .ok f) :
    ∀ p ∈ Member.partsAll f.decl.members, p.IsDefinite := by
  obtain ⟨s, rule, ts, q, hs, laid⟩ := Catalog.exists_laid_of_answer h
  have hs := hc key s hs
  rw [partsAll_eq] at hs ⊢
  intro p hp
  obtain ⟨m, hm, hp⟩ := List.mem_flatMap.1 hp
  rcases laid.emitted.mem hm with ⟨t, ht, m, hm, rfl⟩ | ⟨hm, -⟩
  · unfold PlacedMember.toMember at hp
    split at hp
    · split at hp <;> simp [Member.parts] at hp <;> rw [hp] <;> nofun
    · simp [Member.parts] at hp
      rw [hp]
      nofun
  · exact hs p (List.mem_flatMap.2 ⟨m, hm, hp⟩)

namespace Shell

variable {s t : StructDecl} (h : Shell c o key s t)

include h

theorem markers_eq : t.markers = .none := by
  cases h with
  | copied => rfl
  | flattened _ _ flat => exact (layout_of_answer flat).2

theorem named : s.markers.anonymous = false := by
  cases h with
  | copied named _ => exact named
  | flattened named _ _ => exact named

theorem definite (hc : c.IsDefinite) (hs : ∀ p ∈ Member.partsAll s.members, p.IsDefinite) :
    ∀ p ∈ Member.partsAll t.members, p.IsDefinite := by
  cases h with
  | copied => exact hs
  | flattened _ _ flat => exact definite_of_answer hc flat

end Shell

/-- **Nothing is left in what takes the place of a member.** -/
theorem TreatedAll.finished {ms out : List Member} {vs : List (QualName × StructDecl)}
    (h : TreatedAll c o key ms out vs) (hc : c.IsDefinite)
    (hms : ∀ p ∈ Member.partsAll ms, p.IsDefinite) :
    ∀ p ∈ Member.partsAll out, p.IsFinished := by
  induction h with
  | nil key => simp [Member.partsAll]
  | field g rest ih =>
    refine forall_partsAll_cons.2 ⟨?_, ih (forall_partsAll_cons.1 hms).2⟩
    simp [Member.parts, Member.IsFinished]
  | struct shell inside rest ihInside ihRest =>
    obtain ⟨hs, hms⟩ := forall_partsAll_cons.1 hms
    have hinside := ihInside (shell.definite hc (forall_parts_struct.1 hs).2)
    refine forall_partsAll_cons.2 ⟨forall_parts_struct.2 ⟨shell.markers_eq, hinside⟩, ihRest hms⟩
  | dropped anonymous rest ih => exact ih (forall_partsAll_cons.1 hms).2
  | @copied key m ms out vs nofield nostruct rest ih =>
    obtain ⟨hm, hms⟩ := forall_partsAll_cons.1 hms
    refine forall_partsAll_cons.2 ⟨?_, ih hms⟩
    cases m with
    | field g => cases nofield
    | struct s => cases nostruct
    | conditional symbol as bs => exact absurd rfl (hm _ (by simp [Member.parts]) symbol as bs)
    | accessor a => simp [Member.parts, Member.IsFinished]
    | enum e => simp [Member.parts, Member.IsFinished]
    | verbatim text => simp [Member.parts, Member.IsFinished]

theorem TreatedItems.finished {space : Option String} {is out : List Item}
    {vs : List (QualName × StructDecl)} (h : TreatedItems c o space is out vs) (hc : c.IsDefinite)
    (his : ∀ p ∈ is.flatMap Item.parts, p.IsDefinite) :
    (∀ p ∈ out.flatMap Item.parts, p.IsFinished) ∧
      ∀ d, .classDecl d ∈ out → isMarkerClass d.name d.base = false := by
  induction h with
  | nil => exact ⟨nofun, nofun⟩
  | @struct s s' is out ws vs treated rest ih =>
    obtain ⟨hs, his⟩ := List.forall_mem_append.1 his
    obtain ⟨hparts, hclasses⟩ := ih his
    obtain ⟨t, inner, inside, hshell, hinside, rfl, -⟩ := treated
    have hinner := hinside.finished hc (hshell.definite hc (forall_parts_struct.1 hs).2)
    refine ⟨?_, fun d hd => hclasses d ((List.mem_cons.1 hd).resolve_left nofun)⟩
    exact List.forall_mem_append.2 ⟨forall_parts_struct.2 ⟨hshell.markers_eq, hinner⟩, hparts⟩
  | dropped anonymous rest ih => exact ih (List.forall_mem_append.1 his).2
  | droppedClass marker rest ih => exact ih (List.forall_mem_append.1 his).2
  | @copied i is out vs nostruct nomarker rest ih =>
    obtain ⟨hparts, hclasses⟩ := ih (List.forall_mem_append.1 his).2
    constructor
    · refine List.forall_mem_append.2 ⟨fun p hp => ?_, hparts⟩
      cases i with
      | struct s => cases nostruct
      | enum e => cases hp
      | classDecl d => cases hp
      | verbatim text => cases hp
    · intro d hd
      rcases List.mem_cons.1 hd with hd | hd
      · exact nomarker d hd.symm
      · exact hclasses d hd

/-! ### Where the new structs come from -/

/-- The struct `s'` is what has become of the struct `v`, which was not to be dropped. If it was to
be flattened, it is flat. -/
structure Catalog.Survives (c : Catalog) (o : Options) (v : QualName × StructDecl)
    (s' : StructDecl) : Prop where
  named : v.2.markers.anonymous = false
  rewritten : Rewritten c o v.1 v.2 s'
  flat : v.2.markers.flatten = true → s'.IsFlat

/-- Fields lose their markers and nothing else. -/
theorem TreatedAll.exists_field {ms out : List Member} {vs : List (QualName × StructDecl)}
    (h : TreatedAll c o key ms out vs) {g' : FieldDecl} (hg' : .field g' ∈ out) :
    ∃ g, .field g ∈ ms ∧ g' = { g with markers := .none } := by
  induction h with
  | nil key => cases hg'
  | field g rest ih =>
    rcases List.mem_cons.1 hg' with heq | hg'
    · exact ⟨g, List.mem_cons_self, Member.field.inj heq⟩
    · obtain ⟨g, hg, heq⟩ := ih hg'
      exact ⟨g, List.mem_cons_of_mem _ hg, heq⟩
  | struct shell inside rest _ ih =>
    obtain ⟨g, hg, heq⟩ := ih ((List.mem_cons.1 hg').resolve_left nofun)
    exact ⟨g, List.mem_cons_of_mem _ hg, heq⟩
  | dropped anonymous rest ih =>
    obtain ⟨g, hg, heq⟩ := ih hg'
    exact ⟨g, List.mem_cons_of_mem _ hg, heq⟩
  | copied nofield nostruct rest ih =>
    rcases List.mem_cons.1 hg' with heq | hg'
    · rw [← heq] at nofield
      cases nofield
    · obtain ⟨g, hg, heq⟩ := ih hg'
      exact ⟨g, List.mem_cons_of_mem _ hg, heq⟩

/-- What takes the place of a marked struct has all its offsets written down. -/
theorem Shell.survives {s t : StructDecl} {inner : List Member}
    {ws : List (QualName × StructDecl)} (h : Shell c o key s t)
    (hinside : TreatedAll c o key t.members inner ws) :
    c.Survives o (key, s) { t with members := inner } where
  named := h.named
  rewritten := ⟨t, inner, h, hinside.rewritten, rfl⟩
  flat := by
    intro hmarked
    cases h with
    | copied _ unmarked => cases unmarked.symm.trans hmarked
    | @flattened f _ _ flat =>
      refine ⟨⟨f.footprint.size, (layout_of_answer flat).1⟩, fun g' hg' hinstance => ?_⟩
      obtain ⟨g, hg, rfl⟩ := hinside.exists_field (mem_fields_iff.1 hg')
      obtain ⟨m, -, rfl⟩ := instanceField_of_answer flat (mem_fields_iff.2 hg) hinstance
      rfl

theorem TreatedAll.survives {ms out : List Member} {vs : List (QualName × StructDecl)}
    (h : TreatedAll c o key ms out vs) (hc : c.IsDefinite)
    (hms : ∀ p ∈ Member.partsAll ms, p.IsDefinite) :
    List.Forall₂ (c.Survives o) vs ((Member.partsAll out).filterMap Member.struct?) := by
  induction h with
  | nil key => exact .nil
  | field g rest ih => exact ih (forall_partsAll_cons.1 hms).2
  | struct shell inside rest ihInside ihRest =>
    obtain ⟨hs, hms⟩ := forall_partsAll_cons.1 hms
    have hinside := ihInside (shell.definite hc (forall_parts_struct.1 hs).2)
    rw [Member.partsAll, parts_struct, List.filterMap_append, List.filterMap_cons]
    exact List.rel_append (.cons (shell.survives inside) hinside) (ihRest hms)
  | dropped anonymous rest ih => exact ih (forall_partsAll_cons.1 hms).2
  | @copied key m ms out vs nofield nostruct rest ih =>
    obtain ⟨hm, hms⟩ := forall_partsAll_cons.1 hms
    have hnone : m.parts.filterMap Member.struct? = [] := by
      cases m with
      | field g => cases nofield
      | struct s => cases nostruct
      | conditional symbol as bs => exact absurd rfl (hm _ (by simp [Member.parts]) symbol as bs)
      | accessor a => simp [Member.parts, Member.struct?]
      | enum e => simp [Member.parts, Member.struct?]
      | verbatim text => simp [Member.parts, Member.struct?]
    rw [Member.partsAll, List.filterMap_append, hnone, List.nil_append]
    exact ih hms

theorem TreatedItems.survives {space : Option String} {is out : List Item}
    {vs : List (QualName × StructDecl)} (h : TreatedItems c o space is out vs) (hc : c.IsDefinite)
    (his : ∀ p ∈ is.flatMap Item.parts, p.IsDefinite) :
    List.Forall₂ (c.Survives o) vs ((out.flatMap Item.parts).filterMap Member.struct?) := by
  induction h with
  | nil => exact .nil
  | @struct s s' is out ws vs treated rest ih =>
    obtain ⟨hs, his⟩ := List.forall_mem_append.1 his
    obtain ⟨t, inner, inside, hshell, hinside, rfl, rfl⟩ := treated
    have hinner := hinside.survives hc (hshell.definite hc (forall_parts_struct.1 hs).2)
    rw [List.flatMap_cons, Item.parts, parts_struct, List.filterMap_append, List.filterMap_cons]
    exact List.rel_append (.cons (hshell.survives hinside) hinner) (ih his)
  | dropped anonymous rest ih => exact ih (List.forall_mem_append.1 his).2
  | droppedClass marker rest ih => exact ih (List.forall_mem_append.1 his).2
  | @copied i is out vs nostruct nomarker rest ih =>
    have hnone : i.parts = [] := by
      cases i with
      | struct s => cases nostruct
      | enum e => rfl
      | classDecl d => rfl
      | verbatim text => rfl
    rw [List.flatMap_cons, hnone, List.nil_append]
    exact ih (List.forall_mem_append.1 his).2

/-- The declarations `ds` of a unit contain all that the catalog knows of the structs among them. -/
def Catalog.Covers (c : Catalog) (ds : List Declaration) : Prop :=
  ∀ k s s', .struct k s ∈ ds → c.struct? k = some s' → Member.declarationsAll k s'.members ⊆ ds

/-- What is nested in the shell of a struct is declared in the unit. -/
theorem Shell.declarations_subset {s t : StructDecl} {ds : List Declaration}
    (h : Shell c o key s t) (hds : c.Covers ds) (hs : s.declarations key ⊆ ds) :
    .struct key s ∈ ds ∧ Member.declarationsAll key t.members ⊆ ds := by
  rw [StructDecl.declarations_eq, List.append_subset] at hs
  have hmem : .struct key s ∈ ds := hs.2 (List.mem_singleton_self _)
  refine ⟨hmem, ?_⟩
  cases h with
  | copied => exact hs.1
  | flattened _ _ flat =>
    obtain ⟨s', _, _, _, hs', -⟩ := Catalog.exists_laid_of_answer flat
    rw [(declarations_of_answer flat hs').2]
    exact hds key s s' hmem hs'

/-- **The structs that are not dropped** were declared in the unit. -/
theorem TreatedAll.declared {ms out : List Member} {vs : List (QualName × StructDecl)}
    {ds : List Declaration} (h : TreatedAll c o key ms out vs) (hds : c.Covers ds)
    (hms : Member.declarationsAll key ms ⊆ ds) : ∀ v ∈ vs, .struct v.1 v.2 ∈ ds := by
  induction h with
  | nil key => exact nofun
  | field g rest ih =>
    rw [Member.declarationsAll] at hms
    exact ih (List.append_subset.1 hms).2
  | struct shell inside rest ihInside ihRest =>
    rw [Member.declarationsAll, Member.declarations] at hms
    obtain ⟨hs, hms⟩ := List.append_subset.1 hms
    obtain ⟨hmem, hinside⟩ := shell.declarations_subset hds hs
    exact List.forall_mem_append.2
      ⟨List.forall_mem_cons.2 ⟨hmem, ihInside hinside⟩, ihRest hms⟩
  | dropped anonymous rest ih =>
    rw [Member.declarationsAll] at hms
    exact ih (List.append_subset.1 hms).2
  | copied nofield nostruct rest ih =>
    rw [Member.declarationsAll] at hms
    exact ih (List.append_subset.1 hms).2

theorem TreatedItems.declared {space : Option String} {is out : List Item}
    {vs : List (QualName × StructDecl)} {ds : List Declaration}
    (h : TreatedItems c o space is out vs) (hds : c.Covers ds)
    (his : is.flatMap (Item.declarations space) ⊆ ds) : ∀ v ∈ vs, .struct v.1 v.2 ∈ ds := by
  induction h with
  | nil => exact nofun
  | @struct s s' is out ws vs treated rest ih =>
    obtain ⟨hs, his⟩ := List.append_subset.1 his
    obtain ⟨t, inner, inside, hshell, hinside, -, rfl⟩ := treated
    obtain ⟨hmem, hinner⟩ := hshell.declarations_subset hds hs
    exact List.forall_mem_append.2
      ⟨List.forall_mem_cons.2 ⟨hmem, hinside.declared hds hinner⟩, ih his⟩
  | dropped anonymous rest ih => exact ih (List.append_subset.1 his).2
  | droppedClass marker rest ih => exact ih (List.append_subset.1 his).2
  | copied nostruct nomarker rest ih => exact ih (List.append_subset.1 his).2

end

/-! ### Finished units stay as they are -/

mutual

theorem select_of_finished (defines : List String) {m : Member} (h : ∀ p ∈ m.parts, p.IsFinished) :
    m.select defines = [m] := by
  cases m with
  | conditional symbol ms otherwise =>
    exact False.elim (h (.conditional symbol ms otherwise) (by simp [Member.parts]))
  | struct s =>
    rw [Member.select, selectStruct_of_finished defines (forall_parts_struct.1 h).2]
  | field f => simp [Member.select]
  | accessor a => simp [Member.select]
  | enum e => simp [Member.select]
  | verbatim text => simp [Member.select]

theorem selectStruct_of_finished (defines : List String) {s : StructDecl}
    (h : ∀ p ∈ Member.partsAll s.members, p.IsFinished) : s.select defines = s := by
  obtain ⟨modifiers, name, markers, layout, members⟩ := s
  rw [StructDecl.select, selectAll_of_finished defines h]

theorem selectAll_of_finished (defines : List String) {ms : List Member}
    (h : ∀ p ∈ Member.partsAll ms, p.IsFinished) : Member.selectAll defines ms = ms := by
  cases ms with
  | nil => rw [Member.selectAll]
  | cons m ms =>
    obtain ⟨hm, hms⟩ := forall_partsAll_cons.1 h
    rw [Member.selectAll, select_of_finished defines hm, selectAll_of_finished defines hms]
    rfl

end

section

variable {c : Catalog} {o : Options} {nested : QualName → List Member → Drafting (List Member)}

mutual

theorem flattenMarked_of_finished (key : QualName) {m : Member} (h : ∀ p ∈ m.parts, p.IsFinished) :
    m.flattenMarked c o nested key = pure [m] := by
  cases m with
  | struct s =>
    obtain ⟨hmarkers, hinside⟩ := forall_parts_struct.1 h
    rw [Member.flattenMarked, flattenMarkedStruct_of_finished _ hmarkers hinside, pure_bind]
  | field f =>
    have hmarkers : f.markers = .none := h (.field f) (by simp [Member.parts])
    rw [Member.flattenMarked, ← hmarkers]
  | accessor a => simp [Member.flattenMarked]
  | enum e => simp [Member.flattenMarked]
  | conditional symbol ms otherwise => simp [Member.flattenMarked]
  | verbatim text => simp [Member.flattenMarked]

theorem flattenMarkedStruct_of_finished (key : QualName) {s : StructDecl} (hs : s.markers = .none)
    (h : ∀ p ∈ Member.partsAll s.members, p.IsFinished) :
    s.flattenMarked c o nested key = pure (some s) := by
  obtain ⟨modifiers, name, markers, layout, members⟩ := s
  obtain rfl : markers = .none := hs
  rw [StructDecl.flattenMarked, flattenMarkedAll_of_finished key h, pure_bind]
  rfl

theorem flattenMarkedAll_of_finished (key : QualName) {ms : List Member}
    (h : ∀ p ∈ Member.partsAll ms, p.IsFinished) :
    Member.flattenMarkedAll c o nested key ms = pure ms := by
  cases ms with
  | nil => rw [Member.flattenMarkedAll]
  | cons m ms =>
    obtain ⟨hm, hms⟩ := forall_partsAll_cons.1 h
    rw [Member.flattenMarkedAll, flattenMarked_of_finished key hm,
      flattenMarkedAll_of_finished key hms, pure_bind, pure_bind]
    rfl

end

theorem flattenMarkedItems_of_finished (space : Option String) {is : List Item}
    (h : ∀ p ∈ is.flatMap Item.parts, p.IsFinished)
    (hclasses : ∀ d, .classDecl d ∈ is → isMarkerClass d.name d.base = false) :
    Item.flattenMarkedAll c o space is = pure is := by
  induction is with
  | nil => rfl
  | cons i is ih =>
    obtain ⟨hi, his⟩ := List.forall_mem_append.1 h
    have hfirst : i.flattenMarked c o space = pure [i] := by
      cases i with
      | struct s =>
        obtain ⟨hmarkers, hinside⟩ := forall_parts_struct.1 hi
        rw [Item.flattenMarked, flattenMarkedStruct_of_finished _ hmarkers hinside, pure_bind]
      | classDecl d =>
        rw [Item.flattenMarked, hclasses d List.mem_cons_self]
        rfl
      | enum e => rfl
      | verbatim text => rfl
    rw [Item.flattenMarkedAll, hfirst, ih his fun d hd => hclasses d (List.mem_cons_of_mem _ hd),
      pure_bind, pure_bind]
    rfl

end

namespace SourceUnit.Finished

variable {u : SourceUnit} (h : u.Finished)

include h

theorem select_eq (defines : List String) : u.select defines = u := by
  have hitem : ∀ i ∈ u.items, i.select defines = id i := by
    intro i hi
    cases i with
    | struct s =>
      have hs := forall_parts_struct.1 fun p hp => h.members p (List.mem_flatMap.2 ⟨_, hi, hp⟩)
      rw [Item.select, selectStruct_of_finished defines hs.2, id]
    | enum e => rfl
    | classDecl d => rfl
    | verbatim text => rfl
  rw [SourceUnit.select, List.map_congr_left hitem, List.map_id]

/-- **Nothing happens to a finished unit**, whatever the catalog. -/
theorem flattenMarked_eq (c : Catalog) (o : Options) : u.flattenMarked c o = pure u := by
  rw [SourceUnit.flattenMarked, flattenMarkedItems_of_finished _ h.members h.classes, pure_bind]

/-- **Running a finished unit** succeeds and gives it back. -/
theorem run_eq (o : Options) (defines : List String) (auxiliary : List SourceUnit) :
    (Project.mk o defines u auxiliary).run.1 = .ok ⟨u, [], []⟩ := by
  rw [Project.run]
  simp only [h.select_eq, h.flattenMarked_eq]
  rfl

end SourceUnit.Finished

/-- **What comes out is finished.** Whatever flattening a project yields: at every depth of the new
unit no struct and no field has a marker, there are no conditional blocks and no marker classes.
Each of its structs is what has become of a struct that the primary unit declared and that was not
marked as anonymous; if that one was marked to be flattened, all offsets are written down. And
flattening the new unit, with any options, symbols and further units, gives it back and replaces
nothing. -/
theorem finished_of_run {p : Project} {out : Outcome} (h : p.run.1 = .ok out) :
    out.unit.Finished ∧
    (∃ sources : List (QualName × StructDecl),
      (∀ v ∈ sources, .struct v.1 v.2 ∈ (p.primary.select p.defines).declarations) ∧
      List.Forall₂ (p.catalog.Survives p.options) sources out.unit.structsWithin) ∧
    ∀ o defines auxiliary,
      (Project.mk o defines out.unit auxiliary).run.1 = .ok ⟨out.unit, [], []⟩ := by
  obtain ⟨items, vs, ran⟩ := treats_of_run h
  have hdefinite := definite_unit p.primary p.defines
  obtain ⟨hparts, hclasses⟩ := ran.treated.finished p.definite_catalog hdefinite
  have hfinished : out.unit.Finished := by
    rw [ran.unit]
    exact ⟨hparts, hclasses⟩
  refine ⟨hfinished, ⟨vs, ?_, ?_⟩, hfinished.run_eq⟩
  · refine ran.treated.declared (fun k s s' hs hs' => ?_) (List.Subset.refl _)
    exact declarations_subset_of_struct? hs hs'
  · rw [ran.unit]
    exact ran.treated.survives p.definite_catalog hdefinite

/-- A unit in which every kind of thing that has to go stands somewhere deep inside: a static field
with a marker, an anonymous struct, and a conditional block with a marked field in it, all of them
in a struct that is nested in a marked one. -/
def sugaredProject : Project :=
  let field (type name : String) : FieldDecl := .ofNames (.named type) [name]
  let struct (name : String) (markers : Markers) (members : List Member) : StructDecl :=
    ⟨["public"], name, markers, none, members⟩
  { options := .ofPointerWidth 8
    defines := ["X64"]
    primary := ⟨"a.cs", none, [], [
      .classDecl ⟨["public"], "FlattenAttribute", some "System.Attribute", []⟩,
      .struct (struct "Outer" (Markers.none.insert .flatten) [
        .field (field "byte" "tag"),
        .struct (struct "Inner" (Markers.none.insert .union) [
          .field ((field "int" "count").asStatic.withMarkers (Markers.none.insert .anonymous)),
          .struct (struct "Gone" (Markers.none.insert .anonymous) [.field (field "int" "x")]),
          .conditional "X64"
            [.field ((field "long" "wide").withMarkers (Markers.none.insert .union))]
            [.field (field "int" "narrow")],
          .struct (struct "Deep" (Markers.none.insert .flatten) [.field (field "short" "a")])]),
        .field (field "Inner" "inner")])]⟩
    auxiliary := [] }

/-- Here the theorem says that nothing of this is left, and that the new unit stays as it is even
where the other symbol is defined. -/
theorem finished_of_run_sugared :
    ∃ out, sugaredProject.run.1 = .ok out ∧ out.unit.Finished ∧
      out.unit.structsWithin.map (fun s => (s.name, s.fields.map (·.name))) =
        [("Outer", ["tag", "inner_wide"]), ("Inner", ["count", "wide"]), ("Deep", ["a"])] ∧
      (Project.mk (.ofPointerWidth 4) ["X86"] out.unit [sugaredProject.primary]).run.1 =
        .ok ⟨out.unit, [], []⟩ := by
  have hrun : ∃ out, sugaredProject.run.1 = .ok out ∧
      out.unit.structsWithin.map (fun s => (s.name, s.fields.map (·.name))) =
        [("Outer", ["tag", "inner_wide"]), ("Inner", ["count", "wide"]), ("Deep", ["a"])] := by
    decide +kernel
  obtain ⟨out, hrun, hfields⟩ := hrun
  obtain ⟨hfinished, -, hagain⟩ := finished_of_run hrun
  exact ⟨out, hrun, hfinished, hfields, hagain _ _ _⟩

end FlatLayout
