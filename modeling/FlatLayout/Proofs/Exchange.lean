import FlatLayout.Proofs.NestingModes
import FlatLayout.Proofs.Unmarked

/-!
# A struct in the place of another

A struct may be declared by its flat declaration, taken from an earlier run, and everything that
contains it be flattened again. The struct itself is then laid out by other rules: all offsets are
written, nothing is nested any more, and its accessors are no longer computed. What comes out may
therefore have fewer members. But no container looks at more than the size, the alignment and the
fields, and of the accessors only the names matter, since a name must not be used twice.

This is the relation `FlatStruct.StandsFor`. It is carried from the struct that was exchanged to
whatever contains it, one container at a time: its fields are placed at the same offsets, since what
they are made of takes as much as before, and contribute the same fields there.

That the struct has a name of its own where it is nested cannot be left out. A flat declaration has
no marker, so an anonymous struct would put its fields behind the name of the field that it is.

## Main definitions

* `Catalog.Exchanged`, `Catalog.exchange` — one struct is declared in another way
* `FlatStruct.StandsFor` — a flat struct that may be nested in the place of another one

## Main results

* `exists_standsFor_of_decl` — the flat declaration of a struct stands for it
* `exists_standsFor_of_laid` — a container stands for what it was if what it contains does
* `flatten_exchanged` — no field of a container moves
-/

namespace FlatLayout

open Relation

/-! ### Catalogs that differ in one struct -/

/-- In the catalog `c'` the struct `k` is declared as `s`, and everything else as in `c`. -/
structure Catalog.Exchanged (c c' : Catalog) (k : QualName) (s : StructDecl) : Prop where
  struct : c'.struct? k = some s
  others : ∀ d, d ≠ k → c'.struct? d = c.struct? d
  enums : c'.enums = c.enums
  classes : c'.classes = c.classes
  namespaces : c'.namespaces = c.namespaces

/-- The catalog in which the struct `k` is declared as `s`. -/
def Catalog.exchange (c : Catalog) (k : QualName) (s : StructDecl) : Catalog :=
  { c with structs := c.structs.map fun e => (e.1, if e.1 = k then s else e.2) }

theorem Catalog.struct?_exchange (c : Catalog) (k d : QualName) (s : StructDecl) :
    (c.exchange k s).struct? d = (c.struct? d).map fun t => if d = k then s else t := by
  simp only [struct?, exchange]
  induction c.structs with
  | nil => rfl
  | cons e es ih =>
    rw [List.map_cons, List.lookup_cons, List.lookup_cons]
    by_cases hd : d = e.1
    · rw [← hd, beq_self_eq_true]
      rfl
    · rw [beq_false_of_ne hd]
      exact ih

theorem Catalog.exchanged_exchange {c : Catalog} {k : QualName} (hk : (c.struct? k).isSome)
    (s : StructDecl) : c.Exchanged (c.exchange k s) k s where
  struct := by
    obtain ⟨t, ht⟩ := Option.isSome_iff_exists.1 hk
    rw [struct?_exchange, ht, Option.map_some, if_pos rfl]
  others := by
    intro d hd
    simp only [struct?_exchange, if_neg hd, Option.map_id']
  enums := rfl
  classes := rfl
  namespaces := rfl

/-- Where the same names are declared, and as the same kinds of things, every type reference is
bound to the same. -/
theorem Catalog.bind_congr {c c' : Catalog} (hnamespaces : c'.namespaces = c.namespaces)
    (hdeclared : ∀ q, c'.declared? q = c.declared? q) (t : TypeRef) (scope : QualName) :
    c'.bind t scope = c.bind t scope := by
  have hfirst : c'.firstDeclared = c.firstDeclared := by
    funext keys
    simp only [firstDeclared, hdeclared]
  simp only [bind, candidates, hfirst, hnamespaces]

namespace Catalog.Exchanged

variable {c c' : Catalog} {k : QualName} {s : StructDecl}

theorem declared?_eq (h : c.Exchanged c' k s) (hk : (c.struct? k).isSome) (q : QualName) :
    c'.declared? q = c.declared? q := by
  have hsome : (c'.struct? q).isSome = (c.struct? q).isSome := by
    by_cases hq : q = k
    · rw [hq, h.struct, hk]
      rfl
    · rw [h.others q hq]
  simp only [declared?, hsome, h.enums, h.classes]

/-- No type reference means anything else. -/
theorem bind_eq (h : c.Exchanged c' k s) (hk : (c.struct? k).isSome) (t : TypeRef)
    (scope : QualName) : c'.bind t scope = c.bind t scope :=
  bind_congr h.namespaces (h.declared?_eq hk) t scope

end Catalog.Exchanged

/-! ### Flat structs in the place of others -/

/-- The flat struct `f'` may be nested in the place of `f`: it takes as much, it has the same
fields, and no name in it is new. -/
structure FlatStruct.StandsFor (f' f : FlatStruct) : Prop where
  footprint : f'.footprint = f.footprint
  fields : f'.fields.map PlacedMember.toField = f.fields.map PlacedMember.toField
  covers : f.Covers f'

/-- The same for what a field is made of. -/
inductive Element.StandsFor : Element → Element → Prop
  | scalar (size : UInt32) : StandsFor (.scalar size) (.scalar size)
  | struct {f f' : FlatStruct} (flat : f'.StandsFor f) : StandsFor (.struct f') (.struct f)

theorem Element.StandsFor.piece_eq {e e' : Element} (h : e'.StandsFor e) (g : FieldDecl) :
    g.piece e' = g.piece e := by
  cases h with
  | scalar size => rfl
  | struct flat => simp only [FieldDecl.piece, Element.size, Element.alignment, flat.footprint]

/-- Fields that are declared in the same way still are when they have moved by the same. -/
theorem toField_eq_of_moved {outer : Option String} {base : UInt32} {source source' : Nat}
    {m m' n n' : PlacedMember} (hmoved : Moved outer base source m n)
    (hmoved' : Moved outer base source' m' n') (h : m'.toField = m.toField) :
    n'.toField = n.toField := by
  simp only [PlacedMember.toField, FieldDecl.mk.injEq, List.cons.injEq, and_true,
    Option.some.injEq] at h
  obtain ⟨hmodifiers, htype, hname, hcount, hoffset⟩ := h
  have hplace : n'.offset = n.offset :=
    UInt32.toNat_inj.1 (by rw [hmoved'.offset, hmoved.offset, hoffset])
  simp only [PlacedMember.toField, hmoved'.modifiers, hmoved.modifiers, hmodifiers, hmoved'.type,
    hmoved.type, htype, hmoved'.name, hmoved.name, hname, hmoved'.fixedCount, hmoved.fixedCount,
    hcount, hplace]

theorem map_toField_of_moved {outer : Option String} {base : UInt32} {source source' : Nat}
    {ms ms' ns ns' : List PlacedMember} (hmoved : List.Forall₂ (Moved outer base source) ms ns)
    (hmoved' : List.Forall₂ (Moved outer base source') ms' ns')
    (h : ms'.map PlacedMember.toField = ms.map PlacedMember.toField) :
    ns'.map PlacedMember.toField = ns.map PlacedMember.toField := by
  induction hmoved generalizing ms' ns' with
  | nil =>
    obtain rfl := List.map_eq_nil_iff.1 h
    cases hmoved'
    rfl
  | cons first rest ih =>
    cases hmoved' with
    | nil => cases h
    | cons first' rest' =>
      obtain ⟨hfirst, hrest⟩ := List.cons.inj h
      rw [List.map_cons, List.map_cons, toField_eq_of_moved first first' hfirst, ih rest' hrest]

/-- A field whose element stands for another one contributes the same fields where nested structs
are spread. -/
theorem Spot.Meets.fields_eq {o : Options} {role : Role} {t t' : Spot} (h : t.Meets t')
    (hfilled : t.Filled o role) (hfilled' : t'.Filled o role) (hinline : o.inlineNested = true)
    (helement : t'.element.StandsFor t.element) :
    (t'.members.filter fun m => !m.isAccessor).map PlacedMember.toField =
      (t.members.filter fun m => !m.isAccessor).map PlacedMember.toField := by
  generalize he : t.element = e at helement
  generalize he' : t'.element = e' at helement
  cases helement with
  | scalar size =>
    have hsame := hfilled.members_eq hfilled' h (by rw [he]; nofun) (by rw [he']; nofun)
    rw [hsame]
  | @struct flat flat' hflat =>
    have hmoved := (hfilled.of_struct he).2.moved_fields hinline
    have hmoved' := (hfilled'.of_struct he').2.moved_fields hinline
    have hlabel : nestedLabel t'.decl flat' = nestedLabel t.decl flat := by
      rw [nestedLabel, nestedLabel, h.decl, hflat.covers.anonymous]
    rw [hlabel, h.offset] at hmoved'
    exact map_toField_of_moved hmoved hmoved' hflat.fields

/-! ### Containers -/

theorem flatMap_eq_of_forall₂ {α β γ : Type} {R : α → β → Prop} {as : List α} {bs : List β}
    {f : α → List γ} {g : β → List γ} (h : List.Forall₂ R as bs)
    (hsame : ∀ a ∈ as, ∀ b ∈ bs, R a b → g b = f a) : bs.flatMap g = as.flatMap f := by
  induction h with
  | nil => rfl
  | @cons a b as bs first rest ih =>
    have hrest := ih fun x hx y hy =>
      hsame x (List.mem_cons_of_mem _ hx) y (List.mem_cons_of_mem _ hy)
    rw [List.flatMap_cons, List.flatMap_cons, hrest,
      hsame a List.mem_cons_self b List.mem_cons_self first]

section

variable {c c' : Catalog} {o : Options} {child child' : QualName → Except LayoutError FlatStruct}
  {key : QualName} {s : StructDecl} {rule rule' : LayoutRule} {ts ts' : List Spot}
  {p p' : Placement} {f f' : FlatStruct}

theorem standsFor_of_made {type : Binding} {e e' : Element}
    (hmade : elementFrom o child type = .ok e) (hmade' : elementFrom o child' type = .ok e')
    (hchild : ∀ d, type = .struct d → ∀ g g', child d = .ok g → child' d = .ok g' →
      g'.StandsFor g) : e'.StandsFor e := by
  cases type with
  | struct d =>
    obtain ⟨g, hg, rfl⟩ := made_struct hmade rfl
    obtain ⟨g', hg', rfl⟩ := made_struct hmade' rfl
    exact .struct (hchild d rfl g g' hg hg')
  | primitive q => cases hmade; cases hmade'; exact .scalar _
  | pointer r => cases hmade; cases hmade'; exact .scalar _
  | enum k q => cases hmade; cases hmade'; exact .scalar _
  | managed name => cases hmade

/-- Spots of one declaration are made of elements that stand for each other. -/
theorem Laid.standsFor (laid : Laid c o child key s rule ts p f)
    (laid' : Laid c' o child' key s rule' ts' p' f') {t t' : Spot} (ht : t ∈ ts) (ht' : t' ∈ ts')
    (hdecl : t'.decl = t.decl) (hbind : c'.bind t.decl.type key = .ok t.type)
    (hchild : ∀ d, t.type = .struct d → ∀ g g', child d = .ok g → child' d = .ok g' →
      g'.StandsFor g) : t'.element.StandsFor t.element := by
  obtain ⟨_, _, hstep⟩ := laid.run.exists_step ht
  obtain ⟨_, _, hstep'⟩ := laid'.run.exists_step ht'
  have hbound := hstep'.bound
  rw [hdecl, hbind] at hbound
  have hmade' := hstep'.made
  rw [← Except.ok.inj hbound] at hmade'
  exact standsFor_of_made hstep.made hmade' hchild

/-- What takes as much is put at the same offset. -/
theorem Laid.meets_of_standsFor (laid : Laid c o child key s rule ts p f)
    (laid' : Laid c' o child' key s rule' ts' p' f')
    (hbind : ∀ t ∈ ts, c'.bind t.decl.type key = .ok t.type)
    (helement : ∀ t ∈ ts, ∀ t' ∈ ts', t'.decl = t.decl → t'.element.StandsFor t.element) :
    List.Forall₂ Spot.Meets ts ts' := by
  have hpieces : ts.map Spot.piece = ts'.map Spot.piece := by
    have hslots : ts.map Spot.slot = ts'.map Spot.slot := laid.slots.symm.trans laid'.slots
    rw [← List.forall₂_eq_eq_eq, List.forall₂_map_left_iff, List.forall₂_map_right_iff,
      List.forall₂_iff_zip] at hslots ⊢
    refine ⟨hslots.1, fun {t t'} hmem => ?_⟩
    obtain ⟨ht, ht'⟩ := List.of_mem_zip hmem
    obtain ⟨hdecl, -⟩ := Slot.field.inj (hslots.2 hmem)
    obtain ⟨_, _, hstep⟩ := laid.run.exists_step ht
    obtain ⟨_, _, hstep'⟩ := laid'.run.exists_step ht'
    rw [hstep.filled.piece_eq, hstep'.filled.piece_eq, ← hdecl,
      (helement t ht t' ht' hdecl.symm).piece_eq]
  have hrule : rule' = rule := Except.ok.inj (laid'.ruled.symm.trans laid.ruled)
  refine meets_of_placed laid laid' hbind ?_
  rw [laid.exact.1, laid'.exact.1, hpieces, hrule]

/-- **A container has the same fields** as before if the structs that it contains stand for those
that it contained. -/
theorem Laid.fields_of_standsFor (laid : Laid c o child key s rule ts p f)
    (laid' : Laid c' o child' key s rule' ts' p' f') (hinline : o.inlineNested = true)
    (hbind : ∀ t ∈ ts, c'.bind t.decl.type key = .ok t.type)
    (hchild : ∀ t ∈ ts, ∀ d, t.type = .struct d → ∀ g g', child d = .ok g → child' d = .ok g' →
      g'.StandsFor g) :
    f'.fields.map PlacedMember.toField = f.fields.map PlacedMember.toField := by
  have helement : ∀ t ∈ ts, ∀ t' ∈ ts', t'.decl = t.decl → t'.element.StandsFor t.element :=
    fun t ht t' ht' hdecl => laid.standsFor laid' ht ht' hdecl (hbind t ht) (hchild t ht)
  have hmeets := laid.meets_of_standsFor laid' hbind helement
  rw [laid.fields_eq, laid'.fields_eq, List.map_flatMap, List.map_flatMap]
  refine flatMap_eq_of_forall₂ hmeets fun t ht t' ht' hmeet => ?_
  obtain ⟨q, _, hstep, -, hunion⟩ := laid.run.exists_step_within ht
  obtain ⟨q', _, hstep', -, hunion'⟩ := laid'.run.exists_step_within ht'
  have hrole : q'.plainRole = q.plainRole := by
    rw [Placement.plainRole, Placement.plainRole, hunion, hunion']
    rfl
  exact hmeet.fields_eq hstep.filled (hrole ▸ hstep'.filled) hinline
    (helement t ht t' ht' hmeet.decl)

end

section

variable {c c' : Catalog} {o : Options} {key : QualName}

/-- **A container stands for what it was** if all structs that it contains do. -/
theorem exists_standsFor_of_laid {s : StructDecl} {rule : LayoutRule} {ts : List Spot}
    {p : Placement} {f : FlatStruct} (laid : Laid c o (c.answer o) key s rule ts p f)
    (hs : c'.struct? key = some s) (hinline : o.inlineNested = true)
    (hbind : ∀ t ∈ ts, c'.bind t.decl.type key = .ok t.type)
    (hchild : ∀ t ∈ ts, ∀ d, t.type = .struct d → ∀ g, c.answer o d = .ok g →
      ∃ g', c'.answer o d = .ok g' ∧ g'.StandsFor g) :
    ∃ f', c'.answer o key = .ok f' ∧ f'.StandsFor f := by
  have hstands : ∀ t ∈ ts, ∀ d, t.type = .struct d → ∀ g g', c.answer o d = .ok g →
      c'.answer o d = .ok g' → g'.StandsFor g := by
    intro t ht d htype g g' hg hg'
    obtain ⟨g'', hg'', hstands⟩ := hchild t ht d htype g hg
    obtain rfl := Except.ok.inj (hg'.symm.trans hg'')
    exact hstands
  have hunrenamed : Unrenamed (c.answer o) (c'.answer o) ts s s :=
    ⟨rfl, laid.slots ▸ namedAgain_self ts, fun t ht d htype g g' hg hg' =>
      (hstands t ht d htype g g' hg hg').covers⟩
  obtain ⟨f', hf', hfootprint, hcovers⟩ := laid.alike hs rfl rfl (laid.slots ▸ redone_self ts) hbind
    (fun t ht d htype g hg => by
      obtain ⟨g', hg', hstands⟩ := hchild t ht d htype g hg
      exact ⟨g', hg', hstands.footprint, within_of_answer hg'⟩) (.inl hunrenamed)
  obtain ⟨s', rule', ts', p', hs', laid'⟩ := Catalog.exists_laid_of_answer hf'
  obtain rfl := Option.some.inj (hs.symm.trans hs')
  exact ⟨f', hf', hfootprint, laid.fields_of_standsFor laid' hinline hbind hstands,
    hcovers hunrenamed⟩

/-! ### The struct that is exchanged -/

theorem Laid.fields_of_restored {child : QualName → Except LayoutError FlatStruct} {s : StructDecl}
    {rule : LayoutRule} {ts : List Spot} {p : Placement} {f : FlatStruct}
    (laid : Laid c o child key s rule ts p f) {ms : List PlacedMember}
    (hrestored : List.Forall₂ (Restored o.pointerWidth) ms ts) :
    f.fields.map PlacedMember.toField = ms.map PlacedMember.toField := by
  have hfields : f.fields = f.members := by
    refine List.filter_eq_self.2 fun m hm => ?_
    rw [laid.members_eq] at hm
    rw [isAccessor_of_restored hrestored hm]
    rfl
  rw [hfields, laid.members_eq, toField_of_restored hrestored]

/-- **The flat declaration of a struct stands for it**, if the struct is not anonymous, its types
mean the same everywhere, and it has no empty buffer without a native form. -/
theorem exists_standsFor_of_decl {f : FlatStruct} (h : c.answer o key = .ok f)
    (hinline : o.inlineNested = true)
    (hleaves : ∀ d g type, ReflTransGen c.Contains key d → c.HasField d g →
      c.bind g.type d = .ok type → type.isFixed = true ∨ type.isStruct = true)
    (hcounts : ∀ d g type, ReflTransGen c.Contains key d → c.HasField d g →
      c.bind g.type d = .ok type → g.fixedCount = some 0 → type.isBufferElement = true)
    (hnamed : f.markers.anonymous = false) (hdecl : c'.struct? key = some f.decl) :
    ∃ f', c'.answer o key = .ok f' ∧ f'.StandsFor f := by
  obtain ⟨hlayout, hmarkers⟩ := layout_of_answer h
  obtain ⟨rule, ts, p, f', laid, hf', hfootprint, hrestored⟩ :=
    answer_of_redeclared hdecl hlayout hmarkers (redeclared_of_answer h) (nodup_fields_of_answer h)
      (fits_of_meant h (bind_of_leaves hleaves c') hcounts)
      (largest_of_meant h (bind_of_leaves hleaves c') hcounts hinline)
  refine ⟨f', hf', hfootprint, laid.fields_of_restored hrestored, ?_, ?_⟩
  · rw [laid.markers_eq, hmarkers, hnamed]
    rfl
  · rw [laid.members_eq]
    exact covers_of_restored hrestored

/-- **Flattening is modular.** Where nested structs are spread, take a struct that can be flattened
and a struct `k` that it contains, at any depth. Let `k` not be anonymous, and have only primitive
types and pointers in it at the bottom and no empty buffer without a native form. Then `k` can be
flattened; and if it is declared by its flat declaration, and everything else as before, then the
container can still be flattened, takes as much and asks for the same alignment, and has the same
fields in the same order, with the same names, types, counts, offsets and modifiers. -/
theorem flatten_exchanged {f : FlatStruct} {k : QualName} (calls : List Call)
    (hinline : o.inlineNested = true)
    (h : outcome (Bench.flatten c o key) (Workbench.afterCalls c o calls) = .ok f)
    (hk : ReflTransGen c.Contains key k)
    (hnamed : ∀ s, c.struct? k = some s → s.markers.anonymous = false)
    (hleaves : ∀ d g type, ReflTransGen c.Contains k d → c.HasField d g →
      c.bind g.type d = .ok type → type.isFixed = true ∨ type.isStruct = true)
    (hcounts : ∀ d g type, ReflTransGen c.Contains k d → c.HasField d g →
      c.bind g.type d = .ok type → g.fixedCount = some 0 → type.isBufferElement = true) :
    ∃ g, c.flatten o k = .ok g ∧ ∀ c', c.Exchanged c' k g.decl → ∀ calls',
      ∃ f', outcome (Bench.flatten c' o key) (Workbench.afterCalls c' o calls') = .ok f' ∧
        f'.footprint = f.footprint ∧
        f'.fields.map (fun m => (m.name, m.type, m.fixedCount, m.offset, m.modifiers)) =
          f.fields.map (fun m => (m.name, m.type, m.fixedCount, m.offset, m.modifiers)) := by
  rw [outcome_flatten_eq_answer] at h
  obtain ⟨g, hg⟩ := Catalog.exists_answer_of_reachable h hk
  obtain ⟨sk, _, _, _, hsk, laidk⟩ := Catalog.exists_laid_of_answer hg
  refine ⟨g, (flatten_eq_answer c o k).trans hg, fun c' hexchanged calls' => ?_⟩
  have hdeclared : (c.struct? k).isSome := by rw [hsk]; rfl
  obtain ⟨f', hf', hstands⟩ : ∃ f', c'.answer o key = .ok f' ∧ f'.StandsFor f := by
    refine Catalog.answer_induction (motive := fun _ key f =>
      ∃ f', c'.answer o key = .ok f' ∧ f'.StandsFor f) ?_ h
    intro _ key s rule ts p f hs laid ih
    by_cases hkey : key = k
    · subst hkey
      have hf := Catalog.answer_of_layoutFrom hs laid.computed
      obtain rfl := Except.ok.inj (hg.symm.trans hf)
      refine exists_standsFor_of_decl hg hinline hleaves hcounts ?_ hexchanged.struct
      rw [laid.markers_eq, hnamed s hs]
    · refine exists_standsFor_of_laid laid ((hexchanged.others key hkey).trans hs) hinline
        (fun t ht => ?_) fun t ht d htype g hg => ?_
      · rw [hexchanged.bind_eq hdeclared, laid.bound ht]
      · exact ih d g ((laid.contains_iff hs).2 ⟨t, ht, htype⟩) hg
  refine ⟨f', by rw [outcome_flatten_eq_answer, hf'], hstands.footprint, ?_⟩
  have hshape := congrArg (List.map fun g : FieldDecl =>
    (g.name, g.type, g.fixedCount, g.offset.getD 0, g.modifiers)) hstands.fields
  rwa [List.map_map, List.map_map] at hshape

/-- Here the theorem says that the outermost struct has its seven fields where they were, when the
struct in the middle is declared by its flat declaration, in which nothing is nested and accessors
stand for what was. -/
theorem flatten_exchanged_nested :
    ∃ g, nestedCatalog.flatten (.ofPointerWidth 8) ⟨"Middle"⟩ = .ok g ∧
      g.decl.accessors.length = 2 ∧
      let c' := nestedCatalog.exchange ⟨"Middle"⟩ g.decl
      ∃ f', outcome (Bench.flatten c' (.ofPointerWidth 8) ⟨"Outer"⟩)
          (Workbench.afterCalls c' (.ofPointerWidth 8) [.flatten ⟨"Middle"⟩]) = .ok f' ∧
        f'.footprint = ⟨56, 8⟩ ∧
        f'.fields.map (fun m => (m.name, m.offset)) =
          [("lead", 0), ("middle_flag", 8), ("middle_handles_slots_Start", 16),
            ("middle_handles_tag", 32), ("middle_whole", 40), ("middle_half", 40),
            ("last", 48)] := by
  have hall : nestedCatalog.allFields (fun g type =>
      (type.isFixed || type.isStruct) && g.fixedCount != some 0) = true := by decide +kernel
  have hfields : ∀ d g type, nestedCatalog.HasField d g → nestedCatalog.bind g.type d = .ok type →
      (type.isFixed = true ∨ type.isStruct = true) ∧ g.fixedCount ≠ some 0 := by
    intro d g type hg hbind
    simpa using Catalog.of_allFields hall hg hbind
  have hbind : nestedCatalog.bind (.named "Middle") ⟨"Outer"⟩ = .ok (.struct ⟨"Middle"⟩) := by
    decide +kernel
  have hcontains : nestedCatalog.Contains ⟨"Outer"⟩ ⟨"Middle"⟩ :=
    ⟨_, rfl, .ofNames (.named "Middle") ["middle"], 1, List.mem_of_getElem? (i := 1) rfl, hbind⟩
  have hnamed : ∀ s, nestedCatalog.struct? ⟨"Middle"⟩ = some s → s.markers.anonymous = false := by
    intro s hs
    obtain rfl := Option.some.inj hs
    rfl
  have hmiddle : ∃ g, nestedCatalog.flatten (.ofPointerWidth 8) ⟨"Middle"⟩ = .ok g ∧
      g.decl.accessors.length = 2 := by decide +kernel
  have houter : ∃ f, outcome (Bench.flatten nestedCatalog (.ofPointerWidth 8) ⟨"Outer"⟩)
        (Workbench.afterCalls nestedCatalog (.ofPointerWidth 8) []) = .ok f ∧
      f.footprint = ⟨56, 8⟩ ∧
      f.fields.map (fun m => (m.name, m.offset)) =
        [("lead", 0), ("middle_flag", 8), ("middle_handles_slots_Start", 16),
          ("middle_handles_tag", 32), ("middle_whole", 40), ("middle_half", 40), ("last", 48)] := by
    decide +kernel
  obtain ⟨g, hg, haccessors⟩ := hmiddle
  obtain ⟨f, hf, hfootprint, hnames⟩ := houter
  refine ⟨g, hg, haccessors, ?_⟩
  obtain ⟨g', hg', hexchanged⟩ := flatten_exchanged [] rfl hf (.single hcontains) hnamed
    (fun d g type _ hg hbind => (hfields d g type hg hbind).1)
    (fun d g type _ hg hbind hzero => absurd hzero (hfields d g type hg hbind).2)
  obtain rfl := Except.ok.inj (hg.symm.trans hg')
  obtain ⟨f', hf', hsame, hplaces⟩ := hexchanged _ (Catalog.exchanged_exchange rfl g.decl)
    [.flatten ⟨"Middle"⟩]
  have hshape := congrArg (List.map fun m => (m.1, m.2.2.2.1)) hplaces
  rw [List.map_map, List.map_map] at hshape
  exact ⟨f', hf', hsame.trans hfootprint, hshape.trans hnames⟩

end

end FlatLayout
