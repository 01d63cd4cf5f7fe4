import FlatLayout.Proofs.Reflattening
import FlatLayout.Proofs.Resemblance
import FlatLayout.Proofs.Rewriting

/-!
# Structs that were not asked for

Flattening a project replaces the marked structs of its primary unit. All other structs stay in the
unit, but not as they are: every marker is gone, and anonymous types are left out. A struct is laid
out in the new unit as it was in the old one if nothing is lost that its size and its alignment
depend on. What that is, is put down struct by struct in `Project.Spares`:

* a struct has no marker that makes it a union;
* what its fields refer to is not left out;
* a struct that was flattened has the same footprint when its flat declaration is laid out.

The last one asks for what `reflatten_eq` promises of a flat declaration, here of one whose fields
have lost their markers as well: where nested structs are spread, it holds by itself for structs of
primitive types and pointers.

The conditions go down the contained structs and stop at a flattened one, since what is in there is
spread out and not looked up any more.

## Names

The members of a contained struct may have other names afterwards, and there may be fewer of them: a
struct that was flattened has no accessors any more. All that a name can do is to be used twice.
This does not happen where no struct loses a marker that decides over names, `Project.KeepsNames`;
elsewhere it has to be ruled out.

## Main definitions

* `Project.rewrittenCatalog` — the declarations after flattening
* `Project.Spares` — nothing is lost that the footprint of a struct depends on
* `Project.KeepsNames` — nothing is lost that the names in a struct depend on

## Main results

* `SourceUnit.RewrittenAs.narrows` — no name means more than it did
* `covers_of_cleared` — the names in a flat declaration are among those in the flat struct
* `footprint_of_cleared` — a flat declaration keeps the footprint, whatever markers it has lost
* `Project.FlattensTo.flat_of_leaves` — so does a struct that was flattened, in the new unit
* `flatten_rewritten` — a struct that was not asked for keeps its size and its alignment
-/

namespace FlatLayout

open Relation

/-! ### Names after flattening -/

/-- In the catalog `c'` the same names are tried, and none is found that was not found in `c`. -/
structure Catalog.Narrows (c c' : Catalog) : Prop where
  namespaces : c'.namespaces = c.namespaces
  undeclared : ∀ q, c.declared? q = none → c'.declared? q = none

section

variable {c c' : Catalog} {o : Options} {key : QualName} {f : FlatStruct}

theorem Catalog.Narrows.means (h : c.Narrows c') {scope k : QualName} {name : String}
    (hmeans : c.Means scope name k) (hk : c'.declared? k = c.declared? k) :
    c'.Means scope name k := by
  obtain ⟨before, after, hcandidates, hdeclared, hbefore⟩ := hmeans
  refine ⟨before, after, ?_, by rw [hk]; exact hdeclared, fun q hq => h.undeclared q (hbefore q hq)⟩
  rw [← hcandidates, candidates, candidates, h.namespaces]

/-- A name keeps its meaning if what it means is still declared: there is nothing new that could
come before. -/
theorem Catalog.Narrows.bind (h : c.Narrows c') {t : TypeRef} {scope : QualName} {type : Binding}
    (hbind : c.bind t scope = .ok type) (hmanaged : ∀ name, type ≠ .managed name)
    (hkept : ∀ k, type.declaration? = some k → c'.declared? k = c.declared? k) :
    c'.bind t scope = .ok type := by
  have hdeclared : ∀ k, type.declaration? = some k → c'.bind t scope = .ok type := fun k hk =>
    bind_of_means hbind hk (h.means (means_of_bind hbind hk) (hkept k hk)) (hkept k hk)
  cases type with
  | primitive p => exact bind_of_isFixed hbind rfl c' scope
  | pointer r => exact bind_of_isFixed hbind rfl c' scope
  | enum k p => exact hdeclared k rfl
  | struct k => exact hdeclared k rfl
  | managed name => exact absurd rfl (hmanaged name)

theorem SourceUnit.RewrittenAs.narrows {u u' : SourceUnit} (h : u.RewrittenAs c o u')
    (hknows : c.Knows u.declarations) (us : List SourceUnit) :
    (Catalog.ofUnits (u :: us)).Narrows (.ofUnits (u' :: us)) where
  namespaces := Catalog.namespaces_ofUnits_cons h.namespaceName h.imports us
  undeclared := by
    intro q hq
    rw [Catalog.declared?_ofUnits_eq_none_iff, List.forall_mem_cons] at hq ⊢
    refine ⟨fun d' hd' => ?_, hq.2⟩
    obtain ⟨d, hd, hbecomes⟩ := h.becomes hknows d' hd'
    rw [hbecomes.key_eq]
    exact hq.1 d hd

/-- A struct of the new unit is what has become of the struct with its name. -/
theorem SourceUnit.RewrittenAs.rewritten {u u' : SourceUnit} (h : u.RewrittenAs c o u')
    (hknows : c.Knows u.declarations) {s' : StructDecl} (hs' : u'.structAt? key = some s') :
    ∃ s, .struct key s ∈ u.declarations ∧ Rewritten c o key s s' := by
  obtain ⟨d, hd, hbecomes⟩ := h.becomes hknows _ (mem_of_structAt? hs')
  cases hbecomes with
  | struct rewritten => exact ⟨_, hd, rewritten⟩

/-! ### A struct that was flattened -/

theorem Redeclared.cleared {slots slots' : List Slot} {ms : List PlacedMember}
    (h : Redeclared slots ms) (hcleared : List.Forall₂ Slot.Cleared slots slots') :
    Redeclared slots' ms := by
  induction hcleared generalizing ms with
  | nil =>
    cases h
    exact .nil
  | cons first rest ih =>
    obtain ⟨m, ms, ⟨i, rfl⟩, hrest, rfl⟩ := List.forall₂_cons_left_iff.1 h
    cases first with
    | field g i j => exact .cons ⟨j, rfl⟩ (ih hrest)

/-- What the fields of a flat struct are read as has names among those of its members. -/
theorem covers_of_restored {pointerWidth : UInt32} {ms : List PlacedMember} {ts : List Spot}
    (h : List.Forall₂ (Restored pointerWidth) (ms.filter fun m => !m.isAccessor) ts) :
    Covers ms (ts.flatMap Spot.members) where
  names := by
    rw [names_of_toField (toField_of_restored h)]
    exact (List.filter_sublist.map _).subperm
  fields := by
    have hall : ((ts.flatMap Spot.members).filter fun m => !m.isAccessor) =
        ts.flatMap Spot.members :=
      List.filter_eq_self.2 fun m hm => by rw [isAccessor_of_restored h hm]; rfl
    have hlength := congrArg List.length (toField_of_restored h)
    rw [List.length_map, List.length_map] at hlength
    rw [hall, ← List.length_eq_zero_iff, ← List.length_eq_zero_iff, hlength]

/-- **The names in a flat declaration** that is laid out are among those in the flat struct, if its
fields mean what they meant. -/
theorem covers_of_cleared (h : c.answer o key = .ok f) {s' : StructDecl} {f' : FlatStruct}
    (hs' : c'.struct? key = some s') (hlayout : s'.layout = f.decl.layout)
    (hmarkers : s'.markers = .none) (hslots : List.Forall₂ Slot.Cleared f.decl.slots s'.slots)
    (hnamed : f.markers.anonymous = false) (hf' : c'.answer o key = .ok f')
    (hmeant : ∀ m ∈ f.fields, ∀ d g type, c.Origin o key m d g → c.bind g.type d = .ok type →
      c'.bind m.type key = .ok type) : f.Covers f' := by
  obtain ⟨s'', rule, ts, p, hs'', laid⟩ := Catalog.exists_laid_of_answer hf'
  obtain rfl := Option.some.inj (hs'.symm.trans hs'')
  have hrule : rule = .flat f.footprint.size := by
    have hruled := laid.ruled
    rw [hlayout, (layout_of_answer h).1] at hruled
    exact (Except.ok.inj hruled).symm
  have hredeclared := (redeclared_of_answer h).cleared hslots
  rw [laid.slots] at hredeclared
  have hrestored : List.Forall₂ (Restored o.pointerWidth) f.fields ts := by
    refine restored_of_spotRun hredeclared laid.run hrule (by rw [hmarkers]; rfl) ?_
    intro m hm type hbind
    obtain ⟨hmem, hfield⟩ := List.mem_filter.1 hm
    obtain ⟨d, g, horigin⟩ := exists_origin h hmem
    obtain ⟨type', htype'⟩ := horigin.exists_bind
    obtain rfl := Except.ok.inj (hbind.symm.trans (hmeant m hm d g type' horigin htype'))
    exact horigin.readsAs (by simpa using hfield) htype'
  refine ⟨?_, ?_⟩
  · rw [laid.markers_eq, hmarkers, hnamed]
    rfl
  · rw [laid.members_eq]
    exact covers_of_restored hrestored

/-- **A flat declaration keeps its footprint** where nested structs are spread, if its fields mean
what they meant and no buffer without a native form is empty. Its own markers and those of its
fields do not matter. -/
theorem footprint_of_cleared (h : c.answer o key = .ok f) (hinline : o.inlineNested = true)
    {s' : StructDecl} (hs' : c'.struct? key = some s') (hlayout : s'.layout = f.decl.layout)
    (hmarkers : s'.markers = .none) (hslots : List.Forall₂ Slot.Cleared f.decl.slots s'.slots)
    (hmeant : ∀ m ∈ f.fields, ∀ d g type, c.Origin o key m d g → c.bind g.type d = .ok type →
      c'.bind m.type key = .ok type)
    (hcounts : ∀ d g type, ReflTransGen c.Contains key d → c.HasField d g →
      c.bind g.type d = .ok type → g.fixedCount = some 0 → type.isBufferElement = true) :
    ∃ f', c'.answer o key = .ok f' ∧ f'.footprint = f.footprint := by
  have hredeclared := (redeclared_of_answer h).cleared hslots
  obtain ⟨_, _, _, f', -, hf', hfootprint, -⟩ :=
    answer_of_redeclared hs' (hlayout.trans (layout_of_answer h).1) hmarkers hredeclared
      (nodup_fields_of_answer h) (fits_of_meant h hmeant hcounts)
      (largest_of_meant h hmeant hcounts hinline)
  exact ⟨f', hf', hfootprint⟩

/-! ### A struct that was copied -/

theorem field_of_cleared {t : Spot} {slot : Slot} (h : Slot.Cleared t.slot slot) :
    ∃ source, slot = .field { t.decl with markers := .none } source := by
  generalize hslot : t.slot = slot₀ at h
  cases h with
  | field g i j =>
    obtain ⟨rfl, -⟩ := Slot.field.inj hslot
    exact ⟨j, rfl⟩
  | groupedBuffer g => cases hslot
  | conditional symbol => cases hslot

theorem redone_of_cleared {ts : List Spot} {slots : List Slot}
    (h : List.Forall₂ Slot.Cleared (ts.map Spot.slot) slots) :
    List.Forall₂ Spot.Redone ts slots := by
  refine (List.forall₂_map_left_iff.1 h).imp fun t slot hcleared => ?_
  obtain ⟨source, rfl⟩ := field_of_cleared hcleared
  exact ⟨_, source, rfl, rfl, rfl, rfl, rfl⟩

theorem namedAgain_of_cleared {ts : List Spot} {slots : List Slot}
    (h : List.Forall₂ Slot.Cleared (ts.map Spot.slot) slots)
    (hnamed : ∀ t ∈ ts, ∀ d, t.type = .struct d → t.decl.markers.anonymous = false) :
    List.Forall₂ Spot.NamedAgain ts slots := by
  rw [List.forall₂_map_left_iff] at h
  induction h with
  | nil => exact .nil
  | @cons t slot ts slots first rest ih =>
    obtain ⟨source, rfl⟩ := field_of_cleared first
    refine .cons ⟨_, source, rfl, fun d hd => ?_⟩ (ih fun t ht => hnamed t (.tail _ ht))
    exact (hnamed t List.mem_cons_self d hd).symm

theorem redone_self (ts : List Spot) : List.Forall₂ Spot.Redone ts (ts.map Spot.slot) := by
  rw [List.forall₂_map_right_iff, List.forall₂_same]
  exact fun t _ => ⟨t.decl, t.source, rfl, rfl, rfl, rfl, rfl⟩

theorem namedAgain_self (ts : List Spot) : List.Forall₂ Spot.NamedAgain ts (ts.map Spot.slot) := by
  rw [List.forall₂_map_right_iff, List.forall₂_same]
  exact fun t _ => ⟨t.decl, t.source, rfl, fun _ _ => rfl⟩

end

/-! ### Projects -/

namespace Project

/-- The units that are not flattened. -/
def others (p : Project) : List SourceUnit := p.auxiliary.map (·.select p.defines)

/-- The declarations after flattening. -/
def rewrittenCatalog (p : Project) (out : Outcome) : Catalog := .ofUnits (out.unit :: p.others)

/-- The struct that the primary unit declares under a name. -/
def primary? (p : Project) (d : QualName) : Option StructDecl :=
  (p.primary.select p.defines).structAt? d

/-- The struct is to be flattened. -/
def Flattens (p : Project) (d : QualName) : Prop :=
  ∃ s, p.primary? d = some s ∧ s.markers.flatten = true

/-- The struct `a` is not to be flattened, and contains `b`. -/
def Needs (p : Project) (a b : QualName) : Prop := ¬ p.Flattens a ∧ p.catalog.Contains a b

/-- Nothing is lost that the footprint of the struct `d` depends on. -/
structure Spares (p : Project) (out : Outcome) (d : QualName) : Prop where
  /-- It is not left out. -/
  declared : ∀ s, p.primary? d = some s → (out.unit.structAt? d).isSome
  /-- It is no union, unless it is flattened. -/
  union : ∀ s, p.primary? d = some s → s.markers.flatten = false → s.markers.union = false
  /-- No enumeration that a field refers to is left out. -/
  enums : ¬ p.Flattens d → ∀ g k base, p.catalog.HasField d g →
    p.catalog.bind g.type d = .ok (.enum k base) →
      (p.rewrittenCatalog out).declared? k = p.catalog.declared? k
  /-- Its flat declaration keeps the footprint. By `flat_of_leaves` this is no condition where
  nested structs are spread, with only primitive types and pointers in there at the bottom and no
  empty buffer without a native form. -/
  flat : p.Flattens d → ∀ f, p.catalog.flatten p.options d = .ok f →
    ∃ f', (p.rewrittenCatalog out).flatten p.options d = .ok f' ∧ f'.footprint = f.footprint

/-- Nothing is lost that the names of members of the struct `d` depend on. -/
structure KeepsNames (p : Project) (out : Outcome) (d : QualName) : Prop where
  /-- Its nested structs have names already. -/
  named : ∀ s, p.primary? d = some s → s.markers.flatten = false →
    ∀ g source e, Slot.field g source ∈ s.slots → p.catalog.bind g.type d = .ok (.struct e) →
      g.markers.anonymous = false
  /-- In its flat declaration the types mean what they meant. -/
  types : p.Flattens d → ∀ f, p.catalog.flatten p.options d = .ok f → ∀ m ∈ f.fields,
    ∀ e g type, p.catalog.Origin p.options d m e g → p.catalog.bind g.type e = .ok type →
      (p.rewrittenCatalog out).bind m.type d = .ok type

/-- The same for all structs that the struct `key` needs. -/
def KeepsAllNames (p : Project) (out : Outcome) (key : QualName) : Prop :=
  ∀ d, ReflTransGen p.Needs key d → p.KeepsNames out d

end Project

section

variable {p : Project} {out : Outcome} {key : QualName} {f : FlatStruct}

theorem struct?_catalog (p : Project) (k : QualName) :
    p.catalog.struct? k = (p.primary? k).or ((Catalog.ofUnits p.others).struct? k) :=
  Catalog.struct?_ofUnits_cons _ _ k

theorem struct?_of_primary {k : QualName} {s : StructDecl} (h : p.primary? k = some s) :
    p.catalog.struct? k = some s := by
  rw [struct?_catalog, h, Option.some_or]

theorem struct?_rewrittenCatalog (p : Project) (out : Outcome) (k : QualName) :
    (p.rewrittenCatalog out).struct? k =
      (out.unit.structAt? k).or ((Catalog.ofUnits p.others).struct? k) :=
  Catalog.struct?_ofUnits_cons _ _ k

theorem knows_primary (h : (p.primary.select p.defines).structKeys.Nodup) :
    p.catalog.Knows (p.primary.select p.defines).declarations := knows_ofUnits h p.others

/-- What is known of a project that was flattened. -/
structure Project.FlattensTo (p : Project) (out : Outcome) : Prop where
  narrows : p.catalog.Narrows (p.rewrittenCatalog out)
  structs : ∀ k s', out.unit.structAt? k = some s' →
    ∃ s, p.primary? k = some s ∧ FlatLayout.Rewritten p.catalog p.options k s s'

theorem flattensTo_of_run (hrun : p.run.1 = .ok out)
    (hdistinct : (p.primary.select p.defines).structKeys.Nodup) : p.FlattensTo out := by
  have hknows := knows_primary hdistinct
  have hpair : p.run = (.ok out, p.run.2) := Prod.ext hrun rfl
  have hunit := rewrittenAs_of_run hpair
  refine ⟨hunit.narrows hknows p.others, fun k s' hs' => ?_⟩
  obtain ⟨s, hs, hrewritten⟩ := hunit.rewritten hknows hs'
  exact ⟨s, structAt?_of_mem hdistinct hs, hrewritten⟩

namespace Project.FlattensTo

/-- A struct that nothing happened to is where it was. -/
theorem struct?_of_other (h : p.FlattensTo out) (hother : p.primary? key = none) :
    (p.rewrittenCatalog out).struct? key = p.catalog.struct? key := by
  have hnone : out.unit.structAt? key = none := by
    cases hs' : out.unit.structAt? key with
    | none => rfl
    | some s' =>
      obtain ⟨s, hs, -⟩ := h.structs key s' hs'
      cases hother.symm.trans hs
  rw [struct?_rewrittenCatalog, struct?_catalog, hnone, hother]

/-- A struct of the primary unit that is not left out is what has become of it. -/
theorem exists_rewritten (h : p.FlattensTo out) (hkept : (out.unit.structAt? key).isSome)
    {s : StructDecl} (hs : p.primary? key = some s) :
    ∃ s', (p.rewrittenCatalog out).struct? key = some s' ∧
      FlatLayout.Rewritten p.catalog p.options key s s' := by
  obtain ⟨s', hs'⟩ := Option.isSome_iff_exists.1 hkept
  obtain ⟨s₀, hs₀, hrewritten⟩ := h.structs key s' hs'
  obtain rfl := Option.some.inj (hs.symm.trans hs₀)
  exact ⟨s', by rw [struct?_rewrittenCatalog, hs', Option.some_or], hrewritten⟩

/-- A struct that was flattened and is not left out is declared by its flat declaration, up to
markers of fields. -/
theorem exists_cleared (h : p.FlattensTo out) (hkept : (out.unit.structAt? key).isSome)
    (hmarked : p.Flattens key) (hf : p.catalog.answer p.options key = .ok f) :
    ∃ s', (p.rewrittenCatalog out).struct? key = some s' ∧ s'.layout = f.decl.layout ∧
      s'.markers = .none ∧ List.Forall₂ Slot.Cleared f.decl.slots s'.slots ∧
      f.markers.anonymous = false := by
  obtain ⟨s, hs, hflatten⟩ := hmarked
  obtain ⟨s', hstruct, t, inner, hshell, hinside, rfl⟩ := h.exists_rewritten hkept hs
  cases hshell with
  | copied _ unmarked => cases unmarked.symm.trans hflatten
  | @flattened f₀ named _ flat =>
    obtain rfl := Except.ok.inj (hf.symm.trans flat)
    refine ⟨_, hstruct, rfl, (layout_of_answer hf).2, hinside.slots 0 0, ?_⟩
    obtain ⟨s₁, rule, ts, q, hs₁, laid⟩ := Catalog.exists_laid_of_answer hf
    obtain rfl := Option.some.inj ((struct?_of_primary hs).symm.trans hs₁)
    rw [laid.markers_eq, named]

/-- **A struct that was flattened keeps its footprint** where nested structs are spread, if there
are only primitive types and pointers in it at the bottom and no empty buffer without a native form.
So `Project.Spares.flat` asks for nothing more than `reflatten_eq` promises. -/
theorem flat_of_leaves (h : p.FlattensTo out) (hinline : p.options.inlineNested = true)
    (hkept : (out.unit.structAt? key).isSome)
    (hleaves : ∀ d g type, ReflTransGen p.catalog.Contains key d → p.catalog.HasField d g →
      p.catalog.bind g.type d = .ok type → type.isFixed = true ∨ type.isStruct = true)
    (hcounts : ∀ d g type, ReflTransGen p.catalog.Contains key d → p.catalog.HasField d g →
      p.catalog.bind g.type d = .ok type → g.fixedCount = some 0 → type.isBufferElement = true)
    (hmarked : p.Flattens key) (hf : p.catalog.flatten p.options key = .ok f) :
    ∃ f', (p.rewrittenCatalog out).flatten p.options key = .ok f' ∧
      f'.footprint = f.footprint := by
  simp only [flatten_eq_answer] at hf ⊢
  obtain ⟨s', hs', hlayout, hmarkers, hslots, -⟩ := h.exists_cleared hkept hmarked hf
  exact footprint_of_cleared hf hinline hs' hlayout hmarkers hslots
    (bind_of_leaves hleaves (p.rewrittenCatalog out)) hcounts

/-- A struct that is not left out is still a struct. -/
theorem declared?_of_spares (h : p.FlattensTo out) {d : QualName} (hspares : p.Spares out d)
    {s : StructDecl} (hs : p.catalog.struct? d = some s) :
    (p.rewrittenCatalog out).declared? d = p.catalog.declared? d := by
  obtain ⟨s', hs'⟩ : ∃ s', (p.rewrittenCatalog out).struct? d = some s' := by
    cases hprimary : p.primary? d with
    | none => exact ⟨s, (h.struct?_of_other hprimary).trans hs⟩
    | some s₀ =>
      obtain ⟨s', hs', -⟩ := h.exists_rewritten (hspares.declared s₀ hprimary) hprimary
      exact ⟨s', hs'⟩
  rw [Catalog.declared?_of_struct? hs, Catalog.declared?_of_struct? hs']

/-- The type of a field means what it meant. -/
theorem bind_of_spares (h : p.FlattensTo out) (hspares : p.Spares out key)
    (hcopied : ¬ p.Flattens key) {g : FieldDecl} {type : Binding}
    (hg : p.catalog.HasField key g) (hbind : p.catalog.bind g.type key = .ok type)
    (hmanaged : ∀ name, type ≠ .managed name)
    (hcontained : ∀ d, type = .struct d → p.Spares out d ∧ ∃ s, p.catalog.struct? d = some s) :
    (p.rewrittenCatalog out).bind g.type key = .ok type := by
  refine h.narrows.bind hbind hmanaged fun k hk => ?_
  cases type with
  | enum q base =>
    obtain rfl := Option.some.inj hk
    exact hspares.enums hcopied g q base hg hbind
  | struct q =>
    obtain rfl := Option.some.inj hk
    obtain ⟨hspared, s, hs⟩ := hcontained q rfl
    exact h.declared?_of_spares hspared hs
  | primitive q => cases hk
  | pointer r => cases hk
  | managed name => cases hk

/-- The names in a struct that was flattened are among those that were in it. -/
theorem covers_of_flattens (h : p.FlattensTo out) (hspares : p.Spares out key)
    (hmarked : p.Flattens key) (hkeeps : p.KeepsNames out key) {f' : FlatStruct}
    (hf : p.catalog.answer p.options key = .ok f)
    (hf' : (p.rewrittenCatalog out).answer p.options key = .ok f') : f.Covers f' := by
  have hmeant := hkeeps.types hmarked f ((flatten_eq_answer ..).trans hf)
  obtain ⟨s, hs, hflatten⟩ := hmarked
  obtain ⟨s', hs', hlayout, hmarkers, hslots, hnamed⟩ :=
    h.exists_cleared (hspares.declared s hs) ⟨s, hs, hflatten⟩ hf
  exact covers_of_cleared hf hs' hlayout hmarkers hslots hnamed hf' hmeant

/-- A struct that was not flattened has the same fields, up to markers. -/
theorem exists_redone (h : p.FlattensTo out) (hspares : p.Spares out key)
    (hcopied : ¬ p.Flattens key) {s : StructDecl} {rule : LayoutRule} {ts : List Spot}
    {q : Placement} (hs : p.catalog.struct? key = some s)
    (laid : Laid p.catalog p.options (p.catalog.answer p.options) key s rule ts q f) :
    ∃ s', (p.rewrittenCatalog out).struct? key = some s' ∧ s'.layout = s.layout ∧
      s'.markers.union = s.markers.union ∧ s'.markers.anonymous = s.markers.anonymous ∧
      List.Forall₂ Spot.Redone ts s'.slots ∧
      (p.KeepsNames out key → List.Forall₂ Spot.NamedAgain ts s'.slots) := by
  cases hprimary : p.primary? key with
  | none =>
    refine ⟨s, (h.struct?_of_other hprimary).trans hs, rfl, rfl, rfl, ?_, fun _ => ?_⟩
    · exact laid.slots ▸ redone_self ts
    · exact laid.slots ▸ namedAgain_self ts
  | some s₀ =>
    obtain rfl := Option.some.inj ((struct?_of_primary hprimary).symm.trans hs)
    obtain ⟨s', hstruct, t, inner, hshell, hinside, rfl⟩ :=
      h.exists_rewritten (hspares.declared s₀ hprimary) hprimary
    cases hshell with
    | flattened _ marked _ => exact absurd ⟨s₀, hprimary, marked⟩ hcopied
    | copied named unmarked =>
      have hcleared : List.Forall₂ Slot.Cleared (ts.map Spot.slot) (memberSlots 0 inner) :=
        laid.slots ▸ hinside.slots 0 0
      refine ⟨_, hstruct, rfl, (hspares.union s₀ hprimary unmarked).symm, named.symm,
        redone_of_cleared hcleared, fun hkeeps => ?_⟩
      refine namedAgain_of_cleared hcleared fun t ht d htype => ?_
      refine hkeeps.named s₀ hprimary unmarked t.decl t.source d ?_ ?_
      · exact laid.field_mem_slots_iff.2 ⟨t, ht, rfl, rfl⟩
      · rw [laid.bound ht, htype]

/-- A struct that was not flattened is laid out alike, if the contained ones are. -/
theorem alike_of_needs (h : p.FlattensTo out) (hspares : p.Spares out key)
    (hcopied : ¬ p.Flattens key) {s : StructDecl} {rule : LayoutRule} {ts : List Spot}
    {q : Placement} (hs : p.catalog.struct? key = some s)
    (laid : Laid p.catalog p.options (p.catalog.answer p.options) key s rule ts q f)
    (hcontained : ∀ d, p.catalog.Contains key d → p.Spares out d ∧
      Resized (p.catalog.answer p.options) ((p.rewrittenCatalog out).answer p.options) d ∧
        (p.KeepsAllNames out d →
          Covered (p.catalog.answer p.options) ((p.rewrittenCatalog out).answer p.options) d))
    (hnames : p.KeepsAllNames out key ∨ ∀ struct name,
      (p.rewrittenCatalog out).answer p.options key ≠ .error (.duplicateMember struct name)) :
    ∃ f', (p.rewrittenCatalog out).answer p.options key = .ok f' ∧ f'.footprint = f.footprint ∧
      (p.KeepsAllNames out key → f.Covers f') := by
  have hcontains : ∀ t ∈ ts, ∀ d, t.type = .struct d → p.catalog.Contains key d :=
    fun t ht d htype => (laid.contains_iff hs).2 ⟨t, ht, htype⟩
  have hbind : ∀ t ∈ ts, (p.rewrittenCatalog out).bind t.decl.type key = .ok t.type := by
    intro t ht
    obtain ⟨_, _, hstep⟩ := laid.run.exists_step ht
    refine h.bind_of_spares hspares hcopied ⟨s, t.source, hs, ?_⟩ hstep.bound hstep.not_managed ?_
    · exact laid.field_mem_slots_iff.2 ⟨t, ht, rfl, rfl⟩
    · intro d htype
      obtain ⟨flat, hflat, -⟩ := made_struct hstep.made htype
      obtain ⟨s', _, _, _, hs', -⟩ := Catalog.exists_laid_of_answer hflat
      exact ⟨(hcontained d (hcontains t ht d htype)).1, s', hs'⟩
  obtain ⟨s', hs', hlayout, hunion, hanonymous, hredone, hagain⟩ :=
    h.exists_redone hspares hcopied hs laid
  have hunrenamed : p.KeepsAllNames out key → Unrenamed (p.catalog.answer p.options)
      ((p.rewrittenCatalog out).answer p.options) ts s s' := by
    refine fun hkeeps => ⟨hanonymous, hagain (hkeeps key .refl), fun t ht d htype => ?_⟩
    have hd := hcontains t ht d htype
    exact (hcontained d hd).2.2 fun e he => hkeeps e (.head ⟨hcopied, hd⟩ he)
  obtain ⟨f', hf', hfootprint, hcovers⟩ := laid.alike hs' hlayout hunion hredone hbind
    (fun t ht d htype => (hcontained d (hcontains t ht d htype)).2.1) (hnames.imp_left hunrenamed)
  exact ⟨f', hf', hfootprint, hcovers ∘ hunrenamed⟩

/-- What can be flattened before is laid out alike afterwards. -/
theorem alike (h : p.FlattensTo out) (hf : p.catalog.answer p.options key = .ok f)
    (hspares : ∀ d, ReflTransGen p.Needs key d → p.Spares out d)
    (hnames : ∀ d, ReflTransGen p.Needs key d → p.KeepsAllNames out d ∨ ∀ struct name,
      (p.rewrittenCatalog out).answer p.options d ≠ .error (.duplicateMember struct name)) :
    ∃ f', (p.rewrittenCatalog out).answer p.options key = .ok f' ∧ f'.footprint = f.footprint ∧
      (p.KeepsAllNames out key → f.Covers f') := by
  refine Catalog.answer_induction (motive := fun _ key f =>
    (∀ d, ReflTransGen p.Needs key d → p.Spares out d) →
    (∀ d, ReflTransGen p.Needs key d → p.KeepsAllNames out d ∨ ∀ struct name,
      (p.rewrittenCatalog out).answer p.options d ≠ .error (.duplicateMember struct name)) →
      ∃ f', (p.rewrittenCatalog out).answer p.options key = .ok f' ∧
        f'.footprint = f.footprint ∧ (p.KeepsAllNames out key → f.Covers f')) ?_ hf hspares hnames
  intro _ key s rule ts q f hs laid ih hspares hnames
  by_cases hmarked : p.Flattens key
  · have hf := Catalog.answer_of_layoutFrom hs laid.computed
    obtain ⟨f', hf', hfootprint⟩ :=
      (hspares key .refl).flat hmarked f ((flatten_eq_answer ..).trans hf)
    rw [flatten_eq_answer] at hf'
    exact ⟨f', hf', hfootprint, fun hkeeps =>
      h.covers_of_flattens (hspares key .refl) hmarked (hkeeps key .refl) hf hf'⟩
  · refine h.alike_of_needs (hspares key .refl) hmarked hs laid (fun d hd => ?_) (hnames key .refl)
    have hneeds : ∀ e, ReflTransGen p.Needs d e → ReflTransGen p.Needs key e :=
      fun e he => .head ⟨hmarked, hd⟩ he
    have hbelow := fun g hg =>
      ih d g hd hg (fun e he => hspares e (hneeds e he)) fun e he => hnames e (hneeds e he)
    refine ⟨hspares d (hneeds d .refl), fun g hg => ?_, fun hkeeps g g' hg hg' => ?_⟩
    · obtain ⟨g', hg', hfootprint, -⟩ := hbelow g hg
      exact ⟨g', hg', hfootprint, within_of_answer hg'⟩
    · obtain ⟨g'', hg'', -, hcovers⟩ := hbelow g hg
      obtain rfl := Except.ok.inj (hg'.symm.trans hg'')
      exact hcovers hkeeps

end Project.FlattensTo

/-- **A struct that was not asked for keeps its size and its alignment.** Take a project whose
primary unit declares no struct twice, and the unit that flattening it yields. A struct that can be
flattened before can be flattened afterwards, and has the same footprint, if nothing is lost that
its footprint depends on and if no name is used twice. The latter is certain where nothing is lost
that names depend on. -/
theorem flatten_rewritten (hdistinct : (p.primary.select p.defines).structKeys.Nodup)
    (hrun : p.run.1 = .ok out) (hf : p.catalog.flatten p.options key = .ok f)
    (hspares : ∀ d, ReflTransGen p.Needs key d → p.Spares out d)
    (hnames : ∀ d, ReflTransGen p.Needs key d → p.KeepsAllNames out d ∨ ∀ struct name,
      (p.rewrittenCatalog out).flatten p.options d ≠ .error (.duplicateMember struct name)) :
    ∃ f', (p.rewrittenCatalog out).flatten p.options key = .ok f' ∧
      f'.footprint = f.footprint := by
  simp only [flatten_eq_answer] at hf hnames ⊢
  obtain ⟨f', hf', hfootprint, -⟩ := (flattensTo_of_run hrun hdistinct).alike hf hspares hnames
  exact ⟨f', hf', hfootprint⟩

/-! ### Losing nothing, by computation -/

/-- A check of all structs, for projects in which no field refers to an enumeration, has a marker or
is an empty buffer. -/
def Project.sparesAll (p : Project) (out : Outcome) : Bool :=
  p.catalog.allFields (fun g type =>
      (type.isFixed || type.isStruct) && !g.markers.anonymous && g.fixedCount != some 0) &&
    p.catalog.structs.all fun e => (p.primary? e.1).isNone ||
      (out.unit.structAt? e.1).isSome && (e.2.markers.flatten || !e.2.markers.union)

section

variable {d : QualName}

theorem struct_of_sparesAll (h : p.sparesAll out = true) {s : StructDecl}
    (hs : p.primary? d = some s) :
    p.catalog.struct? d = some s ∧ (out.unit.structAt? d).isSome ∧
      (s.markers.flatten = false → s.markers.union = false) := by
  have hstruct := struct?_of_primary hs
  have hcheck := List.all_eq_true.1 (Bool.and_eq_true_iff.1 h).2 _
    (Catalog.mem_structs_of_struct? hstruct)
  simp only [hs, Option.isNone_some, Bool.false_or, Bool.and_eq_true] at hcheck
  refine ⟨hstruct, hcheck.1, fun hunmarked => ?_⟩
  simpa [hunmarked] using hcheck.2

theorem field_of_sparesAll (h : p.sparesAll out = true) {g : FieldDecl} {type : Binding}
    (hg : p.catalog.HasField d g) (hbind : p.catalog.bind g.type d = .ok type) :
    (type.isFixed = true ∨ type.isStruct = true) ∧ g.markers.anonymous = false ∧
      g.fixedCount ≠ some 0 := by
  simpa [and_assoc] using Catalog.of_allFields (Bool.and_eq_true_iff.1 h).1 hg hbind

theorem spares_of_sparesAll (h : p.sparesAll out = true) (hto : p.FlattensTo out)
    (hinline : p.options.inlineNested = true) (d : QualName) : p.Spares out d where
  declared := fun s hs => (struct_of_sparesAll h hs).2.1
  union := fun s hs => (struct_of_sparesAll h hs).2.2
  enums := by
    intro _ g k base hg hbind
    rcases (field_of_sparesAll h hg hbind).1 with hfixed | hstruct
    · cases hfixed
    · cases hstruct
  flat := by
    rintro ⟨s, hs, hmarked⟩ f hf
    refine hto.flat_of_leaves hinline (struct_of_sparesAll h hs).2.1 ?_ ?_ ⟨s, hs, hmarked⟩ hf
    · exact fun e g type _ hg hbind => (field_of_sparesAll h hg hbind).1
    · exact fun e g type _ hg hbind hzero => absurd hzero (field_of_sparesAll h hg hbind).2.2

theorem keepsNames_of_sparesAll (h : p.sparesAll out = true) (d : QualName) :
    p.KeepsNames out d where
  named := by
    intro s hs _ g source e hslot hbind
    exact (field_of_sparesAll h ⟨s, source, (struct_of_sparesAll h hs).1, hslot⟩ hbind).2.1
  types := fun _ f _ =>
    bind_of_leaves (fun e g type _ hg hbind => (field_of_sparesAll h hg hbind).1) _

end

end

/-- A field of a struct with nothing but a type and a name. -/
def plainField (type name : String) : Member := .field (.ofNames (.named type) [name])

/-- A struct that contains one that is to be flattened, and one of another unit. -/
def containingProject : Project where
  options := .ofPointerWidth 8
  defines := []
  primary := ⟨"a.cs", none, [], [
    .struct ⟨["public"], "Pair", .none, none, [plainField "short" "x", plainField "int" "y"]⟩,
    .struct ⟨["public"], "Flat", Markers.none.insert .flatten, none,
      [plainField "byte" "tag", plainField "Pair" "pair"]⟩,
    .struct ⟨["public"], "Plain", .none, none,
      [plainField "short" "a", plainField "Flat" "flat", plainField "Other" "other"]⟩]⟩
  auxiliary := [⟨"b.cs", none, [], [
    .struct ⟨["public"], "Other", .none, none, [plainField "long" "value"]⟩]⟩]

/-- Here the theorem says that the containing struct still has 24 bytes. -/
theorem flatten_rewritten_containing :
    ∃ out, containingProject.run.1 = .ok out ∧ ¬ containingProject.Flattens ⟨"Plain"⟩ ∧
      ∃ f', (containingProject.rewrittenCatalog out).flatten containingProject.options ⟨"Plain"⟩ =
        .ok f' ∧ f'.footprint = ⟨24, 8⟩ := by
  have hrun : ∃ out, containingProject.run.1 = .ok out ∧
    containingProject.sparesAll out = true := by decide +kernel
  have hflat : ∃ f, containingProject.catalog.flatten containingProject.options ⟨"Plain"⟩ = .ok f ∧
      f.footprint = ⟨24, 8⟩ := by decide +kernel
  have hplain : ((containingProject.primary? ⟨"Plain"⟩).all
    fun s => !s.markers.flatten) = true := by decide +kernel
  obtain ⟨out, hrun, hspares⟩ := hrun
  obtain ⟨f, hf, hfootprint⟩ := hflat
  refine ⟨out, hrun, ?_, ?_⟩
  · rintro ⟨s, hs, hmarked⟩
    rw [hs, Option.all_some, hmarked] at hplain
    cases hplain
  · have hdistinct : (containingProject.primary.select
        containingProject.defines).structKeys.Nodup := by decide +kernel
    obtain ⟨f', hf', hsame⟩ := flatten_rewritten hdistinct hrun hf
      (fun d _ => spares_of_sparesAll hspares (flattensTo_of_run hrun hdistinct) rfl d)
      fun d _ => .inl fun e _ => keepsNames_of_sparesAll hspares e
    exact ⟨f', hf', hsame.trans hfootprint⟩

/-- A union that is not to be flattened. -/
def unionProject : Project where
  options := .ofPointerWidth 8
  defines := []
  primary := ⟨"a.cs", none, [], [
    .struct ⟨["public"], "K", Markers.none.insert .union, none,
      [plainField "int" "a", plainField "short" "b"]⟩]⟩
  auxiliary := []

/-- Without its marker the union is laid out like any other struct. -/
theorem footprint_changes_union :
    (unionProject.primary.select unionProject.defines).structKeys.Nodup ∧
      (∃ s, unionProject.primary? ⟨"K"⟩ = some s ∧ s.markers.flatten = false) ∧
      (∃ f, unionProject.catalog.flatten unionProject.options ⟨"K"⟩ = .ok f ∧
        f.footprint = ⟨4, 4⟩) ∧
      ∃ out, unionProject.run.1 = .ok out ∧ (out.unit.structAt? ⟨"K"⟩).isSome ∧
        ∃ f', (unionProject.rewrittenCatalog out).flatten unionProject.options ⟨"K"⟩ = .ok f' ∧
          f'.footprint = ⟨8, 4⟩ := by
  refine ⟨by decide +kernel, ⟨_, rfl, rfl⟩, ?_, ?_⟩
  · decide +kernel
  · decide +kernel

end FlatLayout
