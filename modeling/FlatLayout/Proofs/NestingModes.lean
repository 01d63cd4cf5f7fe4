import FlatLayout.Proofs.ExactLayout
import FlatLayout.Proofs.Origins
import FlatLayout.Proofs.Termination

/-!
# Spreading nested structs and keeping them together

A nested struct is either spread into its container or kept together as one field; this is chosen
for all structs at once. The flat structs differ, since one of them has members where the other has
a placeholder. What they have in common is everything that a container needs to know.

It would take an induction over the contained structs to compare the two results with each other.
But both are compared with the same layout in exact arithmetic already, and that layout is computed
from the tree of the type and knows nothing of the choice. So the fields of one struct stand at the
same offsets, and what is left to compare is what each of them contributes there.

## Main definitions

* `Catalog.HasLeaf` — there is a field that is no struct in a struct, or in one that it contains
* `Spot.Meets` — one field, placed under two choices

## Main results

* `meets_of_laid` — all fields of a struct stand at the same offsets
* `fields_ne_nil_of_hasLeaf` — a struct with a leaf contributes something, under either choice
* `nesting_modes_agree` — what the two flat structs of a declaration have in common
-/

namespace FlatLayout

open Relation

/-- Somewhere in the struct `d`, at any depth, there is a field that is no struct. -/
def Catalog.HasLeaf (c : Catalog) (d : QualName) : Prop :=
  ∃ e g, ReflTransGen c.Contains d e ∧ c.HasField e g ∧ ∀ k, c.bind g.type e ≠ .ok (.struct k)

section

variable {c : Catalog} {o : Options} {key d : QualName} {f : FlatStruct} {t : Spot}

/-! ### Structs with leaves -/

/-- A field that is no struct contributes a field. -/
theorem Spot.Filled.exists_field {role : Role} (h : t.Filled o role)
    (hrole : role.isAccessor = false) (hleaf : ∀ flat, t.element ≠ .struct flat) :
    ∃ m ∈ t.members, m.isAccessor = false := by
  cases h with
  | scalar _ _ hmembers =>
    rw [hmembers]
    exact ⟨_, List.mem_cons_self, hrole⟩
  | native _ _ _ _ _ _ hmembers =>
    rw [hmembers]
    exact ⟨_, List.mem_cons_self, hrole⟩
  | started _ _ _ _ _ _ hmembers =>
    rw [hmembers]
    exact ⟨_, List.mem_cons_self, rfl⟩
  | nested flat _ helement => exact absurd helement (hleaf flat)

/-- A struct with fields contributes a field, in whatever way it is nested. -/
theorem Contributed.exists_field {g : FieldDecl} {flat : FlatStruct} {source : Nat}
    {offset : UInt32} {ms : List PlacedMember} (h : Contributed o g flat source offset ms)
    (hfields : flat.fields ≠ []) : ∃ m ∈ ms, m.isAccessor = false := by
  cases h with
  | childless hnil => exact absurd hnil hfields
  | merged _ _ moved =>
    obtain ⟨first, rest, hfirst⟩ := List.exists_cons_of_ne_nil hfields
    have hmem : first ∈ flat.members.filter fun m => !m.isAccessor := by
      rw [← FlatStruct.fields, hfirst]
      exact List.mem_cons_self
    obtain ⟨hmem, hfield⟩ := List.mem_filter.1 hmem
    obtain ⟨m', hm', hmoved⟩ := exists_moved moved hmem
    exact ⟨m', hm', by simpa [hmoved.isAccessor_eq] using hfield⟩
  | @spread before after first _ _ _ _ hfirst => exact ⟨first, by simp, hfirst⟩
  | kept => exact ⟨_, List.mem_cons_self, rfl⟩

/-- **A struct with a leaf has a field when it is flat**, by induction on the way to the leaf. -/
theorem fields_ne_nil_of_hasLeaf (h : c.answer o d = .ok f) (hleaf : c.HasLeaf d) :
    f.fields ≠ [] := by
  obtain ⟨e, g, hreach, hfield, hstruct⟩ := hleaf
  suffices ∃ m ∈ f.members, m.isAccessor = false by
    obtain ⟨m, hm, haccessor⟩ := this
    exact List.ne_nil_of_mem (List.mem_filter.2 ⟨hm, by rw [haccessor]; rfl⟩)
  induction hreach using ReflTransGen.head_induction_on generalizing f with
  | refl =>
    obtain ⟨s, source, hs, hslot⟩ := hfield
    obtain ⟨s', rule, ts, p, hs', laid⟩ := Catalog.exists_laid_of_answer h
    obtain rfl := Option.some.inj (hs.symm.trans hs')
    obtain ⟨t, ht, rfl, -⟩ := laid.field_mem_slots_iff.1 hslot
    obtain ⟨p', q, hstep⟩ := laid.run.exists_step ht
    have hleaf : ∀ k, t.type ≠ .struct k := fun k hk => hstruct k (hk ▸ hstep.bound)
    obtain ⟨m, hm, haccessor⟩ :=
      hstep.filled.exists_field (isAccessor_plainRole p') (hstep.element_of_leaf hleaf)
    rw [laid.members_eq]
    exact ⟨m, List.mem_flatMap.2 ⟨t, ht, hm⟩, haccessor⟩
  | head hstep _ ih =>
    obtain ⟨s, rule, ts, p, hs, laid⟩ := Catalog.exists_laid_of_answer h
    obtain ⟨t, ht, htype⟩ := (laid.contains_iff hs).1 hstep
    obtain ⟨flat, hflat, -, hcontributed⟩ := laid.contributed ht htype
    obtain ⟨m₀, hm₀, hfield₀⟩ := ih hflat
    have hfields : flat.fields ≠ [] :=
      List.ne_nil_of_mem (List.mem_filter.2 ⟨hm₀, by rw [hfield₀]; rfl⟩)
    obtain ⟨m, hm, haccessor⟩ := hcontributed.exists_field hfields
    rw [laid.members_eq]
    exact ⟨m, List.mem_flatMap.2 ⟨t, ht, hm⟩, haccessor⟩

/-- A struct with fields that is nested under a name has an accessor, in whatever way it is
nested. -/
theorem Contributed.exists_reference {g : FieldDecl} {flat : FlatStruct} {source : Nat}
    {offset : UInt32} {ms : List PlacedMember} (h : Contributed o g flat source offset ms)
    (hfields : flat.fields ≠ [])
    (hnamed : (g.markers.anonymous || flat.markers.anonymous) = false) :
    ∃ first, .nestedAccessor g first offset source ∈ ms := by
  cases h with
  | childless hnil => exact absurd hnil hfields
  | merged _ hanonymous =>
    rw [hnamed] at hanonymous
    cases hanonymous
  | @spread before after first => exact ⟨first.name, by simp⟩
  | kept => exact ⟨startName g.name, by simp⟩

/-! ### One field under two choices -/

/-- The spots `t` and `t'` are those of one field, at one offset, and what it is made of takes as
much. -/
structure Spot.Meets (t t' : Spot) : Prop where
  decl : t'.decl = t.decl
  source : t'.source = t.source
  type : t'.type = t.type
  offset : t'.offset = t.offset
  size : t'.size = t.size

/-- What a field contributes that is no struct depends on nothing else. -/
theorem Spot.Filled.members_eq {t' : Spot} {o' : Options} {role : Role} (h : t.Filled o role)
    (h' : t'.Filled o' role) (hmeets : t.Meets t') (hleaf : ∀ flat, t.element ≠ .struct flat)
    (hleaf' : ∀ flat, t'.element ≠ .struct flat) : t'.members = t.members := by
  have hcount : t'.decl.fixedCount = t.decl.fixedCount := by rw [hmeets.decl]
  cases h with
  | scalar hnone _ hmembers =>
    cases h' with
    | scalar _ _ hmembers' =>
      rw [hmembers, hmembers', hmeets.decl, hmeets.source, hmeets.offset, hmeets.size]
    | native _ _ hsome => rw [hcount, hnone] at hsome; cases hsome
    | started _ _ hsome => rw [hcount, hnone] at hsome; cases hsome
    | nested flat _ helement => exact absurd helement (hleaf' flat)
  | native n _ hsome _ hnative _ hmembers =>
    cases h' with
    | scalar hnone => rw [hcount, hsome] at hnone; cases hnone
    | native _ _ _ _ _ _ hmembers' =>
      rw [hmembers, hmembers', hmeets.decl, hmeets.source, hmeets.offset, hmeets.size]
    | started _ _ _ _ hnative' => rw [hmeets.type, hnative] at hnative'; cases hnative'
    | nested flat _ helement => exact absurd helement (hleaf' flat)
  | started n _ hsome _ hnative _ hmembers =>
    cases h' with
    | scalar hnone => rw [hcount, hsome] at hnone; cases hnone
    | native _ _ _ _ hnative' => rw [hmeets.type, hnative] at hnative'; cases hnative'
    | started _ _ _ _ _ _ hmembers' =>
      rw [hmembers, hmembers', hmeets.decl, hmeets.source, hmeets.offset, hmeets.size]
    | nested flat _ helement => exact absurd helement (hleaf' flat)
  | nested flat _ helement => exact absurd helement (hleaf flat)

end

/-! ### All fields of a struct -/

section

variable {c : Catalog} {o o' : Options} {key : QualName} {s : StructDecl}
  {rule rule' : LayoutRule} {ts ts' : List Spot} {p p' : Placement} {f f' : FlatStruct}

/-- The fields of one declaration, laid out in two catalogs, meet if they mean the same types there,
take as much, and are put at the same offsets. -/
theorem meets_of_placed {c' : Catalog} {child child' : QualName → Except LayoutError FlatStruct}
    (laid : Laid c o child key s rule ts p f) (laid' : Laid c' o' child' key s rule' ts' p' f')
    (hbind : ∀ t ∈ ts, c'.bind t.decl.type key = .ok t.type)
    (hplaced : (ts.map fun t => (t.offset.toNat, t.piece)) =
      ts'.map fun t => (t.offset.toNat, t.piece)) : List.Forall₂ Spot.Meets ts ts' := by
  have hslots : ts.map Spot.slot = ts'.map Spot.slot := laid.slots.symm.trans laid'.slots
  rw [← List.forall₂_eq_eq_eq, List.forall₂_map_left_iff, List.forall₂_map_right_iff,
    List.forall₂_iff_zip] at hplaced hslots
  rw [List.forall₂_iff_zip]
  refine ⟨hslots.1, fun {t t'} hmem => ?_⟩
  obtain ⟨hdecl, hsource⟩ := Slot.field.inj (hslots.2 hmem)
  obtain ⟨hoffset, hpiece⟩ := Prod.mk.inj (hplaced.2 hmem)
  have htype := laid'.bound (List.of_mem_zip hmem).2
  rw [← hdecl, hbind t (List.of_mem_zip hmem).1] at htype
  have hsize : t.size.toNat = t'.size.toNat := congrArg (·.extent.size) hpiece
  exact ⟨hdecl.symm, hsource.symm, (Except.ok.inj htype).symm, (UInt32.toNat_inj.1 hoffset).symm,
    (UInt32.toNat_inj.1 hsize).symm⟩

/-- **All fields of a struct stand at the same offsets**, whatever is chosen for nested structs. -/
theorem meets_of_laid (laid : Laid c o (c.answer o) key s rule ts p f)
    (laid' : Laid c o' (c.answer o') key s rule' ts' p' f') (hs : c.struct? key = some s)
    (hwidth : o'.pointerWidth = o.pointerWidth) (hpad : o'.padTrailing = o.padTrailing)
    {n : Nat} {fields : List TreeField}
    (hfields : s.slots.mapM
      (slotTree c o.pointerWidth (c.typeTreeWithin o.pointerWidth n) key) = some fields) :
    List.Forall₂ Spot.Meets ts ts' := by
  have hfields' := hfields
  rw [← hwidth] at hfields'
  refine meets_of_placed laid laid' (fun t ht => laid.bound ht) ?_
  rw [laid.placed_eq hs hfields, laid'.placed_eq hs hfields', hpad]

/-- The members that come from one member of the declaration, field by field. -/
theorem Laid.members_from (laid : Laid c o (c.answer o) key s rule ts p f) (source : Nat) :
    f.members.filter (·.source == source) =
      (ts.filter fun t => t.source == source).flatMap Spot.members := by
  have hsource : ∀ t ∈ ts, ∀ m ∈ t.members, m.source = t.source := by
    intro t ht m hm
    obtain ⟨p', q, hstep⟩ := laid.run.exists_step ht
    exact hstep.filled.source hm
  rw [laid.members_eq, List.filter_flatMap]
  clear laid
  induction ts with
  | nil => rfl
  | cons t ts ih =>
    have hrest := ih fun u hu => hsource u (List.mem_cons_of_mem _ hu)
    have hown := hsource t List.mem_cons_self
    rw [List.flatMap_cons, hrest]
    by_cases ht : t.source = source
    · rw [List.filter_cons_of_pos (by simpa using ht), List.flatMap_cons,
        List.filter_eq_self.2 fun m hm => by simpa using (hown m hm).trans ht]
    · rw [List.filter_cons_of_neg (by simpa using ht),
        List.filter_eq_nil_iff.2 fun m hm => by simpa using (hown m hm) ▸ ht, List.nil_append]

/-- Fields from one member of the declaration contribute the same together if each of them does. -/
theorem flatMap_members_eq {source : Nat} (hmeets : List.Forall₂ Spot.Meets ts ts')
    (hsame : ∀ t ∈ ts, ∀ t' ∈ ts', t.Meets t' → t.source = source → t'.members = t.members) :
    (ts'.filter fun t => t.source == source).flatMap Spot.members =
      (ts.filter fun t => t.source == source).flatMap Spot.members := by
  induction hmeets with
  | nil => rfl
  | @cons t t' ts ts' hmeet _ ih =>
    have hrest := ih fun u hu u' hu' =>
      hsame u (List.mem_cons_of_mem _ hu) u' (List.mem_cons_of_mem _ hu')
    by_cases ht : t.source = source
    · have hmembers := hsame t List.mem_cons_self t' List.mem_cons_self hmeet ht
      rw [List.filter_cons_of_pos (by simpa using hmeet.source.trans ht),
        List.filter_cons_of_pos (by simpa using ht), List.flatMap_cons, List.flatMap_cons, hrest,
        hmembers]
    · rw [List.filter_cons_of_neg (by simpa [hmeet.source] using ht),
        List.filter_cons_of_neg (by simpa using ht), hrest]

/-- All names of one declared field have one type. -/
theorem type_eq_of_source {g g' : FieldDecl} {source : Nat} (h : Slot.field g source ∈ s.slots)
    (h' : Slot.field g' source ∈ s.slots) : g'.type = g.type := by
  obtain ⟨m, hm, -, hg⟩ := exists_field_of_slot h
  obtain ⟨m', hm', -, hg'⟩ := exists_field_of_slot h'
  obtain rfl := Member.field.inj (Option.some.inj (hm.symm.trans hm'))
  exact hg'.type.trans hg.type.symm

/-- **A field that is no struct contributes the same** whatever is chosen for nested structs. -/
theorem members_eq_of_leaf (laid : Laid c o (c.answer o) key s rule ts p f)
    (laid' : Laid c o' (c.answer o') key s rule' ts' p' f')
    (hmeets : List.Forall₂ Spot.Meets ts ts') {g : FieldDecl} {source : Nat}
    (hg : Slot.field g source ∈ s.slots) (hleaf : ∀ d, c.bind g.type key ≠ .ok (.struct d)) :
    f'.members.filter (·.source == source) = f.members.filter (·.source == source) := by
  rw [laid.members_from, laid'.members_from]
  refine flatMap_members_eq hmeets fun t ht t' ht' hmeet hsource => ?_
  obtain ⟨q₁, q₂, hstep, -, hunion⟩ := laid.run.exists_step_within ht
  obtain ⟨q₁', q₂', hstep', -, hunion'⟩ := laid'.run.exists_step_within ht'
  have hslot : Slot.field t.decl source ∈ s.slots :=
    laid.field_mem_slots_iff.2 ⟨t, ht, rfl, hsource⟩
  have htype : ∀ d, t.type ≠ .struct d := by
    intro d hd
    have hbound := hstep.bound
    rw [hd, type_eq_of_source hg hslot] at hbound
    exact hleaf d hbound
  have hrole : q₁'.plainRole = q₁.plainRole := by
    rw [Placement.plainRole, Placement.plainRole, hunion, hunion']
    rfl
  have hfilled' := hstep'.filled
  rw [hrole] at hfilled'
  exact hstep.filled.members_eq hfilled' hmeet (hstep.element_of_leaf htype)
    (hstep'.element_of_leaf fun d => hmeet.type ▸ htype d)

/-- **The accessor of a nested struct stands at the offset of its field.** -/
theorem exists_reference_of_hasLeaf (laid : Laid c o (c.answer o) key s rule ts p f)
    (h : c.answer o key = .ok f) {t : Spot} (ht : t ∈ ts) {d : QualName}
    (htype : t.type = .struct d) (hfield : t.decl.markers.anonymous = false)
    (hstruct : ∀ e, c.struct? d = some e → e.markers.anonymous = false) (hleaf : c.HasLeaf d) :
    ∃ a, f.member? (refName t.decl.name) = some a ∧ a.role = .nestedAccessor ∧
      a.offset = t.offset := by
  obtain ⟨flat, hflat, -, hcontributed⟩ := laid.contributed ht htype
  obtain ⟨e, _, _, _, he, inner⟩ := Catalog.exists_laid_of_answer hflat
  have hnamed : (t.decl.markers.anonymous || flat.markers.anonymous) = false := by
    rw [hfield, inner.markers_eq, hstruct e he]
    rfl
  obtain ⟨first, hmem⟩ :=
    hcontributed.exists_reference (fields_ne_nil_of_hasLeaf hflat hleaf) hnamed
  have hmembers : .nestedAccessor t.decl first t.offset t.source ∈ f.members := by
    rw [laid.members_eq]
    exact List.mem_flatMap.2 ⟨t, ht, hmem⟩
  exact ⟨_, FlatStruct.member?_of_nodup (nodup_of_answer h) hmembers, rfl, rfl⟩

end

/-- **The two ways to nest structs agree.** If a struct can be flattened both with nested structs
spread and with nested structs kept together, all else being chosen alike, then it takes as many
bytes and asks for the same alignment. Each of its own fields that is no struct contributes the same
members, record by record. And each of its own fields that is a struct, under a name and with a leaf
inside, has its accessor at the same offset. -/
theorem nesting_modes_agree {c : Catalog} {o : Options} {key : QualName} {spread kept : FlatStruct}
    (calls calls' : List Call)
    (hspread : outcome (Bench.flatten c { o with inlineNested := true } key)
      (Workbench.afterCalls c { o with inlineNested := true } calls) = .ok spread)
    (hkept : outcome (Bench.flatten c { o with inlineNested := false } key)
      (Workbench.afterCalls c { o with inlineNested := false } calls') = .ok kept) :
    kept.footprint = spread.footprint ∧
    ∃ s, c.struct? key = some s ∧
      (∀ g source, Slot.field g source ∈ s.slots → (∀ d, c.bind g.type key ≠ .ok (.struct d)) →
        kept.members.filter (·.source == source) = spread.members.filter (·.source == source)) ∧
      ∀ g source d, Slot.field g source ∈ s.slots → c.bind g.type key = .ok (.struct d) →
        g.markers.anonymous = false → (∀ e, c.struct? d = some e → e.markers.anonymous = false) →
        c.HasLeaf d →
        ∃ a a', spread.member? (refName g.name) = some a ∧ kept.member? (refName g.name) = some a' ∧
          a.role = .nestedAccessor ∧ a'.role = .nestedAccessor ∧ a'.offset = a.offset := by
  rw [outcome_flatten_eq_answer] at hspread hkept
  obtain ⟨s, rule, ts, p, hs, laid⟩ := Catalog.exists_laid_of_answer hspread
  obtain ⟨s', rule', ts', p', hs', laid'⟩ := Catalog.exists_laid_of_answer hkept
  obtain rfl := Option.some.inj (hs.symm.trans hs')
  obtain ⟨tree, htree⟩ := exists_typeTree_of_answer hspread
  obtain ⟨n, s'', fields, -, hs'', hfields, -⟩ := typeTreeWithin_eq_some htree
  obtain rfl := Option.some.inj (hs.symm.trans hs'')
  have hmeets := meets_of_laid laid laid' hs rfl rfl hfields
  refine ⟨?_, s, hs, ?_, ?_⟩
  · exact Footprint.extent_injective
      ((extent_of_answer hkept htree).trans (extent_of_answer hspread htree).symm)
  · exact fun g source hg hleaf => members_eq_of_leaf laid laid' hmeets hg hleaf
  · intro g source d hg hbind hfield hstruct hleaf
    obtain ⟨t, ht, rfl, rfl⟩ := laid.field_mem_slots_iff.1 hg
    obtain ⟨t', ht', hmeet⟩ := exists_of_forall₂ hmeets ht
    have htype : t.type = .struct d := Except.ok.inj ((laid.bound ht).symm.trans hbind)
    obtain ⟨a, ha, hrole, hoffset⟩ :=
      exists_reference_of_hasLeaf laid hspread ht htype hfield hstruct hleaf
    obtain ⟨a', ha', hrole', hoffset'⟩ := exists_reference_of_hasLeaf laid' hkept ht'
      (hmeet.type.trans htype) (by rw [hmeet.decl]; exact hfield) hstruct hleaf
    rw [hmeet.decl] at ha'
    exact ⟨a, a', ha, ha', hrole, hrole', by rw [hoffset, hoffset', hmeet.offset]⟩

/-- Here the theorem says that a struct with nested structs takes 56 bytes either way, and that the
accessor of one of them stands eight bytes behind its front. -/
theorem nesting_modes_agree_nested :
    ∃ spread kept,
      outcome (Bench.flatten nestedCatalog { Options.ofPointerWidth 8 with inlineNested := true }
        ⟨"Outer"⟩) .empty = .ok spread ∧
      outcome (Bench.flatten nestedCatalog { Options.ofPointerWidth 8 with inlineNested := false }
        ⟨"Outer"⟩) .empty = .ok kept ∧
      spread.members.length = 10 ∧ kept.members.length = 4 ∧
      spread.footprint = ⟨56, 8⟩ ∧ kept.footprint = ⟨56, 8⟩ ∧
      kept.members.filter (·.source == 3) = spread.members.filter (·.source == 3) ∧
      ∃ a', kept.member? "middle_Ref" = some a' ∧ a'.offset = 8 := by
  have hspread : ∃ f,
      outcome (Bench.flatten nestedCatalog { Options.ofPointerWidth 8 with inlineNested := true }
        ⟨"Outer"⟩) .empty = .ok f ∧ f.members.length = 10 ∧ f.footprint = ⟨56, 8⟩ ∧
      (f.member? "middle_Ref").map (·.offset) = some 8 := by decide +kernel
  have hkept : ∃ f,
      outcome (Bench.flatten nestedCatalog { Options.ofPointerWidth 8 with inlineNested := false }
        ⟨"Outer"⟩) .empty = .ok f ∧ f.members.length = 4 := by decide +kernel
  obtain ⟨spread, hs, hslength, hfootprint, hoffset⟩ := hspread
  obtain ⟨kept, hk, hklength⟩ := hkept
  obtain ⟨hsame, s, hdecl, hleaf, hnested⟩ := nesting_modes_agree [] [] hs hk
  obtain rfl := Option.some.inj hdecl
  refine ⟨spread, kept, hs, hk, hslength, hklength, hfootprint, hsame.trans hfootprint, ?_, ?_⟩
  · have hbind : nestedCatalog.bind (.named "long") ⟨"Outer"⟩ = .ok (.primitive .long) := by
      decide +kernel
    refine hleaf (.ofNames (.named "long") ["last"]) 3 (List.mem_of_getElem? (i := 3) rfl) ?_
    rw [FieldDecl.ofNames, hbind]
    nofun
  · have hbind : nestedCatalog.bind (.named "Middle") ⟨"Outer"⟩ = .ok (.struct ⟨"Middle"⟩) := by
      decide +kernel
    have hflag : nestedCatalog.bind (.named "byte") ⟨"Middle"⟩ = .ok (.primitive .byte) := by
      decide +kernel
    have hinner : nestedCatalog.HasLeaf ⟨"Middle"⟩ := by
      refine ⟨_, .ofNames (.named "byte") ["flag"], .refl, ⟨_, 0, rfl, ?_⟩, ?_⟩
      · exact List.mem_of_getElem? (i := 0) rfl
      · rw [FieldDecl.ofNames, hflag]
        nofun
    have hnamed : ∀ e, nestedCatalog.struct? ⟨"Middle"⟩ = some e →
        e.markers.anonymous = false := by
      intro e he
      obtain rfl := Option.some.inj he
      rfl
    obtain ⟨a, a', ha, ha', -, -, hequal⟩ := hnested (.ofNames (.named "Middle") ["middle"]) 1 _
      (List.mem_of_getElem? (i := 1) rfl) hbind rfl hnamed hinner
    have hfound : spread.member? "middle_Ref" = some a := ha
    rw [hfound] at hoffset
    exact ⟨a', ha', hequal.trans (Option.some.inj hoffset)⟩

end FlatLayout
