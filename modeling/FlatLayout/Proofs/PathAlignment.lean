import FlatLayout.Proofs.ExactLayout
import FlatLayout.Proofs.Origins

/-!
# Alignment along a path

A field that was declared deep inside stands at a sum of offsets, one for each struct on the way to
it, and each of them was aligned by the pack of that struct alone. The sum is still aligned, to the
least of all these packs and of the size of an element.

## Why the sum is aligned

Every number here is a power of two: the packs that may be asked for, and the sizes of the scalars
on the usual targets, therefore also the alignments of structs. Of two powers of two the less one
divides the other. A nested struct stands at a multiple of the least of the pack and its alignment;
its alignment is no less than the size of any element in there, so this offset is a multiple of the
least of the pack and that size. With a pack that is no power of two, or an element of three bytes,
nothing of the kind would hold.

## Main definitions

* `Catalog.LeafPath` — the structs that a field of a flat struct came through
* `Catalog.leastPack` — the least of their packs and of a size

## Main results

* `isPowerOfTwo_alignment` — the alignment of a flat struct is a power of two, or zero
* `Catalog.LeafPath.leastPack_dvd` — fields are aligned along their paths
* `Laid.boundary_dvd_size` — a padded size is aligned
* `fields_aligned` — both for every flat struct
-/

namespace FlatLayout

/-! ### Powers of two -/

/-- Of two powers of two the less one divides the other. -/
theorem isPowerOfTwo_dvd {a b : Nat} (ha : a.isPowerOfTwo) (hb : b.isPowerOfTwo) (hle : a ≤ b) :
    a ∣ b := by
  obtain ⟨i, rfl⟩ := ha
  obtain ⟨j, rfl⟩ := hb
  exact Nat.pow_dvd_pow 2 ((Nat.pow_le_pow_iff_right (by decide)).1 hle)

theorem isPowerOfTwo_min {a b : Nat} (ha : a.isPowerOfTwo) (hb : b.isPowerOfTwo) :
    (min a b).isPowerOfTwo := by
  rcases Nat.le_total a b with hle | hle
  · rwa [Nat.min_eq_left hle]
  · rwa [Nat.min_eq_right hle]

/-- On the usual targets all scalars have powers of two for their sizes. -/
theorem isPowerOfTwo_scalarSize {pointerWidth unit : UInt32}
    (hwidth : pointerWidth = 4 ∨ pointerWidth = 8) {type : Binding}
    (h : type.scalarSize? pointerWidth = some unit) : unit.toNat.isPowerOfTwo := by
  have hpointer : pointerWidth.toNat.isPowerOfTwo := by
    rcases hwidth with rfl | rfl
    · exact ⟨2, rfl⟩
    · exact ⟨3, rfl⟩
  have hprimitive : ∀ p : Primitive, (p.size pointerWidth).toNat.isPowerOfTwo := by
    intro p
    cases p with
    | bool | byte | sbyte => exact ⟨0, rfl⟩
    | ushort | short | char => exact ⟨1, rfl⟩
    | uint | int | float => exact ⟨2, rfl⟩
    | ulong | long | double => exact ⟨3, rfl⟩
    | intPtr | uintPtr => exact hpointer
  cases type with
  | pointer t => rwa [← Option.some.inj h]
  | primitive p => rw [← Option.some.inj h]; exact hprimitive p
  | enum k p => rw [← Option.some.inj h]; exact hprimitive p
  | struct e => cases h
  | managed name => cases h

namespace LayoutRule

theorem isPowerOfTwo_writtenPack {asked : Option UInt32} (h : AllowsPack asked) :
    (writtenPack asked).toNat.isPowerOfTwo := by
  cases asked with
  | none => exact ⟨3, rfl⟩
  | some n =>
    rw [writtenPack]
    split
    · exact ⟨3, rfl⟩
    next hzero => exact ((h n rfl).resolve_left hzero).1

theorem isPowerOfTwo_pack {layout : Option LayoutAttr} (h : AllowsPack (layout.bind (·.pack))) :
    (written layout).pack.toNat.isPowerOfTwo := by
  cases layout with
  | none => exact ⟨3, rfl⟩
  | some a => exact isPowerOfTwo_writtenPack h

/-- The boundary of what is no larger than an alignment divides the boundary of that alignment. -/
theorem min_pack_dvd_boundary {rule : LayoutRule} (hpack : rule.pack.toNat.isPowerOfTwo)
    {unit alignment : Nat} (hunit : unit.isPowerOfTwo) (halignment : alignment.isPowerOfTwo)
    (hle : unit ≤ alignment) : min rule.pack.toNat unit ∣ rule.boundary alignment := by
  have hmin := isPowerOfTwo_min hpack halignment
  have hboundary : rule.boundary alignment = min rule.pack.toNat alignment :=
    Nat.max_eq_right (Nat.pos_of_isPowerOfTwo hmin)
  rw [hboundary]
  exact isPowerOfTwo_dvd (isPowerOfTwo_min hpack hunit) hmin (by omega)

end LayoutRule

/-! ### Paths -/

/-- The field `m` of the flat struct `key` comes from a declared field with elements of `unit`
bytes, by way of the structs `path`. The first of them is `key` itself, and the last one declares
the field. -/
inductive Catalog.LeafPath (c : Catalog) (o : Options) :
    QualName → PlacedMember → List QualName → UInt32 → Prop
  | own {key : QualName} {t : Spot} {m : PlacedMember} {unit : UInt32} (spot : t ∈ c.spots o key)
      (made : m ∈ t.members) (field : m.isAccessor = false)
      (scalar : t.type.scalarSize? o.pointerWidth = some unit) : LeafPath c o key m [key] unit
  | moved {key e : QualName} {t : Spot} {child : FlatStruct} {m m' : PlacedMember}
      {path : List QualName} {unit : UInt32} (spot : t ∈ c.spots o key) (made : m' ∈ t.members)
      (type : t.type = .struct e) (flat : c.flatten o e = .ok child) (member : m ∈ child.fields)
      (moved : Moved (nestedLabel t.decl child) t.offset t.source m m')
      (inner : LeafPath c o e m path unit) : LeafPath c o key m' (key :: path) unit
  /-- What stands for a nested struct that is kept together comes the way of the first field in
  there. -/
  | kept {key e : QualName} {t : Spot} {child : FlatStruct} {first : PlacedMember}
      {rest : List PlacedMember} {path : List QualName} {unit : UInt32} (spot : t ∈ c.spots o key)
      (made : .nestedStart t.decl child first t.source t.offset ∈ t.members)
      (type : t.type = .struct e) (flat : c.flatten o e = .ok child)
      (fields : child.fields = first :: rest) (inner : LeafPath c o e first path unit) :
      LeafPath c o key (.nestedStart t.decl child first t.source t.offset) (key :: path) unit

/-- The least of the packs of some structs and of a size. -/
def Catalog.leastPack (c : Catalog) (path : List QualName) (unit : UInt32) : Nat :=
  path.foldr (fun d n => min (c.ruleOf d).pack.toNat n) unit.toNat

section

variable {c : Catalog} {o : Options} {key d : QualName} {m : PlacedMember} {g : FieldDecl}
  {f : FlatStruct} {t : Spot} {path : List QualName} {unit : UInt32}

/-- A field that goes back to a declared one came on some path. -/
theorem Catalog.Origin.exists_leafPath (h : c.Origin o key m d g) (hfield : m.isAccessor = false) :
    ∃ path unit, c.LeafPath o key m path unit := by
  induction h with
  | own spot made leaf =>
    obtain ⟨p, q, hstep⟩ := exists_step_of_mem_spots spot
    exact ⟨_, _, .own spot made hfield (hstep.readsAs leaf made hfield).1.size⟩
  | reference => cases hfield
  | moved spot made type flat _ member moved _ ih =>
    have hinner := moved.isAccessor_eq.symm.trans hfield
    obtain ⟨path, unit, hpath⟩ := ih hinner
    refine ⟨_, unit, .moved spot made type flat (List.mem_filter.2 ⟨member, ?_⟩) moved hpath⟩
    rw [hinner]
    rfl
  | kept spot made type flat _ fields _ ih =>
    have hfirst := (List.mem_filter.1 (fields ▸ List.mem_cons_self)).2
    obtain ⟨path, unit, hpath⟩ := ih (by simpa using hfirst)
    exact ⟨_, unit, .kept spot made type flat fields hpath⟩

/-! ### One struct -/

theorem isPowerOfTwo_pack_of_answer (h : c.answer o key = .ok f) :
    (c.ruleOf key).pack.toNat.isPowerOfTwo := by
  obtain ⟨s, rule, ts, p, hs, laid⟩ := Catalog.exists_laid_of_answer h
  obtain ⟨hallowed, rfl⟩ := LayoutRule.ofAttr_eq_ok_iff.1 laid.ruled
  rw [← laid.rule_eq hs]
  exact LayoutRule.isPowerOfTwo_pack hallowed

/-- A field stands on the boundary of what it is made of, wherever its struct puts it. -/
theorem SpotStep.boundary_dvd {child : QualName → Except LayoutError FlatStruct} {p q : Placement}
    (h : SpotStep c o child key p t q) :
    p.rule.boundary t.element.alignment.toNat ∣ t.offset.toNat := by
  rw [h.exact.1]
  exact Nat.dvd_mul_left _ _

theorem boundary_dvd_of_mem_spots (ht : t ∈ c.spots o key) :
    (c.ruleOf key).boundary t.element.alignment.toNat ∣ t.offset.toNat := by
  obtain ⟨s, rule, p, f, hs, laid, -⟩ := exists_laid_of_mem_spots ht
  obtain ⟨p', q, hstep, hrule, -⟩ := laid.run.exists_step_within ht
  have hdvd := hstep.boundary_dvd
  rwa [hrule, Placement.start, laid.rule_eq hs] at hdvd

theorem isPowerOfTwo_pack_of_mem_spots (ht : t ∈ c.spots o key) :
    (c.ruleOf key).pack.toNat.isPowerOfTwo := by
  obtain ⟨s, rule, p, f, -, -, hf⟩ := exists_laid_of_mem_spots ht
  exact isPowerOfTwo_pack_of_answer hf

/-- **The alignment of a flat struct is a power of two**, or zero if nothing in there has any
bytes. -/
theorem isPowerOfTwo_alignment (hwidth : o.pointerWidth = 4 ∨ o.pointerWidth = 8)
    (h : c.answer o key = .ok f) :
    f.footprint.alignment = 0 ∨ f.footprint.alignment.toNat.isPowerOfTwo := by
  refine Catalog.answer_induction (motive := fun _ _ f =>
    f.footprint.alignment = 0 ∨ f.footprint.alignment.toNat.isPowerOfTwo) ?_ h
  intro _ key s rule ts p f hs laid ih
  rw [laid.alignment_eq]
  rcases laid.run.largest_eq_or with hzero | ⟨t, ht, hlargest⟩
  · exact .inl hzero
  obtain ⟨p', q, hstep⟩ := laid.run.exists_step ht
  rw [hlargest]
  cases helement : t.element with
  | scalar size =>
    exact .inr (isPowerOfTwo_scalarSize hwidth (scalarSize?_of_made (helement ▸ hstep.made)))
  | struct child =>
    obtain ⟨d, htype, hd⟩ := exists_struct_of_made (helement ▸ hstep.made)
    exact ih d child ((laid.contains_iff hs).2 ⟨t, ht, htype⟩) hd

/-! ### One path -/

/-- What is declared as a scalar or a buffer is made of its elements. -/
theorem element_of_scalarSize (ht : t ∈ c.spots o key)
    (hunit : t.type.scalarSize? o.pointerWidth = some unit) : t.element = .scalar unit := by
  obtain ⟨p, q, hstep⟩ := exists_step_of_mem_spots ht
  exact Except.ok.inj (hstep.made.symm.trans (made_of_scalarSize? hunit))

/-- The members of a field that is no struct stand where the field does. -/
theorem Spot.Filled.offset_eq {role : Role} (h : t.Filled o role)
    (hleaf : ∀ flat, t.element ≠ .struct flat) (hm : m ∈ t.members) : m.offset = t.offset := by
  cases h with
  | scalar _ _ hmembers =>
    rw [hmembers] at hm
    rw [List.mem_singleton.1 hm]
    rfl
  | native _ _ _ _ _ _ hmembers =>
    rw [hmembers] at hm
    rw [List.mem_singleton.1 hm]
    rfl
  | started _ _ _ _ _ _ hmembers =>
    rw [hmembers] at hm
    rcases List.mem_pair.1 hm with rfl | rfl <;> rfl
  | nested flat _ helement => exact absurd helement (hleaf flat)

/-- If a field asks for the alignment of some element in there, it stands at a multiple of the least
of the pack and the size of that element. -/
theorem min_pack_dvd_offset (hwidth : o.pointerWidth = 4 ∨ o.pointerWidth = 8)
    (ht : t ∈ c.spots o key) (hunit : unit.toNat.isPowerOfTwo)
    (hle : unit.toNat ≤ t.element.alignment.toNat) :
    min (c.ruleOf key).pack.toNat unit.toNat ∣ t.offset.toNat := by
  obtain ⟨p, q, hstep⟩ := exists_step_of_mem_spots ht
  have hpack := isPowerOfTwo_pack_of_mem_spots ht
  have hpos := Nat.pos_of_isPowerOfTwo hunit
  have halignment : t.element.alignment.toNat.isPowerOfTwo := by
    cases helement : t.element with
    | scalar size =>
      exact isPowerOfTwo_scalarSize hwidth (scalarSize?_of_made (helement ▸ hstep.made))
    | struct child =>
      obtain ⟨d, -, hd⟩ := exists_struct_of_made (helement ▸ hstep.made)
      rw [helement, Element.alignment] at hle
      refine (isPowerOfTwo_alignment hwidth hd).resolve_left fun hzero => ?_
      rw [hzero] at hle
      exact absurd (Nat.lt_of_lt_of_le hpos hle) (Nat.lt_irrefl 0)
  calc min (c.ruleOf key).pack.toNat unit.toNat
      ∣ (c.ruleOf key).boundary t.element.alignment.toNat :=
        LayoutRule.min_pack_dvd_boundary hpack hunit halignment hle
    _ ∣ t.offset.toNat := boundary_dvd_of_mem_spots ht

namespace Catalog.LeafPath

theorem isPowerOfTwo_unit (hwidth : o.pointerWidth = 4 ∨ o.pointerWidth = 8)
    (h : c.LeafPath o key m path unit) : unit.toNat.isPowerOfTwo := by
  induction h with
  | own _ _ _ scalar => exact isPowerOfTwo_scalarSize hwidth scalar
  | moved _ _ _ _ _ _ _ ih => exact ih
  | kept _ _ _ _ _ _ ih => exact ih

/-- A flat struct is aligned to the elements of all fields that came into it. -/
theorem unit_le_alignment (h : c.LeafPath o key m path unit) (hf : c.answer o key = .ok f) :
    unit.toNat ≤ f.footprint.alignment.toNat := by
  induction h generalizing f with
  | own spot _ _ scalar =>
    have hle := alignment_le_of_mem_spots hf spot
    rwa [element_of_scalarSize spot scalar] at hle
  | moved spot _ type flat _ _ _ ih =>
    have hle := alignment_le_of_nested hf spot type flat
    rw [flatten_eq_answer] at flat
    exact Nat.le_trans (ih flat) hle
  | kept spot _ type flat _ _ ih =>
    have hle := alignment_le_of_nested hf spot type flat
    rw [flatten_eq_answer] at flat
    exact Nat.le_trans (ih flat) hle

theorem isPowerOfTwo_leastPack (hwidth : o.pointerWidth = 4 ∨ o.pointerWidth = 8)
    (h : c.LeafPath o key m path unit) : (c.leastPack path unit).isPowerOfTwo := by
  induction h with
  | own spot _ _ scalar =>
    exact isPowerOfTwo_min (isPowerOfTwo_pack_of_mem_spots spot)
      (isPowerOfTwo_scalarSize hwidth scalar)
  | moved spot _ _ _ _ _ _ ih => exact isPowerOfTwo_min (isPowerOfTwo_pack_of_mem_spots spot) ih
  | kept spot _ _ _ _ _ ih => exact isPowerOfTwo_min (isPowerOfTwo_pack_of_mem_spots spot) ih

theorem leastPack_le_unit (h : c.LeafPath o key m path unit) :
    c.leastPack path unit ≤ unit.toNat := by
  induction h with
  | own => exact Nat.min_le_right _ _
  | moved _ _ _ _ _ _ _ ih => exact Nat.le_trans (Nat.min_le_right _ _) ih
  | kept _ _ _ _ _ _ ih => exact Nat.le_trans (Nat.min_le_right _ _) ih

/-- A nested struct stands at a multiple of what a field in there is aligned to, and of the pack. -/
theorem leastPack_dvd_offset (hwidth : o.pointerWidth = 4 ∨ o.pointerWidth = 8) {e : QualName}
    {child : FlatStruct} (ht : t ∈ c.spots o key) (htype : t.type = .struct e)
    (hflat : c.flatten o e = .ok child) (h : c.LeafPath o e m path unit) :
    c.leastPack (key :: path) unit ∣ t.offset.toNat := by
  have hunit := h.isPowerOfTwo_unit hwidth
  have hle : unit.toNat ≤ t.element.alignment.toNat := by
    rw [element_of_mem_spots ht htype hflat]
    rw [flatten_eq_answer] at hflat
    exact h.unit_le_alignment hflat
  have hpack := isPowerOfTwo_pack_of_mem_spots ht
  have hleast := h.isPowerOfTwo_leastPack hwidth
  have hbound := h.leastPack_le_unit
  calc c.leastPack (key :: path) unit
      = min (c.ruleOf key).pack.toNat (c.leastPack path unit) := rfl
    _ ∣ min (c.ruleOf key).pack.toNat unit.toNat :=
        isPowerOfTwo_dvd (isPowerOfTwo_min hpack hleast) (isPowerOfTwo_min hpack hunit) (by omega)
    _ ∣ t.offset.toNat := min_pack_dvd_offset hwidth ht hunit hle

/-- **Fields are aligned along their paths**, by induction on the path: what a struct adds to the
offset of a field is a multiple of what the field was aligned to in there, up to the pack. -/
theorem leastPack_dvd (hwidth : o.pointerWidth = 4 ∨ o.pointerWidth = 8)
    (h : c.LeafPath o key m path unit) : c.leastPack path unit ∣ m.offset.toNat := by
  induction h with
  | @own key t m unit spot made _ scalar =>
    have helement := element_of_scalarSize spot scalar
    obtain ⟨p, q, hstep⟩ := exists_step_of_mem_spots spot
    have hplace : m.offset = t.offset := by
      refine hstep.filled.offset_eq (fun flat hflat => ?_) made
      rw [helement] at hflat
      cases hflat
    rw [hplace]
    refine min_pack_dvd_offset hwidth spot (isPowerOfTwo_scalarSize hwidth scalar) ?_
    rw [helement]
    exact Nat.le_refl _
  | @moved key e t child m m' path unit spot _ type flat _ moved inner ih =>
    have hpack := isPowerOfTwo_pack_of_mem_spots spot
    have hleast := inner.isPowerOfTwo_leastPack hwidth
    have hinner : c.leastPack (key :: path) unit ∣ c.leastPack path unit :=
      isPowerOfTwo_dvd (isPowerOfTwo_min hpack hleast) hleast (Nat.min_le_right _ _)
    rw [moved.offset]
    exact Nat.dvd_add (Nat.dvd_trans hinner ih)
      (leastPack_dvd_offset hwidth spot type flat inner)
  | kept spot _ type flat _ inner _ => exact leastPack_dvd_offset hwidth spot type flat inner

end Catalog.LeafPath

/-! ### The size -/

/-- **A padded size is aligned**, unless the author of the struct asks for more than that. -/
theorem Laid.boundary_dvd_size {child : QualName → Except LayoutError FlatStruct} {s : StructDecl}
    {rule : LayoutRule} {ts : List Spot} {p : Placement} (laid : Laid c o child key s rule ts p f)
    (hpad : o.padTrailing = true)
    (hsize : rule.size.toNat ≤
      rule.padded s.markers.union (ts.map Spot.piece) f.footprint.alignment.toNat) :
    rule.boundary f.footprint.alignment.toNat ∣ f.footprint.size.toNat := by
  have hextent : f.footprint.size.toNat = max
      (rule.padded s.markers.union (ts.map Spot.piece) f.footprint.alignment.toNat)
      rule.size.toNat := by
    have halignment := congrArg Extent.alignment laid.exact.2
    have hexact := congrArg Extent.size laid.exact.2
    rw [Footprint.extent, hpad] at hexact
    simp only [LayoutRule.extent, if_true] at hexact
    rw [hexact, show f.footprint.alignment.toNat = _ from halignment]
    rfl
  rw [hextent, Nat.max_eq_left hsize]
  exact Nat.dvd_mul_left _ _

/-- **Alignment survives inlining.** On a target with the usual pointers every field of a flat
struct comes from a declared scalar or buffer, by way of the struct itself and the structs nested in
each other down to the declaration. On any such way, its offset is a multiple of the least of the
packs of these structs and the size of an element. Where sizes are padded, and the declared size is
no more than the padded one, the size of the flat struct is a multiple of the least of its pack and
its alignment, which counts as one if it is zero. -/
theorem fields_aligned (hwidth : o.pointerWidth = 4 ∨ o.pointerWidth = 8) (calls : List Call)
    (h : outcome (Bench.flatten c o key) (Workbench.afterCalls c o calls) = .ok f) :
    (∀ m ∈ f.fields, ∃ path unit, c.LeafPath o key m path unit) ∧
    (∀ m ∈ f.fields, ∀ path unit, c.LeafPath o key m path unit →
      c.leastPack path unit ∣ m.offset.toNat) ∧
    ∃ s, c.struct? key = some s ∧ (o.padTrailing = true →
      (c.ruleOf key).size.toNat ≤ (c.ruleOf key).padded s.markers.union
        ((c.spots o key).map Spot.piece) f.footprint.alignment.toNat →
      (c.ruleOf key).boundary f.footprint.alignment.toNat ∣ f.footprint.size.toNat) := by
  rw [outcome_flatten_eq_answer] at h
  refine ⟨fun m hm => ?_, fun m _ path unit hpath => hpath.leastPack_dvd hwidth, ?_⟩
  · obtain ⟨hmem, hfield⟩ := List.mem_filter.1 hm
    obtain ⟨d, g, horigin⟩ := exists_origin h hmem
    exact horigin.exists_leafPath (by simpa using hfield)
  · obtain ⟨s, rule, ts, p, hs, laid⟩ := Catalog.exists_laid_of_answer h
    obtain rfl := laid.rule_eq hs
    refine ⟨s, hs, fun hpad hsize => ?_⟩
    rw [laid.spots_eq hs] at hsize
    exact laid.boundary_dvd_size hpad hsize

end

/-- The outermost of these structs has pack two. So what is nested in there stands at even offsets,
and the size of 62 bytes is a multiple of two, although the alignment is eight. -/
theorem fields_aligned_widened :
    ∃ f, outcome (Bench.flatten widenedCatalog (.ofPointerWidth 8) ⟨"Outer"⟩)
        (Workbench.afterCalls widenedCatalog (.ofPointerWidth 8) []) = .ok f ∧
      f.footprint = ⟨62, 8⟩ ∧
      (f.fields.map fun m => (m.name, m.offset)) = [("lead", 0), ("placed_wide_x", 10),
        ("placed_wide_y", 18), ("placed_tag", 4), ("either_whole", 34), ("either_half", 34),
        ("slots_Start", 38)] ∧
      (∀ m ∈ f.fields, ∃ path unit,
        widenedCatalog.LeafPath (.ofPointerWidth 8) ⟨"Outer"⟩ m path unit ∧
          widenedCatalog.leastPack path unit ∣ m.offset.toNat) ∧
      (widenedCatalog.ruleOf ⟨"Outer"⟩).boundary 8 ∣ 62 := by
  have hflat : ∃ f, outcome (Bench.flatten widenedCatalog (.ofPointerWidth 8) ⟨"Outer"⟩)
        (Workbench.afterCalls widenedCatalog (.ofPointerWidth 8) []) = .ok f ∧
      f.footprint = ⟨62, 8⟩ ∧
      (f.fields.map fun m => (m.name, m.offset)) = [("lead", 0), ("placed_wide_x", 10),
        ("placed_wide_y", 18), ("placed_tag", 4), ("either_whole", 34), ("either_half", 34),
        ("slots_Start", 38)] := by decide +kernel
  obtain ⟨f, hf, hfootprint, hfields⟩ := hflat
  obtain ⟨hpaths, haligned, s, -, hsize⟩ := fields_aligned (.inr rfl) [] hf
  rw [hfootprint] at hsize
  refine ⟨f, hf, hfootprint, hfields, fun m hm => ?_, hsize rfl (Nat.zero_le _)⟩
  obtain ⟨path, unit, hpath⟩ := hpaths m hm
  exact ⟨path, unit, hpath, haligned m hm path unit hpath⟩

end FlatLayout
