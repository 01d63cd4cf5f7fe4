import FlatLayout.Proofs.Composition
import FlatLayout.Proofs.Containment

/-!
# Where members come from

Every member of a flat struct goes back to one declared field: of the struct itself, or of a struct
that it contains at some depth. That field has written the type of the member; the type is copied
with the member from container to container and never looked at again. `Catalog.Origin` follows a
member back to its field.

What the field is bound to in its own struct decides how the member would be read if it were
declared where it is now. This is what the second half is about: a field of a flat struct goes back
to a scalar or a buffer, never to a struct, and where nested structs are spread, the alignment of a
flat struct is the largest that one of its own fields asks for.

## Main definitions

* `Catalog.HasField` — a struct declares a field
* `Catalog.Origin` — the field that a member of a flat struct goes back to
* `PlacedMember.storage` — the bytes that a field takes when its declaration is read

## Main results

* `exists_origin` — every member goes back to a field
* `Catalog.Origin.type_eq` — and has the type that is written there
* `Catalog.Origin.readsAs`, `Catalog.Origin.storage_le` — fields go back to scalars and buffers
* `alignment_of_answer` — the alignment of a flat struct, read off its fields
-/

namespace FlatLayout

open Relation

/-- The struct `d` declares the field `g`. -/
def Catalog.HasField (c : Catalog) (d : QualName) (g : FieldDecl) : Prop :=
  ∃ s source, c.struct? d = some s ∧ Slot.field g source ∈ s.slots

/-- Whether every field of every struct suits what it is bound to. For a given catalog this settles
conditions on all that a struct contains. -/
def Catalog.allFields (c : Catalog) (suits : FieldDecl → Binding → Bool) : Bool :=
  c.structs.all fun e => e.2.slots.all fun
    | .field g _ =>
      match c.bind g.type e.1 with
      | .ok type => suits g type
      | .error _ => true
    | _ => true

theorem Catalog.of_allFields {c : Catalog} {suits : FieldDecl → Binding → Bool} {d : QualName}
    {g : FieldDecl} {type : Binding} (h : c.allFields suits = true) (hg : c.HasField d g)
    (hbind : c.bind g.type d = .ok type) : suits g type = true := by
  obtain ⟨s, source, hs, hslot⟩ := hg
  rw [allFields, List.all_eq_true] at h
  have hfield := List.all_eq_true.1 (h (d, s) (mem_structs_of_struct? hs)) _ hslot
  simpa only [hbind] using hfield

/-- The member `m` of the flat struct `key` goes back to the field `g` of the struct `d`. -/
inductive Catalog.Origin (c : Catalog) (o : Options) :
    QualName → PlacedMember → QualName → FieldDecl → Prop
  /-- A field that is no struct contributes itself, or its first element and an accessor. -/
  | own {key : QualName} {t : Spot} {m : PlacedMember} (spot : t ∈ c.spots o key)
      (made : m ∈ t.members) (leaf : ∀ e, t.type ≠ .struct e) : Origin c o key m key t.decl
  /-- The accessor of a nested struct goes back to the field that is this struct. -/
  | reference {key : QualName} {t : Spot} {first : String} (spot : t ∈ c.spots o key)
      (made : .nestedAccessor t.decl first t.offset t.source ∈ t.members)
      (nested : ∃ e, t.type = .struct e) :
      Origin c o key (.nestedAccessor t.decl first t.offset t.source) key t.decl
  /-- What a nested struct hands on goes back to where it went back to in there. -/
  | moved {key e d : QualName} {t : Spot} {child : FlatStruct} {m m' : PlacedMember} {g : FieldDecl}
      (spot : t ∈ c.spots o key) (made : m' ∈ t.members) (type : t.type = .struct e)
      (flat : c.flatten o e = .ok child)
      (spread : o.inlineNested = true ∨ nestedLabel t.decl child = none)
      (member : m ∈ child.members)
      (moved : Moved (nestedLabel t.decl child) t.offset t.source m m')
      (inner : Origin c o e m d g) : Origin c o key m' d g
  /-- What stands for a nested struct that is kept together goes back to the first field in
  there. -/
  | kept {key e d : QualName} {t : Spot} {child : FlatStruct} {first : PlacedMember}
      {rest : List PlacedMember} {g : FieldDecl} (spot : t ∈ c.spots o key)
      (made : .nestedStart t.decl child first t.source t.offset ∈ t.members)
      (type : t.type = .struct e) (flat : c.flatten o e = .ok child)
      (kept : o.inlineNested = false) (fields : child.fields = first :: rest)
      (inner : Origin c o e first d g) :
      Origin c o key (.nestedStart t.decl child first t.source t.offset) d g

section

variable {c : Catalog} {o : Options} {key d : QualName} {m : PlacedMember} {g : FieldDecl}
  {f : FlatStruct} {t : Spot}

/-! ### Spots -/

/-- What has spots can be flattened. -/
theorem exists_laid_of_mem_spots (ht : t ∈ c.spots o key) :
    ∃ s rule p f, c.struct? key = some s ∧ Laid c o (c.answer o) key s rule (c.spots o key) p f ∧
      c.answer o key = .ok f := by
  have hflatten : c.flatten o = c.answer o := funext (flatten_eq_answer c o)
  have hspots : ∃ s f, c.struct? key = some s ∧
      layoutFrom c o (c.answer o) key s = .ok (c.spots o key, f) := by
    unfold Catalog.spots at ht ⊢
    rw [hflatten] at ht ⊢
    cases hs : c.declaration key with
    | error e => rw [hs] at ht; cases ht
    | ok s =>
      rw [hs] at ht
      simp only [bind, Except.bind] at ht ⊢
      cases hlay : layoutFrom c o (c.answer o) key s with
      | error e => rw [hlay] at ht; cases ht
      | ok r => exact ⟨s, r.2, Catalog.declaration_eq_ok hs, hlay⟩
  obtain ⟨s, f, hs, hlay⟩ := hspots
  obtain ⟨rule, p, laid⟩ := laid_of_layoutFrom hlay
  exact ⟨s, rule, p, f, hs, laid, Catalog.answer_of_layoutFrom hs hlay⟩

theorem exists_step_of_mem_spots (ht : t ∈ c.spots o key) :
    ∃ p q, SpotStep c o (c.answer o) key p t q := by
  obtain ⟨s, rule, p, f, -, laid, -⟩ := exists_laid_of_mem_spots ht
  exact laid.run.exists_step ht

theorem hasField_of_mem_spots (ht : t ∈ c.spots o key) : c.HasField key t.decl := by
  obtain ⟨s, rule, p, f, hs, laid, -⟩ := exists_laid_of_mem_spots ht
  exact ⟨s, t.source, hs, laid.field_mem_slots_iff.2 ⟨t, ht, rfl, rfl⟩⟩

theorem contains_of_mem_spots (ht : t ∈ c.spots o key) {e : QualName} (htype : t.type = .struct e) :
    c.Contains key e := by
  obtain ⟨s, rule, p, f, hs, laid, -⟩ := exists_laid_of_mem_spots ht
  exact (laid.contains_iff hs).2 ⟨t, ht, htype⟩

theorem SpotStep.element_of_leaf {p q : Placement} (h : SpotStep c o (c.answer o) key p t q)
    (hleaf : ∀ e, t.type ≠ .struct e) (flat : FlatStruct) : t.element ≠ .struct flat := by
  intro helement
  obtain ⟨e, htype, -⟩ := exists_struct_of_made (helement ▸ h.made)
  exact hleaf e htype

/-- What a field that is no struct contributes has the type of the field. -/
theorem Spot.Filled.type_eq {role : Role} (h : t.Filled o role)
    (hleaf : ∀ flat, t.element ≠ .struct flat) (hm : m ∈ t.members) : m.type = t.decl.type := by
  cases h with
  | scalar _ _ hmembers =>
    rw [hmembers] at hm
    rw [List.mem_singleton.1 hm]
    rfl
  | native _ _ _ _ _ _ hmembers =>
    rw [hmembers] at hm
    rw [List.mem_singleton.1 hm]
    rfl
  | started _ _ _ _ _ _ hmembers =>
    rw [hmembers] at hm
    rcases List.mem_pair.1 hm with rfl | rfl <;> rfl
  | nested flat _ helement => exact absurd helement (hleaf flat)

/-! ### Going back -/

/-- A struct contributes what it hands on, and accessors and fields that stand for it. -/
theorem Contributed.origin {e : QualName} {child : FlatStruct}
    (h : Contributed o t.decl child t.source t.offset t.members) (ht : t ∈ c.spots o key)
    (htype : t.type = .struct e) (hflat : c.answer o e = .ok child)
    (hinner : ∀ m ∈ child.members, ∃ d g, c.Origin o e m d g) (hm : m ∈ t.members) :
    ∃ d g, c.Origin o key m d g := by
  have hflat' : c.flatten o e = .ok child := (flatten_eq_answer c o e).trans hflat
  have hmade := hm
  generalize t.members = ms at h hm
  cases h with
  | childless => cases hm
  | merged _ hanonymous moved =>
    have hlabel : nestedLabel t.decl child = none := by rw [nestedLabel, hanonymous, if_pos rfl]
    obtain ⟨m₀, hm₀, hmoved⟩ := exists_unmoved moved hm
    obtain ⟨d, g, hinner⟩ := hinner m₀ hm₀
    exact ⟨d, g, .moved ht hmade htype hflat' (.inr hlabel) hm₀ (hlabel ▸ hmoved) hinner⟩
  | spread hnamed hinline moved =>
    have hlabel : nestedLabel t.decl child = some t.decl.name := by
      rw [nestedLabel, hnamed, if_neg (by decide)]
    rcases mem_insert_behind.1 hm with rfl | hm
    · exact ⟨key, t.decl, .reference ht hmade ⟨e, htype⟩⟩
    · obtain ⟨m₀, hm₀, hmoved⟩ := exists_unmoved moved hm
      obtain ⟨d, g, hinner⟩ := hinner m₀ hm₀
      exact ⟨d, g, .moved ht hmade htype hflat' (.inl hinline) hm₀ (hlabel ▸ hmoved) hinner⟩
  | @kept first rest hfields _ hkept =>
    rcases List.mem_pair.1 hm with rfl | rfl
    · have hfirst : first ∈ child.fields := by rw [hfields]; exact List.mem_cons_self
      obtain ⟨d, g, hinner⟩ := hinner first (List.mem_filter.1 hfirst).1
      exact ⟨d, g, .kept ht hmade htype hflat' hkept hfields hinner⟩
    · exact ⟨key, t.decl, .reference ht hmade ⟨e, htype⟩⟩

/-- **Every member of a flat struct** goes back to a declared field. -/
theorem exists_origin (h : c.answer o key = .ok f) (hm : m ∈ f.members) :
    ∃ d g, c.Origin o key m d g := by
  refine Catalog.answer_induction
    (motive := fun _ key f => ∀ m ∈ f.members, ∃ d g, c.Origin o key m d g) ?_ h m hm
  intro n key s rule ts p f hs laid ih m hm
  rw [laid.members_eq] at hm
  obtain ⟨t, ht, hm⟩ := List.mem_flatMap.1 hm
  have hspot : t ∈ c.spots o key := by rw [laid.spots_eq hs]; exact ht
  by_cases htype : ∃ e, t.type = .struct e
  · obtain ⟨e, htype⟩ := htype
    obtain ⟨child, hchild, -, hcontributed⟩ := laid.contributed ht htype
    have he : c.Contains key e := (laid.contains_iff hs).2 ⟨t, ht, htype⟩
    exact hcontributed.origin hspot htype hchild (ih e child he hchild) hm
  · exact ⟨key, t.decl, .own hspot hm fun e he => htype ⟨e, he⟩⟩

namespace Catalog.Origin

/-- **The type of a member is the one that its field was declared with**, letter by letter. -/
theorem type_eq (h : c.Origin o key m d g) : m.type = g.type := by
  induction h with
  | own spot made leaf =>
    obtain ⟨p, q, hstep⟩ := exists_step_of_mem_spots spot
    exact hstep.filled.type_eq (hstep.element_of_leaf leaf) made
  | reference => rfl
  | moved _ _ _ _ _ _ moved _ ih => exact moved.type.trans ih
  | kept _ _ _ _ _ _ _ ih => exact ih

/-- The field is declared by the struct itself, or by one that it contains at some depth. -/
theorem reachable (h : c.Origin o key m d g) : ReflTransGen c.Contains key d := by
  induction h with
  | own => exact .refl
  | reference => exact .refl
  | moved spot _ type _ _ _ _ _ ih => exact .head (contains_of_mem_spots spot type) ih
  | kept spot _ type _ _ _ _ ih => exact .head (contains_of_mem_spots spot type) ih

theorem hasField (h : c.Origin o key m d g) : c.HasField d g := by
  induction h with
  | own spot => exact hasField_of_mem_spots spot
  | reference spot => exact hasField_of_mem_spots spot
  | moved _ _ _ _ _ _ _ _ ih => exact ih
  | kept _ _ _ _ _ _ _ ih => exact ih

/-- In its own struct the type of the field was bound to something. -/
theorem exists_bind (h : c.Origin o key m d g) : ∃ type, c.bind g.type d = .ok type := by
  induction h with
  | own spot =>
    obtain ⟨p, q, hstep⟩ := exists_step_of_mem_spots spot
    exact ⟨_, hstep.bound⟩
  | reference spot =>
    obtain ⟨p, q, hstep⟩ := exists_step_of_mem_spots spot
    exact ⟨_, hstep.bound⟩
  | moved _ _ _ _ _ _ _ _ ih => exact ih
  | kept _ _ _ _ _ _ _ ih => exact ih

end Catalog.Origin

/-! ### Reading the declaration of a field -/

/-- The bytes that a field takes when its declaration is read, if an element has so many. -/
def PlacedMember.storage (m : PlacedMember) (unit : UInt32) : Nat :=
  unit.toNat * m.fixedCount.elim 1 UInt32.toNat

theorem PlacedMember.storage_of_none (h : m.fixedCount = none) (unit : UInt32) :
    m.storage unit = unit.toNat := by
  rw [storage, h]
  exact Nat.mul_one _

theorem PlacedMember.storage_of_some {n : UInt32} (h : m.fixedCount = some n) (unit : UInt32) :
    m.storage unit = unit.toNat * n.toNat := by
  rw [storage, h]
  rfl

/-- What can be said of a field of a flat struct that goes back to a declaration with a type. -/
structure PlacedMember.ReadsAs (m : PlacedMember) (pointerWidth : UInt32) (type : Binding)
    (unit : UInt32) : Prop where
  size : type.scalarSize? pointerWidth = some unit
  /-- It is a buffer only if it may be declared as one. -/
  native : ∀ n, m.fixedCount = some n → type.isBufferElement = true

theorem PlacedMember.ReadsAs.not_isStruct {pointerWidth unit : UInt32} {type : Binding}
    (h : m.ReadsAs pointerWidth type unit) : type.isStruct = false := by
  have hsize := h.size
  cases type with
  | struct e => cases hsize
  | primitive p => rfl
  | pointer t => rfl
  | enum k p => rfl
  | managed name => rfl

/-- A field that is no struct: what it contributes reads as its type, and it asks for the alignment
of that type. -/
theorem SpotStep.readsAs {p q : Placement} (h : SpotStep c o (c.answer o) key p t q)
    (hleaf : ∀ e, t.type ≠ .struct e) (hm : m ∈ t.members) (hfield : m.isAccessor = false) :
    m.ReadsAs o.pointerWidth t.type t.element.alignment ∧
      ((∀ n, t.decl.fixedCount = some n → t.type.isBufferElement = false → n ≠ 0) →
        m.storage t.element.alignment ≤ m.size.toNat) := by
  have hmade := h.made
  cases h.filled with
  | scalar hcount helement hmembers =>
    rw [hmembers] at hm
    obtain rfl := List.mem_singleton.1 hm
    rw [helement] at hmade ⊢
    refine ⟨⟨scalarSize?_of_made hmade, fun n hn => ?_⟩, fun _ => ?_⟩
    · cases hcount.symm.trans hn
    · exact Nat.le_of_eq (PlacedMember.storage_of_none hcount _)
  | native count size hcount helement hnative hsized hmembers =>
    rw [hmembers] at hm
    obtain rfl := List.mem_singleton.1 hm
    rw [helement] at hmade ⊢
    refine ⟨⟨scalarSize?_of_made hmade, fun _ _ => hnative⟩, fun _ => ?_⟩
    exact Nat.le_of_eq ((PlacedMember.storage_of_some hcount _).trans hsized.symm)
  | started count size hcount helement hnative hsized hmembers =>
    rw [helement] at hmade ⊢
    rw [hmembers] at hm
    rcases List.mem_pair.1 hm with rfl | rfl
    · refine ⟨⟨scalarSize?_of_made hmade, nofun⟩, fun hpos => ?_⟩
      have hcount : 0 < count.toNat := by
        rw [Nat.pos_iff_ne_zero]
        exact fun hzero => hpos count hcount hnative (UInt32.toNat_inj.1 hzero)
      rw [PlacedMember.storage_of_none rfl]
      calc size.toNat ≤ size.toNat * count.toNat := Nat.le_mul_of_pos_right _ hcount
        _ = t.size.toNat := hsized.symm
    · cases hfield
  | nested flat _ helement => exact absurd helement (h.element_of_leaf hleaf flat)

namespace Catalog.Origin

variable {type : Binding}

/-- **A field goes back to a scalar or a buffer**, never to a struct. -/
theorem readsAs (h : c.Origin o key m d g) (hfield : m.isAccessor = false)
    (hbind : c.bind g.type d = .ok type) : ∃ unit, m.ReadsAs o.pointerWidth type unit := by
  induction h with
  | own spot made leaf =>
    obtain ⟨p, q, hstep⟩ := exists_step_of_mem_spots spot
    obtain rfl := Except.ok.inj (hstep.bound.symm.trans hbind)
    exact ⟨_, (hstep.readsAs leaf made hfield).1⟩
  | reference => cases hfield
  | moved _ _ _ _ _ _ moved _ ih =>
    obtain ⟨unit, hreads⟩ := ih (moved.isAccessor_eq ▸ hfield) hbind
    exact ⟨unit, hreads.size, fun n hn => hreads.native n (moved.fixedCount ▸ hn)⟩
  | kept _ _ _ _ _ fields _ ih =>
    have hfirst := (List.mem_filter.1 (fields ▸ List.mem_cons_self)).2
    obtain ⟨unit, hreads⟩ := ih (by simpa using hfirst) hbind
    exact ⟨unit, hreads.size, hreads.native⟩

/-- The declaration of a field takes no more bytes than were set aside, unless it goes back to an
empty buffer. What stands for a nested struct has all bytes of the struct, and its declaration takes
those of the first field in there. -/
theorem storage_le (h : c.Origin o key m d g) (hfield : m.isAccessor = false)
    (hbind : c.bind g.type d = .ok type)
    (hcount : ∀ n, g.fixedCount = some n → type.isBufferElement = false → n ≠ 0)
    {unit : UInt32} (hunit : type.scalarSize? o.pointerWidth = some unit) :
    m.storage unit ≤ m.size.toNat := by
  induction h with
  | own spot made leaf =>
    obtain ⟨p, q, hstep⟩ := exists_step_of_mem_spots spot
    obtain rfl := Except.ok.inj (hstep.bound.symm.trans hbind)
    obtain ⟨hreads, hstorage⟩ := hstep.readsAs leaf made hfield
    obtain rfl := Option.some.inj (hreads.size.symm.trans hunit)
    exact hstorage hcount
  | reference => cases hfield
  | @moved _ _ _ t child m m' _ _ _ _ _ _ _ moved _ ih =>
    have hle := ih (moved.isAccessor_eq ▸ hfield) hbind hcount
    rw [PlacedMember.storage, moved.fixedCount, moved.size]
    exact hle
  | @kept _ _ _ t child first _ _ _ _ _ flat _ fields _ ih =>
    have hfirst : first ∈ child.fields := fields ▸ List.mem_cons_self
    obtain ⟨hmem, hplain⟩ := List.mem_filter.1 hfirst
    rw [flatten_eq_answer] at flat
    have hend := within_of_answer flat first hmem
    calc (PlacedMember.nestedStart t.decl child first t.source t.offset).storage unit
        = first.storage unit := rfl
      _ ≤ first.size.toNat := ih (by simpa using hplain) hbind hcount
      _ ≤ child.footprint.size.toNat := by omega

end Catalog.Origin

/-! ### Alignment -/

theorem SpotRun.alignment_le {child : QualName → Except LayoutError FlatStruct} {p q : Placement}
    {ts : List Spot} (h : SpotRun c o child key p ts q) :
    p.largest.toNat ≤ q.largest.toNat ∧
      ∀ t ∈ ts, t.element.alignment.toNat ≤ q.largest.toNat := by
  induction h with
  | nil p => exact ⟨Nat.le_refl _, by simp⟩
  | cons first rest ih =>
    have hlargest := first.toNat_largest
    refine ⟨by omega, ?_⟩
    rintro t (_ | ⟨_, ht⟩)
    · omega
    · exact ih.2 t ht

theorem SpotRun.largest_eq_or {child : QualName → Except LayoutError FlatStruct} {p q : Placement}
    {ts : List Spot} (h : SpotRun c o child key p ts q) :
    q.largest = p.largest ∨ ∃ t ∈ ts, q.largest = t.element.alignment := by
  induction h with
  | nil p => exact .inl rfl
  | @cons p q r t ts first rest ih =>
    rcases ih with hlargest | ⟨t', ht', hlargest⟩
    · have hstep : q.largest = if p.largest ≤ t.element.alignment then t.element.alignment
          else p.largest := by rw [first.eq_add]; rfl
      rw [hlargest, hstep]
      split
      · exact .inr ⟨t, List.mem_cons_self, rfl⟩
      · exact .inl rfl
    · exact .inr ⟨t', List.mem_cons_of_mem _ ht', hlargest⟩

theorem Laid.alignment_eq {child : QualName → Except LayoutError FlatStruct} {s : StructDecl}
    {rule : LayoutRule} {ts : List Spot} {p : Placement} (laid : Laid c o child key s rule ts p f) :
    f.footprint.alignment = p.largest := (Placement.le_of_finish laid.finished).2.2

/-- A spot asks for the alignment of what it is made of. -/
theorem alignment_le_of_mem_spots (h : c.answer o key = .ok f) (ht : t ∈ c.spots o key) :
    t.element.alignment.toNat ≤ f.footprint.alignment.toNat := by
  obtain ⟨s, rule, p, f', -, laid, hf⟩ := exists_laid_of_mem_spots ht
  obtain rfl := Except.ok.inj (h.symm.trans hf)
  rw [laid.alignment_eq]
  exact laid.run.alignment_le.2 t ht

theorem element_of_mem_spots (ht : t ∈ c.spots o key) {e : QualName} (htype : t.type = .struct e)
    {child : FlatStruct} (hflat : c.flatten o e = .ok child) : t.element = .struct child := by
  obtain ⟨p, q, hstep⟩ := exists_step_of_mem_spots ht
  obtain ⟨child', hchild', helement⟩ := made_struct hstep.made htype
  rw [flatten_eq_answer] at hflat
  rw [helement, Except.ok.inj (hchild'.symm.trans hflat)]

/-- A container asks for no less than a struct that it contains. -/
theorem alignment_le_of_nested (h : c.answer o key = .ok f) (ht : t ∈ c.spots o key) {e : QualName}
    (htype : t.type = .struct e) {child : FlatStruct} (hflat : c.flatten o e = .ok child) :
    child.footprint.alignment.toNat ≤ f.footprint.alignment.toNat := by
  have hle := alignment_le_of_mem_spots h ht
  rwa [element_of_mem_spots ht htype hflat] at hle

/-- A flat struct is aligned to the type that a field of it goes back to. -/
theorem Catalog.Origin.unit_le (h : c.Origin o key m d g) (hfield : m.isAccessor = false)
    {type : Binding} (hbind : c.bind g.type d = .ok type) {unit : UInt32}
    (hunit : type.scalarSize? o.pointerWidth = some unit) (hf : c.answer o key = .ok f) :
    unit.toNat ≤ f.footprint.alignment.toNat := by
  induction h generalizing f with
  | own spot made leaf =>
    obtain ⟨p, q, hstep⟩ := exists_step_of_mem_spots spot
    obtain rfl := Except.ok.inj (hstep.bound.symm.trans hbind)
    obtain rfl := Option.some.inj ((hstep.readsAs leaf made hfield).1.size.symm.trans hunit)
    exact alignment_le_of_mem_spots hf spot
  | reference => cases hfield
  | moved spot _ type flat _ _ moved _ ih =>
    have hle := alignment_le_of_nested hf spot type flat
    rw [flatten_eq_answer] at flat
    exact Nat.le_trans (ih (moved.isAccessor_eq ▸ hfield) hbind flat) hle
  | kept spot _ type flat _ fields _ ih =>
    have hle := alignment_le_of_nested hf spot type flat
    rw [flatten_eq_answer] at flat
    have hfirst := (List.mem_filter.1 (fields ▸ List.mem_cons_self)).2
    exact Nat.le_trans (ih (by simpa using hfirst) hbind flat) hle

/-- **The alignment of a flat struct**, where nested structs are spread, is the largest that one of
its fields asks for: a nested struct without fields asks for none. -/
theorem alignment_of_answer (h : c.answer o key = .ok f) (hinline : o.inlineNested = true) :
    f.footprint.alignment = 0 ∨ ∃ m ∈ f.fields, ∃ d g type, c.Origin o key m d g ∧
      c.bind g.type d = .ok type ∧
        type.scalarSize? o.pointerWidth = some f.footprint.alignment := by
  refine Catalog.answer_induction (motive := fun _ key f =>
    f.footprint.alignment = 0 ∨ ∃ m ∈ f.fields, ∃ d g type, c.Origin o key m d g ∧
      c.bind g.type d = .ok type ∧
        type.scalarSize? o.pointerWidth = some f.footprint.alignment) ?_ h
  intro n key s rule ts p f hs laid ih
  rw [laid.alignment_eq]
  rcases laid.run.largest_eq_or with hzero | ⟨t, ht, hlargest⟩
  · exact .inl hzero
  have hspot : t ∈ c.spots o key := by rw [laid.spots_eq hs]; exact ht
  have hmem : ∀ m ∈ t.members.filter fun m => !m.isAccessor, m ∈ f.fields := by
    intro m hm
    rw [laid.fields_eq]
    exact List.mem_flatMap.2 ⟨t, ht, hm⟩
  obtain ⟨p', q, hstep⟩ := laid.run.exists_step ht
  rw [hlargest]
  rcases hstep.leaf_or_struct (fun _ => none) with ⟨tree, -, hleaf⟩ | ⟨e, htype, -⟩
  · obtain ⟨m, hfields, -⟩ := hleaf.field
    have hm : m ∈ t.members.filter fun m => !m.isAccessor := by
      rw [hfields]
      exact List.mem_cons_self
    have hne := made_scalar (hleaf.unit ▸ hstep.made)
    obtain ⟨hmade, hfield⟩ := List.mem_filter.1 hm
    refine .inr ⟨m, hmem m hm, key, t.decl, t.type, .own hspot hmade hne, hstep.bound, ?_⟩
    exact (hstep.readsAs hne hmade (by simpa using hfield)).1.size
  · obtain ⟨child, hchild, -, hcontributed⟩ := laid.contributed ht htype
    have hflat : c.flatten o e = .ok child := (flatten_eq_answer c o e).trans hchild
    rw [element_of_mem_spots hspot htype hflat]
    have he : c.Contains key e := (laid.contains_iff hs).2 ⟨t, ht, htype⟩
    rcases ih e child he hchild with hzero | ⟨m, hm, d, g, type, horigin, hbind, hunit⟩
    · exact .inl hzero
    · obtain ⟨m', hm', hmoved⟩ := exists_moved (hcontributed.moved_fields hinline) hm
      refine .inr ⟨m', hmem m' hm', d, g, type, ?_, hbind, hunit⟩
      exact .moved hspot (List.mem_filter.1 hm').1 htype hflat (.inl hinline)
        (List.mem_filter.1 hm).1 hmoved horigin

end

end FlatLayout
