import FlatLayout.Proofs.Memoisation
import FlatLayout.Proofs.NestingModes
import FlatLayout.Proofs.Success

/-!
# Offsets that are declared

In an explicit struct the author writes where each field goes. The offset that is written goes the
same way as one that is computed: it is the base of the field, and the field stands at the next
multiple of its boundary. So a declared offset is kept only if it is on the boundary of the field,
and a field that its author put elsewhere is moved. Whether it is moved or not, the struct has room
for it at both places.

The boundary of a field is the pack of the struct or the size of the field, for a buffer that of an
element, whichever is less. A struct with pack 1 keeps every offset, and the flat structs, which are
explicit themselves, have pack 1.

## Main definitions

* `FieldDecl.emittedName` — the name of the field that stands for a declared one

## Main results

* `SpotStep.offset_explicit` — an explicit struct rounds the declared offsets up
* `declared_offset_iff` — where the fields of an explicit struct stand, and when it is where they
  were declared
-/

namespace FlatLayout

/-! ### One field -/

/-- The name of the field that stands for a field of a type: a buffer without a native form is
emitted as its first element. -/
def FieldDecl.emittedName (f : FieldDecl) (type : Binding) : String :=
  if f.fixedCount.isSome && !type.isBufferElement then startName f.name else f.name

/-- The bytes of a field whose elements have a size. -/
def FieldDecl.bytes (f : FieldDecl) (unit : UInt32) : Nat :=
  match f.fixedCount with
  | none => unit.toNat
  | some count => unit.toNat * count.toNat

section

variable {c : Catalog} {o : Options} {child : QualName → Except LayoutError FlatStruct}
  {key : QualName} {p q : Placement} {t : Spot}

/-- A field that is no struct is emitted with its place, its size and one name. -/
theorem Spot.Filled.exists_emitted {role : Role} {unit : UInt32} (h : t.Filled o role)
    (hrole : role.isAccessor = false) (hunit : t.element = .scalar unit) :
    ∃ m ∈ t.members, m.isAccessor = false ∧ m.source = t.source ∧ m.offset = t.offset ∧
      m.size = t.size ∧ t.size.toNat = t.decl.bytes unit ∧
      m.name = t.decl.emittedName t.type := by
  cases h with
  | scalar hcount helement hmembers =>
    obtain rfl := Element.scalar.inj (helement.symm.trans hunit)
    rw [hmembers]
    exact ⟨_, List.mem_cons_self, hrole, rfl, rfl, rfl, by simp [FieldDecl.bytes, hcount],
      by simp [FieldDecl.emittedName, hcount, PlacedMember.ofField]⟩
  | native count size hcount helement hnative hsized hmembers =>
    obtain rfl := Element.scalar.inj (helement.symm.trans hunit)
    rw [hmembers]
    exact ⟨_, List.mem_cons_self, hrole, rfl, rfl, rfl, by simp [FieldDecl.bytes, hcount, hsized],
      by simp [FieldDecl.emittedName, hcount, hnative, PlacedMember.ofField]⟩
  | started count size hcount helement hnative hsized hmembers =>
    obtain rfl := Element.scalar.inj (helement.symm.trans hunit)
    rw [hmembers]
    exact ⟨_, List.mem_cons_self, rfl, rfl, rfl, rfl, by simp [FieldDecl.bytes, hcount, hsized],
      by simp [FieldDecl.emittedName, hcount, hnative]⟩
  | nested flat _ helement => rw [helement] at hunit; cases hunit

/-- What is no struct is made of a number of bytes. -/
theorem SpotStep.exists_scalar (h : SpotStep c o child key p t q)
    (hstruct : t.type.isStruct = false) : ∃ unit, t.element = .scalar unit := by
  cases helement : t.element with
  | scalar unit => exact ⟨unit, rfl⟩
  | struct flat =>
    obtain ⟨d, htype, -⟩ := exists_struct_of_made (helement ▸ h.made)
    rw [htype] at hstruct
    cases hstruct

/-- **An explicit struct rounds the declared offsets up**, each to the boundary of its field. -/
theorem SpotStep.offset_explicit (h : SpotStep c o child key p t q) (hunion : p.isUnion = false)
    (hexplicit : p.rule.isExplicit = true) :
    ∃ n, t.decl.offset = some n ∧
      t.offset.toNat = roundUp n.toNat (p.rule.boundary t.element.alignment.toNat) := by
  obtain ⟨n, hn⟩ := Option.isSome_iff_exists.1 (h.isSome_offset hunion hexplicit)
  have hoffset := h.exact.1
  rw [LayoutRule.position, hunion, if_neg (by decide), if_pos hexplicit, Spot.piece, hn] at hoffset
  exact ⟨n, hn, hoffset⟩

end

/-! ### All fields -/

section

variable {c : Catalog} {o : Options} {key : QualName} {s : StructDecl} {a : LayoutAttr}
  {f : FlatStruct}

/-- **Declared offsets are kept if they are aligned.** In a flattened struct with explicit layout
that is no union, every field whose type is no struct has a declared offset, and one field stands
for it. That field stands at the declared offset, rounded up to the least of the pack and the size
of an element; so it stands where it was declared if and only if the declared offset is a multiple
of that. The size of the struct is no less than the declared offset and the bytes of the field. -/
theorem declared_offset_iff (calls : List Call)
    (h : outcome (Bench.flatten c o key) (Workbench.afterCalls c o calls) = .ok f)
    (hs : c.struct? key = some s) (ha : s.layout = some a) (hkind : a.kind = .explicit)
    (hunion : s.markers.union = false) {g : FieldDecl} {source : Nat}
    (hg : Slot.field g source ∈ s.slots) {type : Binding} (htype : c.bind g.type key = .ok type)
    (hstruct : type.isStruct = false) :
    ∃ n unit m, g.offset = some n ∧ type.scalarSize? o.pointerWidth = some unit ∧
      m ∈ f.fields ∧ m.source = source ∧ m.name = g.emittedName type ∧
      m.size.toNat = g.bytes unit ∧
      m.offset.toNat = roundUp n.toNat ((LayoutRule.written (some a)).boundary unit.toNat) ∧
      (m.offset = n ↔ (LayoutRule.written (some a)).boundary unit.toNat ∣ n.toNat) ∧
      n.toNat + m.size.toNat ≤ f.footprint.size.toNat := by
  rw [outcome_flatten_eq_answer] at h
  obtain ⟨s', rule, ts, p, hs', laid⟩ := Catalog.exists_laid_of_answer h
  obtain rfl := Option.some.inj (hs.symm.trans hs')
  obtain rfl : rule = .written (some a) := ha ▸ (LayoutRule.ofAttr_eq_ok_iff.1 laid.ruled).2
  obtain ⟨t, ht, rfl, rfl⟩ := laid.field_mem_slots_iff.1 hg
  obtain rfl := Except.ok.inj ((laid.bound ht).symm.trans htype)
  obtain ⟨p', q, hstep, hrule, hkept⟩ := laid.run.exists_step_within ht
  have hrule : p'.rule = .written (some a) := hrule
  have hkept : p'.isUnion = false := hkept.trans hunion
  obtain ⟨n, hn, hoffset⟩ :=
    hstep.offset_explicit hkept (hrule ▸ LayoutRule.isExplicit_written hkind)
  obtain ⟨unit, helement⟩ := hstep.exists_scalar hstruct
  obtain ⟨m, hm, hfield, hsource, hmoffset, hmsize, hbytes, hname⟩ :=
    hstep.filled.exists_emitted (isAccessor_plainRole p') helement
  rw [hrule, helement, Element.alignment, ← hmoffset] at hoffset
  have hmem : m ∈ f.fields := by
    refine List.mem_filter.2 ⟨?_, by rw [hfield]; rfl⟩
    rw [laid.members_eq]
    exact List.mem_flatMap.2 ⟨t, ht, hm⟩
  have hkept_iff : m.offset = n ↔
      (LayoutRule.written (some a)).boundary unit.toNat ∣ n.toNat := by
    rw [← UInt32.toNat_inj, hoffset, roundUp_eq_self_iff (LayoutRule.boundary_pos _ _)]
  have hroom : n.toNat + m.size.toNat ≤ f.footprint.size.toNat :=
    calc n.toNat + m.size.toNat
        ≤ m.offset.toNat + m.size.toNat := by
          rw [hoffset, roundUp_eq_add (LayoutRule.boundary_pos _ _)]
          omega
      _ ≤ f.footprint.size.toNat := within_of_answer h m (List.mem_filter.1 hmem).1
  exact ⟨n, unit, m, hn, scalarSize?_of_made (helement ▸ hstep.made), hmem, hsource, hname,
    hmsize ▸ hbytes, hoffset, hkept_iff, hroom⟩

end

/-- An explicit struct with one integer, off its boundary. -/
def offBoundaryNumber : StructDecl :=
  ⟨["public"], "Number", .none, some ⟨.explicit, none, none⟩,
    [.field ((FieldDecl.ofNames (.named "int") ["value"]).withOffset 2)]⟩

/-- A buffer of two pointers, off its boundary. -/
def offBoundarySlots : FieldDecl :=
  ((FieldDecl.ofNames (.named "IntPtr") ["slots"]).withOffset 9).withFixedCount 2

/-- An explicit struct with a number on its boundary and the buffer behind it. -/
def offBoundaryTable : StructDecl :=
  ⟨["public"], "Table", .none, some ⟨.explicit, none, none⟩,
    [.field ((FieldDecl.ofNames (.named "short") ["count"]).withOffset 6),
      .field offBoundarySlots]⟩

/-- Both structs. -/
def offBoundaryCatalog : Catalog :=
  ⟨[(⟨"Number"⟩, offBoundaryNumber), (⟨"Table"⟩, offBoundaryTable)], [], [], [], []⟩

/-- The buffer is declared at 9, and its first element stands at 16, which is the next multiple of
the size of a pointer. -/
theorem declared_offset_iff_buffer :
    ∃ f m, outcome (Bench.flatten offBoundaryCatalog (.ofPointerWidth 8) ⟨"Table"⟩)
        (Workbench.afterCalls offBoundaryCatalog (.ofPointerWidth 8) []) = .ok f ∧
      m ∈ f.fields ∧ m.name = "slots_Start" ∧ m.offset.toNat = 16 ∧ m.offset ≠ 9 ∧
      9 + m.size.toNat ≤ f.footprint.size.toNat := by
  have hflat : ∃ f, outcome (Bench.flatten offBoundaryCatalog (.ofPointerWidth 8) ⟨"Table"⟩)
        (Workbench.afterCalls offBoundaryCatalog (.ofPointerWidth 8) []) = .ok f ∧ True := by
    decide +kernel
  obtain ⟨f, hf, -⟩ := hflat
  have hslot : Slot.field offBoundarySlots 1 ∈ offBoundaryTable.slots :=
    List.mem_cons_of_mem _ List.mem_cons_self
  have htype : offBoundaryCatalog.bind offBoundarySlots.type ⟨"Table"⟩ =
      .ok (.primitive .intPtr) := by decide +kernel
  obtain ⟨n, unit, m, hn, hunit, hm, -, hname, -, hoffset, hkept, hroom⟩ :=
    declared_offset_iff [] hf rfl rfl rfl rfl hslot htype rfl
  obtain rfl : n = 9 := (Option.some.inj hn).symm
  obtain rfl : unit = 8 := (Option.some.inj hunit).symm
  exact ⟨f, m, hf, hm, hname, hoffset, fun h => absurd (hkept.1 h) (by decide), hroom⟩

/-- The integer is declared at 2, and it stands at 4. -/
theorem declared_offset_moved :
    offBoundaryCatalog.struct? ⟨"Number"⟩ = some offBoundaryNumber ∧
    offBoundaryNumber.fields.map (fun g => (g.name, g.offset)) = [("value", some 2)] ∧
    ∃ f, outcome (Bench.flatten offBoundaryCatalog (.ofPointerWidth 8) ⟨"Number"⟩)
        (Workbench.afterCalls offBoundaryCatalog (.ofPointerWidth 8) []) = .ok f ∧
      f.fields.map (fun m => (m.name, m.offset)) = [("value", 4)] :=
  ⟨rfl, by decide +kernel, by decide +kernel⟩

end FlatLayout
