import FlatLayout.Proofs.DeclaredOffsets
import FlatLayout.Proofs.KeptTogether

/-!
# Storage of emitted fields

The size that a placed member has on record is what was set aside for it. What the emitted field
really takes is decided by its declaration: its type, and its number of elements if it is declared
as a buffer. The two differ where one field stands for more than itself. The start of a buffer
without a native form is a single element, and what stands for a nested struct that is kept together
is a copy of the first field in there. In both cases the declaration takes no more than was set
aside, and what was set aside ends inside of the struct.

The exception is a buffer of no elements. Nothing is set aside for it, but the field that stands for
it is an element all the same, wherever it is handed on to. If no other field reaches as far, this
element ends behind the struct, and the flat declaration is larger when it is read than it was when
it was written.

## Main results

* `Catalog.Origin.fits_iff` — when the declaration of a field takes no more than the struct has
* `emitted_field_fits_iff` — the same for the fields of a flat declaration
* `emitted_field_overruns` — a declaration that takes more
-/

namespace FlatLayout

section

variable {c : Catalog} {o : Options} {key d : QualName} {f : FlatStruct} {m : PlacedMember}
  {g : FieldDecl}

/-- The bytes that the declaration of a field takes, read off the declaration. -/
theorem PlacedMember.bytes_toField (m : PlacedMember) (unit : UInt32) :
    m.toField.bytes unit = m.storage unit := by
  cases hcount : m.fixedCount with
  | none => rw [storage_of_none hcount, FieldDecl.bytes, toField, hcount]
  | some n => rw [storage_of_some hcount, FieldDecl.bytes, toField, hcount]

/-- **When a field fits**: always, unless it goes back to an empty buffer without a native form. Its
declaration is a single element then, and one has to see where that element ends. -/
theorem Catalog.Origin.fits_iff (h : c.Origin o key m d g) (hf : c.answer o key = .ok f)
    (hm : m ∈ f.fields) {type : Binding} (hbind : c.bind g.type d = .ok type) {unit : UInt32}
    (hreads : m.ReadsAs o.pointerWidth type unit) :
    m.offset.toNat + m.storage unit ≤ f.footprint.size.toNat ↔
      (g.fixedCount = some 0 → type.isBufferElement = false →
        m.offset.toNat + unit.toNat ≤ f.footprint.size.toNat) := by
  obtain ⟨hmem, hfield⟩ := List.mem_filter.1 hm
  by_cases hempty : g.fixedCount = some 0 ∧ type.isBufferElement = false
  · obtain ⟨hzero, hnative⟩ := hempty
    have hsingle : m.fixedCount = none := by
      rw [Option.eq_none_iff_forall_ne_some]
      intro n hn
      rw [hreads.native n hn] at hnative
      cases hnative
    rw [PlacedMember.storage_of_none hsingle]
    exact ⟨fun hfits _ _ => hfits, fun hfits => hfits hzero hnative⟩
  · have hstorage : m.storage unit ≤ m.size.toNat := by
      refine h.storage_le (by simpa using hfield) hbind (fun n hn hnative hzero => ?_) hreads.size
      exact hempty ⟨hzero ▸ hn, hnative⟩
    have hend := within_of_answer hf m hmem
    constructor
    · exact fun _ hzero hnative => absurd ⟨hzero, hnative⟩ hempty
    · intro _
      omega

/-- **Which emitted fields fit.** Every instance field of a flat declaration goes back to a declared
field, whose type it has. In the struct that declares it the type is a scalar, and an element has
the size of that scalar. The offset of the emitted field and all its elements end inside of the
size of the flat declaration, with one exception: if the declared field is a buffer of no elements
and without a native form, this is so if and only if a single element ends there. -/
theorem emitted_field_fits_iff (calls : List Call)
    (h : outcome (Bench.flatten c o key) (Workbench.afterCalls c o calls) = .ok f) :
    f.decl.layout = some ⟨.explicit, some 1, some f.footprint.size⟩ ∧
    ∀ e ∈ f.decl.fields, e.isInstance = true →
      ∃ m ∈ f.fields, e = m.toField ∧ ∃ d g type unit, c.Origin o key m d g ∧ e.type = g.type ∧
        c.bind e.type d = .ok type ∧ type.scalarSize? o.pointerWidth = some unit ∧
        (m.offset.toNat + e.bytes unit ≤ f.footprint.size.toNat ↔
          (g.fixedCount = some 0 → type.isBufferElement = false →
            m.offset.toNat + unit.toNat ≤ f.footprint.size.toNat)) := by
  rw [outcome_flatten_eq_answer] at h
  obtain ⟨s, rule, ts, p, -, laid⟩ := Catalog.exists_laid_of_answer h
  refine ⟨by rw [laid.decl_eq]; rfl, fun e he hinstance => ?_⟩
  obtain ⟨m, hm, rfl⟩ := instanceField_of_answer h he hinstance
  obtain ⟨hmem, hfield⟩ := List.mem_filter.1 hm
  obtain ⟨d, g, horigin⟩ := exists_origin h hmem
  obtain ⟨type, hbind⟩ := horigin.exists_bind
  obtain ⟨unit, hreads⟩ := horigin.readsAs (by simpa using hfield) hbind
  have htype : m.toField.type = g.type := horigin.type_eq
  refine ⟨m, hm, rfl, d, g, type, unit, horigin, htype, htype ▸ hbind, hreads.size, ?_⟩
  rw [PlacedMember.bytes_toField]
  exact horigin.fits_iff h hm hbind hreads

end

/-- No field of these structs is an empty buffer, so by the theorem all emitted fields fit. -/
theorem emitted_field_fits_widened :
    ∃ f, outcome (Bench.flatten widenedCatalog (.ofPointerWidth 8) ⟨"Outer"⟩)
        (Workbench.afterCalls widenedCatalog (.ofPointerWidth 8) []) = .ok f ∧
      (f.decl.fields.filter (·.isInstance)).length = 7 ∧
      ∀ e ∈ f.decl.fields, e.isInstance = true → ∃ d type unit n,
        widenedCatalog.bind e.type d = .ok type ∧ type.scalarSize? 8 = some unit ∧
          e.offset = some n ∧ n.toNat + e.bytes unit ≤ 62 := by
  have hall : widenedCatalog.allFields (fun g _ => g.fixedCount != some 0) = true := by
    decide +kernel
  have hflat : ∃ f, outcome (Bench.flatten widenedCatalog (.ofPointerWidth 8) ⟨"Outer"⟩)
        (Workbench.afterCalls widenedCatalog (.ofPointerWidth 8) []) = .ok f ∧
      f.footprint = ⟨62, 8⟩ ∧ (f.decl.fields.filter (·.isInstance)).length = 7 := by
    decide +kernel
  obtain ⟨f, hf, hfootprint, hlength⟩ := hflat
  obtain ⟨-, hfields⟩ := emitted_field_fits_iff [] hf
  rw [hfootprint] at hfields
  refine ⟨f, hf, hlength, fun e he hinstance => ?_⟩
  obtain ⟨m, -, rfl, d, g, type, unit, horigin, htype, hbind, hunit, hfits⟩ :=
    hfields e he hinstance
  have hcount : g.fixedCount ≠ some 0 := by
    simpa using Catalog.of_allFields hall horigin.hasField (htype ▸ hbind)
  exact ⟨d, type, unit, m.offset, hbind, hunit, rfl, hfits.2 fun hzero => absurd hzero hcount⟩

/-- A struct with a buffer of no pointers. -/
def emptyBufferCatalog : Catalog :=
  let slots := (FieldDecl.ofNames (.named "IntPtr") ["x"]).withFixedCount 0
  ⟨[(⟨"P"⟩, ⟨[], "P", Markers.none.insert .flatten, none, [.field slots]⟩)], [], [], [], []⟩

/-- The struct has no bytes, and the field that is emitted for its buffer takes eight. So the flat
declaration does not pass the check that it is read as it was written. -/
theorem emitted_field_overruns :
    ∃ f, outcome (Bench.flatten emptyBufferCatalog (.ofPointerWidth 8) ⟨"P"⟩) .empty = .ok f ∧
      f.footprint = ⟨0, 8⟩ ∧
      (∃ e ∈ f.decl.fields, e.isInstance = true ∧ e.names = ["x_Start"] ∧ e.offset = some 0 ∧
        emptyBufferCatalog.bind e.type ⟨"P"⟩ = .ok (.primitive .intPtr) ∧
        (Binding.primitive .intPtr).scalarSize? 8 = some 8 ∧
        ¬ (0 : UInt32).toNat + e.bytes 8 ≤ f.footprint.size.toNat) ∧
      let redeclared : Catalog := ⟨[(⟨"P"⟩, f.decl)], [], [], [], []⟩
      outcome (Project.verifyStruct redeclared (.ofPointerWidth 8) f) .empty =
        .error (.flawed (.drift ⟨"P"⟩ 0 8 8 8)) := by
  decide +kernel

end FlatLayout
