import FlatLayout.Project
import FlatLayout.Proofs.Reflattening

/-!
# Drift

A flat declaration is checked by flattening it once more, which must give the size and the alignment
that it was computed with. Where nested structs are kept together this may fail. What stands for a
nested struct has the type of the first field in there, so the fields behind that one have no say in
the alignment when the declaration is read, although they had one when it was made.

The size is written into the declaration and cannot drift. The alignment can only fall, to the
largest that one of the fields asks for by its type. So the check is passed exactly if one of the
fields asks for as much as the struct did.

## Main definitions

* `PlacedMember.AsksFor` — the alignment that a field asks for when its declaration is read
* `FlatStruct.RereadAs` — what a flat declaration is read as

## Main results

* `outcome_verifyStruct` — the check of one struct
* `verifyStruct_iff` — which flat declarations pass it
* `alignment_falls_kept` — one that does not
-/

namespace FlatLayout

open Relation

/-- Among things that each have an alignment there is one that has the largest. -/
theorem exists_largest {α : Type} {P : α → UInt32 → Prop} {xs : List α}
    (h : ∀ x ∈ xs, ∃ unit, P x unit) :
    ∃ a, (a = 0 ∨ ∃ x ∈ xs, P x a) ∧ ∀ x ∈ xs, ∃ unit, P x unit ∧ unit ≤ a := by
  induction xs with
  | nil => exact ⟨0, .inl rfl, nofun⟩
  | cons x xs ih =>
    obtain ⟨unit, hunit⟩ := h x List.mem_cons_self
    obtain ⟨a, ha, hle⟩ := ih fun y hy => h y (List.mem_cons_of_mem x hy)
    by_cases hmore : a ≤ unit
    · refine ⟨unit, .inr ⟨x, List.mem_cons_self, hunit⟩, List.forall_mem_cons.2 ⟨?_, ?_⟩⟩
      · exact ⟨unit, hunit, UInt32.le_refl unit⟩
      · intro y hy
        obtain ⟨unit', hunit', hle'⟩ := hle y hy
        exact ⟨unit', hunit', UInt32.le_trans hle' hmore⟩
    · refine ⟨a, ?_, List.forall_mem_cons.2 ⟨⟨unit, hunit, ?_⟩, hle⟩⟩
      · exact ha.imp_right fun ⟨y, hy, hya⟩ => ⟨y, List.mem_cons_of_mem x hy, hya⟩
      · exact (UInt32.le_total a unit).resolve_left hmore

section

variable {c c' : Catalog} {o : Options} {key : QualName} {f f' : FlatStruct} {m : PlacedMember}
  {footprint footprint' : Footprint} {type : Binding} {unit asked : UInt32}

/-- **The check of one struct** compares footprints, whatever was flattened before. -/
theorem outcome_verifyStruct (calls : List Call) (h : c.answer o f.key = .ok f') :
    outcome (Project.verifyStruct c o f) (Workbench.afterCalls c o calls) =
      if f'.footprint = f.footprint then .ok ()
      else .error (.flawed (.drift f.key f.footprint.size f.footprint.alignment
        f'.footprint.size f'.footprint.alignment)) := by
  have hagain := (outcome_flatten_eq_answer c o calls f.key).trans h
  rw [Project.verifyStruct, outcome_bind_ok hagain]
  split <;> rfl

/-- Read in the struct `key`, the declaration of the field asks for an alignment. -/
def PlacedMember.AsksFor (m : PlacedMember) (c : Catalog) (o : Options) (key : QualName)
    (unit : UInt32) : Prop :=
  ∃ type, c.bind m.type key = .ok type ∧ type.scalarSize? o.pointerWidth = some unit

namespace PlacedMember.Fits

theorem asksFor (h : m.Fits c o key footprint type unit) : m.AsksFor c o key unit :=
  ⟨type, h.bound, h.reads.size⟩

theorem asked_eq (h : m.Fits c o key footprint type unit) (hasked : m.AsksFor c o key asked) :
    asked = unit := by
  obtain ⟨type', hbind, hunit⟩ := hasked
  obtain rfl := Except.ok.inj (h.bound.symm.trans hbind)
  exact Option.some.inj (hunit.symm.trans h.reads.size)

/-- What a field fits into may have any alignment that suffices for the field. -/
theorem realigned (h : m.Fits c o key footprint type unit)
    (hsize : footprint'.size = footprint.size) (hle : unit ≤ footprint'.alignment) :
    m.Fits c o key footprint' type unit :=
  ⟨h.bound, h.reads, hsize ▸ h.inside, UInt32.le_iff_toNat_le.1 hle⟩

end PlacedMember.Fits

/-- What the flat declaration of `f` is read as: the same, but for the alignment. -/
structure FlatStruct.RereadAs (f f' : FlatStruct) (c : Catalog) (o : Options) (key : QualName) :
    Prop where
  size : f'.footprint.size = f.footprint.size
  /-- A field asks for the alignment, unless there is none. -/
  attained : f'.footprint.alignment = 0 ∨
    ∃ m ∈ f.fields, m.AsksFor c o key f'.footprint.alignment
  /-- No field asks for more. -/
  most : ∀ m ∈ f.fields, ∀ unit, m.AsksFor c o key unit → unit ≤ f'.footprint.alignment
  decl : f'.decl = f.decl
  fields : f'.fields.map (fun m => (m.name, m.type, m.fixedCount, m.offset)) =
    f.fields.map (fun m => (m.name, m.type, m.fixedCount, m.offset))

/-- A declaration whose fields fit can be read. -/
theorem exists_rereadAs (h : c.answer o key = .ok f) (hdecl : c'.struct? key = some f.decl)
    (hfits : ∀ m ∈ f.fields, ∃ type unit, m.Fits c' o key f.footprint type unit) :
    ∃ f', c'.answer o key = .ok f' ∧ f.RereadAs f' c' o key := by
  have hasks : ∀ m ∈ f.fields, ∃ unit, m.AsksFor c' o key unit := by
    intro m hm
    obtain ⟨type, unit, hfit⟩ := hfits m hm
    exact ⟨unit, hfit.asksFor⟩
  obtain ⟨a, hattained, hmost⟩ := exists_largest hasks
  -- the fields fit as well into a struct that asks for no more than the largest of them
  obtain ⟨footprint, hsize, rfl⟩ : ∃ footprint : Footprint,
      footprint.size = f.footprint.size ∧ footprint.alignment = a :=
    ⟨⟨f.footprint.size, a⟩, rfl, rfl⟩
  have hnewFits : ∀ m ∈ f.fields, ∀ asked, m.AsksFor c' o key asked →
      asked ≤ footprint.alignment ∧ ∃ type, m.Fits c' o key footprint type asked := by
    intro m hm asked hasked
    obtain ⟨type, unit, hfit⟩ := hfits m hm
    obtain ⟨unit', hunit', hle⟩ := hmost m hm
    obtain rfl := hfit.asked_eq hunit'
    obtain rfl := hfit.asked_eq hasked
    exact ⟨hle, type, hfit.realigned hsize hle⟩
  obtain ⟨f', hf', rfl, hsame, hfields⟩ := reflatten_of_fits h hdecl hsize
    (fun m hm => by
      obtain ⟨unit, hunit⟩ := hasks m hm
      obtain ⟨-, type, hfit⟩ := hnewFits m hm unit hunit
      exact ⟨type, unit, hfit⟩)
    (hattained.imp_right fun ⟨m, hm, hunit⟩ => ⟨m, hm, (hnewFits m hm _ hunit).2⟩)
  exact ⟨f', hf', hsize, hattained, fun m hm asked h => (hnewFits m hm asked h).1, hsame, hfields⟩

/-- What was read has the footprint that it should have if the alignment did not fall. -/
theorem FlatStruct.RereadAs.footprint_eq_iff (h : f.RereadAs f' c o key)
    (hle : f'.footprint.alignment ≤ f.footprint.alignment) :
    f'.footprint = f.footprint ↔
      f.footprint.alignment = 0 ∨ ∃ m ∈ f.fields, m.AsksFor c o key f.footprint.alignment := by
  constructor
  · intro hsame
    rw [← hsame]
    exact h.attained
  · intro hasked
    have hge : f.footprint.alignment ≤ f'.footprint.alignment := by
      rcases hasked with hzero | ⟨m, hm, hasked⟩
      · rw [hzero]
        exact UInt32.zero_le
      · exact h.most m hm _ hasked
    have halignment := UInt32.le_antisymm hle hge
    calc f'.footprint = ⟨f'.footprint.size, f'.footprint.alignment⟩ := rfl
      _ = ⟨f.footprint.size, f.footprint.alignment⟩ := by rw [h.size, halignment]
      _ = f.footprint := rfl

/-- **Which flat declarations pass the check.** Take a struct that can be flattened, with only
primitive types and pointers in it at the bottom, and with no empty buffer without a native form,
whatever is done with nested structs. Flattened under its own name in any other catalog, its flat
declaration gives the same size, the same declaration and the same fields. The alignment is then the
largest that one of the fields asks for, and no larger than before. So the check is passed if and
only if one of the fields asks for all of it, or if there is none. -/
theorem verifyStruct_iff (calls : List Call)
    (h : outcome (Bench.flatten c o key) (Workbench.afterCalls c o calls) = .ok f)
    (hleaves : ∀ d g type, ReflTransGen c.Contains key d → c.HasField d g →
      c.bind g.type d = .ok type → type.isFixed = true ∨ type.isStruct = true)
    (hcounts : ∀ d g type, ReflTransGen c.Contains key d → c.HasField d g →
      c.bind g.type d = .ok type → g.fixedCount = some 0 → type.isBufferElement = true)
    (hdecl : c'.struct? key = some f.decl) (calls' : List Call) :
    ∃ f', outcome (Bench.flatten c' o key) (Workbench.afterCalls c' o calls') = .ok f' ∧
      f.RereadAs f' c' o key ∧ f'.footprint.alignment ≤ f.footprint.alignment ∧
      (outcome (Project.verifyStruct c' o f) (Workbench.afterCalls c' o calls') = .ok () ↔
        f.footprint.alignment = 0 ∨ ∃ m ∈ f.fields, m.AsksFor c' o key f.footprint.alignment) := by
  rw [outcome_flatten_eq_answer] at h ⊢
  have hfits := fits_of_meant h (bind_of_leaves hleaves c') hcounts
  obtain ⟨f', hf', hreread⟩ := exists_rereadAs h hdecl hfits
  have hle : f'.footprint.alignment ≤ f.footprint.alignment := by
    rcases hreread.attained with hzero | ⟨m, hm, hasked⟩
    · rw [hzero]
      exact UInt32.zero_le
    · obtain ⟨type, unit, hfit⟩ := hfits m hm
      rw [hfit.asked_eq hasked]
      exact UInt32.le_iff_toNat_le.2 hfit.aligned
  have hcheck := outcome_verifyStruct calls' ((key_of_flattenUnder h).symm ▸ hf')
  refine ⟨f', hf', hreread, hle, ?_⟩
  rw [hcheck, ← hreread.footprint_eq_iff hle]
  by_cases hsame : f'.footprint = f.footprint
  · simp only [hsame, if_true]
  · simp only [hsame, if_false, reduceCtorEq]

end

/-- Two structs around the same struct `C`, whose first field asks for less than `C` does. -/
def keptCatalog : Catalog :=
  let field (type name : String) : Member := .field (.ofNames (.named type) [name])
  let struct (name : String) (members : List Member) :=
    (QualName.mk name, (⟨["public"], name, .none, none, members⟩ : StructDecl))
  ⟨[struct "C" [field "byte" "a", field "int" "b"], struct "P" [field "C" "c"],
    struct "Q" [field "C" "c", field "int" "d"]], [], [], [], []⟩

/-- Here the theorem says that `Q` passes the check, as it has a field of its own that asks for the
alignment, and that `P` does not. -/
theorem verifyStruct_iff_kept :
    let o := { Options.ofPointerWidth 8 with inlineNested := false }
    ∃ p q, outcome (Bench.flatten keptCatalog o ⟨"P"⟩) .empty = .ok p ∧
      outcome (Bench.flatten keptCatalog o ⟨"Q"⟩) .empty = .ok q ∧
      let redeclared : Catalog := ⟨[(⟨"P"⟩, p.decl), (⟨"Q"⟩, q.decl)], [], [], [], []⟩
      outcome (Project.verifyStruct redeclared o q) .empty = .ok () ∧
      outcome (Project.verifyStruct redeclared o p) .empty ≠ .ok () := by
  intro o
  have hall : keptCatalog.allFields (fun g type =>
      (type.isFixed || type.isStruct) && g.fixedCount != some 0) = true := by decide +kernel
  have hfields : ∀ d g type, keptCatalog.HasField d g → keptCatalog.bind g.type d = .ok type →
      (type.isFixed = true ∨ type.isStruct = true) ∧ g.fixedCount ≠ some 0 := by
    intro d g type hg hbind
    simpa using Catalog.of_allFields hall hg hbind
  have hp : ∃ p, outcome (Bench.flatten keptCatalog o ⟨"P"⟩) .empty = .ok p ∧
      p.footprint.alignment = 4 ∧ ∀ m ∈ p.fields, m.type = .named "byte" := by decide +kernel
  have hq : ∃ q, outcome (Bench.flatten keptCatalog o ⟨"Q"⟩) .empty = .ok q ∧
      q.footprint.alignment = 4 ∧ ∃ m ∈ q.fields, m.type = .named "int" := by decide +kernel
  have hbyte : keptCatalog.bind (.named "byte") ⟨"C"⟩ = .ok (.primitive .byte) := by decide +kernel
  have hint : keptCatalog.bind (.named "int") ⟨"C"⟩ = .ok (.primitive .int) := by decide +kernel
  obtain ⟨p, hp, hpalign, hbytes⟩ := hp
  obtain ⟨q, hq, hqalign, m, hm, htype⟩ := hq
  refine ⟨p, q, hp, hq, ?_⟩
  intro redeclared
  have hdeclP : redeclared.struct? ⟨"P"⟩ = some p.decl := rfl
  have hdeclQ : redeclared.struct? ⟨"Q"⟩ = some q.decl := rfl
  obtain ⟨-, -, -, -, hcheckP⟩ := verifyStruct_iff [] hp
    (fun d g type _ hg hbind => (hfields d g type hg hbind).1)
    (fun d g type _ hg hbind hzero => absurd hzero (hfields d g type hg hbind).2) hdeclP []
  obtain ⟨-, -, -, -, hcheckQ⟩ := verifyStruct_iff [] hq
    (fun d g type _ hg hbind => (hfields d g type hg hbind).1)
    (fun d g type _ hg hbind hzero => absurd hzero (hfields d g type hg hbind).2) hdeclQ []
  refine ⟨hcheckQ.2 (.inr ⟨m, hm, .primitive .int, ?_, ?_⟩), fun hok => ?_⟩
  · rw [htype]
    exact bind_of_isFixed hint rfl redeclared _
  · rw [hqalign]
    rfl
  · rcases hcheckP.1 hok with hzero | ⟨m, hm, type, hbind, hsize⟩
    · rw [hpalign] at hzero
      cases hzero
    · rw [hbytes m hm, bind_of_isFixed hbyte rfl redeclared] at hbind
      obtain rfl := Except.ok.inj hbind
      rw [hpalign] at hsize
      cases hsize

/-- `P` is aligned to four bytes, as `b` is, and its flat declaration, which has one field of type
`byte`, to one. -/
theorem alignment_falls_kept :
    let o := { Options.ofPointerWidth 8 with inlineNested := false }
    keptCatalog.allFields (fun g type =>
      (type.isFixed || type.isStruct) && g.fixedCount != some 0) = true ∧
    ∃ f, outcome (Bench.flatten keptCatalog o ⟨"P"⟩) .empty = .ok f ∧ f.footprint = ⟨8, 4⟩ ∧
      let redeclared : Catalog := ⟨[(⟨"P"⟩, f.decl)], [], [], [], []⟩
      (∃ f', outcome (Bench.flatten redeclared o ⟨"P"⟩) .empty = .ok f' ∧
        f'.footprint = ⟨8, 1⟩) ∧
      outcome (Project.verifyStruct redeclared o f) .empty =
        .error (.flawed (.drift ⟨"P"⟩ 8 4 8 1)) := by
  decide +kernel

end FlatLayout
