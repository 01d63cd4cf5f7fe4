import FlatLayout.Layout.Check
import FlatLayout.Proofs.Emission
import Mathlib.Algebra.Group.Nat.Defs

/-!
# Members end inside the struct

A flat struct is published with a size, and a reader of the flat declaration trusts it: no member
may end behind it. The size of a struct is where its fields end, rounded up and widened; so one has
to know that the end never moves back. It does not, because a field of a sequential struct begins at
or behind the end, and in all other structs the end is a maximum. The members that a nested struct
hands on end inside of its own size, and therefore inside of the bytes that its container sets aside
for it, whatever padding is in there.

Everything is stated on natural numbers. The ends of members are sums of words that need not be
words themselves; that they are is part of what is proved.

## Main definitions

* `Within` — some members end inside so many bytes

## Main results

* `SpotRun.end_le` — the fields of a struct end where the struct does
* `within_of_answer` — the members of a flat struct end inside of it
* `flatten_wellFormed` — a flat struct has no flaw, except for accessors that miss their field
-/

namespace FlatLayout

/-- Every member ends inside the first `n` bytes. -/
def Within (n : Nat) (ms : List PlacedMember) : Prop :=
  ∀ m ∈ ms, m.offset.toNat + m.size.toNat ≤ n

theorem Within.moved {n : Nat} {ms ms' : List PlacedMember} {outer : Option String}
    {base : UInt32} {source : Nat} (h : Within n ms)
    (hmoved : List.Forall₂ (Moved outer base source) ms ms') : Within (base.toNat + n) ms' := by
  intro m' hm'
  obtain ⟨m, hm, hmm⟩ := exists_unmoved hmoved hm'
  have hle := h m hm
  rw [hmm.offset, hmm.size]
  omega

/-! ### One placement -/

namespace Placement

variable {p : Placement}

/-- Aligning moves nothing to the front. -/
theorem le_of_align {natural base offset : UInt32} (h : p.align natural base = .ok offset) :
    base.toNat ≤ offset.toNat := by
  unfold align at h
  split at h
  next r hr =>
    obtain rfl := Except.ok.inj h
    rw [Word.addChecked_eq_some_iff.1 hr]
    exact Nat.le_add_right _ _
  · cases h

/-- The size of a struct is where its fields end or more, and at least what its author asks for. -/
theorem le_of_finish {pad : Bool} {footprint : Footprint} (h : p.finish pad = .ok footprint) :
    p.size.toNat ≤ footprint.size.toNat ∧ p.rule.size.toNat ≤ footprint.size.toNat ∧
      footprint.alignment = p.largest := by
  have hsize : ∃ size : UInt32, p.size.toNat ≤ size.toNat ∧
      footprint = ⟨if size ≤ p.rule.size then p.rule.size else size, p.largest⟩ := by
    cases pad with
    | true =>
      obtain ⟨size, hsize, h⟩ := bind_eq_ok h
      exact ⟨size, le_of_align hsize, (Except.ok.inj h).symm⟩
    | false => exact ⟨p.size, Nat.le_refl _, (Except.ok.inj h).symm⟩
  obtain ⟨size, hle, rfl⟩ := hsize
  rw [Word.toNat_greater]
  exact ⟨by omega, Nat.le_max_right _ _, rfl⟩

end Placement

/-! ### The fields of one struct -/

section

variable {c : Catalog} {o : Options} {child : QualName → Except LayoutError FlatStruct}
  {key : QualName} {p q : Placement} {t : Spot} {ts : List Spot}

/-- A field that follows the others begins at their end or behind it. -/
theorem SpotStep.size_le_offset (h : SpotStep c o child key p t q) (hover : p.overlapping = false) :
    p.size.toNat ≤ t.offset.toNat := by
  obtain ⟨base, hbase, halign⟩ := h.aligned
  obtain ⟨hunion, hexplicit⟩ := Bool.or_eq_false_iff.1 hover
  rw [Placement.baseOffset, hunion, hexplicit, if_neg (by decide), if_neg (by decide)] at hbase
  rw [Except.ok.inj hbase]
  exact Placement.le_of_align halign

/-- The end of a struct never moves back, and the field at hand is in front of it. -/
theorem SpotStep.end_le (h : SpotStep c o child key p t q) :
    p.size.toNat ≤ q.size.toNat ∧ t.offset.toNat + t.size.toNat ≤ q.size.toNat := by
  have hsize := h.toNat_size
  cases hover : p.overlapping with
  | true =>
    rw [hover, if_pos rfl] at hsize
    omega
  | false =>
    have hoffset := h.size_le_offset hover
    rw [hover, if_neg (by decide)] at hsize
    omega

theorem SpotRun.end_le (h : SpotRun c o child key p ts q) :
    p.size.toNat ≤ q.size.toNat ∧ ∀ t ∈ ts, t.offset.toNat + t.size.toNat ≤ q.size.toNat := by
  induction h with
  | nil p => exact ⟨Nat.le_refl _, by simp⟩
  | cons first rest ih =>
    obtain ⟨hback, hfield⟩ := first.end_le
    refine ⟨Nat.le_trans hback ih.1, ?_⟩
    rintro t (_ | ⟨_, ht⟩)
    · exact Nat.le_trans hfield ih.1
    · exact ih.2 t ht

theorem Contributed.within {f : FieldDecl} {flat : FlatStruct} {source : Nat} {offset : UInt32}
    {ms : List PlacedMember} (h : Contributed o f flat source offset ms)
    (hflat : Within flat.footprint.size.toNat flat.members) :
    Within (offset.toNat + flat.footprint.size.toNat) ms := by
  cases h with
  | childless => intro m hm; cases hm
  | merged _ _ moved => exact hflat.moved moved
  | spread _ _ moved =>
    intro m hm
    rcases mem_insert_behind.1 hm with rfl | hm
    · exact Nat.le_add_right _ _
    · exact hflat.moved moved m hm
  | kept =>
    intro m hm
    rcases List.mem_pair.1 hm with rfl | rfl
    · exact Nat.le_refl _
    · exact Nat.le_add_right _ _

/-- What a field contributes ends where the field does. -/
theorem Spot.Filled.within {role : Role} (h : t.Filled o role)
    (hflat : ∀ flat, t.element = .struct flat → Within flat.footprint.size.toNat flat.members) :
    Within (t.offset.toNat + t.size.toNat) t.members := by
  cases h with
  | scalar _ _ hmembers =>
    intro m hm
    rw [hmembers] at hm
    rw [List.mem_singleton.1 hm]
    exact Nat.le_refl _
  | native _ _ _ _ _ _ hmembers =>
    intro m hm
    rw [hmembers] at hm
    rw [List.mem_singleton.1 hm]
    exact Nat.le_refl _
  | started _ _ _ _ _ _ hmembers =>
    intro m hm
    rw [hmembers] at hm
    rcases List.mem_pair.1 hm with rfl | rfl
    · exact Nat.le_refl _
    · exact Nat.le_add_right _ _
  | nested flat _ helement hsize hmembers =>
    rw [hsize]
    exact (contributed_of_nestedMembers hmembers).within (hflat flat helement)

end

/-! ### All structs -/

section

variable {c : Catalog} {o : Options} {key : QualName} {f : FlatStruct}

/-- **The members of a flat struct end inside of it.** -/
theorem within_of_answer (h : c.answer o key = .ok f) :
    Within f.footprint.size.toNat f.members := by
  refine Catalog.answer_induction
    (motive := fun _ _ f => Within f.footprint.size.toNat f.members) ?_ h
  intro n key s rule ts p f hs laid ih m hm
  rw [laid.members_eq] at hm
  obtain ⟨t, ht, hm⟩ := List.mem_flatMap.1 hm
  obtain ⟨p', q, hstep⟩ := laid.run.exists_step ht
  have hspot : Within (t.offset.toNat + t.size.toNat) t.members := by
    refine hstep.filled.within fun flat helement => ?_
    obtain ⟨d, htype, hd⟩ := exists_struct_of_made (helement ▸ hstep.made)
    exact ih d flat ((laid.contains_iff hs).2 ⟨t, ht, htype⟩) hd
  calc m.offset.toNat + m.size.toNat
      ≤ t.offset.toNat + t.size.toNat := hspot m hm
    _ ≤ p.size.toNat := laid.run.end_le.2 t ht
    _ ≤ f.footprint.size.toNat := (Placement.le_of_finish laid.finished).1

/-- A flat struct is no smaller than its author asks for. -/
theorem Laid.declared_size_le {child : QualName → Except LayoutError FlatStruct} {s : StructDecl}
    {rule : LayoutRule} {ts : List Spot} {p : Placement} (laid : Laid c o child key s rule ts p f)
    {a : LayoutAttr} {n : UInt32} (ha : s.layout = some a) (hn : a.size = some n) :
    n.toNat ≤ f.footprint.size.toNat := by
  have hrule := laid.ruled
  rw [ha] at hrule
  obtain ⟨pack, -, hrule⟩ := bind_eq_ok hrule
  have hsize : p.rule.size = n := by
    rw [laid.run.rule_eq, Placement.start, ← Except.ok.inj hrule, hn]
    rfl
  rw [← hsize]
  exact (Placement.le_of_finish laid.finished).2.1

/-! ### Checking -/

theorem checkAttr_of_answer (h : c.answer o key = .ok f) : f.checkAttr = .ok () := by
  obtain ⟨s, rule, ts, p, -, laid⟩ := Catalog.exists_laid_of_answer h
  rw [FlatStruct.checkAttr, laid.decl_eq]
  exact if_pos rfl

theorem checkOffsets_of_answer (h : c.answer o key = .ok f) : f.checkOffsets = .ok () := by
  have hnone : f.decl.fields.find? (fun d => d.isInstance && d.offset.isNone) = none := by
    rw [List.find?_eq_none]
    intro g hg hflaw
    obtain ⟨hinstance, hoffset⟩ := Bool.and_eq_true_iff.1 hflaw
    obtain ⟨m, -, rfl⟩ := instanceField_of_answer h hg hinstance
    cases hoffset
  rw [FlatStruct.checkOffsets, hnone]

/-- The end of a member is no more than a size if the sum is, or if the size is the greatest word:
no end is greater. -/
theorem PlacedMember.endOffset_le_iff {size : UInt32} {m : PlacedMember} :
    m.endOffset ≤ size ↔ m.offset.toNat + m.size.toNat ≤ size.toNat ∨
      size.toNat = Word.limit - 1 := by
  have hsize := size.toNat_lt
  rw [UInt32.le_iff_toNat_le, PlacedMember.endOffset, Word.toNat_addClamped]
  simp only [Word.limit]
  omega

/-- Members are not found fault with if no name is repeated and no end is beyond the size. -/
theorem checkMembers_eq_ok_iff {size : UInt32} {seen : List String} {ms : List PlacedMember} :
    FlatStruct.checkMembers key size seen ms = .ok () ↔ (∀ m ∈ ms, m.name ∉ seen) ∧
      (ms.map (·.name)).Nodup ∧ ∀ m ∈ ms, m.endOffset ≤ size := by
  induction ms generalizing seen with
  | nil => simp [FlatStruct.checkMembers]
  | cons m ms ih =>
    rw [FlatStruct.checkMembers, List.map_cons, List.nodup_cons, List.forall_mem_cons,
      List.forall_mem_cons]
    split
    next hseen => simp [List.contains_iff_mem.1 hseen]
    next hseen =>
      split
      next hend => simp [UInt32.not_le.2 hend]
      next hend =>
        have hother : (∀ k ∈ ms, k.name ∉ m.name :: seen) ↔
            (∀ k ∈ ms, k.name ∉ seen) ∧ m.name ∉ ms.map (·.name) := by
          simp only [List.mem_cons, not_or, List.mem_map, not_exists, not_and]
          exact ⟨fun h => ⟨fun k hk => (h k hk).2, fun k hk => (h k hk).1⟩,
            fun h k hk => ⟨h.2 k hk, h.1 k hk⟩⟩
        have hfirst : m.name ∉ seen := by simpa using hseen
        rw [ih, hother]
        simp only [hfirst, UInt32.not_lt.1 hend, not_false_eq_true, true_and, and_assoc]

/-- **Only accessors can be found fault with.** -/
theorem check_of_answer (h : c.answer o key = .ok f) : f.check = f.checkAccessors := by
  have hmembers : FlatStruct.checkMembers f.key f.footprint.size [] f.members = .ok () :=
    checkMembers_eq_ok_iff.2 ⟨by simp, nodup_of_answer h, fun m hm =>
      PlacedMember.endOffset_le_iff.2 (.inl (within_of_answer h m hm))⟩
  simp only [FlatStruct.check, checkAttr_of_answer h, checkOffsets_of_answer h, hmembers, bind,
    Except.bind]

/-- **Flat structs are well formed.** Every member of a flat struct ends inside of it, as a sum of
natural numbers; it is no smaller than its author asks for; no name is repeated; the flat
declaration says what was computed and carries no marker; each of its instance fields has a single
name and an offset. So no check but the one of accessors can fail. -/
theorem flatten_wellFormed (calls : List Call)
    (h : outcome (Bench.flatten c o key) (Workbench.afterCalls c o calls) = .ok f) :
    (∀ m ∈ f.members, m.offset.toNat + m.size.toNat ≤ f.footprint.size.toNat) ∧
    f.footprint.size.toNat ≤ 2 ^ 32 - 1 ∧
    (∃ s, c.struct? key = some s ∧ ∀ a n, s.layout = some a → a.size = some n →
      n.toNat ≤ f.footprint.size.toNat) ∧
    (f.members.map (·.name)).Nodup ∧
    f.decl.layout = some ⟨.explicit, some 1, some f.footprint.size⟩ ∧ f.decl.markers = .none ∧
    (∀ g ∈ f.decl.fields, g.isInstance = true → g.names = [g.name] ∧ g.offset.isSome = true) ∧
    f.check = f.checkAccessors := by
  rw [outcome_flatten_eq_answer] at h
  obtain ⟨s, rule, ts, p, hs, laid⟩ := Catalog.exists_laid_of_answer h
  have hdecl := laid.decl_eq
  refine ⟨within_of_answer h, ?_, ⟨s, hs, fun a n => laid.declared_size_le⟩, nodup_of_answer h,
    by rw [hdecl]; rfl, by rw [hdecl]; rfl, ?_, check_of_answer h⟩
  · have hlt := f.footprint.size.toNat_lt
    omega
  · intro g hg hinstance
    obtain ⟨m, -, rfl⟩ := instanceField_of_answer h hg hinstance
    exact ⟨rfl, rfl⟩

end

/-! ### Padding and widening -/

/-- A struct that is widened by its author, inside an explicit one that is not large enough for it,
and behind it a union in a packed struct. -/
def widenedCatalog : Catalog :=
  let field (type name : String) : FieldDecl := .ofNames (.named type) [name]
  let struct (name : String) (markers : Markers) (layout : Option LayoutAttr)
      (fields : List FieldDecl) :=
    (QualName.mk name, (⟨["public"], name, markers, layout, fields.map .field⟩ : StructDecl))
  ⟨[struct "Wide" .none (some ⟨.sequential, none, some 24⟩) [field "long" "x", field "byte" "y"],
    struct "Either" (Markers.none.insert .union) none [field "uint" "whole", field "short" "half"],
    struct "Placed" .none (some ⟨.explicit, none, some 16⟩)
      [(field "Wide" "wide").withOffset 6, (field "byte" "tag").withOffset 2],
    struct "Outer" .none (some ⟨.sequential, some 2, none⟩)
      [field "byte" "lead", field "Placed" "placed", field "Either" "either",
        (field "IntPtr" "slots").withFixedCount 3]], [], [], [], []⟩

/-- Here the theorem says that no member of the outermost struct ends behind its 62 bytes, and that
only its accessors need to be checked. -/
theorem flatten_wellFormed_widened :
    ∃ f, outcome (Bench.flatten widenedCatalog (.ofPointerWidth 8) ⟨"Outer"⟩)
        (Workbench.afterCalls widenedCatalog (.ofPointerWidth 8) [.flatten ⟨"Wide"⟩]) = .ok f ∧
      f.footprint = ⟨62, 8⟩ ∧ f.members.length = 11 ∧
      (∀ m ∈ f.members, m.offset.toNat + m.size.toNat ≤ 62) ∧ f.check = f.checkAccessors := by
  have hflat : ∃ f, outcome (Bench.flatten widenedCatalog (.ofPointerWidth 8) ⟨"Outer"⟩)
        (Workbench.afterCalls widenedCatalog (.ofPointerWidth 8) [.flatten ⟨"Wide"⟩]) = .ok f ∧
      f.footprint = ⟨62, 8⟩ ∧ f.members.length = 11 := by decide +kernel
  obtain ⟨f, hf, hfootprint, hlength⟩ := hflat
  obtain ⟨hwithin, -, -, -, -, -, -, hcheck⟩ := flatten_wellFormed [.flatten ⟨"Wide"⟩] hf
  rw [hfootprint] at hwithin
  exact ⟨f, hf, hfootprint, hlength, hwithin, hcheck⟩

end FlatLayout
