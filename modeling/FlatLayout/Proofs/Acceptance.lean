import FlatLayout.Proofs.Containment

/-!
# What the check accepts

A flat struct is checked before it is published, and the check stops at the first flaw. It may be
given any flat struct, also one that was changed after it was made. What it accepts is described
here without the order of the checks: the declaration says what was computed, names are not
repeated, accessors point at fields, and members end inside of the struct.

All of this is meant with the exact end of a member, which is a sum and may be more than a word can
hold. The check has a word in its place, the greatest one where the sum is too large. It makes a
difference for a single size: where the struct itself is as large as the greatest word, no end is
beyond it, and members that end behind the last byte there is are accepted with all others.

## Main definitions

* `FlatStruct.Consistent` — all that is asked of a flat struct but that its members end inside

## Main results

* `checkAccessors_eq_ok_iff` — looking for a field by its name is as good as being given it
* `check_eq_ok_iff` — all checks together, with words for the ends
* `checked_eq_ok_iff` — what is accepted, and how far that is from what is safe
-/

namespace FlatLayout

/-- The declaration of a flat struct says what was computed, its members have different names, and
its accessors point at fields. -/
structure FlatStruct.Consistent (f : FlatStruct) : Prop where
  layout : f.decl.layout = some ⟨.explicit, some 1, some f.footprint.size⟩
  offsets : ∀ g ∈ f.decl.fields, g.isInstance = true → g.offset.isSome = true
  names : (f.members.map (·.name)).Nodup
  targets : ∀ a ∈ f.members, a.isAccessor = true →
    ∃ b ∈ f.fields, a.baseField = some b.name ∧ b.offset = a.offset

/-! ### One check after the other -/

section

variable {f : FlatStruct}

theorem checkAttr_eq_ok_iff :
    f.checkAttr = .ok () ↔ f.decl.layout = some ⟨.explicit, some 1, some f.footprint.size⟩ := by
  rw [FlatStruct.checkAttr, LayoutAttr.flat]
  split
  next h => simp [h]
  next h => simp [h]

theorem checkOffsets_eq_ok_iff :
    f.checkOffsets = .ok () ↔
      ∀ g ∈ f.decl.fields, g.isInstance = true → g.offset.isSome = true := by
  rw [FlatStruct.checkOffsets]
  split
  next g hflaw =>
    have hflawed := List.find?_some hflaw
    obtain ⟨hinstance, hnone⟩ := Bool.and_eq_true_iff.1 hflawed
    constructor
    · intro h
      cases h
    · intro h
      have hsome := h g (List.mem_of_find?_eq_some hflaw) hinstance
      rw [Option.isNone_iff_eq_none.1 hnone] at hsome
      cases hsome
  next hflawless =>
    constructor
    · intro _ g hg hinstance
      have hgood := List.find?_eq_none.1 hflawless g hg
      rw [hinstance, Bool.true_and, Option.isNone_iff_eq_none] at hgood
      exact Option.isSome_iff_ne_none.2 hgood
    · intro _
      rfl

/-- An accessor points at a field if there is one with the name that it has and the offset. The
field is looked for by its name, which finds it where names are not repeated. -/
theorem pointsAtField_iff (hnodup : (f.members.map (·.name)).Nodup) {a : PlacedMember} :
    f.pointsAtField a = true ↔ ∃ b ∈ f.fields, a.baseField = some b.name ∧ b.offset = a.offset := by
  rw [FlatStruct.pointsAtField]
  constructor
  · intro h
    split at h
    next b hfound =>
      obtain ⟨name, hname, hfound⟩ := Option.bind_eq_some_iff.1 hfound
      obtain ⟨hfield, hoffset⟩ := Bool.and_eq_true_iff.1 h
      have hb : b ∈ f.members := List.mem_of_find?_eq_some hfound
      have hnamed : b.name = name := by simpa using List.find?_some hfound
      exact ⟨b, List.mem_filter.2 ⟨hb, hfield⟩, hname.trans (congrArg some hnamed.symm),
        by simpa using hoffset⟩
    · cases h
  · rintro ⟨b, hb, hname, hoffset⟩
    obtain ⟨hb, hfield⟩ := List.mem_filter.1 hb
    rw [hname, Option.bind_some, FlatStruct.member?_of_nodup hnodup hb]
    simp [hoffset, hfield]

theorem checkAccessors_eq_ok_iff (hnodup : (f.members.map (·.name)).Nodup) :
    f.checkAccessors = .ok () ↔ ∀ a ∈ f.members, a.isAccessor = true →
      ∃ b ∈ f.fields, a.baseField = some b.name ∧ b.offset = a.offset := by
  rw [FlatStruct.checkAccessors]
  split
  next a hflaw =>
    have hflawed := List.find?_some hflaw
    obtain ⟨hacc, hmisses⟩ := Bool.and_eq_true_iff.1 hflawed
    constructor
    · intro h
      cases h
    · intro h
      rw [(pointsAtField_iff hnodup).2 (h a (List.mem_of_find?_eq_some hflaw) hacc)] at hmisses
      cases hmisses
  next hflawless =>
    constructor
    · intro _ a ha hacc
      refine (pointsAtField_iff hnodup).1 ?_
      simpa [hacc] using List.find?_eq_none.1 hflawless a ha
    · intro _
      rfl

/-- Two steps succeed if both do. -/
theorem bind_unit_eq_ok_iff {ε : Type} {x y : Except ε Unit} :
    (do x; y) = .ok () ↔ x = .ok () ∧ y = .ok () := by
  cases x with
  | error e => simp [bind, Except.bind]
  | ok u => simp [bind, Except.bind]

/-- **All checks together**: the names come before the accessors, so that these find their
fields. -/
theorem check_eq_ok_iff : f.check = .ok () ↔
    f.Consistent ∧ ∀ m ∈ f.members, m.endOffset ≤ f.footprint.size := by
  rw [FlatStruct.check, bind_unit_eq_ok_iff, bind_unit_eq_ok_iff, bind_unit_eq_ok_iff,
    checkAttr_eq_ok_iff, checkOffsets_eq_ok_iff, checkMembers_eq_ok_iff]
  constructor
  · rintro ⟨hlayout, hoffsets, ⟨-, hnames, hends⟩, htargets⟩
    -- the accessors are checked last, when it is known that names are not repeated
    exact ⟨⟨hlayout, hoffsets, hnames, (checkAccessors_eq_ok_iff hnames).1 htargets⟩, hends⟩
  · rintro ⟨⟨hlayout, hoffsets, hnames, htargets⟩, hends⟩
    exact ⟨hlayout, hoffsets, ⟨by simp, hnames, hends⟩,
      (checkAccessors_eq_ok_iff hnames).2 htargets⟩

theorem checked_eq_check : f.checked = .ok () ↔ f.check = .ok () := by
  rw [FlatStruct.checked]
  split
  next u h => simp [h]
  next flaw h => simp [h]

end

/-! ### Exact ends -/

/-- **What is accepted.** A flat struct is accepted if and only if it is consistent and all members
end inside of it, unless it is as large as the greatest word: then only its being consistent counts.
So it is accepted and all its members end at words if and only if it is safe: consistent, with all
members ending inside of it as sums of natural numbers. -/
theorem checked_eq_ok_iff (f : FlatStruct) :
    (f.checked = .ok () ↔ f.Consistent ∧
      ((∀ m ∈ f.members, m.offset.toNat + m.size.toNat ≤ f.footprint.size.toNat) ∨
        f.footprint.size.toNat = 2 ^ 32 - 1)) ∧
    (f.checked = .ok () ∧ (∀ m ∈ f.members, m.offset.toNat + m.size.toNat < 2 ^ 32) ↔
      f.Consistent ∧
        ∀ m ∈ f.members, m.offset.toNat + m.size.toNat ≤ f.footprint.size.toNat) := by
  have hsize := f.footprint.size.toNat_lt
  have hends : (∀ m ∈ f.members, m.endOffset ≤ f.footprint.size) ↔
      (∀ m ∈ f.members, m.offset.toNat + m.size.toNat ≤ f.footprint.size.toNat) ∨
        f.footprint.size.toNat = 2 ^ 32 - 1 := by
    simp only [PlacedMember.endOffset_le_iff]
    refine ⟨fun h => ?_, ?_⟩
    · by_cases hgreatest : f.footprint.size.toNat = 2 ^ 32 - 1
      · exact .inr hgreatest
      · exact .inl fun m hm => (h m hm).resolve_right hgreatest
    · rintro (h | hgreatest) m hm
      · exact .inl (h m hm)
      · exact .inr hgreatest
  have haccepted := checked_eq_check.trans (check_eq_ok_iff.trans (and_congr_right' hends))
  refine ⟨haccepted, ?_⟩
  rw [haccepted, and_assoc]
  refine and_congr_right' ⟨?_, fun hwithin => ⟨.inl hwithin, fun m hm => ?_⟩⟩
  · rintro ⟨hwithin | hgreatest, hwords⟩ m hm
    · exact hwithin m hm
    · have := hwords m hm
      omega
  · have := hwithin m hm
    omega

/-! ### Behind the last byte -/

/-- A struct as large as the greatest word, with a field of eight bytes where it has seven. -/
def overrunning : FlatStruct :=
  let field : FieldDecl := (FieldDecl.ofNames (.named "long") ["last"]).withOffset 4294967288
  ⟨⟨"S"⟩, .none, ⟨["public"], "S", .none, some (.flat 4294967295), [.field field]⟩,
    ⟨4294967295, 8⟩, [.ofField field 0 4294967288 8 .plain]⟩

/-- The field ends at a sum that is no word, beyond the size of the struct, and the check accepts
it. -/
theorem accepts_overrunning : ¬ (overrunning.checked = .ok () ↔ overrunning.Consistent ∧
    ∀ m ∈ overrunning.members,
      m.offset.toNat + m.size.toNat ≤ overrunning.footprint.size.toNat) := by
  have haccepted : overrunning.checked = .ok () := by decide +kernel
  have hbeyond : ¬ ∀ m ∈ overrunning.members,
      m.offset.toNat + m.size.toNat ≤ overrunning.footprint.size.toNat := by decide +kernel
  exact fun h => hbeyond (h.1 haccepted).2

end FlatLayout
