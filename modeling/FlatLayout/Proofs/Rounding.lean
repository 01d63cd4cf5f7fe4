import FlatLayout.Layout.Placement
import Mathlib.Order.Bounds.Basic

/-!
# Rounding up

Placing a field rounds an offset up to a boundary. On words this is done by adding what is missing
to the next multiple, and refused if the sum is no word; here it is the usual rounding of natural
numbers, which is never refused.

## Where words could go wrong

What is missing is a remainder of a difference, and then it is added. The difference does not wrap,
because the remainder that is subtracted is less than the boundary. The second remainder only turns
a whole boundary into nothing, for an offset that is a multiple already. So the addition is the one
place where a word may not do, and it is checked. No bit is masked, so a boundary of twelve bytes is
as good as one of sixteen.

What aligning gives is the least multiple that is no less, and a least element is the only one. That
greater offsets go to greater multiples, that aligning twice is aligning once, and that multiples
stay where they are, is said of least elements and not of remainders.

## Main results

* `isLeast_roundUp` — rounding up gives the least multiple that is no less
* `Alignment.align_eq_some_iff` — aligning an offset is rounding it up, as far as words go
* `Alignment.align_eq_none_iff` — and nothing is the result beyond them
* `Alignment.effective_align_isLeast` — what aligning to the boundary of a member gives
* `Placement.toNat_of_align` — where the pack of a struct does not matter, the natural alignment of
  a field does
-/

namespace FlatLayout

/-- The next multiple of `a`, the number itself if it is one. -/
def roundUp (n a : Nat) : Nat := (n + a - 1) / a * a

/-- What is missing to the next multiple is what is added. -/
theorem roundUp_eq_add {n a : Nat} (ha : 0 < a) : roundUp n a = n + (a - n % a) % a := by
  have hdiv := Nat.div_add_mod n a
  have hlt := Nat.mod_lt n ha
  rcases Nat.eq_zero_or_pos (n % a) with hzero | hpos
  · have hquot : (n + a - 1) / a = n / a := by
      have hsum : n + a - 1 = (a - 1) + a * (n / a) := by omega
      rw [hsum, Nat.add_mul_div_left _ _ ha, Nat.div_eq_of_lt (by omega), Nat.zero_add]
    rw [roundUp, hquot, hzero, Nat.sub_zero, Nat.mod_self, Nat.mul_comm]
    omega
  · have hquot : (n + a - 1) / a = n / a + 1 := by
      have hsum : n + a - 1 = (n % a - 1) + a * (n / a + 1) := by
        rw [Nat.mul_add, Nat.mul_one]
        omega
      rw [hsum, Nat.add_mul_div_left _ _ ha, Nat.div_eq_of_lt (by omega), Nat.zero_add]
    rw [roundUp, hquot, Nat.mod_eq_of_lt (show a - n % a < a by omega), Nat.add_mul, Nat.one_mul,
      Nat.mul_comm]
    omega

/-- **Rounding up gives the least multiple** that is no less. -/
theorem isLeast_roundUp {n a : Nat} (ha : 0 < a) : IsLeast {m | a ∣ m ∧ n ≤ m} (roundUp n a) := by
  constructor
  · refine ⟨Nat.dvd_mul_left _ _, ?_⟩
    rw [roundUp_eq_add ha]
    exact Nat.le_add_right _ _
  · rintro m ⟨⟨k, rfl⟩, hle⟩
    have hquot : (n + a - 1) / a ≤ k := by
      rw [← Nat.lt_succ_iff, Nat.div_lt_iff_lt_mul ha, Nat.succ_mul, Nat.mul_comm k a]
      omega
    calc roundUp n a = (n + a - 1) / a * a := rfl
      _ ≤ k * a := Nat.mul_le_mul_right a hquot
      _ = a * k := Nat.mul_comm k a

/-- Rounding up keeps the multiples, and nothing else. -/
theorem roundUp_eq_self_iff {n a : Nat} (ha : 0 < a) : roundUp n a = n ↔ a ∣ n := by
  constructor
  · intro h
    have hdvd : a ∣ roundUp n a := (isLeast_roundUp ha).1.1
    rwa [h] at hdvd
  · intro h
    exact (isLeast_roundUp ha).unique ⟨⟨h, Nat.le_refl n⟩, fun _ hm => hm.2⟩

/-- A greater number has fewer multiples beyond it, and the least of them is no less. -/
theorem roundUp_mono {n m a : Nat} (ha : 0 < a) (h : n ≤ m) : roundUp n a ≤ roundUp m a :=
  (isLeast_roundUp ha).mono (isLeast_roundUp ha) fun _ hk => ⟨hk.1, h.trans hk.2⟩

namespace Alignment

variable {a : Alignment} {offset r : UInt32}

/-- The boundary of a member, as a number: its natural alignment or the pack, whichever is less,
and one if that is zero. -/
theorem toNat_effective (pack natural : UInt32) :
    (effective pack natural).value.toNat = max 1 (min pack.toNat natural.toNat) := by
  rw [effective, toNat_value_ofWord]
  split
  next hle =>
    rw [UInt32.le_iff_toNat_le] at hle
    rw [Nat.min_eq_left hle]
  next hgt =>
    rw [UInt32.le_iff_toNat_le] at hgt
    rw [Nat.min_eq_right (by omega)]

/-- What is missing to the next multiple, computed on words. The difference does not wrap. -/
theorem toNat_missing (a : Alignment) (offset : UInt32) :
    ((a.value - offset % a.value) % a.value).toNat =
      (a.value.toNat - offset.toNat % a.value.toNat) % a.value.toNat := by
  have hmod : (offset % a.value).toNat = offset.toNat % a.value.toNat := UInt32.toNat_mod ..
  have hle : offset % a.value ≤ a.value := by
    rw [UInt32.le_iff_toNat_le, hmod]
    exact Nat.le_of_lt (Nat.mod_lt _ a.pos)
  rw [UInt32.toNat_mod, UInt32.toNat_sub_of_le _ _ hle, hmod]

/-- **Aligning is rounding up**, as long as the result is a word. -/
theorem align_eq_some_iff :
    a.align offset = some r ↔ r.toNat = roundUp offset.toNat a.value.toNat := by
  rw [align, Word.addChecked_eq_some_iff, toNat_missing, roundUp_eq_add a.pos]

theorem align_eq_none_iff :
    a.align offset = none ↔ Word.limit ≤ roundUp offset.toNat a.value.toNat := by
  rw [align, Word.addChecked_eq_none_iff, toNat_missing, roundUp_eq_add a.pos]

theorem isAligned_iff : a.isAligned offset = true ↔ a.value.toNat ∣ offset.toNat := by
  rw [isAligned, beq_iff_eq, ← UInt32.toNat_inj, UInt32.toNat_mod, Nat.dvd_iff_mod_eq_zero]
  rfl

/-- The offsets that stay where they are are the ones on the boundary. -/
theorem align_eq_self_iff : a.align offset = some offset ↔ a.isAligned offset = true := by
  rw [align_eq_some_iff, eq_comm, roundUp_eq_self_iff a.pos, isAligned_iff]

theorem isAligned_of_align (h : a.align offset = some r) : a.isAligned r = true := by
  rw [isAligned_iff, align_eq_some_iff.1 h]
  exact (isLeast_roundUp a.pos).1.1

/-- Aligning twice is aligning once, also if there is no result. -/
theorem align_bind_align (a : Alignment) (offset : UInt32) :
    (a.align offset).bind a.align = a.align offset := by
  cases h : a.align offset with
  | none => rfl
  | some r => exact align_eq_self_iff.2 (isAligned_of_align h)

/-- An offset in front of one that can be aligned can be aligned as well, and to no more. -/
theorem exists_align_le {offset' r' : UInt32} (hle : offset ≤ offset')
    (h : a.align offset' = some r') : ∃ r, a.align offset = some r ∧ r ≤ r' := by
  have hround : roundUp offset.toNat a.value.toNat ≤ r'.toNat := by
    rw [align_eq_some_iff.1 h]
    exact roundUp_mono a.pos (UInt32.le_iff_toNat_le.1 hle)
  cases hr : a.align offset with
  | none =>
    have hlimit := align_eq_none_iff.1 hr
    have hlt : r'.toNat < Word.limit := r'.toNat_lt
    omega
  | some r =>
    rw [← align_eq_some_iff.1 hr, ← UInt32.le_iff_toNat_le] at hround
    exact ⟨r, rfl, hround⟩

/-- The result of aligning, as a number if there is one. -/
theorem map_toNat_align (a : Alignment) (offset : UInt32) :
    (a.align offset).map UInt32.toNat =
      if roundUp offset.toNat a.value.toNat < Word.limit
      then some (roundUp offset.toNat a.value.toNat) else none := by
  cases h : a.align offset with
  | none =>
    rw [if_neg (Nat.not_lt.2 (align_eq_none_iff.1 h))]
    rfl
  | some r =>
    rw [← align_eq_some_iff.1 h, if_pos r.toNat_lt]
    rfl

/-- **Aligning gives the exact ceiling.** The boundary of a member is its natural alignment or the
pack, whichever is less, and one byte if that is zero; it may be any number. An offset is aligned to
the least multiple of the boundary that is no less, if that is a word, and to nothing otherwise. So
what is in front of another offset is aligned to no more, where nothing counts as beyond all words;
aligning twice is aligning once; and the offsets that stay are the ones on the boundary. -/
theorem effective_align_isLeast (pack natural : UInt32) :
    (∀ offset, ∃ m, IsLeast {m | max 1 (min pack.toNat natural.toNat) ∣ m ∧ offset.toNat ≤ m} m ∧
      ((effective pack natural).align offset).map UInt32.toNat =
        if m < Word.limit then some m else none) ∧
    (∀ offset offset' r', offset ≤ offset' → (effective pack natural).align offset' = some r' →
      ∃ r, (effective pack natural).align offset = some r ∧ r ≤ r') ∧
    (∀ offset, ((effective pack natural).align offset).bind (effective pack natural).align =
      (effective pack natural).align offset) ∧
    ∀ offset, (effective pack natural).align offset = some offset ↔
      (effective pack natural).isAligned offset = true := by
  refine ⟨fun offset => ?_, fun offset offset' r' => exists_align_le,
    align_bind_align (effective pack natural), fun offset => align_eq_self_iff⟩
  rw [← toNat_effective, map_toNat_align]
  exact ⟨_, isLeast_roundUp (effective pack natural).pos, rfl⟩

/-- On a boundary of twelve bytes, the greatest multiple that is a word is three less than the
greatest word. -/
theorem effective_align_isLeast_twelve :
    (effective 12 40).align 4294967293 = none ∧
      (13 : UInt32) ≤ 4294967290 ∧ (effective 12 40).align 4294967290 = some 4294967292 ∧
      ∃ r, (effective 12 40).align 13 = some r ∧ r ≤ 4294967292 :=
  ⟨by decide, by decide, by decide,
    (effective_align_isLeast 12 40).2.1 13 4294967290 4294967292 (by decide) (by decide)⟩

end Alignment

/-- In a struct whose pack is no less than the natural alignment of a field, the field is placed at
the next multiple of that alignment. -/
theorem Placement.toNat_of_align {p : Placement} {natural base offset : UInt32}
    (h : p.align natural base = .ok offset) (hpack : natural ≤ p.rule.pack) :
    offset.toNat = roundUp base.toNat (max 1 natural.toNat) := by
  unfold Placement.align at h
  split at h
  next r hr =>
    obtain rfl := Except.ok.inj h
    rw [Alignment.align_eq_some_iff, Alignment.toNat_effective,
      Nat.min_eq_right (UInt32.le_iff_toNat_le.1 hpack)] at hr
    exact hr
  · cases h

end FlatLayout
