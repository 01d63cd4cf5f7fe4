/-!
# 32-bit words with range checks

Sizes and offsets are 32-bit words. Sums and products that do not fit are `none`, never reduced.

## Main definitions

* `addChecked`, `mulChecked` — sum and product, if they fit
* `addClamped` — the sum, or the greatest word

## Main statements

Each operation is characterised through `UInt32.toNat`.
-/

namespace FlatLayout.Word

/-- One more than the greatest word. -/
abbrev limit : Nat := 4294967296

/-- The sum, if it fits. -/
def addChecked (a b : UInt32) : Option UInt32 :=
  if a.toNat + b.toNat < limit then some (a + b) else none

/-- The product, if it fits. -/
def mulChecked (a b : UInt32) : Option UInt32 :=
  if a.toNat * b.toNat < limit then some (a * b) else none

/-- The sum, or the greatest word if it does not fit. -/
def addClamped (a b : UInt32) : UInt32 := (addChecked a b).getD (UInt32.ofNat (limit - 1))

variable {a b c : UInt32}

theorem addChecked_eq_some_iff : addChecked a b = some c ↔ c.toNat = a.toNat + b.toNat := by
  unfold addChecked
  have hc := c.toNat_lt
  split
  next h =>
    rw [Option.some.injEq, ← UInt32.toNat_inj, UInt32.toNat_add, Nat.mod_eq_of_lt h]
    exact eq_comm
  next h => simp only [reduceCtorEq, false_iff]; unfold limit at h; omega

theorem addChecked_eq_none_iff : addChecked a b = none ↔ limit ≤ a.toNat + b.toNat := by
  unfold addChecked
  split <;> simp <;> omega

theorem mulChecked_eq_some_iff : mulChecked a b = some c ↔ c.toNat = a.toNat * b.toNat := by
  unfold mulChecked
  have hc := c.toNat_lt
  split
  next h =>
    rw [Option.some.injEq, ← UInt32.toNat_inj, UInt32.toNat_mul, Nat.mod_eq_of_lt h]
    exact eq_comm
  next h => simp only [reduceCtorEq, false_iff]; unfold limit at h; omega

theorem mulChecked_eq_none_iff : mulChecked a b = none ↔ limit ≤ a.toNat * b.toNat := by
  unfold mulChecked
  split <;> simp <;> omega

/-- The greater one of two words. -/
theorem toNat_greater : (if a ≤ b then b else a).toNat = max a.toNat b.toNat := by
  simp only [UInt32.le_iff_toNat_le]
  split <;> omega

theorem toNat_addClamped : (addClamped a b).toNat = min (a.toNat + b.toNat) (limit - 1) := by
  unfold addClamped
  cases h : addChecked a b with
  | none =>
    have := addChecked_eq_none_iff.1 h
    simp only [Option.getD_none]
    rw [show (UInt32.ofNat (limit - 1)).toNat = limit - 1 from rfl]
    omega
  | some c =>
    have := addChecked_eq_some_iff.1 h
    have := c.toNat_lt
    simp only [Option.getD_some, limit]
    omega

end FlatLayout.Word
