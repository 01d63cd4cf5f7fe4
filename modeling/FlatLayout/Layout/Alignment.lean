import FlatLayout.Layout.Word

/-!
# Alignment

The byte boundaries that members are placed on.

## Main definitions

* `Alignment` — a boundary, at least one byte
* `Alignment.effective` — the boundary a member is given in a container with a pack
* `Alignment.align` — the next multiple of the boundary
-/

namespace FlatLayout

/-- A byte boundary. -/
structure Alignment where
  value : UInt32
  pos : 0 < value.toNat

namespace Alignment

/-- A boundary of so many bytes; zero counts as one. -/
def ofWord (n : UInt32) : Alignment :=
  if h : n = 0 then ⟨1, by decide⟩
  else ⟨n, by
    have : n.toNat ≠ 0 := fun h' => h (UInt32.toNat_inj.1 h')
    omega⟩

/-- Every offset is on this boundary. -/
def byte : Alignment := ⟨1, by decide⟩

/-- The boundary that is enforced for a member: the pack of its container bounds its natural
alignment. -/
def effective (pack natural : UInt32) : Alignment :=
  ofWord (if pack ≤ natural then pack else natural)

/-- The next multiple of the boundary, the offset itself if it is one; `none` if it is no word. -/
def align (a : Alignment) (offset : UInt32) : Option UInt32 :=
  Word.addChecked offset ((a.value - offset % a.value) % a.value)

/-- Whether an offset is on the boundary. -/
def isAligned (a : Alignment) (offset : UInt32) : Bool := offset % a.value == 0

theorem toNat_value_ofWord (n : UInt32) : (ofWord n).value.toNat = max 1 n.toNat := by
  unfold ofWord
  split
  next h => subst h; rfl
  next h =>
    have : n.toNat ≠ 0 := fun h' => h (UInt32.toNat_inj.1 h')
    simp only
    omega

end Alignment

end FlatLayout
