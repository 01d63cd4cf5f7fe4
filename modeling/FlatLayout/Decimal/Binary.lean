/-!
# Binary floating point values

Finite non-negative values of the 64-bit binary format, held exactly as
`significand * 2 ^ exponent`. Every operation computes the exact rational result and rounds it once,
to the nearest value, a tie going to the even significand. All of it is `Nat` arithmetic, so nothing
here depends on the machine.

## Main definitions

* `Binary64` — a value
* `Binary64.ofRatio?` — the value nearest to a quotient of naturals
* `Binary64.mul?`, `Binary64.div?` — product and quotient

A result too large for the format is `none`.
-/

namespace FlatLayout.Decimal

/-- A power of two. -/
def twoTo (e : Nat) : Nat := Nat.pow 2 e

/-- A power of ten. -/
def tenTo (e : Nat) : Nat := Nat.pow 10 e

/-- The value `significand * 2 ^ exponent`. -/
structure Binary64 where
  significand : Nat
  exponent : Int
  deriving DecidableEq

/-- The natural nearest to a quotient; a tie goes to the even one. -/
def roundHalfEven (num den : Nat) : Nat :=
  let whole := num / den
  let twice := 2 * (num % den)
  if den < twice || (twice == den && whole % 2 == 1) then whole + 1 else whole

namespace Binary64

/-- The least exponent of the format, that of the subnormal values. -/
def minExponent : Int := -1074

/-- The greatest exponent of the format. -/
def maxExponent : Int := 971

/-- Numerator and denominator of `m * 2 ^ q`. -/
def ratio (m : Nat) (q : Int) : Nat × Nat := (m * twoTo q.toNat, twoTo (-q).toNat)

/-- The greatest `e` with `2 ^ e * den ≤ num`, for positive `num` and `den`. -/
def floorLog2 (num den : Nat) : Int :=
  let e : Int := num.log2 - den.log2
  if den * twoTo e.toNat ≤ num * twoTo (-e).toNat then e else e - 1

/-- The value nearest to `num / den`. The significand has 53 bits unless the exponent is the least
one. -/
def ofRatio? (num den : Nat) : Option Binary64 :=
  if num = 0 then some ⟨0, minExponent⟩
  else
    let q := max (floorLog2 num den - 52) minExponent
    let m := roundHalfEven (num * twoTo (-q).toNat) (den * twoTo q.toNat)
    let value : Binary64 := if m = twoTo 53 then ⟨twoTo 52, q + 1⟩ else ⟨m, q⟩
    if maxExponent < value.exponent then none else some value

/-- The value nearest to a natural. -/
def ofNat? (n : Nat) : Option Binary64 := ofRatio? n 1

/-- The rounded product. -/
def mul? (a b : Binary64) : Option Binary64 :=
  let r := ratio (a.significand * b.significand) (a.exponent + b.exponent)
  ofRatio? r.1 r.2

/-- The rounded quotient; the divisor is not zero. -/
def div? (a b : Binary64) : Option Binary64 :=
  let r := ratio a.significand (a.exponent - b.exponent)
  ofRatio? r.1 (r.2 * b.significand)

/-- One has the top bit of the significand set. -/
example : ofNat? 1 = some ⟨twoTo 52, -52⟩ := by decide +kernel

/-- The least odd natural that the format lacks is a tie, and goes down to the even significand. -/
example : ofNat? (twoTo 53 + 1) = some ⟨twoTo 52, 1⟩ := by decide +kernel

end Binary64

end FlatLayout.Decimal
