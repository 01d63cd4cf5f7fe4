import FlatLayout.Decimal.Binary

/-!
# The shortest decimal that reads back

A binary floating point value is written with the fewest digits that no other value would be rounded
to, and of those the nearest; if two are equally near, the one with an even last digit. `shortest`
finds the digits: on the grid of decimals with one digit, then two, and so on, it tests the two
neighbours of the value.

## Main definitions

* `shortest` — digits and decimal exponent
* `FloatText` — where the point goes and when an exponent is written
* `Binary64.text` — the text of a value in messages

## Implementation notes

If a point of a grid lies in the interval of reals that round to the value, so does one of the
value's two neighbours on that grid, so testing these two is enough. The ends of the interval
belong to it exactly when the significand is even.
-/

namespace FlatLayout.Decimal

/-- The greatest `t` with `10 ^ t * den ≤ num`, for positive `num` and `den`. -/
def floorLog10 (num den : Nat) : Int :=
  if den ≤ num then (Nat.toDigits 10 (num / den)).length - 1
  else -((Nat.toDigits 10 ((den - 1) / num)).length : Int)

namespace Binary64

/-- A bound of the rounding interval, in quarters of the last place. -/
structure Interval where
  low : Nat
  high : Nat
  closed : Bool

/-- The reals that round to `v`. Below a power of two the next value is half as far away. -/
def interval (v : Binary64) : Interval :=
  let below := if v.significand = twoTo 52 ∧ minExponent < v.exponent then 1 else 2
  ⟨4 * v.significand - below, 4 * v.significand + 2, v.significand % 2 == 0⟩

/-- Whether `digits * 10 ^ k` rounds to `v`. -/
def readsBack (v : Binary64) (digits : Nat) (k : Int) : Bool :=
  let q := v.exponent - 2
  let here := digits * tenTo k.toNat * twoTo (-q).toNat
  let unit := twoTo q.toNat * tenTo (-k).toNat
  let range := v.interval
  if range.closed then range.low * unit ≤ here && here ≤ range.high * unit
  else range.low * unit < here && here < range.high * unit

/-- Whether the quotient `num / den` is rounded down: to the nearest natural number, and from
halfway to the even one. -/
def roundsDown (num den : Nat) : Bool :=
  2 * (num % den) < den || (2 * (num % den) == den && num / den % 2 == 0)

/-- The neighbours of `v` on the grid of multiples of `10 ^ k` that read back as `v`, the nearer
first; of two equally near ones the even one. -/
def gridHits (v : Binary64) (k : Int) : List Nat :=
  let r := ratio v.significand v.exponent
  let num := r.1 * tenTo (-k).toNat
  let den := r.2 * tenTo k.toNat
  let down := num / den
  let nearer := if roundsDown num den then [down, down + 1] else [down + 1, down]
  nearer.filter fun d => v.readsBack d k

end Binary64

/-- Removes the zeros at the end of a digit string, counting them into the exponent. -/
def dropZeros : Nat → Nat → Int → Nat × Int
  | 0, digits, k => (digits, k)
  | fuel + 1, digits, k =>
    if digits % 10 = 0 ∧ digits ≠ 0 then dropZeros fuel (digits / 10) (k + 1) else (digits, k)

/-- The shortest digits `d` and exponent `k` such that `d * 10 ^ k` reads back as the positive value
`v`. Seventeen digits always do. -/
def shortest (v : Binary64) : Nat × Int :=
  let r := Binary64.ratio v.significand v.exponent
  let top := floorLog10 r.1 r.2
  let grids : List Int := (List.range 17).map fun (n : Nat) => top - n
  match grids.findSome? fun k => (v.gridHits k).head?.map fun d => (d, k) with
  | some (d, k) => dropZeros 18 d k
  | none => (v.significand, 0)

/-- How far from the digits the decimal point may stand before an exponent is written instead. -/
structure FloatText where
  /-- The greatest number of digits before the point. -/
  maxWhole : Int
  /-- The greatest number of zeros right after the point. -/
  maxZeros : Int

/-- Messages write up to sixteen digits before the point and up to four zeros after it. -/
def FloatText.message : FloatText := ⟨16, 4⟩

/-- The text of an exponent, always with its sign. -/
def exponentChars (e : Int) : List Char :=
  (if e < 0 then '-' else '+') :: Nat.toDigits 10 e.natAbs

/-- The text of `digits * 10 ^ k`, always with a point or an exponent. -/
def FloatText.write (f : FloatText) (digits : Nat) (k : Int) : List Char :=
  let ds := Nat.toDigits 10 digits
  let point : Int := ds.length + k
  let zeros (n : Int) : List Char := List.replicate n.toNat '0'
  if 0 ≤ k ∧ point ≤ f.maxWhole then ds ++ zeros k ++ ['.', '0']
  else if 0 < point ∧ point ≤ f.maxWhole then ds.take point.toNat ++ '.' :: ds.drop point.toNat
  else if -f.maxZeros ≤ point ∧ point ≤ 0 then ['0', '.'] ++ zeros (-point) ++ ds
  else
    let mantissa := if ds.length = 1 then ds else ds.take 1 ++ '.' :: ds.drop 1
    mantissa ++ 'e' :: exponentChars (point - 1)

/-- The text of a value in messages. -/
def Binary64.text (negative : Bool) (v : Binary64) : String :=
  let sign := if negative then ['-'] else []
  let body :=
    if v.significand = 0 then ['0', '.', '0']
    else
      let s := shortest v
      FloatText.message.write s.1 s.2
  String.ofList (sign ++ body)

/-- A tenth is written with one digit, though the value itself is not exactly a tenth. -/
example : (Binary64.ofRatio? 1 10).map (Binary64.text false) = some "0.1" := by decide +kernel

/-- The least positive value. -/
example : Binary64.text true ⟨1, -1074⟩ = "-5e-324" := by decide +kernel

/-- Three quarters lie halfway between seven and eight tenths; the even digit is written. -/
example : Binary64.text false ⟨4600756779055251, -2⟩ = "1150189194763812.8" := by decide +kernel

end FlatLayout.Decimal
