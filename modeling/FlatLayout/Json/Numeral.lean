import FlatLayout.Decimal.Binary

/-!
# Numbers as written in JSON

A number keeps the digits it was written with, because what it means depends on who asks: a reader
that skips a field accepts any digits, one that wants a value asks for `Numeral.value`.

## Main definitions

* `Numeral` — the parts of a written number
* `Numeral.value` — an integer of at most 64 bits, or the floating point value it stands for

## Implementation notes

A floating point value is built from the leading digits that fit a 64-bit word and one power of ten,
rounding after each step. For numbers of many digits this is not always the nearest value, and
messages quote the value so obtained.
-/

namespace FlatLayout

open Decimal (Binary64 tenTo twoTo)

/-- A number in JSON: digits from the most significant one on. A number without fraction has no
fraction digits, for a point must be followed by one. -/
structure Numeral where
  negative : Bool
  whole : List Nat
  fraction : List Nat
  exponent : Option Int
  deriving DecidableEq

/-- What a number stands for. -/
inductive Numeral.Value where
  | integer (value : Int)
  | float (negative : Bool) (magnitude : Binary64)
  /-- Greater than every floating point value. -/
  | outOfRange

namespace Numeral

/-- Significands are collected in 64-bit words. -/
def wordLimit : Nat := twoTo 64

/-- The exponents that are told apart; a greater one only matters by its sign. -/
def exponentLimit : Nat := twoTo 31

/-- Digits collected so far: `significand * 10 ^ exponent`, and whether the word is full. -/
structure Scaled where
  significand : Nat
  exponent : Int
  full : Bool

/-- A digit before the point. When the word is full the digit is dropped and only its place is
kept. -/
def Scaled.pushWhole (s : Scaled) (digit : Nat) : Scaled :=
  let next := s.significand * 10 + digit
  if s.full || wordLimit ≤ next then ⟨s.significand, s.exponent + 1, true⟩
  else ⟨next, s.exponent, false⟩

/-- A digit after the point. When the word is full the digit is dropped. -/
def Scaled.pushFraction (s : Scaled) (digit : Nat) : Scaled :=
  let next := s.significand * 10 + digit
  if s.full || wordLimit ≤ next then ⟨s.significand, s.exponent, true⟩
  else ⟨next, s.exponent - 1, false⟩

/-- The digits before the point. -/
def wholePart (n : Numeral) : Scaled := n.whole.foldl Scaled.pushWhole ⟨0, 0, false⟩

/-- All digits. -/
def digits (n : Numeral) : Scaled :=
  let s := n.wholePart
  n.fraction.foldl Scaled.pushFraction ⟨s.significand, s.exponent, false⟩

/-- The rounded power of ten; exponents up to 308 have one. -/
def powerOfTen (e : Nat) : Binary64 := (Binary64.ofNat? (tenTo e)).getD ⟨1, 0⟩

/-- Division by `10 ^ e`, in steps of at most `10 ^ 308`. Four steps bring every word to zero. -/
def scaleDown : Nat → Binary64 → Nat → Binary64
  | 0, _, _ => ⟨0, Binary64.minExponent⟩
  | steps + 1, v, e =>
    if v.significand = 0 then v
    else if e ≤ 308 then (v.div? (powerOfTen e)).getD v
    else scaleDown steps ((v.div? (powerOfTen 308)).getD v) (e - 308)

/-- The floating point value of `significand * 10 ^ exponent`, `none` if it is too large. -/
def scale (significand : Nat) (exponent : Int) : Option Binary64 := do
  let v ← Binary64.ofNat? significand
  if v.significand = 0 then some v
  else if exponent < 0 then some (scaleDown 4 v exponent.natAbs)
  else if exponent ≤ 308 then v.mul? (powerOfTen exponent.natAbs)
  else none

/-- The number read as a floating point value. -/
def floatValue (n : Numeral) : Value :=
  let s := n.digits
  let scaled : Option Binary64 :=
    match n.exponent with
    | none => scale s.significand s.exponent
    | some e =>
      if e.natAbs < exponentLimit then scale s.significand (s.exponent + e)
      else if s.significand = 0 ∨ e < 0 then scale 0 0
      else none
  match scaled with
  | some v => .float n.negative v
  | none => .outOfRange

/-- What the number stands for: an integer if it is written as one and fits 64 bits, with a sign bit
if it is negative; a floating point value otherwise. Negative zero is a floating point value. -/
def value (n : Numeral) : Value :=
  let s := n.wholePart
  if n.fraction.isEmpty && n.exponent.isNone && !s.full then
    if !n.negative then .integer s.significand
    else if 0 < s.significand ∧ s.significand ≤ twoTo 63 then .integer (-s.significand)
    else n.floatValue
  else n.floatValue

/-- The decimal digits of a natural. -/
def naturalDigits (n : Nat) : List Nat := (Nat.toDigits 10 n).map fun c => c.toNat - '0'.toNat

/-- A natural number. -/
def ofNat (n : Nat) : Numeral := ⟨false, naturalDigits n, [], none⟩

/-- One digit as a character. -/
def digitChar (d : Nat) : Char := Char.ofNat ('0'.toNat + d)

/-- The number as written. -/
def chars (n : Numeral) : List Char :=
  (if n.negative then ['-'] else []) ++ n.whole.map digitChar ++
    (if n.fraction.isEmpty then [] else '.' :: n.fraction.map digitChar) ++
    (match n.exponent with
      | none => []
      | some e => 'e' :: (toString e).toList)

end Numeral

end FlatLayout
