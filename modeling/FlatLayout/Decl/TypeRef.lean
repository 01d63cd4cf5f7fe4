import FlatLayout.Text.Blank
import FlatLayout.Text.Quoted

/-!
# Type references

A type as it is written in a declaration: a dotted name with zero or more pointer stars behind it.

## Main definitions

* `DeclError` — what is wrong with the words of a declaration
* `TypeRef`, `TypeRef.text` — a reference and how it is written
* `TypeRef.parse` — reading one, with blanks allowed at both ends and around the stars
* `TypeRef.pointerTo`, `TypeRef.pointee?` — one star more, one star less

## Main results

* `TypeRef.parse_text` — what is written is read
* `TypeRef.exists_parse_iff` — the references that are read are those with a dotted name

## Implementation notes

Only references that parse are written by the program, but a `TypeRef` may hold any name. The number
of stars is a byte; a reference with more stars than that does not parse.
-/

namespace FlatLayout

/-- What is wrong with the words of a declaration. -/
inductive DeclError where
  | malformedTypeRef (text : String)
  | unknownMarker (name : String)
  deriving DecidableEq

/-- The message of an error. -/
def DeclError.message : DeclError → String
  | .malformedTypeRef text => "Malformed type reference: " ++ Text.quote text
  | .unknownMarker name => "Unknown intent marker: " ++ name

/-- A type as written: a dotted name and a number of pointer stars. -/
structure TypeRef where
  name : String
  depth : UInt8
  deriving DecidableEq

namespace TypeRef

/-- A reference without stars. The name is taken as it is. -/
def named (name : String) : TypeRef := ⟨name, 0⟩

/-- Whether the reference has a star. -/
def isPointer (t : TypeRef) : Bool := 0 < t.depth

/-- The name with its stars behind it. -/
def chars (t : TypeRef) : List Char := t.name.toList ++ List.replicate t.depth.toNat '*'

/-- The reference as it is written. -/
def text (t : TypeRef) : String := String.ofList t.chars

/-- The reference with one star more. There is room for 255 stars. -/
def pointerTo (t : TypeRef) : Except DeclError TypeRef :=
  if t.depth = 255 then .error (.malformedTypeRef (t.text ++ "*"))
  else .ok { t with depth := t.depth + 1 }

/-- The reference with one star less, if it has one. -/
def pointee? (t : TypeRef) : Option TypeRef :=
  if t.isPointer then some { t with depth := t.depth - 1 } else none

/-! ### Reading -/

/-- A character that an identifier begins with. Identifiers are ASCII. -/
def isNameStart (c : Char) : Bool := c.isAlpha || c = '_'

/-- A character of an identifier. -/
def isNameChar (c : Char) : Bool := c.isAlphanum || c = '_'

/-- One or more name characters, of which the first is no digit. -/
def isIdentifier : List Char → Bool
  | [] => false
  | c :: cs => isNameStart c && cs.all isNameChar

/-- Identifiers joined by single dots. -/
def isDottedName (cs : List Char) : Bool := (Text.splitOn '.' cs).all isIdentifier

/-- A character of a dotted name. -/
def isDottedChar (c : Char) : Bool := isNameChar c || c = '.'

/-- What may stand behind the name. -/
def isStarOrBlank (c : Char) : Bool := c = '*' || Text.isBlank c

/-- Reads a reference: a dotted name, and behind it stars with any blanks between them. -/
def parse (s : String) : Except DeclError TypeRef :=
  let cs := Text.trimChars s.toList
  let name := cs.takeWhile isDottedChar
  let rest := cs.dropWhile isDottedChar
  let stars := rest.count '*'
  if isDottedName name && rest.all isStarOrBlank && stars ≤ 255 then
    .ok ⟨String.ofList name, UInt8.ofNat stars⟩
  else .error (.malformedTypeRef s)

/-! ### What is written is read -/

/-- The characters of a dotted name are no blanks. -/
theorem isBlank_of_isDottedChar {c : Char} (h : isDottedChar c = true) :
    Text.isBlank c = false := by
  have halphanum : c.isAlphanum = ((c.isUpper || c.isLower) || c.isDigit) := rfl
  have hrange : 46 ≤ c.toNat ∧ c.toNat ≤ 122 := by
    simp only [isDottedChar, isNameChar, halphanum, Bool.or_eq_true, decide_eq_true_eq] at h
    rcases h with (((hupper | hlower) | hdigit) | rfl) | rfl
    · have hletter : 65 ≤ c.toNat ∧ c.toNat ≤ 90 := of_decide_eq_true hupper
      omega
    · obtain ⟨hfirst, hlast⟩ := Bool.and_eq_true_iff.1 hlower
      have hletter : 97 ≤ c.toNat ∧ c.toNat ≤ 122 :=
        ⟨of_decide_eq_true hfirst, of_decide_eq_true hlast⟩
      omega
    · obtain ⟨hfirst, hlast⟩ := Bool.and_eq_true_iff.1 hdigit
      have hvalue : 48 ≤ c.toNat ∧ c.toNat ≤ 57 :=
        ⟨of_decide_eq_true hfirst, of_decide_eq_true hlast⟩
      omega
    · decide
    · decide
  simp only [Text.isBlank, Bool.or_eq_false_iff, Bool.and_eq_false_iff, decide_eq_false_iff_not,
    beq_eq_false_iff_ne]
  omega

theorem isNameChar_of_isNameStart {c : Char} (h : isNameStart c = true) :
    isNameChar c = true := by
  have halphanum : c.isAlphanum = (c.isAlpha || c.isDigit) := rfl
  simp only [isNameStart, isNameChar, halphanum, Bool.or_eq_true] at h ⊢
  exact h.imp_left .inl

/-- The characters of a dotted name. -/
theorem isDottedChar_of_mem {cs : List Char} (h : isDottedName cs = true) {c : Char}
    (hc : c ∈ cs) : isDottedChar c = true := by
  rw [isDottedChar, Bool.or_eq_true, decide_eq_true_eq, Or.comm]
  refine (Text.eq_or_mem_splitOn hc).imp_right fun ⟨part, hpart, hc⟩ => ?_
  have hidentifier := List.all_eq_true.1 h part hpart
  cases part with
  | nil => cases hc
  | cons d ds =>
    rw [isIdentifier, Bool.and_eq_true] at hidentifier
    rcases List.mem_cons.1 hc with rfl | hc
    · exact isNameChar_of_isNameStart hidentifier.1
    · exact List.all_eq_true.1 hidentifier.2 c hc

/-- **A reference is read back** from its text if its name is dotted. -/
theorem parse_text {t : TypeRef} (h : isDottedName t.name.toList = true) :
    parse t.text = .ok t := by
  have hchars : ∀ c ∈ t.name.toList, isDottedChar c = true := fun c => isDottedChar_of_mem h
  have hstars : (List.replicate t.depth.toNat '*').takeWhile isDottedChar = [] ∧
      (List.replicate t.depth.toNat '*').dropWhile isDottedChar =
        List.replicate t.depth.toNat '*' := by
    cases t.depth.toNat <;> exact ⟨rfl, rfl⟩
  have htrim : Text.trimChars t.chars = t.chars := by
    refine Text.trimChars_of_forall fun c hc => ?_
    rcases List.mem_append.1 hc with hc | hc
    · exact isBlank_of_isDottedChar (hchars c hc)
    · rw [List.eq_of_mem_replicate hc]
      rfl
  have htake : t.chars.takeWhile isDottedChar = t.name.toList := by
    rw [chars, List.takeWhile_append_of_pos hchars, hstars.1, List.append_nil]
  have hdrop : t.chars.dropWhile isDottedChar = List.replicate t.depth.toNat '*' := by
    rw [chars, List.dropWhile_append_of_pos hchars, hstars.2]
  have hall : (List.replicate t.depth.toNat '*').all isStarOrBlank = true := by
    rw [List.all_replicate]
    split <;> rfl
  have hdepth : t.depth.toNat ≤ 255 := Nat.le_of_lt_succ t.depth.toNat_lt
  simp [parse, text, htrim, htake, hdrop, h, hall, hdepth, List.count_replicate_self]

/-- The references that are read are those with a dotted name. -/
theorem exists_parse_iff {t : TypeRef} :
    (∃ s, parse s = .ok t) ↔ isDottedName t.name.toList = true := by
  constructor
  · rintro ⟨s, hs⟩
    simp only [parse] at hs
    split at hs
    next hparts =>
      simp only [Bool.and_eq_true] at hparts
      injection hs with hs
      rw [← hs, String.toList_ofList]
      exact hparts.1.1
    · cases hs
  · exact fun h => ⟨t.text, parse_text h⟩

end TypeRef

end FlatLayout
