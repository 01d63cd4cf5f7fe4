import FlatLayout.Decl.TypeRef
import Mathlib.Data.List.TakeWhile
import Mathlib.Tactic.Tauto

/-!
# The grammar of type references

A type reference is read by cutting: the blanks at both ends, then the longest beginning of dots and
name characters, and of what is left only the stars are counted. This says nothing yet about which
texts are accepted. Here they are given by a grammar,

```
W name W (* W)^depth
```

where every `W` is a run of blanks of its own, and a name is one or more identifiers with single
dots between them. The grammar is stated without cutting and without counting.

## Where a name ends

The cut behind the name is the one place where reading could go wrong: it is made by characters, and
the grammar knows nothing of it. It is right because no character that may follow a name, a blank or
a star, can stand in one. In the same way the two ends may be trimmed because a name neither begins
nor ends with a blank; what trimming takes away behind the stars are blanks that belong to the last
`W`, and these are not counted.

## Main definitions

* `TypeRef.Identifier`, `TypeRef.DottedName`, `TypeRef.Stars` — the parts of the grammar
* `TypeRef.Spells` — a text spells a name and a number of stars

## Main results

* `isDottedName_iff`, `exists_stars_iff` — the checks for the parts are their grammars
* `parse_eq_ok_iff` — what is read is what is spelled
* `parse_spells` — the same, with the limit of 255 stars, rendering, and adding or removing a star
-/

namespace FlatLayout

/-! ### Trimming -/

namespace Text

variable {cs : List Char}

/-- Both ends of what is trimmed are blanks. -/
theorem exists_trimChars (cs : List Char) : ∃ front back : List Char,
    cs = front ++ (trimChars cs ++ back) ∧ (∀ c ∈ front, isBlank c = true) ∧
      ∀ c ∈ back, isBlank c = true := by
  let rest := cs.dropWhile isBlank
  have hfront : cs = cs.takeWhile isBlank ++ rest := List.takeWhile_append_dropWhile.symm
  have hback : rest = trimChars cs ++ (rest.reverse.takeWhile isBlank).reverse := by
    rw [trimChars, ← List.reverse_append, List.takeWhile_append_dropWhile, List.reverse_reverse]
  refine ⟨_, _, hfront.trans (congrArg _ hback), fun c hc => List.mem_takeWhile_imp hc, ?_⟩
  intro c hc
  exact List.mem_takeWhile_imp (List.mem_reverse.1 hc)

theorem dropWhile_isBlank {cs : List Char} (h : ∀ c ∈ cs, isBlank c = false) :
    cs.dropWhile isBlank = cs := by
  cases cs with
  | nil => rfl
  | cons c cs => rw [List.dropWhile_cons_of_neg (by simp [h c List.mem_cons_self])]

/-- In front of a word all is trimmed, and behind it nothing but blanks. -/
theorem trimChars_append {front word : List Char} (hfront : ∀ c ∈ front, isBlank c = true)
    (hne : word ≠ []) (hword : ∀ c ∈ word, isBlank c = false) (tail : List Char) :
    ∃ kept back, trimChars (front ++ (word ++ tail)) = word ++ kept ∧ tail = kept ++ back ∧
      ∀ c ∈ back, isBlank c = true := by
  have hdrop : (front ++ (word ++ tail)).dropWhile isBlank = word ++ tail := by
    obtain ⟨first, rest, rfl⟩ := List.exists_cons_of_ne_nil hne
    rw [List.dropWhile_append_of_pos hfront, List.cons_append, List.dropWhile_cons_of_neg]
    simp [hword first List.mem_cons_self]
  have hreverse : word.reverse.dropWhile isBlank = word.reverse :=
    dropWhile_isBlank fun c hc => hword c (List.mem_reverse.1 hc)
  refine ⟨(tail.reverse.dropWhile isBlank).reverse, (tail.reverse.takeWhile isBlank).reverse, ?_,
    ?_, fun c hc => List.mem_takeWhile_imp (List.mem_reverse.1 hc)⟩
  · rw [trimChars, hdrop, List.reverse_append, List.dropWhile_append, hreverse]
    split
    next hempty => simp [List.isEmpty_iff.1 hempty]
    next => simp
  · rw [← List.reverse_append, List.takeWhile_append_dropWhile, List.reverse_reverse]

/-- Without the character that is cut at, there is one part. -/
theorem splitOn_of_not_mem {sep : Char} {cs : List Char} (h : sep ∉ cs) :
    splitOn sep cs = [cs] := by
  induction cs with
  | nil => rfl
  | cons c cs ih =>
    rw [List.mem_cons, not_or] at h
    rw [splitOn, if_neg (Ne.symm h.1), ih h.2]

end Text

namespace TypeRef

/-! ### The grammar -/

/-- An ASCII letter, or an underscore. -/
def Letter (c : Char) : Prop := ('A' ≤ c ∧ c ≤ 'Z') ∨ ('a' ≤ c ∧ c ≤ 'z') ∨ c = '_'

/-- A letter, and behind it letters and digits. -/
def Identifier (cs : List Char) : Prop :=
  ∃ first rest, cs = first :: rest ∧ Letter first ∧ ∀ c ∈ rest, Letter c ∨ ('0' ≤ c ∧ c ≤ '9')

/-- Identifiers with single dots between them. -/
inductive DottedName : List Char → Prop
  | single {cs : List Char} (first : Identifier cs) : DottedName cs
  | dot {cs ds : List Char} (first : Identifier cs) (rest : DottedName ds) :
    DottedName (cs ++ '.' :: ds)

/-- Every character is a blank. -/
def Blank (cs : List Char) : Prop := ∀ c ∈ cs, Text.isBlank c = true

/-- A number of stars, each with blanks behind it. -/
inductive Stars : Nat → List Char → Prop
  | nil : Stars 0 []
  | star {n : Nat} {blanks cs : List Char} (hblank : Blank blanks) (rest : Stars n cs) :
    Stars (n + 1) ('*' :: (blanks ++ cs))

/-- The text spells a name and a number of stars. -/
def Spells (s name : String) (depth : Nat) : Prop :=
  ∃ front behind stars, s.toList = front ++ (name.toList ++ (behind ++ stars)) ∧
    Blank front ∧ Blank behind ∧ DottedName name.toList ∧ Stars depth stars

/-! ### Names -/

theorem isNameStart_iff {c : Char} : isNameStart c = true ↔ Letter c := by
  have hupper : c.isUpper = true ↔ 'A' ≤ c ∧ c ≤ 'Z' := decide_eq_true_iff
  have hlower : c.isLower = true ↔ 'a' ≤ c ∧ c ≤ 'z' :=
    Bool.and_eq_true_iff.trans (and_congr decide_eq_true_iff decide_eq_true_iff)
  have halpha : c.isAlpha = true ↔ c.isUpper = true ∨ c.isLower = true := Bool.or_eq_true_iff
  simp only [isNameStart, Bool.or_eq_true, halpha, hupper, hlower, decide_eq_true_eq, Letter,
    or_assoc]

theorem isNameChar_iff {c : Char} : isNameChar c = true ↔ Letter c ∨ ('0' ≤ c ∧ c ≤ '9') := by
  have hdigit : c.isDigit = true ↔ '0' ≤ c ∧ c ≤ '9' :=
    Bool.and_eq_true_iff.trans (and_congr decide_eq_true_iff decide_eq_true_iff)
  have halphanum : c.isAlphanum = true ↔ c.isAlpha = true ∨ c.isDigit = true := Bool.or_eq_true_iff
  rw [← isNameStart_iff, ← hdigit]
  simp only [isNameChar, isNameStart, halphanum, Bool.or_eq_true]
  tauto

theorem isIdentifier_iff {cs : List Char} : isIdentifier cs = true ↔ Identifier cs := by
  cases cs with
  | nil => simp [isIdentifier, Identifier]
  | cons c cs =>
    simp only [isIdentifier, Bool.and_eq_true, List.all_eq_true, isNameStart_iff, isNameChar_iff]
    constructor
    · rintro ⟨hfirst, hrest⟩
      exact ⟨c, cs, rfl, hfirst, hrest⟩
    · rintro ⟨first, rest, heq, hfirst, hrest⟩
      obtain ⟨rfl, rfl⟩ := List.cons.inj heq
      exact ⟨hfirst, hrest⟩

theorem dot_not_mem_of_identifier {cs : List Char} (h : Identifier cs) : '.' ∉ cs := by
  obtain ⟨first, rest, rfl, hfirst, hrest⟩ := h
  have hdot : ¬ (Letter '.' ∨ ('0' ≤ '.' ∧ '.' ≤ '9')) := by
    rw [← isNameChar_iff]
    decide
  intro hmem
  rcases List.mem_cons.1 hmem with rfl | hmem
  · exact hdot (.inl hfirst)
  · exact hdot (hrest '.' hmem)

/-- **Names are dotted names.** -/
theorem isDottedName_iff {cs : List Char} : isDottedName cs = true ↔ DottedName cs := by
  constructor
  · intro h
    induction hn : cs.length using Nat.strong_induction_on generalizing cs with
    | h n ih =>
    by_cases hdot : '.' ∈ cs
    · obtain ⟨first, rest, rfl, hfirst⟩ := List.eq_append_cons_of_mem hdot
      rw [isDottedName, Text.splitOn_append hfirst, List.all_cons, Bool.and_eq_true] at h
      refine .dot (isIdentifier_iff.1 h.1) (ih rest.length ?_ h.2 rfl)
      simp [← hn]
      omega
    · rw [isDottedName, Text.splitOn_of_not_mem hdot, List.all_cons, List.all_nil,
        Bool.and_true] at h
      exact .single (isIdentifier_iff.1 h)
  · intro h
    induction h with
    | single first =>
      rw [isDottedName, Text.splitOn_of_not_mem (dot_not_mem_of_identifier first)]
      simp [isIdentifier_iff.2 first]
    | dot first rest ih =>
      rw [isDottedName, Text.splitOn_append (dot_not_mem_of_identifier first), List.all_cons,
        isIdentifier_iff.2 first, Bool.true_and]
      exact ih

theorem ne_nil_of_isDottedName {cs : List Char} (h : isDottedName cs = true) : cs ≠ [] := by
  rintro rfl
  revert h
  decide

/-! ### Stars -/

theorem Blank.all {cs : List Char} (h : Blank cs) : cs.all isStarOrBlank = true := by
  rw [List.all_eq_true]
  intro c hc
  simp [isStarOrBlank, h c hc]

/-- Blanks are not counted. -/
theorem Blank.count {cs : List Char} (h : Blank cs) : cs.count '*' = 0 := by
  rw [List.count_eq_zero]
  intro hmem
  exact absurd (h '*' hmem) (by decide)

theorem all_of_stars {n : Nat} {cs : List Char} (h : Stars n cs) :
    cs.all isStarOrBlank = true ∧ cs.count '*' = n := by
  induction h with
  | nil => exact ⟨rfl, rfl⟩
  | star hblank rest ih =>
    constructor
    · simp [hblank.all, ih.1, isStarOrBlank]
    · rw [List.count_cons_self, List.count_append, hblank.count, ih.2, Nat.zero_add]

/-- **Behind a name** there are blanks, and then as many stars as are counted. -/
theorem exists_stars_iff {n : Nat} {cs : List Char} :
    (∃ behind stars, cs = behind ++ stars ∧ Blank behind ∧ Stars n stars) ↔
      cs.all isStarOrBlank = true ∧ cs.count '*' = n := by
  constructor
  · rintro ⟨behind, stars, rfl, hblank, hstars⟩
    -- one more star in front, and the blanks belong to it
    obtain ⟨hall, hcount⟩ := all_of_stars (.star hblank hstars)
    rw [List.all_cons, Bool.and_eq_true] at hall
    rw [List.count_cons_self] at hcount
    exact ⟨hall.2, Nat.succ.inj hcount⟩
  · rintro ⟨hall, rfl⟩
    induction cs with
    | nil => exact ⟨[], [], rfl, by simp [Blank], .nil⟩
    | cons c cs ih =>
      rw [List.all_cons, Bool.and_eq_true] at hall
      obtain ⟨behind, stars, rfl, hblank, hstars⟩ := ih hall.2
      by_cases hstar : c = '*'
      · subst hstar
        refine ⟨[], _, rfl, by simp [Blank], ?_⟩
        rw [List.count_cons_self]
        exact .star hblank hstars
      · have hc : Text.isBlank c = true := by simpa [isStarOrBlank, hstar] using hall.1
        refine ⟨c :: behind, stars, rfl, ?_, ?_⟩
        · exact List.forall_mem_cons.2 ⟨hc, hblank⟩
        · rwa [List.count_cons_of_ne hstar]

/-! ### Reading -/

/-- No character that may stand behind a name can stand in one. -/
theorem isDottedChar_of_isStarOrBlank {c : Char} (h : isStarOrBlank c = true) :
    isDottedChar c = false := by
  by_contra hdotted
  rw [Bool.not_eq_false] at hdotted
  have hblank := isBlank_of_isDottedChar hdotted
  have hstar : c = '*' := by simpa [isStarOrBlank, hblank] using h
  subst hstar
  revert hdotted
  decide

/-- The cut behind the name. -/
theorem cut_append {name tail : List Char} (hname : isDottedName name = true)
    (htail : tail.all isStarOrBlank = true) :
    (name ++ tail).takeWhile isDottedChar = name ∧
      (name ++ tail).dropWhile isDottedChar = tail := by
  have hchars : ∀ c ∈ name, isDottedChar c = true := fun c => isDottedChar_of_mem hname
  have hstop : tail.takeWhile isDottedChar = [] ∧ tail.dropWhile isDottedChar = tail := by
    cases tail with
    | nil => exact ⟨rfl, rfl⟩
    | cons c cs =>
      rw [List.all_cons, Bool.and_eq_true] at htail
      have hc := isDottedChar_of_isStarOrBlank htail.1
      exact ⟨by simp [hc], by simp [hc]⟩
  rw [List.takeWhile_append_of_pos hchars, List.dropWhile_append_of_pos hchars, hstop.1, hstop.2,
    List.append_nil]
  exact ⟨rfl, rfl⟩

variable {s : String} {t : TypeRef}

theorem parse_eq_ok_iff_parts : parse s = .ok t ↔ ∃ front tail,
    s.toList = front ++ (t.name.toList ++ tail) ∧ Blank front ∧
      isDottedName t.name.toList = true ∧ tail.all isStarOrBlank = true ∧
      tail.count '*' = t.depth.toNat := by
  constructor
  · intro h
    obtain ⟨front, back, hs, hfront, hback⟩ := Text.exists_trimChars s.toList
    simp only [parse] at h
    split at h
    next hparts =>
      simp only [Bool.and_eq_true, decide_eq_true_eq] at hparts
      obtain ⟨⟨hname, hrest⟩, hstars⟩ := hparts
      obtain rfl := Except.ok.inj h
      have hblank : Blank back := hback
      refine ⟨front, (Text.trimChars s.toList).dropWhile isDottedChar ++ back, ?_, hfront, ?_, ?_,
        ?_⟩
      · rw [String.toList_ofList, ← List.append_assoc, ← List.append_assoc,
          List.append_assoc front, List.takeWhile_append_dropWhile, List.append_assoc]
        exact hs
      · rwa [String.toList_ofList]
      · rw [List.all_append, hrest, hblank.all, Bool.and_self]
      · rw [List.count_append, hblank.count, Nat.add_zero, UInt8.toNat_ofNat']
        omega
    next => cases h
  · rintro ⟨front, tail, hs, hfront, hname, htail, hcount⟩
    obtain ⟨kept, back, htrim, htail', hback⟩ := Text.trimChars_append hfront
      (ne_nil_of_isDottedName hname)
      (fun c hc => isBlank_of_isDottedChar (isDottedChar_of_mem hname hc)) tail
    rw [htail', List.all_append, Bool.and_eq_true] at htail
    rw [htail', List.count_append, Blank.count hback, Nat.add_zero] at hcount
    obtain ⟨htake, hdrop⟩ := cut_append hname htail.1
    have hdepth := t.depth.toNat_lt
    have hle : t.depth.toNat ≤ 255 := by omega
    simp [parse, hs, htrim, htake, hdrop, hname, htail.1, hcount, hle]

/-- **What is read is what is spelled.** -/
theorem parse_eq_ok_iff : parse s = .ok t ↔ Spells s t.name t.depth.toNat := by
  rw [parse_eq_ok_iff_parts]
  constructor
  · rintro ⟨front, tail, hs, hfront, hname, htail⟩
    obtain ⟨behind, stars, rfl, hbehind, hstars⟩ := exists_stars_iff.2 htail
    exact ⟨front, behind, stars, hs, hfront, hbehind, isDottedName_iff.1 hname, hstars⟩
  · rintro ⟨front, behind, stars, hs, hfront, hbehind, hname, hstars⟩
    exact ⟨front, behind ++ stars, hs, hfront, isDottedName_iff.2 hname,
      exists_stars_iff.1 ⟨behind, stars, rfl, hbehind, hstars⟩⟩

/-- A text that is not read is what the error is about. -/
theorem parse_eq_error_iff {e : DeclError} :
    parse s = .error e ↔ e = .malformedTypeRef s ∧ ∀ t, parse s ≠ .ok t := by
  constructor
  · intro h
    refine ⟨?_, fun t ht => ?_⟩
    · simp only [parse] at h
      split at h
      · cases h
      · exact (Except.error.inj h).symm
    · rw [h] at ht
      cases ht
  · rintro ⟨rfl, h⟩
    cases hs : parse s with
    | ok t => exact absurd hs (h t)
    | error e =>
      simp only [parse] at hs
      split at hs
      · cases hs
      · exact hs.symm

/-! ### One star more, one star less -/

theorem pointerTo_eq_ok_iff {t u : TypeRef} :
    t.pointerTo = .ok u ↔ u.name = t.name ∧ u.depth.toNat = t.depth.toNat + 1 := by
  obtain ⟨name, depth⟩ := t
  obtain ⟨name', depth'⟩ := u
  have hlt := depth'.toNat_lt
  rw [pointerTo]
  split
  next hfull =>
    have hfull : depth.toNat = 255 := congrArg UInt8.toNat hfull
    simp
    omega
  next hroom =>
    have hroom : depth.toNat ≠ 255 := fun h => hroom (UInt8.toNat_inj.1 h)
    have hnext : (depth + 1).toNat = depth.toNat + 1 := by
      have := depth.toNat_lt
      rw [UInt8.toNat_add, UInt8.toNat_one]
      omega
    simp [← UInt8.toNat_inj, hnext, eq_comm]

theorem pointee?_eq_some_iff {t u : TypeRef} :
    u.pointee? = some t ↔ u.name = t.name ∧ u.depth.toNat = t.depth.toNat + 1 := by
  obtain ⟨name, depth⟩ := t
  obtain ⟨name', depth'⟩ := u
  have hpointer : isPointer ⟨name', depth'⟩ = true ↔ 0 < depth'.toNat := by
    simp [isPointer, UInt8.lt_iff_toNat_lt]
  rw [pointee?]
  split
  next hstar =>
    have hstar := hpointer.1 hstar
    have hlt := depth'.toNat_lt
    have hprevious : (depth' - 1).toNat = depth'.toNat - 1 := by
      rw [UInt8.toNat_sub, UInt8.toNat_one]
      omega
    simp [← UInt8.toNat_inj, hprevious]
    omega
  next hnone =>
    rw [hpointer] at hnone
    simp
    omega

/-- **The syntax of type references.** A text is read as a name and a number of stars if and only if
it spells them and there are 255 stars at most; a text that is not read is named by the error. What
was read is written as a text that is read as the same, so that writing after reading gives a normal
form. Adding a star and removing one undo each other: each leads from one reference to another
exactly if these have the same name and the second one a star more, or less. And from a reference
that is read back from its text, both lead to another such reference. -/
theorem parse_spells (s : String) :
    (∀ name depth, (∃ t, parse s = .ok t ∧ t.name = name ∧ t.depth.toNat = depth) ↔
      Spells s name depth ∧ depth ≤ 255) ∧
    (∀ e, parse s = .error e ↔
      e = .malformedTypeRef s ∧ ∀ name depth, Spells s name depth → 255 < depth) ∧
    (∀ t, parse s = .ok t → parse t.text = .ok t) ∧
    ((parse s).bind fun t => parse t.text) = parse s ∧
    (∀ t u : TypeRef, (t.pointerTo = .ok u ↔ u.pointee? = some t) ∧
      (t.pointerTo = .ok u ↔ u.name = t.name ∧ u.depth.toNat = t.depth.toNat + 1)) ∧
    ∀ t u : TypeRef, parse t.text = .ok t → t.pointerTo = .ok u ∨ t.pointee? = some u →
      parse u.text = .ok u := by
  have hread : ∀ name depth, (∃ t, parse s = .ok t ∧ t.name = name ∧ t.depth.toNat = depth) ↔
      Spells s name depth ∧ depth ≤ 255 := by
    intro name depth
    constructor
    · rintro ⟨t, ht, rfl, rfl⟩
      exact ⟨parse_eq_ok_iff.1 ht, Nat.le_of_lt_succ t.depth.toNat_lt⟩
    · rintro ⟨hspells, hle⟩
      have hdepth : (UInt8.ofNat depth).toNat = depth := by
        rw [UInt8.toNat_ofNat']
        omega
      refine ⟨⟨name, UInt8.ofNat depth⟩, parse_eq_ok_iff.2 ?_, rfl, hdepth⟩
      rwa [hdepth]
  have hback : ∀ t, parse s = .ok t → parse t.text = .ok t :=
    fun t ht => parse_text (exists_parse_iff.1 ⟨s, ht⟩)
  refine ⟨hread, fun e => ?_, hback, ?_, fun t u => ?_, fun t u ht hstep => ?_⟩
  · rw [parse_eq_error_iff, and_congr_right_iff]
    rintro -
    constructor
    · intro hnone name depth hspells
      by_contra hle
      obtain ⟨t, ht, -⟩ := (hread name depth).2 ⟨hspells, by omega⟩
      exact hnone t ht
    · intro hmany t ht
      have := hmany _ _ (parse_eq_ok_iff.1 ht)
      have := t.depth.toNat_lt
      omega
  · cases hs : parse s with
    | ok t => rw [Except.bind, hback t hs]
    | error e => rw [Except.bind]
  · exact ⟨pointerTo_eq_ok_iff.trans pointee?_eq_some_iff.symm, pointerTo_eq_ok_iff⟩
  · have hname : u.name = t.name := by
      rcases hstep with hstep | hstep
      · exact (pointerTo_eq_ok_iff.1 hstep).1
      · exact (pointee?_eq_some_iff.1 hstep).1.symm
    have hdotted := exists_parse_iff.1 ⟨t.text, ht⟩
    exact parse_text (by rwa [hname])

/-- A dotted name between a no-break space and an em space, with two stars that are kept apart by a
tab and a line feed at the end. -/
def apartText : String := "\u00a0A.b_1\u2003*\t*\n"

theorem spells_apartText : Spells apartText "A.b_1" 2 := by
  have hname : Identifier ['A'] ∧ Identifier ['b', '_', '1'] :=
    ⟨isIdentifier_iff.1 (by decide), isIdentifier_iff.1 (by decide)⟩
  have hblank {c : Char} (hc : Text.isBlank c = true) : Blank [c] := List.forall_mem_singleton.2 hc
  exact ⟨['\u00a0'], ['\u2003'], ['*', '\t', '*', '\n'], by decide, hblank (by decide),
    hblank (by decide), .dot hname.1 (.single hname.2),
    .star (hblank (by decide)) (.star (hblank (by decide)) .nil)⟩

/-- Here the theorem says what the text is read as, and that this is what its normal form is read
as. -/
theorem parse_spells_apart :
    ∃ t, parse apartText = .ok t ∧ t.name = "A.b_1" ∧ t.depth.toNat = 2 ∧
      parse t.text = .ok t ∧ ∃ u, t.pointee? = some u ∧ parse u.text = .ok u := by
  obtain ⟨hread, -, hback, -, hsteps, hkeeps⟩ := parse_spells apartText
  obtain ⟨t, ht, hname, hdepth⟩ := (hread "A.b_1" 2).2 ⟨spells_apartText, by decide⟩
  have hless : t.pointee? = some ⟨t.name, 1⟩ :=
    (hsteps _ _).1.1 ((hsteps _ _).2.2 ⟨rfl, hdepth⟩)
  exact ⟨t, ht, hname, hdepth, hback t ht, _, hless, hkeeps t _ (hback t ht) (.inr hless)⟩

end TypeRef

end FlatLayout
