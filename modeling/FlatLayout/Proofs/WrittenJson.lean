import FlatLayout.Json.Reader
import FlatLayout.Json.Writer
import Mathlib.Tactic.IntervalCases

/-!
# What is written is read

Reading the text of a value gives the value back, in either style. This holds of the values that the
program writes: their strings are texts, their numbers are natural numbers, and no place in them is
broken.

## What a scanner needs to know about the rest

A value is read with the text behind it, and the reader has to stop where the writer did. A string
stops at its quote and a container at its bracket. Only a number has no end of its own, so what
follows a number must not go on with it; behind a value there is always a comma, a bracket, a line
feed or nothing, and none of them does.

## Main definitions

* `Json.Plain` — the values that are written
* `Json.Ends` — a text that does not go on with a number

## Main results

* `readString_stringChars`, `readNumeral_chars` — strings and numbers are read back
* `readValue_chars` — values are read back, with fuel for as many steps as there are characters
* `read_write` — whole texts are read back
-/

namespace FlatLayout

namespace Numeral

/-! ### Digits -/

theorem naturalDigits_of_lt {n : Nat} (h : n < 10) : naturalDigits n = [n] := by
  rw [naturalDigits, Nat.toDigits_of_lt_base h, List.map_singleton, Nat.toNat_digitChar_of_lt_ten h]
  simp

theorem naturalDigits_of_le {n : Nat} (h : 10 ≤ n) :
    naturalDigits n = naturalDigits (n / 10) ++ [n % 10] := by
  have hlast : n % 10 < 10 := Nat.mod_lt n (by decide)
  rw [naturalDigits, Nat.toDigits_of_base_le (by decide) h, List.map_append, List.map_singleton,
    Nat.toNat_digitChar_of_lt_ten hlast]
  simp [naturalDigits]

/-- A property of digits, proved from the leading digits to all of them. -/
theorem naturalDigits_induction {motive : Nat → List Nat → Prop}
    (single : ∀ n < 10, motive n [n])
    (push : ∀ n ds, 0 < n → motive n ds → ∀ d < 10, motive (10 * n + d) (ds ++ [d])) (n : Nat) :
    motive n (naturalDigits n) := by
  induction n using Nat.strongRecOn with
  | ind n ih =>
    rcases Nat.lt_or_ge n 10 with hlt | hge
    · rw [naturalDigits_of_lt hlt]
      exact single n hlt
    · have hsplit : 10 * (n / 10) + n % 10 = n := Nat.div_add_mod n 10
      have hpush := push (n / 10) _ (by omega) (ih (n / 10) (by omega)) (n % 10) (by omega)
      rwa [hsplit, ← naturalDigits_of_le hge] at hpush

theorem lt_ten_of_mem_naturalDigits {n d : Nat} (h : d ∈ naturalDigits n) : d < 10 := by
  refine naturalDigits_induction (motive := fun _ ds => ∀ d ∈ ds, d < 10) ?_ ?_ n d h
  · intro n hn d hd
    rwa [List.mem_singleton.1 hd]
  · intro n ds _ ih d hd e he
    rcases List.mem_append.1 he with he | he
    · exact ih e he
    · rwa [List.mem_singleton.1 he]

/-- There are digits, and no zero leads them, unless it is the only one. -/
theorem head_naturalDigits (n : Nat) :
    ∃ d ds, naturalDigits n = d :: ds ∧ (0 < n → 0 < d) := by
  refine naturalDigits_induction
    (motive := fun n ds => ∃ d ds', ds = d :: ds' ∧ (0 < n → 0 < d)) ?_ ?_ n
  · intro n _
    exact ⟨n, [], rfl, id⟩
  · rintro n ds hn ⟨e, ds, rfl, he⟩ d _
    exact ⟨e, ds ++ [d], rfl, fun _ => he hn⟩

/-- The digits of a number that fits a word are collected without loss. -/
theorem wholePart_ofNat {n : Nat} (h : n < wordLimit) : (ofNat n).wholePart = ⟨n, 0, false⟩ := by
  refine naturalDigits_induction (motive := fun n ds => n < wordLimit →
    ds.foldl Scaled.pushWhole ⟨0, 0, false⟩ = ⟨n, 0, false⟩) ?_ ?_ n h
  · intro n _ hlimit
    simp [Scaled.pushWhole, Nat.not_le.2 hlimit]
  · intro n ds _ ih d _ hlimit
    have hnext : n * 10 + d = 10 * n + d := by omega
    rw [List.foldl_append, ih (by omega)]
    simp [Scaled.pushWhole, hnext, Nat.not_le.2 hlimit]

/-- **A natural number means itself** if it fits 64 bits. -/
theorem value_ofNat {n : Nat} (h : n < wordLimit) : (ofNat n).value = .integer n := by
  rw [value, wholePart_ofNat h]
  rfl

end Numeral

namespace Json

/-! ### Numbers -/

/-- Whether a character may stand inside of a number, behind its first digit. -/
def continuesNumber (c : Char) : Bool := isDigit c || c = '.' || c = 'e' || c = 'E'

/-- A text that does not go on with a number that ends in front of it. -/
def Ends (cs : List Char) : Prop := ∀ c, cs.head? = some c → continuesNumber c = false

theorem ends_nil : Ends [] := nofun

theorem ends_cons {c : Char} {cs : List Char} (h : continuesNumber c = false) : Ends (c :: cs) := by
  intro d hd
  rwa [← Option.some.inj hd]

theorem digitChar_spec {d : Nat} (h : d < 10) :
    isDigit (Numeral.digitChar d) = true ∧ digitValue (Numeral.digitChar d) = d := by
  interval_cases d <;> decide

/-- Digits are read up to the end of the number. -/
theorem readDigits_append {ds : List Nat} {rest : List Char} (hds : ∀ d ∈ ds, d < 10)
    (hrest : Ends rest) : readDigits (ds.map Numeral.digitChar ++ rest) = (ds, rest) := by
  have hdigits : ∀ c ∈ ds.map Numeral.digitChar, isDigit c = true := by
    intro c hc
    obtain ⟨d, hd, rfl⟩ := List.mem_map.1 hc
    exact (digitChar_spec (hds d hd)).1
  have hstop : rest.takeWhile isDigit = [] ∧ rest.dropWhile isDigit = rest := by
    cases rest with
    | nil => exact ⟨rfl, rfl⟩
    | cons c rest =>
      have hc : isDigit c = false := by
        have hcontinues := hrest c rfl
        simp only [continuesNumber, Bool.or_eq_false_iff] at hcontinues
        exact hcontinues.1.1.1
      simp [hc]
  have hvalues : (ds.map Numeral.digitChar).map digitValue = ds := by
    rw [List.map_map]
    refine (List.map_congr_left fun d hd => ?_).trans (List.map_id ds)
    exact (digitChar_spec (hds d hd)).2
  rw [readDigits, List.takeWhile_append_of_pos hdigits, List.dropWhile_append_of_pos hdigits,
    hstop.1, hstop.2, List.append_nil, hvalues]

theorem readWhole_append (n : Nat) {rest : List Char} (hrest : Ends rest) :
    readWhole ((Numeral.naturalDigits n).map Numeral.digitChar ++ rest) =
      some (Numeral.naturalDigits n, rest) := by
  have hread := readDigits_append (fun d => Numeral.lt_ten_of_mem_naturalDigits (n := n)) hrest
  obtain ⟨d, ds, hdigits, hlead⟩ := Numeral.head_naturalDigits n
  rw [readWhole, hread]
  rcases Nat.eq_zero_or_pos n with rfl | hn
  · rfl
  · rw [hdigits]
    obtain ⟨e, rfl⟩ : ∃ e, d = e + 1 := ⟨d - 1, by have := hlead hn; omega⟩
    rfl

theorem readFraction_of_ends {rest : List Char} (hrest : Ends rest) :
    readFraction rest = some ([], rest) := by
  unfold readFraction
  split
  · exact absurd (hrest '.' rfl) (by decide)
  · rfl

theorem readExponent_of_ends {rest : List Char} (hrest : Ends rest) :
    readExponent rest = some (none, rest) := by
  unfold readExponent
  split
  next e rest =>
    have he := hrest e rfl
    simp only [continuesNumber, Bool.or_eq_false_iff, decide_eq_false_iff_not] at he
    rw [if_neg (not_or.2 ⟨he.1.2, he.2⟩)]
  · rfl

/-- The text of a natural number begins with a digit. -/
theorem chars_ofNat (n : Nat) :
    (Numeral.ofNat n).chars = (Numeral.naturalDigits n).map Numeral.digitChar := by
  simp [Numeral.chars, Numeral.ofNat]

/-- **Numbers are read back**, if what follows does not go on with them. -/
theorem readNumeral_chars (n : Nat) {rest : List Char} (hrest : Ends rest) :
    readNumeral ((Numeral.ofNat n).chars ++ rest) = some (.ofNat n, rest) := by
  have hunsigned : readUnsigned false ((Numeral.ofNat n).chars ++ rest) =
      some (.ofNat n, rest) := by
    rw [chars_ofNat, readUnsigned, readWhole_append n hrest]
    simp only [bind, Option.bind, readFraction_of_ends hrest, readExponent_of_ends hrest]
    rfl
  unfold readNumeral
  split
  next rest' heq =>
    obtain ⟨d, ds, hdigits, -⟩ := Numeral.head_naturalDigits n
    have hd : d < 10 := Numeral.lt_ten_of_mem_naturalDigits (hdigits ▸ List.mem_cons_self)
    rw [chars_ofNat, hdigits, List.map_cons, List.cons_append] at heq
    have hsign : isDigit '-' = true := (List.cons.inj heq).1 ▸ (digitChar_spec hd).1
    exact absurd hsign (by decide)
  · exact hunsigned

/-! ### Strings -/

/-- How a character stands in a string: behind a backslash with a letter, behind a backslash with
its number, or as it is. -/
inductive Spelling (c : Char) : List Char → Piece → Prop
  | letter (e : Char) (h : escaped e = some c) (hu : e ≠ 'u') : Spelling c ['\\', e] (.char c)
  | number (h : c.toNat < 0x20) :
    Spelling c ['\\', 'u', '0', '0', hexDigit (c.toNat / 16), hexDigit (c.toNat % 16)]
      (.unit c.toNat)
  | plain (h : 0x20 ≤ c.toNat) (hquote : c ≠ '"') (hbackslash : c ≠ '\\') :
    Spelling c [c] (.char c)

theorem exists_spelling (c : Char) : ∃ piece, Spelling c (stringChar c) piece := by
  unfold stringChar
  split
  · exact ⟨_, .letter _ rfl (by decide)⟩
  · exact ⟨_, .letter _ rfl (by decide)⟩
  · exact ⟨_, .letter _ rfl (by decide)⟩
  · exact ⟨_, .letter _ rfl (by decide)⟩
  · exact ⟨_, .letter _ rfl (by decide)⟩
  · exact ⟨_, .letter _ rfl (by decide)⟩
  · exact ⟨_, .letter _ rfl (by decide)⟩
  next hquote hbackslash _ _ _ _ _ =>
    split
    next h => exact ⟨_, .number h⟩
    next h => exact ⟨_, .plain (Nat.not_lt.1 h) hquote hbackslash⟩

theorem hexUnit_control {n : Nat} (h : n < 0x20) :
    hexUnit '0' '0' (hexDigit (n / 16)) (hexDigit (n % 16)) = some n := by
  interval_cases n <;> decide

/-- The pieces of a string are read one by one. -/
theorem Spelling.readPieces {c : Char} {spelling : List Char} {piece : Piece}
    (h : Spelling c spelling piece) (rest : List Char) :
    readPieces (spelling ++ rest) =
      (readPieces rest).map fun (pieces, rest) => (piece :: pieces, rest) := by
  cases h with
  | letter e he hu =>
    rw [List.cons_append, List.cons_append, List.nil_append,
      Json.readPieces.eq_4 _ _ fun _ _ _ _ _ h => absurd h hu, he]
    cases Json.readPieces rest <;> rfl
  | number h =>
    simp only [List.cons_append, List.nil_append, Json.readPieces, hexUnit_control h]
    cases Json.readPieces rest <;> rfl
  | plain h hquote hbackslash =>
    rw [List.cons_append, List.nil_append, Json.readPieces.eq_5 _ _ hquote
      (fun _ _ _ _ _ h => absurd h hbackslash) (fun _ _ h => absurd h hbackslash),
      if_neg (not_or.2 ⟨Nat.not_lt.2 h, hbackslash⟩)]
    cases Json.readPieces rest <;> rfl

/-- A piece that stands for a character by itself. A unit does, unless it is half a pair. -/
theorem Spelling.assemble {c : Char} {spelling : List Char} {piece : Piece}
    (h : Spelling c spelling piece) (pieces : List Piece) :
    assemble (piece :: pieces) = (assemble pieces).map (c :: ·) := by
  cases h with
  | letter e he hu => rw [Json.assemble]
  | plain h hquote hbackslash => rw [Json.assemble]
  | number h =>
    have hlead : isLead c.toNat = false := by
      simp only [isLead, Bool.and_eq_false_iff, decide_eq_false_iff_not]
      omega
    have htrail : isTrail c.toNat = false := by
      simp only [isTrail, Bool.and_eq_false_iff, decide_eq_false_iff_not]
      omega
    have hchar : Char.ofNat c.toNat = c := Char.ofNat_toNat c
    rcases pieces with _ | ⟨_ | _, pieces⟩ <;> simp [Json.assemble, hlead, htrail, hchar]

/-- The pieces that a text is written as. -/
theorem exists_pieces (cs : List Char) (rest : List Char) :
    ∃ pieces, readPieces (cs.flatMap stringChar ++ '"' :: rest) = some (pieces, rest) ∧
      assemble pieces = some cs := by
  induction cs with
  | nil => exact ⟨[], by simp [readPieces], by simp [assemble]⟩
  | cons c cs ih =>
    obtain ⟨pieces, hread, hassemble⟩ := ih
    obtain ⟨piece, hspelling⟩ := exists_spelling c
    refine ⟨piece :: pieces, ?_, ?_⟩
    · rw [List.flatMap_cons, List.append_assoc, hspelling.readPieces, hread]
      rfl
    · rw [hspelling.assemble, hassemble]
      rfl

/-- **Strings are read back**, from behind their opening quote. -/
theorem readString_stringChars (s : String) (rest : List Char) :
    readString (s.toList.flatMap stringChar ++ '"' :: rest) = some (some s, rest) := by
  obtain ⟨pieces, hread, hassemble⟩ := exists_pieces s.toList rest
  simp [readString, hread, hassemble]

/-! ### Blanks between tokens -/

/-- A text whose first character, if there is one, is no blank. -/
theorem skipSpace_of_head {c : Char} {cs : List Char} (h : isSpace c = false) :
    skipSpace (c :: cs) = c :: cs := by
  rw [skipSpace, List.dropWhile_cons_of_neg (by simp [h])]

theorem skipSpace_newline (style : Style) (depth : Nat) (cs : List Char) :
    skipSpace (style.newline depth ++ cs) = skipSpace cs := by
  cases style with
  | compact => rfl
  | pretty =>
    have hspaces : ∀ c ∈ List.replicate (2 * depth) ' ', isSpace c = true := by
      intro c hc
      rw [List.eq_of_mem_replicate hc]
      rfl
    rw [Style.newline, List.cons_append, skipSpace, List.dropWhile_cons_of_pos (by decide),
      List.dropWhile_append_of_pos hspaces]
    rfl

/-- Blanks in front of a value do not matter. -/
theorem readValue_congr {cs cs' : List Char} (h : skipSpace cs = skipSpace cs') (fuel : Nat) :
    readValue fuel cs = readValue fuel cs' := by
  cases fuel with
  | zero => rw [readValue, readValue]
  | succ fuel => rw [readValue, readValue, h]

/-! ### Values -/

mutual

/-- A value that is written: nothing in it is broken, its strings are texts, and its numbers are
natural ones of at most 64 bits. -/
def Plain : Json → Prop
  | .null => True
  | .bool _ => True
  | .number n => ∃ k, k < Numeral.wordLimit ∧ n = .ofNat k
  | .string s => s.isSome = true
  | .array items => items.Plain
  | .object entries => entries.Plain
  | .broken => False

/-- The same of all items of an array. -/
def Items.Plain : Items → Prop
  | .closed => True
  | .broken => False
  | .item v rest => v.Plain ∧ rest.Plain

/-- The same of all entries of an object. -/
def Entries.Plain : Entries → Prop
  | .closed => True
  | .broken => False
  | .entry k v rest => k.isSome = true ∧ v.Plain ∧ rest.Plain

end

/-- A character that a value may begin with. -/
def begins (c : Char) : Bool := !isSpace c && c ≠ ',' && c ≠ ']' && c ≠ '\x7d'

variable (style : Style) (depth : Nat)

theorem exists_chars_eq {v : Json} (h : v.Plain) :
    ∃ c cs, v.chars style depth = c :: cs ∧ begins c = true := by
  cases v with
  | null => exact ⟨_, _, by rw [chars], by decide⟩
  | bool b => cases b <;> exact ⟨_, _, by rw [chars], by decide⟩
  | string s => exact ⟨_, _, by rw [chars]; rfl, by decide⟩
  | array items => exact ⟨_, _, by rw [chars], by decide⟩
  | object entries => exact ⟨_, _, by rw [chars], by decide⟩
  | broken =>
    rw [Plain] at h
    cases h
  | number n =>
    rw [Plain] at h
    obtain ⟨k, -, rfl⟩ := h
    obtain ⟨d, ds, hdigits, -⟩ := Numeral.head_naturalDigits k
    have hd : d < 10 := Numeral.lt_ten_of_mem_naturalDigits (hdigits ▸ List.mem_cons_self)
    refine ⟨Numeral.digitChar d, ds.map Numeral.digitChar, ?_, ?_⟩
    · rw [chars, chars_ofNat, hdigits, List.map_cons]
    · interval_cases d <;> decide

/-- What follows an item does not go on with a number. -/
theorem Items.ends_chars {items : Items} (h : items.Plain) (rest : List Char) :
    Ends (items.chars style depth false ++ rest) := by
  cases items with
  | closed =>
    rw [Items.chars]
    cases style <;> exact ends_cons (by decide)
  | broken =>
    rw [Items.Plain] at h
    cases h
  | item v items =>
    rw [Items.chars]
    exact ends_cons (by decide)

/-- What follows an entry does not go on with a number. -/
theorem Entries.ends_chars {entries : Entries} (h : entries.Plain) (rest : List Char) :
    Ends (entries.chars style depth false ++ rest) := by
  cases entries with
  | closed =>
    rw [Entries.chars]
    cases style <;> exact ends_cons (by decide)
  | broken =>
    rw [Entries.Plain] at h
    cases h
  | entry k v entries =>
    rw [Entries.chars]
    exact ends_cons (by decide)

/-- Every item is written with some character, and so is the end of the items. -/
theorem Items.length_chars_pos {items : Items} (h : items.Plain) (first : Bool) :
    0 < (items.chars style depth first).length := by
  cases items with
  | closed => simp [Items.chars]
  | broken =>
    rw [Items.Plain] at h
    cases h
  | item v items =>
    rw [Items.Plain] at h
    obtain ⟨c, cs, hv, -⟩ := exists_chars_eq style (depth + 1) h.1
    simp only [Items.chars, hv, List.length_append, List.length_cons]
    omega

/-- Every entry is written with some character, and so is the end of the entries. -/
theorem Entries.length_chars_pos {entries : Entries} (h : entries.Plain) (first : Bool) :
    0 < (entries.chars style depth first).length := by
  cases entries with
  | closed => simp [Entries.chars]
  | broken =>
    rw [Entries.Plain] at h
    cases h
  | entry k v entries =>
    simp only [Entries.chars, stringChars, List.length_append, List.length_cons]
    omega

/-! ### Readers, step by step

Each step of a reader, with what it reads written out. -/

section

variable {cs : List Char} {fuel : Nat}

theorem readValue_string (s : String) (rest : List Char) :
    readValue (fuel + 1) (stringChars s ++ rest) = (.string (some s), some rest) := by
  have hread := readString_stringChars s rest
  simp only [stringChars, List.cons_append, List.append_assoc, List.nil_append]
  rw [readValue, skipSpace_of_head (by decide)]
  simp only [hread]

/-- Where a digit stands, a number is read and nothing else. -/
theorem readValue_of_isDigit {c : Char} (hc : isDigit c = true) {n : Numeral} {rest : List Char}
    (hread : readNumeral (c :: cs) = some (n, rest)) :
    readValue (fuel + 1) (c :: cs) = (.number n, some rest) := by
  have hother : ∀ d, isDigit d = false → ∀ ds, c :: cs ≠ d :: ds := by
    intro d hd ds heq
    rw [(List.cons.inj heq).1, hd] at hc
    cases hc
  have hspace : isSpace c = false := by
    simp only [isSpace, Bool.or_eq_false_iff, decide_eq_false_iff_not]
    exact ⟨⟨⟨fun h => hother ' ' rfl cs (h ▸ rfl), fun h => hother '\n' rfl cs (h ▸ rfl)⟩,
      fun h => hother '\t' rfl cs (h ▸ rfl)⟩, fun h => hother '\r' rfl cs (h ▸ rfl)⟩
  rw [readValue, skipSpace_of_head hspace]
  split
  next heq => exact absurd heq (hother _ rfl _)
  next heq => exact absurd heq (hother _ rfl _)
  next heq => exact absurd heq (hother _ rfl _)
  next heq => exact absurd heq (hother _ rfl _)
  next heq => exact absurd heq (hother _ rfl _)
  next heq => exact absurd heq (hother _ rfl _)
  next => simp only [hread]

theorem readValue_number (n : Nat) {rest : List Char} (hrest : Ends rest) :
    readValue (fuel + 1) ((Numeral.ofNat n).chars ++ rest) =
      (.number (.ofNat n), some rest) := by
  have hread := readNumeral_chars n hrest
  obtain ⟨d, ds, hdigits, -⟩ := Numeral.head_naturalDigits n
  have hd : d < 10 := Numeral.lt_ten_of_mem_naturalDigits (hdigits ▸ List.mem_cons_self)
  rw [chars_ofNat, hdigits, List.map_cons, List.cons_append] at hread ⊢
  exact readValue_of_isDigit (digitChar_spec hd).1 hread

theorem readItems_closed (first : Bool) (rest : List Char) :
    readItems (fuel + 1) first ((if first then [] else style.newline depth) ++ [']'] ++ rest) =
      (.closed, some rest) := by
  have hskip : skipSpace ((if first then [] else style.newline depth) ++ [']'] ++ rest) =
      ']' :: rest := by
    cases first
    · rw [if_neg (by decide), List.append_assoc, skipSpace_newline]
      rfl
    · rfl
  rw [readItems, hskip]
  rfl

theorem readEntries_closed (first : Bool) (rest : List Char) :
    readEntries (fuel + 1) first
        ((if first then [] else style.newline depth) ++ ['\x7d'] ++ rest) =
      (.closed, some rest) := by
  have hskip : skipSpace ((if first then [] else style.newline depth) ++ ['\x7d'] ++ rest) =
      '\x7d' :: rest := by
    cases first
    · rw [if_neg (by decide), List.append_assoc, skipSpace_newline]
      rfl
    · rfl
  rw [readEntries, hskip]
  rfl

/-- An item or an entry is found behind its comma. -/
theorem afterComma_comma (first : Bool) {c : Char} (hc : begins c = true) (cs : List Char) :
    ∃ d ds, skipSpace (comma first ++ style.newline depth ++ c :: cs) = d :: ds ∧ d ≠ ']' ∧
      d ≠ '\x7d' ∧ afterComma first (d :: ds) = some (c :: cs) := by
  simp only [begins, Bool.and_eq_true, Bool.not_eq_true', decide_eq_true_eq] at hc
  obtain ⟨⟨⟨hspace, -⟩, hbracket⟩, hbrace⟩ := hc
  have hnewline : skipSpace (style.newline depth ++ c :: cs) = c :: cs := by
    rw [skipSpace_newline, skipSpace_of_head hspace]
  cases first with
  | true => exact ⟨c, cs, hnewline, hbracket, hbrace, rfl⟩
  | false =>
    refine ⟨',', style.newline depth ++ c :: cs, skipSpace_of_head (by decide), by decide,
      by decide, ?_⟩
    rw [afterComma, if_neg (by decide), hnewline]

theorem readItems_item (first : Bool) {c : Char} (hc : begins c = true) {v : Json}
    {rest : List Char} (hv : readValue fuel (c :: cs) = (v, some rest)) {items : Items}
    {rest' : List Char} (hitems : readItems fuel false rest = (items, some rest')) :
    readItems (fuel + 1) first (comma first ++ style.newline depth ++ c :: cs) =
      (.item v items, some rest') := by
  obtain ⟨d, ds, hskip, hbracket, -, hafter⟩ :=
    afterComma_comma style depth first hc cs
  rw [readItems, hskip]
  split
  next _ heq => exact absurd (List.cons.inj heq).1 hbracket
  next => simp only [hafter, hv, hitems]

theorem readKey_stringChars (key : String) (cs : List Char) :
    ∃ rest, readKey (stringChars key ++ style.colon ++ cs) = some (some key, some rest) ∧
      skipSpace rest = skipSpace cs := by
  have hread := readString_stringChars key (style.colon ++ cs)
  simp only [stringChars, List.cons_append, List.append_assoc, List.nil_append]
  rw [readKey, hread]
  cases style with
  | compact => exact ⟨cs, rfl, rfl⟩
  | pretty => exact ⟨' ' :: cs, rfl, rfl⟩

theorem readEntries_entry (first : Bool) (key : String) {v : Json}
    {rest : List Char} (hv : readValue fuel cs = (v, some rest)) {entries : Entries}
    {rest' : List Char} (hentries : readEntries fuel false rest = (entries, some rest')) :
    readEntries (fuel + 1) first
        (comma first ++ style.newline depth ++ (stringChars key ++ style.colon ++ cs)) =
      (.entry (some key) v entries, some rest') := by
  obtain ⟨behind, hkey, hblank⟩ := readKey_stringChars style key cs
  obtain ⟨d, ds, hskip, -, hbrace, hafter⟩ :=
    afterComma_comma style depth first (c := '"') (by decide)
      (key.toList.flatMap stringChar ++ '"' :: (style.colon ++ cs))
  have hquoted : stringChars key ++ style.colon ++ cs =
      '"' :: (key.toList.flatMap stringChar ++ '"' :: (style.colon ++ cs)) := by
    simp only [stringChars, List.cons_append, List.append_assoc, List.nil_append]
  rw [← hquoted] at hskip hafter
  rw [readEntries, hskip]
  split
  next _ heq => exact absurd (List.cons.inj heq).1 hbrace
  next => simp only [hafter, Option.bind_some, hkey, readValue_congr hblank, hv, hentries]

end

/-! ### Trees -/

/-- A character to be read takes a step, and leaves fuel for the characters behind it. -/
theorem exists_fuel {c : Char} {cs : List Char} {fuel : Nat} (h : (c :: cs).length ≤ fuel) :
    ∃ n, fuel = n + 1 ∧ cs.length ≤ n := by
  rw [List.length_cons] at h
  exact ⟨fuel - 1, by omega, by omega⟩

mutual

/-- **Values are read back**, with the text behind them, by recursion along the tree. A step takes
fuel for what it reads, and every step reads a character. -/
theorem readValue_chars :
    ∀ (v : Json) (depth fuel : Nat) (rest : List Char), v.Plain →
      (v.chars style depth).length ≤ fuel → Ends rest →
      readValue fuel (v.chars style depth ++ rest) = (v, some rest)
  | .null, depth, fuel, rest, _, hfuel, _ => by
    rw [chars] at hfuel ⊢
    obtain ⟨n, rfl, -⟩ := exists_fuel hfuel
    rfl
  | .bool true, depth, fuel, rest, _, hfuel, _ => by
    rw [chars] at hfuel ⊢
    obtain ⟨n, rfl, -⟩ := exists_fuel hfuel
    rfl
  | .bool false, depth, fuel, rest, _, hfuel, _ => by
    rw [chars] at hfuel ⊢
    obtain ⟨n, rfl, -⟩ := exists_fuel hfuel
    rfl
  | .number n, depth, fuel, rest, hplain, hfuel, hrest => by
    obtain ⟨c, cs, hbegin, -⟩ := exists_chars_eq style depth hplain
    rw [hbegin] at hfuel
    obtain ⟨n, rfl, -⟩ := exists_fuel hfuel
    rw [Plain] at hplain
    obtain ⟨k, -, rfl⟩ := hplain
    rw [chars, readValue_number k hrest]
  | .string s, depth, fuel, rest, hplain, hfuel, _ => by
    rw [Plain] at hplain
    obtain ⟨s, rfl⟩ := Option.isSome_iff_exists.1 hplain
    rw [chars, Option.getD_some] at hfuel ⊢
    rw [stringChars, List.cons_append] at hfuel
    obtain ⟨n, rfl, -⟩ := exists_fuel hfuel
    exact readValue_string s rest
  | .array items, depth, fuel, rest, hplain, hfuel, _ => by
    rw [Plain] at hplain
    rw [chars] at hfuel ⊢
    obtain ⟨n, rfl, hn⟩ := exists_fuel hfuel
    have hitems := readItems_chars items depth true n rest hplain hn
    rw [List.cons_append, readValue, skipSpace_of_head (by decide)]
    simp only [hitems]
  | .object entries, depth, fuel, rest, hplain, hfuel, _ => by
    rw [Plain] at hplain
    rw [chars] at hfuel ⊢
    obtain ⟨n, rfl, hn⟩ := exists_fuel hfuel
    have hentries := readEntries_chars entries depth true n rest hplain hn
    rw [List.cons_append, readValue, skipSpace_of_head (by decide)]
    simp only [hentries]
  | .broken, _, _, _, hplain, _, _ => by
    rw [Plain] at hplain
    cases hplain

/-- The items of an array are read back, with their bracket. -/
theorem readItems_chars :
    ∀ (items : Items) (depth : Nat) (first : Bool) (fuel : Nat) (rest : List Char), items.Plain →
      (items.chars style depth first).length ≤ fuel →
      readItems fuel first (items.chars style depth first ++ rest) = (items, some rest)
  | .closed, depth, first, fuel, rest, _, hfuel => by
    rw [Items.chars] at hfuel ⊢
    rw [List.length_append] at hfuel
    obtain ⟨n, rfl⟩ := Nat.exists_eq_add_of_le' (Nat.le_trans (Nat.le_add_left 1 _) hfuel)
    exact readItems_closed style depth first rest
  | .item v items, depth, first, fuel, rest, hplain, hfuel => by
    rw [Items.Plain] at hplain
    have hsome := Items.length_chars_pos style depth hplain.2 false
    obtain ⟨c, cs, hbegin, hc⟩ := exists_chars_eq style (depth + 1) hplain.1
    have hlength : (v.chars style (depth + 1)).length = cs.length + 1 := by
      rw [hbegin, List.length_cons]
    rw [Items.chars] at hfuel ⊢
    simp only [List.length_append] at hfuel
    obtain ⟨n, rfl⟩ : ∃ n, fuel = n + 1 := ⟨fuel - 1, by omega⟩
    have hitems := readItems_chars items depth false n rest hplain.2 (by omega)
    have hv := readValue_chars v (depth + 1) n (items.chars style depth false ++ rest) hplain.1
      (by omega) (Items.ends_chars style depth hplain.2 rest)
    rw [List.append_assoc, List.append_assoc, hbegin, List.cons_append]
    exact readItems_item style (depth + 1) first hc (by rwa [hbegin] at hv) hitems
  | .broken, _, _, _, _, hplain, _ => by
    rw [Items.Plain] at hplain
    cases hplain

/-- The entries of an object are read back, with their brace. -/
theorem readEntries_chars :
    ∀ (entries : Entries) (depth : Nat) (first : Bool) (fuel : Nat) (rest : List Char),
      entries.Plain → (entries.chars style depth first).length ≤ fuel →
      readEntries fuel first (entries.chars style depth first ++ rest) = (entries, some rest)
  | .closed, depth, first, fuel, rest, _, hfuel => by
    rw [Entries.chars] at hfuel ⊢
    rw [List.length_append] at hfuel
    obtain ⟨n, rfl⟩ := Nat.exists_eq_add_of_le' (Nat.le_trans (Nat.le_add_left 1 _) hfuel)
    exact readEntries_closed style depth first rest
  | .entry key v entries, depth, first, fuel, rest, hplain, hfuel => by
    rw [Entries.Plain] at hplain
    obtain ⟨hkey, hplainv, hplain⟩ := hplain
    obtain ⟨key, rfl⟩ := Option.isSome_iff_exists.1 hkey
    have hsome := Entries.length_chars_pos style depth hplain false
    rw [Entries.chars, Option.getD_some] at hfuel ⊢
    simp only [stringChars, List.length_append, List.length_cons] at hfuel
    obtain ⟨n, rfl⟩ : ∃ n, fuel = n + 1 := ⟨fuel - 1, by omega⟩
    have hentries := readEntries_chars entries depth false n rest hplain (by omega)
    have hv := readValue_chars v (depth + 1) n (entries.chars style depth false ++ rest) hplainv
      (by omega) (Entries.ends_chars style depth hplain rest)
    have hstep := readEntries_entry style (depth + 1) first key hv hentries
    simpa only [List.append_assoc] using hstep
  | .broken, _, _, _, _, hplain, _ => by
    rw [Entries.Plain] at hplain
    cases hplain

end

/-- **What is written is read**, to the end of the text. -/
theorem read_write {v : Json} (h : v.Plain) : read (v.write style) = (v, true) := by
  have hread :=
    readValue_chars style v 0 (2 * (v.chars style 0).length + 1) [] h (by omega) ends_nil
  rw [List.append_nil] at hread
  simp [read, write, hread, skipSpace]

end Json

end FlatLayout
