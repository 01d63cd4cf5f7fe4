import FlatLayout.Text.Affix

/-!
# Blank characters and lines

The characters with the Unicode property *White_Space*, trimming by them, and the cutting of a text
into lines.

## Main definitions

* `isBlank` — the property
* `trimChars` — what is left without the blanks at the two ends
* `lines` — the lines of a text, their line ends removed
-/

namespace FlatLayout.Text

/-- The 25 characters with the property *White_Space*. -/
def isBlank (c : Char) : Bool :=
  let n := c.toNat
  (9 ≤ n && n ≤ 13) || n == 0x20 || n == 0x85 || n == 0xA0 || n == 0x1680 ||
    (0x2000 ≤ n && n ≤ 0x200A) || n == 0x2028 || n == 0x2029 || n == 0x202F || n == 0x205F ||
    n == 0x3000

/-- The characters left when the blanks at both ends are dropped. -/
def trimChars (cs : List Char) : List Char :=
  ((cs.dropWhile isBlank).reverse.dropWhile isBlank).reverse

/-- A text without blanks loses nothing. -/
theorem trimChars_of_forall {cs : List Char} (h : ∀ c ∈ cs, isBlank c = false) :
    trimChars cs = cs := by
  have hkeep : ∀ cs : List Char, (∀ c ∈ cs, isBlank c = false) → cs.dropWhile isBlank = cs := by
    intro cs h
    cases cs with
    | nil => rfl
    | cons c cs => rw [List.dropWhile_cons_of_neg (by simp [h c List.mem_cons_self])]
  rw [trimChars, hkeep cs h, hkeep cs.reverse (fun c hc => h c (List.mem_reverse.1 hc)),
    List.reverse_reverse]

/-- A line that ended in a carriage return and a line feed loses both. -/
private def dropReturn (line : List Char) : List Char :=
  if line.getLast? = some '\r' then line.dropLast else line

/-- The lines that the parts between line feeds are. What follows the last line feed is a line only
if there is something there. -/
private def linesOfParts : List (List Char) → List (List Char)
  | [] => []
  | [last] => if last.isEmpty then [] else [last]
  | part :: parts => dropReturn part :: linesOfParts parts

/-- The lines of a text, without their line ends. The last line may lack one, and then a carriage
return at its end stays. -/
def lines (s : String) : List String := (linesOfParts (splitOn '\n' s.toList)).map String.ofList

private theorem mem_of_mem_dropReturn {line : List Char} {c : Char} (h : c ∈ dropReturn line) :
    c ∈ line := by
  unfold dropReturn at h
  split at h
  · exact List.dropLast_subset _ h
  · exact h

private theorem not_mem_of_mem_linesOfParts {parts : List (List Char)} {c : Char}
    (h : ∀ part ∈ parts, c ∉ part) {line : List Char} (hline : line ∈ linesOfParts parts) :
    c ∉ line := by
  induction parts with
  | nil => cases hline
  | cons part parts ih =>
    have hpart := h part List.mem_cons_self
    cases parts with
    | nil =>
      rw [linesOfParts] at hline
      split at hline
      · cases hline
      · rwa [List.mem_singleton.1 hline]
    | cons next parts =>
      rw [linesOfParts] at hline
      rcases List.mem_cons.1 hline with rfl | hline
      · exact fun hmem => hpart (mem_of_mem_dropReturn hmem)
      · exact ih (fun part hp => h part (List.mem_cons_of_mem _ hp)) hline
      · exact fun h => by cases h

/-- A line holds no line feed. -/
theorem lf_not_mem_of_mem_lines {s line : String} (h : line ∈ lines s) : '\n' ∉ line.toList := by
  obtain ⟨cs, hcs, rfl⟩ := List.mem_map.1 h
  rw [String.toList_ofList]
  exact not_mem_of_mem_linesOfParts (fun _ => not_mem_of_mem_splitOn) hcs

example : lines "a\r\n\nb\r" = ["a", "", "b\r"] := by decide +kernel

end FlatLayout.Text
