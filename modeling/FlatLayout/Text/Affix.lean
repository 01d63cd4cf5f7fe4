/-!
# Beginnings and ends of words

Removing a known beginning or a known end from a text, cutting a text at a character, and lower case
for words of ASCII letters.

## Main definitions

* `withoutStart`, `withoutEnd` — one occurrence removed, if it is there
* `splitOn` — the parts between the occurrences of a character
* `asciiLower` — ASCII letters in lower case
-/

namespace FlatLayout.Text

/-- The text without `start` at its front; the text itself if it does not begin so. -/
def withoutStart (start s : String) : String :=
  if start.toList.isPrefixOf s.toList then String.ofList (s.toList.drop start.toList.length) else s

/-- The text without `ending` at its end; the text itself if it does not end so. -/
def withoutEnd (ending s : String) : String :=
  if ending.toList.isSuffixOf s.toList then
    String.ofList (s.toList.take (s.toList.length - ending.toList.length))
  else s

/-- The parts of a text between the occurrences of a character. There is always one. -/
def splitOn (sep : Char) : List Char → List (List Char)
  | [] => [[]]
  | c :: cs =>
    if c = sep then [] :: splitOn sep cs
    else
      match splitOn sep cs with
      | [] => [[c]]
      | part :: parts => (c :: part) :: parts

/-- No part holds the character that the text was cut at. -/
theorem not_mem_of_mem_splitOn {sep : Char} {cs part : List Char} (h : part ∈ splitOn sep cs) :
    sep ∉ part := by
  induction cs generalizing part with
  | nil =>
    rw [splitOn] at h
    rw [List.mem_singleton.1 h]
    exact List.not_mem_nil
  | cons c cs ih =>
    rw [splitOn] at h
    split at h
    · rcases List.mem_cons.1 h with rfl | h
      · exact List.not_mem_nil
      · exact ih h
    next hc =>
      split at h
      · rw [List.mem_singleton.1 h, List.mem_singleton]
        exact Ne.symm hc
      next first rest heq =>
        rcases List.mem_cons.1 h with rfl | h
        · have hfirst : sep ∉ first := ih (heq ▸ List.mem_cons_self)
          simp [Ne.symm hc, hfirst]
        · exact ih (heq ▸ List.mem_cons_of_mem _ h)

/-- What stands in front of the first such character is the first part. -/
theorem splitOn_append {sep : Char} {part : List Char} (h : sep ∉ part) (cs : List Char) :
    splitOn sep (part ++ sep :: cs) = part :: splitOn sep cs := by
  induction part with
  | nil => rw [List.nil_append, splitOn, if_pos rfl]
  | cons c part ih =>
    obtain ⟨hc, hpart⟩ := not_or.1 (mt List.mem_cons.2 h)
    rw [List.cons_append, splitOn, if_neg (Ne.symm hc), ih hpart]

/-- Every character of a text is one that the text is cut at, or stands in a part. -/
theorem eq_or_mem_splitOn {sep : Char} {cs : List Char} {c : Char} (h : c ∈ cs) :
    c = sep ∨ ∃ part ∈ splitOn sep cs, c ∈ part := by
  induction cs with
  | nil => cases h
  | cons d cs ih =>
    rw [splitOn]
    split
    next hd =>
      rcases List.mem_cons.1 h with rfl | h
      · exact .inl hd
      · refine (ih h).imp_right fun ⟨part, hpart, hc⟩ => ?_
        exact ⟨part, List.mem_cons_of_mem _ hpart, hc⟩
    next hd =>
      split
      next heq =>
        rcases List.mem_cons.1 h with rfl | h
        · exact .inr ⟨_, List.mem_cons_self, List.mem_cons_self⟩
        · exact .inl (by simpa [heq] using ih h)
      next first rest heq =>
        rcases List.mem_cons.1 h with rfl | h
        · exact .inr ⟨_, List.mem_cons_self, List.mem_cons_self⟩
        · refine (ih h).imp_right fun ⟨part, hpart, hc⟩ => ?_
          rw [heq] at hpart
          rcases List.mem_cons.1 hpart with rfl | hpart
          · exact ⟨_, List.mem_cons_self, List.mem_cons_of_mem _ hc⟩
          · exact ⟨part, List.mem_cons_of_mem _ hpart, hc⟩

/-- ASCII letters in lower case, all other characters as they are. -/
def asciiLower (s : String) : String := String.ofList (s.toList.map Char.toLower)

end FlatLayout.Text
