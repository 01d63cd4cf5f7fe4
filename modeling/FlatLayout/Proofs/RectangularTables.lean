import FlatLayout.Proofs.TypeSyntax
import FlatLayout.Table
import Mathlib.Data.List.Forall2

/-!
# Tables are rectangular

A table has a frame, and the frame is drawn by hand: each line is put together on its own, the
borders from the widths of the columns alone, the rows from widths and cells. That the pieces meet
is not visible in any of them. It needs that every cell of every row fits into its column, that
filling it up makes it exactly as wide as the column, and that a border counts the same characters.

## Bytes and characters

A column is as wide as its widest cell takes bytes, but cells are filled up by characters. So a
column need not be as wide as one of its cells. It is enough that a text has at most as many
characters as bytes: no cell is too wide, and all others are filled up.

## Styles

A styled table is the same table with sequences around some cells that the terminal swallows. They
are removed by `Terminal.unstyled`, which takes away sequences that select a style and nothing else.
It looks ahead for the end of a sequence, so what it does to a text may depend on what follows;
`Terminal.Strips` says of a text that it does not, and is kept when texts are put together.

## Main definitions

* `Legible` — a text without line feeds and escape characters
* `Terminal.unstyled` — a text without the sequences that select styles
* `Table.frameLine`, `Table.framePosition` — a line of cells in a frame, and where the frame stands
* `Table.Shows` — what a line of a table looks like

## Main results

* `Table.fits_widths` — every cell fits into its column
* `Table.forall_shows` — the lines of a table one by one
* `Table.text_rectangular` — the lines of a table, read off its text
-/

namespace FlatLayout

/-! ### Legible texts -/

/-- A text that neither ends a line nor begins an escape sequence. -/
def Legible (cs : List Char) : Prop := ∀ c ∈ cs, c ≠ '\n' ∧ c ≠ '\x1b'

instance Legible.decidable (cs : List Char) : Decidable (Legible cs) :=
  List.decidableBAll (fun c => c ≠ '\n' ∧ c ≠ '\x1b') cs

section

variable {c : Char} {cs ds : List Char}

theorem Legible.lf_not_mem (h : Legible cs) : '\n' ∉ cs := fun hmem => (h _ hmem).1 rfl

theorem Legible.escape_not_mem (h : Legible cs) : '\x1b' ∉ cs := fun hmem => (h _ hmem).2 rfl

@[simp] theorem legible_cons :
    Legible (c :: cs) ↔ (c ≠ '\n' ∧ c ≠ '\x1b') ∧ Legible cs := List.forall_mem_cons

@[simp] theorem legible_append : Legible (cs ++ ds) ↔ Legible cs ∧ Legible ds :=
  List.forall_mem_append

theorem legible_replicate (n : Nat) (h : Legible [c]) : Legible (List.replicate n c) := by
  intro d hd
  rw [List.eq_of_mem_replicate hd]
  exact h c List.mem_cons_self

theorem legible_flatMap {α : Type} {xs : List α} {f : α → List Char}
    (h : ∀ x ∈ xs, Legible (f x)) : Legible (xs.flatMap f) := by
  intro d hd
  obtain ⟨x, hx, hd⟩ := List.mem_flatMap.1 hd
  exact h x hx d hd

theorem legible_digitChar : ∀ n < 16, Legible [n.digitChar] := by decide

theorem legible_toDigits {b : Nat} (hb : 1 < b) (hb' : b ≤ 16) (n : Nat) :
    Legible (Nat.toDigits b n) := by
  induction n using Nat.strongRecOn with
  | ind n ih =>
    rcases Nat.lt_or_ge n b with hlt | hge
    · rw [Nat.toDigits_of_lt_base hlt]
      exact legible_digitChar n (by omega)
    · have hdigit := Nat.mod_lt n (Nat.zero_lt_of_lt hb)
      rw [Nat.toDigits_of_base_le hb hge, legible_append]
      exact ⟨ih _ (Nat.div_lt_self (by omega) hb), legible_digitChar _ (by omega)⟩

theorem legible_decimal (n : Nat) : Legible (Text.decimal n).toList := by
  rw [Text.decimal, String.toList_ofList]
  exact legible_toDigits (by decide) (by decide) n

theorem legible_hex (n : Nat) : Legible (Text.hex n).toList := by
  rw [Text.hex, String.toList_ofList]
  exact legible_toDigits (by decide) (by decide) n

theorem TypeRef.legible_text {t : TypeRef} (h : Legible t.name.toList) : Legible t.text.toList := by
  rw [TypeRef.text, String.toList_ofList, TypeRef.chars, legible_append]
  exact ⟨h, legible_replicate _ (by decide)⟩

end

/-- A text has at most as many characters as bytes. -/
theorem length_le_utf8ByteSize (s : String) : s.length ≤ s.utf8ByteSize := by
  induction s using String.push_induction with
  | empty => exact Nat.zero_le _
  | push s c ih =>
    rw [String.length_push, String.utf8ByteSize_push]
    have := c.utf8Size_pos
    omega

/-! ### Lines of a text -/

theorem Text.splitOn_intercalate {sep : Char} {parts : List (List Char)} (hne : parts ≠ [])
    (h : ∀ part ∈ parts, sep ∉ part) : splitOn sep ([sep].intercalate parts) = parts := by
  induction parts with
  | nil => exact absurd rfl hne
  | cons part parts ih =>
    obtain ⟨hpart, hparts⟩ := List.forall_mem_cons.1 h
    by_cases hnil : parts = []
    · rw [hnil, List.intercalate_singleton, splitOn_of_not_mem hpart]
    · rw [List.intercalate_cons_of_ne_nil hnil, List.append_assoc, List.singleton_append,
        splitOn_append hpart, ih hnil hparts]

/-! ### Texts without styles -/

namespace Terminal

/-- A digit, or what stands between two numbers. -/
def isParameter (c : Char) : Bool := c.isDigit || c = ';'

/-- What stands behind a sequence that selects a style, if a text begins with one. It consists of
the escape character, a bracket, parameters and the letter `m`. -/
def behindStyle? : List Char → Option (List Char)
  | '\x1b' :: '[' :: cs =>
    match cs.dropWhile isParameter with
    | 'm' :: rest => some rest
    | _ => none
  | _ => none

theorem length_behindStyle? {cs rest : List Char} (h : behindStyle? cs = some rest) :
    rest.length < cs.length := by
  unfold behindStyle? at h
  split at h
  case h_1 cs =>
    split at h
    case h_1 rest' hdrop =>
      obtain rfl := Option.some.inj h
      have hle := cs.length_dropWhile_le isParameter
      rw [hdrop] at hle
      simp only [List.length_cons] at hle ⊢
      omega
    case h_2 => cases h
  case h_2 => cases h

/-- A text without the sequences that select styles. -/
def unstyled (cs : List Char) : List Char :=
  match _hstyle : behindStyle? cs with
  | some rest => unstyled rest
  | none =>
    match cs with
    | [] => []
    | c :: cs => c :: unstyled cs
termination_by cs.length
decreasing_by
  · exact length_behindStyle? _hstyle
  · simp

section

variable {cs ds rest : List Char}

theorem unstyled_nil : unstyled [] = [] := by
  rw [unstyled]
  rfl

theorem unstyled_of_some (h : behindStyle? cs = some rest) : unstyled cs = unstyled rest := by
  rw [unstyled]
  split
  case h_1 h' =>
    rw [h] at h'
    rw [Option.some.inj h']
  case h_2 h' =>
    rw [h] at h'
    cases h'

theorem unstyled_cons {c : Char} (h : c ≠ '\x1b') : unstyled (c :: cs) = c :: unstyled cs := by
  have hnone : behindStyle? (c :: cs) = none := by
    unfold behindStyle?
    split
    case h_1 heq => exact absurd (List.cons.inj heq).1 h
    case h_2 => rfl
  rw [unstyled]
  split
  case h_1 h' =>
    rw [hnone] at h'
    cases h'
  case h_2 => rfl

/-- Removing styles from the text `styled` leaves `plain`, whatever follows. -/
def Strips (styled plain : List Char) : Prop :=
  ∀ rest, unstyled (styled ++ rest) = plain ++ unstyled rest

namespace Strips

theorem unstyled_eq (h : Strips cs ds) : unstyled cs = ds := by
  have := h []
  rwa [List.append_nil, unstyled_nil, List.append_nil] at this

theorem append {cs' ds' : List Char} (h : Strips cs ds) (h' : Strips cs' ds') :
    Strips (cs ++ cs') (ds ++ ds') := by
  intro rest
  rw [List.append_assoc, h, h', List.append_assoc]

theorem refl (h : '\x1b' ∉ cs) : Strips cs cs := by
  intro rest
  induction cs with
  | nil => rfl
  | cons c cs ih =>
    rw [List.mem_cons, not_or] at h
    obtain ⟨hc, hcs⟩ := h
    rw [List.cons_append, unstyled_cons (Ne.symm hc), ih hcs, List.cons_append]

theorem flatMap {α : Type} {xs : List α} {f g : α → List Char}
    (h : ∀ x ∈ xs, Strips (f x) (g x)) : Strips (xs.flatMap f) (xs.flatMap g) := by
  induction xs with
  | nil => exact fun rest => rfl
  | cons x xs ih =>
    obtain ⟨hx, hxs⟩ := List.forall_mem_cons.1 h
    exact hx.append (ih hxs)

theorem intercalate {sep : Char} {css dss : List (List Char)} (hsep : sep ≠ '\x1b')
    (h : List.Forall₂ Strips css dss) : Strips ([sep].intercalate css) ([sep].intercalate dss) := by
  have hsep : Strips [sep] [sep] := .refl fun hmem => hsep (List.mem_singleton.1 hmem).symm
  induction h with
  | nil => exact .refl (by simp)
  | cons hcs hrest ih =>
    cases hrest with
    | nil => rwa [List.intercalate_singleton, List.intercalate_singleton]
    | @cons as bs _ _ _ _ =>
      rw [List.intercalate_cons_of_ne_nil (List.cons_ne_nil as _),
        List.intercalate_cons_of_ne_nil (List.cons_ne_nil bs _)]
      exact (hcs.append hsep).append ih

/-- Nothing is left of a sequence that selects a style. -/
theorem sequence (codes : List Char) (h : codes.all isParameter = true) :
    Strips ('\x1b' :: '[' :: codes ++ ['m']) [] := by
  intro rest
  refine unstyled_of_some ?_
  have hdrop : (codes ++ 'm' :: rest).dropWhile isParameter = 'm' :: rest := by
    rw [List.dropWhile_append_of_pos (List.all_eq_true.1 h)]
    rfl
  simp only [List.cons_append, List.append_assoc, List.nil_append, behindStyle?, hdrop]

end Strips

theorem Style.isParameter_codes (s : Style) : s.codes.all isParameter = true := by
  cases s <;> decide

theorem restyled_of_not_mem {s : Style} (h : '\x1b' ∉ cs) : restyled s cs = cs := by
  induction cs with
  | nil => rfl
  | cons c cs ih =>
    rw [List.mem_cons, not_or] at h
    obtain ⟨hc, hcs⟩ := h
    unfold restyled
    split
    case h_1 heq => exact absurd (List.cons.inj heq).1.symm hc
    case h_2 heq =>
      obtain ⟨rfl, rfl⟩ := List.cons.inj heq
      rw [ih hcs]
    case h_3 heq => cases heq

/-- What was painted is plain again when styles are removed. -/
theorem strips_paint {text : String} (s : Style) (h : '\x1b' ∉ text.toList) :
    Strips (paint s text).toList text.toList := by
  rw [paint, String.toList_ofList, restyled_of_not_mem h]
  have hon : Strips s.on [] := .sequence _ s.isParameter_codes
  have hreset : Strips reset [] := .sequence ['0'] (by decide)
  have := (hon.append (.refl h)).append hreset
  rwa [List.nil_append, List.append_nil] at this

end

end Terminal

namespace Table

/-! ### The frame -/

/-- A line of segments, with the frame in front of the first one and behind each. -/
def frameLine (frame : Char) (segments : List (List Char)) : List Char :=
  frame :: segments.flatMap (· ++ [frame])

/-- Where the frame stands for the `i`-th time, counted from zero, if the segments of a line have the
lengths `ws`. The column `i` ends in front of the position `i + 1`. -/
def framePosition : List Nat → Nat → Nat
  | w :: ws, i + 1 => (w + 1) + framePosition ws i
  | _, _ => 0

section

variable {frame : Char} {segments : List (List Char)}

theorem frameLine_cons (segment : List Char) :
    frameLine frame (segment :: segments) = (frame :: segment) ++ frameLine frame segments := by
  rw [frameLine, List.flatMap_cons, List.append_assoc]
  rfl

/-- All characters of a line are counted: the last one is that of the frame behind all segments. -/
theorem length_frameLine :
    (frameLine frame segments).length =
      framePosition (segments.map List.length) segments.length + 1 := by
  induction segments with
  | nil => rfl
  | cons segment segments ih =>
    rw [frameLine_cons, List.length_append, ih, List.map_cons, List.length_cons, List.length_cons,
      framePosition]
    omega

theorem getElem?_frameLine {i : Nat} (h : i ≤ segments.length) :
    (frameLine frame segments)[framePosition (segments.map List.length) i]? = some frame := by
  induction segments generalizing i with
  | nil =>
    rw [Nat.le_zero.1 h]
    rfl
  | cons segment segments ih =>
    cases i with
    | zero => rfl
    | succ i =>
      rw [List.map_cons, framePosition, frameLine_cons, ← List.length_cons (a := frame),
        List.getElem?_append_right (Nat.le_add_right _ _), Nat.add_sub_cancel_left,
        ih (Nat.le_of_succ_le_succ h)]

theorem legible_frameLine (hframe : Legible [frame]) (h : ∀ segment ∈ segments, Legible segment) :
    Legible (frameLine frame segments) := by
  refine legible_cons.2 ⟨hframe frame List.mem_cons_self, ?_⟩
  refine legible_flatMap fun segment hsegment => ?_
  exact legible_append.2 ⟨h segment hsegment, hframe⟩

end

/-! ### What the lines look like -/

/-- What a line of a table shows. -/
inductive Content where
  | border
  | cells (texts : List String)

/-- What the lines of a table show, in order. -/
def contents (t : Table) : List Content :=
  [.border, .cells headers, .border] ++ t.rows.map (fun r => .cells r.cells) ++ [.border]

/-- The segment is the cell, filled up at one side, with one more blank at both sides. -/
def Fills (right : Bool) (cell segment : List Char) : Prop :=
  ∃ n, segment = ' ' :: (if right then List.replicate n ' ' ++ cell
    else cell ++ List.replicate n ' ') ++ [' ']

/-- What a line looks like whose columns have the widths `ws`. A border consists of dashes. In all
other lines every column holds a cell, at the side where it belongs. -/
inductive Shows (ws : List Nat) : Content → List Char → Prop
  | border : Shows ws .border (frameLine '+' (ws.map (List.replicate · '-')))
  | cells {texts : List String} {segments : List (List Char)}
      (widths : segments.map List.length = ws)
      (fills : List.Forall₂ (fun x segment => Fills x.1.2 x.2.toList segment) (columns.zip texts)
        segments) : Shows ws (.cells texts) (frameLine '|' segments)

/-- In every line the frame stands at the same positions. -/
theorem Shows.exists_frame {ws : List Nat} {content : Content} {cs : List Char}
    (h : Shows ws content cs) :
    cs.length = framePosition ws ws.length + 1 ∧
    ∃ frame, (frame = '|' ∨ frame = '+') ∧
      ∀ i ≤ ws.length, cs[framePosition ws i]? = some frame := by
  -- Of what is shown only the lengths of the segments matter.
  obtain ⟨frame, segments, hframe, rfl, rfl⟩ : ∃ frame segments, (frame = '|' ∨ frame = '+') ∧
      segments.map List.length = ws ∧ cs = frameLine frame segments := by
    cases h with
    | border => exact ⟨'+', _, .inr rfl, by simp [Function.comp_def], rfl⟩
    | cells widths fills => exact ⟨'|', _, .inl rfl, widths, rfl⟩
  rw [List.length_map]
  exact ⟨length_frameLine, frame, hframe, fun i hi => getElem?_frameLine hi⟩

/-! ### Widths -/

/-- Every cell takes at most as many bytes as its column is wide. -/
def Fits (cells : List String) (ws : List Nat) : Prop :=
  List.Forall₂ (fun cell w => cell.utf8ByteSize ≤ w) cells ws

/-- The widths of the columns with one more row. -/
def widen (ws : List Nat) (r : Row) : List Nat :=
  ws.zipWith (fun w cell => max w cell.utf8ByteSize) r.cells

section

variable {cells : List String} {ws : List Nat} {r : Row} {rows : List Row}

theorem length_widen (h : r.cells.length = ws.length) : (widen ws r).length = ws.length := by
  rw [widen, List.length_zipWith, h, Nat.min_self]

theorem Fits.widen (h : Fits cells ws) (hr : r.cells.length = ws.length) :
    Fits cells (widen ws r) := by
  obtain ⟨more, marked⟩ := r
  induction h generalizing more with
  | nil => exact .nil
  | cons hcell _ ih =>
    cases more with
    | nil => cases hr
    | cons _ more => exact .cons (hcell.trans (Nat.le_max_left _ _)) (ih more (Nat.succ.inj hr))

theorem fits_widen (h : r.cells.length = ws.length) : Fits r.cells (widen ws r) := by
  obtain ⟨cells, marked⟩ := r
  induction ws generalizing cells with
  | nil =>
    obtain rfl := List.length_eq_zero_iff.1 h
    exact .nil
  | cons w ws ih =>
    cases cells with
    | nil => cases h
    | cons cell cells => exact .cons (Nat.le_max_right _ _) (ih cells (Nat.succ.inj h))

/-- What fits into the columns still fits with more rows. -/
theorem Fits.foldl_widen (h : Fits cells ws) (hrows : ∀ r ∈ rows, r.cells.length = ws.length) :
    Fits cells (rows.foldl Table.widen ws) := by
  induction rows generalizing ws with
  | nil => exact h
  | cons r rows ih =>
    obtain ⟨hr, hrows⟩ := List.forall_mem_cons.1 hrows
    refine ih (h.widen hr) fun q hq => ?_
    rw [length_widen hr, hrows q hq]

theorem fits_foldl_widen (hrows : ∀ r ∈ rows, r.cells.length = ws.length) :
    ∀ r ∈ rows, Fits r.cells (rows.foldl Table.widen ws) := by
  induction rows generalizing ws with
  | nil => exact nofun
  | cons r rows ih =>
    obtain ⟨hr, hrows⟩ := List.forall_mem_cons.1 hrows
    have hlengths : ∀ q ∈ rows, q.cells.length = (Table.widen ws r).length := by
      intro q hq
      rw [length_widen hr, hrows q hq]
    exact List.forall_mem_cons.2 ⟨(fits_widen hr).foldl_widen hlengths, ih hlengths⟩

end

/-- **Every cell fits into its column**, those of the headers included. -/
theorem fits_widths (t : Table) (hrows : ∀ r ∈ t.rows, r.cells.length = columns.length) :
    Fits headers t.widths ∧ ∀ r ∈ t.rows, Fits r.cells t.widths := by
  have hheaders : Fits headers (headers.map String.utf8ByteSize) :=
    List.forall₂_map_right_iff.2 (List.forall₂_same.2 fun _ _ => le_rfl)
  exact ⟨hheaders.foldl_widen hrows, fits_foldl_widen hrows⟩

/-! ### The lines one by one -/

/-- A cell that fits is filled up to the width of its column. -/
theorem length_pad {right : Bool} {width : Nat} {cell : String} (h : cell.utf8ByteSize ≤ width) :
    (pad right width cell).toList.length = width := by
  have hlength : cell.toList.length ≤ width := by
    rw [String.length_toList]
    exact (length_le_utf8ByteSize cell).trans h
  rw [pad, ← String.length_toList]
  split <;> simp only [String.toList_append, String.toList_ofList, List.length_append,
    List.length_replicate] <;> omega

theorem fills_pad (right : Bool) (width : Nat) (cell : String) :
    Fills right cell.toList (' ' :: (pad right width cell).toList ++ [' ']) := by
  refine ⟨width - cell.length, ?_⟩
  unfold pad
  split <;> simp

/-- The segments of a row. -/
def segments (columns : List (String × Bool)) (ws : List Nat) (cells : List String) :
    List (List Char) :=
  (columns.zip (ws.zip cells)).map fun x => ' ' :: (pad x.1.2 x.2.1 x.2.2).toList ++ [' ']

section

variable {columns : List (String × Bool)} {ws : List Nat} {cells : List String}

theorem map_length_segments (h : Fits cells ws) (hcolumns : columns.length = cells.length) :
    (segments columns ws cells).map List.length = ws.map (· + 2) := by
  induction h generalizing columns with
  | nil => rw [List.length_eq_zero_iff.1 hcolumns]; rfl
  | cons hcell _ ih =>
    cases columns with
    | nil => cases hcolumns
    | cons column columns =>
      have hrest := ih (Nat.succ.inj hcolumns)
      rw [segments] at hrest ⊢
      rw [List.zip_cons_cons, List.zip_cons_cons, List.map_cons, List.map_cons, hrest,
        List.map_cons, List.length_append, List.length_cons, length_pad hcell]
      rfl

theorem forall_fills_segments (h : Fits cells ws) (hcolumns : columns.length = cells.length) :
    List.Forall₂ (fun x segment => Fills x.1.2 x.2.toList segment) (columns.zip cells)
      (segments columns ws cells) := by
  induction h generalizing columns with
  | nil => rw [List.length_eq_zero_iff.1 hcolumns]; exact .nil
  | cons _ _ ih =>
    cases columns with
    | nil => cases hcolumns
    | cons column columns =>
      exact .cons (fills_pad _ _ _) (ih (Nat.succ.inj hcolumns))

end

theorem toList_rowText (ws : List Nat) (cells : List String) :
    (rowText ws (fun _ => none) cells).toList = frameLine '|' (segments columns ws cells) := by
  -- Only the style of a cell depends on the index of its column, and here there is none.
  let shown (x : (String × Bool) × Nat × String) : String := framed none x.1.2 x.2.1 x.2.2
  have hmap : ((columns.zip (ws.zip cells)).zipIdx.map fun x => shown x.1) =
      (columns.zip (ws.zip cells)).map shown := by
    refine (List.map_map (f := Prod.fst) (g := shown)).symm.trans ?_
    rw [List.zipIdx_map_fst]
  have hframed : ∀ x, (shown x).toList =
      (' ' :: (pad x.1.2 x.2.1 x.2.2).toList ++ [' ']) ++ ['|'] :=
    fun x => by simp [shown, framed]
  rw [frameLine, segments, List.flatMap_map, rowText, String.toList_append]
  show '|' :: (String.join ((columns.zip (ws.zip cells)).zipIdx.map fun x => shown x.1)).toList = _
  rw [hmap, String.toList_join, List.flatMap_map]
  congr 1
  exact List.flatMap_congr fun x _ => hframed x

theorem shows_rowText {ws : List Nat} {cells : List String} (h : Fits cells ws)
    (hcells : cells.length = columns.length) :
    Shows (ws.map (· + 2)) (.cells cells) (rowText ws (fun _ => none) cells).toList := by
  rw [toList_rowText]
  exact .cells (map_length_segments h hcells.symm) (forall_fills_segments h hcells.symm)

/-- One more frame behind all parts is one behind each part. -/
theorem intercalate_append {frame : Char} {parts : List (List Char)} (h : parts ≠ []) :
    [frame].intercalate parts ++ [frame] = parts.flatMap (· ++ [frame]) := by
  induction parts with
  | nil => exact absurd rfl h
  | cons part parts ih =>
    by_cases hnil : parts = []
    · rw [hnil, List.intercalate_singleton, List.flatMap_singleton]
    · rw [List.intercalate_cons_of_ne_nil hnil, List.append_assoc, ih hnil, List.flatMap_cons]

theorem toList_border {ws : List Nat} (h : ws ≠ []) :
    (border ws).toList = frameLine '+' ((ws.map (· + 2)).map (List.replicate · '-')) := by
  rw [frameLine, ← intercalate_append (by simpa using h), border, String.toList_append,
    String.toList_append, String.toList_intercalate, List.map_map, List.map_map]
  simp [Function.comp_def]

section

variable {t : Table} (hrows : ∀ r ∈ t.rows, r.cells.length = columns.length)

include hrows

theorem widths_ne_nil : t.widths ≠ [] := by
  intro hnil
  have hlength := (fits_widths t hrows).1.length_eq
  rw [hnil] at hlength
  cases hlength

/-- **The lines of a table without styles,** one by one. -/
theorem forall_shows :
    List.Forall₂ (Shows (t.widths.map (· + 2))) t.contents
      ((t.lines false).map String.toList) := by
  obtain ⟨hheaders, hfits⟩ := fits_widths t hrows
  have hborder : Shows (t.widths.map (· + 2)) .border (border t.widths).toList := by
    rw [toList_border (widths_ne_nil hrows)]
    exact .border
  have hhead := shows_rowText hheaders rfl
  have hbody : List.Forall₂ (Shows (t.widths.map (· + 2))) (t.rows.map fun r => .cells r.cells)
      ((t.rows.map fun r => rowText t.widths (rowStyle false r) r.cells).map String.toList) := by
    rw [List.map_map, List.forall₂_map_left_iff, List.forall₂_map_right_iff, List.forall₂_same]
    exact fun r hr => shows_rowText (hfits r hr) (hrows r hr)
  rw [contents, lines, List.map_append, List.map_append]
  exact List.rel_append (List.rel_append (.cons hborder (.cons hhead (.cons hborder .nil))) hbody)
    (.cons hborder .nil)

end

/-! ### Legible tables -/

/-- All cells of a table are legible. -/
def AllLegible (t : Table) : Prop := ∀ r ∈ t.rows, ∀ cell ∈ r.cells, Legible cell.toList

theorem legible_pad (right : Bool) (width : Nat) {cell : String} (h : Legible cell.toList) :
    Legible (pad right width cell).toList := by
  have hblanks := legible_replicate (width - cell.length) (c := ' ') (by decide)
  unfold pad
  split
  · rw [String.toList_append, String.toList_ofList]
    exact legible_append.2 ⟨hblanks, h⟩
  · rw [String.toList_append, String.toList_ofList]
    exact legible_append.2 ⟨h, hblanks⟩

theorem legible_border {ws : List Nat} (h : ws ≠ []) : Legible (border ws).toList := by
  rw [toList_border h]
  refine legible_frameLine (by decide) fun segment hsegment => ?_
  obtain ⟨w, -, rfl⟩ := List.mem_map.1 hsegment
  exact legible_replicate w (by decide)

section

open Terminal (Strips)

theorem strips_framed {right : Bool} {width : Nat} {cell : String} (h : Legible cell.toList)
    (style : Option Terminal.Style) :
    Strips (framed style right width cell).toList (framed none right width cell).toList := by
  have hpad := (legible_pad right width h).escape_not_mem
  simp only [framed, String.toList_append]
  refine .append (.append (.refl (by decide)) ?_) (.refl (by decide))
  cases style with
  | none => exact .refl hpad
  | some s => exact Terminal.strips_paint s hpad

variable {ws : List Nat} {cells : List String} (h : ∀ cell ∈ cells, Legible cell.toList)

include h

theorem legible_rowText : Legible (rowText ws (fun _ => none) cells).toList := by
  rw [toList_rowText]
  refine legible_frameLine (by decide) fun segment hsegment => ?_
  obtain ⟨x, hx, rfl⟩ := List.mem_map.1 hsegment
  have hcell := h x.2.2 (List.of_mem_zip (List.of_mem_zip hx).2).2
  exact legible_append.2 ⟨legible_cons.2 ⟨by decide, legible_pad _ _ hcell⟩, by decide⟩

theorem strips_rowText (style : Nat → Option Terminal.Style) :
    Strips (rowText ws style cells).toList (rowText ws (fun _ => none) cells).toList := by
  rw [rowText, rowText, String.toList_append, String.toList_append, String.toList_join,
    String.toList_join, List.flatMap_map, List.flatMap_map]
  refine .append (.refl (by decide)) (.flatMap fun x hx => ?_)
  have hzip := List.fst_mem_of_mem_zipIdx hx
  exact strips_framed (h x.1.2.2 (List.of_mem_zip (List.of_mem_zip hzip).2).2) _

end

theorem legible_headers : ∀ cell ∈ headers, Legible cell.toList := by decide

section

variable {t : Table} (hrows : ∀ r ∈ t.rows, r.cells.length = columns.length)
  (hlegible : t.AllLegible)

include hrows hlegible

theorem legible_lines : ∀ line ∈ t.lines false, Legible line.toList := by
  have hborder := legible_border (widths_ne_nil hrows)
  rw [lines]
  refine List.forall_mem_append.2 ⟨List.forall_mem_append.2 ⟨?_, ?_⟩, by simpa using hborder⟩
  · simp only [List.forall_mem_cons]
    exact ⟨hborder, legible_rowText legible_headers, hborder, nofun⟩
  · intro line hline
    obtain ⟨r, hr, rfl⟩ := List.mem_map.1 hline
    exact legible_rowText (hlegible r hr)

/-- The lines of a table, read off its text. -/
theorem splitOn_text :
    Text.splitOn '\n' (t.text false).toList = (t.lines false).map String.toList := by
  rw [text, String.toList_intercalate]
  refine Text.splitOn_intercalate (by simp [lines]) fun part hpart => ?_
  obtain ⟨line, hline, rfl⟩ := List.mem_map.1 hpart
  exact (legible_lines hrows hlegible line hline).lf_not_mem

open Terminal (Strips)

theorem strips_lines :
    List.Forall₂ Strips ((t.lines true).map String.toList) ((t.lines false).map String.toList) := by
  have hborder := Strips.refl (legible_border (widths_ne_nil hrows)).escape_not_mem
  have hhead : Strips (rowText t.widths (headerStyle true) headers).toList
      (rowText t.widths (headerStyle false) headers).toList := strips_rowText legible_headers _
  have hbody : List.Forall₂ Strips
      ((t.rows.map fun r => rowText t.widths (rowStyle true r) r.cells).map String.toList)
      ((t.rows.map fun r => rowText t.widths (rowStyle false r) r.cells).map String.toList) := by
    rw [List.map_map, List.map_map, List.forall₂_map_left_iff, List.forall₂_map_right_iff,
      List.forall₂_same]
    exact fun r hr => strips_rowText (hlegible r hr) _
  rw [lines, lines, List.map_append, List.map_append, List.map_append, List.map_append]
  exact List.rel_append (List.rel_append (.cons hborder (.cons hhead (.cons hborder .nil))) hbody)
    (.cons hborder .nil)

theorem unstyled_text : Terminal.unstyled (t.text true).toList = (t.text false).toList := by
  rw [text, text, String.toList_intercalate, String.toList_intercalate]
  exact (Strips.intercalate (by decide) (strips_lines hrows hlegible)).unstyled_eq

end

/-! ### The table of a flat struct -/

theorem legible_roleLabel (role : Role) : Legible (roleLabel role).toList := by
  cases role <;> decide

theorem legible_typeLabel {m : PlacedMember} (h : Legible m.type.name.toList) :
    Legible (typeLabel m).toList := by
  have htext := TypeRef.legible_text h
  unfold typeLabel
  split
  · rw [String.toList_append, String.toList_append, String.toList_append]
    exact legible_append.2 ⟨legible_append.2 ⟨legible_append.2 ⟨htext, by decide⟩,
      legible_decimal _⟩, by decide⟩
  · split
    · rw [String.toList_append]
      exact legible_append.2 ⟨htext, by decide⟩
    · exact htext

theorem allLegible_ofStruct {f : FlatStruct}
    (h : ∀ m ∈ f.members, Legible m.name.toList ∧ Legible m.type.name.toList)
    (withAccessors : Bool) : (ofStruct f withAccessors).AllLegible := by
  intro r hr
  obtain ⟨m, hm, rfl⟩ := List.mem_map.1 hr
  obtain ⟨hname, htype⟩ := h m (List.mem_of_mem_filter hm)
  simp only [rowOf, List.forall_mem_cons]
  refine ⟨?_, legible_decimal _, hname, legible_typeLabel htype, legible_roleLabel _, nofun⟩
  rw [String.toList_append]
  exact legible_append.2 ⟨by decide, legible_hex _⟩

theorem length_cells_ofStruct {f : FlatStruct} {withAccessors : Bool} :
    ∀ r ∈ (ofStruct f withAccessors).rows, r.cells.length = columns.length := by
  intro r hr
  obtain ⟨m, -, rfl⟩ := List.mem_map.1 hr
  rfl

/-- **Tables are rectangular.** If no name of a member and no name of a type ends a line or begins
an escape sequence, the text of the table without styles has four lines more than it shows members.
All lines have the same number of characters, and a frame around five columns that stands at the
same positions in each of them. The lines show the borders, the headers and the members, in this
order, each cell filled up to the width of its column. The text with styles is the same text after
the sequences that select styles were removed. -/
theorem text_rectangular {f : FlatStruct}
    (h : ∀ m ∈ f.members, Legible m.name.toList ∧ Legible m.type.name.toList)
    (withAccessors : Bool) :
    let t := ofStruct f withAccessors
    let lines := Text.splitOn '\n' (t.text false).toList
    lines.length = (f.members.filter fun m => withAccessors || !m.isAccessor).length + 4 ∧
    (∃ ws : List Nat, ws.length = 5 ∧
      (∀ cs ∈ lines, cs.length = framePosition ws 5 + 1 ∧
        ∃ frame, (frame = '|' ∨ frame = '+') ∧
          ∀ i ≤ 5, cs[framePosition ws i]? = some frame) ∧
      List.Forall₂ (Shows ws) t.contents lines) ∧
    Terminal.unstyled (t.text true).toList = (t.text false).toList := by
  intro t lines
  have hlegible := allLegible_ofStruct h withAccessors
  have hlines : lines = (t.lines false).map String.toList :=
    splitOn_text length_cells_ofStruct hlegible
  have hshows : List.Forall₂ (Shows (t.widths.map (· + 2))) t.contents lines := by
    rw [hlines]
    exact forall_shows length_cells_ofStruct
  have hwidths : (t.widths.map (· + 2)).length = 5 := by
    rw [List.length_map, ← (fits_widths t length_cells_ofStruct).1.length_eq]
    rfl
  have hframes := (List.forall₂_and_left _ _).1 (hshows.flip.imp fun _ _ h => ⟨h.exists_frame, h⟩)
  rw [hwidths] at hframes
  refine ⟨?_, ⟨t.widths.map (· + 2), hwidths, hframes.1, hshows⟩,
    unstyled_text length_cells_ofStruct hlegible⟩
  rw [← hshows.length_eq]
  simp [contents, t, ofStruct]

/-- A flat struct with names that have fewer characters than bytes, and with an accessor. -/
def accentedStruct : FlatStruct where
  key := ⟨"Maß"⟩
  markers := .none
  decl := .ofName "Maß"
  footprint := ⟨8, 4⟩
  members := [.ofField (.ofNames (.named "int") ["höhenmaß"]) 0 0 4 .plain,
    .nestedAccessor (.ofNames (.named "Größe") ["ä"]) "höhe" 0 0]

/-- Here the theorem speaks of six lines, two of which show members. -/
theorem text_rectangular_accented :
    (∀ m ∈ accentedStruct.members, Legible m.name.toList ∧ Legible m.type.name.toList) ∧
    (Text.splitOn '\n' ((ofStruct accentedStruct true).text false).toList).length = 6 ∧
    (∃ n, ∀ line ∈ Text.splitOn '\n' ((ofStruct accentedStruct true).text false).toList,
      line.length = n) ∧
    Terminal.unstyled ((ofStruct accentedStruct true).text true).toList =
      ((ofStruct accentedStruct true).text false).toList := by
  have hlegible : ∀ m ∈ accentedStruct.members,
      Legible m.name.toList ∧ Legible m.type.name.toList := by decide +kernel
  obtain ⟨hlength, ⟨ws, -, hlines, -⟩, hplain⟩ := text_rectangular hlegible true
  exact ⟨hlegible, hlength, ⟨_, fun line hline => (hlines line hline).1⟩, hplain⟩

/-- The columns for names and types are wider than what stands in them. -/
example : (ofStruct accentedStruct true).lines false = [
    "+--------+------+------------+----------+-----------------+",
    "| Offset | Size | Name       | Type     | Role            |",
    "+--------+------+------------+----------+-----------------+",
    "|    0x0 |    4 | höhenmaß   | int      | plain           |",
    "|    0x0 |    0 | ä_Ref      | Größe*   | nested accessor |",
    "+--------+------+------------+----------+-----------------+"] := by
  decide +kernel

end Table

end FlatLayout
