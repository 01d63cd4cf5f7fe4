import FlatLayout.Decl.Conditional
import FlatLayout.Proofs.PrintedLines

/-!
# Directives in a text

Conditional blocks are chosen between in the tree of a unit. A compiler that reads the printed text
does it line by line: it keeps a stack with one entry for each block that is open, which says
whether the branch at hand is kept. Both come to the same, so a unit may be printed with its blocks
and be left to the compiler.

The reader knows a directive by its first column. The printer puts directives there and indents
whatever stands in a struct; what stands at the top of a unit is not indented, and has to be no
directive by itself.

## What makes the induction go

Lines are read in a context: some blocks are open, and some lines follow. `Selects` says what lines
are read as in every context, so that the lines of a tree are read piece by piece. A block is read
as one of its branches in a context where it is kept, and as nothing in any other.

## Main definitions

* `Directive`, `selectLines`, `selectText` — evaluating the directives of a text
* `SourceUnit.withoutBlocks` — a unit without what stands in conditional blocks
* `Selects` — what lines are read as

## Main results

* `Selects.block` — the lines of a block are read as those of the branch that is chosen
* `selectText_sourceText` — printing commutes with choosing between the branches
-/

namespace FlatLayout

/-! ### Evaluating directives -/

/-- What a line says about conditional blocks. -/
inductive Directive where
  | branch (symbol : String)
  | otherwise
  | close

/-- The directive that a line is. It begins in the first column. -/
def Directive.ofLine? (line : String) : Option Directive :=
  if line = "#else" then some .otherwise
  else if line = "#endif" then some .close
  else if "#if ".toList.isPrefixOf line.toList then
    some (.branch (String.ofList (line.toList.drop "#if ".toList.length)))
  else none

/-- The open blocks behind an `#else`: the innermost one is kept if it was not. -/
def otherBranch : List Bool → List Bool
  | [] => []
  | kept :: outer => (!kept) :: outer

/-- The lines that are kept. `branches` says of each open block, the innermost first, whether its
branch is kept. -/
def selectLines (defines : List String) : List Bool → Lines → Lines
  | _, [] => []
  | branches, line :: lines =>
    match Directive.ofLine? line with
    | some (.branch symbol) => selectLines defines (defines.contains symbol :: branches) lines
    | some .otherwise => selectLines defines (otherBranch branches) lines
    | some .close => selectLines defines branches.tail lines
    | none =>
      if branches.all id then line :: selectLines defines branches lines
      else selectLines defines branches lines

/-- The text with its directives evaluated, line by line. -/
def selectText (defines : List String) (text : String) : String :=
  "\n".intercalate
    (selectLines defines [] ((Text.splitOn '\n' text.toList).map String.ofList))

/-! ### Outside of blocks -/

mutual

/-- What is left of a member without conditional blocks. -/
def Member.withoutBlocks : Member → List Member
  | .conditional _ _ _ => []
  | .struct s => [.struct (StructDecl.withoutBlocks s)]
  | m => [m]

/-- The struct without the blocks in it. -/
def StructDecl.withoutBlocks : StructDecl → StructDecl
  | ⟨modifiers, name, markers, layout, members⟩ =>
    ⟨modifiers, name, markers, layout, Member.allWithoutBlocks members⟩

/-- What is left of some members. -/
def Member.allWithoutBlocks : List Member → List Member
  | [] => []
  | m :: ms => m.withoutBlocks ++ Member.allWithoutBlocks ms

end

/-- The item without the blocks in it. -/
def Item.withoutBlocks : Item → Item
  | .struct s => .struct s.withoutBlocks
  | i => i

/-- The unit without what stands in conditional blocks. -/
def SourceUnit.withoutBlocks (u : SourceUnit) : SourceUnit :=
  { u with items := u.items.map Item.withoutBlocks }

/-! ### Lines that are no directives -/

/-- A line that does not begin like a directive. -/
def IsPlain (line : String) : Prop := line.toList.head? ≠ some '#'

instance IsPlain.decidable (line : String) : Decidable (IsPlain line) :=
  inferInstanceAs (Decidable (line.toList.head? ≠ some '#'))

/-- What is indented does not stand in the first column. -/
theorem isPlain_indented {depth : Nat} (hdepth : 0 < depth) (line : String) :
    IsPlain (indented depth line) := by
  obtain ⟨n, rfl⟩ : ∃ n, depth = n + 1 := ⟨depth - 1, by omega⟩
  rw [IsPlain, indented, String.toList_append, String.toList_ofList, Nat.mul_succ,
    List.replicate_succ]
  simp

theorem IsPlain.indented {line : String} (h : IsPlain line) (depth : Nat) :
    IsPlain (indented depth line) := by
  rcases Nat.eq_zero_or_pos depth with rfl | hdepth
  · simpa [FlatLayout.indented] using h
  · exact isPlain_indented hdepth line

/-- Some lines that are no directives. -/
def AllPlain (ls : Lines) : Prop := ∀ line ∈ ls, IsPlain line

section

variable {ls ls' : Lines} {line : String} {depth : Nat}

@[simp] theorem allPlain_nil : AllPlain [] := by simp [AllPlain]

@[simp] theorem allPlain_cons : AllPlain (line :: ls) ↔ IsPlain line ∧ AllPlain ls :=
  List.forall_mem_cons

@[simp] theorem allPlain_append : AllPlain (ls ++ ls') ↔ AllPlain ls ∧ AllPlain ls' :=
  List.forall_mem_append

@[simp] theorem allPlain_braced : AllPlain (braced depth ls) ↔ AllPlain ls := by
  have hopen : IsPlain (indented depth "\x7b") := IsPlain.indented (by decide) depth
  have hclose : IsPlain (indented depth "\x7d") := IsPlain.indented (by decide) depth
  simp [braced, hopen, hclose]

variable (hdepth : 0 < depth)

include hdepth

theorem allPlain_verbatimLines (text : String) : AllPlain (verbatimLines depth text) := by
  intro line hline
  obtain ⟨part, -, rfl⟩ := List.mem_map.1 hline
  split
  · decide
  · exact isPlain_indented hdepth part

theorem Markers.allPlain_lines (s : Markers) : AllPlain (s.lines depth) := by
  unfold Markers.lines
  split
  · exact allPlain_nil
  · exact allPlain_cons.2 ⟨isPlain_indented hdepth _, allPlain_nil⟩

theorem FieldDecl.allPlain_lines (f : FieldDecl) : AllPlain (f.lines depth) :=
  allPlain_append.2 ⟨f.markers.allPlain_lines hdepth,
    allPlain_cons.2 ⟨isPlain_indented hdepth _, allPlain_nil⟩⟩

theorem AccessorDecl.allPlain_lines (a : AccessorDecl) (container : String) :
    AllPlain (a.lines depth container) := by
  have hdeeper : ∀ n line, IsPlain (indented (depth + n) line) := fun n =>
    isPlain_indented (Nat.add_pos_left hdepth n)
  simp only [AccessorDecl.lines, allPlain_cons, allPlain_braced, allPlain_nil, and_true]
  exact ⟨isPlain_indented hdepth _, hdeeper 1 _, hdeeper 2 _, hdeeper 3 _⟩

theorem EnumDecl.allPlain_lines (e : EnumDecl) : AllPlain (e.lines depth) := by
  refine allPlain_cons.2 ⟨isPlain_indented hdepth _, allPlain_braced.2 fun line hline => ?_⟩
  obtain ⟨v, -, rfl⟩ := List.mem_map.1 hline
  exact isPlain_indented (Nat.succ_pos depth) _

theorem ClassDecl.allPlain_lines (c : ClassDecl) : AllPlain (c.lines depth) := by
  rw [ClassDecl.lines]
  split
  · exact allPlain_cons.2 ⟨isPlain_indented hdepth _, allPlain_nil⟩
  · refine allPlain_cons.2 ⟨isPlain_indented hdepth _, allPlain_braced.2 fun line hline => ?_⟩
    obtain ⟨text, -, hline⟩ := List.mem_flatMap.1 hline
    exact allPlain_verbatimLines (Nat.succ_pos depth) text line hline

end

/-- The lines of a struct declaration in front of its body. -/
def StructDecl.headLines (depth : Nat) (s : StructDecl) : Lines :=
  s.markers.lines depth ++
    (match s.layout with
      | none => []
      | some a => [indented depth a.sourceText]) ++
    [indented depth (modifierText s.modifiers ++ "struct " ++ s.name)]

theorem StructDecl.lines_eq (depth : Nat) (s : StructDecl) :
    s.lines depth =
      s.headLines depth ++ braced depth (Member.allLines (depth + 1) s.name s.members) := by
  obtain ⟨modifiers, name, markers, layout, members⟩ := s
  cases layout <;>
    simp only [StructDecl.lines, StructDecl.headLines, List.append_assoc, List.cons_append,
      List.nil_append]

theorem StructDecl.allPlain_headLines {depth : Nat} (hdepth : 0 < depth) (s : StructDecl) :
    AllPlain (s.headLines depth) := by
  rw [StructDecl.headLines, allPlain_append, allPlain_append]
  refine ⟨⟨s.markers.allPlain_lines hdepth, ?_⟩,
    allPlain_cons.2 ⟨isPlain_indented hdepth _, allPlain_nil⟩⟩
  split
  · exact allPlain_nil
  · exact allPlain_cons.2 ⟨isPlain_indented hdepth _, allPlain_nil⟩

/-! ### Reading lines in a context -/

/-- With any blocks open and any lines behind them, the lines `ls` are read as `chosen` where all
open branches are kept, and as nothing otherwise. -/
def Selects (defines : List String) (ls chosen : Lines) : Prop :=
  ∀ branches rest, selectLines defines branches (ls ++ rest) =
    (if branches.all id then chosen else []) ++ selectLines defines branches rest

namespace Directive

theorem ofLine?_branch (symbol : String) : ofLine? ("#if " ++ symbol) = some (.branch symbol) := by
  have hchars : ("#if " ++ symbol).toList = "#if ".toList ++ symbol.toList := String.toList_append
  have hne : ∀ word : String, word.toList.take 2 ≠ ['#', 'i'] → "#if " ++ symbol ≠ word := by
    rintro _ hword rfl
    rw [hchars] at hword
    exact hword rfl
  have helse : "#if " ++ symbol ≠ "#else" := hne _ (by decide)
  have hendif : "#if " ++ symbol ≠ "#endif" := hne _ (by decide)
  rw [ofLine?, if_neg helse, if_neg hendif, hchars, if_pos (by simp), List.drop_left,
    String.ofList_toList]

theorem ofLine?_of_isPlain {line : String} (h : IsPlain line) : ofLine? line = none := by
  have hpound : ∀ word : String, word.toList.head? = some '#' → line ≠ word := by
    rintro word hword rfl
    exact h hword
  have hif : ¬ "#if ".toList.isPrefixOf line.toList := fun hprefix => by
    obtain ⟨rest, hrest⟩ := List.isPrefixOf_iff_prefix.1 hprefix
    exact h (by rw [← hrest]; rfl)
  rw [ofLine?, if_neg (hpound _ rfl), if_neg (hpound _ rfl), if_neg hif]

end Directive

namespace Selects

variable {defines : List String} {ls ls' chosen chosen' : Lines}

theorem nil : Selects defines [] [] := by
  intro branches rest
  simp

theorem append (h : Selects defines ls chosen) (h' : Selects defines ls' chosen') :
    Selects defines (ls ++ ls') (chosen ++ chosen') := by
  intro branches rest
  rw [List.append_assoc, h, h']
  split <;> simp

theorem plain (h : AllPlain ls) : Selects defines ls ls := by
  induction ls with
  | nil => exact nil
  | cons line ls ih =>
    obtain ⟨hline, hls⟩ := allPlain_cons.1 h
    intro branches rest
    rw [List.cons_append, selectLines, Directive.ofLine?_of_isPlain hline]
    simp only [ih hls branches rest]
    split <;> simp

/-- **A block without a second branch** is read as its branch or as nothing. -/
theorem block (symbol : String) (h : Selects defines ls chosen) :
    Selects defines (("#if " ++ symbol) :: ls ++ ["#endif"])
      (if defines.contains symbol then chosen else []) := by
  intro branches rest
  simp only [List.cons_append, List.append_assoc, List.nil_append]
  rw [selectLines, Directive.ofLine?_branch]
  simp only [h (defines.contains symbol :: branches)]
  rw [selectLines]
  cases defines.contains symbol <;> simp [Directive.ofLine?]

/-- **A block with two branches** is read as one of them: the stack says at `#else` that the second
branch is kept if the first one was not. -/
theorem block_otherwise (symbol : String) (h : Selects defines ls chosen)
    (h' : Selects defines ls' chosen') :
    Selects defines (("#if " ++ symbol) :: ls ++ "#else" :: ls' ++ ["#endif"])
      (if defines.contains symbol then chosen else chosen') := by
  intro branches rest
  simp only [List.cons_append, List.append_assoc, List.nil_append]
  rw [selectLines, Directive.ofLine?_branch]
  simp only [h (defines.contains symbol :: branches)]
  have helse : Directive.ofLine? "#else" = some .otherwise := rfl
  rw [selectLines, helse]
  simp only [otherBranch, h' ((!defines.contains symbol) :: branches)]
  rw [selectLines]
  cases defines.contains symbol <;> simp [Directive.ofLine?]

theorem braced {depth : Nat} (h : Selects defines ls chosen) :
    Selects defines (braced depth ls) (braced depth chosen) := by
  have hbrace : ∀ brace : String, IsPlain brace →
      Selects defines [indented depth brace] [indented depth brace] := fun brace hbrace =>
    plain (allPlain_cons.2 ⟨hbrace.indented depth, allPlain_nil⟩)
  exact ((hbrace "\x7b" (by decide)).append h).append (hbrace "\x7d" (by decide))

/-- Pieces with an empty line between two of them. -/
theorem intercalate {α : Type} {f g : α → Lines} {as : List α}
    (h : ∀ a ∈ as, Selects defines (f a) (g a)) :
    Selects defines ([""].intercalate (as.map f)) ([""].intercalate (as.map g)) := by
  induction as with
  | nil => exact nil
  | cons a as ih =>
    obtain ⟨ha, has⟩ := List.forall_mem_cons.1 h
    cases as with
    | nil => simpa using ha
    | cons b as =>
      simp only [List.map_cons, List.intercalate_cons_cons] at ih ⊢
      have hempty : Selects defines [""] [""] := plain (allPlain_cons.2 ⟨by decide, allPlain_nil⟩)
      exact (ha.append hempty).append (ih has)

end Selects

/-! ### The lines of structs

By recursion along the tree. Whatever stands in a struct is indented, so only what stands in front
of a body can be taken for a directive. -/

section

variable (defines : List String)

/-- The members that stand for several lists of members, one behind the other. -/
theorem Member.allLines_append (depth : Nat) (container : String) (ms ms' : List Member) :
    Member.allLines depth container (ms ++ ms') =
      Member.allLines depth container ms ++ Member.allLines depth container ms' := by
  induction ms with
  | nil => rw [Member.allLines]; rfl
  | cons m ms ih => rw [List.cons_append, Member.allLines, Member.allLines, ih, List.append_assoc]

theorem Member.allLines_singleton (depth : Nat) (container : String) (m : Member) :
    Member.allLines depth container [m] = m.lines depth container := by
  rw [Member.allLines, Member.allLines, List.append_nil]

mutual

theorem Member.selects {depth : Nat} (hdepth : 0 < depth) (container : String) :
    ∀ m : Member, Selects defines (m.lines depth container)
      (Member.allLines depth container (m.select defines))
  | .field f => by
    simp only [Member.select, Member.allLines_singleton, Member.lines]
    exact .plain (f.allPlain_lines hdepth)
  | .accessor a => by
    simp only [Member.select, Member.allLines_singleton, Member.lines]
    exact .plain (a.allPlain_lines hdepth container)
  | .struct s => by
    rw [Member.select, Member.allLines_singleton, Member.lines, Member.lines]
    exact StructDecl.selects s (s.allPlain_headLines hdepth)
  | .enum e => by
    simp only [Member.select, Member.allLines_singleton, Member.lines]
    exact .plain (e.allPlain_lines hdepth)
  | .conditional symbol members otherwise => by
    have hmembers := Member.selectsAll hdepth container members
    have hotherwise := Member.selectsAll hdepth container otherwise
    rw [Member.select, Member.lines, apply_ite (Member.allLines depth container)]
    cases otherwise with
    | nil =>
      rw [Member.selectAll, Member.allLines]
      simpa using hmembers.block symbol
    | cons m ms => simpa using hmembers.block_otherwise symbol hotherwise
  | .verbatim text => by
    simp only [Member.select, Member.allLines_singleton, Member.lines]
    exact .plain (allPlain_verbatimLines hdepth text)

theorem StructDecl.selects {depth : Nat} :
    ∀ s : StructDecl, AllPlain (s.headLines depth) →
      Selects defines (s.lines depth) ((s.select defines).lines depth)
  | ⟨modifiers, name, markers, layout, members⟩, hhead => by
    have hbody := Member.selectsAll (Nat.succ_pos depth) name members
    rw [StructDecl.select, StructDecl.lines_eq, StructDecl.lines_eq]
    exact (Selects.plain hhead).append hbody.braced

theorem Member.selectsAll {depth : Nat} (hdepth : 0 < depth) (container : String) :
    ∀ ms : List Member, Selects defines (Member.allLines depth container ms)
      (Member.allLines depth container (Member.selectAll defines ms))
  | [] => by
    rw [Member.selectAll, Member.allLines]
    exact .nil
  | m :: ms => by
    rw [Member.selectAll, Member.allLines_append, Member.allLines]
    exact (Member.selects hdepth container m).append (Member.selectsAll hdepth container ms)

end

/-! ### The lines of units -/

/-- The lines of an item that stand outside of the body of a struct. -/
def Item.ownLines (depth : Nat) : Item → Lines
  | .struct s => s.headLines depth
  | i => i.lines depth

theorem Item.allPlain_ownLines {depth : Nat} (hdepth : 0 < depth) (i : Item) :
    AllPlain (i.ownLines depth) := by
  cases i with
  | struct s => exact s.allPlain_headLines hdepth
  | enum e => exact e.allPlain_lines hdepth
  | classDecl c => exact c.allPlain_lines hdepth
  | verbatim text => exact allPlain_verbatimLines hdepth text

theorem Item.ownLines_subset (depth : Nat) (i : Item) :
    i.ownLines depth ⊆ i.withoutBlocks.lines depth := by
  cases i with
  | struct s =>
    obtain ⟨modifiers, name, markers, layout, members⟩ := s
    rw [Item.withoutBlocks, StructDecl.withoutBlocks, Item.lines, StructDecl.lines_eq]
    exact List.subset_append_left _ _
  | enum e => exact List.Subset.refl _
  | classDecl c => exact List.Subset.refl _
  | verbatim text => exact List.Subset.refl _

theorem Item.selects {depth : Nat} (i : Item) (hown : AllPlain (i.ownLines depth)) :
    Selects defines (i.lines depth) ((i.select defines).lines depth) := by
  cases i with
  | struct s => exact s.selects defines hown
  | enum e => exact .plain hown
  | classDecl c => exact .plain hown
  | verbatim text => exact .plain hown

/-- The lines of an item are among those of all items. -/
theorem Item.lines_subset_allLines {depth : Nat} {items : List Item} {i : Item} (hi : i ∈ items) :
    i.lines depth ⊆ Item.allLines depth items := by
  unfold Item.allLines
  induction items with
  | nil => cases hi
  | cons j items ih =>
    cases items with
    | nil =>
      rw [List.mem_singleton.1 hi]
      simp
    | cons k items =>
      rw [List.map_cons, List.map_cons, List.intercalate_cons_cons]
      rcases List.mem_cons.1 hi with rfl | hi
      · exact List.subset_append_of_subset_left _ (List.subset_append_left _ _)
      · exact List.subset_append_of_subset_right _ (ih hi)

theorem Item.selects_allLines {depth : Nat} {items : List Item}
    (hown : ∀ i ∈ items, AllPlain (i.ownLines depth)) :
    Selects defines (Item.allLines depth items)
      (Item.allLines depth (items.map (Item.select defines))) := by
  rw [Item.allLines, Item.allLines, List.map_map]
  exact .intercalate fun i hi => i.selects defines (hown i hi)

/-- The lines of a unit are read as those of the unit that is selected. -/
theorem SourceUnit.selects {u : SourceUnit} (h : AllPlain u.withoutBlocks.lines) :
    Selects defines u.lines (u.select defines).lines := by
  rw [SourceUnit.lines, allPlain_append] at h
  obtain ⟨hfront, hitems⟩ := h
  rw [SourceUnit.lines, SourceUnit.lines]
  refine (Selects.plain hfront).append ?_
  simp only [SourceUnit.withoutBlocks, SourceUnit.select] at hitems ⊢
  split at hitems
  next name hname =>
    have hname : IsPlain ("namespace " ++ name) := (allPlain_cons.1 hitems).1
    have hown : ∀ i ∈ u.items, AllPlain (i.ownLines 1) := fun i _ =>
      i.allPlain_ownLines Nat.one_pos
    exact (Selects.plain (allPlain_cons.2 ⟨hname, allPlain_nil⟩)).append
      (Item.selects_allLines defines hown).braced
  next =>
    refine Item.selects_allLines defines fun i hi line hline => hitems line ?_
    have hmem : i.withoutBlocks ∈ u.items.map Item.withoutBlocks := List.mem_map_of_mem hi
    exact Item.lines_subset_allLines hmem (i.ownLines_subset 0 hline)

end

/-! ### The text of units -/

/-- **Printing commutes with choosing between branches.** If no word of a unit holds a line feed,
and no line that is printed outside of conditional blocks begins with `#`, then evaluating the
directives of the printed text, line by line, gives the text of the unit whose blocks have been
replaced by their branches. -/
theorem selectText_sourceText (u : SourceUnit) (defines : List String)
    (hwords : ∀ word ∈ u.words, '\n' ∉ word.toList)
    (houter : ∀ line ∈ u.withoutBlocks.lines, line.toList.head? ≠ some '#') :
    selectText defines u.sourceText = (u.select defines).sourceText := by
  have hlast : selectLines defines [] [""] = [""] := rfl
  have hlines := SourceUnit.selects defines houter [] [""]
  rw [hlast, List.all_nil, if_pos rfl] at hlines
  rw [selectText, SourceUnit.sourceText, splitOn_text (SourceUnit.unbroken_lines hwords), hlines,
    SourceUnit.sourceText, text_eq_intercalate]

/-- A unit with a block inside a block and another one inside a nested struct. The text that is
carried along begins like a directive. -/
def branchingUnit : SourceUnit :=
  let field (type name : String) : Member := .field (.ofNames (.named type) [name])
  let struct (name : String) (members : List Member) : StructDecl :=
    ⟨[], name, .none, none, members⟩
  { SourceUnit.ofName "branches.cs" with
    imports := ["System"]
    items := [.struct (struct "Outer"
      [.conditional "WIDE"
          [.conditional "TRACED" [.verbatim "#pragma warning disable\n\n"] [],
            field "long" "a"]
          [.struct (struct "Inner" [.conditional "TRACED" [field "int" "b"] [field "byte" "c"]])],
        field "int" "d"])] }

/-- Without either symbol the blocks leave the nested struct, with its second branch. -/
theorem selectText_sourceText_branching :
    selectText [] branchingUnit.sourceText = (branchingUnit.select []).sourceText ∧
    branchingUnit.lines =
      ["using System;", "", "struct Outer", "\x7b", "#if WIDE", "#if TRACED",
        "  #pragma warning disable", "", "#endif", "  public long a;", "#else", "  struct Inner",
        "  \x7b", "#if TRACED", "    public int b;", "#else", "    public byte c;", "#endif",
        "  \x7d", "#endif", "  public int d;", "\x7d"] ∧
    (branchingUnit.select []).lines =
      ["using System;", "", "struct Outer", "\x7b", "  struct Inner", "  \x7b",
        "    public byte c;", "  \x7d", "  public int d;", "\x7d"] :=
  ⟨selectText_sourceText branchingUnit [] (by decide +kernel) (by decide +kernel),
    by decide +kernel, by decide +kernel⟩

end FlatLayout
