import FlatLayout.Decl.Printer

/-!
# Printed lines

A unit is printed as a list of lines, and its text is these lines with a line feed behind each. The
lines can be read off the text again if no line feed stands inside of one. The printer puts none
there: it cuts the texts that are carried along into their lines, and everything else that it prints
is a keyword, a number or a word of a declaration. So it is enough that no word holds a line feed.

## Main definitions

* `Unbroken` — a text without a line feed
* `SourceUnit.words` — the words that the lines of a unit are made of

## Main results

* `SourceUnit.unbroken_lines` — the lines of a unit are unbroken if its words are
* `splitOn_text` — unbroken lines are read off their text
-/

namespace FlatLayout

/-! ### Words -/

/-- The words of a field declaration. -/
def FieldDecl.words (f : FieldDecl) : List String := f.modifiers ++ f.type.name :: f.names

/-- The words of an accessor that are printed. -/
def AccessorDecl.words (a : AccessorDecl) : List String :=
  a.modifiers ++ [a.pointee.name, a.name, a.baseField]

/-- The words of an enumeration. -/
def EnumDecl.words (e : EnumDecl) : List String :=
  e.modifiers ++ e.name :: (e.underlying.map (·.name)).toList ++ e.variants

/-- The words of a class. Its body is text that is carried along. -/
def ClassDecl.words (c : ClassDecl) : List String := c.modifiers ++ c.name :: c.base.toList

mutual

/-- The words of a member, those of all branches of a conditional block among them. Text that is
carried along has none. -/
def Member.words : Member → List String
  | .field f => f.words
  | .accessor a => a.words
  | .struct s => StructDecl.words s
  | .enum e => e.words
  | .conditional symbol members otherwise =>
    symbol :: Member.allWords members ++ Member.allWords otherwise
  | .verbatim _ => []

/-- The words of a struct declaration. -/
def StructDecl.words : StructDecl → List String
  | ⟨modifiers, name, _, _, members⟩ => modifiers ++ name :: Member.allWords members

/-- The words of some members. -/
def Member.allWords : List Member → List String
  | [] => []
  | m :: ms => m.words ++ Member.allWords ms

end

/-- The words of an item. -/
def Item.words : Item → List String
  | .struct s => s.words
  | .enum e => e.words
  | .classDecl c => c.words
  | .verbatim _ => []

/-- The words that the lines of a unit are made of. -/
def SourceUnit.words (u : SourceUnit) : List String :=
  u.imports ++ u.namespaceName.toList ++ u.items.flatMap Item.words

/-! ### Texts without line feeds -/

/-- A text without a line feed. -/
def Unbroken (s : String) : Prop := '\n' ∉ s.toList

instance Unbroken.decidable (s : String) : Decidable (Unbroken s) :=
  inferInstanceAs (Decidable ('\n' ∉ s.toList))

section

variable {s t : String} {ss : List String}

@[simp] theorem unbroken_append : Unbroken (s ++ t) ↔ Unbroken s ∧ Unbroken t := by
  rw [Unbroken, String.toList_append, List.mem_append, not_or]
  rfl

theorem unbroken_join (h : ∀ s ∈ ss, Unbroken s) : Unbroken (String.join ss) := by
  rw [Unbroken, String.toList_join]
  intro hmem
  obtain ⟨s, hs, hmem⟩ := List.mem_flatMap.1 hmem
  exact h s hs hmem

theorem unbroken_intercalate (hs : Unbroken s) (h : ∀ t ∈ ss, Unbroken t) :
    Unbroken (s.intercalate ss) := by
  induction ss with
  | nil =>
    rw [String.intercalate_nil]
    decide
  | cons t ss ih =>
    obtain ⟨ht, hss⟩ := List.forall_mem_cons.1 h
    by_cases hnil : ss = []
    · rwa [hnil, String.intercalate_singleton]
    · rw [String.intercalate_cons_of_ne_nil hnil, unbroken_append, unbroken_append]
      exact ⟨⟨ht, hs⟩, ih hss⟩

@[simp] theorem unbroken_indented (depth : Nat) : Unbroken (indented depth s) ↔ Unbroken s := by
  have hblank : Unbroken (String.ofList (List.replicate (2 * depth) ' ')) := by
    rw [Unbroken, String.toList_ofList]
    exact fun hmem => absurd (List.eq_of_mem_replicate hmem) (by decide)
  rw [indented, unbroken_append]
  exact and_iff_right hblank

@[simp] theorem unbroken_decimal (n : Nat) : Unbroken (Text.decimal n) := by
  rw [Unbroken, Text.decimal, String.toList_ofList]
  intro hmem
  have hdigit := Nat.isDigit_of_mem_toDigits (by decide) (by decide) hmem
  exact absurd hdigit (by decide)

theorem unbroken_modifierText (h : ∀ m ∈ ss, Unbroken m) : Unbroken (modifierText ss) := by
  refine unbroken_join fun m hm => ?_
  obtain ⟨word, hword, rfl⟩ := List.mem_map.1 hm
  exact unbroken_append.2 ⟨h word hword, by decide⟩

theorem unbroken_impliedModifier (applies : Bool) (hs : Unbroken s) :
    Unbroken (FieldDecl.impliedModifier applies ss s) := by
  unfold FieldDecl.impliedModifier
  split
  · exact unbroken_append.2 ⟨hs, by decide⟩
  · decide

theorem TypeRef.unbroken_text {t : TypeRef} (h : Unbroken t.name) : Unbroken t.text := by
  rw [Unbroken, TypeRef.text, String.toList_ofList, TypeRef.chars, List.mem_append, not_or]
  exact ⟨h, fun hmem => absurd (List.eq_of_mem_replicate hmem) (by decide)⟩

end

/-! ### The lines of declarations -/

/-- Some lines without a line feed. -/
def AllUnbroken (ls : Lines) : Prop := ∀ line ∈ ls, Unbroken line

section

variable {ls ls' : Lines} {line : String} {depth : Nat}

@[simp] theorem allUnbroken_nil : AllUnbroken [] := by simp [AllUnbroken]

@[simp] theorem allUnbroken_cons : AllUnbroken (line :: ls) ↔ Unbroken line ∧ AllUnbroken ls :=
  List.forall_mem_cons

@[simp] theorem allUnbroken_append : AllUnbroken (ls ++ ls') ↔ AllUnbroken ls ∧ AllUnbroken ls' :=
  List.forall_mem_append

@[simp] theorem allUnbroken_braced : AllUnbroken (braced depth ls) ↔ AllUnbroken ls := by
  have hopen : Unbroken "\x7b" := by decide
  have hclose : Unbroken "\x7d" := by decide
  simp [braced, hopen, hclose]

theorem allUnbroken_verbatimLines (depth : Nat) (text : String) :
    AllUnbroken (verbatimLines depth text) := by
  intro line hline
  obtain ⟨part, hpart, rfl⟩ := List.mem_map.1 hline
  split
  · decide
  · exact (unbroken_indented depth).2 (Text.lf_not_mem_of_mem_lines hpart)

theorem Marker.unbroken_name (m : Marker) : Unbroken m.name := by cases m <;> decide

theorem Markers.allUnbroken_lines (depth : Nat) (s : Markers) : AllUnbroken (s.lines depth) := by
  have hnames : Unbroken (", ".intercalate s.names) := by
    refine unbroken_intercalate (by decide) fun name hname => ?_
    obtain ⟨m, -, rfl⟩ := List.mem_map.1 hname
    exact m.unbroken_name
  unfold Markers.lines
  split
  · exact allUnbroken_nil
  · have hopen : Unbroken "[" := by decide
    have hclose : Unbroken "]" := by decide
    simp [hnames, hopen, hclose]

theorem LayoutAttr.unbroken_sourceText (a : LayoutAttr) : Unbroken a.sourceText := by
  have hpack : Unbroken ", Pack = " := by decide
  have hsize : Unbroken ", Size = " := by decide
  unfold LayoutAttr.sourceText
  simp only [unbroken_append]
  refine ⟨⟨⟨⟨by decide, ?_⟩, ?_⟩, ?_⟩, by decide⟩
  · cases a.kind <;> decide
  · cases a.pack with
    | none => decide
    | some n => exact unbroken_append.2 ⟨hpack, unbroken_decimal _⟩
  · cases a.size with
    | none => decide
    | some n => exact unbroken_append.2 ⟨hsize, unbroken_decimal _⟩

theorem FieldDecl.unbroken_sourceText {f : FieldDecl} (h : ∀ w ∈ f.words, Unbroken w) :
    Unbroken f.sourceText := by
  obtain ⟨hmodifiers, hrest⟩ := List.forall_mem_append.1 h
  obtain ⟨htype, hnames⟩ := List.forall_mem_cons.1 hrest
  have htype := TypeRef.unbroken_text htype
  have hnames : Unbroken (", ".intercalate f.names) := unbroken_intercalate (by decide) hnames
  simp only [FieldDecl.sourceText, unbroken_append]
  refine ⟨⟨⟨⟨?_, unbroken_modifierText hmodifiers⟩, unbroken_impliedModifier _ (by decide)⟩,
    unbroken_impliedModifier _ (by decide)⟩, ?_⟩
  · cases f.offset with
    | none => decide
    | some n =>
      exact unbroken_append.2 ⟨unbroken_append.2 ⟨by decide, unbroken_decimal _⟩, by decide⟩
  · cases f.fixedCount with
    | none =>
      simp only [unbroken_append]
      exact ⟨⟨⟨htype, by decide⟩, hnames⟩, by decide⟩
    | some n =>
      simp only [unbroken_append]
      exact ⟨⟨⟨⟨⟨⟨by decide, htype⟩, by decide⟩, hnames⟩, by decide⟩, unbroken_decimal _⟩,
        by decide⟩

theorem FieldDecl.allUnbroken_lines {f : FieldDecl} (h : ∀ w ∈ f.words, Unbroken w) :
    AllUnbroken (f.lines depth) := by
  rw [FieldDecl.lines, allUnbroken_append, allUnbroken_cons, unbroken_indented]
  exact ⟨f.markers.allUnbroken_lines depth, f.unbroken_sourceText h, allUnbroken_nil⟩

theorem AccessorDecl.allUnbroken_lines {a : AccessorDecl} {container : String}
    (h : ∀ w ∈ a.words, Unbroken w) (hcontainer : Unbroken container) :
    AllUnbroken (a.lines depth container) := by
  obtain ⟨hmodifiers, hrest⟩ := List.forall_mem_append.1 h
  simp only [List.forall_mem_cons, List.not_mem_nil, false_implies, implies_true,
    and_true] at hrest
  obtain ⟨hpointee, hname, hbase⟩ := hrest
  have hpointee := TypeRef.unbroken_text hpointee
  simp only [AccessorDecl.lines, allUnbroken_cons, allUnbroken_braced, unbroken_indented,
    unbroken_append, allUnbroken_nil, and_true]
  exact ⟨⟨⟨⟨unbroken_modifierText hmodifiers, hpointee, by decide⟩, by decide⟩, hname⟩, by decide,
    ⟨⟨by decide, hcontainer⟩, by decide⟩, ⟨⟨⟨by decide, hpointee, by decide⟩, by decide⟩, hbase⟩,
    by decide⟩

theorem EnumDecl.allUnbroken_lines {e : EnumDecl} (h : ∀ w ∈ e.words, Unbroken w) :
    AllUnbroken (e.lines depth) := by
  obtain ⟨hmost, hvariants⟩ := List.forall_mem_append.1 h
  obtain ⟨hmodifiers, hrest⟩ := List.forall_mem_append.1 hmost
  obtain ⟨hname, hunderlying⟩ := List.forall_mem_cons.1 hrest
  rw [EnumDecl.lines, allUnbroken_cons, allUnbroken_braced, unbroken_indented]
  refine ⟨?_, fun line hline => ?_⟩
  · simp only [unbroken_append]
    refine ⟨⟨⟨unbroken_modifierText hmodifiers, by decide⟩, hname⟩, ?_⟩
    cases htype : e.underlying with
    | none => decide
    | some t =>
      have ht : Unbroken t.name := hunderlying t.name (by rw [htype]; exact List.mem_cons_self)
      exact unbroken_append.2 ⟨by decide, TypeRef.unbroken_text ht⟩
  · obtain ⟨v, hv, rfl⟩ := List.mem_map.1 hline
    exact (unbroken_indented _).2 (unbroken_append.2 ⟨hvariants v hv, by decide⟩)

/-- The line in front of the body of a class, with or without the name of a base. -/
theorem ClassDecl.exists_head {c : ClassDecl} (h : ∀ w ∈ c.words, Unbroken w) :
    ∃ head, Unbroken head ∧ c.lines depth =
      if c.body.isEmpty then [indented depth (head ++ " \x7b \x7d")]
      else indented depth head :: braced depth (c.body.flatMap (verbatimLines (depth + 1))) := by
  obtain ⟨hmodifiers, hrest⟩ := List.forall_mem_append.1 h
  obtain ⟨hname, hbase⟩ := List.forall_mem_cons.1 hrest
  have hstart : Unbroken (modifierText c.modifiers ++ "class " ++ c.name) :=
    unbroken_append.2 ⟨unbroken_append.2 ⟨unbroken_modifierText hmodifiers, by decide⟩, hname⟩
  cases hb : c.base with
  | none =>
    have hhead := unbroken_append.2 ⟨hstart, (by decide : Unbroken "")⟩
    exact ⟨_, hhead, by simp only [ClassDecl.lines, hb]⟩
  | some b =>
    have hunbroken : Unbroken b := hbase b (by rw [hb]; exact List.mem_cons_self)
    have hhead := unbroken_append.2
      ⟨hstart, unbroken_append.2 ⟨(by decide : Unbroken " : "), hunbroken⟩⟩
    exact ⟨_, hhead, by simp only [ClassDecl.lines, hb]⟩

theorem ClassDecl.allUnbroken_lines {c : ClassDecl} (h : ∀ w ∈ c.words, Unbroken w) :
    AllUnbroken (c.lines depth) := by
  obtain ⟨head, hhead, hlines⟩ : ∃ head, Unbroken head ∧ c.lines depth = _ :=
    ClassDecl.exists_head h
  rw [hlines]
  split
  · exact allUnbroken_cons.2 ⟨(unbroken_indented _).2 (unbroken_append.2 ⟨hhead, by decide⟩),
      allUnbroken_nil⟩
  · refine allUnbroken_cons.2 ⟨(unbroken_indented _).2 hhead, allUnbroken_braced.2 ?_⟩
    intro line hline
    obtain ⟨text, -, hline⟩ := List.mem_flatMap.1 hline
    exact allUnbroken_verbatimLines _ _ line hline

end

/-! ### The lines of structs

By recursion along the tree, at every depth. -/

mutual

theorem Member.allUnbroken_lines (depth : Nat) {container : String}
    (hcontainer : Unbroken container) :
    ∀ m : Member, (∀ w ∈ m.words, Unbroken w) → AllUnbroken (m.lines depth container)
  | .field f, h => by
    rw [Member.words] at h
    rw [Member.lines]
    exact f.allUnbroken_lines h
  | .accessor a, h => by
    rw [Member.words] at h
    rw [Member.lines]
    exact a.allUnbroken_lines h hcontainer
  | .struct s, h => by
    rw [Member.words] at h
    rw [Member.lines]
    exact StructDecl.allUnbroken_lines depth s h
  | .enum e, h => by
    rw [Member.words] at h
    rw [Member.lines]
    exact e.allUnbroken_lines h
  | .conditional symbol members otherwise, h => by
    rw [Member.words, List.forall_mem_append, List.forall_mem_cons] at h
    obtain ⟨⟨hsymbol, hmembers⟩, hotherwise⟩ := h
    have hmembers := Member.allUnbroken_allLines depth hcontainer members hmembers
    have hotherwise := Member.allUnbroken_allLines depth hcontainer otherwise hotherwise
    rw [Member.lines]
    simp only [allUnbroken_append, allUnbroken_cons, unbroken_append, allUnbroken_nil, and_true]
    refine ⟨⟨⟨⟨by decide, hsymbol⟩, hmembers⟩, ?_⟩, by decide⟩
    split
    · exact allUnbroken_nil
    · exact allUnbroken_cons.2 ⟨by decide, hotherwise⟩
  | .verbatim text, _ => by
    rw [Member.lines]
    exact allUnbroken_verbatimLines depth text

theorem StructDecl.allUnbroken_lines (depth : Nat) :
    ∀ s : StructDecl, (∀ w ∈ s.words, Unbroken w) → AllUnbroken (s.lines depth)
  | ⟨modifiers, name, markers, layout, members⟩, h => by
    rw [StructDecl.words, List.forall_mem_append, List.forall_mem_cons] at h
    obtain ⟨hmodifiers, hname, hmembers⟩ := h
    have hmembers := Member.allUnbroken_allLines (depth + 1) hname members hmembers
    simp only [StructDecl.lines, allUnbroken_append, allUnbroken_cons, allUnbroken_braced,
      unbroken_indented, unbroken_append]
    refine ⟨⟨markers.allUnbroken_lines depth, ?_⟩,
      ⟨⟨unbroken_modifierText hmodifiers, by decide⟩, hname⟩, hmembers⟩
    cases layout with
    | none => exact allUnbroken_nil
    | some a =>
      exact allUnbroken_cons.2 ⟨(unbroken_indented _).2 a.unbroken_sourceText, allUnbroken_nil⟩

theorem Member.allUnbroken_allLines (depth : Nat) {container : String}
    (hcontainer : Unbroken container) :
    ∀ ms : List Member, (∀ w ∈ Member.allWords ms, Unbroken w) →
      AllUnbroken (Member.allLines depth container ms)
  | [], _ => by
    rw [Member.allLines]
    exact allUnbroken_nil
  | m :: ms, h => by
    rw [Member.allWords, List.forall_mem_append] at h
    rw [Member.allLines, allUnbroken_append]
    exact ⟨Member.allUnbroken_lines depth hcontainer m h.1,
      Member.allUnbroken_allLines depth hcontainer ms h.2⟩

end

/-! ### The lines of units -/

theorem Item.allUnbroken_lines (depth : Nat) (i : Item) (h : ∀ w ∈ i.words, Unbroken w) :
    AllUnbroken (i.lines depth) := by
  cases i with
  | struct s => exact s.allUnbroken_lines depth h
  | enum e => exact e.allUnbroken_lines h
  | classDecl c => exact c.allUnbroken_lines h
  | verbatim text => exact allUnbroken_verbatimLines depth text

/-- An empty line between two items is as good as any. -/
theorem Item.allUnbroken_allLines (depth : Nat) {items : List Item}
    (h : ∀ w ∈ items.flatMap Item.words, Unbroken w) :
    AllUnbroken (Item.allLines depth items) := by
  unfold Item.allLines
  induction items with
  | nil => exact allUnbroken_nil
  | cons i items ih =>
    rw [List.flatMap_cons, List.forall_mem_append] at h
    have hi := i.allUnbroken_lines depth h.1
    cases items with
    | nil => simpa using hi
    | cons j items =>
      have hrest := ih h.2
      rw [List.map_cons] at hrest ⊢
      rw [List.map_cons, List.intercalate_cons_cons]
      simp only [allUnbroken_append, allUnbroken_cons, allUnbroken_nil, and_true]
      exact ⟨⟨hi, by decide⟩, hrest⟩

/-- **The lines of a unit are unbroken** if its words are, whatever text it carries along. -/
theorem SourceUnit.unbroken_lines {u : SourceUnit} (h : ∀ w ∈ u.words, Unbroken w) :
    AllUnbroken u.lines := by
  rw [SourceUnit.words, List.forall_mem_append, List.forall_mem_append] at h
  obtain ⟨⟨himports, hname⟩, hitems⟩ := h
  rw [SourceUnit.lines, allUnbroken_append, allUnbroken_append]
  refine ⟨⟨fun line hline => ?_, ?_⟩, ?_⟩
  · obtain ⟨i, hi, rfl⟩ := List.mem_map.1 hline
    simp only [unbroken_append]
    exact ⟨⟨by decide, himports i hi⟩, by decide⟩
  · split
    · exact allUnbroken_nil
    · exact allUnbroken_cons.2 ⟨by decide, allUnbroken_nil⟩
  · split
    next name hsome =>
      rw [hsome] at hname
      simp only [allUnbroken_cons, unbroken_append, allUnbroken_braced]
      exact ⟨⟨by decide, hname name List.mem_cons_self⟩, Item.allUnbroken_allLines 1 hitems⟩
    · exact Item.allUnbroken_allLines 0 hitems

/-! ### Reading lines off a text -/

theorem Lines.text_cons (line : String) (ls : Lines) :
    Lines.text (line :: ls) = line ++ "\n" ++ Lines.text ls := by
  rw [Lines.text, List.map_cons, String.join_cons]
  rfl

/-- **Unbroken lines are the parts of their text** between the line feeds. Nothing stands behind the
last one. -/
theorem splitOn_text {ls : Lines} (h : AllUnbroken ls) :
    (Text.splitOn '\n' (Lines.text ls).toList).map String.ofList = ls ++ [""] := by
  induction ls with
  | nil => rfl
  | cons line ls ih =>
    obtain ⟨hline, hls⟩ := allUnbroken_cons.1 h
    have hchars : (Lines.text (line :: ls)).toList =
        line.toList ++ '\n' :: (Lines.text ls).toList := by
      rw [Lines.text_cons, String.toList_append, String.toList_append, List.append_assoc]
      rfl
    rw [hchars, Text.splitOn_append hline, List.map_cons, ih hls, String.ofList_toList]
    rfl

/-- A text is its lines, joined by line feeds. -/
theorem text_eq_intercalate (ls : Lines) : Lines.text ls = "\n".intercalate (ls ++ [""]) := by
  induction ls with
  | nil => rfl
  | cons line ls ih =>
    rw [Lines.text_cons, ih, List.cons_append, String.intercalate_cons_of_ne_nil (by simp)]

end FlatLayout
