import FlatLayout.Proofs.Directives
import FlatLayout.Proofs.Finished
import FlatLayout.Proofs.Termination

/-!
# What is selected

Selecting goes down a tree and puts another tree together. What it should do is said without a tree:
a member stays exactly if all branches that it stands in are chosen, wherever it stands, and nothing
else changes. So a unit is read as a list here. Every member that is no conditional block occurs in
the list once, in the order of the document, with the branches that it stands in and with the number
of structs around it. A struct occurs without its body, whose members occur behind it.

## Why the list is enough

A list in which containers come first and every entry knows its depth determines the tree: the body
of a struct is what follows it as long as the depth is greater. This holds for trees without blocks
only. A block has no entry of its own, so one with two empty branches leaves no trace.

Hence there is at most one unit without blocks that has given occurrences, and that agrees with
another unit outside of its structs. `select_eq_iff` says that selecting yields this one, and all
else follows from it: that selecting twice is selecting once, and that no more matters of the
definitions than which symbols of the unit are among them.

## Main definitions

* `Branch`, `Occurrence` — a branch of a block, and a member with the place where it stands
* `SourceUnit.occurrences` — all members of a unit that are no blocks, in document order
* `SourceUnit.symbols` — the symbols of its blocks
* `SourceUnit.hollow` — a unit without what stands in its structs

## Main results

* `eq_of_occurrences` — members without blocks are determined by their occurrences
* `select_eq_iff` — what selecting yields
* `Catalog.failsWith_block` — flattening reports a block only if there is one in the catalog
* `select_keeps_active` — all of this together
-/

namespace FlatLayout

/-! ### Where members stand -/

/-- A branch of a conditional block. -/
structure Branch where
  symbol : String
  /-- Whether the branch is there if the symbol is defined, or else if it is not. -/
  whenDefined : Bool

/-- Whether a branch is chosen. -/
def Branch.isActive (defines : List String) (b : Branch) : Bool :=
  defines.contains b.symbol == b.whenDefined

theorem Branch.isActive_defined (defines : List String) (symbol : String) :
    (⟨symbol, true⟩ : Branch).isActive defines = defines.contains symbol := by
  rw [isActive, beq_true]

theorem Branch.isActive_otherwise (defines : List String) (symbol : String) :
    (⟨symbol, false⟩ : Branch).isActive defines = !defines.contains symbol := by
  rw [isActive, beq_false]

/-- A member that is no conditional block, with the place where it stands. -/
structure Occurrence where
  /-- The member. A struct comes without its body. -/
  member : Member
  /-- The number of structs that it stands in. -/
  depth : Nat
  /-- The branches that it stands in, the innermost first. -/
  branches : List Branch

/-- Whether all branches around a member are chosen. -/
def Occurrence.isActive (defines : List String) (o : Occurrence) : Bool :=
  o.branches.all (·.isActive defines)

/-- The same member when there are no branches any more. -/
def Occurrence.unbranched (o : Occurrence) : Occurrence := { o with branches := [] }

/-- The struct without its body. -/
def StructDecl.hollow (s : StructDecl) : StructDecl := { s with members := [] }

mutual

/-- The members in a member that are no conditional blocks, the member itself included. -/
def Member.occurrences (depth : Nat) (branches : List Branch) : Member → List Occurrence
  | .struct s => ⟨.struct s.hollow, depth, branches⟩ ::
      StructDecl.occurrencesInside (depth + 1) branches s
  | .conditional symbol ms otherwise =>
    Member.occurrencesAll depth (⟨symbol, true⟩ :: branches) ms ++
      Member.occurrencesAll depth (⟨symbol, false⟩ :: branches) otherwise
  | m => [⟨m, depth, branches⟩]

/-- The members in the body of a struct that are no conditional blocks. -/
def StructDecl.occurrencesInside (depth : Nat) (branches : List Branch) :
    StructDecl → List Occurrence
  | ⟨_, _, _, _, members⟩ => Member.occurrencesAll depth branches members

/-- The members among some members, and in these, that are no conditional blocks. -/
def Member.occurrencesAll (depth : Nat) (branches : List Branch) : List Member → List Occurrence
  | [] => []
  | m :: ms => m.occurrences depth branches ++ Member.occurrencesAll depth branches ms

end

/-- The symbol of a member that is a conditional block. -/
def Member.symbol? : Member → Option String
  | .conditional symbol _ _ => some symbol
  | _ => none

/-- The item without what stands in it, if it is a struct. -/
def Item.hollow : Item → Item
  | .struct s => .struct s.hollow
  | i => i

namespace SourceUnit

/-- The structs of a unit and all members in there that are no conditional blocks, in the order of
the document. -/
def occurrences (u : SourceUnit) : List Occurrence :=
  Member.occurrencesAll 0 [] (u.structs.map .struct)

/-- The symbols of all conditional blocks of a unit, at all depths. -/
def symbols (u : SourceUnit) : List String := u.parts.filterMap Member.symbol?

/-- The unit without what stands in its structs. -/
def hollow (u : SourceUnit) : SourceUnit := { u with items := u.items.map Item.hollow }

end SourceUnit

/-! ### Members, case by case -/

/-- The member has no members in it. -/
inductive Member.IsLeaf : Member → Prop
  | field (f : FieldDecl) : IsLeaf (.field f)
  | accessor (a : AccessorDecl) : IsLeaf (.accessor a)
  | enum (e : EnumDecl) : IsLeaf (.enum e)
  | verbatim (text : String) : IsLeaf (.verbatim text)

mutual

/-- A property of members that goes from all members of a struct to the struct, and from all members
of both branches to a conditional block. -/
theorem Member.induction {P : Member → Prop} (leaf : ∀ m, m.IsLeaf → P m)
    (struct : ∀ s : StructDecl, (∀ m ∈ s.members, P m) → P (.struct s))
    (conditional : ∀ symbol ms otherwise, (∀ m ∈ ms, P m) → (∀ m ∈ otherwise, P m) →
      P (.conditional symbol ms otherwise)) : ∀ m, P m
  | .struct ⟨modifiers, name, markers, layout, members⟩ =>
    struct ⟨modifiers, name, markers, layout, members⟩
      (Member.inductionAll leaf struct conditional members)
  | .conditional symbol ms otherwise =>
    conditional symbol ms otherwise (Member.inductionAll leaf struct conditional ms)
      (Member.inductionAll leaf struct conditional otherwise)
  | .field f => leaf _ (.field f)
  | .accessor a => leaf _ (.accessor a)
  | .enum e => leaf _ (.enum e)
  | .verbatim text => leaf _ (.verbatim text)

/-- The same for all of some members. -/
theorem Member.inductionAll {P : Member → Prop} (leaf : ∀ m, m.IsLeaf → P m)
    (struct : ∀ s : StructDecl, (∀ m ∈ s.members, P m) → P (.struct s))
    (conditional : ∀ symbol ms otherwise, (∀ m ∈ ms, P m) → (∀ m ∈ otherwise, P m) →
      P (.conditional symbol ms otherwise)) : ∀ ms : List Member, ∀ m ∈ ms, P m
  | [] => nofun
  | m :: ms => List.forall_mem_cons.2 ⟨Member.induction leaf struct conditional m,
      Member.inductionAll leaf struct conditional ms⟩

end

section

variable {depth : Nat} {branches : List Branch} {defines : List String} {m : Member}
  {s : StructDecl} {ms : List Member}

theorem occurrencesAll_eq (depth : Nat) (branches : List Branch) (ms : List Member) :
    Member.occurrencesAll depth branches ms = ms.flatMap (Member.occurrences depth branches) := by
  induction ms with
  | nil => rw [Member.occurrencesAll, List.flatMap_nil]
  | cons m ms ih => rw [Member.occurrencesAll, List.flatMap_cons, ih]

theorem occurrences_struct :
    (Member.struct s).occurrences depth branches =
      ⟨.struct s.hollow, depth, branches⟩ ::
        Member.occurrencesAll (depth + 1) branches s.members := by
  obtain ⟨modifiers, name, markers, layout, members⟩ := s
  rw [Member.occurrences, StructDecl.occurrencesInside]

theorem selectAll_eq (defines : List String) (ms : List Member) :
    Member.selectAll defines ms = ms.flatMap (Member.select defines) := by
  induction ms with
  | nil => rw [Member.selectAll, List.flatMap_nil]
  | cons m ms ih => rw [Member.selectAll, List.flatMap_cons, ih]

theorem select_struct :
    s.select defines = { s with members := Member.selectAll defines s.members } := by
  obtain ⟨modifiers, name, markers, layout, members⟩ := s
  rw [StructDecl.select]

theorem parts_conditional {symbol : String} {otherwise : List Member} :
    (Member.conditional symbol ms otherwise).parts =
      .conditional symbol ms otherwise :: (Member.partsAll ms ++ Member.partsAll otherwise) := by
  rw [Member.parts]

theorem Member.mem_parts (m : Member) : m ∈ m.parts := by
  cases m <;> simp [parts]

namespace Member.IsLeaf

variable (h : m.IsLeaf)

include h

theorem occurrences_eq : m.occurrences depth branches = [⟨m, depth, branches⟩] := by
  cases h <;> rw [Member.occurrences] <;> nofun

theorem select_eq : m.select defines = [m] := by
  cases h <;> rw [Member.select] <;> nofun

end Member.IsLeaf

end

/-! ### What stays -/

/-- What stays of some occurrences: those with active branches only. No branch is left around
them. -/
def surviving (defines : List String) (os : List Occurrence) : List Occurrence :=
  (os.filter (·.isActive defines)).map Occurrence.unbranched

section

variable {defines : List String} {os os' : List Occurrence}

theorem surviving_append :
    surviving defines (os ++ os') = surviving defines os ++ surviving defines os' := by
  rw [surviving, List.filter_append, List.map_append, surviving, surviving]

theorem surviving_singleton (m : Member) (depth : Nat) (branches : List Branch) :
    surviving defines [⟨m, depth, branches⟩] =
      if branches.all (·.isActive defines) then [⟨m, depth, []⟩] else [] := by
  rw [surviving, List.filter_singleton]
  cases h : branches.all (·.isActive defines) <;>
    simp [Occurrence.isActive, h, Occurrence.unbranched]

/-- What stays of a member, wherever it stands, is what selecting makes of it, and nothing if a
branch around it is not chosen. -/
def Member.KeepsActive (defines : List String) (m : Member) : Prop :=
  ∀ depth branches, surviving defines (m.occurrences depth branches) =
    if branches.all (·.isActive defines) then
      Member.occurrencesAll depth [] (m.select defines)
    else []

theorem surviving_occurrencesAll {ms : List Member} (h : ∀ m ∈ ms, m.KeepsActive defines)
    (depth : Nat) (branches : List Branch) :
    surviving defines (Member.occurrencesAll depth branches ms) =
      if branches.all (·.isActive defines) then
        Member.occurrencesAll depth [] (Member.selectAll defines ms)
      else [] := by
  induction ms with
  | nil => simp [Member.occurrencesAll, Member.selectAll, surviving]
  | cons m ms ih =>
    obtain ⟨hm, hms⟩ := List.forall_mem_cons.1 h
    rw [Member.occurrencesAll, surviving_append, hm, ih hms, Member.selectAll, occurrencesAll_eq,
      occurrencesAll_eq, occurrencesAll_eq, List.flatMap_append]
    split <;> rfl

/-- **Exactly the members with active branches stay.** In a block one branch is active and the other
one is not, so what stays of the block is what stays of one of them. -/
theorem keepsActive (defines : List String) (m : Member) : m.KeepsActive defines := by
  induction m using Member.induction with
  | leaf m hm =>
    intro depth branches
    rw [hm.occurrences_eq, hm.select_eq, surviving_singleton, Member.occurrencesAll,
      hm.occurrences_eq]
    rfl
  | struct s ih =>
    intro depth branches
    rw [occurrences_struct, ← List.singleton_append, surviving_append, surviving_singleton,
      surviving_occurrencesAll ih, Member.select, Member.occurrencesAll, occurrences_struct,
      select_struct]
    split <;> simp [Member.occurrencesAll, StructDecl.hollow]
  | conditional symbol ms otherwise hms hotherwise =>
    intro depth branches
    rw [Member.occurrences, surviving_append, surviving_occurrencesAll hms,
      surviving_occurrencesAll hotherwise, Member.select, List.all_cons, List.all_cons]
    rw [Branch.isActive_defined, Branch.isActive_otherwise]
    cases defines.contains symbol <;> simp

end

/-! ### Reading the tree off the list -/

/-- The member without its body, if it is a struct. -/
def Member.hollow : Member → Member
  | .struct s => .struct s.hollow
  | m => m

/-- The members in the body of a member, if it is a struct. -/
def Member.inside : Member → List Member
  | .struct s => s.members
  | _ => []

/-- There are no conditional blocks among some members, at no depth. -/
def AllDefinite (ms : List Member) : Prop := ∀ p ∈ Member.partsAll ms, p.IsDefinite

section

variable {m m' : Member} {ms ms' : List Member}

theorem Member.IsLeaf.hollow_eq (h : m.IsLeaf) : m.hollow = m := by cases h <;> rfl

theorem Member.IsLeaf.inside_eq (h : m.IsLeaf) : m.inside = [] := by cases h <;> rfl

/-- The member with another body, if it is a struct. -/
def Member.refill (body : List Member) : Member → Member
  | .struct s => .struct { s with members := body }
  | m => m

theorem Member.refill_hollow (m : Member) : m.hollow.refill m.inside = m := by
  cases m with
  | struct s => cases s; rfl
  | _ => rfl

theorem Member.eq_of_hollow (hhollow : m.hollow = m'.hollow) (hinside : m.inside = m'.inside) :
    m = m' := by
  rw [← refill_hollow m, hhollow, hinside, refill_hollow]

/-- What is no block is a leaf or a struct. -/
theorem Member.IsDefinite.isLeaf_or_struct (h : m.IsDefinite) : m.IsLeaf ∨ ∃ s, m = .struct s := by
  cases m with
  | field f => exact .inl (.field f)
  | accessor a => exact .inl (.accessor a)
  | struct s => exact .inr ⟨s, rfl⟩
  | enum e => exact .inl (.enum e)
  | conditional symbol ms otherwise => exact absurd rfl (h symbol ms otherwise)
  | verbatim text => exact .inl (.verbatim text)

theorem AllDefinite.cons (h : AllDefinite (m :: ms)) :
    m.IsDefinite ∧ AllDefinite m.inside ∧ AllDefinite ms := by
  obtain ⟨hm, hms⟩ := forall_partsAll_cons.1 h
  have hself : m.IsDefinite := hm m m.mem_parts
  refine ⟨hself, ?_, hms⟩
  rcases hself.isLeaf_or_struct with hleaf | ⟨s, rfl⟩
  · rw [hleaf.inside_eq]
    exact nofun
  · exact (forall_parts_struct.1 hm).2

/-- A member that is no block occurs in front of what is in it. -/
theorem occurrences_of_definite (h : m.IsDefinite) (depth : Nat) (branches : List Branch) :
    m.occurrences depth branches =
      ⟨m.hollow, depth, branches⟩ :: Member.occurrencesAll (depth + 1) branches m.inside := by
  rcases h.isLeaf_or_struct with hleaf | ⟨s, rfl⟩
  · rw [hleaf.occurrences_eq, hleaf.hollow_eq, hleaf.inside_eq, Member.occurrencesAll]
  · exact occurrences_struct

/-- What is in a member is at least as deep as the member. -/
theorem le_depth (m : Member) : ∀ depth branches, ∀ o ∈ m.occurrences depth branches,
    depth ≤ o.depth := by
  induction m using Member.induction with
  | leaf m hm =>
    intro depth branches o ho
    rw [hm.occurrences_eq] at ho
    rw [List.mem_singleton.1 ho]
  | struct s ih =>
    intro depth branches o ho
    rw [occurrences_struct, occurrencesAll_eq] at ho
    rcases List.mem_cons.1 ho with rfl | ho
    · exact Nat.le_refl _
    · obtain ⟨m, hm, ho⟩ := List.mem_flatMap.1 ho
      exact Nat.le_of_succ_le (ih m hm _ _ o ho)
  | conditional symbol ms otherwise hms hotherwise =>
    intro depth branches o ho
    rw [Member.occurrences, occurrencesAll_eq, occurrencesAll_eq] at ho
    rcases List.mem_append.1 ho with ho | ho
    · obtain ⟨m, hm, ho⟩ := List.mem_flatMap.1 ho
      exact hms m hm _ _ o ho
    · obtain ⟨m, hm, ho⟩ := List.mem_flatMap.1 ho
      exact hotherwise m hm _ _ o ho

/-- **The body of a struct** is what follows it, as long as the depth is greater. -/
theorem takeWhile_deeper (depth : Nat) (branches : List Branch) (inside : List Member)
    (h : AllDefinite ms) :
    (Member.occurrencesAll (depth + 1) branches inside ++
        Member.occurrencesAll depth branches ms).takeWhile (fun o => decide (depth < o.depth)) =
      Member.occurrencesAll (depth + 1) branches inside := by
  have hdeeper : ∀ o ∈ Member.occurrencesAll (depth + 1) branches inside,
      decide (depth < o.depth) = true := by
    intro o ho
    rw [occurrencesAll_eq] at ho
    obtain ⟨m, -, ho⟩ := List.mem_flatMap.1 ho
    exact decide_eq_true (le_depth m _ _ o ho)
  rw [List.takeWhile_append_of_pos hdeeper]
  cases ms with
  | nil => simp [Member.occurrencesAll]
  | cons m ms =>
    rw [Member.occurrencesAll, occurrences_of_definite h.cons.1]
    simp

/-- The members in `m` are determined by their occurrences. -/
def Member.DeterminedInside (m : Member) : Prop :=
  ∀ depth branches ms', AllDefinite m.inside → AllDefinite ms' →
    Member.occurrencesAll depth branches m.inside = Member.occurrencesAll depth branches ms' →
    m.inside = ms'

theorem eq_of_occurrencesAll (hinside : ∀ m ∈ ms, m.DeterminedInside) {depth : Nat}
    {branches : List Branch} (h : AllDefinite ms) (h' : AllDefinite ms')
    (heq : Member.occurrencesAll depth branches ms = Member.occurrencesAll depth branches ms') :
    ms = ms' := by
  induction ms generalizing ms' with
  | nil =>
    cases ms' with
    | nil => rfl
    | cons m' ms' =>
      rw [Member.occurrencesAll, Member.occurrencesAll, occurrences_of_definite h'.cons.1] at heq
      cases heq
  | cons m ms ih =>
    obtain ⟨hm, hbody, hms⟩ := h.cons
    rw [Member.occurrencesAll, occurrences_of_definite hm] at heq
    cases ms' with
    | nil => cases heq
    | cons m' ms' =>
      obtain ⟨hm', hbody', hms'⟩ := h'.cons
      rw [Member.occurrencesAll, occurrences_of_definite hm', List.cons_append, List.cons_append,
        List.cons.injEq, Occurrence.mk.injEq] at heq
      obtain ⟨⟨hhollow, -⟩, htail⟩ := heq
      have hbodies := congrArg (List.takeWhile fun o => decide (depth < o.depth)) htail
      rw [takeWhile_deeper depth branches _ hms, takeWhile_deeper depth branches _ hms'] at hbodies
      have hrest := htail
      rw [hbodies] at hrest
      obtain ⟨hdetermined, hrests⟩ := List.forall_mem_cons.1 hinside
      rw [Member.eq_of_hollow hhollow (hdetermined _ _ _ hbody hbody' hbodies),
        ih hrests hms hms' (List.append_cancel_left hrest)]

theorem determinedInside (m : Member) : m.DeterminedInside := by
  induction m using Member.induction with
  | leaf m hm =>
    intro depth branches ms'
    rw [hm.inside_eq]
    exact eq_of_occurrencesAll (List.forall_mem_nil _)
  | struct s ih => exact fun depth branches ms' => eq_of_occurrencesAll ih
  | conditional symbol ms otherwise =>
    exact fun depth branches ms' => eq_of_occurrencesAll (List.forall_mem_nil _)

/-- **Members without blocks are determined by their occurrences.** -/
theorem eq_of_occurrences {depth : Nat} {branches : List Branch} (h : AllDefinite ms)
    (h' : AllDefinite ms')
    (heq : Member.occurrencesAll depth branches ms = Member.occurrencesAll depth branches ms') :
    ms = ms' :=
  eq_of_occurrencesAll (fun m _ => determinedInside m) h h' heq

end

/-! ### Units -/

theorem Item.eq_or_structs {i i' : Item} (h : i.hollow = i'.hollow) :
    (i = i' ∧ i.struct? = none) ∨ ∃ s s', i = .struct s ∧ i' = .struct s' := by
  cases i <;> cases i' <;> simp_all [hollow, struct?]

/-- Items are determined by what they are without their bodies, and by the structs among them. -/
theorem Item.eq_of_hollow {is is' : List Item} (hhollow : is.map hollow = is'.map hollow)
    (hstructs : is.filterMap struct? = is'.filterMap struct?) : is = is' := by
  induction is generalizing is' with
  | nil => exact (List.map_eq_nil_iff.1 hhollow.symm).symm
  | cons i is ih =>
    cases is' with
    | nil => cases hhollow
    | cons i' is' =>
      obtain ⟨hi, his⟩ := List.cons.inj hhollow
      rcases eq_or_structs hi with ⟨rfl, hnone⟩ | ⟨s, s', rfl, rfl⟩
      · rw [List.filterMap_cons_none hnone, List.filterMap_cons_none hnone] at hstructs
        rw [ih his hstructs]
      · obtain ⟨rfl, hrest⟩ := List.cons.inj hstructs
        rw [ih his hrest]

namespace SourceUnit

theorem parts_eq (u : SourceUnit) : u.parts = Member.partsAll (u.structs.map .struct) := by
  rw [parts, structs, partsAll_eq]
  induction u.items with
  | nil => rfl
  | cons i is ih =>
    rw [List.flatMap_cons, ih]
    cases i <;> rfl

variable (u : SourceUnit) (defines : List String)

theorem structs_select : (u.select defines).structs = u.structs.map (·.select defines) := by
  rw [structs, structs, select, List.filterMap_map, List.map_filterMap]
  refine List.filterMap_congr fun i _ => ?_
  cases i <;> rfl

/-- A unit is determined by what it is without its structs, and by these. -/
theorem eq_of_hollow {u v : SourceUnit} (hhollow : u.hollow = v.hollow)
    (hstructs : u.structs = v.structs) : u = v := by
  obtain ⟨name, namespaceName, imports, items⟩ := u
  obtain ⟨name', namespaceName', imports', items'⟩ := v
  obtain ⟨hname, hspace, himports, hitems⟩ := SourceUnit.mk.inj hhollow
  exact SourceUnit.mk.injEq .. ▸ ⟨hname, hspace, himports, Item.eq_of_hollow hitems hstructs⟩

theorem hollow_select : (u.select defines).hollow = u.hollow := by
  rw [hollow, hollow, select, List.map_map]
  congr 1
  refine List.map_congr_left fun i _ => ?_
  cases i with
  | struct s => simp [Item.select, Item.hollow, select_struct, StructDecl.hollow]
  | _ => rfl

theorem occurrences_select :
    (u.select defines).occurrences = surviving defines u.occurrences := by
  have hselect : Member.selectAll defines (u.structs.map .struct) =
      (u.structs.map (·.select defines)).map .struct := by
    rw [selectAll_eq, List.flatMap_map, List.map_map, List.map_eq_flatMap]
    exact List.flatMap_congr fun s _ => by rw [Member.select]; rfl
  rw [occurrences, occurrences, surviving_occurrencesAll fun m _ => keepsActive defines m, hselect,
    structs_select]
  rfl

end SourceUnit

/-- **What selecting yields** is the one unit without blocks that agrees with the old one outside of
its structs, and whose members are those with active branches only, in the same order. -/
theorem select_eq_iff {u v : SourceUnit} {defines : List String} :
    u.select defines = v ↔ (∀ p ∈ v.parts, p.IsDefinite) ∧ v.hollow = u.hollow ∧
      v.occurrences = surviving defines u.occurrences := by
  constructor
  · rintro rfl
    exact ⟨definite_unit u defines, u.hollow_select defines, u.occurrences_select defines⟩
  · rintro ⟨hdefinite, hhollow, hoccurrences⟩
    have hselect := definite_unit u defines
    rw [SourceUnit.parts_eq] at hselect hdefinite
    have hstructs := eq_of_occurrences hselect hdefinite
      ((u.occurrences_select defines).trans hoccurrences.symm)
    exact SourceUnit.eq_of_hollow ((u.hollow_select defines).trans hhollow.symm)
      (List.map_injective_iff.2 (fun _ _ => Member.struct.inj) hstructs)

/-! ### The symbols that matter -/

/-- A branch that a member stands in is one of a block that is in the tree as well. -/
theorem exists_block_of_branch (m : Member) : ∀ depth branches, ∀ o ∈ m.occurrences depth branches,
    ∀ b ∈ o.branches,
      b ∈ branches ∨ ∃ ms otherwise, .conditional b.symbol ms otherwise ∈ m.parts := by
  induction m using Member.induction with
  | leaf m hm =>
    intro depth branches o ho b hb
    rw [hm.occurrences_eq] at ho
    rw [List.mem_singleton.1 ho] at hb
    exact .inl hb
  | struct s ih =>
    intro depth branches o ho b hb
    rw [occurrences_struct, occurrencesAll_eq] at ho
    rcases List.mem_cons.1 ho with rfl | ho
    · exact .inl hb
    · obtain ⟨m, hm, ho⟩ := List.mem_flatMap.1 ho
      refine (ih m hm _ _ o ho b hb).imp_right fun ⟨ms, otherwise, hblock⟩ => ?_
      rw [parts_struct, partsAll_eq]
      exact ⟨ms, otherwise, List.mem_cons_of_mem _ (List.mem_flatMap.2 ⟨m, hm, hblock⟩)⟩
  | conditional symbol ms otherwise hms hotherwise =>
    intro depth branches o ho b hb
    have hin : ∃ m ∈ ms ++ otherwise, ∃ whenDefined,
        o ∈ m.occurrences depth (⟨symbol, whenDefined⟩ :: branches) := by
      rw [Member.occurrences, occurrencesAll_eq, occurrencesAll_eq] at ho
      rcases List.mem_append.1 ho with ho | ho
      · obtain ⟨m, hm, ho⟩ := List.mem_flatMap.1 ho
        exact ⟨m, List.mem_append_left _ hm, true, ho⟩
      · obtain ⟨m, hm, ho⟩ := List.mem_flatMap.1 ho
        exact ⟨m, List.mem_append_right _ hm, false, ho⟩
    obtain ⟨m, hm, whenDefined, ho⟩ := hin
    rw [parts_conditional, partsAll_eq, partsAll_eq, ← List.flatMap_append]
    rcases List.forall_mem_append.2 ⟨hms, hotherwise⟩ m hm _ _ o ho b hb with hb | hblock
    · rcases List.mem_cons.1 hb with rfl | hb
      · exact .inr ⟨ms, otherwise, List.mem_cons_self⟩
      · exact .inl hb
    · obtain ⟨ms', otherwise', hblock⟩ := hblock
      have hmem := List.mem_flatMap.2 ⟨m, hm, hblock⟩
      exact .inr ⟨ms', otherwise', List.mem_cons_of_mem _ hmem⟩

theorem SourceUnit.symbol_mem_symbols {u : SourceUnit} {o : Occurrence} (ho : o ∈ u.occurrences)
    {b : Branch} (hb : b ∈ o.branches) : b.symbol ∈ u.symbols := by
  rw [occurrences, occurrencesAll_eq] at ho
  obtain ⟨m, hm, ho⟩ := List.mem_flatMap.1 ho
  rcases exists_block_of_branch m _ _ o ho b hb with hb | ⟨ms, otherwise, hblock⟩
  · cases hb
  · rw [symbols, parts_eq, partsAll_eq]
    exact List.mem_filterMap.2 ⟨_, List.mem_flatMap.2 ⟨m, hm, hblock⟩, rfl⟩

section

variable (u : SourceUnit) (defines others : List String)

/-- Behind a selection there are no branches that could be chosen. -/
theorem surviving_surviving (os : List Occurrence) :
    surviving others (surviving defines os) = surviving defines os := by
  have hall : ∀ o ∈ surviving defines os, o.isActive others = true := by
    intro o ho
    obtain ⟨o, -, rfl⟩ := List.mem_map.1 ho
    rfl
  rw [surviving, List.filter_eq_self.2 hall, surviving, List.map_map]
  rfl

theorem select_select : (u.select defines).select others = u.select defines := by
  refine select_eq_iff.2 ⟨definite_unit u defines, rfl, ?_⟩
  rw [SourceUnit.occurrences_select, surviving_surviving]

variable {u defines others}

theorem select_congr (h : ∀ symbol ∈ u.symbols, symbol ∈ defines ↔ symbol ∈ others) :
    u.select defines = u.select others := by
  refine select_eq_iff.2 ⟨definite_unit u others, u.hollow_select others, ?_⟩
  rw [SourceUnit.occurrences_select, surviving, surviving]
  congr 1
  refine List.filter_congr fun o ho => ?_
  rw [Bool.eq_iff_iff, Occurrence.isActive, Occurrence.isActive, List.all_eq_true, List.all_eq_true]
  refine forall₂_congr fun b hb => ?_
  have hcontains : defines.contains b.symbol = others.contains b.symbol := by
    rw [Bool.eq_iff_iff, List.contains_iff_mem, List.contains_iff_mem]
    exact h _ (SourceUnit.symbol_mem_symbols ho hb)
  rw [Branch.isActive, Branch.isActive, hcontains]

end

/-! ### Blocks that are left -/

/-- A block for a symbol stands among the members of a struct. -/
def Catalog.HasBlock (c : Catalog) (symbol : String) : Prop :=
  ∃ k s ms otherwise, c.struct? k = some s ∧ Member.conditional symbol ms otherwise ∈ s.members

/-- **Flattening reports a block only if there is one** in a struct of the catalog. -/
theorem Catalog.failsWith_block {c : Catalog} {o : Options} {n : Nat} {pending : List QualName}
    {key : QualName} :
    FailsWith (fun e => ∀ symbol struct, e = .conditionalBlock symbol struct → c.HasBlock symbol)
      (c.flattenUnder o n pending key) := by
  have hlocal : ∀ e : LayoutError, e.isBlock = false →
      ∀ symbol struct, e = .conditionalBlock symbol struct → c.HasBlock symbol := by
    rintro e he symbol struct rfl
    cases he
  induction n generalizing pending key with
  | zero => exact .error (hlocal _ rfl)
  | succ n ih =>
    rw [flattenUnder]
    split
    · exact .error (hlocal _ rfl)
    · refine .bind (failsWith_declaration (fun e _ _ => hlocal e) c key) fun s hs => .map _ ?_
      refine failsWith_layoutFrom (fun e _ => hlocal e) (fun _ _ _ _ _ => ih) ?_
      rintro symbol name hslot symbol' struct heq
      obtain ⟨rfl, -⟩ := LayoutError.conditionalBlock.inj heq
      rcases exists_member_of_slot hslot with ⟨g, f, i, -, -, h, -⟩ | ⟨g, -, -, h, -⟩ | h
      · cases h
      · cases h
      · obtain ⟨symbol', ms, otherwise, hmem, h⟩ := h
        cases h
        exact ⟨key, s, ms, otherwise, declaration_eq_ok hs, hmem⟩

theorem Catalog.IsDefinite.not_hasBlock {c : Catalog} (h : c.IsDefinite) (symbol : String) :
    ¬ c.HasBlock symbol := by
  rintro ⟨k, s, ms, otherwise, hs, hmem⟩
  refine h k s hs (.conditional symbol ms otherwise) ?_ symbol ms otherwise rfl
  rw [partsAll_eq]
  exact List.mem_flatMap.2 ⟨_, hmem, Member.mem_parts _⟩

/-- **Selecting keeps what is active.** There are no conditional blocks behind it, at no depth. If
all units of a catalog were selected, each under definitions of its own, then no struct is refused
for a block that is left, whatever was asked of the workbench before. Selecting once more, under
any definitions, changes nothing. Only the symbols of the unit matter. The members that stay are
those that stand in active branches only, each at the depth and in the order in which it stood; and
all that does not stand in a struct is as it was. -/
theorem select_keeps_active (u : SourceUnit) (defines others : List String) :
    (∀ p ∈ (u.select defines).parts, p.IsDefinite) ∧
    (∀ (us : List (SourceUnit × List String)) (o : Options) (calls : List Call) (key : QualName)
      (symbol struct : String),
      outcome (Bench.flatten (.ofUnits (us.map fun v => v.1.select v.2)) o key)
          (Workbench.afterCalls (.ofUnits (us.map fun v => v.1.select v.2)) o calls) ≠
        .error (.conditionalBlock symbol struct)) ∧
    (u.select defines).select others = u.select defines ∧
    ((∀ symbol ∈ u.symbols, symbol ∈ defines ↔ symbol ∈ others) →
      u.select defines = u.select others) ∧
    (u.select defines).occurrences =
      (u.occurrences.filter (·.isActive defines)).map Occurrence.unbranched ∧
    (u.select defines).hollow = u.hollow := by
  refine ⟨definite_unit u defines, fun us o calls key symbol struct herror => ?_,
    select_select u defines others, select_congr, u.occurrences_select defines,
    u.hollow_select defines⟩
  have hdefinite : (Catalog.ofUnits (us.map fun v => v.1.select v.2)).IsDefinite := by
    refine Catalog.definite_ofUnits fun w hw => ?_
    obtain ⟨v, -, rfl⟩ := List.mem_map.1 hw
    exact definite_unit v.1 v.2
  rw [outcome_flatten_eq_answer] at herror
  exact hdefinite.not_hasBlock symbol (Catalog.failsWith_block _ herror symbol struct rfl)

/-- Of three symbols only one occurs in the unit, and it is defined in both cases; so the same is
selected. The field `d` is no block, and neither is what else is left: a field that stands in two
structs and one that stands in one. -/
theorem select_keeps_active_branching :
    (∀ symbol ∈ branchingUnit.symbols, symbol ∈ ["TRACED", "X64"] ↔ symbol ∈ ["X86", "TRACED"]) ∧
    branchingUnit.select ["TRACED", "X64"] = branchingUnit.select ["X86", "TRACED"] ∧
    (Member.field (.ofNames (.named "int") ["d"])).IsDefinite ∧
    (Catalog.ofUnits [branchingUnit.select ["TRACED"]]).flatten (.ofPointerWidth 8) ⟨"Outer"⟩ ≠
      .error (.conditionalBlock "WIDE" "Outer") ∧
    (branchingUnit.select ["TRACED", "X64"]).occurrences.filterMap
      (fun o => o.member.field?.map fun f => (f.name, o.depth)) = [("b", 2), ("d", 1)] := by
  obtain ⟨hdefinite, hreport, -, hcongr, -, -⟩ :=
    select_keeps_active branchingUnit ["TRACED", "X64"] ["X86", "TRACED"]
  have hsymbols : ∀ symbol ∈ branchingUnit.symbols,
      symbol ∈ ["TRACED", "X64"] ↔ symbol ∈ ["X86", "TRACED"] := by decide +kernel
  refine ⟨hsymbols, hcongr hsymbols, hdefinite _ (List.mem_of_getElem? (i := 3) ?_),
    hreport [(branchingUnit, ["TRACED"])] _ [] _ _ _, by decide +kernel⟩
  rfl

end FlatLayout
