import FlatLayout.Proofs.Rounding
import FlatLayout.Proofs.TypeTree
import Mathlib.Tactic.IntervalCases

/-!
# The layout in exact arithmetic

A struct is laid out on words, and an offset or a size that is no word is refused. Here the same
layout is computed on natural numbers, from the tree of the struct and the rules of the structs in
there, and nothing is ever refused. What a struct comes to is one number for its size and one for
its alignment, its `Extent`, and a container is laid out from the extents of its fields alone.

## Why one struct at a time is enough

A struct is laid out from what its fields take, whether they are scalars, buffers or structs that
are flat already. So everything is said about a list of `Piece`s first. Then the step at a placement
is compared with one piece: a step that was taken put its field where exact arithmetic does. The
tree only comes in at the end, when a contained struct is replaced by its extent.

## Main definitions

* `Extent`, `Piece` — what a type takes, and a field that is to be placed
* `LayoutRule.placed`, `LayoutRule.extent` — where a rule puts its fields, and what it all takes
* `TypeTree.extent` — what a type takes, computed from its tree

## Main results

* `Placement.align_eq_ok_iff` — aligning an offset is rounding it up to the boundary of the rule
* `SpotRun.exact` — the fields of a struct stand where exact arithmetic puts them
* `extent_of_answer` — a flat struct has the extent of its type
-/

namespace FlatLayout

/-! ### One struct -/

/-- The bytes that something takes, and the alignment that it asks for. -/
structure Extent where
  size : Nat
  alignment : Nat
  deriving DecidableEq

/-- A field that is to be placed: the offset that its author wrote, zero if there is none, and what
it takes. -/
structure Piece where
  written : Nat
  extent : Extent
  deriving DecidableEq

namespace LayoutRule

section

variable (rule : LayoutRule) (isUnion : Bool)

/-- The boundary that is enforced for a natural alignment: no more than the pack, and no less than
one byte. -/
def boundary (natural : Nat) : Nat := max 1 (min rule.pack.toNat natural)

theorem boundary_pos (natural : Nat) : 0 < rule.boundary natural := Nat.le_max_left 1 _

/-- Where a field is put if the fields before it end at `stop`. -/
def position (stop : Nat) (g : Piece) : Nat :=
  roundUp (if isUnion then 0 else if rule.isExplicit then g.written else stop)
    (rule.boundary g.extent.alignment)

/-- The end of all fields behind this one. -/
def stopBehind (stop : Nat) (g : Piece) : Nat :=
  if isUnion || rule.isExplicit then max stop (rule.position isUnion stop g + g.extent.size)
  else rule.position isUnion stop g + g.extent.size

/-- Some fields, each with the offset where it is put. -/
def placed : Nat → List Piece → List (Nat × Piece)
  | _, [] => []
  | stop, g :: gs => (rule.position isUnion stop g, g) :: placed (rule.stopBehind isUnion stop g) gs

/-- The end of some fields. -/
def stop (start : Nat) (gs : List Piece) : Nat := gs.foldl (rule.stopBehind isUnion) start

/-- The end of some fields, rounded up to their alignment. -/
def padded (gs : List Piece) (largest : Nat) : Nat :=
  roundUp (rule.stop isUnion 0 gs) (rule.boundary largest)

end

/-- The greatest alignment that some fields ask for. -/
def largest (start : Nat) (gs : List Piece) : Nat :=
  gs.foldl (fun n g => max n g.extent.alignment) start

/-- What a struct with some fields takes. -/
def extent (rule : LayoutRule) (isUnion pad : Bool) (gs : List Piece) : Extent where
  size := max (if pad then rule.padded isUnion gs (largest 0 gs) else rule.stop isUnion 0 gs)
    rule.size.toNat
  alignment := largest 0 gs

/-- The pack that is asked for, whether it may be asked for or not. -/
def writtenPack : Option UInt32 → UInt32
  | none => defaultPack
  | some n => if n = 0 then defaultPack else n

/-- The rule that an attribute asks for, whether its pack may be asked for or not. -/
def written : Option LayoutAttr → LayoutRule
  | none => default
  | some a => ⟨a.kind, writtenPack a.pack, a.size.getD 0⟩

/-- The packs that may be asked for are none at all, zero, and the powers of two up to 128. -/
def AllowsPack (asked : Option UInt32) : Prop :=
  ∀ n, asked = some n → n = 0 ∨ n.toNat.isPowerOfTwo ∧ n.toNat ≤ 128

theorem mem_packs_iff {n : UInt32} : n ∈ packs ↔ n.toNat.isPowerOfTwo ∧ n.toNat ≤ 128 := by
  constructor
  · intro h
    simp only [packs, List.mem_cons, List.not_mem_nil, or_false] at h
    rcases h with rfl | rfl | rfl | rfl | rfl | rfl | rfl | rfl
    exacts [⟨⟨0, rfl⟩, by decide⟩, ⟨⟨1, rfl⟩, by decide⟩, ⟨⟨2, rfl⟩, by decide⟩,
      ⟨⟨3, rfl⟩, by decide⟩, ⟨⟨4, rfl⟩, by decide⟩, ⟨⟨5, rfl⟩, by decide⟩, ⟨⟨6, rfl⟩, by decide⟩,
      ⟨⟨7, rfl⟩, by decide⟩]
  · rintro ⟨⟨k, hk⟩, hle⟩
    have hlt : k < 8 := (Nat.pow_lt_pow_iff_right (by decide : 1 < 2)).1 (by omega)
    have hn : n = UInt32.ofNat (2 ^ k) := by rw [← hk, UInt32.ofNat_toNat]
    subst hn
    interval_cases k <;> decide

theorem packOf_eq_ok_iff {struct : String} {asked : Option UInt32} {pack : UInt32} :
    packOf struct asked = .ok pack ↔ AllowsPack asked ∧ pack = writtenPack asked := by
  cases asked with
  | none => simp [packOf, writtenPack, AllowsPack, eq_comm]
  | some n =>
    simp only [packOf, writtenPack, AllowsPack, Option.some.injEq, forall_eq', ← mem_packs_iff,
      List.contains_iff_mem]
    by_cases hzero : n = 0
    · simp [hzero, eq_comm]
    · by_cases hpack : n ∈ packs
      · simp [hzero, hpack, eq_comm]
      · simp [hzero, hpack]

/-- **A struct has a rule** if its pack may be asked for, and it is the one that is written. -/
theorem ofAttr_eq_ok_iff {struct : String} {a : Option LayoutAttr} {rule : LayoutRule} :
    ofAttr struct a = .ok rule ↔ AllowsPack (a.bind (·.pack)) ∧ rule = written a := by
  cases a with
  | none => simp [ofAttr, AllowsPack, written, eq_comm]
  | some a =>
    constructor
    · intro h
      obtain ⟨pack, hpack, h⟩ := bind_eq_ok h
      obtain ⟨hallowed, rfl⟩ := packOf_eq_ok_iff.1 hpack
      exact ⟨hallowed, (Except.ok.inj h).symm⟩
    · rintro ⟨hallowed, rfl⟩
      have hpack : packOf struct a.pack = .ok (writtenPack a.pack) :=
        packOf_eq_ok_iff.2 ⟨hallowed, rfl⟩
      rw [ofAttr, hpack]
      rfl

end LayoutRule

/-- The rule of a struct of the catalog. -/
def Catalog.ruleOf (c : Catalog) (key : QualName) : LayoutRule :=
  .written ((c.struct? key).bind (·.layout))

/-! ### One step -/

/-- A field that is made of something, as exact arithmetic sees it. -/
def FieldDecl.piece (f : FieldDecl) (element : Element) : Piece where
  written := (f.offset.getD 0).toNat
  extent :=
    ⟨match f.fixedCount with
      | none => element.size.toNat
      | some n => element.size.toNat * n.toNat, element.alignment.toNat⟩

/-- The field of a spot, as exact arithmetic sees it. -/
def Spot.piece (t : Spot) : Piece :=
  ⟨(t.decl.offset.getD 0).toNat, t.size.toNat, t.element.alignment.toNat⟩

/-- **Aligning is rounding up to the boundary of the rule**, if the result is a word. -/
theorem Placement.align_eq_ok_iff {p : Placement} {natural base offset : UInt32} :
    p.align natural base = .ok offset ↔
      offset.toNat = roundUp base.toNat (p.rule.boundary natural.toNat) := by
  rw [LayoutRule.boundary, ← Alignment.toNat_effective, ← Alignment.align_eq_some_iff,
    Placement.align]
  cases (Alignment.effective p.rule.pack natural).align base with
  | none => simp
  | some r => simp

section

variable {c : Catalog} {o : Options} {child : QualName → Except LayoutError FlatStruct}
  {key : QualName} {p q : Placement} {t : Spot} {ts : List Spot}

theorem Placement.toNat_of_baseOffset {f : FieldDecl} {base : UInt32}
    (h : p.baseOffset f = .ok base) :
    base.toNat = if p.isUnion then 0
      else if p.rule.isExplicit then (f.offset.getD 0).toNat else p.size.toNat := by
  unfold Placement.baseOffset at h
  split at h
  next hunion => rw [if_pos hunion, ← Except.ok.inj h]; rfl
  next hunion =>
    rw [if_neg hunion]
    split at h
    next hexplicit =>
      rw [if_pos hexplicit]
      split at h
      next n hn => rw [← Except.ok.inj h, hn]; rfl
      · cases h
    next hexplicit => rw [if_neg hexplicit, ← Except.ok.inj h]

/-- **A field stands where exact arithmetic puts it**, and so does the end behind it. -/
theorem SpotStep.exact (h : SpotStep c o child key p t q) :
    t.offset.toNat = p.rule.position p.isUnion p.size.toNat t.piece ∧
      q.size.toNat = p.rule.stopBehind p.isUnion p.size.toNat t.piece := by
  obtain ⟨base, hbase, halign⟩ := h.aligned
  have hoffset : t.offset.toNat = p.rule.position p.isUnion p.size.toNat t.piece := by
    rw [Placement.align_eq_ok_iff.1 halign, Placement.toNat_of_baseOffset hbase]
    rfl
  refine ⟨hoffset, ?_⟩
  rw [h.toNat_size, hoffset]
  rfl

/-- **The fields of a struct stand where exact arithmetic puts them**, by induction on the run. -/
theorem SpotRun.exact (h : SpotRun c o child key p ts q) :
    (ts.map fun t => (t.offset.toNat, t.piece)) =
        p.rule.placed p.isUnion p.size.toNat (ts.map Spot.piece) ∧
      q.size.toNat = p.rule.stop p.isUnion p.size.toNat (ts.map Spot.piece) ∧
      q.largest.toNat = LayoutRule.largest p.largest.toNat (ts.map Spot.piece) := by
  induction h with
  | nil p => exact ⟨rfl, rfl, rfl⟩
  | @cons p q r t ts first rest ih =>
    obtain ⟨hoffset, hstop⟩ := first.exact
    obtain ⟨hplaced, hend, hlargest⟩ := ih
    rw [first.rule_eq, first.isUnion_eq, hstop] at hplaced hend
    rw [first.toNat_largest] at hlargest
    refine ⟨?_, hend, hlargest⟩
    rw [List.map_cons, List.map_cons, LayoutRule.placed, hplaced, hoffset]

/-- The size of a struct is its end, padded if that is asked for, or the size that is written. -/
theorem Placement.exact_of_finish {pad : Bool} {footprint : Footprint}
    (h : p.finish pad = .ok footprint) :
    footprint.size.toNat = max
        (if pad then roundUp p.size.toNat (p.rule.boundary p.largest.toNat) else p.size.toNat)
        p.rule.size.toNat ∧
      footprint.alignment = p.largest := by
  obtain ⟨size, hsize, hfootprint⟩ : ∃ size : UInt32, size.toNat =
      (if pad then roundUp p.size.toNat (p.rule.boundary p.largest.toNat) else p.size.toNat) ∧
      footprint = ⟨if size ≤ p.rule.size then p.rule.size else size, p.largest⟩ := by
    cases pad with
    | true =>
      obtain ⟨size, hsize, h⟩ := bind_eq_ok h
      exact ⟨size, Placement.align_eq_ok_iff.1 hsize, (Except.ok.inj h).symm⟩
    | false => exact ⟨p.size, rfl, (Except.ok.inj h).symm⟩
  rw [hfootprint, ← hsize]
  exact ⟨Word.toNat_greater, rfl⟩

/-- A footprint, as exact arithmetic sees it. -/
def Footprint.extent (f : Footprint) : Extent := ⟨f.size.toNat, f.alignment.toNat⟩

theorem Footprint.extent_injective : Function.Injective Footprint.extent := by
  rintro ⟨size, alignment⟩ ⟨size', alignment'⟩ h
  obtain ⟨hsize, halignment⟩ := Extent.mk.inj h
  have hsize : size = size' := UInt32.toNat_inj.1 hsize
  have halignment : alignment = alignment' := UInt32.toNat_inj.1 halignment
  rw [hsize, halignment]

/-- **A struct takes what exact arithmetic says.** -/
theorem Laid.exact {s : StructDecl} {rule : LayoutRule} {f : FlatStruct}
    (laid : Laid c o child key s rule ts p f) :
    (ts.map fun t => (t.offset.toNat, t.piece)) =
        rule.placed s.markers.union 0 (ts.map Spot.piece) ∧
      f.footprint.extent = rule.extent s.markers.union o.padTrailing (ts.map Spot.piece) := by
  obtain ⟨hplaced, hstop, hlargest⟩ := laid.run.exact
  obtain ⟨hsize, halignment⟩ := Placement.exact_of_finish laid.finished
  refine ⟨hplaced, ?_⟩
  rw [laid.run.rule_eq, hstop, hlargest] at hsize
  rw [Footprint.extent, hsize, halignment, hlargest]
  rfl

end

/-! ### The extent of a type -/

section

variable (rules : QualName → LayoutRule) (pad : Bool)

mutual

/-- What a type takes, where `rules` says how the structs in there are laid out. -/
def TypeTree.extent : TypeTree → Extent
  | .scalar size => ⟨size.toNat, size.toNat⟩
  | .buffer element count _ => ⟨element.toNat * count.toNat, element.toNat⟩
  | .record key markers fields =>
    (rules key).extent markers.union pad (TreeField.pieces fields)

/-- A field, as exact arithmetic sees it. -/
def TreeField.piece : TreeField → Piece
  | ⟨decl, type⟩ => ⟨(decl.offset.getD 0).toNat, type.extent⟩

/-- Some fields, as exact arithmetic sees them. -/
def TreeField.pieces : List TreeField → List Piece
  | [] => []
  | g :: gs => g.piece :: TreeField.pieces gs

end

theorem TreeField.pieces_eq_map (gs : List TreeField) :
    TreeField.pieces rules pad gs = gs.map (TreeField.piece rules pad) := by
  induction gs with
  | nil => rw [TreeField.pieces]; rfl
  | cons g gs ih => rw [TreeField.pieces, ih, List.map_cons]

end

section

variable {c : Catalog} {o : Options} {child : QualName → Except LayoutError FlatStruct}
  {key : QualName} {p q : Placement} {t : Spot} {ts : List Spot} {rules : QualName → LayoutRule}

theorem Spot.Filled.piece_eq {role : Role} (h : t.Filled o role) :
    t.piece = t.decl.piece t.element := by
  cases h with
  | scalar hcount helement _ => simp only [Spot.piece, FieldDecl.piece, hcount, helement]; rfl
  | native n size hcount helement _ hsized _ =>
    simp only [Spot.piece, FieldDecl.piece, hcount, helement, hsized]; rfl
  | started n size hcount helement _ hsized _ =>
    simp only [Spot.piece, FieldDecl.piece, hcount, helement, hsized]; rfl
  | nested flat hcount helement hsize _ =>
    simp only [Spot.piece, FieldDecl.piece, hcount, helement, hsize]; rfl

/-- A field of a tree takes what its elements do, if the contained structs have their extents. -/
theorem piece_of_made {trees : QualName → Option TypeTree} {pad : Bool} {f : FieldDecl}
    {type : Binding} {element : Element} {tree : TypeTree}
    (htree : fieldTree o.pointerWidth trees f type = some tree)
    (hmade : elementFrom o child type = .ok element)
    (hchild : ∀ d flat tree, type = .struct d → child d = .ok flat → trees d = some tree →
      flat.footprint.extent = tree.extent rules pad) :
    TreeField.piece rules pad ⟨f, tree⟩ = f.piece element := by
  have hscalar : ∀ size, type.scalarSize? o.pointerWidth = some size → element = .scalar size :=
    fun size hsize => Except.ok.inj (hmade.symm.trans (made_of_scalarSize? hsize))
  rw [TreeField.piece, FieldDecl.piece]
  cases hcount : f.fixedCount with
  | some n =>
    simp only [fieldTree, hcount, Option.map_eq_some_iff] at htree
    obtain ⟨size, hsize, rfl⟩ := htree
    rw [hscalar size hsize, TypeTree.extent]
    rfl
  | none =>
    cases htype : type.scalarSize? o.pointerWidth with
    | some size =>
      obtain rfl := hscalar size htype
      obtain rfl := Option.some.inj ((fieldTree_scalar hcount hmade).symm.trans htree)
      rw [TypeTree.extent]
      rfl
    | none =>
      cases type with
      | struct d =>
        obtain ⟨flat, hflat, rfl⟩ := made_struct hmade rfl
        rw [fieldTree_struct hcount] at htree
        rw [← hchild d flat tree rfl hflat htree]
        rfl
      | managed name => cases hmade
      | pointer t => cases htype
      | primitive p => cases htype
      | enum k p => cases htype

/-- A field of a tree is seen as its spot is, if the contained structs are. -/
theorem SpotStep.piece_eq (h : SpotStep c o child key p t q) {pad : Bool}
    {trees : QualName → Option TypeTree} {g : TreeField}
    (hmatch : g.Matches o.pointerWidth trees t)
    (hchild : ∀ d flat tree, t.type = .struct d → child d = .ok flat → trees d = some tree →
      flat.footprint.extent = tree.extent rules pad) : g.piece rules pad = t.piece := by
  obtain ⟨decl, type⟩ := g
  obtain ⟨rfl, htype⟩ := hmatch
  rw [piece_of_made htype h.made hchild, h.filled.piece_eq]

theorem SpotRun.pieces_eq (hrun : SpotRun c o child key p ts q) {pad : Bool}
    {trees : QualName → Option TypeTree} {fields : List TreeField}
    (hmatches : List.Forall₂ (TreeField.Matches o.pointerWidth trees) fields ts)
    (hchild : ∀ t ∈ ts, ∀ d flat tree, t.type = .struct d → child d = .ok flat →
      trees d = some tree → flat.footprint.extent = tree.extent rules pad) :
    TreeField.pieces rules pad fields = ts.map Spot.piece := by
  induction hrun generalizing fields with
  | nil p =>
    cases hmatches
    rw [TreeField.pieces]
    rfl
  | cons first rest ih =>
    cases hmatches with
    | cons hg hgs =>
      have hrest := ih hgs fun t ht => hchild t (List.mem_cons_of_mem _ ht)
      rw [TreeField.pieces, List.map_cons, hrest]
      rw [first.piece_eq hg (hchild _ List.mem_cons_self)]

theorem Laid.pieces_eq {s : StructDecl} {rule : LayoutRule} {f : FlatStruct} {pad : Bool}
    (laid : Laid c o child key s rule ts p f) (hs : c.struct? key = some s)
    {trees : QualName → Option TypeTree} {fields : List TreeField}
    (hfields : s.slots.mapM (slotTree c o.pointerWidth trees key) = some fields)
    (hchild : ∀ d flat tree, c.Contains key d → child d = .ok flat → trees d = some tree →
      flat.footprint.extent = tree.extent rules pad) :
    TreeField.pieces rules pad fields = ts.map Spot.piece := by
  refine laid.run.pieces_eq (laid.matches_of_mapM hfields) fun t ht d flat tree htype => ?_
  exact hchild d flat tree ((laid.contains_iff hs).2 ⟨t, ht, htype⟩)

theorem Laid.rule_eq {s : StructDecl} {rule : LayoutRule} {f : FlatStruct}
    (laid : Laid c o child key s rule ts p f) (hs : c.struct? key = some s) :
    rule = c.ruleOf key := by
  rw [Catalog.ruleOf, hs]
  exact (LayoutRule.ofAttr_eq_ok_iff.1 laid.ruled).2

/-- **A flat struct has the extent of its type.** -/
theorem extent_of_answer {f : FlatStruct} (h : c.answer o key = .ok f) {n : Nat} {tree : TypeTree}
    (htree : c.typeTreeWithin o.pointerWidth n key = some tree) :
    f.footprint.extent = tree.extent c.ruleOf o.padTrailing := by
  refine Catalog.answer_induction (motive := fun _ key f => ∀ n tree,
    c.typeTreeWithin o.pointerWidth n key = some tree →
      f.footprint.extent = tree.extent c.ruleOf o.padTrailing) ?_ h n tree htree
  intro _ key s rule ts p f hs laid ih n tree htree
  obtain ⟨m, s', fields, rfl, hs', hfields, rfl⟩ := typeTreeWithin_eq_some htree
  obtain rfl := Option.some.inj (hs.symm.trans hs')
  have hpieces := laid.pieces_eq hs hfields fun d flat tree hd hflat htree =>
    ih d flat hd hflat m tree htree
  rw [laid.exact.2, TypeTree.extent, hpieces, laid.rule_eq hs]

/-- Its fields stand where the pieces of the tree are put. -/
theorem Laid.placed_eq {s : StructDecl} {rule : LayoutRule} {f : FlatStruct}
    (laid : Laid c o (c.answer o) key s rule ts p f) (hs : c.struct? key = some s) {n : Nat}
    {fields : List TreeField}
    (hfields : s.slots.mapM
      (slotTree c o.pointerWidth (c.typeTreeWithin o.pointerWidth n) key) = some fields) :
    (ts.map fun t => (t.offset.toNat, t.piece)) =
      (c.ruleOf key).placed s.markers.union 0 (TreeField.pieces c.ruleOf o.padTrailing fields) := by
  have hpieces := laid.pieces_eq hs hfields fun d flat tree _ hflat htree =>
    extent_of_answer hflat htree
  rw [laid.exact.1, hpieces, laid.rule_eq hs]

end

end FlatLayout
