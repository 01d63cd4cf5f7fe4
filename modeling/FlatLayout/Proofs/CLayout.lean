import FlatLayout.Proofs.Composition
import FlatLayout.Proofs.Rounding

/-!
# Agreement with the layout of C

The layout that C gives a struct type is a function of the type alone. It is defined here on the
tree of the type, without flattening anything: a scalar is aligned to its size and a buffer to its
elements, a struct to the greatest alignment of its fields; the fields of a struct follow each
other, each at the next multiple of its alignment, and those of a union all stand at its front; the
size is rounded up to the alignment.

Where no layout attribute asks for anything else, the flat struct has the size and the alignment of
the type, and its fields stand where the leaves of the type do.

## Why words suffice

No size and no alignment of C is a word by itself; a struct that is too large is refused when it is
flattened. The other bound is the pack. A struct that asks for none packs to the size of the
largest scalar, so the pack changes nothing exactly as long as no alignment is greater, and this
bound is carried along with the agreement.

## Main definitions

* `TypeTree.cAlign`, `TypeTree.cSize`, `TreeField.cOffsets` — alignment, size and offsets in C
* `StructDecl.IsPlain` — a struct whose attribute, if it has one, does not change the layout

## Main results

* `SpotRun.follows` — the fields of one struct
* `agrees_of_answer` — size and alignment, from the contained structs to their container
* `flatten_agrees` — size, alignment and all leaves
-/

namespace FlatLayout

open Relation

/-! ### The layout of C -/

mutual

/-- The alignment of a type. -/
def TypeTree.cAlign : TypeTree → Nat
  | .scalar size => size.toNat
  | .buffer element _ _ => element.toNat
  | .record _ _ fields => TreeField.cAlignAll fields

/-- The alignment of a field. -/
def TreeField.cAlign : TreeField → Nat
  | ⟨_, type⟩ => type.cAlign

/-- The greatest alignment of some fields. Without fields it is one. -/
def TreeField.cAlignAll : List TreeField → Nat
  | [] => 1
  | g :: gs => max g.cAlign (TreeField.cAlignAll gs)

end

mutual

/-- The size of a type. -/
def TypeTree.cSize : TypeTree → Nat
  | .scalar size => size.toNat
  | .buffer element count _ => element.toNat * count.toNat
  | .record _ markers fields =>
    roundUp (if markers.union then TreeField.cUnionEnd fields else TreeField.cStructEnd fields 0)
      (TreeField.cAlignAll fields)

/-- The size of a field. -/
def TreeField.cSize : TreeField → Nat
  | ⟨_, type⟩ => type.cSize

/-- The first byte behind all fields of a union. -/
def TreeField.cUnionEnd : List TreeField → Nat
  | [] => 0
  | g :: gs => max g.cSize (TreeField.cUnionEnd gs)

/-- The first byte behind some fields that follow each other from some byte on. -/
def TreeField.cStructEnd : List TreeField → Nat → Nat
  | [], start => start
  | g :: gs, start => TreeField.cStructEnd gs (roundUp start g.cAlign + g.cSize)

end

namespace TreeField

/-- The offsets of fields that follow each other from some byte on. -/
def cStructOffsets : List TreeField → Nat → List Nat
  | [], _ => []
  | g :: gs, start =>
    roundUp start g.cAlign :: cStructOffsets gs (roundUp start g.cAlign + g.cSize)

/-- The offsets of the fields of a struct or union. -/
def cOffsets (_ : QualName) (markers : Markers) (fields : List TreeField) : List Nat :=
  if markers.union then fields.map fun _ => 0 else cStructOffsets fields 0

end TreeField

theorem cAlign_of_leaf {tree : TypeTree} (h : tree.isRecord = false) :
    tree.cAlign = tree.unit.toNat := by
  cases tree with
  | scalar size => rw [TypeTree.cAlign]; rfl
  | buffer element count native => rw [TypeTree.cAlign]; rfl
  | record key markers fields => cases h

theorem cSize_of_leaf {tree : TypeTree} (h : tree.isRecord = false) : tree.cSize = tree.bytes := by
  cases tree with
  | scalar size => rw [TypeTree.cSize]; rfl
  | buffer element count native => rw [TypeTree.cSize]; rfl
  | record key markers fields => cases h

/-! ### Structs without special layout -/

/-- The attribute of the struct, if it has one, changes nothing: fields follow each other, no
alignment of a scalar is cut, and no size is asked for. -/
def StructDecl.IsPlain (s : StructDecl) : Prop :=
  ∀ a, s.layout = some a → a.kind = .sequential ∧ (∀ n, a.pack = some n → n = 0 ∨ 8 ≤ n) ∧
    ∀ n, a.size = some n → n = 0

/-- The rule of such a struct. -/
structure LayoutRule.IsPlain (rule : LayoutRule) : Prop where
  sequential : rule.isExplicit = false
  pack : 8 ≤ rule.pack.toNat
  size : rule.size = 0

theorem eight_le_packOf {struct : String} {asked : Option UInt32} {pack : UInt32}
    (h : LayoutRule.packOf struct asked = .ok pack)
    (hasked : ∀ n, asked = some n → n = 0 ∨ 8 ≤ n) : 8 ≤ pack.toNat := by
  have hdefault : 8 ≤ LayoutRule.defaultPack.toNat := by decide
  cases asked with
  | none => exact Except.ok.inj h ▸ hdefault
  | some n =>
    rw [LayoutRule.packOf] at h
    split at h
    · exact Except.ok.inj h ▸ hdefault
    next hzero =>
      split at h
      · rw [← Except.ok.inj h]
        exact UInt32.le_iff_toNat_le.1 ((hasked n rfl).resolve_left hzero)
      · cases h

theorem StructDecl.IsPlain.rule {s : StructDecl} (h : s.IsPlain) {rule : LayoutRule}
    (hrule : LayoutRule.ofAttr s.name s.layout = .ok rule) : rule.IsPlain := by
  cases hlayout : s.layout with
  | none =>
    rw [hlayout] at hrule
    rw [← Except.ok.inj hrule]
    exact ⟨rfl, by decide, rfl⟩
  | some a =>
    rw [hlayout] at hrule
    obtain ⟨pack, hpack, hrule⟩ := bind_eq_ok hrule
    obtain ⟨hkind, hasked, hsize⟩ := h a hlayout
    rw [← Except.ok.inj hrule]
    refine ⟨by simp [LayoutRule.isExplicit, hkind], eight_le_packOf hpack hasked, ?_⟩
    cases hn : a.size with
    | none => rfl
    | some n => exact hsize n hn

theorem scalar_bounds {o : Options} {child : QualName → Except LayoutError FlatStruct}
    (hwidth : o.pointerWidth = 4 ∨ o.pointerWidth = 8) {type : Binding} {size : UInt32}
    (h : elementFrom o child type = .ok (.scalar size)) : 1 ≤ size.toNat ∧ size.toNat ≤ 8 := by
  have hpointer : 1 ≤ o.pointerWidth.toNat ∧ o.pointerWidth.toNat ≤ 8 := by
    rcases hwidth with h | h <;> rw [h] <;> decide
  have hprimitive : ∀ p : Primitive,
      1 ≤ (p.size o.pointerWidth).toNat ∧ (p.size o.pointerWidth).toNat ≤ 8 := by
    intro p
    rcases hwidth with h | h <;> rw [h] <;> cases p <;> decide
  cases type with
  | pointer t => cases h; exact hpointer
  | primitive p => cases h; exact hprimitive p
  | enum k p => cases h; exact hprimitive p
  | managed name => cases h
  | struct d => exact absurd rfl (made_scalar h d)

/-! ### The fields of one struct -/

/-- The field `g` of the tree has in C the size and the alignment of the spot `t`, and the alignment
is that of a scalar. -/
structure TreeField.Agrees (g : TreeField) (t : Spot) : Prop where
  size : g.cSize = t.size.toNat
  alignment : g.cAlign = max 1 t.element.alignment.toNat
  bound : t.element.alignment.toNat ≤ 8

section

variable {c : Catalog} {o : Options} {key : QualName} {p q : Placement} {t : Spot} {ts : List Spot}
  {child : QualName → Except LayoutError FlatStruct} {fields : List TreeField}

theorem SpotStep.toNat_offset (h : SpotStep c o child key p t q) (hplain : p.rule.IsPlain)
    {g : TreeField} (hg : g.Agrees t) :
    t.offset.toNat = roundUp (if p.isUnion then 0 else p.size.toNat) g.cAlign := by
  obtain ⟨base, hbase, halign⟩ := h.aligned
  have hpack : t.element.alignment ≤ p.rule.pack := by
    rw [UInt32.le_iff_toNat_le]
    exact Nat.le_trans hg.bound hplain.pack
  rw [p.toNat_of_align halign hpack, hg.alignment]
  unfold Placement.baseOffset at hbase
  split at hbase
  next hunion =>
    cases hbase
    rw [if_pos hunion]
    rfl
  next hunion =>
    rw [hplain.sequential, if_neg (by decide)] at hbase
    cases hbase
    rw [if_neg hunion]

theorem roundUp_zero (a : Nat) : roundUp 0 a = 0 := by
  rw [roundUp, Nat.zero_add]
  cases a with
  | zero => rfl
  | succ a => rw [Nat.div_eq_of_lt (by omega), Nat.zero_mul]

/-- The largest alignment is the greatest of all fields. -/
theorem SpotRun.toNat_largest (h : SpotRun c o child key p ts q)
    (hagrees : List.Forall₂ TreeField.Agrees fields ts) (hbound : p.largest.toNat ≤ 8) :
    max 1 q.largest.toNat = max p.largest.toNat (TreeField.cAlignAll fields) ∧
      q.largest.toNat ≤ 8 := by
  induction h generalizing fields with
  | nil p =>
    cases hagrees
    rw [TreeField.cAlignAll, Nat.max_comm]
    exact ⟨rfl, hbound⟩
  | cons first rest ih =>
    cases hagrees with
    | cons hg hgs =>
      have hlargest := first.toNat_largest
      have hb := hg.bound
      obtain ⟨heq, hle⟩ := ih hgs (by omega)
      refine ⟨?_, hle⟩
      rw [heq, hlargest, TreeField.cAlignAll, hg.alignment]
      omega

/-- In a struct the fields follow each other. -/
theorem SpotRun.follows (h : SpotRun c o child key p ts q)
    (hagrees : List.Forall₂ TreeField.Agrees fields ts) (hplain : p.rule.IsPlain)
    (hunion : p.isUnion = false) :
    (ts.map fun t => t.offset.toNat) = TreeField.cStructOffsets fields p.size.toNat ∧
      q.size.toNat = TreeField.cStructEnd fields p.size.toNat := by
  induction h generalizing fields with
  | nil p =>
    cases hagrees
    rw [TreeField.cStructEnd, TreeField.cStructOffsets]
    exact ⟨rfl, rfl⟩
  | @cons p q r t ts first rest ih =>
    cases hagrees with
    | cons hg hgs =>
      have hoffset := first.toNat_offset hplain hg
      rw [hunion, if_neg (by decide)] at hoffset
      have hover : p.overlapping = false := by
        rw [Placement.overlapping, hunion, hplain.sequential]
        rfl
      have hsize := first.toNat_size
      rw [hover, if_neg (by decide), hoffset, ← hg.size] at hsize
      obtain ⟨hoffsets, hend⟩ :=
        ih hgs (first.rule_eq ▸ hplain) (first.isUnion_eq.trans hunion)
      rw [hsize] at hoffsets hend
      rw [List.map_cons, hoffset, hoffsets, hend, TreeField.cStructOffsets, TreeField.cStructEnd]
      exact ⟨rfl, rfl⟩

/-- In a union they all stand at its front. -/
theorem SpotRun.overlaps (h : SpotRun c o child key p ts q)
    (hagrees : List.Forall₂ TreeField.Agrees fields ts) (hplain : p.rule.IsPlain)
    (hunion : p.isUnion = true) :
    (ts.map fun t => t.offset.toNat) = (fields.map fun _ => 0) ∧
      q.size.toNat = max p.size.toNat (TreeField.cUnionEnd fields) := by
  induction h generalizing fields with
  | nil p =>
    cases hagrees
    rw [TreeField.cUnionEnd, Nat.max_eq_left (Nat.zero_le _)]
    exact ⟨rfl, rfl⟩
  | @cons p q r t ts first rest ih =>
    cases hagrees with
    | cons hg hgs =>
      have hoffset := first.toNat_offset hplain hg
      rw [hunion, if_pos rfl, roundUp_zero] at hoffset
      have hover : p.overlapping = true := by rw [Placement.overlapping, hunion, Bool.true_or]
      have hsize := first.toNat_size
      rw [hover, if_pos rfl, hoffset, Nat.zero_add, ← hg.size] at hsize
      obtain ⟨hoffsets, hend⟩ :=
        ih hgs (first.rule_eq ▸ hplain) (first.isUnion_eq.trans hunion)
      rw [List.map_cons, hoffset, hoffsets, hend, hsize, TreeField.cUnionEnd, List.map_cons]
      exact ⟨rfl, Nat.max_assoc ..⟩

/-- The flat struct `f` has the size and the alignment of its type in C, and the alignment is that
of a scalar. A struct without fields has no alignment of its own. -/
structure FlatStruct.Agrees (f : FlatStruct) (tree : TypeTree) : Prop where
  size : f.footprint.size.toNat = tree.cSize
  alignment : max 1 f.footprint.alignment.toNat = tree.cAlign
  bound : f.footprint.alignment.toNat ≤ 8

theorem SpotStep.agrees (h : SpotStep c o child key p t q)
    (hwidth : o.pointerWidth = 4 ∨ o.pointerWidth = 8) {trees : QualName → Option TypeTree}
    {g : TreeField} (hmatch : g.Matches o.pointerWidth trees t)
    (hchild : ∀ d flat tree, t.type = .struct d → child d = .ok flat → trees d = some tree →
      flat.Agrees tree) : g.Agrees t := by
  obtain ⟨decl, type⟩ := g
  obtain ⟨-, htype⟩ := hmatch
  rcases h.leaf_or_struct trees with ⟨tree, htree, hleaf⟩ | ⟨d, hstruct, htree⟩
  · obtain rfl : tree = type := Option.some.inj (htree.symm.trans htype)
    obtain ⟨hpos, hle⟩ := scalar_bounds hwidth (hleaf.unit ▸ h.made)
    refine ⟨?_, ?_, ?_⟩
    · rw [TreeField.cSize, cSize_of_leaf hleaf.leaf, hleaf.size]
    · rw [TreeField.cAlign, cAlign_of_leaf hleaf.leaf, hleaf.unit, Element.alignment,
        Nat.max_eq_right hpos]
    · rw [hleaf.unit]
      exact hle
  · obtain ⟨flat, hflat, helement⟩ := made_struct h.made hstruct
    obtain ⟨hsize, -⟩ := h.filled.of_struct helement
    have hagrees := hchild d flat type hstruct hflat (htree.symm.trans htype)
    refine ⟨?_, ?_, ?_⟩
    · rw [TreeField.cSize, hsize, hagrees.size]
    · rw [TreeField.cAlign, helement, Element.alignment, hagrees.alignment]
    · rw [helement]
      exact hagrees.bound

theorem Placement.finish_eq_ok {footprint : Footprint} (h : p.finish true = .ok footprint)
    (hplain : p.rule.IsPlain) (hbound : p.largest.toNat ≤ 8) :
    footprint.size.toNat = roundUp p.size.toNat (max 1 p.largest.toNat) ∧
      footprint.alignment = p.largest := by
  obtain ⟨size, hsize, h⟩ := bind_eq_ok h
  rw [← Except.ok.inj h]
  have hpack : p.largest ≤ p.rule.pack :=
    UInt32.le_iff_toNat_le.2 (Nat.le_trans hbound hplain.pack)
  refine ⟨?_, rfl⟩
  rw [← p.toNat_of_align hsize hpack, hplain.size]
  split
  next hle => rw [UInt32.le_antisymm hle UInt32.zero_le]
  · rfl

/-- **One struct agrees with C** if its fields do. -/
theorem Laid.agrees {s : StructDecl} {rule : LayoutRule} {f : FlatStruct}
    (laid : Laid c o child key s rule ts p f) (hplain : s.IsPlain) (hpad : o.padTrailing = true)
    (hagrees : List.Forall₂ TreeField.Agrees fields ts) :
    f.Agrees (.record key s.markers fields) ∧
      (ts.map fun t => t.offset.toNat) = TreeField.cOffsets key s.markers fields := by
  have hrule := hplain.rule laid.ruled
  have hrun := laid.run
  obtain ⟨hlargest, hbound⟩ := hrun.toNat_largest hagrees (Nat.zero_le _)
  have hmax : max 1 p.largest.toNat = TreeField.cAlignAll fields := by
    rw [hlargest]
    exact Nat.max_eq_right (Nat.zero_le _)
  have hfinish := laid.finished
  rw [hpad] at hfinish
  obtain ⟨hsize, halignment⟩ := p.finish_eq_ok hfinish (hrun.rule_eq ▸ hrule) hbound
  rw [hmax] at hsize
  have hends : p.size.toNat = (if s.markers.union then TreeField.cUnionEnd fields
      else TreeField.cStructEnd fields 0) ∧
      (ts.map fun t => t.offset.toNat) = TreeField.cOffsets key s.markers fields := by
    unfold TreeField.cOffsets
    cases hunion : s.markers.union with
    | true =>
      rw [hunion] at hrun
      obtain ⟨hoffsets, hend⟩ := hrun.overlaps hagrees hrule rfl
      rw [if_pos rfl, if_pos rfl, hoffsets, hend]
      exact ⟨Nat.max_eq_right (Nat.zero_le _), rfl⟩
    | false =>
      rw [hunion] at hrun
      obtain ⟨hoffsets, hend⟩ := hrun.follows hagrees hrule rfl
      rw [if_neg (by decide), if_neg (by decide), hoffsets, hend]
      exact ⟨rfl, rfl⟩
  refine ⟨⟨?_, ?_, ?_⟩, hends.2⟩
  · rw [hsize, hends.1, TypeTree.cSize]
  · rw [halignment, hmax, TypeTree.cAlign]
  · rw [halignment]
    exact hbound

end

/-! ### All contained structs -/

section

variable {c : Catalog} {o : Options} {key : QualName} {f : FlatStruct}

theorem Laid.fields_agree {s : StructDecl} {rule : LayoutRule} {ts : List Spot} {p : Placement}
    (laid : Laid c o (c.answer o) key s rule ts p f) (hs : c.struct? key = some s)
    (hwidth : o.pointerWidth = 4 ∨ o.pointerWidth = 8) {trees : QualName → Option TypeTree}
    {fields : List TreeField}
    (hfields : s.slots.mapM (slotTree c o.pointerWidth trees key) = some fields)
    (hchild : ∀ d flat tree, c.Contains key d → c.answer o d = .ok flat → trees d = some tree →
      flat.Agrees tree) : List.Forall₂ TreeField.Agrees fields ts := by
  have hmatches := laid.matches_of_mapM hfields
  rw [List.forall₂_iff_zip] at hmatches ⊢
  refine ⟨hmatches.1, fun {g t} hmem => ?_⟩
  have ht : t ∈ ts := (List.of_mem_zip hmem).2
  obtain ⟨p', q, hstep⟩ := laid.run.exists_step ht
  refine hstep.agrees hwidth (hmatches.2 hmem) fun d flat tree htype hflat htree => ?_
  exact hchild d flat tree ((laid.contains_iff hs).2 ⟨t, ht, htype⟩) hflat htree

variable (hplain : ∀ d s, ReflTransGen c.Contains key d → c.struct? d = some s → s.IsPlain)
  (hwidth : o.pointerWidth = 4 ∨ o.pointerWidth = 8) (hpad : o.padTrailing = true)

include hplain hwidth hpad

/-- **A flat struct has the size and the alignment of its type**, if no struct inside asks for
another layout. -/
theorem agrees_of_answer (h : c.answer o key = .ok f) {n : Nat} {tree : TypeTree}
    (htree : c.typeTreeWithin o.pointerWidth n key = some tree) : f.Agrees tree := by
  refine Catalog.answer_induction (motive := fun _ key f =>
    (∀ d s, ReflTransGen c.Contains key d → c.struct? d = some s → s.IsPlain) → ∀ n tree,
      c.typeTreeWithin o.pointerWidth n key = some tree → f.Agrees tree) ?_ h hplain n tree htree
  intro _ key s rule ts p f hs laid ih hplain n tree htree
  obtain ⟨m, s', fields, rfl, hs', hfields, rfl⟩ := typeTreeWithin_eq_some htree
  obtain rfl := Option.some.inj (hs.symm.trans hs')
  refine (laid.agrees (hplain key s .refl hs) hpad ?_).1
  refine laid.fields_agree hs hwidth hfields fun d flat tree hd hflat htree => ?_
  exact ih d flat hd hflat (fun e s he => hplain e s (he.head hd)) m tree htree

/-- The fields of every struct inside stand where C puts them. -/
theorem placedBy_cOffsets (h : c.answer o key = .ok f) {d : QualName}
    (hd : ReflTransGen c.Contains key d) : PlacedBy c o TreeField.cOffsets d := by
  intro s n fields hs hfields
  obtain ⟨g, hg⟩ := Catalog.exists_answer_of_reachable h hd
  obtain ⟨s', rule, ts, p, hs', laid⟩ := Catalog.exists_laid_of_answer hg
  obtain rfl := Option.some.inj (hs.symm.trans hs')
  rw [laid.spots_eq hs]
  refine (laid.agrees (hplain d s hd hs) hpad ?_).2.symm
  refine laid.fields_agree hs hwidth hfields fun e flat tree he hflat htree => ?_
  refine agrees_of_answer (fun e' s' he' hs' => ?_) hwidth hpad hflat htree
  exact hplain e' s' ((hd.tail he).trans he') hs'

/-- **Flattening agrees with C.** If no struct inside asks for another layout, pointers are those of
a usual target, nested structs are spread and sizes are padded, then every flat struct has the size
and the alignment that C gives its type, and its fields are the leaves of the type, each where C
puts it. -/
theorem flatten_agrees (calls : List Call) (hinline : o.inlineNested = true)
    (h : outcome (Bench.flatten c o key) (Workbench.afterCalls c o calls) = .ok f) :
    ∃ tree, c.typeTree o.pointerWidth key = some tree ∧
      f.footprint.size.toNat = tree.cSize ∧
      max 1 f.footprint.alignment.toNat = tree.cAlign ∧
      List.Forall₂ Leaf.Describes (tree.leaves TreeField.cOffsets) f.fields := by
  rw [outcome_flatten_eq_answer] at h
  obtain ⟨tree, htree⟩ := exists_typeTree_of_answer h
  have hagrees := agrees_of_answer hplain hwidth hpad h htree
  have hplace : ∀ d, ReflTransGen c.Contains key d → PlacedBy c o TreeField.cOffsets d :=
    fun d hd => placedBy_cOffsets hplain hwidth hpad h hd
  refine ⟨tree, htree, hagrees.size, hagrees.alignment, ?_⟩
  exact (describes_leaves_of_answer h hinline hplace htree).leaves

end

/-- None of these structs asks for a layout, so the theorem gives their size and alignment in C. -/
theorem flatten_agrees_nested :
    ∃ f, outcome (Bench.flatten nestedCatalog (.ofPointerWidth 8) ⟨"Outer"⟩)
        (Workbench.afterCalls nestedCatalog (.ofPointerWidth 8) []) = .ok f ∧
      f.footprint = ⟨56, 8⟩ ∧
      ∃ tree, nestedCatalog.typeTree 8 ⟨"Outer"⟩ = some tree ∧ tree.cSize = 56 ∧ tree.cAlign = 8 ∧
        List.Forall₂ Leaf.Describes (tree.leaves TreeField.cOffsets) f.fields := by
  have hplain : ∀ d s, ReflTransGen nestedCatalog.Contains ⟨"Outer"⟩ d →
      nestedCatalog.struct? d = some s → s.IsPlain := by
    intro d s _ hs a ha
    have hnone : ∀ e ∈ nestedCatalog.structs, e.2.layout = none := by decide +kernel
    rw [hnone _ (Catalog.mem_structs_of_struct? hs)] at ha
    cases ha
  have hflat : ∃ f, outcome (Bench.flatten nestedCatalog (.ofPointerWidth 8) ⟨"Outer"⟩)
      (Workbench.afterCalls nestedCatalog (.ofPointerWidth 8) []) = .ok f ∧
        f.footprint = ⟨56, 8⟩ := by decide +kernel
  obtain ⟨f, hf, hfootprint⟩ := hflat
  obtain ⟨tree, htree, hsize, halign, hleaves⟩ :=
    flatten_agrees hplain (.inr rfl) rfl [] rfl hf
  rw [hfootprint] at hsize halign
  exact ⟨f, hf, hfootprint, tree, htree, hsize.symm, halign.symm, hleaves⟩

end FlatLayout
