import FlatLayout.Proofs.Promotion

/-!
# The type of a struct as a tree

A struct type as it is written, with the structs it contains by value inside of it, and nothing laid
out yet. Its leaves are scalars and fixed buffers. Where a leaf stands depends on where the fields
of each struct on the way to it are placed; this is left open, so that one and the same tree can be
read with the offsets of the flattened structs and with those that another rule prescribes.

The tree is built from declarations alone. It exists for every struct that can be flattened, since
such a struct contains no struct that contains itself.

## Main definitions

* `TypeTree`, `TreeField` — a type, and a field of a struct type
* `Catalog.typeTree` — the tree of a struct of a catalog
* `Leaf`, `TypeTree.leaves` — the leaves of a tree with their paths, given where fields are placed

## Main results

* `exists_typeTree_of_answer` — a struct that can be flattened has a tree
* `Laid.matches_of_mapM` — its fields are those that were given spots
* `SpotStep.leaf_or_struct` — a field is a leaf of the tree, and one field of the flat struct, or a
  struct
-/

namespace FlatLayout

mutual

/-- A type, with everything it contains by value. A pointer is a scalar, whatever it points at. -/
inductive TypeTree where
  | scalar (size : UInt32)
  /-- A fixed buffer, which is either declared as it is or as its first element. -/
  | buffer (element count : UInt32) (native : Bool)
  | record (key : QualName) (markers : Markers) (fields : List TreeField)

/-- A field with its type. -/
structure TreeField where
  decl : FieldDecl
  type : TypeTree

end

namespace TypeTree

/-- Whether it is a struct. -/
def isRecord : TypeTree → Bool
  | record .. => true
  | _ => false

/-- The markers of a struct. -/
def markers : TypeTree → Markers
  | record _ markers _ => markers
  | _ => .none

/-- What a leaf is made of: itself, or the elements of a buffer. -/
def unit : TypeTree → UInt32
  | scalar size => size
  | buffer element _ _ => element
  | record .. => 0

/-- The bytes of a leaf. -/
def bytes : TypeTree → Nat
  | scalar size => size.toNat
  | buffer element count _ => element.toNat * count.toNat
  | record .. => 0

/-- The count that a leaf is declared with. -/
def fixedCount : TypeTree → Option UInt32
  | buffer _ count true => some count
  | _ => none

/-- What is put behind the name of a leaf. -/
def suffix : TypeTree → String
  | buffer _ _ false => "_Start"
  | _ => ""

end TypeTree

/-- The name of a field on the path to what it contains, unless it is left out. -/
def TreeField.label (g : TreeField) : Option String :=
  if g.decl.markers.anonymous || g.type.markers.anonymous then none else some g.decl.name

/-! ### The tree of a struct -/

/-- The size of a type that is a scalar. -/
def Binding.scalarSize? (pointerWidth : UInt32) : Binding → Option UInt32
  | .pointer _ => some pointerWidth
  | .primitive p => some (p.size pointerWidth)
  | .enum _ p => some (p.size pointerWidth)
  | .struct _ => none
  | .managed _ => none

section

variable (c : Catalog) (pointerWidth : UInt32) (child : QualName → Option TypeTree)

/-- The tree of a field, given those of the contained structs. -/
def fieldTree (f : FieldDecl) (type : Binding) : Option TypeTree :=
  match f.fixedCount with
  | some count => (type.scalarSize? pointerWidth).map fun e => .buffer e count type.isBufferElement
  | none =>
    match type with
    | .struct key => child key
    | type => (type.scalarSize? pointerWidth).map .scalar

/-- The field that a step in placing the fields of the struct `key` is about. -/
def slotTree (key : QualName) : Slot → Option TreeField
  | .field f _ =>
    match c.bind f.type key with
    | .ok type => (fieldTree pointerWidth child f type).map fun t => ⟨f, t⟩
    | .error _ => none
  | .groupedBuffer _ => none
  | .conditional _ => none

end

namespace Catalog

/-- The tree of a struct that contains other structs at most so deep. -/
def typeTreeWithin (c : Catalog) (pointerWidth : UInt32) : Nat → QualName → Option TypeTree
  | 0, _ => none
  | fuel + 1, key => do
    let s ← c.struct? key
    let fields ← s.slots.mapM (slotTree c pointerWidth (typeTreeWithin c pointerWidth fuel) key)
    return .record key s.markers fields

/-- The tree of a struct. It is as deep as there are structs at most. -/
def typeTree (c : Catalog) (pointerWidth : UInt32) (key : QualName) : Option TypeTree :=
  c.typeTreeWithin pointerWidth (c.structs.length + 1) key

end Catalog

/-! ### Leaves -/

/-- A scalar or a buffer inside a struct type. -/
structure Leaf where
  /-- The struct fields on the way to it, the outermost first: the name of each, unless it is left
  out, and its offset. -/
  enclosing : List (Option String × Nat)
  decl : FieldDecl
  type : TypeTree
  /-- The offset in the innermost struct. -/
  offset : Nat

namespace Leaf

/-- The names on the path, joined by `_`. -/
def name (l : Leaf) : String :=
  "_".intercalate (l.enclosing.filterMap Prod.fst ++ [l.decl.name]) ++ l.type.suffix

/-- The sum of the offsets along the path. -/
def position (l : Leaf) : Nat := l.enclosing.foldr (fun step n => step.2 + n) l.offset

/-- The leaf in a container of the struct. -/
def under (label : Option String) (offset : Nat) (l : Leaf) : Leaf :=
  { l with enclosing := (label, offset) :: l.enclosing }

theorem name_under (label : Option String) (offset : Nat) (l : Leaf) :
    (l.under label offset).name = PlacedMember.qualify label l.name := by
  cases label with
  | none => rfl
  | some outer =>
    show "_".intercalate (outer :: (l.enclosing.filterMap Prod.fst ++ [l.decl.name])) ++ _ = _
    rw [String.intercalate_cons_of_ne_nil (by simp), String.append_assoc]
    rfl

theorem position_under (label : Option String) (offset : Nat) (l : Leaf) :
    (l.under label offset).position = l.position + offset := Nat.add_comm ..

end Leaf

section

variable (place : QualName → Markers → List TreeField → List Nat)

mutual

/-- The leaves of a struct type, where `place` says at which offsets the fields of a struct are. -/
def TypeTree.leaves : TypeTree → List Leaf
  | .record key markers fields => TreeField.leavesAll fields (place key markers fields)
  | _ => []

/-- The leaves of a field at an offset. -/
def TreeField.leaves (offset : Nat) : TreeField → List Leaf
  | ⟨decl, type⟩ =>
    if type.isRecord then
      type.leaves.map (Leaf.under (TreeField.label ⟨decl, type⟩) offset)
    else [⟨[], decl, type, offset⟩]

/-- The leaves of some fields, each at its offset. A field without an offset keeps its leaves. -/
def TreeField.leavesAll : List TreeField → List Nat → List Leaf
  | [], _ => []
  | g :: gs, offsets => g.leaves (offsets.headD 0) ++ TreeField.leavesAll gs offsets.tail

end

end

/-! ### What a leaf is in a flat struct -/

/-- The field `m` of a flat struct is the leaf `l` of its type. -/
structure Leaf.Describes (l : Leaf) (m : PlacedMember) : Prop where
  name : m.name = l.name
  offset : m.offset.toNat = l.position
  type : m.type = l.decl.type
  size : m.size.toNat = l.type.bytes
  fixedCount : m.fixedCount = l.type.fixedCount
  modifiers : m.modifiers = l.decl.modifiers

theorem Leaf.Describes.moved {l : Leaf} {m m' : PlacedMember} {label : Option String}
    {base : UInt32} {source : Nat} (h : l.Describes m) (hmoved : Moved label base source m m') :
    (l.under label base.toNat).Describes m' where
  name := by rw [hmoved.name, h.name, Leaf.name_under]
  offset := by rw [hmoved.offset, h.offset, Leaf.position_under]
  type := hmoved.type.trans h.type
  size := by rw [hmoved.size, h.size]; rfl
  fixedCount := hmoved.fixedCount.trans h.fixedCount
  modifiers := hmoved.modifiers.trans h.modifiers

/-- The field with the spot `t` is a leaf of type `tree`. -/
structure Spot.IsLeaf (t : Spot) (tree : TypeTree) : Prop where
  leaf : tree.isRecord = false
  unit : t.element = .scalar tree.unit
  size : t.size.toNat = tree.bytes
  field : ∃ m, (t.members.filter fun m => !m.isAccessor) = [m] ∧
    Leaf.Describes ⟨[], t.decl, tree, t.offset.toNat⟩ m

section

variable {c : Catalog} {o : Options} {key : QualName} {p q : Placement} {t : Spot}
  {child : QualName → Except LayoutError FlatStruct}

theorem scalarSize?_of_made {type : Binding} {size : UInt32}
    (h : elementFrom o child type = .ok (.scalar size)) :
    type.scalarSize? o.pointerWidth = some size := by
  cases type with
  | pointer t => cases h; rfl
  | primitive p => cases h; rfl
  | enum k p => cases h; rfl
  | managed name => cases h
  | struct d => exact absurd rfl (made_scalar h d)

theorem made_of_scalarSize? {type : Binding} {unit : UInt32}
    (h : type.scalarSize? o.pointerWidth = some unit) :
    elementFrom o child type = .ok (.scalar unit) := by
  cases type with
  | pointer t => cases h; rfl
  | primitive p => cases h; rfl
  | enum k p => cases h; rfl
  | struct d => cases h
  | managed name => cases h

section

variable {trees : QualName → Option TypeTree} {f : FieldDecl} {type : Binding} {size : UInt32}

theorem fieldTree_struct (hcount : f.fixedCount = none) (d : QualName) :
    fieldTree o.pointerWidth trees f (.struct d) = trees d := by
  simp only [fieldTree, hcount]

theorem fieldTree_scalar (hcount : f.fixedCount = none)
    (hmade : elementFrom o child type = .ok (.scalar size)) :
    fieldTree o.pointerWidth trees f type = some (.scalar size) := by
  have hsize := scalarSize?_of_made hmade
  cases type with
  | struct d => cases hsize
  | pointer t => simp only [fieldTree, hcount, hsize, Option.map_some]
  | primitive p => simp only [fieldTree, hcount, hsize, Option.map_some]
  | enum k p => simp only [fieldTree, hcount, hsize, Option.map_some]
  | managed name => cases hsize

theorem fieldTree_buffer {count : UInt32} (hcount : f.fixedCount = some count)
    (hmade : elementFrom o child type = .ok (.scalar size)) :
    fieldTree o.pointerWidth trees f type = some (.buffer size count type.isBufferElement) := by
  simp only [fieldTree, hcount, scalarSize?_of_made hmade, Option.map_some]

end

theorem exists_fieldTree_of_scalarSize? {pointerWidth : UInt32}
    {trees : QualName → Option TypeTree} {type : Binding} {f : FieldDecl} {size : UInt32}
    (h : type.scalarSize? pointerWidth = some size) :
    ∃ tree, fieldTree pointerWidth trees f type = some tree := by
  unfold fieldTree
  split
  · rw [h]
    exact ⟨_, rfl⟩
  · cases type with
    | struct d => cases h
    | managed name => cases h
    | primitive p => exact ⟨_, rfl⟩
    | pointer t => exact ⟨_, rfl⟩
    | enum k p => exact ⟨_, rfl⟩

/-- A leaf's own name is the name of the field, and what is put behind it. -/
theorem Leaf.name_own (f : FieldDecl) (tree : TypeTree) (offset : Nat) :
    Leaf.name ⟨[], f, tree, offset⟩ = f.name ++ tree.suffix := by
  show "_".intercalate [f.name] ++ tree.suffix = _
  rw [String.intercalate_singleton]

/-- A declared field is the leaf that it declares. -/
theorem describes_ofField {f : FieldDecl} {source : Nat} {offset size : UInt32} {role : Role}
    {tree : TypeTree} (hsize : size.toNat = tree.bytes) (hcount : f.fixedCount = tree.fixedCount)
    (hsuffix : tree.suffix = "") :
    Leaf.Describes ⟨[], f, tree, offset.toNat⟩ (.ofField f source offset size role) where
  name := by rw [Leaf.name_own, hsuffix, String.append_empty]; rfl
  offset := rfl
  type := rfl
  size := hsize
  fixedCount := hcount
  modifiers := rfl

/-- The first element of a buffer stands for the leaf that the buffer is. -/
theorem describes_startField {f : FieldDecl} {offset size element count : UInt32} (source : Nat)
    (hsize : size.toNat = element.toNat * count.toNat) :
    Leaf.Describes ⟨[], f, .buffer element count false, offset.toNat⟩
      { PlacedMember.ofField f source offset size .bufferStart with
        name := startName f.name, fixedCount := none } where
  name := by rw [Leaf.name_own]; rfl
  offset := rfl
  type := rfl
  size := hsize
  fixedCount := rfl
  modifiers := rfl

/-- **Every field is a leaf or a struct**, in the tree and among the spots alike. -/
theorem SpotStep.leaf_or_struct (h : SpotStep c o child key p t q)
    (trees : QualName → Option TypeTree) :
    (∃ tree, fieldTree o.pointerWidth trees t.decl t.type = some tree ∧ t.IsLeaf tree) ∨
      ∃ d, t.type = .struct d ∧ fieldTree o.pointerWidth trees t.decl t.type = trees d := by
  have hrole := isAccessor_plainRole p
  cases h.filled with
  | scalar hcount helement hmembers =>
    refine .inl ⟨.scalar t.size, fieldTree_scalar hcount (helement ▸ h.made), rfl, helement, rfl,
      .ofField t.decl t.source t.offset t.size p.plainRole, ?_, describes_ofField rfl hcount rfl⟩
    rw [hmembers, List.filter_cons_of_pos (by simp [hrole]), List.filter_nil]
  | native count size hcount helement hnative hsized hmembers =>
    have htree : fieldTree o.pointerWidth trees t.decl t.type = some (.buffer size count true) :=
      hnative ▸ fieldTree_buffer hcount (helement ▸ h.made)
    refine .inl ⟨_, htree, rfl, helement, hsized,
      .ofField t.decl t.source t.offset t.size p.plainRole, ?_, describes_ofField hsized hcount rfl⟩
    rw [hmembers, List.filter_cons_of_pos (by simp [hrole]), List.filter_nil]
  | started count size hcount helement hnative hsized hmembers =>
    have htree : fieldTree o.pointerWidth trees t.decl t.type = some (.buffer size count false) :=
      hnative ▸ fieldTree_buffer hcount (helement ▸ h.made)
    refine .inl ⟨_, htree, rfl, helement, hsized, _, ?_, describes_startField t.source hsized⟩
    rw [hmembers]
    rfl
  | nested flat hcount helement hsize hmembers =>
    obtain ⟨d, htype, -⟩ := exists_struct_of_made (helement ▸ h.made)
    exact .inr ⟨d, htype, by rw [htype, fieldTree_struct hcount]⟩

/-! ### The fields of a tree and the spots of a struct -/

/-- The field `g` of a tree and the spot `t` belong to the same field of a struct. -/
structure TreeField.Matches (pointerWidth : UInt32) (trees : QualName → Option TypeTree)
    (g : TreeField) (t : Spot) : Prop where
  decl : g.decl = t.decl
  type : fieldTree pointerWidth trees t.decl t.type = some g.type

variable {pointerWidth : UInt32} {trees : QualName → Option TypeTree}

theorem slotTree_slot_iff (hbound : c.bind t.decl.type key = .ok t.type) {g : TreeField} :
    slotTree c pointerWidth trees key t.slot = some g ↔ g.Matches pointerWidth trees t := by
  simp only [Spot.slot, slotTree, hbound, Option.map_eq_some_iff]
  constructor
  · rintro ⟨tree, htree, rfl⟩
    exact ⟨rfl, htree⟩
  · obtain ⟨decl, type⟩ := g
    rintro ⟨rfl, htype⟩
    exact ⟨type, htype, rfl⟩

theorem typeTreeWithin_eq_some {n : Nat} {tree : TypeTree}
    (h : c.typeTreeWithin pointerWidth n key = some tree) :
    ∃ m s fields, n = m + 1 ∧ c.struct? key = some s ∧
      s.slots.mapM (slotTree c pointerWidth (c.typeTreeWithin pointerWidth m) key) = some fields ∧
      tree = .record key s.markers fields := by
  cases n with
  | zero => cases h
  | succ m =>
    obtain ⟨s, hs, h⟩ := Option.bind_eq_some_iff.1 h
    obtain ⟨fields, hfields, h⟩ := Option.bind_eq_some_iff.1 h
    exact ⟨m, s, fields, rfl, hs, hfields, (Option.some.inj h).symm⟩

theorem typeTreeWithin_of_mapM {n : Nat} {s : StructDecl} {fields : List TreeField}
    (hs : c.struct? key = some s)
    (hfields : s.slots.mapM (slotTree c pointerWidth (c.typeTreeWithin pointerWidth n) key) =
      some fields) :
    c.typeTreeWithin pointerWidth (n + 1) key = some (.record key s.markers fields) := by
  rw [Catalog.typeTreeWithin, hs]
  simp only [Option.bind_eq_bind, Option.bind_some, hfields]
  rfl

theorem mapM_mono {α β : Type} {f g : α → Option β} {as : List α} {bs : List β}
    (hfg : ∀ a b, f a = some b → g a = some b) (h : as.mapM f = some bs) :
    as.mapM g = some bs := by
  induction as generalizing bs with
  | nil => exact h
  | cons a as ih =>
    rw [List.mapM_cons] at h ⊢
    obtain ⟨b, hb, h⟩ := Option.bind_eq_some_iff.1 h
    obtain ⟨bs', hbs, h⟩ := Option.bind_eq_some_iff.1 h
    rw [hfg a b hb, ih hbs]
    exact h

theorem slotTree_mono {trees' : QualName → Option TypeTree}
    (h : ∀ d tree, trees d = some tree → trees' d = some tree) (slot : Slot) (g : TreeField)
    (hg : slotTree c pointerWidth trees key slot = some g) :
    slotTree c pointerWidth trees' key slot = some g := by
  cases slot with
  | groupedBuffer f => exact hg
  | conditional symbol => exact hg
  | field f source =>
    simp only [slotTree] at hg ⊢
    split at hg
    next type _ =>
      obtain ⟨tree, htree, rfl⟩ := Option.map_eq_some_iff.1 hg
      have htree' : fieldTree pointerWidth trees' f type = some tree := by
        unfold fieldTree at htree ⊢
        split at htree
        · exact htree
        · split at htree
          · exact h _ _ htree
          · exact htree
      rw [htree', Option.map_some]
    · cases hg

/-- More fuel leaves a tree as it is. -/
theorem typeTreeWithin_mono {m n : Nat} {tree : TypeTree} (hmn : m ≤ n)
    (h : c.typeTreeWithin pointerWidth m key = some tree) :
    c.typeTreeWithin pointerWidth n key = some tree := by
  induction m generalizing n key tree with
  | zero => cases h
  | succ m ih =>
    obtain ⟨m', s, fields, heq, hs, hfields, rfl⟩ := typeTreeWithin_eq_some h
    obtain rfl : m = m' := by omega
    obtain ⟨n, rfl⟩ : ∃ k, n = k + 1 := ⟨n - 1, by omega⟩
    have hmono : ∀ d tree, c.typeTreeWithin pointerWidth m d = some tree →
        c.typeTreeWithin pointerWidth n d = some tree := fun d tree => ih (by omega)
    exact typeTreeWithin_of_mapM hs (mapM_mono (slotTree_mono hmono) hfields)

theorem exists_mapM_eq_some {α β : Type} {f : α → Option β} {as : List α}
    (h : ∀ a ∈ as, ∃ b, f a = some b) : ∃ bs, as.mapM f = some bs := by
  induction as with
  | nil => exact ⟨[], rfl⟩
  | cons a as ih =>
    obtain ⟨b, hb⟩ := h a List.mem_cons_self
    obtain ⟨bs, hbs⟩ := ih fun a ha => h a (List.mem_cons_of_mem _ ha)
    exact ⟨b :: bs, by rw [List.mapM_cons, hb, hbs]; rfl⟩

theorem SpotRun.matches_of_mapM {ts : List Spot} (h : SpotRun c o child key p ts q)
    {fields : List TreeField}
    (hfields : (ts.map Spot.slot).mapM (slotTree c pointerWidth trees key) = some fields) :
    List.Forall₂ (TreeField.Matches pointerWidth trees) fields ts := by
  rw [List.mapM_map] at hfields
  induction h generalizing fields with
  | nil p => cases hfields; exact .nil
  | cons first rest ih =>
    rw [List.mapM_cons] at hfields
    obtain ⟨g, hg, hfields⟩ := Option.bind_eq_some_iff.1 hfields
    obtain ⟨gs, hgs, hfields⟩ := Option.bind_eq_some_iff.1 hfields
    cases hfields
    exact .cons ((slotTree_slot_iff first.bound).1 hg) (ih hgs)

namespace Laid

variable {s : StructDecl} {rule : LayoutRule} {ts : List Spot} {f : FlatStruct}

theorem matches_of_mapM (laid : Laid c o child key s rule ts p f) {fields : List TreeField}
    (h : s.slots.mapM (slotTree c pointerWidth trees key) = some fields) :
    List.Forall₂ (TreeField.Matches pointerWidth trees) fields ts :=
  laid.run.matches_of_mapM (laid.slots ▸ h)

theorem exists_fields (laid : Laid c o child key s rule ts p f) (hs : c.struct? key = some s)
    (htrees : ∀ d, c.Contains key d → ∃ tree, trees d = some tree) :
    ∃ fields, s.slots.mapM (slotTree c o.pointerWidth trees key) = some fields := by
  rw [laid.slots, List.mapM_map]
  refine exists_mapM_eq_some fun t ht => ?_
  have hfield : ∃ tree, fieldTree o.pointerWidth trees t.decl t.type = some tree := by
    obtain ⟨p', q', hstep⟩ := laid.run.exists_step ht
    rcases hstep.leaf_or_struct trees with ⟨tree, htree, -⟩ | ⟨d, htype, htree⟩
    · exact ⟨tree, htree⟩
    · rw [htree]
      exact htrees d ((laid.contains_iff hs).2 ⟨t, ht, htype⟩)
  obtain ⟨tree, htree⟩ := hfield
  exact ⟨⟨t.decl, tree⟩, (slotTree_slot_iff (laid.bound ht)).2 ⟨rfl, htree⟩⟩

end Laid

/-- **A struct that can be flattened has a tree.** -/
theorem exists_typeTree_of_answer {f : FlatStruct} (h : c.answer o key = .ok f) :
    ∃ tree, c.typeTree o.pointerWidth key = some tree := by
  refine Catalog.answer_induction
    (motive := fun n key _ => ∃ tree, c.typeTreeWithin o.pointerWidth n key = some tree) ?_ h
  intro n key s rule ts p f hs laid ih
  have htrees : ∀ d, c.Contains key d →
      ∃ tree, c.typeTreeWithin o.pointerWidth n d = some tree := by
    intro d hd
    obtain ⟨flat, hflat⟩ := laid.exists_child hs hd
    exact ih d flat hd hflat
  obtain ⟨fields, hfields⟩ := laid.exists_fields hs htrees
  exact ⟨.record key s.markers fields, typeTreeWithin_of_mapM hs hfields⟩

end

end FlatLayout
