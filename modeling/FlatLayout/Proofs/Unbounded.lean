import FlatLayout.Proofs.ExactLayout

/-!
# Flattening without a limit

Flattening computes with words and refuses whatever does not fit into one. Here it is written once
more, step by step, with natural numbers in the place of words. Nothing is checked for its size, so
nothing is refused for its size; all other reasons to refuse a struct are the same.

## What is read on the way

What the limit would have refused cannot be seen from a flat struct: a number that was too large may
have been followed by another error, or may have been the length of a buffer that no one looks at
again. Therefore the steps are `Gauged`: they carry along the numbers that they came to, also when
they fail. There are four of them, each at the place where a check would stand: the offset of a
field when it is aligned, its end, the length of a fixed buffer, and the size of the struct when it
is padded. The numbers of contained structs are not among them, since each of these structs has a
run of its own.

## Main definitions

* `Gauged` — steps on natural numbers, with all numbers that were checked on words
* `WideMember`, `WideStruct`, `WidePlacement` — the data of flattening with natural numbers
* `Catalog.flattenWide` — flattening a struct without a limit
* `Gauged.Prefix` — one computation goes at least as far as another one

## Main results

* `Gauged.Prefix.bind` — steps one after the other
* `Catalog.prefix_flattenWideUnder` — without structs under way flattening goes at least as far
-/

namespace FlatLayout

/-! ### Steps with readings -/

/-- Steps on natural numbers: the numbers that they came to, in order, and what they answered. -/
structure Gauged (α : Type) where
  readings : List Nat
  answer : Except LayoutError α

namespace Gauged

variable {α β : Type}

/-- No steps are taken behind a failure. What was read before stays. -/
instance : Monad Gauged where
  pure a := ⟨[], .ok a⟩
  bind x f :=
    match x.answer with
    | .ok a => ⟨x.readings ++ (f a).readings, (f a).answer⟩
    | .error e => ⟨x.readings, .error e⟩

/-- Comes to a number. -/
def gauge (n : Nat) : Gauged Nat := ⟨[n], .ok n⟩

/-- The outcome of a computation that comes to no numbers. -/
def ofExcept (r : Except LayoutError α) : Gauged α := ⟨[], r⟩

/-- Every number is a word. -/
def Bounded (x : Gauged α) : Prop := ∀ n ∈ x.readings, n < Word.limit

theorem bind_of_ok {x : Gauged α} {f : α → Gauged β} {a : α} (h : x.answer = .ok a) :
    x >>= f = ⟨x.readings ++ (f a).readings, (f a).answer⟩ := by
  simp only [bind, h]

theorem bind_of_error {x : Gauged α} {f : α → Gauged β} {e : LayoutError}
    (h : x.answer = .error e) : x >>= f = ⟨x.readings, .error e⟩ := by
  simp only [bind, h]

/-- Steps that follow take nothing back. -/
theorem readings_prefix_bind (x : Gauged α) (f : α → Gauged β) :
    x.readings <+: (x >>= f).readings := by
  cases hx : x.answer with
  | error e => simp only [bind_of_error hx, List.prefix_rfl]
  | ok a => simp only [bind_of_ok hx, List.prefix_append]

theorem ofExcept_bind (r : Except LayoutError α) (f : α → Except LayoutError β) :
    ofExcept (r >>= f) = ofExcept r >>= fun a => ofExcept (f a) := by
  cases r <;> rfl

instance : LawfulMonad Gauged := by
  refine LawfulMonad.mk' Gauged (fun x => ?_) (fun a f => rfl) fun x f g => ?_
  · obtain ⟨readings, e | a⟩ := x
    · rfl
    · exact congrArg (Gauged.mk · (.ok a)) (List.append_nil readings)
  · cases hx : x.answer with
    | error e => rw [bind_of_error hx, bind_of_error hx, bind_of_error rfl]
    | ok a =>
      rw [bind_of_ok hx, bind_of_ok hx]
      cases hf : (f a).answer with
      | error e => rw [bind_of_error hf, bind_of_error rfl]
      | ok b => rw [bind_of_ok hf, bind_of_ok rfl, List.append_assoc]

/-- `y` goes at least as far as `x`: it comes to the same numbers first, and it is the same if `x`
succeeds. -/
structure Prefix (x y : Gauged α) : Prop where
  readings : x.readings <+: y.readings
  same : ∀ a, x.answer = .ok a → y = x

namespace Prefix

theorem refl (x : Gauged α) : Prefix x x := ⟨List.prefix_rfl, fun _ _ => rfl⟩

/-- What fails at once is in front of everything. -/
theorem failed (e : LayoutError) (y : Gauged α) : Prefix (ofExcept (.error e)) y :=
  ⟨List.nil_prefix, fun _ ha => nomatch ha⟩

theorem ofExcept {r r' : Except LayoutError α} (h : ∀ a, r = .ok a → r' = .ok a) :
    Prefix (.ofExcept r) (.ofExcept r') :=
  ⟨List.prefix_rfl, fun a ha => by rw [show r = .ok a from ha, h a ha]⟩

theorem bind {x y : Gauged α} {f g : α → Gauged β} (hxy : Prefix x y)
    (hfg : ∀ a, Prefix (f a) (g a)) : Prefix (x >>= f) (y >>= g) := by
  cases hx : x.answer with
  | error e =>
    rw [bind_of_error hx]
    exact ⟨hxy.readings.trans (readings_prefix_bind y g), fun _ ha => nomatch ha⟩
  | ok a =>
    obtain rfl := hxy.same a hx
    rw [bind_of_ok hx, bind_of_ok hx]
    refine ⟨(List.prefix_append_right_inj _).2 (hfg a).readings, fun b hb => ?_⟩
    rw [(hfg a).same b hb]

theorem bounded {x y : Gauged α} (h : Prefix x y) (hy : y.Bounded) : x.Bounded :=
  fun n hn => hy n (h.readings.subset hn)

end Prefix

end Gauged

/-! ### Members -/

/-- A member of a flat struct, with an offset and a size that need not be words. -/
structure WideMember where
  name : String
  type : TypeRef
  offset : Nat
  size : Nat
  fixedCount : Option UInt32
  role : Role
  modifiers : List String
  baseField : Option String
  source : Nat

namespace WideMember

/-- A declared field at an offset. -/
def ofField (f : FieldDecl) (source offset size : Nat) (role : Role) : WideMember :=
  ⟨f.name, f.type, offset, size, f.fixedCount, role, f.modifiers, none, source⟩

/-- An accessor of the field `base` at an offset. -/
def accessor (name base : String) (f : FieldDecl) (offset source : Nat) (role : Role) :
    WideMember :=
  ⟨name, f.type, offset, 0, none, role, f.modifiers, some base, source⟩

/-- Whether the member has no storage. -/
def isAccessor (m : WideMember) : Bool := m.role.isAccessor

/-- The member as a member of a container in which its struct stands at `base`. -/
def promote (m : WideMember) (outer : Option String) (base source : Nat) : WideMember :=
  { m with
    name := PlacedMember.qualify outer m.name
    offset := m.offset + base
    role := PlacedMember.promotedRole outer m.role
    baseField := m.baseField.map (PlacedMember.qualify outer)
    source := source }

end WideMember

/-- The result of laying out a struct without a limit. -/
structure WideStruct where
  key : QualName
  markers : Markers
  extent : Extent
  members : List WideMember

/-- The members with storage. -/
def WideStruct.fields (f : WideStruct) : List WideMember := f.members.filter fun m => !m.isAccessor

/-- What a field is made of. -/
inductive WideElement where
  | scalar (size : Nat)
  | struct (flat : WideStruct)

/-! ### Placing the fields of one struct -/

/-- What has been placed of a struct. -/
structure WidePlacement where
  name : String
  rule : LayoutRule
  isUnion : Bool
  size : Nat
  largest : Nat
  members : List WideMember

/-- A field that was placed. -/
structure WidePlaced where
  offset : Nat
  size : Nat
  placement : WidePlacement

namespace WidePlacement

/-- Nothing has been placed. -/
def start (name : String) (rule : LayoutRule) (isUnion : Bool) : WidePlacement :=
  ⟨name, rule, isUnion, 0, 0, []⟩

/-- Whether fields may share bytes. -/
def overlapping (p : WidePlacement) : Bool := p.isUnion || p.rule.isExplicit

/-- Where a field goes before it is aligned. -/
def baseOffset (p : WidePlacement) (f : FieldDecl) : Except LayoutError Nat :=
  if p.isUnion then .ok 0
  else if p.rule.isExplicit then
    match f.offset with
    | some n => .ok n.toNat
    | none => .error (.missingOffset p.name f.name)
  else .ok p.size

/-- The next offset that suits a natural alignment. -/
def align (p : WidePlacement) (natural base : Nat) : Gauged Nat :=
  .gauge (roundUp base (p.rule.boundary natural))

/-- The role of a field that is placed as it was declared. -/
def plainRole (p : WidePlacement) : Role := if p.isUnion then .unionMember else .plain

/-- The placement with more members, and with an alignment taken into account. -/
def add (p : WidePlacement) (alignment : Nat) (ms : List WideMember) : WidePlacement :=
  { p with largest := max p.largest alignment, members := p.members ++ ms }

/-- Places a field of a scalar type. -/
def placeScalar (p : WidePlacement) (f : FieldDecl) (source size base : Nat) :
    Gauged WidePlaced := do
  let offset ← p.align size base
  return ⟨offset, size, p.add size [.ofField f source offset size p.plainRole]⟩

/-- The members that stand for a buffer. -/
def bufferMembers (p : WidePlacement) (f : FieldDecl) (source : Nat) (native : Bool)
    (offset size : Nat) : List WideMember :=
  if native then [.ofField f source offset size p.plainRole]
  else
    [{ WideMember.ofField f source offset size .bufferStart with
        name := startName f.name, fixedCount := none },
      .accessor f.name (startName f.name) f offset source .bufferAccessor]

/-- Places a fixed buffer. Its elements may not be structs. -/
def placeBuffer (p : WidePlacement) (f : FieldDecl) (source : Nat) (count : Nat) (native : Bool)
    (element : WideElement) (base : Nat) : Gauged WidePlaced :=
  match element with
  | .struct _ => .ofExcept (.error (.structBuffer p.name f.name f.type))
  | .scalar elementSize => do
    let size ← .gauge (elementSize * count)
    let offset ← p.align elementSize base
    return ⟨offset, size, p.add elementSize (p.bufferMembers f source native offset size)⟩

/-- Puts a member behind the first one with storage. -/
def insertReference (reference : String → WideMember) (ms : List WideMember) : List WideMember :=
  let before := ms.takeWhile (·.isAccessor)
  match ms.dropWhile (·.isAccessor) with
  | [] => before
  | first :: rest => before ++ first :: reference first.name :: rest

/-- The members of a flat struct as members of a container in which it stands at `base`. -/
def promoteAll (child : WideStruct) (outer : Option String) (base source : Nat) :
    List WideMember := child.members.map fun m => m.promote outer base source

/-- The members that a nested struct contributes. -/
def nestedMembers (o : Options) (f : FieldDecl) (child : WideStruct) (source offset : Nat) :
    List WideMember :=
  match child.fields with
  | [] => []
  | first :: _ =>
    let reference := fun base => .accessor (refName f.name) base f offset source .nestedAccessor
    if f.markers.anonymous || child.markers.anonymous then promoteAll child none offset source
    else if o.inlineNested then
      insertReference reference (promoteAll child (some f.name) offset source)
    else
      [⟨startName f.name, first.type, offset, child.extent.size, first.fixedCount, .nestedStart,
          f.modifiers, none, source⟩,
        reference (startName f.name)]

/-- Places a field whose type is a struct. -/
def placeNested (p : WidePlacement) (o : Options) (f : FieldDecl) (source : Nat)
    (child : WideStruct) (base : Nat) : Gauged WidePlaced := do
  let alignment := child.extent.alignment
  let offset ← p.align alignment base
  return ⟨offset, child.extent.size, p.add alignment (nestedMembers o f child source offset)⟩

/-- Places a field, given what it is made of and where it goes before it is aligned. -/
def place (p : WidePlacement) (o : Options) (f : FieldDecl) (source : Nat) (type : Binding)
    (element : WideElement) (base : Nat) : Gauged WidePlaced :=
  match f.fixedCount, element with
  | some count, element => p.placeBuffer f source count.toNat type.isBufferElement element base
  | none, .scalar size => p.placeScalar f source size base
  | none, .struct child => p.placeNested o f source child base

/-- Moves the end of the struct behind a field. -/
def advance (p : WidePlacement) (offset size : Nat) : Gauged WidePlacement := do
  let fieldEnd ← .gauge (offset + size)
  return if p.overlapping && fieldEnd < p.size then p else { p with size := fieldEnd }

/-- Refuses two members with one name. -/
def checkNames (p : WidePlacement) : Except LayoutError Unit :=
  match Placement.firstRepeated [] (p.members.map (·.name)) with
  | some name => .error (.duplicateMember p.name name)
  | none => .ok ()

/-- What the struct takes: all bytes, padded if that is asked for, and at least the size that its
author wrote. -/
def finish (p : WidePlacement) (padTrailing : Bool) : Gauged Extent := do
  let size ← if padTrailing then p.align p.largest p.size else pure p.size
  return ⟨max size p.rule.size.toNat, p.largest⟩

end WidePlacement

/-! ### Structs -/

section

variable (c : Catalog) (o : Options) (child : QualName → Except LayoutError WideStruct)

/-- What a field of a type is made of. `child` answers for the structs it contains. -/
def wideElement : Binding → Except LayoutError WideElement
  | .pointer _ => .ok (.scalar o.pointerWidth.toNat)
  | .primitive p => .ok (.scalar (p.size o.pointerWidth).toNat)
  | .enum _ p => .ok (.scalar (p.size o.pointerWidth).toNat)
  | .struct key => do return .struct (← child key)
  | .managed name => .error (.managedType name)

/-- Takes one step in placing the fields of the struct `scope`. -/
def placeWide (scope : QualName) (p : WidePlacement) : Slot → Gauged WidePlacement
  | .field f source => do
    let type ← .ofExcept (c.bind f.type scope)
    let base ← .ofExcept (p.baseOffset f)
    let element ← .ofExcept (wideElement o child type)
    let placed ← p.place o f source type element base
    placed.placement.advance placed.offset placed.size
  | .groupedBuffer f => .ofExcept (.error (.groupedBuffer f.names p.name))
  | .conditional symbol => .ofExcept (.error (.conditionalBlock symbol p.name))

/-- Lays out a struct. `child` answers for the structs it contains. -/
def layoutWide (key : QualName) (s : StructDecl) : Gauged WideStruct := do
  let rule ← .ofExcept (LayoutRule.ofAttr s.name s.layout)
  let p ← s.slots.foldlM (placeWide c o child key) (.start s.name rule s.markers.union)
  .ofExcept p.checkNames
  let extent ← p.finish o.padTrailing
  return ⟨key, s.markers, extent, p.members⟩

end

namespace Catalog

/-- Flattening a struct without a limit while the structs `pending` are under way. -/
def flattenWideUnder (c : Catalog) (o : Options) :
    Nat → List QualName → QualName → Gauged WideStruct
  | 0, _, key => .ofExcept (.error (.cyclicLayout key))
  | fuel + 1, pending, key =>
    if pending.contains key then .ofExcept (.error (.cyclicLayout key))
    else do
      let s ← .ofExcept (c.declaration key)
      layoutWide c o (fun d => (flattenWideUnder c o fuel (key :: pending) d).answer) key s

/-- Flattening a struct without a limit while none is under way. -/
def flattenWide (c : Catalog) (o : Options) (key : QualName) : Gauged WideStruct :=
  c.flattenWideUnder o (c.structs.length + 1) [] key

end Catalog

/-! ### Going further

A struct that is met inside of others may be refused as cyclic in the middle of its run. On its own
it gets at least as far. -/

section

variable {c : Catalog} {o : Options} {child child' : QualName → Except LayoutError WideStruct}

theorem wideElement_mono (h : ∀ d a, child d = .ok a → child' d = .ok a) {type : Binding}
    {element : WideElement} (he : wideElement o child type = .ok element) :
    wideElement o child' type = .ok element := by
  cases type with
  | struct d =>
    obtain ⟨flat, hflat, he⟩ := bind_eq_ok he
    simp only [wideElement, h d flat hflat]
    exact he
  | primitive p => exact he
  | pointer t => exact he
  | enum k p => exact he
  | managed name => exact he

theorem prefix_placeWide (h : ∀ d a, child d = .ok a → child' d = .ok a) (key : QualName)
    (p : WidePlacement) (slot : Slot) :
    Gauged.Prefix (placeWide c o child key p slot) (placeWide c o child' key p slot) := by
  cases slot with
  | groupedBuffer f => exact .refl _
  | conditional symbol => exact .refl _
  | field f source =>
    refine .bind (.refl _) fun type => .bind (.refl _) fun base => ?_
    exact .bind (.ofExcept fun _ => wideElement_mono h) fun element => .refl _

theorem prefix_placeWides (h : ∀ d a, child d = .ok a → child' d = .ok a) (key : QualName)
    (slots : List Slot) (p : WidePlacement) :
    Gauged.Prefix (slots.foldlM (placeWide c o child key) p)
      (slots.foldlM (placeWide c o child' key) p) := by
  induction slots generalizing p with
  | nil => exact .refl _
  | cons slot slots ih =>
    rw [List.foldlM_cons, List.foldlM_cons]
    exact .bind (prefix_placeWide h key p slot) ih

theorem prefix_layoutWide (h : ∀ d a, child d = .ok a → child' d = .ok a) (key : QualName)
    (s : StructDecl) :
    Gauged.Prefix (layoutWide c o child key s) (layoutWide c o child' key s) :=
  .bind (.refl _) fun _ => .bind (prefix_placeWides h key _ _) fun _ => .refl _

/-- **With more fuel and fewer structs under way** flattening goes at least as far. -/
theorem Catalog.prefix_flattenWideUnder {m n : Nat} {pending fewer : List QualName}
    (hmn : m ≤ n) (hsub : fewer ⊆ pending) (key : QualName) :
    Gauged.Prefix (c.flattenWideUnder o m pending key) (c.flattenWideUnder o n fewer key) := by
  induction m generalizing n pending fewer key with
  | zero => exact .failed _ _
  | succ m ih =>
    obtain ⟨n, rfl⟩ : ∃ n', n = n' + 1 := ⟨n - 1, by omega⟩
    rw [flattenWideUnder, flattenWideUnder]
    by_cases hkey : pending.contains key = true
    · rw [if_pos hkey]
      exact .failed _ _
    · have hfewer : ¬ fewer.contains key = true := by
        simp only [List.contains_iff_mem] at hkey ⊢
        exact fun h => hkey (hsub h)
      rw [if_neg hkey, if_neg hfewer]
      refine .bind (.refl _) fun s => prefix_layoutWide (fun d a ha => ?_) key s
      rw [(ih (by omega) (List.cons_subset_cons key hsub) d).same a ha]
      exact ha

end

end FlatLayout
