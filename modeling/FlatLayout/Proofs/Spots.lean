import FlatLayout.Proofs.Steps

/-!
# Fields and their spots

One struct is laid out by giving its fields their spots, one after the other. Here this is a
function, without a workbench: `child` says what flattening a contained struct answers, and nothing
is reported. Besides the flat struct it gives the spots, which the workbench only keeps summed up in
its `Placement`.

A step at a placement has exactly one shape, `SpotStep`, and a struct is a run of such steps. What
is preserved from field to field is proved once for a step and then, by induction on the run, for
the struct; nothing below unfolds `Placement.place` again.

## Main definitions

* `Spot` — a field with its place and with what it contributes
* `layoutFrom` — the spots of the fields of a struct, and the flat struct
* `SpotStep`, `SpotRun`, `Laid` — what one field, all fields, and the whole struct come to

## Main results

* `computes_layoutStruct` — at a workbench the same is answered
* `laid_of_layoutFrom` — every success of `layoutFrom` is a run of steps
* `layoutFrom_of_spotRun` — every run of steps is a success of `layoutFrom`
* `layoutFrom_mono` — a success does not depend on structs that were not asked for
-/

namespace FlatLayout

/-- A field with the place it was given. -/
structure Spot where
  decl : FieldDecl
  source : Nat
  type : Binding
  element : Element
  offset : UInt32
  size : UInt32
  /-- What the field contributes to the flat struct. -/
  members : List PlacedMember

/-- The step that the spot answers. -/
def Spot.slot (t : Spot) : Slot := .field t.decl t.source

/-- The alignment that an element asks for. -/
def Element.alignment : Element → UInt32
  | .scalar size => size
  | .struct flat => flat.footprint.alignment

section

variable (c : Catalog) (o : Options) (child : QualName → Except LayoutError FlatStruct)

/-- What a field of a type is made of. `child` answers for the structs it contains. -/
def elementFrom : Binding → Except LayoutError Element
  | .pointer _ => .ok (.scalar o.pointerWidth)
  | .primitive p => .ok (.scalar (p.size o.pointerWidth))
  | .enum _ p => .ok (.scalar (p.size o.pointerWidth))
  | .struct key => do return .struct (← child key)
  | .managed name => .error (.managedType name)

variable (key : QualName)

/-- The spot of a field of the struct `key`, and the placement behind it. -/
def spotFor (p : Placement) (f : FieldDecl) (source : Nat) :
    Except LayoutError (Spot × Placement) := do
  let type ← c.bind f.type key
  let base ← p.baseOffset f
  let element ← elementFrom o child type
  let placed ← p.place o f source type element base
  let next ← placed.placement.advance placed.offset placed.size
  let members := placed.placement.members.drop p.members.length
  return (⟨f, source, type, element, placed.offset, placed.size, members⟩, next)

/-- The spots of some fields, in order. -/
def spotsFor : Placement → List Slot → Except LayoutError (List Spot × Placement)
  | p, [] => .ok ([], p)
  | p, .field f source :: slots => do
    let (t, q) ← spotFor c o child key p f source
    let (ts, r) ← spotsFor q slots
    return (t :: ts, r)
  | p, .groupedBuffer f :: _ => .error (.groupedBuffer f.names p.name)
  | p, .conditional symbol :: _ => .error (.conditionalBlock symbol p.name)

/-- The spots of the fields of a struct, and the flat struct. -/
def layoutFrom (s : StructDecl) : Except LayoutError (List Spot × FlatStruct) := do
  let rule ← LayoutRule.ofAttr s.name s.layout
  let (ts, p) ← spotsFor c o child key (.start s.name rule s.markers.union) s.slots
  p.checkNames
  let footprint ← p.finish o.padTrailing
  return (ts, ⟨key, s.markers, s.withPlaced p.members footprint.size, footprint, p.members⟩)

end

/-! ### The same at a workbench -/

section

variable {c : Catalog} {o : Options} {child : QualName → Bench FlatStruct}
  {child' : QualName → Except LayoutError FlatStruct} {I : Workbench → Prop} {key : QualName}

theorem map_snd_spotFor (p : Placement) (f : FieldDecl) (source : Nat) :
    (spotFor c o child' key p f source).map Prod.snd = (do
      let type ← c.bind f.type key
      let base ← p.baseOffset f
      let element ← elementFrom o child' type
      let placed ← p.place o f source type element base
      placed.placement.advance placed.offset placed.size) := by
  unfold spotFor
  cases c.bind f.type key with
  | error e => rfl
  | ok type =>
    cases p.baseOffset f with
    | error e => rfl
    | ok base =>
      simp only [bind, Except.bind]
      cases elementFrom o child' type with
      | error e => rfl
      | ok element =>
        simp only
        cases p.place o f source type element base with
        | error e => rfl
        | ok placed =>
          simp only
          cases placed.placement.advance placed.offset placed.size <;> rfl

theorem map_snd_spotsFor_cons (p : Placement) (f : FieldDecl) (source : Nat) (slots : List Slot) :
    (spotsFor c o child' key p (.field f source :: slots)).map Prod.snd =
      (spotFor c o child' key p f source).map Prod.snd >>= fun q =>
        (spotsFor c o child' key q slots).map Prod.snd := by
  rw [spotsFor]
  simp only [bind, Except.bind]
  cases spotFor c o child' key p f source with
  | error e => rfl
  | ok t =>
    simp only [Except.map]
    cases spotsFor c o child' key t.2 slots <;> rfl

theorem map_snd_layoutFrom (s : StructDecl) :
    (layoutFrom c o child' key s).map Prod.snd = (do
      let rule ← LayoutRule.ofAttr s.name s.layout
      let p ← (spotsFor c o child' key (.start s.name rule s.markers.union) s.slots).map Prod.snd
      p.checkNames
      let footprint ← p.finish o.padTrailing
      return ⟨key, s.markers, s.withPlaced p.members footprint.size, footprint, p.members⟩) := by
  unfold layoutFrom
  cases LayoutRule.ofAttr s.name s.layout with
  | error e => rfl
  | ok rule =>
    simp only [bind, Except.bind]
    cases spotsFor c o child' key (.start s.name rule s.markers.union) s.slots with
    | error e => rfl
    | ok r =>
      simp only [Except.map]
      cases r.2.checkNames with
      | error e => rfl
      | ok u =>
        simp only
        cases r.2.finish o.padTrailing <;> rfl

theorem computes_elementOf {type : Binding}
    (h : ∀ k, type = .struct k → Computes I (child k) (child' k)) :
    Computes I (elementOf o child type) (elementFrom o child' type) := by
  cases type with
  | primitive p => exact .pure _
  | pointer t => exact .pure _
  | enum k p => exact .pure _
  | struct k => exact .bind (h k rfl) fun a _ => .pure _
  | managed name => exact .throw _

theorem computes_noteEmpty (hI : Bench.Silent I) (p : Placement) (f : FieldDecl) (e : Element) :
    Computes I (noteEmpty p f e) (.ok ()) := by
  cases e with
  | scalar size => exact .pure _
  | struct flat =>
    simp only [noteEmpty]
    split
    · exact Bench.computes_note hI _ _ _
    · exact .pure _

theorem computes_placeField (hI : Bench.Silent I) {f : FieldDecl}
    (h : ∀ k, c.bind f.type key = .ok (.struct k) → Computes I (child k) (child' k))
    (p : Placement) (source : Nat) :
    Computes I (placeField c o child key p f source)
      ((spotFor c o child' key p f source).map Prod.snd) := by
  rw [map_snd_spotFor]
  refine .bind (Bench.computes_ofExcept I _) fun type htype => ?_
  refine .bind (Bench.computes_ofExcept I _) fun base _ => ?_
  refine .bind (computes_elementOf fun k hk => h k (hk ▸ htype)) fun element _ => ?_
  refine .bind (Bench.computes_ofExcept I _) fun placed _ => ?_
  refine .after (computes_noteEmpty hI p f element) ?_
  exact .after (Bench.computes_note hI _ _ _) (Bench.computes_ofExcept I _)

theorem computes_placeSlots (hI : Bench.Silent I) (slots : List Slot)
    (h : ∀ f source k, Slot.field f source ∈ slots → c.bind f.type key = .ok (.struct k) →
      Computes I (child k) (child' k)) (p : Placement) :
    Computes I (slots.foldlM (placeSlot c o child key) p)
      ((spotsFor c o child' key p slots).map Prod.snd) := by
  induction slots generalizing p with
  | nil => exact .pure _
  | cons slot slots ih =>
    rw [List.foldlM_cons]
    have ih := ih fun f source k hf => h f source k (List.mem_cons_of_mem _ hf)
    cases slot with
    | groupedBuffer f => exact .throw_bind _
    | conditional symbol => exact .throw_bind _
    | field f source =>
      rw [map_snd_spotsFor_cons]
      refine .bind (computes_placeField hI (fun k => ?_) p source) fun q _ => ih q
      exact h f source k List.mem_cons_self

/-- **Laying out a struct at a workbench** answers what `layoutFrom` says, if the contained structs
are answered for. -/
theorem computes_layoutStruct (hI : Bench.Silent I) {s : StructDecl}
    (h : ∀ f source k, Slot.field f source ∈ s.slots → c.bind f.type key = .ok (.struct k) →
      Computes I (child k) (child' k)) :
    Computes I (layoutStruct c o child key s) ((layoutFrom c o child' key s).map Prod.snd) := by
  rw [map_snd_layoutFrom]
  refine .bind (Bench.computes_ofExcept I _) fun rule _ => ?_
  refine .after (Bench.computes_note hI _ _ _) ?_
  refine .bind (computes_placeSlots hI _ h _) fun p _ => ?_
  refine .bind (Bench.computes_ofExcept I _) fun _ _ => ?_
  refine .bind (Bench.computes_ofExcept I _) fun footprint _ => ?_
  exact .after (Bench.computes_note hI _ _ _) (.pure _)

end

/-! ### What one step comes to -/

/-- What a field contributes, by what it is made of. -/
inductive Spot.Filled (o : Options) (role : Role) (t : Spot) : Prop
  | scalar (count : t.decl.fixedCount = none) (element : t.element = .scalar t.size)
      (members : t.members = [.ofField t.decl t.source t.offset t.size role])
  /-- A buffer that is declared as it is. -/
  | native (count size : UInt32) (counted : t.decl.fixedCount = some count)
      (element : t.element = .scalar size) (native : t.type.isBufferElement = true)
      (sized : t.size.toNat = size.toNat * count.toNat)
      (members : t.members = [.ofField t.decl t.source t.offset t.size role])
  /-- A buffer that is declared as its first element with an accessor. -/
  | started (count size : UInt32) (counted : t.decl.fixedCount = some count)
      (element : t.element = .scalar size) (native : t.type.isBufferElement = false)
      (sized : t.size.toNat = size.toNat * count.toNat)
      (members : t.members =
        [{ PlacedMember.ofField t.decl t.source t.offset t.size .bufferStart with
            name := startName t.decl.name, fixedCount := none },
          .bufferAccessor t.decl (startName t.decl.name) t.offset t.source])
  | nested (flat : FlatStruct) (count : t.decl.fixedCount = none)
      (element : t.element = .struct flat) (size : t.size = flat.footprint.size)
      (members : Placement.nestedMembers o t.decl flat t.source t.offset = some t.members)

/-- What it means that a field of the struct `key` has the spot `t` at the placement `p`, and that
the placement is `q` afterwards. -/
structure SpotStep (c : Catalog) (o : Options) (child : QualName → Except LayoutError FlatStruct)
    (key : QualName) (p : Placement) (t : Spot) (q : Placement) : Prop where
  bound : c.bind t.decl.type key = .ok t.type
  made : elementFrom o child t.type = .ok t.element
  aligned : ∃ base, p.baseOffset t.decl = .ok base ∧
    p.align t.element.alignment base = .ok t.offset
  filled : t.Filled o p.plainRole
  advanced : (p.add t.element.alignment t.members).advance t.offset t.size = .ok q

/-- One step after the other. -/
inductive SpotRun (c : Catalog) (o : Options) (child : QualName → Except LayoutError FlatStruct)
    (key : QualName) : Placement → List Spot → Placement → Prop
  | nil (p : Placement) : SpotRun c o child key p [] p
  | cons {p q r : Placement} {t : Spot} {ts : List Spot} (first : SpotStep c o child key p t q)
      (rest : SpotRun c o child key q ts r) : SpotRun c o child key p (t :: ts) r

/-- What it means that the struct `key` is laid out: its fields have the spots `ts`, in this order,
and `f` is made of what they contribute. -/
structure Laid (c : Catalog) (o : Options) (child : QualName → Except LayoutError FlatStruct)
    (key : QualName) (s : StructDecl) (rule : LayoutRule) (ts : List Spot) (p : Placement)
    (f : FlatStruct) : Prop where
  computed : layoutFrom c o child key s = .ok (ts, f)
  ruled : LayoutRule.ofAttr s.name s.layout = .ok rule
  slots : s.slots = ts.map Spot.slot
  run : SpotRun c o child key (.start s.name rule s.markers.union) ts p
  names : p.checkNames = .ok ()
  finished : p.finish o.padTrailing = .ok f.footprint
  flat : f = ⟨key, s.markers, s.withPlaced p.members f.footprint.size, f.footprint, p.members⟩

theorem bind_eq_ok {ε α β : Type} {x : Except ε α} {f : α → Except ε β} {b : β}
    (h : x >>= f = .ok b) : ∃ a, x = .ok a ∧ f a = .ok b := by
  cases x with
  | error e => cases h
  | ok a => exact ⟨a, rfl, h⟩

section

variable {c : Catalog} {o : Options} {child : QualName → Except LayoutError FlatStruct}
  {key : QualName}

@[simp] theorem drop_members_add (p : Placement) (alignment : UInt32) (ms : List PlacedMember) :
    (p.add alignment ms).members.drop p.members.length = ms := by
  simp [Placement.add]

/-- What `Placement.place` does, by what the field is made of. -/
theorem filled_of_place {p : Placement} {t : Spot} {base : UInt32} {placed : Placed}
    (h : p.place o t.decl t.source t.type t.element base = .ok placed)
    (hoffset : t.offset = placed.offset) (hsize : t.size = placed.size)
    (hmembers : t.members = placed.placement.members.drop p.members.length) :
    p.align t.element.alignment base = .ok t.offset ∧ t.Filled o p.plainRole ∧
      placed.placement = p.add t.element.alignment t.members := by
  obtain ⟨f, source, type, element, offset, size, members⟩ := t
  simp only at h hoffset hsize hmembers ⊢
  subst hoffset hsize hmembers
  cases hcount : f.fixedCount with
  | some count =>
    cases element with
    | struct flat => simp [Placement.place, hcount, Placement.placeBuffer] at h
    | scalar elementSize =>
      simp only [Placement.place, hcount, Placement.placeBuffer] at h
      split at h
      · cases h
      next total hmul =>
        obtain ⟨offset, halign, h⟩ := bind_eq_ok h
        cases h
        rw [Word.mulChecked_eq_some_iff] at hmul
        refine ⟨halign, ?_, by rw [drop_members_add]; rfl⟩
        cases hnative : type.isBufferElement with
        | true =>
          exact .native count elementSize hcount rfl hnative hmul
            (by simp [Placement.bufferMembers])
        | false =>
          exact .started count elementSize hcount rfl hnative hmul
            (by simp [Placement.bufferMembers])
  | none =>
    cases element with
    | scalar elementSize =>
      simp only [Placement.place, hcount] at h
      obtain ⟨offset, halign, h⟩ := bind_eq_ok h
      cases h
      exact ⟨halign, .scalar hcount rfl (drop_members_add ..), by rw [drop_members_add]; rfl⟩
    | struct flat =>
      simp only [Placement.place, hcount] at h
      obtain ⟨offset, halign, h⟩ := bind_eq_ok h
      split at h
      next ms hms =>
        cases h
        exact ⟨halign, .nested flat hcount rfl rfl (by rw [hms, drop_members_add]),
          by rw [drop_members_add]; rfl⟩
      · cases h

theorem spotStep_of_spotFor {p q : Placement} {f : FieldDecl} {source : Nat} {t : Spot}
    (h : spotFor c o child key p f source = .ok (t, q)) :
    t.slot = .field f source ∧ SpotStep c o child key p t q := by
  obtain ⟨type, htype, h⟩ := bind_eq_ok h
  obtain ⟨base, hbase, h⟩ := bind_eq_ok h
  obtain ⟨element, helement, h⟩ := bind_eq_ok h
  obtain ⟨placed, hplaced, h⟩ := bind_eq_ok h
  obtain ⟨next, hnext, h⟩ := bind_eq_ok h
  obtain ⟨rfl, rfl⟩ := Prod.mk.inj (Except.ok.inj h)
  obtain ⟨halign, hfilled, hplacement⟩ := filled_of_place
    (t := ⟨f, source, type, element, placed.offset, placed.size, _⟩) hplaced rfl rfl rfl
  exact ⟨rfl, htype, helement, ⟨base, hbase, halign⟩, hfilled, hplacement ▸ hnext⟩

theorem spotRun_of_spotsFor {slots : List Slot} {p q : Placement} {ts : List Spot}
    (h : spotsFor c o child key p slots = .ok (ts, q)) :
    slots = ts.map Spot.slot ∧ SpotRun c o child key p ts q := by
  induction slots generalizing p ts with
  | nil =>
    obtain ⟨rfl, rfl⟩ := Prod.mk.inj (Except.ok.inj h)
    exact ⟨rfl, .nil p⟩
  | cons slot slots ih =>
    cases slot with
    | groupedBuffer f => cases h
    | conditional symbol => cases h
    | field f source =>
      obtain ⟨⟨t, r⟩, ht, h⟩ := bind_eq_ok h
      obtain ⟨⟨rest, q'⟩, hrest, h⟩ := bind_eq_ok h
      obtain ⟨rfl, rfl⟩ := Prod.mk.inj (Except.ok.inj h)
      obtain ⟨hslot, hstep⟩ := spotStep_of_spotFor ht
      obtain ⟨hslots, hrun⟩ := ih hrest
      exact ⟨by rw [List.map_cons, hslot, ← hslots], .cons hstep hrun⟩

/-- **Every struct that is laid out** is a run of steps. -/
theorem laid_of_layoutFrom {s : StructDecl} {ts : List Spot} {f : FlatStruct}
    (h : layoutFrom c o child key s = .ok (ts, f)) :
    ∃ rule p, Laid c o child key s rule ts p f := by
  have computed := h
  obtain ⟨rule, hrule, h⟩ := bind_eq_ok h
  obtain ⟨⟨ts', p⟩, hts, h⟩ := bind_eq_ok h
  obtain ⟨u, hnames, h⟩ := bind_eq_ok h
  obtain ⟨footprint, hfinish, h⟩ := bind_eq_ok h
  obtain ⟨rfl, rfl⟩ := Prod.mk.inj (Except.ok.inj h)
  obtain ⟨hslots, hrun⟩ := spotRun_of_spotsFor hts
  exact ⟨rule, p, computed, hrule, hslots, hrun, hnames, hfinish, rfl⟩

/-! ### What is asked for

Only the structs that the fields of a struct are bound to are asked for, and a struct is laid out
only if all of them are answered for. -/

theorem made_struct {type : Binding} {element : Element} {d : QualName}
    (h : elementFrom o child type = .ok element) (htype : type = .struct d) :
    ∃ flat, child d = .ok flat ∧ element = .struct flat := by
  subst htype
  obtain ⟨flat, hflat, h⟩ := bind_eq_ok h
  exact ⟨flat, hflat, (Except.ok.inj h).symm⟩

theorem made_scalar {type : Binding} {size : UInt32}
    (h : elementFrom o child type = .ok (.scalar size)) (d : QualName) : type ≠ .struct d := by
  intro htype
  obtain ⟨flat, -, hflat⟩ := made_struct h htype
  cases hflat

theorem exists_struct_of_made {type : Binding} {flat : FlatStruct}
    (h : elementFrom o child type = .ok (.struct flat)) :
    ∃ d, type = .struct d ∧ child d = .ok flat := by
  cases type with
  | struct d =>
    obtain ⟨flat', hflat, h⟩ := bind_eq_ok h
    obtain rfl := Element.struct.inj (Except.ok.inj h)
    exact ⟨d, rfl, hflat⟩
  | primitive p => cases h
  | pointer t => cases h
  | enum k p => cases h
  | managed name => cases h

/-- Every spot of a run is the spot of one of its steps. -/
theorem SpotRun.exists_step {p q : Placement} {ts : List Spot} (h : SpotRun c o child key p ts q)
    {t : Spot} (ht : t ∈ ts) : ∃ p q, SpotStep c o child key p t q := by
  induction h with
  | nil p => cases ht
  | cons first rest ih =>
    rcases List.mem_cons.1 ht with rfl | ht
    · exact ⟨_, _, first⟩
    · exact ih ht

/-! ### What a run leaves behind -/

theorem Placement.advance_eq_ok {p q : Placement} {offset size : UInt32}
    (h : p.advance offset size = .ok q) :
    ∃ fieldEnd : UInt32, fieldEnd.toNat = offset.toNat + size.toNat ∧
      q = if p.overlapping && fieldEnd < p.size then p else { p with size := fieldEnd } := by
  unfold Placement.advance at h
  split at h
  · cases h
  next fieldEnd hend =>
    refine ⟨fieldEnd, Word.addChecked_eq_some_iff.1 hend, ?_⟩
    split at h
    next hsmaller => rw [if_pos hsmaller]; exact (Except.ok.inj h).symm
    next hgreater => rw [if_neg hgreater]; exact (Except.ok.inj h).symm

section

variable {p q : Placement} {t : Spot} {ts : List Spot}

/-- Moving the end of the struct changes nothing else. -/
theorem SpotStep.eq_add (h : SpotStep c o child key p t q) :
    q = { p.add t.element.alignment t.members with size := q.size } := by
  obtain ⟨fieldEnd, -, hq⟩ := Placement.advance_eq_ok h.advanced
  rw [hq]
  split <;> rfl

theorem SpotStep.members_eq (h : SpotStep c o child key p t q) :
    q.members = p.members ++ t.members := by
  rw [h.eq_add]
  rfl

theorem SpotStep.isUnion_eq (h : SpotStep c o child key p t q) : q.isUnion = p.isUnion := by
  rw [h.eq_add]
  rfl

theorem SpotStep.rule_eq (h : SpotStep c o child key p t q) : q.rule = p.rule := by
  rw [h.eq_add]
  rfl

theorem SpotStep.toNat_largest (h : SpotStep c o child key p t q) :
    q.largest.toNat = max p.largest.toNat t.element.alignment.toNat := by
  rw [h.eq_add]
  exact Word.toNat_greater

theorem SpotStep.toNat_size (h : SpotStep c o child key p t q) :
    q.size.toNat = if p.overlapping then max p.size.toNat (t.offset.toNat + t.size.toNat)
      else t.offset.toNat + t.size.toNat := by
  obtain ⟨fieldEnd, hend, rfl⟩ := Placement.advance_eq_ok h.advanced
  rw [← hend]
  have hover : (p.add t.element.alignment t.members).overlapping = p.overlapping := rfl
  have hsize : (p.add t.element.alignment t.members).size = p.size := rfl
  cases hp : p.overlapping with
  | false => simp [hover, hp]
  | true =>
    simp only [hover, hsize, hp, Bool.true_and, decide_eq_true_eq, UInt32.lt_iff_toNat_lt, if_true]
    split
    · rw [hsize]; omega
    · simp only; omega

/-- The rule and the kind of a struct are the same at every step. -/
theorem SpotRun.exists_step_within (h : SpotRun c o child key p ts q) (ht : t ∈ ts) :
    ∃ p' q', SpotStep c o child key p' t q' ∧ p'.rule = p.rule ∧ p'.isUnion = p.isUnion := by
  induction h with
  | nil p => cases ht
  | cons first rest ih =>
    rcases List.mem_cons.1 ht with rfl | ht
    · exact ⟨_, _, first, rfl, rfl⟩
    · obtain ⟨p', q', hstep, hrule, hunion⟩ := ih ht
      exact ⟨p', q', hstep, hrule.trans first.rule_eq, hunion.trans first.isUnion_eq⟩

theorem SpotRun.members_eq (h : SpotRun c o child key p ts q) :
    q.members = p.members ++ ts.flatMap Spot.members := by
  induction h with
  | nil p => simp
  | cons first rest ih => rw [ih, first.members_eq, List.flatMap_cons, List.append_assoc]

theorem SpotRun.rule_eq (h : SpotRun c o child key p ts q) : q.rule = p.rule := by
  induction h with
  | nil p => rfl
  | cons first rest ih => rw [ih, first.rule_eq]

theorem SpotRun.isUnion_eq (h : SpotRun c o child key p ts q) : q.isUnion = p.isUnion := by
  induction h with
  | nil p => rfl
  | cons first rest ih => rw [ih, first.isUnion_eq]

theorem Laid.members_eq {s : StructDecl} {rule : LayoutRule} {f : FlatStruct}
    (h : Laid c o child key s rule ts p f) : f.members = ts.flatMap Spot.members := by
  rw [h.flat, h.run.members_eq]
  rfl

theorem Laid.key_eq {s : StructDecl} {rule : LayoutRule} {f : FlatStruct}
    (h : Laid c o child key s rule ts p f) : f.key = key := by rw [h.flat]

theorem Laid.markers_eq {s : StructDecl} {rule : LayoutRule} {f : FlatStruct}
    (h : Laid c o child key s rule ts p f) : f.markers = s.markers := by rw [h.flat]

/-- The spots of a struct are those of its fields. -/
theorem Laid.field_mem_slots_iff {s : StructDecl} {rule : LayoutRule} {f : FlatStruct}
    (h : Laid c o child key s rule ts p f) {g : FieldDecl} {source : Nat} :
    Slot.field g source ∈ s.slots ↔ ∃ t ∈ ts, t.decl = g ∧ t.source = source := by
  rw [h.slots, List.mem_map]
  constructor
  · rintro ⟨t, ht, heq⟩
    obtain ⟨rfl, rfl⟩ := Slot.field.inj heq
    exact ⟨t, ht, rfl, rfl⟩
  · rintro ⟨t, ht, rfl, rfl⟩
    exact ⟨t, ht, rfl⟩

theorem Laid.bound {s : StructDecl} {rule : LayoutRule} {f : FlatStruct}
    (h : Laid c o child key s rule ts p f) (ht : t ∈ ts) :
    c.bind t.decl.type key = .ok t.type := by
  obtain ⟨p, q, hstep⟩ := h.run.exists_step ht
  exact hstep.bound

theorem nodup_of_firstRepeated {seen names : List String}
    (h : Placement.firstRepeated seen names = none) :
    names.Nodup ∧ ∀ n ∈ names, n ∉ seen := by
  induction names generalizing seen with
  | nil => exact ⟨List.nodup_nil, by simp⟩
  | cons n names ih =>
    rw [Placement.firstRepeated] at h
    split at h
    · cases h
    next hn =>
      obtain ⟨hnodup, hseen⟩ := ih h
      refine ⟨List.nodup_cons.2 ⟨fun hmem => hseen n hmem List.mem_cons_self, hnodup⟩, ?_⟩
      rintro k (_ | ⟨_, hk⟩)
      · simpa using hn
      · exact fun hmem => hseen k hk (List.mem_cons_of_mem _ hmem)

/-- No two members of a flat struct have one name. -/
theorem Laid.nodup {s : StructDecl} {rule : LayoutRule} {f : FlatStruct}
    (h : Laid c o child key s rule ts p f) : (f.members.map (·.name)).Nodup := by
  have hnames := h.names
  unfold Placement.checkNames at hnames
  split at hnames
  · cases hnames
  next hnone =>
    rw [h.flat]
    exact (nodup_of_firstRepeated hnone).1

end

/-! ### Every run is computed

The converse: a struct whose fields have spots, one step after the other, is laid out with these
spots. So a layout can be established by giving its run. -/

theorem place_of_filled {p : Placement} {t : Spot} {base : UInt32}
    (halign : p.align t.element.alignment base = .ok t.offset) (h : t.Filled o p.plainRole) :
    p.place o t.decl t.source t.type t.element base =
      .ok ⟨t.offset, t.size, p.add t.element.alignment t.members⟩ := by
  cases h with
  | scalar hcount helement hmembers =>
    rw [helement] at halign ⊢
    simp only [Placement.place, hcount, Placement.placeScalar, hmembers]
    rw [Element.alignment] at halign
    rw [halign]
    rfl
  | native count size hcount helement hnative hsized hmembers =>
    rw [helement] at halign ⊢
    simp only [Placement.place, hcount, Placement.placeBuffer, hmembers,
      Word.mulChecked_eq_some_iff.2 hsized, Placement.bufferMembers, hnative, if_true]
    rw [Element.alignment] at halign
    rw [halign]
    rfl
  | started count size hcount helement hnative hsized hmembers =>
    rw [helement] at halign ⊢
    simp only [Placement.place, hcount, Placement.placeBuffer, hmembers,
      Word.mulChecked_eq_some_iff.2 hsized, Placement.bufferMembers, hnative]
    rw [Element.alignment] at halign
    rw [halign]
    rfl
  | nested flat hcount helement hsize hmembers =>
    rw [helement] at halign ⊢
    simp only [Placement.place, hcount, Placement.placeNested]
    rw [Element.alignment] at halign
    rw [halign]
    simp only [bind, Except.bind, hmembers, hsize]
    rfl

theorem spotFor_of_spotStep {p q : Placement} {t : Spot} (h : SpotStep c o child key p t q) :
    spotFor c o child key p t.decl t.source = .ok (t, q) := by
  obtain ⟨base, hbase, halign⟩ := h.aligned
  simp only [spotFor, h.bound, hbase, h.made, place_of_filled halign h.filled, h.advanced, bind,
    Except.bind, drop_members_add]
  rfl

theorem spotsFor_of_spotRun {p q : Placement} {ts : List Spot} (h : SpotRun c o child key p ts q) :
    spotsFor c o child key p (ts.map Spot.slot) = .ok (ts, q) := by
  induction h with
  | nil p => rfl
  | cons first rest ih =>
    rw [List.map_cons, Spot.slot]
    simp only [spotsFor, spotFor_of_spotStep first, ih, bind, Except.bind]
    rfl

theorem firstRepeated_of_nodup {seen names : List String} (hnodup : names.Nodup)
    (hseen : ∀ n ∈ names, n ∉ seen) : Placement.firstRepeated seen names = none := by
  induction names generalizing seen with
  | nil => rfl
  | cons n names ih =>
    obtain ⟨hn, hnodup⟩ := List.nodup_cons.1 hnodup
    rw [Placement.firstRepeated, if_neg (by simpa using hseen n List.mem_cons_self)]
    refine ih hnodup fun k hk => ?_
    rintro (_ | ⟨_, hmem⟩)
    · exact hn hk
    · exact hseen k (List.mem_cons_of_mem _ hk) hmem

/-- **Every run of steps** lays a struct out, if no name is repeated and its end is a word. -/
theorem layoutFrom_of_spotRun {s : StructDecl} {rule : LayoutRule} {ts : List Spot} {p : Placement}
    {footprint : Footprint} (hrule : LayoutRule.ofAttr s.name s.layout = .ok rule)
    (hslots : s.slots = ts.map Spot.slot)
    (hrun : SpotRun c o child key (.start s.name rule s.markers.union) ts p)
    (hnodup : (p.members.map (·.name)).Nodup) (hfinish : p.finish o.padTrailing = .ok footprint) :
    layoutFrom c o child key s = .ok (ts, ⟨key, s.markers, s.withPlaced p.members footprint.size,
      footprint, p.members⟩) := by
  have hnames : p.checkNames = .ok () := by
    rw [Placement.checkNames, firstRepeated_of_nodup hnodup (by simp)]
  simp only [layoutFrom, hrule, hslots, spotsFor_of_spotRun hrun, hnames, hfinish, bind,
    Except.bind]
  rfl

/-! ### Asking for more -/

variable {child' : QualName → Except LayoutError FlatStruct}

theorem elementFrom_mono {type : Binding} {element : Element}
    (hchild : ∀ k, type = .struct k → ∀ g, child k = .ok g → child' k = .ok g)
    (h : elementFrom o child type = .ok element) : elementFrom o child' type = .ok element := by
  cases type with
  | struct k =>
    obtain ⟨flat, hflat, h⟩ := bind_eq_ok h
    simp only [elementFrom, hchild k rfl flat hflat]
    exact h
  | primitive p => exact h
  | pointer t => exact h
  | enum k p => exact h
  | managed name => exact h

theorem spotFor_mono {p : Placement} {f : FieldDecl} {source : Nat} {r : Spot × Placement}
    (hchild : ∀ k, c.bind f.type key = .ok (.struct k) → ∀ g, child k = .ok g → child' k = .ok g)
    (h : spotFor c o child key p f source = .ok r) :
    spotFor c o child' key p f source = .ok r := by
  obtain ⟨type, htype, h⟩ := bind_eq_ok h
  obtain ⟨base, hbase, h⟩ := bind_eq_ok h
  obtain ⟨element, helement, h⟩ := bind_eq_ok h
  have helement' := elementFrom_mono (fun k hk => hchild k (hk ▸ htype)) helement
  simp only [spotFor, htype, hbase, helement', bind, Except.bind]
  exact h

theorem spotsFor_mono {slots : List Slot} {p : Placement} {r : List Spot × Placement}
    (hchild : ∀ f source k, Slot.field f source ∈ slots → c.bind f.type key = .ok (.struct k) →
      ∀ g, child k = .ok g → child' k = .ok g)
    (h : spotsFor c o child key p slots = .ok r) : spotsFor c o child' key p slots = .ok r := by
  induction slots generalizing p r with
  | nil => exact h
  | cons slot slots ih =>
    cases slot with
    | groupedBuffer f => cases h
    | conditional symbol => cases h
    | field f source =>
      obtain ⟨⟨t, q⟩, ht, h⟩ := bind_eq_ok h
      obtain ⟨⟨ts, q'⟩, hts, h⟩ := bind_eq_ok h
      have ht' := spotFor_mono (fun k => hchild f source k List.mem_cons_self) ht
      have hts' := ih (fun f source k hf => hchild f source k (List.mem_cons_of_mem _ hf)) hts
      simp only [spotsFor, ht', hts', bind, Except.bind]
      exact h

theorem layoutFrom_mono {s : StructDecl} {r : List Spot × FlatStruct}
    (hchild : ∀ f source k, Slot.field f source ∈ s.slots → c.bind f.type key = .ok (.struct k) →
      ∀ g, child k = .ok g → child' k = .ok g)
    (h : layoutFrom c o child key s = .ok r) : layoutFrom c o child' key s = .ok r := by
  obtain ⟨rule, hrule, h⟩ := bind_eq_ok h
  obtain ⟨⟨ts, p⟩, hts, h⟩ := bind_eq_ok h
  simp only [layoutFrom, hrule, spotsFor_mono hchild hts, bind, Except.bind]
  exact h

end

end FlatLayout
