import FlatLayout.Proofs.ExactLayout
import FlatLayout.Proofs.Resemblance

/-!
# The order of fields that may share bytes

In a union all fields stand at the front, and in an explicit struct each one stands where its author
put it. Where fields may share bytes in this way, no field has an effect on the place of another.
The end of the struct is the greatest end of its fields, its alignment the greatest of theirs, and
names are compared without regard to their order. So the members of such a struct may be declared in
any order.

What changes with the order is the number of the declaration that a placed member was made from, and
with it the order of the placed members. The first of them gives its name to the accessor of the
struct where it is nested, so the containers of the struct are not looked at here.

## How the steps are exchanged

A step that can be taken at one placement can be taken at every other one with the same rule. Hence
a list of steps, each of which can be taken somewhere, is a run in any order, and it is enough to
compare the ends of two runs.

## Main definitions

* `StructDecl.Overlapping` — fields may share bytes
* `StructDecl.Reordered` — the members are declared in another order
* `FlatStruct.SameLayout` — flat structs that differ in their declarations only
* `Catalog.ReorderedAt` — two catalogs, in one of which a struct has its members in another order

## Main results

* `SpotStep.again` — a step can be taken at another placement
* `Laid.reordered` — one struct with its members in another order
* `Catalog.ReorderedAt.exists_answer` — the same in two catalogs
-/

namespace FlatLayout

open Relation

/-! ### Where a member was made -/

/-- The member, made from another member of the declaration. -/
def PlacedMember.withSource (m : PlacedMember) (i : Nat) : PlacedMember := { m with source := i }

/-- The field and all that it contributes, made from another member of the declaration. -/
def Spot.withSource (t : Spot) (i : Nat) : Spot :=
  { t with source := i, members := t.members.map (·.withSource i) }

section

variable {child : FlatStruct} {outer : Option String} {base offset : UInt32} {i j : Nat}
  {ms : List PlacedMember}

theorem promote_withSource (m : PlacedMember) (outer : Option String) (base : UInt32) (i j : Nat) :
    m.promote outer base j = (m.promote outer base i).map (·.withSource j) := by
  rw [PlacedMember.promote, PlacedMember.promote, Option.map_map]
  rfl

theorem promoteAll_withSource (h : Placement.promoteAll child outer base i = some ms) (j : Nat) :
    Placement.promoteAll child outer base j = some (ms.map (·.withSource j)) := by
  unfold Placement.promoteAll at h ⊢
  generalize child.members = members at h ⊢
  induction members generalizing ms with
  | nil => cases h; rfl
  | cons m members ih =>
    rw [List.mapM_cons] at h ⊢
    obtain ⟨m', hm, h⟩ := Option.bind_eq_some_iff.1 h
    obtain ⟨rest, hrest, h⟩ := Option.bind_eq_some_iff.1 h
    cases h
    rw [promote_withSource m outer base i j, hm, ih hrest]
    rfl

theorem insertReference_withSource {reference reference' : String → PlacedMember}
    (h : ∀ name, reference' name = (reference name).withSource j) (ms : List PlacedMember) :
    Placement.insertReference reference' (ms.map (·.withSource j)) =
      (Placement.insertReference reference ms).map (·.withSource j) := by
  unfold Placement.insertReference
  have hsame : PlacedMember.isAccessor ∘ (PlacedMember.withSource · j) =
      PlacedMember.isAccessor := rfl
  rw [List.takeWhile_map, List.dropWhile_map, hsame]
  cases ms.dropWhile (·.isAccessor) with
  | nil => rfl
  | cons first rest =>
    simp only [List.map_cons, List.map_append, h]
    rfl

/-- What a nested struct contributes is the same, made from another member. -/
theorem nestedMembers_withSource {o : Options} {g : FieldDecl}
    (h : Placement.nestedMembers o g child i offset = some ms) (j : Nat) :
    Placement.nestedMembers o g child j offset = some (ms.map (·.withSource j)) := by
  unfold Placement.nestedMembers at h ⊢
  cases hfields : child.fields with
  | nil =>
    rw [hfields] at h
    cases h
    rfl
  | cons first rest =>
    rw [hfields] at h
    simp only at h ⊢
    split at h
    next hanonymous => rw [if_pos hanonymous]; exact promoteAll_withSource h j
    next hnamed =>
      rw [if_neg hnamed]
      split at h
      next hinline =>
        rw [if_pos hinline]
        obtain ⟨moved, hmoved, rfl⟩ := Option.map_eq_some_iff.1 h
        have hreference : ∀ name, PlacedMember.nestedAccessor g name offset j =
            (PlacedMember.nestedAccessor g name offset i).withSource j := fun _ => rfl
        rw [promoteAll_withSource hmoved j, Option.map_some,
          insertReference_withSource hreference]
      next hkept =>
        rw [if_neg hkept]
        cases h
        rfl

theorem Spot.Filled.withSource {o : Options} {role : Role} {t : Spot} (h : t.Filled o role)
    (i : Nat) : (t.withSource i).Filled o role := by
  cases h with
  | scalar hcount helement hmembers =>
    exact .scalar hcount helement (by rw [Spot.withSource, hmembers]; rfl)
  | native count size hcount helement hnative hsized hmembers =>
    exact .native count size hcount helement hnative hsized
      (by rw [Spot.withSource, hmembers]; rfl)
  | started count size hcount helement hnative hsized hmembers =>
    exact .started count size hcount helement hnative hsized
      (by rw [Spot.withSource, hmembers]; rfl)
  | nested flat hcount helement hsize hmembers =>
    exact .nested flat hcount helement hsize (nestedMembers_withSource hmembers i)

end

/-! ### Steps at other placements -/

section

variable {c : Catalog} {o : Options} {child : QualName → Except LayoutError FlatStruct}
  {key : QualName} {p p' q : Placement} {t : Spot} {ts us : List Spot}

theorem SpotStep.withSource (h : SpotStep c o child key p t q) (i : Nat) :
    ∃ q', SpotStep c o child key p (t.withSource i) q' := by
  have hlike : Placement.Like (p.add t.element.alignment t.members)
      (p.add t.element.alignment (t.withSource i).members) := ⟨rfl, rfl, rfl, rfl⟩
  obtain ⟨q', hadvanced, -⟩ := hlike.advance h.advanced
  exact ⟨q', h.bound, h.made, h.aligned, h.filled.withSource i, hadvanced⟩

/-- **A step can be taken at every placement** with the same rule, if fields may share bytes. -/
theorem SpotStep.again (h : SpotStep c o child key p t q) (hover : p.overlapping = true)
    (hrule : p'.rule = p.rule) (hunion : p'.isUnion = p.isUnion) :
    ∃ q', SpotStep c o child key p' t q' := by
  obtain ⟨base, hbase, halign⟩ := h.aligned
  have hbase' : p'.baseOffset t.decl = .ok base := by
    unfold Placement.baseOffset at hbase ⊢
    rw [hunion, hrule]
    by_cases hfront : p.isUnion = true
    · rwa [if_pos hfront] at hbase ⊢
    · have hexplicit : p.rule.isExplicit = true := (Bool.or_eq_true_iff.1 hover).resolve_left hfront
      rw [if_neg hfront, if_pos hexplicit] at hbase ⊢
      split at hbase
      · exact hbase
      · cases hbase
  have halign' : p'.align t.element.alignment base = .ok t.offset := by
    rw [Placement.align_eq_ok_iff] at halign ⊢
    rw [hrule]
    exact halign
  have hrole : p'.plainRole = p.plainRole := by
    rw [Placement.plainRole, Placement.plainRole, hunion]
  obtain ⟨fieldEnd, hend, -⟩ := Placement.advance_eq_ok h.advanced
  obtain ⟨q', hadvanced⟩ : ∃ q',
      (p'.add t.element.alignment t.members).advance t.offset t.size = .ok q' := by
    rw [Placement.advance, Word.addChecked_eq_some_iff.2 hend]
    simp only
    split
    · exact ⟨_, rfl⟩
    · exact ⟨_, rfl⟩
  exact ⟨q', h.bound, h.made, ⟨base, hbase', halign'⟩, hrole ▸ h.filled, hadvanced⟩

theorem SpotStep.overlapping_eq (h : SpotStep c o child key p t q) :
    q.overlapping = p.overlapping := by
  rw [Placement.overlapping, Placement.overlapping, h.isUnion_eq, h.rule_eq]

/-- Steps that can each be taken somewhere are a run, in whatever order they are listed. -/
theorem SpotRun.exists_of_steps (hover : p.overlapping = true)
    (hsteps : ∀ u ∈ us, ∃ p' q', SpotStep c o child key p' u q' ∧ p'.rule = p.rule ∧
      p'.isUnion = p.isUnion) : ∃ q, SpotRun c o child key p us q := by
  induction us generalizing p with
  | nil => exact ⟨p, .nil p⟩
  | cons u us ih =>
    obtain ⟨p', q', hstep, hrule, hunion⟩ := hsteps u List.mem_cons_self
    have hover' : p'.overlapping = true := by
      rw [Placement.overlapping, hrule, hunion]
      exact hover
    obtain ⟨r, hfirst⟩ := hstep.again hover' hrule.symm hunion.symm
    obtain ⟨q, hrest⟩ := ih (hfirst.overlapping_eq.trans hover) fun v hv => by
      obtain ⟨p'', q'', hstep, hrule, hunion⟩ := hsteps v (List.mem_cons_of_mem _ hv)
      exact ⟨p'', q'', hstep, hrule.trans hfirst.rule_eq.symm,
        hunion.trans hfirst.isUnion_eq.symm⟩
    exact ⟨q, .cons hfirst hrest⟩

end

namespace LayoutRule

variable {rule : LayoutRule} {isUnion : Bool} {gs gs' : List Piece}

/-- Where fields may share bytes, the end of the others is of no account. -/
theorem position_eq (hover : (isUnion || rule.isExplicit) = true) (stop stop' : Nat) (g : Piece) :
    rule.position isUnion stop g = rule.position isUnion stop' g := by
  unfold position
  cases isUnion with
  | true => rfl
  | false =>
    rw [Bool.false_or] at hover
    rw [hover]
    rfl

/-- The end of some fields that may share bytes does not depend on their order. -/
theorem stop_perm (hover : (isUnion || rule.isExplicit) = true) (h : gs.Perm gs') (start : Nat) :
    rule.stop isUnion start gs = rule.stop isUnion start gs' := by
  refine h.foldl_eq' (fun a _ b _ n => ?_) start
  simp only [stopBehind, if_pos hover]
  rw [position_eq hover (max n _) 0 b, position_eq hover (max n _) 0 a, position_eq hover n 0 b,
    position_eq hover n 0 a]
  omega

theorem largest_perm (h : gs.Perm gs') (start : Nat) : largest start gs = largest start gs' :=
  h.foldl_eq' (fun _ _ _ _ _ => by omega) start

end LayoutRule

/-- Two runs over the same fields end alike, if fields may share bytes. -/
theorem SpotRun.like_of_perm {c : Catalog} {o : Options}
    {child : QualName → Except LayoutError FlatStruct} {key : QualName} {p q q' : Placement}
    {ts us : List Spot} (h : SpotRun c o child key p ts q) (h' : SpotRun c o child key p us q')
    (hover : p.overlapping = true) (hpieces : (us.map Spot.piece).Perm (ts.map Spot.piece)) :
    q.Like q' := by
  obtain ⟨-, hsize, hlargest⟩ := h.exact
  obtain ⟨-, hsize', hlargest'⟩ := h'.exact
  refine ⟨h'.rule_eq.trans h.rule_eq.symm, ?_, ?_, ?_⟩
  · rw [h.isUnion_eq, h'.isUnion_eq]
  · rw [← UInt32.toNat_inj, hsize, hsize', LayoutRule.stop_perm hover hpieces]
  · rw [← UInt32.toNat_inj, hlargest, hlargest', LayoutRule.largest_perm hpieces]

/-! ### One struct -/

/-- The step, made from the first member of the declaration. -/
def Slot.unsourced : Slot → Slot
  | .field g _ => .field g 0
  | slot => slot

theorem Member.map_unsourced_slots (m : Member) (i : Nat) :
    (m.slots i).map Slot.unsourced = m.slots 0 := by
  cases m with
  | field g =>
    rw [slots, slots]
    split
    · rfl
    split
    · split
      · rfl
      · rw [List.map_map]
        rfl
    · rfl
  | conditional symbol ms otherwise => rfl
  | struct s => rfl
  | accessor a => rfl
  | enum e => rfl
  | verbatim text => rfl

theorem StructDecl.map_unsourced_slots (s : StructDecl) :
    s.slots.map Slot.unsourced = s.members.flatMap (Member.slots 0) := by
  rw [slots, List.map_flatMap]
  simp only [Member.map_unsourced_slots]
  rw [← List.flatMap_map Prod.fst, List.zipIdx_map_fst]

/-- Fields of the struct may share bytes: it is a union, or its author writes the offsets. -/
def StructDecl.Overlapping (s : StructDecl) : Prop :=
  s.markers.union = true ∨ ∃ a, s.layout = some a ∧ a.kind = .explicit

instance StructDecl.decidableOverlapping (s : StructDecl) : Decidable s.Overlapping :=
  decidable_of_iff (s.markers.union = true ∨ s.layout.any (·.kind = .explicit) = true) (by
    rw [Overlapping, Option.any_eq_true]
    simp only [decide_eq_true_eq])

/-- The struct `s'` is `s` with its members in another order. -/
structure StructDecl.Reordered (s s' : StructDecl) : Prop where
  name : s'.name = s.name
  markers : s'.markers = s.markers
  layout : s'.layout = s.layout
  members : s'.members.Perm s.members
  overlapping : s.Overlapping

namespace StructDecl.Reordered

variable {s s' : StructDecl}

theorem symm (h : s.Reordered s') : s'.Reordered s where
  name := h.name.symm
  markers := h.markers.symm
  layout := h.layout.symm
  members := h.members.symm
  overlapping := by
    rw [Overlapping, h.markers, h.layout]
    exact h.overlapping

/-- The fields are placed in another order. -/
theorem slots (h : s.Reordered s') :
    (s'.slots.map Slot.unsourced).Perm (s.slots.map Slot.unsourced) := by
  rw [s.map_unsourced_slots, s'.map_unsourced_slots]
  exact h.members.flatMap_right _

end StructDecl.Reordered

/-- Fields that are placed in another order, each from its own member. -/
theorem exists_reordered_spots {ts : List Spot} {slots : List Slot}
    (h : (slots.map Slot.unsourced).Perm ((ts.map Spot.slot).map Slot.unsourced)) :
    ∃ us ws, slots = us.map Spot.slot ∧ ws.Perm ts ∧
      List.Forall₂ (fun w u => ∃ i, u = Spot.withSource w i) ws us := by
  induction slots generalizing ts with
  | nil =>
    have hnil : ts = [] := by simpa using h.nil_eq
    rw [hnil]
    exact ⟨[], [], rfl, .refl [], .nil⟩
  | cons slot slots ih =>
    have hslot : slot.unsourced ∈ (ts.map Spot.slot).map Slot.unsourced :=
      h.subset List.mem_cons_self
    obtain ⟨_, hslot, hsame⟩ := List.mem_map.1 hslot
    obtain ⟨t, ht, rfl⟩ := List.mem_map.1 hslot
    obtain ⟨before, after, rfl⟩ := List.append_of_mem ht
    obtain ⟨i, rfl⟩ : ∃ i, slot = (t.withSource i).slot := by
      cases slot with
      | field g i =>
        obtain ⟨rfl, -⟩ := Slot.field.inj hsame
        exact ⟨i, rfl⟩
      | groupedBuffer g => cases hsame
      | conditional symbol => cases hsame
    have hmiddle : (before ++ t :: after).Perm (t :: (before ++ after)) := List.perm_middle
    have hrest := h.trans ((hmiddle.map Spot.slot).map Slot.unsourced)
    obtain ⟨us, ws, rfl, hperm, hsources⟩ := ih hrest.cons_inv
    exact ⟨t.withSource i :: us, t :: ws, rfl, (hperm.cons t).trans hmiddle.symm,
      .cons ⟨i, rfl⟩ hsources⟩

theorem map_eq_of_withSource {α : Type} {g : Spot → α} (hg : ∀ t i, g (Spot.withSource t i) = g t)
    {ws us : List Spot} (h : List.Forall₂ (fun w u => ∃ i, u = Spot.withSource w i) ws us) :
    us.map g = ws.map g := by
  induction h with
  | nil => rfl
  | cons first rest ih =>
    obtain ⟨i, rfl⟩ := first
    rw [List.map_cons, List.map_cons, hg, ih]

section

variable {c : Catalog} {o : Options} {child : QualName → Except LayoutError FlatStruct}
  {key : QualName} {s s' : StructDecl} {rule : LayoutRule} {ts : List Spot} {p : Placement}
  {f : FlatStruct}

theorem Laid.overlapping_start (laid : Laid c o child key s rule ts p f) (h : s.Overlapping) :
    (Placement.start s.name rule s.markers.union).overlapping = true := by
  rw [Placement.overlapping, Placement.start, (LayoutRule.ofAttr_eq_ok_iff.1 laid.ruled).2]
  rcases h with hunion | ⟨a, ha, hkind⟩
  · rw [hunion, Bool.true_or]
  · rw [ha, LayoutRule.isExplicit, LayoutRule.written, hkind]
    exact Bool.or_true _

/-- What some fields contribute does not depend on their order, apart from its own order. -/
theorem flatMap_members_perm {ws us : List Spot} (hperm : ws.Perm ts)
    (hsources : List.Forall₂ (fun w u => ∃ i, u = Spot.withSource w i) ws us) :
    ((us.flatMap Spot.members).map (·.withSource 0)).Perm
      ((ts.flatMap Spot.members).map (·.withSource 0)) := by
  have hsame := map_eq_of_withSource (g := fun t => t.members.map (·.withSource 0))
    (fun t i => by rw [Spot.withSource, List.map_map]; rfl) hsources
  rw [List.map_flatMap, List.map_flatMap, List.flatMap_def, List.flatMap_def, hsame]
  exact (hperm.map _).flatten

/-- **One struct with its members in another order** has the same size, the same alignment and the
same members, if its fields may share bytes. -/
theorem Laid.reordered (laid : Laid c o child key s rule ts p f) (h : s.Reordered s') :
    ∃ us f', layoutFrom c o child key s' = .ok (us, f') ∧ f'.footprint = f.footprint ∧
      (f'.members.map (·.withSource 0)).Perm (f.members.map (·.withSource 0)) := by
  have hover := laid.overlapping_start h.overlapping
  obtain ⟨us, ws, hslots, hperm, hsources⟩ := exists_reordered_spots (laid.slots ▸ h.slots)
  obtain ⟨q, hrun⟩ : ∃ q, SpotRun c o child key (.start s.name rule s.markers.union) us q := by
    refine SpotRun.exists_of_steps hover fun u hu => ?_
    obtain ⟨w, hw, i, rfl⟩ := exists_of_forall₂ hsources.flip hu
    obtain ⟨p', q', hstep, hrule, hunion⟩ := laid.run.exists_step_within (hperm.subset hw)
    obtain ⟨q'', hstep⟩ := hstep.withSource i
    exact ⟨p', q'', hstep, hrule, hunion⟩
  have hpieces : (us.map Spot.piece).Perm (ts.map Spot.piece) := by
    rw [map_eq_of_withSource (fun _ _ => rfl) hsources]
    exact hperm.map _
  have hmembers : (q.members.map (·.withSource 0)).Perm (p.members.map (·.withSource 0)) := by
    rw [hrun.members_eq, laid.run.members_eq]
    exact flatMap_members_perm hperm hsources
  have hnodup : (q.members.map (·.name)).Nodup := by
    have hnames := hmembers.map PlacedMember.name
    rw [List.map_map, List.map_map] at hnames
    refine hnames.nodup_iff.2 ?_
    have hold := laid.nodup
    rwa [laid.flat] at hold
  have hfinish := (laid.run.like_of_perm hrun hover hpieces).finish laid.finished
  rw [← h.name, ← h.markers] at hrun
  refine ⟨us, _, layoutFrom_of_spotRun (by rw [h.name, h.layout]; exact laid.ruled) hslots hrun
    hnodup hfinish, rfl, ?_⟩
  rw [laid.flat]
  exact hmembers

end

/-! ### Flat structs with other declarations -/

/-- The flat structs differ in their declarations only. -/
structure FlatStruct.SameLayout (f f' : FlatStruct) : Prop where
  markers : f'.markers = f.markers
  footprint : f'.footprint = f.footprint
  members : f'.members = f.members

/-- The same for what a field is made of. -/
inductive Element.SameLayout : Element → Element → Prop
  | scalar (size : UInt32) : SameLayout (.scalar size) (.scalar size)
  | struct {f f' : FlatStruct} (flat : f.SameLayout f') : SameLayout (.struct f) (.struct f')

/-- The structs have the same fields and are laid out by the same rule. They may differ in what is
declared inside of them. -/
structure StructDecl.SameFields (s s' : StructDecl) : Prop where
  name : s'.name = s.name
  markers : s'.markers = s.markers
  layout : s'.layout = s.layout
  slots : s'.slots = s.slots

theorem StructDecl.SameFields.refl (s : StructDecl) : s.SameFields s := ⟨rfl, rfl, rfl, rfl⟩

theorem StructDecl.SameFields.symm {s s' : StructDecl} (h : s.SameFields s') : s'.SameFields s :=
  ⟨h.name.symm, h.markers.symm, h.layout.symm, h.slots.symm⟩

/-- A field is placed without a look at the declaration of what it is made of. -/
theorem place_of_sameLayout {e e' : Element} (h : e.SameLayout e') (p : Placement) (o : Options)
    (g : FieldDecl) (source : Nat) (type : Binding) (base : UInt32) :
    p.place o g source type e' base = p.place o g source type e base := by
  cases h with
  | scalar size => rfl
  | @struct f f' hflat =>
    have hnested : ∀ offset, Placement.nestedMembers o g f' source offset =
        Placement.nestedMembers o g f source offset := by
      intro offset
      simp only [Placement.nestedMembers, Placement.promoteAll, FlatStruct.fields, hflat.members,
        hflat.markers, hflat.footprint]
    unfold Placement.place
    cases g.fixedCount with
    | some count => rfl
    | none => simp only [Placement.placeNested, hflat.footprint, hnested]

section

variable {c c' : Catalog} {o : Options} {child child' : QualName → Except LayoutError FlatStruct}
  {key : QualName}

theorem exists_element_of_sameLayout {type : Binding} {e : Element}
    (hmade : elementFrom o child type = .ok e)
    (hchild : ∀ d, type = .struct d → ∀ g, child d = .ok g →
      ∃ g', child' d = .ok g' ∧ g.SameLayout g') :
    ∃ e', elementFrom o child' type = .ok e' ∧ e.SameLayout e' := by
  cases type with
  | struct d =>
    obtain ⟨g, hg, rfl⟩ := made_struct hmade rfl
    obtain ⟨g', hg', hsame⟩ := hchild d rfl g hg
    exact ⟨.struct g', by rw [elementFrom, hg']; rfl, .struct hsame⟩
  | primitive q => cases hmade; exact ⟨_, rfl, .scalar _⟩
  | pointer r => cases hmade; exact ⟨_, rfl, .scalar _⟩
  | enum k q => cases hmade; exact ⟨_, rfl, .scalar _⟩
  | managed name => cases hmade

/-- Fields are placed alike if the structs among them have the same layout. -/
theorem map_snd_spotsFor_of_sameLayout {slots : List Slot} {p q : Placement}
    (hbind : ∀ g source, Slot.field g source ∈ slots → c'.bind g.type key = c.bind g.type key)
    (hchild : ∀ g source d, Slot.field g source ∈ slots → c.bind g.type key = .ok (.struct d) →
      ∀ f, child d = .ok f → ∃ f', child' d = .ok f' ∧ f.SameLayout f')
    (h : (spotsFor c o child key p slots).map Prod.snd = .ok q) :
    (spotsFor c' o child' key p slots).map Prod.snd = .ok q := by
  induction slots generalizing p with
  | nil => exact h
  | cons slot slots ih =>
    cases slot with
    | groupedBuffer g => cases h
    | conditional symbol => cases h
    | field g source =>
      rw [map_snd_spotsFor_cons] at h ⊢
      obtain ⟨r, hfirst, hrest⟩ := bind_eq_ok h
      have hrest := ih (fun g source hg => hbind g source (List.mem_cons_of_mem _ hg))
        (fun g source d hg => hchild g source d (List.mem_cons_of_mem _ hg)) hrest
      rw [map_snd_spotFor] at hfirst ⊢
      obtain ⟨type, htype, hfirst⟩ := bind_eq_ok hfirst
      obtain ⟨base, hbase, hfirst⟩ := bind_eq_ok hfirst
      obtain ⟨e, he, hfirst⟩ := bind_eq_ok hfirst
      obtain ⟨e', he', hsame⟩ := exists_element_of_sameLayout he fun d hd =>
        hchild g source d List.mem_cons_self (hd ▸ htype)
      have htype' := (hbind g source List.mem_cons_self).trans htype
      simp only [htype', hbase, he', place_of_sameLayout hsame, bind, Except.bind] at hfirst ⊢
      rw [hfirst]
      exact hrest

/-- A struct with the same fields has the same layout, if the structs among its fields do. -/
theorem exists_layoutFrom_of_sameLayout {s s' : StructDecl} {ts : List Spot} {f : FlatStruct}
    (h : layoutFrom c o child key s = .ok (ts, f)) (hfields : s.SameFields s')
    (hbind : ∀ g source, Slot.field g source ∈ s.slots → c'.bind g.type key = c.bind g.type key)
    (hchild : ∀ g source d, Slot.field g source ∈ s.slots →
      c.bind g.type key = .ok (.struct d) → ∀ f, child d = .ok f →
        ∃ f', child' d = .ok f' ∧ f.SameLayout f') :
    ∃ us f', layoutFrom c' o child' key s' = .ok (us, f') ∧ f.SameLayout f' := by
  have h : (layoutFrom c o child key s).map Prod.snd = .ok f := by rw [h]; rfl
  rw [map_snd_layoutFrom] at h
  obtain ⟨rule, hrule, h⟩ := bind_eq_ok h
  obtain ⟨p, hspots, h⟩ := bind_eq_ok h
  obtain ⟨_, hnames, h⟩ := bind_eq_ok h
  obtain ⟨footprint, hfinish, h⟩ := bind_eq_ok h
  cases h
  have hspots := map_snd_spotsFor_of_sameLayout hbind hchild hspots
  have hlayout : (layoutFrom c' o child' key s').map Prod.snd = .ok
      ⟨key, s.markers, s'.withPlaced p.members footprint.size, footprint, p.members⟩ := by
    rw [map_snd_layoutFrom, hfields.name, hfields.markers, hfields.layout, hfields.slots]
    simp only [hrule, hspots, hnames, hfinish, bind, Except.bind]
    rfl
  cases hr : layoutFrom c' o child' key s' with
  | error e => rw [hr] at hlayout; cases hlayout
  | ok r =>
    rw [hr] at hlayout
    exact ⟨r.1, r.2, rfl, by rw [Except.ok.inj hlayout]; exact ⟨rfl, rfl, rfl⟩⟩

end

/-! ### Two catalogs -/

theorem isSome_of_rel {α : Type} {R : α → α → Prop} {a b : Option α} (h : Option.Rel R a b) :
    b.isSome = a.isSome := by
  cases h <;> rfl

/-- The catalogs declare the same names, and all of them alike but one: the struct `key` may have
its members in another order, if its fields may share bytes. -/
structure Catalog.ReorderedAt (c c' : Catalog) (key : QualName) : Prop where
  structs : ∀ d, Option.Rel (fun s s' => s.SameFields s' ∨ d = key ∧ s.Reordered s')
    (c.struct? d) (c'.struct? d)
  bind : ∀ t scope, c'.bind t scope = c.bind t scope

namespace Catalog.ReorderedAt

variable {c c' : Catalog} {o : Options} {key : QualName}

theorem symm (h : c.ReorderedAt c' key) : c'.ReorderedAt c key where
  structs := by
    intro d
    have hd := h.structs d
    generalize c.struct? d = a, c'.struct? d = b at hd
    cases hd with
    | none => exact .none
    | some hsame => exact .some (hsame.imp (·.symm) fun ⟨hkey, hperm⟩ => ⟨hkey, hperm.symm⟩)
  bind := fun t scope => (h.bind t scope).symm

theorem exists_struct (h : c.ReorderedAt c' key) {d : QualName} {s : StructDecl}
    (hs : c.struct? d = some s) :
    ∃ s', c'.struct? d = some s' ∧ (s.SameFields s' ∨ d = key ∧ s.Reordered s') := by
  have hd := h.structs d
  rw [hs] at hd
  generalize c'.struct? d = b at hd
  cases hd with
  | some hsame => exact ⟨_, rfl, hsame⟩

/-- Structs that do not contain the one with another order have the layout that they had, by
induction from the contained structs to their container. -/
theorem exists_sameLayout (h : c.ReorderedAt c' key) {d : QualName} {g : FlatStruct}
    (hg : c.answer o d = .ok g) (hfree : ¬ ReflTransGen c.Contains d key) :
    ∃ g', c'.answer o d = .ok g' ∧ g.SameLayout g' := by
  refine answer_induction (motive := fun _ d g => ¬ ReflTransGen c.Contains d key →
    ∃ g', c'.answer o d = .ok g' ∧ g.SameLayout g') ?_ hg hfree
  intro _ d s rule ts p g hs laid ih hfree
  obtain ⟨s', hs', hsame⟩ := h.exists_struct hs
  have hfields : s.SameFields s' := hsame.resolve_right fun ⟨hkey, _⟩ => hfree (hkey ▸ .refl)
  obtain ⟨us, g', hlay, hlayout⟩ := exists_layoutFrom_of_sameLayout laid.computed hfields
    (fun g source _ => h.bind g.type d) fun f source e hslot hbind f' hf' => by
      have he : c.Contains d e := ⟨s, hs, f, source, hslot, hbind⟩
      exact ih e f' he hf' fun hreach => hfree (hreach.head he)
  exact ⟨g', answer_of_layoutFrom hs' hlay, hlayout⟩

/-- **The struct with its members in another order** can still be flattened, with the same size, the
same alignment and the same members. -/
theorem exists_answer (h : c.ReorderedAt c' key) {f : FlatStruct} (hf : c.answer o key = .ok f) :
    ∃ f', c'.answer o key = .ok f' ∧ f'.footprint = f.footprint ∧
      (f'.members.map (·.withSource 0)).Perm (f.members.map (·.withSource 0)) := by
  obtain ⟨s, rule, ts, p, hs, laid⟩ := exists_laid_of_answer hf
  obtain ⟨s', hs', hsame⟩ := h.exists_struct hs
  -- what the struct contains does not lead back to it
  have hchild : ∀ g source d, Slot.field g source ∈ s.slots → c.bind g.type key = .ok (.struct d) →
      ∀ f, c.answer o d = .ok f → ∃ f', c'.answer o d = .ok f' ∧ f.SameLayout f' := by
    intro g source d hslot hbind f' hf'
    have hd : c.Contains key d := ⟨s, hs, g, source, hslot, hbind⟩
    refine h.exists_sameLayout hf' fun hreach => ?_
    exact acyclic_of_answer hf .refl (TransGen.head' hd hreach)
  have hlayout : ∀ s'', s.SameFields s'' → ∃ us f', layoutFrom c' o (c'.answer o) key s'' =
      .ok (us, f') ∧ f.SameLayout f' := fun s'' hfields =>
    exists_layoutFrom_of_sameLayout laid.computed hfields (fun g _ _ => h.bind g.type key) hchild
  rcases hsame with hfields | ⟨-, hreordered⟩
  · obtain ⟨us, f', hlay, hsame⟩ := hlayout s' hfields
    refine ⟨f', answer_of_layoutFrom hs' hlay, hsame.footprint, ?_⟩
    rw [hsame.members]
  · obtain ⟨us, f₁, hlay, hsame⟩ := hlayout s (.refl s)
    obtain ⟨rule₁, p₁, laid₁⟩ := laid_of_layoutFrom hlay
    obtain ⟨vs, f', hlay', hfootprint, hmembers⟩ := laid₁.reordered hreordered
    refine ⟨f', answer_of_layoutFrom hs' hlay', hfootprint.trans hsame.footprint, ?_⟩
    rwa [← hsame.members]

end Catalog.ReorderedAt

end FlatLayout
