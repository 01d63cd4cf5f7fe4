import FlatLayout.Proofs.FieldOrder
import FlatLayout.Proofs.Locality

/-!
# Members with other numbers

Every placed member carries the number of the member of the declaration that it was made from. A
struct may be declared in another way that gives its fields other numbers, by splitting a group of
fields or by leaving out what is not placed, and this should be harmless.

It is, because placing never reads a number. What a field contributes is given the number of the
field at hand, also where it comes from a nested struct and had a number in there. So numbers may be
forgotten before anything is placed or when all is done, and what comes out is the same, be it a
layout or an error.

## Forgetting

To forget is a function, `bare`, on whatever has numbers in it. It leaves out the flat declaration
as well, which is made by means of the numbers. All that is proved is that laying out commutes with
it: from the fields without numbers, and from answers without numbers for the structs among them,
comes the same layout without numbers. Two declarations that differ in numbers are then compared by
what both come to. There is no relation between two runs to be carried along, and errors need no
care.

## Main definitions

* `FlatStruct.bare`, `Spot.bare`, `Placement.bare` — what is left without numbers
* `StructDecl.Renumbered`, `Catalog.Renumbered` — the same fields under other numbers

## Main results

* `place_bare` — placing one field commutes with forgetting
* `layoutFrom_bare` — so does laying out one struct
* `Catalog.Renumbered.answer_eq` — flattening in two catalogs that differ in numbers
-/

namespace FlatLayout

/-! ### Without numbers -/

/-- The placement without the numbers of its members. -/
def Placement.bare (p : Placement) : Placement :=
  { p with members := p.members.map (·.withSource 0) }

/-- The same for a field that was placed. -/
def Placed.bare (r : Placed) : Placed := { r with placement := r.placement.bare }

/-- The flat struct without the numbers of its members, and without the declaration that was made
by them. -/
def FlatStruct.bare (f : FlatStruct) : FlatStruct :=
  { f with decl := .ofName "", members := f.members.map (·.withSource 0) }

/-- What a field is made of, without numbers. -/
def Element.bare : Element → Element
  | .scalar size => .scalar size
  | .struct flat => .struct flat.bare

/-- The spot of a field without numbers. -/
def Spot.bare (t : Spot) : Spot := { t.withSource 0 with element := t.element.bare }

/-! ### One field -/

section

variable {o : Options} {p : Placement} {g : FieldDecl} {child : FlatStruct} {e : Element}

theorem fields_bare (f : FlatStruct) : f.bare.fields = f.fields.map (·.withSource 0) := by
  rw [FlatStruct.fields, FlatStruct.fields, FlatStruct.bare, List.filter_map]
  rfl

theorem promoteAll_bare (outer : Option String) (base : UInt32) (i : Nat) :
    Placement.promoteAll child.bare outer base i = Placement.promoteAll child outer base i := by
  simp only [Placement.promoteAll, FlatStruct.bare, List.mapM_map]
  rfl

/-- A nested struct contributes the same with and without numbers: its members are given others. -/
theorem nestedMembers_bare (i : Nat) (offset : UInt32) :
    Placement.nestedMembers o g child.bare i offset =
      Placement.nestedMembers o g child i offset := by
  simp only [Placement.nestedMembers, promoteAll_bare, fields_bare]
  cases child.fields <;> rfl

/-- As a member with another number it contributes the same under that number. -/
theorem map_nestedMembers (i j : Nat) (offset : UInt32) :
    (Placement.nestedMembers o g child i offset).map (·.map (·.withSource j)) =
      Placement.nestedMembers o g child j offset := by
  cases hi : Placement.nestedMembers o g child i offset with
  | some ms => rw [Option.map_some, nestedMembers_withSource hi j]
  | none =>
    cases hj : Placement.nestedMembers o g child j offset with
    | none => rfl
    | some ms =>
      rw [nestedMembers_withSource hj i] at hi
      cases hi

theorem add_bare (alignment : UInt32) (ms : List PlacedMember) :
    (p.add alignment ms).bare = p.bare.add alignment (ms.map (·.withSource 0)) := by
  simp only [Placement.add, Placement.bare, List.map_append]
  rfl

theorem bufferMembers_bare (i : Nat) (native : Bool) (offset size : UInt32) :
    (p.bufferMembers g i native offset size).map (·.withSource 0) =
      p.bare.bufferMembers g 0 native offset size := by
  cases native <;> rfl

/-- **Placing one field** does not depend on numbers. -/
theorem place_bare (i : Nat) (type : Binding) (base : UInt32) :
    (p.place o g i type e base).map Placed.bare = p.bare.place o g 0 type e.bare base := by
  have halign (natural : UInt32) : p.bare.align natural base = p.align natural base := rfl
  unfold Placement.place
  cases g.fixedCount with
  | some count =>
    cases e with
    | struct flat => rfl
    | scalar elementSize =>
      simp only [Element.bare, Placement.placeBuffer, halign]
      cases Word.mulChecked elementSize count with
      | none => rfl
      | some size =>
        cases p.align elementSize base with
        | error e => rfl
        | ok offset =>
          simp only [bind, Except.bind, Except.map, Placed.bare, add_bare, bufferMembers_bare]
  | none =>
    cases e with
    | scalar size =>
      simp only [Element.bare, Placement.placeScalar, halign]
      cases p.align size base with
      | error e => rfl
      | ok offset =>
        simp only [bind, Except.bind, Except.map, Placed.bare, add_bare]
        rfl
    | struct flat =>
      simp only [Element.bare, Placement.placeNested, nestedMembers_bare]
      rw [show p.bare.align flat.bare.footprint.alignment base =
        p.align flat.footprint.alignment base from rfl]
      cases p.align flat.footprint.alignment base with
      | error e => rfl
      | ok offset =>
        simp only [bind, Except.bind, ← map_nestedMembers i 0]
        cases Placement.nestedMembers o g flat i offset with
        | none => rfl
        | some ms =>
          simp only [Option.map_some, Except.map, Placed.bare, add_bare]
          rfl

theorem advance_bare (offset size : UInt32) :
    (p.advance offset size).map Placement.bare = p.bare.advance offset size := by
  unfold Placement.advance
  cases Word.addChecked offset size with
  | none => rfl
  | some fieldEnd =>
    have hover : p.bare.overlapping = p.overlapping := rfl
    have hsize : p.bare.size = p.size := rfl
    simp only [hover, hsize]
    split
    · rfl
    · rfl

theorem checkNames_bare : p.bare.checkNames = p.checkNames := by
  simp only [Placement.checkNames, Placement.bare, List.map_map]
  rfl

end

/-! ### One struct -/

section

variable {c : Catalog} {o : Options} {child : QualName → Except LayoutError FlatStruct}
  {key : QualName}

theorem elementFrom_bare (type : Binding) :
    (elementFrom o child type).map Element.bare =
      elementFrom o (fun d => (child d).map FlatStruct.bare) type := by
  cases type with
  | struct d =>
    simp only [elementFrom]
    cases child d with
    | error e => rfl
    | ok flat => rfl
  | pointer t => rfl
  | primitive p => rfl
  | enum k p => rfl
  | managed name => rfl

theorem spotFor_bare (p : Placement) (g : FieldDecl) (i : Nat) :
    (spotFor c o child key p g i).map (Prod.map Spot.bare Placement.bare) =
      spotFor c o (fun d => (child d).map FlatStruct.bare) key p.bare g 0 := by
  have hbase : p.bare.baseOffset g = p.baseOffset g := rfl
  simp only [spotFor, ← elementFrom_bare, hbase]
  cases c.bind g.type key with
  | error e => rfl
  | ok type =>
    cases p.baseOffset g with
    | error e => rfl
    | ok base =>
      simp only [bind, Except.bind]
      cases elementFrom o child type with
      | error e => rfl
      | ok element =>
        simp only [Except.map, ← place_bare i]
        cases p.place o g i type element base with
        | error e => rfl
        | ok placed =>
          simp only [Placed.bare, ← advance_bare]
          cases placed.placement.advance placed.offset placed.size with
          | error e => rfl
          | ok next =>
            -- what the field contributes is what the placement has more than before
            have hmembers : (placed.placement.members.drop p.members.length).map (·.withSource 0) =
                placed.placement.bare.members.drop p.bare.members.length := by
              simp only [Placement.bare, List.map_drop, List.length_map]
            simp only [Except.map, ← hmembers]
            rfl

theorem spotsFor_bare (p : Placement) (slots : List Slot) :
    (spotsFor c o child key p slots).map (Prod.map (List.map Spot.bare) Placement.bare) =
      spotsFor c o (fun d => (child d).map FlatStruct.bare) key p.bare
        (slots.map Slot.unsourced) := by
  induction slots generalizing p with
  | nil => rfl
  | cons slot slots ih =>
    cases slot with
    | groupedBuffer g => rfl
    | conditional symbol => rfl
    | field g i =>
      simp only [List.map_cons, Slot.unsourced, spotsFor, ← spotFor_bare p g i]
      cases spotFor c o child key p g i with
      | error e => rfl
      | ok r =>
        show Except.map _ (spotsFor c o child key r.2 slots >>= fun rest =>
            .ok (r.1 :: rest.1, rest.2)) =
          spotsFor c o _ key r.2.bare (slots.map Slot.unsourced) >>= fun rest =>
            .ok (r.1.bare :: rest.1, rest.2)
        rw [← ih]
        cases spotsFor c o child key r.2 slots with
        | error e => rfl
        | ok rest => rfl

/-- **Laying out one struct** does not depend on numbers. -/
theorem layoutFrom_bare (s : StructDecl) :
    (layoutFrom c o child key s).map (Prod.map (List.map Spot.bare) FlatStruct.bare) = (do
      let rule ← LayoutRule.ofAttr s.name s.layout
      let (ts, p) ← spotsFor c o (fun d => (child d).map FlatStruct.bare) key
        (.start s.name rule s.markers.union) (s.slots.map Slot.unsourced)
      p.checkNames
      let footprint ← p.finish o.padTrailing
      return (ts, ⟨key, s.markers, .ofName "", footprint, p.members⟩)) := by
  unfold layoutFrom
  cases LayoutRule.ofAttr s.name s.layout with
  | error e => rfl
  | ok rule =>
    have hstart : Placement.start s.name rule s.markers.union =
        (Placement.start s.name rule s.markers.union).bare := rfl
    simp only [bind, Except.bind]
    rw [hstart, ← spotsFor_bare, ← hstart]
    cases spotsFor c o child key (.start s.name rule s.markers.union) s.slots with
    | error e => rfl
    | ok r =>
      have hfinish : r.2.bare.finish o.padTrailing = r.2.finish o.padTrailing := rfl
      simp only [Except.map, Prod.map, checkNames_bare, hfinish]
      cases r.2.checkNames with
      | error e => rfl
      | ok u =>
        simp only
        cases r.2.finish o.padTrailing with
        | error e => rfl
        | ok footprint => rfl

end

/-! ### Two catalogs -/

/-- The structs have the same fields and are laid out by the same rule. The fields may be declared
by members with other numbers. -/
structure StructDecl.Renumbered (s s' : StructDecl) : Prop where
  name : s'.name = s.name
  markers : s'.markers = s.markers
  layout : s'.layout = s.layout
  slots : s'.slots.map Slot.unsourced = s.slots.map Slot.unsourced

/-- The catalogs declare the same names, and the structs among them have the same fields. -/
structure Catalog.Renumbered (c c' : Catalog) : Prop where
  structs : ∀ d, Option.Rel StructDecl.Renumbered (c.struct? d) (c'.struct? d)
  bind : ∀ t scope, c'.bind t scope = c.bind t scope

section

variable {c c' : Catalog} {o : Options} {child child' : QualName → Except LayoutError FlatStruct}
  {key : QualName}

/-- A struct with the same fields is laid out in the same way, apart from numbers. -/
theorem layoutFrom_renumbered (o : Options) (key : QualName) {s s' : StructDecl}
    (h : s.Renumbered s')
    (hbind : ∀ t scope, c'.bind t scope = c.bind t scope)
    (hchild : ∀ d, (child' d).map FlatStruct.bare = (child d).map FlatStruct.bare) :
    (layoutFrom c' o child' key s').map (Prod.map (List.map Spot.bare) FlatStruct.bare) =
      (layoutFrom c o child key s).map (Prod.map (List.map Spot.bare) FlatStruct.bare) := by
  have hspots (p : Placement) :
      spotsFor c' o (fun d => (child' d).map FlatStruct.bare) key p (s.slots.map Slot.unsourced) =
        spotsFor c o (fun d => (child d).map FlatStruct.bare) key p (s.slots.map Slot.unsourced) :=
    spotsFor_congr (fun g _ _ => hbind g.type key) (fun _ _ d _ _ => hchild d) p
  simp only [layoutFrom_bare, h.name, h.markers, h.layout, h.slots, hspots]

theorem map_bare_snd (r : Except LayoutError (List Spot × FlatStruct)) :
    (r.map Prod.snd).map FlatStruct.bare =
      (r.map (Prod.map (List.map Spot.bare) FlatStruct.bare)).map Prod.snd := by
  cases r with
  | error e => rfl
  | ok r => rfl

/-- **Flattening does not depend on the numbers of members**: the same error is answered, or the
same flat struct apart from numbers. -/
theorem Catalog.Renumbered.answer_eq (h : c.Renumbered c') (o : Options) (key : QualName) :
    (c'.answer o key).map FlatStruct.bare = (c.answer o key).map FlatStruct.bare := by
  refine flattenUnder_view (P := fun _ => True) (fun d _ => isSome_of_rel (h.structs d)) ?_ trivial
    (.nil c) (by simp) (.nil c') (by simp)
  intro d s s' child child' _ hs hs' hchild
  have hd := h.structs d
  rw [hs, hs'] at hd
  cases hd with
  | some hsame =>
    rw [map_bare_snd, map_bare_snd,
      layoutFrom_renumbered o d hsame h.bind fun e => hchild e trivial]

end

end FlatLayout
