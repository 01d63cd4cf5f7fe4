import FlatLayout.Proofs.ByValue
import Mathlib.Data.List.Forall2

/-!
# Members of a struct inside its container

A flat struct hands its members on to every container it is embedded in. Each of them moves by the
offset of the field, and its name goes behind the name of the field; nothing else about it changes.
`Moved` says this for one member, and `Contributed` says which members a nested struct hands on at
all: none, all of them, all of them with an accessor in between, or a field in their place.

The accessor is put behind the first member with storage. A flat struct without such a member has no
members, so there is always a place for it.

## Main definitions

* `Moved` — a member, and what it is in a container
* `Contributed` — what a nested struct contributes, by the way it is nested

## Main results

* `promote_eq_some_iff` — promoting a member is moving it
* `contributed_of_nestedMembers` — a nested struct contributes in one of the four ways
* `members_eq_nil_of_answer` — a flat struct without fields has no members
-/

namespace FlatLayout

/-- The member `m` is the member `m'` in a container, where its struct stands at `base` as the field
`outer`, or without a name of its own. -/
structure Moved (outer : Option String) (base : UInt32) (source : Nat) (m m' : PlacedMember) :
    Prop where
  name : m'.name = PlacedMember.qualify outer m.name
  type : m'.type = m.type
  offset : m'.offset.toNat = m.offset.toNat + base.toNat
  size : m'.size = m.size
  fixedCount : m'.fixedCount = m.fixedCount
  role : m'.role = PlacedMember.promotedRole outer m.role
  modifiers : m'.modifiers = m.modifiers
  baseField : m'.baseField = m.baseField.map (PlacedMember.qualify outer)
  source : m'.source = source

variable {outer : Option String} {base offset : UInt32} {source : Nat} {m m' : PlacedMember}

theorem promote_eq_some_iff :
    m.promote outer base source = some m' ↔ Moved outer base source m m' := by
  constructor
  · intro h
    obtain ⟨offset, hoffset, rfl⟩ := Option.map_eq_some_iff.1 h
    exact ⟨rfl, rfl, Word.addChecked_eq_some_iff.1 hoffset, rfl, rfl, rfl, rfl, rfl, rfl⟩
  · intro h
    rw [PlacedMember.promote, Word.addChecked_eq_some_iff.2 h.offset, Option.map_some]
    obtain ⟨name, type, offset, size, fixedCount, role, modifiers, baseField, source'⟩ := m'
    obtain ⟨hname, htype, -, hsize, hcount, hrole, hmodifiers, hbase, hsource⟩ := h
    simp only at hname htype hsize hcount hrole hmodifiers hbase hsource
    rw [hname, htype, hsize, hcount, hrole, hmodifiers, hbase, hsource]

theorem qualify_injective (outer : Option String) :
    Function.Injective (PlacedMember.qualify outer) := by
  intro a b h
  cases outer with
  | none => exact h
  | some o => exact (String.append_right_inj _).1 h

theorem isAccessor_promotedRole (outer : Option String) (r : Role) :
    (PlacedMember.promotedRole outer r).isAccessor = r.isAccessor := by
  unfold PlacedMember.promotedRole
  cases hr : r.isAccessor with
  | true => rw [if_pos rfl, hr]
  | false =>
    rw [if_neg (by decide)]
    split <;> rfl

@[simp] theorem isAccessor_ofField (f : FieldDecl) (source : Nat) (offset size : UInt32)
    (role : Role) :
    (PlacedMember.ofField f source offset size role).isAccessor = role.isAccessor := rfl

@[simp] theorem isAccessor_nestedAccessor (f : FieldDecl) (first : String) (offset : UInt32)
    (source : Nat) : (PlacedMember.nestedAccessor f first offset source).isAccessor = true := rfl

@[simp] theorem isAccessor_plainRole (p : Placement) : p.plainRole.isAccessor = false := by
  unfold Placement.plainRole
  split <;> rfl

namespace Moved

theorem isAccessor_eq (h : Moved outer base source m m') : m'.isAccessor = m.isAccessor := by
  rw [PlacedMember.isAccessor, h.role, isAccessor_promotedRole]
  rfl

end Moved

/-! ### Several members -/

section

variable {ms ms' : List PlacedMember}

theorem forall₂_of_mapM_eq_some {α β : Type} {f : α → Option β} {as : List α} {bs : List β}
    (h : as.mapM f = some bs) : List.Forall₂ (fun a b => f a = some b) as bs := by
  induction as generalizing bs with
  | nil => cases h; exact .nil
  | cons a as ih =>
    rw [List.mapM_cons] at h
    obtain ⟨b, hb, h⟩ := Option.bind_eq_some_iff.1 h
    obtain ⟨bs', hbs, h⟩ := Option.bind_eq_some_iff.1 h
    cases h
    exact .cons hb (ih hbs)

theorem moved_of_promoteAll {child : FlatStruct}
    (h : Placement.promoteAll child outer base source = some ms) :
    List.Forall₂ (Moved outer base source) child.members ms :=
  (forall₂_of_mapM_eq_some h).imp fun _ _ => promote_eq_some_iff.1

theorem exists_of_forall₂ {α β : Type} {R : α → β → Prop} {as : List α} {bs : List β}
    (h : List.Forall₂ R as bs) {a : α} (ha : a ∈ as) : ∃ b ∈ bs, R a b := by
  induction h with
  | nil => cases ha
  | cons first rest ih =>
    rcases List.mem_cons.1 ha with rfl | ha
    · exact ⟨_, List.mem_cons_self, first⟩
    · obtain ⟨b, hb, h⟩ := ih ha
      exact ⟨b, List.mem_cons_of_mem _ hb, h⟩

theorem exists_moved (h : List.Forall₂ (Moved outer base source) ms ms') (hm : m ∈ ms) :
    ∃ m' ∈ ms', Moved outer base source m m' := exists_of_forall₂ h hm

theorem exists_unmoved (h : List.Forall₂ (Moved outer base source) ms ms') (hm : m' ∈ ms') :
    ∃ m ∈ ms, Moved outer base source m m' :=
  exists_of_forall₂ (R := flip (Moved outer base source)) h.flip hm

theorem moved_filter (h : List.Forall₂ (Moved outer base source) ms ms') :
    List.Forall₂ (Moved outer base source) (ms.filter fun m => !m.isAccessor)
      (ms'.filter fun m => !m.isAccessor) := by
  refine List.rel_filter (fun m m' hm => ?_) h
  simp only [hm.isAccessor_eq]

end

/-! ### What a nested struct contributes -/

/-- The field that stands for a nested struct that is kept together. It has the type of the first
field in there, and the bytes of the whole. -/
def PlacedMember.nestedStart (f : FieldDecl) (child : FlatStruct) (first : PlacedMember)
    (source : Nat) (offset : UInt32) : PlacedMember :=
  ⟨startName f.name, first.type, offset, child.footprint.size, first.fixedCount, .nestedStart,
    f.modifiers, none, source⟩

/-- What the field `f`, at an offset, contributes to its container if it is the struct `child`. -/
inductive Contributed (o : Options) (f : FieldDecl) (child : FlatStruct) (source : Nat)
    (offset : UInt32) : List PlacedMember → Prop
  | childless (fields : child.fields = []) : Contributed o f child source offset []
  | merged {ms : List PlacedMember} (fields : child.fields ≠ [])
      (anonymous : (f.markers.anonymous || child.markers.anonymous) = true)
      (moved : List.Forall₂ (Moved none offset source) child.members ms) :
      Contributed o f child source offset ms
  | spread {before after : List PlacedMember} {first : PlacedMember}
      (named : (f.markers.anonymous || child.markers.anonymous) = false)
      (inline : o.inlineNested = true)
      (moved : List.Forall₂ (Moved (some f.name) offset source) child.members
        (before ++ first :: after))
      (accessors : ∀ m ∈ before, m.isAccessor = true) (field : first.isAccessor = false) :
      Contributed o f child source offset
        (before ++ first :: .nestedAccessor f first.name offset source :: after)
  | kept {first : PlacedMember} {rest : List PlacedMember} (fields : child.fields = first :: rest)
      (named : (f.markers.anonymous || child.markers.anonymous) = false)
      (inline : o.inlineNested = false) :
      Contributed o f child source offset
        [.nestedStart f child first source offset,
          .nestedAccessor f (startName f.name) offset source]

/-- The name that a nested struct puts in front of its members, unless it is anonymous. -/
def nestedLabel (f : FieldDecl) (child : FlatStruct) : Option String :=
  if f.markers.anonymous || child.markers.anonymous then none else some f.name

/-- A list with a field in it, cut at the first one. -/
theorem exists_first_field {ms : List PlacedMember}
    (h : (ms.filter fun m => !m.isAccessor) ≠ []) :
    ∃ before first after, ms = before ++ first :: after ∧
      (∀ m ∈ before, m.isAccessor = true) ∧ first.isAccessor = false := by
  induction ms with
  | nil => exact absurd rfl h
  | cons m ms ih =>
    cases hm : m.isAccessor with
    | false => exact ⟨[], m, ms, rfl, by simp, hm⟩
    | true =>
      rw [List.filter_cons_of_neg (by simp [hm])] at h
      obtain ⟨before, first, after, rfl, hbefore, hfirst⟩ := ih h
      refine ⟨m :: before, first, after, rfl, ?_, hfirst⟩
      rintro b (_ | ⟨_, hb⟩)
      · exact hm
      · exact hbefore b hb

theorem filter_first_field {before after : List PlacedMember} {first : PlacedMember}
    (hbefore : ∀ m ∈ before, m.isAccessor = true) (hfirst : first.isAccessor = false) :
    ((before ++ first :: after).filter fun m => !m.isAccessor) =
      first :: after.filter fun m => !m.isAccessor := by
  have hnil : (before.filter fun m => !m.isAccessor) = [] := by
    rw [List.filter_eq_nil_iff]
    intro m hm
    simp [hbefore m hm]
  rw [List.filter_append, hnil, List.filter_cons_of_pos (by simp [hfirst]), List.nil_append]

theorem insertReference_append {reference : String → PlacedMember} {first : PlacedMember}
    {before after : List PlacedMember} (hbefore : ∀ m ∈ before, m.isAccessor = true)
    (hfirst : first.isAccessor = false) :
    Placement.insertReference reference (before ++ first :: after) =
      before ++ first :: reference first.name :: after := by
  have htake : (before ++ first :: after).takeWhile (·.isAccessor) = before := by
    rw [List.takeWhile_append_of_pos hbefore, List.takeWhile_cons_of_neg (by simp [hfirst]),
      List.append_nil]
  have hdrop : (before ++ first :: after).dropWhile (·.isAccessor) = first :: after := by
    rw [List.dropWhile_append_of_pos hbefore, List.dropWhile_cons_of_neg (by simp [hfirst])]
  rw [Placement.insertReference, htake, hdrop]

/-- **What a nested struct contributes.** -/
theorem contributed_of_nestedMembers {o : Options} {f : FieldDecl} {child : FlatStruct}
    {ms : List PlacedMember}
    (h : Placement.nestedMembers o f child source offset = some ms) :
    Contributed o f child source offset ms := by
  unfold Placement.nestedMembers at h
  cases hfields : child.fields with
  | nil =>
    rw [hfields] at h
    cases h
    exact .childless hfields
  | cons first rest =>
    rw [hfields] at h
    have hne : child.fields ≠ [] := by rw [hfields]; exact List.cons_ne_nil _ _
    simp only at h
    cases hanonymous : f.markers.anonymous || child.markers.anonymous with
    | true =>
      rw [hanonymous, if_pos rfl] at h
      exact .merged hne hanonymous (moved_of_promoteAll h)
    | false =>
      rw [hanonymous, if_neg (by decide)] at h
      cases hinline : o.inlineNested with
      | true =>
        rw [hinline, if_pos rfl] at h
        obtain ⟨moved, hpromoted, rfl⟩ := Option.map_eq_some_iff.1 h
        have hmoved := moved_of_promoteAll hpromoted
        have hfield : (moved.filter fun m => !m.isAccessor) ≠ [] := by
          intro hnil
          have hlength := (moved_filter hmoved).length_eq
          rw [hnil] at hlength
          exact hne (List.length_eq_zero_iff.1 hlength)
        obtain ⟨before, first, after, rfl, hbefore, hfirst⟩ := exists_first_field hfield
        rw [insertReference_append hbefore hfirst]
        exact .spread hanonymous hinline hmoved hbefore hfirst
      | false =>
        rw [hinline, if_neg (by decide)] at h
        cases h
        exact .kept hfields hanonymous hinline

namespace Contributed

variable {o : Options} {f : FieldDecl} {child : FlatStruct} {ms : List PlacedMember}

/-- Where nested structs are spread, the fields of the struct are all that is contributed besides
the accessor. -/
theorem moved_fields (h : Contributed o f child source offset ms)
    (hinline : o.inlineNested = true) :
    List.Forall₂ (Moved (nestedLabel f child) offset source) child.fields
      (ms.filter fun m => !m.isAccessor) := by
  cases h with
  | childless hfields => rw [hfields]; exact .nil
  | merged _ hanonymous moved =>
    rw [nestedLabel, hanonymous, if_pos rfl]
    exact moved_filter moved
  | @spread before after first hnamed _ moved hbefore hfirst =>
    rw [nestedLabel, hnamed, if_neg (by decide), filter_first_field hbefore hfirst,
      List.filter_cons_of_neg (by simp), ← filter_first_field hbefore hfirst]
    exact moved_filter moved
  | kept _ _ inline => rw [hinline] at inline; cases inline

/-- What has no storage contributes nothing at all. -/
theorem eq_nil (h : Contributed o f child source offset ms)
    (hfields : (ms.filter fun m => !m.isAccessor) = []) : ms = [] := by
  cases h with
  | childless => rfl
  | merged hne _ moved =>
    have hlength := (moved_filter moved).length_eq
    rw [hfields] at hlength
    exact absurd (List.length_eq_zero_iff.1 hlength) hne
  | spread _ _ _ _ hfirst => simp [hfirst] at hfields
  | kept => cases hfields

end Contributed

/-- What a field contributes has storage, unless it is nothing. -/
theorem Spot.Filled.eq_nil {o : Options} {role : Role} {t : Spot} (h : t.Filled o role)
    (hrole : role.isAccessor = false) (hfields : (t.members.filter fun m => !m.isAccessor) = []) :
    t.members = [] := by
  cases h with
  | scalar _ _ hmembers => rw [hmembers] at hfields; simp [hrole] at hfields
  | native _ _ _ _ _ _ hmembers => rw [hmembers] at hfields; simp [hrole] at hfields
  | started _ _ _ _ _ _ hmembers =>
    rw [hmembers, List.filter_cons_of_pos (by rfl)] at hfields
    cases hfields
  | nested _ _ _ _ hmembers => exact (contributed_of_nestedMembers hmembers).eq_nil hfields

/-- A field that is a struct contributes what that struct does. -/
theorem Spot.Filled.of_struct {o : Options} {role : Role} {t : Spot} {flat : FlatStruct}
    (h : t.Filled o role) (hstruct : t.element = .struct flat) :
    t.size = flat.footprint.size ∧ Contributed o t.decl flat t.source t.offset t.members := by
  cases h with
  | scalar _ helement => rw [hstruct] at helement; cases helement
  | native _ _ _ helement => rw [hstruct] at helement; cases helement
  | started _ _ _ helement => rw [hstruct] at helement; cases helement
  | nested flat' _ helement hsize hmembers =>
    obtain rfl := Element.struct.inj (hstruct.symm.trans helement)
    exact ⟨hsize, contributed_of_nestedMembers hmembers⟩

variable {c : Catalog} {o : Options} {key : QualName} {f : FlatStruct}

namespace Laid

variable {child : QualName → Except LayoutError FlatStruct} {s : StructDecl} {rule : LayoutRule}
  {ts : List Spot} {p : Placement} {t : Spot}

/-- The fields of a flat struct, spot by spot. -/
theorem fields_eq (h : Laid c o child key s rule ts p f) :
    f.fields = ts.flatMap fun t => t.members.filter fun m => !m.isAccessor := by
  rw [FlatStruct.fields, h.members_eq, List.filter_flatMap]

theorem contributed (h : Laid c o child key s rule ts p f) (ht : t ∈ ts) {d : QualName}
    (htype : t.type = .struct d) :
    ∃ flat, child d = .ok flat ∧ t.size = flat.footprint.size ∧
      Contributed o t.decl flat t.source t.offset t.members := by
  obtain ⟨p', q, hstep⟩ := h.run.exists_step ht
  obtain ⟨flat, hd, helement⟩ := made_struct hstep.made htype
  obtain ⟨hsize, hcontributed⟩ := hstep.filled.of_struct helement
  exact ⟨flat, hd, hsize, hcontributed⟩

end Laid

/-- **A flat struct without fields has no members**: an accessor only ever comes with the field it
points at. -/
theorem members_eq_nil_of_answer (h : c.answer o key = .ok f) (hfields : f.fields = []) :
    f.members = [] := by
  obtain ⟨s, rule, ts, p, -, laid⟩ := Catalog.exists_laid_of_answer h
  rw [laid.fields_eq, List.flatMap_eq_nil_iff] at hfields
  rw [laid.members_eq, List.flatMap_eq_nil_iff]
  intro t ht
  obtain ⟨p', q, hstep⟩ := laid.run.exists_step ht
  exact hstep.filled.eq_nil (isAccessor_plainRole p') (hfields t ht)

end FlatLayout
