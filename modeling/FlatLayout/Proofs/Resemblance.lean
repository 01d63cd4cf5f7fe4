import FlatLayout.Proofs.Containment
import FlatLayout.Proofs.TypeTree

/-!
# Structs that are laid out alike

Two declarations of a struct, each in its own catalog, get the same size and the same alignment if
their fields differ in markers only and the structs that they contain have the same size and the
same alignment. The flat structs need not be the same: the members of a contained struct may have
other names, or there may be fewer of them. So only one thing can go wrong, and that is a name used
twice.

Names are followed as well. As long as no marker decides differently over a name, the names in a
struct stay among those that were there, and so none of them is repeated.

## Main definitions

* `Placement.Like` — placements that differ in their members only
* `Spot.Redone` — the step that places a field again
* `Covers` — members whose names are among those of others
* `Unrenamed` — nothing decides differently over a name in a struct

## Main results

* `SpotStep.alike`, `SpotRun.alike` — one field, and all fields
* `Laid.alike` — a struct whose fields are the same up to markers
-/

namespace FlatLayout

/-- The names of the members `ms'` are among those of the members `ms`, and there are fields in both
or in none. -/
structure Covers (ms ms' : List PlacedMember) : Prop where
  names : (ms'.map (·.name)).Subperm (ms.map (·.name))
  fields : (ms'.filter fun m => !m.isAccessor) = [] ↔ (ms.filter fun m => !m.isAccessor) = []

/-- The names in the flat struct `f'` are among those in `f`, and its own one counts as before. -/
structure FlatStruct.Covers (f f' : FlatStruct) : Prop where
  anonymous : f'.markers.anonymous = f.markers.anonymous
  members : FlatLayout.Covers f.members f'.members

/-! ### Names -/

theorem names_of_moved {ms ns : List PlacedMember} {outer : Option String} {base : UInt32}
    {source : Nat} (h : List.Forall₂ (Moved outer base source) ms ns) :
    ns.map (·.name) = (ms.map (·.name)).map (PlacedMember.qualify outer) := by
  induction h with
  | nil => rfl
  | cons first _ ih => simp only [List.map_cons, first.name, ih]

namespace Covers

variable {ms ms' : List PlacedMember}

theorem refl (ms : List PlacedMember) : Covers ms ms := ⟨.refl _, Iff.rfl⟩

theorem append {ns ns' : List PlacedMember} (h : Covers ms ms') (hn : Covers ns ns') :
    Covers (ms ++ ns) (ms' ++ ns') where
  names := by
    rw [List.map_append, List.map_append]
    exact h.names.append hn.names
  fields := by
    rw [List.filter_append, List.filter_append, List.append_eq_nil_iff, List.append_eq_nil_iff,
      h.fields, hn.fields]

theorem single {m m' : PlacedMember} (hname : m'.name = m.name)
    (haccessor : m'.isAccessor = m.isAccessor) : Covers [m] [m'] where
  names := by rw [List.map_singleton, List.map_singleton, hname]
  fields := by
    rw [List.filter_singleton, List.filter_singleton, haccessor]
    cases m.isAccessor <;> simp

theorem cons {m m' : PlacedMember} (hname : m'.name = m.name)
    (haccessor : m'.isAccessor = m.isAccessor) (h : Covers ms ms') :
    Covers (m :: ms) (m' :: ms') := (single hname haccessor).append h

/-- The order does not matter. -/
theorem perm {ns ns' : List PlacedMember} (h : Covers ms ms') (hms : ns.Perm ms)
    (hms' : ns'.Perm ms') : Covers ns ns' where
  names := ((hms'.map _).subperm.trans h.names).trans (hms.map _).symm.subperm
  fields := by
    rw [← List.length_eq_zero_iff, ← List.length_eq_zero_iff, (hms'.filter _).length_eq,
      (hms.filter _).length_eq, List.length_eq_zero_iff, List.length_eq_zero_iff]
    exact h.fields

theorem nodup (h : Covers ms ms') (hnodup : (ms.map (·.name)).Nodup) :
    (ms'.map (·.name)).Nodup := by
  obtain ⟨names, hperm, hsub⟩ := h.names
  exact hperm.nodup_iff.1 (hnodup.sublist hsub)

/-- Members may move along with others. -/
theorem moved {ns ns' : List PlacedMember} {outer : Option String} {base : UInt32}
    {source source' : Nat} (h : Covers ms ms')
    (hmoved : List.Forall₂ (Moved outer base source) ms ns)
    (hmoved' : List.Forall₂ (Moved outer base source') ms' ns') : Covers ns ns' where
  names := by
    rw [names_of_moved hmoved, names_of_moved hmoved']
    exact (List.map_subperm_map_iff (qualify_injective outer)).2 h.names
  fields := by
    rw [← List.length_eq_zero_iff, ← List.length_eq_zero_iff, ← (moved_filter hmoved').length_eq,
      ← (moved_filter hmoved).length_eq, List.length_eq_zero_iff, List.length_eq_zero_iff]
    exact h.fields

end Covers

/-! ### What a nested struct contributes -/

section

variable {o : Options} {child child' : FlatStruct} {outer : Option String} {base : UInt32}
  {source : Nat}

/-- The members of a struct that ends at a word can be moved. -/
theorem exists_promoteAll (hwithin : Within child.footprint.size.toNat child.members)
    (hend : base.toNat + child.footprint.size.toNat < Word.limit) (outer : Option String)
    (source : Nat) : ∃ ms, Placement.promoteAll child outer base source = some ms := by
  refine exists_mapM_eq_some fun m hm => ?_
  have hle := hwithin m hm
  cases hsum : Word.addChecked m.offset base with
  | none =>
    have := Word.addChecked_eq_none_iff.1 hsum
    omega
  | some offset =>
    rw [PlacedMember.promote, hsum]
    exact ⟨_, rfl⟩

theorem exists_nestedMembers (hwithin : Within child.footprint.size.toNat child.members)
    (hend : base.toNat + child.footprint.size.toNat < Word.limit) (g : FieldDecl) (source : Nat) :
    ∃ ms, Placement.nestedMembers o g child source base = some ms := by
  obtain ⟨own, hown⟩ := exists_promoteAll hwithin hend none source
  obtain ⟨named, hnamed⟩ := exists_promoteAll hwithin hend (some g.name) source
  unfold Placement.nestedMembers
  rw [hown, hnamed]
  cases child.fields with
  | nil => exact ⟨[], rfl⟩
  | cons first rest =>
    simp only
    split
    · exact ⟨own, rfl⟩
    split
    · exact ⟨_, rfl⟩
    · exact ⟨_, rfl⟩

theorem covers_promoteAll {ms ms' : List PlacedMember} {source' : Nat} (h : child.Covers child')
    (hms : Placement.promoteAll child outer base source = some ms)
    (hms' : Placement.promoteAll child' outer base source' = some ms') : Covers ms ms' :=
  h.members.moved (moved_of_promoteAll hms) (moved_of_promoteAll hms')

/-- An accessor is added to members with a field. -/
theorem insertReference_perm (reference : String → PlacedMember) {ms : List PlacedMember}
    (h : (ms.filter fun m => !m.isAccessor) ≠ []) :
    ∃ name, (Placement.insertReference reference ms).Perm (reference name :: ms) := by
  obtain ⟨before, first, after, rfl, hbefore, hfirst⟩ := exists_first_field h
  refine ⟨first.name, ?_⟩
  rw [insertReference_append hbefore hfirst]
  have hmiddle := @List.perm_middle _ (reference first.name) (before ++ [first]) after
  simpa only [List.append_assoc, List.singleton_append] using hmiddle

theorem covers_insertReference {reference reference' : String → PlacedMember}
    {ms ms' : List PlacedMember} (h : Covers ms ms') (hne : (ms.filter fun m => !m.isAccessor) ≠ [])
    (hname : ∀ n n', (reference' n').name = (reference n).name)
    (haccessor : ∀ n n', (reference' n').isAccessor = (reference n).isAccessor) :
    Covers (Placement.insertReference reference ms) (Placement.insertReference reference' ms') := by
  obtain ⟨name, hperm⟩ := insertReference_perm reference hne
  obtain ⟨name', hperm'⟩ := insertReference_perm reference' (mt h.fields.1 hne)
  have hcons : Covers (reference name :: ms) (reference' name' :: ms') :=
    .cons (hname name name') (haccessor name name') h
  exact hcons.perm hperm hperm'

/-- Moving leaves fields where there are fields. -/
theorem fields_ne_nil_of_moved {ms ns : List PlacedMember}
    (h : List.Forall₂ (Moved outer base source) ms ns)
    (hne : (ms.filter fun m => !m.isAccessor) ≠ []) :
    (ns.filter fun m => !m.isAccessor) ≠ [] := by
  rw [← List.length_pos_iff, ← (moved_filter h).length_eq]
  exact List.length_pos_iff.2 hne

/-- **The names that a nested struct contributes** are among those that it contributed, if it is
nested in the same way. -/
theorem covers_nestedMembers {g g' : FieldDecl} {source' : Nat} {ms ms' : List PlacedMember}
    (h : child.Covers child') (hname : g'.name = g.name)
    (hmarkers : g'.markers.anonymous = g.markers.anonymous)
    (hms : Placement.nestedMembers o g child source base = some ms)
    (hms' : Placement.nestedMembers o g' child' source' base = some ms') : Covers ms ms' := by
  have hfields : child'.fields = [] ↔ child.fields = [] := h.members.fields
  unfold Placement.nestedMembers at hms hms'
  rw [hmarkers, h.anonymous, hname] at hms'
  cases hchild : child.fields with
  | nil =>
    rw [hchild] at hms
    rw [hfields.2 hchild] at hms'
    cases hms
    cases hms'
    exact .refl []
  | cons first rest =>
    obtain ⟨first', rest', hchild'⟩ : ∃ first' rest', child'.fields = first' :: rest' := by
      refine List.exists_cons_of_ne_nil fun hnil => ?_
      rw [hfields.1 hnil] at hchild
      cases hchild
    rw [hchild] at hms
    rw [hchild'] at hms'
    simp only at hms hms'
    split at hms
    next hanonymous =>
      rw [if_pos hanonymous] at hms'
      exact covers_promoteAll h hms hms'
    next hnamed =>
      rw [if_neg hnamed] at hms'
      split at hms
      next hinline =>
        rw [if_pos hinline] at hms'
        obtain ⟨moved, hmoved, rfl⟩ := Option.map_eq_some_iff.1 hms
        obtain ⟨moved', hmoved', rfl⟩ := Option.map_eq_some_iff.1 hms'
        have hfirst : child.fields ≠ [] := by
          rw [hchild]
          exact List.cons_ne_nil first rest
        have hne := fields_ne_nil_of_moved (moved_of_promoteAll hmoved) hfirst
        exact covers_insertReference (covers_promoteAll h hmoved hmoved') hne
          (fun _ _ => congrArg refName hname) fun _ _ => rfl
      next hinline =>
        rw [if_neg hinline] at hms'
        cases hms
        cases hms'
        exact .cons rfl rfl (.single (congrArg refName hname) rfl)

end

/-! ### Placements -/

/-- Placements that differ in their members only, and in the name for messages. -/
structure Placement.Like (p p' : Placement) : Prop where
  rule : p'.rule = p.rule
  isUnion : p'.isUnion = p.isUnion
  size : p'.size = p.size
  largest : p'.largest = p.largest

namespace Placement.Like

variable {p p' : Placement} (h : p.Like p')

include h

theorem align {natural base offset : UInt32} (halign : p.align natural base = .ok offset) :
    p'.align natural base = .ok offset := by
  unfold Placement.align at halign ⊢
  rw [h.rule]
  split at halign
  · exact halign
  · cases halign

theorem baseOffset {g g' : FieldDecl} (hoffset : g'.offset = g.offset) {base : UInt32}
    (hbase : p.baseOffset g = .ok base) : p'.baseOffset g' = .ok base := by
  unfold Placement.baseOffset at hbase ⊢
  rw [h.rule, h.isUnion, h.size, hoffset]
  by_cases hunion : p.isUnion = true
  · rwa [if_pos hunion] at hbase ⊢
  rw [if_neg hunion] at hbase ⊢
  by_cases hexplicit : p.rule.isExplicit = true
  · rw [if_pos hexplicit] at hbase ⊢
    cases hsome : g.offset with
    | none => rw [hsome] at hbase; cases hbase
    | some offset => rw [hsome] at hbase; exact hbase
  · rwa [if_neg hexplicit] at hbase ⊢

theorem plainRole : p'.plainRole = p.plainRole := by
  rw [Placement.plainRole, Placement.plainRole, h.isUnion]

theorem add (alignment : UInt32) (ms ms' : List PlacedMember) :
    (p.add alignment ms).Like (p'.add alignment ms') where
  rule := h.rule
  isUnion := h.isUnion
  size := h.size
  largest := by rw [Placement.add, Placement.add, h.largest]

theorem advance {offset size : UInt32} {q : Placement} (hadvance : p.advance offset size = .ok q) :
    ∃ q', p'.advance offset size = .ok q' ∧ q.Like q' := by
  have hover : p'.overlapping = p.overlapping := by
    rw [Placement.overlapping, Placement.overlapping, h.isUnion, h.rule]
  unfold Placement.advance at hadvance ⊢
  rw [hover, h.size]
  cases hend : Word.addChecked offset size with
  | none => rw [hend] at hadvance; cases hadvance
  | some fieldEnd =>
    rw [hend] at hadvance
    simp only at hadvance ⊢
    split at hadvance
    next hsmaller =>
      rw [if_pos hsmaller, ← Except.ok.inj hadvance]
      exact ⟨p', rfl, h⟩
    next hgreater =>
      rw [if_neg hgreater, ← Except.ok.inj hadvance]
      exact ⟨_, rfl, h.rule, h.isUnion, rfl, h.largest⟩

theorem finish {pad : Bool} {footprint : Footprint} (hfinish : p.finish pad = .ok footprint) :
    p'.finish pad = .ok footprint := by
  unfold Placement.finish at hfinish ⊢
  rw [h.rule, h.size, h.largest]
  cases pad with
  | false => rwa [if_neg Bool.false_ne_true] at hfinish ⊢
  | true =>
    obtain ⟨size, hsize, hfinish⟩ := bind_eq_ok hfinish
    simp only [if_true, h.align hsize, bind, Except.bind]
    exact hfinish

end Placement.Like

namespace LayoutRule

variable {struct struct' : String}

theorem packOf_name {written : Option UInt32} {pack : UInt32}
    (h : packOf struct written = .ok pack) : packOf struct' written = .ok pack := by
  cases written with
  | none => exact h
  | some n =>
    rw [packOf] at h ⊢
    split at h
    next hzero => rwa [if_pos hzero]
    next hzero =>
      rw [if_neg hzero]
      split at h
      next hpack => rwa [if_pos hpack]
      next => cases h

/-- The name of a struct is only for messages. -/
theorem ofAttr_name {a : Option LayoutAttr} {rule : LayoutRule} (h : ofAttr struct a = .ok rule) :
    ofAttr struct' a = .ok rule := by
  cases a with
  | none => exact h
  | some a =>
    obtain ⟨pack, hpack, h⟩ := bind_eq_ok h
    simp only [ofAttr, packOf_name hpack, bind, Except.bind]
    exact h

end LayoutRule

/-! ### Fields -/

/-- Elements that ask for the same place. -/
inductive Element.Alike : Element → Element → Prop
  | scalar (size : UInt32) : Alike (.scalar size) (.scalar size)
  | struct {flat flat' : FlatStruct} (footprint : flat'.footprint = flat.footprint)
      (within : Within flat'.footprint.size.toNat flat'.members) :
      Alike (.struct flat) (.struct flat')

theorem Element.Alike.alignment_eq {element element' : Element} (h : element.Alike element') :
    element'.alignment = element.alignment := by
  cases h with
  | scalar size => rfl
  | struct footprint => exact congrArg Footprint.alignment footprint

/-- Fields that are placed alike. -/
structure FieldDecl.Alike (g g' : FieldDecl) : Prop where
  name : g'.name = g.name
  type : g'.type = g.type
  fixedCount : g'.fixedCount = g.fixedCount
  offset : g'.offset = g.offset

/-- The step places the field of the spot again. -/
def Spot.Redone (t : Spot) (slot : Slot) : Prop :=
  ∃ g source, slot = .field g source ∧ t.decl.Alike g

/-- Moreover, a nested struct has a name there exactly if it had one. -/
def Spot.NamedAgain (t : Spot) (slot : Slot) : Prop :=
  ∃ g source, slot = .field g source ∧
    ∀ d, t.type = .struct d → g.markers.anonymous = t.decl.markers.anonymous

/-- What is laid out as a contained struct is laid out to the same footprint again. -/
def Resized (child child' : QualName → Except LayoutError FlatStruct) (d : QualName) : Prop :=
  ∀ f, child d = .ok f → ∃ f', child' d = .ok f' ∧ f'.footprint = f.footprint ∧
    Within f'.footprint.size.toNat f'.members

/-- Moreover, no name is new. -/
def Covered (child child' : QualName → Except LayoutError FlatStruct) (d : QualName) : Prop :=
  ∀ f f', child d = .ok f → child' d = .ok f' → f.Covers f'

section

variable {c c' : Catalog} {o : Options} {key : QualName}
  {child child' : QualName → Except LayoutError FlatStruct} {p p' q : Placement} {t : Spot}

theorem exists_element {type : Binding} {element : Element}
    (hmade : elementFrom o child type = .ok element)
    (hchild : ∀ d, type = .struct d → Resized child child' d) :
    ∃ element', elementFrom o child' type = .ok element' ∧ element.Alike element' := by
  cases type with
  | struct d =>
    obtain ⟨flat, hflat, rfl⟩ := made_struct hmade rfl
    obtain ⟨flat', hflat', hfootprint, hwithin⟩ := hchild d rfl flat hflat
    refine ⟨.struct flat', ?_, .struct hfootprint hwithin⟩
    simp only [elementFrom, hflat', bind, Except.bind]
    rfl
  | primitive p => cases hmade; exact ⟨_, rfl, .scalar _⟩
  | pointer r => cases hmade; exact ⟨_, rfl, .scalar _⟩
  | enum k p => cases hmade; exact ⟨_, rfl, .scalar _⟩
  | managed name => cases hmade

/-- A field that is placed alike has something to contribute, and if nothing decides differently
over names, its names are among those that were contributed. -/
theorem Spot.Filled.alike {role : Role} (h : t.Filled o role) {element : Element}
    (halike : t.element.Alike element) {g : FieldDecl} (hg : t.decl.Alike g)
    (hend : t.offset.toNat + t.size.toNat < Word.limit) (source : Nat) :
    ∃ ms, Spot.Filled o role ⟨g, source, t.type, element, t.offset, t.size, ms⟩ ∧
      ((∀ flat flat', t.element = .struct flat → element = .struct flat' →
        g.markers.anonymous = t.decl.markers.anonymous ∧ flat.Covers flat') →
          Covers t.members ms) := by
  cases h with
  | scalar hcount helement hmembers =>
    rw [helement] at halike
    cases halike
    refine ⟨[.ofField g source t.offset t.size role],
      .scalar (hg.fixedCount.trans hcount) rfl rfl, fun _ => ?_⟩
    rw [hmembers]
    exact .single hg.name rfl
  | native count size hcount helement hnative hsized hmembers =>
    rw [helement] at halike
    cases halike
    refine ⟨[.ofField g source t.offset t.size role],
      .native count size (hg.fixedCount.trans hcount) rfl hnative hsized rfl, fun _ => ?_⟩
    rw [hmembers]
    exact .single hg.name rfl
  | started count size hcount helement hnative hsized hmembers =>
    rw [helement] at halike
    cases halike
    refine ⟨[{ PlacedMember.ofField g source t.offset t.size .bufferStart with
        name := startName g.name, fixedCount := none },
      .bufferAccessor g (startName g.name) t.offset source],
      .started count size (hg.fixedCount.trans hcount) rfl hnative hsized rfl, fun _ => ?_⟩
    rw [hmembers]
    exact .cons (congrArg startName hg.name) rfl (.single hg.name rfl)
  | nested flat hcount helement hsize hmembers =>
    rw [helement] at halike
    obtain ⟨⟩ | @⟨_, flat', hfootprint, hwithin⟩ := halike
    have hsize' : t.size = flat'.footprint.size := by rw [hsize, hfootprint]
    obtain ⟨ms, hms⟩ := exists_nestedMembers (o := o) hwithin (hsize' ▸ hend) g source
    refine ⟨ms, .nested flat' (hg.fixedCount.trans hcount) rfl hsize' hms, fun hnames => ?_⟩
    obtain ⟨hmarkers, hcovers⟩ := hnames flat flat' helement rfl
    exact covers_nestedMembers hcovers hg.name hmarkers hmembers hms

/-- **One field.** -/
theorem SpotStep.alike (h : SpotStep c o child key p t q) (hlike : p.Like p') {slot : Slot}
    (hslot : t.Redone slot) (hbind : c'.bind t.decl.type key = .ok t.type)
    (hchild : ∀ d, t.type = .struct d → Resized child child' d) :
    ∃ t' q', t'.slot = slot ∧ SpotStep c' o child' key p' t' q' ∧ q.Like q' ∧
      (t.NamedAgain slot → (∀ d, t.type = .struct d → Covered child child' d) →
        Covers t.members t'.members) := by
  obtain ⟨g, source, rfl, hg⟩ := hslot
  obtain ⟨element, hmade, halike⟩ := exists_element h.made hchild
  obtain ⟨base, hbase, halign⟩ := h.aligned
  have hend : t.offset.toNat + t.size.toNat < Word.limit := by
    obtain ⟨fieldEnd, hend, -⟩ := Placement.advance_eq_ok h.advanced
    rw [← hend]
    exact fieldEnd.toNat_lt
  obtain ⟨ms, hfilled, hcovers⟩ := h.filled.alike halike hg hend source
  obtain ⟨q', hadvanced, hlike'⟩ := (hlike.add t.element.alignment t.members ms).advance h.advanced
  have hstep : SpotStep c' o child' key p'
      ⟨g, source, t.type, element, t.offset, t.size, ms⟩ q' := by
    refine ⟨?_, hmade, ⟨base, hlike.baseOffset hg.offset hbase, ?_⟩, ?_, ?_⟩
    · rw [hg.type]
      exact hbind
    · rw [halike.alignment_eq]
      exact hlike.align halign
    · rw [hlike.plainRole]
      exact hfilled
    · rw [halike.alignment_eq]
      exact hadvanced
  refine ⟨_, q', rfl, hstep, hlike', fun hnamed hcontained => ?_⟩
  refine hcovers fun flat flat' hflat hflat' => ?_
  obtain ⟨g', source', hslot, hmarkers⟩ := hnamed
  obtain ⟨rfl, -⟩ := Slot.field.inj hslot
  obtain ⟨d, htype, hmade₁⟩ := exists_struct_of_made (hflat ▸ h.made)
  obtain ⟨d', htype', hmade₂⟩ := exists_struct_of_made (hflat' ▸ hmade)
  obtain rfl := Binding.struct.inj (htype.symm.trans htype')
  exact ⟨hmarkers d htype, hcontained d htype flat flat' hmade₁ hmade₂⟩

/-- **All fields.** -/
theorem SpotRun.alike {ts : List Spot} (h : SpotRun c o child key p ts q) (hlike : p.Like p')
    {slots : List Slot} (hslots : List.Forall₂ Spot.Redone ts slots)
    (hbind : ∀ t ∈ ts, c'.bind t.decl.type key = .ok t.type)
    (hchild : ∀ t ∈ ts, ∀ d, t.type = .struct d → Resized child child' d) :
    ∃ ts' q', slots = ts'.map Spot.slot ∧ SpotRun c' o child' key p' ts' q' ∧ q.Like q' ∧
      (List.Forall₂ Spot.NamedAgain ts slots →
        (∀ t ∈ ts, ∀ d, t.type = .struct d → Covered child child' d) →
          Covers (ts.flatMap Spot.members) (ts'.flatMap Spot.members)) := by
  induction h generalizing p' slots with
  | nil p =>
    cases hslots
    exact ⟨[], p', rfl, .nil p', hlike, fun _ _ => .refl []⟩
  | @cons p q r t ts first rest ih =>
    obtain ⟨slot, rest', hslot, hrest, rfl⟩ := List.forall₂_cons_left_iff.1 hslots
    obtain ⟨t', q', rfl, hstep, hlike, hfirst⟩ := first.alike hlike hslot
      (hbind t List.mem_cons_self) (hchild t List.mem_cons_self)
    obtain ⟨ts', r', rfl, hrun, hlike, hcovers⟩ := ih hlike hrest
      (fun t ht => hbind t (List.mem_cons_of_mem _ ht))
      (fun t ht => hchild t (List.mem_cons_of_mem _ ht))
    refine ⟨t' :: ts', r', rfl, .cons hstep hrun, hlike, fun hnamed hcontained => ?_⟩
    obtain ⟨hnamed, hnamedRest⟩ := List.forall₂_cons.1 hnamed
    rw [List.flatMap_cons, List.flatMap_cons]
    refine (hfirst hnamed (hcontained t List.mem_cons_self)).append (hcovers hnamedRest ?_)
    exact fun t ht => hcontained t (List.mem_cons_of_mem _ ht)

/-! ### Structs -/

/-- Nothing decides differently over a name in a struct with the spots `ts`, declared as `s` and now
as `s'`. -/
structure Unrenamed (child child' : QualName → Except LayoutError FlatStruct) (ts : List Spot)
    (s s' : StructDecl) : Prop where
  anonymous : s'.markers.anonymous = s.markers.anonymous
  slots : List.Forall₂ Spot.NamedAgain ts s'.slots
  contained : ∀ t ∈ ts, ∀ d, t.type = .struct d → Covered child child' d

/-- **A struct is laid out alike** in a catalog where it has the same fields up to markers, their
types mean the same, and the contained structs have the same footprint, unless a name is used
twice. -/
theorem Laid.alike {s s' : StructDecl} {rule : LayoutRule} {ts : List Spot} {f : FlatStruct}
    (laid : Laid c o child key s rule ts p f) (hs : c'.struct? key = some s')
    (hlayout : s'.layout = s.layout) (hunion : s'.markers.union = s.markers.union)
    (hslots : List.Forall₂ Spot.Redone ts s'.slots)
    (hbind : ∀ t ∈ ts, c'.bind t.decl.type key = .ok t.type)
    (hchild : ∀ t ∈ ts, ∀ d, t.type = .struct d → Resized child (c'.answer o) d)
    (hnames : Unrenamed child (c'.answer o) ts s s' ∨
      ∀ struct name, c'.answer o key ≠ .error (.duplicateMember struct name)) :
    ∃ f', c'.answer o key = .ok f' ∧ f'.footprint = f.footprint ∧
      (Unrenamed child (c'.answer o) ts s s' → f.Covers f') := by
  have hrule : LayoutRule.ofAttr s'.name s'.layout = .ok rule := by
    rw [hlayout]
    exact LayoutRule.ofAttr_name laid.ruled
  have hstart : (Placement.start s.name rule s.markers.union).Like
      (.start s'.name rule s'.markers.union) := ⟨rfl, hunion, rfl, rfl⟩
  obtain ⟨ts', q, hts, hrun, hlike, hcovers⟩ := laid.run.alike hstart hslots hbind hchild
  have hmembers : q.members = ts'.flatMap Spot.members := hrun.members_eq
  rw [← laid.members_eq, ← hmembers] at hcovers
  have hnodup : (q.members.map (·.name)).Nodup := by
    rcases hnames with hnames | hnames
    · exact (hcovers hnames.slots hnames.contained).nodup laid.nodup
    · by_contra hrepeated
      obtain ⟨name, hanswer⟩ := Catalog.answer_of_repeated hs hrule hts hrun hrepeated
      exact hnames q.name name hanswer
  have hlay := layoutFrom_of_spotRun hrule hts hrun hnodup (hlike.finish laid.finished)
  refine ⟨_, Catalog.answer_of_layoutFrom hs hlay, rfl, fun hnames => ⟨?_, ?_⟩⟩
  · rw [laid.markers_eq]
    exact hnames.anonymous
  · exact hcovers hnames.slots hnames.contained

end

end FlatLayout
