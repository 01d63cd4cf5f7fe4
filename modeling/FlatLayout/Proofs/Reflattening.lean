import FlatLayout.Proofs.Rounding
import FlatLayout.Proofs.TypeNames

/-!
# Flattening a flat declaration

A flat declaration is a struct declaration like any other, and may be flattened itself. Nothing is
computed then: its author writes all offsets, its pack makes every offset suitable, and its size is
written down. So each field is read as a scalar or a buffer at its offset, `Restored`, and the
struct comes out as it went in, provided that

* the names of types still mean what they meant, which is taken for granted only of primitive types
  and pointers;
* no field takes more bytes than it was given. The first element of an empty buffer does.

## Main definitions

* `Restored` — a field of a flat struct, and what its declaration is read as

## Main results

* `restored_of_spotRun` — the fields of a flat declaration are read as they were placed
* `answer_of_redeclared` — a flat declaration whose fields fit has the footprint that it says
* `reflatten_of_fits` — and is the flat declaration of itself
* `reflatten_eq` — flattening a flat declaration changes nothing
-/

namespace FlatLayout

open Relation

/-- The rule of every flat declaration. -/
def LayoutRule.flat (size : UInt32) : LayoutRule := ⟨.explicit, 1, size⟩

theorem LayoutRule.ofAttr_flat (struct : String) (size : UInt32) :
    ofAttr struct (some (.flat size)) = .ok (.flat size) := rfl

section

variable {c : Catalog} {o : Options} {child : QualName → Except LayoutError FlatStruct}
  {key : QualName} {p q : Placement} {size : UInt32} {m : PlacedMember} {t : Spot}

/-! ### One field -/

/-- Every offset is a multiple of one byte. -/
theorem Placement.align_of_pack_one (hpack : p.rule.pack = 1) (natural base : UInt32) :
    p.align natural base = .ok base := by
  have hvalue : (Alignment.effective p.rule.pack natural).value.toNat = 1 := by
    have hone : (1 : UInt32).toNat = 1 := rfl
    rw [Alignment.toNat_effective, hpack, hone]
    omega
  have halign : (Alignment.effective p.rule.pack natural).align base = some base := by
    rw [Alignment.align_eq_self_iff, Alignment.isAligned_iff, hvalue]
    exact Nat.one_dvd _
  rw [Placement.align, halign]

theorem Placement.exists_advance {offset size : UInt32}
    (h : offset.toNat + size.toNat < Word.limit) (p : Placement) :
    ∃ q, p.advance offset size = .ok q := by
  cases hend : Word.addChecked offset size with
  | none =>
    have := Word.addChecked_eq_none_iff.1 hend
    omega
  | some fieldEnd =>
    simp only [Placement.advance, hend]
    split <;> exact ⟨_, rfl⟩

/-- The declaration of the field `m` of a flat struct was read, and has the spot `t`. -/
structure Restored (pointerWidth : UInt32) (m : PlacedMember) (t : Spot) : Prop where
  decl : t.decl = m.toField
  offset : t.offset = m.offset
  unit : t.type.scalarSize? pointerWidth = some t.element.alignment
  size : t.size.toNat = m.storage t.element.alignment
  members : t.members = [.ofField t.decl t.source t.offset t.size .plain]

theorem Placement.plainRole_of_not_union (h : p.isUnion = false) : p.plainRole = .plain := by
  rw [plainRole, h]
  rfl

/-- A scalar or a buffer is read at the offset that is written. -/
theorem SpotStep.restored (h : SpotStep c o child key p t q) (hrule : p.rule = .flat size)
    (hunion : p.isUnion = false) (hdecl : t.decl = m.toField) {unit : UInt32}
    (hreads : m.ReadsAs o.pointerWidth t.type unit) : Restored o.pointerWidth m t := by
  obtain ⟨base, hbase, halign⟩ := h.aligned
  have hoffset : t.offset = m.offset := by
    rw [Placement.baseOffset, hunion, hrule, hdecl] at hbase
    rw [Placement.align_of_pack_one (by rw [hrule]; rfl), ← Except.ok.inj hbase] at halign
    exact (Except.ok.inj halign).symm
  have hcount : t.decl.fixedCount = m.fixedCount := by rw [hdecl]; rfl
  have hrole := Placement.plainRole_of_not_union hunion
  have hmade := h.made
  cases h.filled with
  | scalar hnone helement hmembers =>
    rw [helement] at hmade
    refine ⟨hdecl, hoffset, ?_, ?_, hrole ▸ hmembers⟩
    · rw [helement]
      exact scalarSize?_of_made hmade
    · rw [helement, PlacedMember.storage_of_none (hcount.symm.trans hnone)]
      rfl
  | native n elementSize hsome helement _ hsized hmembers =>
    rw [helement] at hmade
    refine ⟨hdecl, hoffset, ?_, ?_, hrole ▸ hmembers⟩
    · rw [helement]
      exact scalarSize?_of_made hmade
    · rw [helement, PlacedMember.storage_of_some (hcount.symm.trans hsome)]
      exact hsized
  | started n elementSize hsome _ hnative =>
    rw [hreads.native n (hcount.symm.trans hsome)] at hnative
    cases hnative
  | nested flat _ helement =>
    obtain ⟨e, htype, -⟩ := exists_struct_of_made (helement ▸ hmade)
    have hsize := hreads.size
    rw [htype] at hsize
    cases hsize

/-- A field whose bytes end at a word can be read. -/
theorem exists_spotStep_of_readsAs {type : Binding} {unit : UInt32} (hrule : p.rule = .flat size)
    (hunion : p.isUnion = false) (hbind : c.bind m.type key = .ok type)
    (hreads : m.ReadsAs o.pointerWidth type unit)
    (hfits : m.offset.toNat + m.storage unit < Word.limit) (source : Nat) :
    ∃ t q, t.slot = .field m.toField source ∧ SpotStep c o child key p t q := by
  obtain ⟨bytes, hbytes, hfilled⟩ : ∃ bytes : UInt32, bytes.toNat = m.storage unit ∧
      Spot.Filled o p.plainRole ⟨m.toField, source, type, .scalar unit, m.offset, bytes,
        [.ofField m.toField source m.offset bytes p.plainRole]⟩ := by
    cases hcount : m.fixedCount with
    | none => exact ⟨unit, (PlacedMember.storage_of_none hcount unit).symm, .scalar hcount rfl rfl⟩
    | some n =>
      rw [PlacedMember.storage_of_some hcount] at hfits ⊢
      cases hmul : Word.mulChecked unit n with
      | none =>
        have := Word.mulChecked_eq_none_iff.1 hmul
        omega
      | some bytes =>
        have hbytes := Word.mulChecked_eq_some_iff.1 hmul
        exact ⟨bytes, hbytes, .native n unit hcount rfl (hreads.native n hcount) hbytes rfl⟩
  obtain ⟨q, hadvance⟩ := Placement.exists_advance (hbytes ▸ hfits) (p.add unit _)
  refine ⟨_, q, rfl, hbind, made_of_scalarSize? hreads.size, ⟨m.offset, ?_, ?_⟩, hfilled, hadvance⟩
  · rw [Placement.baseOffset, hunion, hrule]
    rfl
  · exact Placement.align_of_pack_one (by rw [hrule]; rfl) _ _

/-! ### All fields -/

theorem restored_of_spotRun {ts : List Spot} {ms : List PlacedMember}
    (hslots : Redeclared (ts.map Spot.slot) ms) (hrun : SpotRun c o child key p ts q)
    (hrule : p.rule = .flat size) (hunion : p.isUnion = false)
    (hreads : ∀ m ∈ ms, ∀ type, c.bind m.type key = .ok type →
      ∃ unit, m.ReadsAs o.pointerWidth type unit) :
    List.Forall₂ (Restored o.pointerWidth) ms ts := by
  induction hrun generalizing ms with
  | nil =>
    cases hslots
    exact .nil
  | @cons p q r t ts first rest ih =>
    obtain ⟨m, ms, ⟨i, hslot⟩, hrest, rfl⟩ := List.forall₂_cons_left_iff.1 hslots
    obtain ⟨hdecl, -⟩ := Slot.field.inj hslot
    obtain ⟨unit, hunit⟩ := hreads m List.mem_cons_self t.type (by
      have hbound := first.bound
      rwa [hdecl] at hbound)
    refine .cons (first.restored hrule hunion hdecl hunit) (ih hrest ?_ ?_ ?_)
    · rw [first.rule_eq, hrule]
    · rw [first.isUnion_eq, hunion]
    · exact fun m hm => hreads m (List.mem_cons_of_mem _ hm)

theorem exists_spotRun_of_redeclared {slots : List Slot} {ms : List PlacedMember}
    (hslots : Redeclared slots ms) (hrule : p.rule = .flat size) (hunion : p.isUnion = false)
    (hfits : ∀ m ∈ ms, ∃ type unit, c.bind m.type key = .ok type ∧
      m.ReadsAs o.pointerWidth type unit ∧ m.offset.toNat + m.storage unit < Word.limit) :
    ∃ ts q, slots = ts.map Spot.slot ∧ SpotRun c o child key p ts q := by
  induction hslots generalizing p with
  | nil => exact ⟨[], p, rfl, .nil p⟩
  | @cons slot m slots ms hslot _ ih =>
    obtain ⟨i, rfl⟩ := hslot
    obtain ⟨type, unit, hbind, hreads, hfit⟩ := hfits m List.mem_cons_self
    obtain ⟨t, q, hslot, hstep⟩ : ∃ t q, t.slot = .field m.toField i ∧
        SpotStep c o child key p t q :=
      exists_spotStep_of_readsAs hrule hunion hbind hreads hfit i
    obtain ⟨ts, r, hts, hrun⟩ := ih (hstep.rule_eq.trans hrule) (hstep.isUnion_eq.trans hunion)
      fun m hm => hfits m (List.mem_cons_of_mem _ hm)
    exact ⟨t :: ts, r, by rw [List.map_cons, hslot, hts], .cons hstep hrun⟩

/-! ### The end of the struct -/

theorem SpotRun.size_le {ts : List Spot} (hrun : SpotRun c o child key p ts q)
    (hexplicit : p.overlapping = true) {n : Nat} (hstart : p.size.toNat ≤ n)
    (hfits : ∀ t ∈ ts, t.offset.toNat + t.size.toNat ≤ n) : q.size.toNat ≤ n := by
  induction hrun with
  | nil => exact hstart
  | @cons p q r t ts first rest ih =>
    have hsize := first.toNat_size
    rw [hexplicit, if_pos rfl] at hsize
    have hfit := hfits t List.mem_cons_self
    have hover : q.overlapping = true := by
      rw [Placement.overlapping, first.isUnion_eq, first.rule_eq]
      exact hexplicit
    exact ih hover (by omega) fun t ht => hfits t (List.mem_cons_of_mem _ ht)

theorem SpotRun.largest_eq {ts : List Spot} (hrun : SpotRun c o child key p ts q) {a : UInt32}
    (hstart : p.largest.toNat ≤ a.toNat) (hle : ∀ t ∈ ts, t.element.alignment.toNat ≤ a.toNat)
    (hmax : p.largest = a ∨ ∃ t ∈ ts, t.element.alignment = a) : q.largest = a := by
  obtain ⟨hlower, hspots⟩ := hrun.alignment_le
  refine UInt32.toNat_inj.1 (Nat.le_antisymm ?_ ?_)
  · rcases hrun.largest_eq_or with heq | ⟨t, ht, heq⟩
    · rw [heq]; exact hstart
    · rw [heq]; exact hle t ht
  · rcases hmax with rfl | ⟨t, ht, rfl⟩
    · exact hlower
    · exact hspots t ht

/-- A flat declaration has the size that is written in it, if its fields end inside. -/
theorem Placement.finish_of_flat (hrule : p.rule = .flat size) (hle : p.size.toNat ≤ size.toNat)
    (pad : Bool) : p.finish pad = .ok ⟨size, p.largest⟩ := by
  have hwritten : (if p.size ≤ p.rule.size then p.rule.size else p.size) = size := by
    rw [hrule]
    exact if_pos (UInt32.le_iff_toNat_le.2 hle)
  have halign : p.align p.largest p.size = .ok p.size := align_of_pack_one (by rw [hrule]; rfl) _ _
  cases pad with
  | true =>
    simp only [finish, if_true, halign, bind, Except.bind]
    rw [hwritten]
  | false =>
    simp only [finish, bind, Except.bind]
    rw [← hwritten]
    rfl

/-- The field that was read is declared as it was. -/
theorem Restored.toField {pointerWidth : UInt32} (h : Restored pointerWidth m t) :
    t.members.map PlacedMember.toField = [m.toField] := by
  rw [h.members, h.decl, h.offset]
  rfl

theorem Restored.isAccessor {pointerWidth : UInt32} (h : Restored pointerWidth m t)
    {k : PlacedMember} (hk : k ∈ t.members) : k.isAccessor = false := by
  rw [h.members] at hk
  rw [List.mem_singleton.1 hk]
  rfl

theorem Restored.toMember {pointerWidth : UInt32} (h : Restored pointerWidth m t)
    (container : String) : t.members.map (·.toMember container) = [.field t.decl] := by
  rw [h.members, h.decl, h.offset]
  rfl

theorem toField_of_restored {pointerWidth : UInt32} {ms : List PlacedMember} {ts : List Spot}
    (h : List.Forall₂ (Restored pointerWidth) ms ts) :
    (ts.flatMap Spot.members).map PlacedMember.toField = ms.map PlacedMember.toField := by
  induction h with
  | nil => rfl
  | cons first _ ih => rw [List.flatMap_cons, List.map_append, first.toField, ih]; rfl

theorem names_of_toField {ms ms' : List PlacedMember}
    (h : ms.map PlacedMember.toField = ms'.map PlacedMember.toField) :
    ms.map (·.name) = ms'.map (·.name) := by
  have hnames := congrArg (List.map FieldDecl.name) h
  rwa [List.map_map, List.map_map] at hnames

/-- Every spot is the one of a field. -/
theorem exists_restored {pointerWidth : UInt32} {ms : List PlacedMember} {ts : List Spot}
    (h : List.Forall₂ (Restored pointerWidth) ms ts) (ht : t ∈ ts) :
    ∃ m ∈ ms, Restored pointerWidth m t :=
  exists_of_forall₂ (R := flip (Restored pointerWidth)) h.flip ht

theorem isAccessor_of_restored {pointerWidth : UInt32} {ms : List PlacedMember} {ts : List Spot}
    (h : List.Forall₂ (Restored pointerWidth) ms ts) {k : PlacedMember}
    (hk : k ∈ ts.flatMap Spot.members) : k.isAccessor = false := by
  obtain ⟨t, ht, hk⟩ := List.mem_flatMap.1 hk
  obtain ⟨m, -, hrestored⟩ := exists_restored h ht
  exact hrestored.isAccessor hk

/-- The declaration of the field `m` means the type `type` in the struct `key`, and can be read
inside a struct with a footprint. -/
structure PlacedMember.Fits (m : PlacedMember) (c : Catalog) (o : Options) (key : QualName)
    (footprint : Footprint) (type : Binding) (unit : UInt32) : Prop where
  bound : c.bind m.type key = .ok type
  reads : m.ReadsAs o.pointerWidth type unit
  inside : m.offset.toNat + m.storage unit ≤ footprint.size.toNat
  aligned : unit.toNat ≤ footprint.alignment.toNat

/-- What was read keeps to the footprint. -/
theorem Restored.fits {footprint : Footprint} {type : Binding} {unit : UInt32}
    (h : Restored o.pointerWidth m t) (hfits : m.Fits c o key footprint type unit)
    (hbound : c.bind t.decl.type key = .ok t.type) :
    t.type = type ∧ t.offset.toNat + t.size.toNat ≤ footprint.size.toNat ∧
      t.element.alignment.toNat ≤ footprint.alignment.toNat := by
  rw [h.decl] at hbound
  obtain rfl := Except.ok.inj (hbound.symm.trans hfits.bound)
  obtain rfl := Option.some.inj (h.unit.symm.trans hfits.reads.size)
  exact ⟨rfl, by rw [h.offset, h.size]; exact hfits.inside, hfits.aligned⟩

/-- Fields that fit make up the footprint, if one of them asks for the alignment. -/
theorem SpotRun.finish_of_fits {ms : List PlacedMember} {ts : List Spot} {footprint : Footprint}
    (hrun : SpotRun c o child key p ts q) (hrule : p.rule = .flat footprint.size)
    (hsize : p.size = 0) (hlargest : p.largest = 0)
    (hrestored : List.Forall₂ (Restored o.pointerWidth) ms ts)
    (hfits : ∀ m ∈ ms, ∃ type unit, m.Fits c o key footprint type unit)
    (hmax : footprint.alignment = 0 ∨
      ∃ m ∈ ms, ∃ type, m.Fits c o key footprint type footprint.alignment) (pad : Bool) :
    q.finish pad = .ok footprint := by
  have hspots : ∀ t ∈ ts, t.offset.toNat + t.size.toNat ≤ footprint.size.toNat ∧
      t.element.alignment.toNat ≤ footprint.alignment.toNat := by
    intro t ht
    obtain ⟨m, hm, hmt⟩ := exists_restored hrestored ht
    obtain ⟨type, unit, hfit⟩ := hfits m hm
    obtain ⟨_, _, hstep⟩ := hrun.exists_step ht
    exact (hmt.fits hfit hstep.bound).2
  have hover : p.overlapping = true := by
    rw [Placement.overlapping, hrule]
    exact Bool.or_true _
  have hle : q.size.toNat ≤ footprint.size.toNat :=
    hrun.size_le hover (hsize ▸ Nat.zero_le _) fun t ht => (hspots t ht).1
  have hmost : q.largest = footprint.alignment := by
    refine hrun.largest_eq (hlargest ▸ Nat.zero_le _) (fun t ht => (hspots t ht).2) ?_
    rcases hmax with hzero | ⟨m, hm, type, hfit⟩
    · exact .inl (hlargest.trans hzero.symm)
    · obtain ⟨t, ht, hmt⟩ := exists_of_forall₂ hrestored hm
      obtain ⟨_, _, hstep⟩ := hrun.exists_step ht
      obtain ⟨rfl, -⟩ := hmt.fits hfit hstep.bound
      exact .inr ⟨t, ht, Option.some.inj (hmt.unit.symm.trans hfit.reads.size)⟩
  rw [Placement.finish_of_flat (hrun.rule_eq.trans hrule) hle, hmost]

/-- **A flat declaration whose fields fit** has the footprint that it says. -/
theorem answer_of_redeclared {s : StructDecl} {ms : List PlacedMember} {footprint : Footprint}
    (hs : c.struct? key = some s) (hlayout : s.layout = some (.flat footprint.size))
    (hmarkers : s.markers = .none) (hslots : Redeclared s.slots ms)
    (hnodup : (ms.map (·.name)).Nodup)
    (hfits : ∀ m ∈ ms, ∃ type unit, m.Fits c o key footprint type unit)
    (hmax : footprint.alignment = 0 ∨
      ∃ m ∈ ms, ∃ type, m.Fits c o key footprint type footprint.alignment) :
    ∃ rule ts p f, Laid c o (c.answer o) key s rule ts p f ∧ c.answer o key = .ok f ∧
      f.footprint = footprint ∧ List.Forall₂ (Restored o.pointerWidth) ms ts := by
  have hlt := footprint.size.toNat_lt
  have hplain : s.markers.union = false := by rw [hmarkers]; rfl
  obtain ⟨ts, p, hts, hrun⟩ : ∃ ts p, s.slots = ts.map Spot.slot ∧ SpotRun c o (c.answer o) key
      (.start s.name (.flat footprint.size) s.markers.union) ts p := by
    refine exists_spotRun_of_redeclared hslots rfl hplain fun m hm => ?_
    obtain ⟨type, unit, hfit⟩ := hfits m hm
    exact ⟨type, unit, hfit.bound, hfit.reads, Nat.lt_of_le_of_lt hfit.inside hlt⟩
  have hrestored : List.Forall₂ (Restored o.pointerWidth) ms ts := by
    refine restored_of_spotRun (hts ▸ hslots) hrun rfl hplain fun m hm type hbind => ?_
    obtain ⟨type', unit, hfit⟩ := hfits m hm
    obtain rfl := Except.ok.inj (hbind.symm.trans hfit.bound)
    exact ⟨unit, hfit.reads⟩
  have hfinish := hrun.finish_of_fits rfl rfl rfl hrestored hfits hmax o.padTrailing
  have hnames : (p.members.map (·.name)).Nodup := by
    rw [hrun.members_eq]
    exact names_of_toField (toField_of_restored hrestored) ▸ hnodup
  have hlay := layoutFrom_of_spotRun (hlayout ▸ LayoutRule.ofAttr_flat s.name footprint.size) hts
    hrun hnames hfinish
  obtain ⟨rule, p', laid⟩ := laid_of_layoutFrom hlay
  exact ⟨rule, ts, p', _, laid, Catalog.answer_of_layoutFrom hs hlay, rfl, hrestored⟩

end

/-! ### What is copied, and what is read -/

/-- If every field of some members is read as it was declared, nothing changes. -/
theorem Emitted.eq_self {container : String} {n : Nat} {ms out : List Member} {ts : List Spot}
    (h : Emitted container n ms ts out)
    (hsingle : ∀ g, .field g ∈ ms → g.isInstance = true → g.isGrouped = false)
    (hsame : ∀ t ∈ ts, t.members.map (·.toMember container) = [.field t.decl]) : out = ms := by
  induction h with
  | nil => rfl
  | @replaced n f ms out ts us placed spots rest ih =>
    have hslots : (Member.field f).slots n = [.field f n] := by
      rw [Member.slots, placed, hsingle f List.mem_cons_self placed]
      rfl
    obtain ⟨t, ht, rfl⟩ : ∃ t, t.decl = f ∧ ts = [t] := by
      rw [hslots] at spots
      obtain ⟨t, ts, rfl, hslot, hnil⟩ := List.map_eq_cons_iff.1 spots.symm
      obtain rfl := List.map_eq_nil_iff.1 hnil
      exact ⟨t, (Slot.field.inj hslot).1, rfl⟩
    rw [List.flatMap_singleton, hsame t List.mem_cons_self, ht]
    refine congrArg (Member.field f :: ·) (ih ?_ ?_)
    · exact fun g hg => hsingle g (List.mem_cons_of_mem _ hg)
    · exact fun t ht => hsame t (List.mem_append_right _ ht)
  | copied passive rest ih =>
    refine congrArg (_ :: ·) (ih ?_ hsame)
    exact fun g hg => hsingle g (List.mem_cons_of_mem _ hg)

theorem StructDecl.withPlaced_eq_self {s : StructDecl} {placed : List PlacedMember} {size : UInt32}
    (hlayout : s.layout = some (.flat size)) (hmarkers : s.markers = .none)
    (hmembers : (s.withPlaced placed size).members = s.members) : s.withPlaced placed size = s := by
  obtain ⟨modifiers, name, markers, layout, members⟩ := s
  simp only at hlayout hmarkers hmembers
  subst hlayout hmarkers
  exact congrArg (StructDecl.mk modifiers name .none (some (.flat size))) hmembers

section

variable {c : Catalog} {o : Options} {key : QualName} {f : FlatStruct}

theorem layout_of_answer (h : c.answer o key = .ok f) :
    f.decl.layout = some (.flat f.footprint.size) ∧ f.decl.markers = .none := by
  obtain ⟨s, rule, ts, p, -, laid⟩ := Catalog.exists_laid_of_answer h
  rw [laid.decl_eq]
  exact ⟨rfl, rfl⟩

/-- No two fields of a flat struct have one name. -/
theorem nodup_fields_of_answer (h : c.answer o key = .ok f) : (f.fields.map (·.name)).Nodup :=
  (nodup_of_answer h).sublist (List.filter_sublist.map _)

theorem single_of_answer (h : c.answer o key = .ok f) (g : FieldDecl)
    (hg : Member.field g ∈ f.decl.members) (hinstance : g.isInstance = true) :
    g.isGrouped = false := by
  obtain ⟨m, -, rfl⟩ := instanceField_of_answer h (mem_fields_iff.2 hg) hinstance
  rfl

/-- **A flat declaration whose fields fit is flat already**: its size is written down, and its
alignment is the one that its fields ask for. -/
theorem reflatten_of_fits (h : c.answer o key = .ok f) {c' : Catalog}
    (hdecl : c'.struct? key = some f.decl) {footprint : Footprint}
    (hsize : footprint.size = f.footprint.size)
    (hfits : ∀ m ∈ f.fields, ∃ type unit, m.Fits c' o key footprint type unit)
    (hmax : footprint.alignment = 0 ∨
      ∃ m ∈ f.fields, ∃ type, m.Fits c' o key footprint type footprint.alignment) :
    ∃ f', c'.answer o key = .ok f' ∧ f'.footprint = footprint ∧ f'.decl = f.decl ∧
      f'.fields.map (fun m => (m.name, m.type, m.fixedCount, m.offset)) =
        f.fields.map (fun m => (m.name, m.type, m.fixedCount, m.offset)) := by
  obtain ⟨hlayout, hmarkers⟩ := layout_of_answer h
  rw [← hsize] at hlayout
  obtain ⟨rule, ts, p, f', laid, hf', hfootprint, hrestored⟩ :=
    answer_of_redeclared hdecl hlayout hmarkers (redeclared_of_answer h) (nodup_fields_of_answer h)
      hfits hmax
  refine ⟨f', hf', hfootprint, ?_, ?_⟩
  · have hmembers : f'.decl.members = f.decl.members := by
      refine laid.emitted.eq_self (single_of_answer h) fun t ht => ?_
      obtain ⟨m, -, hmt⟩ := exists_restored hrestored ht
      exact hmt.toMember _
    rw [laid.decl_eq, hfootprint] at hmembers ⊢
    exact StructDecl.withPlaced_eq_self hlayout hmarkers hmembers
  · have hfields : f'.fields = f'.members := by
      refine List.filter_eq_self.2 fun m hm => ?_
      rw [laid.members_eq] at hm
      rw [isAccessor_of_restored hrestored hm]
      rfl
    have htoField : f'.fields.map PlacedMember.toField = f.fields.map PlacedMember.toField := by
      rw [hfields, laid.members_eq, toField_of_restored hrestored]
    have hshape := congrArg (List.map fun g : FieldDecl =>
      (g.name, g.type, g.fixedCount, g.offset.getD 0)) htoField
    rwa [List.map_map, List.map_map] at hshape

/-! ### Primitive types and pointers -/

/-- What a field of a flat struct goes back to is declared in the closure of the struct, so
conditions on all declarations there are conditions on the field. -/
theorem fits_of_origin {d : QualName} {m : PlacedMember} {g : FieldDecl} {type : Binding}
    (h : c.answer o key = .ok f) (hm : m ∈ f.fields)
    (horigin : c.Origin o key m d g) (hbind : c.bind g.type d = .ok type)
    (hcount : g.fixedCount = some 0 → type.isBufferElement = true) {c' : Catalog}
    (hbind' : c'.bind m.type key = .ok type) :
    ∃ unit, m.Fits c' o key f.footprint type unit := by
  obtain ⟨hmem, hfield⟩ := List.mem_filter.1 hm
  have hfield : m.isAccessor = false := by simpa using hfield
  obtain ⟨unit, hreads⟩ := horigin.readsAs hfield hbind
  refine ⟨unit, hbind', hreads, ?_, horigin.unit_le hfield hbind hreads.size h⟩
  have hstorage : m.storage unit ≤ m.size.toNat := by
    refine horigin.storage_le hfield hbind (fun n hn hnative hzero => ?_) hreads.size
    rw [hcount (hzero ▸ hn)] at hnative
    cases hnative
  have hend := within_of_answer h m hmem
  omega

/-- With only primitive types and pointers at the bottom, the types of all fields mean the same in
every catalog. -/
theorem bind_of_leaves
    (hleaves : ∀ d g type, ReflTransGen c.Contains key d → c.HasField d g →
      c.bind g.type d = .ok type → type.isFixed = true ∨ type.isStruct = true) (c' : Catalog) :
    ∀ m ∈ f.fields, ∀ d g type, c.Origin o key m d g → c.bind g.type d = .ok type →
      c'.bind m.type key = .ok type := by
  intro m hm d g type horigin hbind
  obtain ⟨unit, hreads⟩ := horigin.readsAs (by simpa using (List.mem_filter.1 hm).2) hbind
  rcases hleaves d g type horigin.reachable horigin.hasField hbind with hfixed | hstruct
  · rw [horigin.type_eq]
    exact bind_of_isFixed hbind hfixed c' key
  · rw [hreads.not_isStruct] at hstruct
    cases hstruct

section

variable {c' : Catalog} (h : c.answer o key = .ok f)
  (hmeant : ∀ m ∈ f.fields, ∀ d g type, c.Origin o key m d g → c.bind g.type d = .ok type →
    c'.bind m.type key = .ok type)
  (hcounts : ∀ d g type, ReflTransGen c.Contains key d → c.HasField d g →
    c.bind g.type d = .ok type → g.fixedCount = some 0 → type.isBufferElement = true)

include h hmeant hcounts

/-- Where the types of the fields mean what they meant, and no buffer without a native form is
empty, every field can be read. -/
theorem fits_of_meant :
    ∀ m ∈ f.fields, ∃ type unit, m.Fits c' o key f.footprint type unit := by
  intro m hm
  obtain ⟨d, g, horigin⟩ := exists_origin h (List.mem_filter.1 hm).1
  obtain ⟨type, hbind⟩ := horigin.exists_bind
  exact ⟨type, fits_of_origin h hm horigin hbind
    (hcounts d g type horigin.reachable horigin.hasField hbind)
    (hmeant m hm d g type horigin hbind)⟩

/-- And where nested structs are spread, one of the fields asks for the whole alignment. -/
theorem largest_of_meant (hinline : o.inlineNested = true) :
    f.footprint.alignment = 0 ∨
      ∃ m ∈ f.fields, ∃ type, m.Fits c' o key f.footprint type f.footprint.alignment := by
  rcases alignment_of_answer h hinline with hzero | ⟨m, hm, d, g, type, horigin, hbind, hunit⟩
  · exact .inl hzero
  · obtain ⟨unit, hfit⟩ := fits_of_origin h hm horigin hbind
      (hcounts d g type horigin.reachable horigin.hasField hbind)
      (hmeant m hm d g type horigin hbind)
    obtain rfl := Option.some.inj (hfit.reads.size.symm.trans hunit)
    exact .inr ⟨m, hm, type, hfit⟩

end

/-- **Flattening is done at once.** Where nested structs are spread, take a struct that can be
flattened, with only primitive types and pointers in it at the bottom, and with no empty buffer
without a native form. Flattened under its own name in any other catalog, its flat declaration has
the same size and alignment, gives the same declaration again, and the same fields. -/
theorem reflatten_eq (calls : List Call) (hinline : o.inlineNested = true)
    (h : outcome (Bench.flatten c o key) (Workbench.afterCalls c o calls) = .ok f)
    (hleaves : ∀ d g type, ReflTransGen c.Contains key d → c.HasField d g →
      c.bind g.type d = .ok type → type.isFixed = true ∨ type.isStruct = true)
    (hcounts : ∀ d g type, ReflTransGen c.Contains key d → c.HasField d g →
      c.bind g.type d = .ok type → g.fixedCount = some 0 → type.isBufferElement = true)
    {c' : Catalog} (hdecl : c'.struct? key = some f.decl) (calls' : List Call) :
    ∃ f', outcome (Bench.flatten c' o key) (Workbench.afterCalls c' o calls') = .ok f' ∧
      f'.footprint = f.footprint ∧ f'.decl = f.decl ∧
      f'.fields.map (fun m => (m.name, m.type, m.fixedCount, m.offset)) =
        f.fields.map (fun m => (m.name, m.type, m.fixedCount, m.offset)) := by
  rw [outcome_flatten_eq_answer] at h ⊢
  exact reflatten_of_fits h hdecl rfl (fits_of_meant h (bind_of_leaves hleaves c') hcounts)
    (largest_of_meant h (bind_of_leaves hleaves c') hcounts hinline)

/-- Here the theorem says that the flat declaration is flat by itself, without the structs that it
was made of. -/
theorem reflatten_eq_nested :
    ∃ f, outcome (Bench.flatten nestedCatalog (.ofPointerWidth 8) ⟨"Outer"⟩)
        (Workbench.afterCalls nestedCatalog (.ofPointerWidth 8) []) = .ok f ∧
      f.footprint = ⟨56, 8⟩ ∧
      let alone : Catalog := ⟨[(⟨"Outer"⟩, f.decl)], [], [], [], []⟩
      ∃ f', outcome (Bench.flatten alone (.ofPointerWidth 8) ⟨"Outer"⟩)
          (Workbench.afterCalls alone (.ofPointerWidth 8) []) = .ok f' ∧
        f'.footprint = ⟨56, 8⟩ ∧ f'.decl = f.decl := by
  have hall : nestedCatalog.allFields (fun g type =>
      (type.isFixed || type.isStruct) && g.fixedCount != some 0) = true := by decide +kernel
  have hfields : ∀ d g type, nestedCatalog.HasField d g → nestedCatalog.bind g.type d = .ok type →
      (type.isFixed = true ∨ type.isStruct = true) ∧ g.fixedCount ≠ some 0 := by
    intro d g type hg hbind
    simpa using Catalog.of_allFields hall hg hbind
  have hflat : ∃ f, outcome (Bench.flatten nestedCatalog (.ofPointerWidth 8) ⟨"Outer"⟩)
        (Workbench.afterCalls nestedCatalog (.ofPointerWidth 8) []) = .ok f ∧
      f.footprint = ⟨56, 8⟩ := by decide +kernel
  obtain ⟨f, hf, hfootprint⟩ := hflat
  refine ⟨f, hf, hfootprint, ?_⟩
  have halone : Catalog.struct? ⟨[(⟨"Outer"⟩, f.decl)], [], [], [], []⟩ ⟨"Outer"⟩ =
    some f.decl := rfl
  obtain ⟨f', hf', hsame, hdecl, -⟩ := reflatten_eq [] rfl hf
    (fun d g type _ hg hbind => (hfields d g type hg hbind).1)
    (fun d g type _ hg hbind hzero => absurd hzero (hfields d g type hg hbind).2) halone []
  exact ⟨f', hf', hsame.trans hfootprint, hdecl⟩

end

end FlatLayout
