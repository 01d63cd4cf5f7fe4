import FlatLayout.Proofs.Memoisation
import FlatLayout.Proofs.Promotion
import Mathlib.Data.List.Nodup

/-!
# What accessors point at

An accessor has an offset of its own and the name of a field. For a buffer both say the same. The
accessor of a nested struct has the offset at which the struct stands, and the name of the first
field that the struct contributes; these agree only if that field stands at the front of the struct.
In a struct whose author writes the offsets another field may stand there, and a field in front may
also be one that contributes no member at all.

Whether all accessors of a flat struct agree with their fields is therefore decided by the structs
it contains at any depth: agreement is passed on to the container as it is, so is disagreement, and
a container adds one accessor for each named nested struct.

## Main definitions

* `Targeted`, `InPlace` — accessors name fields, possibly behind them; these stand where they say
* `Catalog.LeadsAtStart` — the named nested structs of a struct have a field at their front

## Main results

* `inPlace_iff_of_answer` — agreement, traced back to the contained structs
* `accessors_in_place_iff` — the same for every workbench
-/

namespace FlatLayout

open Relation

/-- Every accessor among the members names a field among them, which does not stand in front of
it. -/
def Targeted (ms : List PlacedMember) : Prop :=
  ∀ a ∈ ms, a.isAccessor = true →
    ∃ b ∈ ms, b.isAccessor = false ∧ a.baseField = some b.name ∧ a.offset ≤ b.offset

/-- The field that an accessor names stands where the accessor says. -/
def InPlace (ms : List PlacedMember) : Prop :=
  ∀ a ∈ ms, ∀ b ∈ ms, a.isAccessor = true → b.isAccessor = false → a.baseField = some b.name →
    b.offset = a.offset

theorem InPlace.of_subset {ms ms' : List PlacedMember} (h : InPlace ms') (hsub : ms ⊆ ms') :
    InPlace ms := fun a ha b hb => h a (hsub ha) b (hsub hb)

/-! ### Moving -/

section

variable {outer : Option String} {base : UInt32} {source : Nat} {ms ms' : List PlacedMember}

theorem Targeted.moved (h : Targeted ms) (hmoved : List.Forall₂ (Moved outer base source) ms ms') :
    Targeted ms' := by
  intro a' ha' hacc
  obtain ⟨a, ha, hma⟩ := exists_unmoved hmoved ha'
  obtain ⟨b, hb, hfield, hname, hle⟩ := h a ha (hma.isAccessor_eq ▸ hacc)
  obtain ⟨b', hb', hmb⟩ := exists_moved hmoved hb
  refine ⟨b', hb', hmb.isAccessor_eq.trans hfield, ?_, ?_⟩
  · rw [hma.baseField, hname, hmb.name]
    rfl
  · rw [UInt32.le_iff_toNat_le, hma.offset, hmb.offset]
    rw [UInt32.le_iff_toNat_le] at hle
    omega

theorem inPlace_moved_iff (hmoved : List.Forall₂ (Moved outer base source) ms ms') :
    InPlace ms' ↔ InPlace ms := by
  constructor
  · intro h a ha b hb hacc hfield hname
    obtain ⟨a', ha', hma⟩ := exists_moved hmoved ha
    obtain ⟨b', hb', hmb⟩ := exists_moved hmoved hb
    have hoffset := h a' ha' b' hb' (hma.isAccessor_eq.trans hacc) (hmb.isAccessor_eq.trans hfield)
      (by rw [hma.baseField, hname, hmb.name]; rfl)
    rw [← UInt32.toNat_inj, hma.offset, hmb.offset] at hoffset
    exact UInt32.toNat_inj.1 (Nat.add_right_cancel hoffset)
  · intro h a' ha' b' hb' hacc hfield hname
    obtain ⟨a, ha, hma⟩ := exists_unmoved hmoved ha'
    obtain ⟨b, hb, hmb⟩ := exists_unmoved hmoved hb'
    rw [hma.baseField, hmb.name] at hname
    obtain ⟨n, hn, hqualify⟩ := Option.map_eq_some_iff.1 hname
    obtain rfl := qualify_injective outer hqualify
    have hoffset := h a ha b hb (hma.isAccessor_eq ▸ hacc) (hmb.isAccessor_eq ▸ hfield) hn
    rw [← UInt32.toNat_inj, hma.offset, hmb.offset, hoffset]

end

/-! ### One field -/

theorem targeted_of_fields {ms : List PlacedMember} (h : ∀ m ∈ ms, m.isAccessor = false) :
    Targeted ms := by
  intro a ha hacc
  rw [h a ha] at hacc
  cases hacc

theorem inPlace_of_fields {ms : List PlacedMember} (h : ∀ m ∈ ms, m.isAccessor = false) :
    InPlace ms := by
  intro a ha b _ hacc
  rw [h a ha] at hacc
  cases hacc

section

variable {start reference : PlacedMember} (hstart : start.isAccessor = false)
  (hplace : start.offset = reference.offset)

include hstart hplace

theorem targeted_pair (hbase : reference.baseField = some start.name) :
    Targeted [start, reference] := by
  intro a ha hacc
  rcases List.mem_pair.1 ha with rfl | rfl
  · rw [hstart] at hacc; cases hacc
  · exact ⟨start, List.mem_cons_self, hstart, hbase, hplace ▸ UInt32.le_refl _⟩

theorem inPlace_pair : InPlace [start, reference] := by
  intro a ha b hb hacc hfield _
  rcases List.mem_pair.1 ha with rfl | rfl
  · rw [hstart] at hacc; cases hacc
  · rcases List.mem_pair.1 hb with rfl | rfl
    · exact hplace
    · rfl

end

/-- The first field of a flat struct, if it has one, stands at its front. -/
def FlatStruct.LeadsAtStart (f : FlatStruct) : Prop := ∀ first ∈ f.fields.head?, first.offset = 0

section

variable {o : Options} {f : FieldDecl} {child : FlatStruct} {source : Nat} {offset : UInt32}
  {ms : List PlacedMember}

theorem mem_insert_behind {before after : List PlacedMember} {first reference m : PlacedMember} :
    m ∈ before ++ first :: reference :: after ↔ m = reference ∨ m ∈ before ++ first :: after := by
  simp only [List.mem_append, List.mem_cons]
  tauto

theorem Contributed.targeted (h : Contributed o f child source offset ms)
    (hchild : Targeted child.members) : Targeted ms := by
  cases h with
  | childless => exact targeted_of_fields fun a ha => by cases ha
  | merged _ _ moved => exact hchild.moved moved
  | kept => exact targeted_pair rfl rfl rfl
  | @spread before after first _ _ moved _ hfirst =>
    intro a ha hacc
    rcases mem_insert_behind.1 ha with rfl | ha
    · obtain ⟨first', -, hmoved⟩ := exists_unmoved moved
        (List.mem_append_right before List.mem_cons_self)
      refine ⟨first, by simp, hfirst, rfl, ?_⟩
      show offset ≤ first.offset
      rw [UInt32.le_iff_toNat_le, hmoved.offset]
      exact Nat.le_add_left _ _
    · obtain ⟨b, hb, htarget⟩ := hchild.moved moved a ha hacc
      exact ⟨b, mem_insert_behind.2 (.inr hb), htarget⟩

/-- Where nested structs are kept together, no accessor is added to members that move. -/
theorem Contributed.inPlace_of_kept (h : Contributed o f child source offset ms)
    (hinline : o.inlineNested = false) (hchild : InPlace child.members) : InPlace ms := by
  cases h with
  | childless => exact inPlace_of_fields fun a ha => by cases ha
  | merged _ _ moved => exact (inPlace_moved_iff moved).2 hchild
  | spread _ inline => rw [hinline] at inline; cases inline
  | kept => exact inPlace_pair rfl rfl

/-- Where nested structs are spread, a named one adds the accessor of its first field. -/
theorem Contributed.inPlace_iff (h : Contributed o f child source offset ms)
    (hinline : o.inlineNested = true) (hnodup : (ms.map (·.name)).Nodup)
    (hempty : child.fields = [] → child.members = []) :
    InPlace ms ↔ InPlace child.members ∧
      ((f.markers.anonymous || child.markers.anonymous) = false → child.LeadsAtStart) := by
  cases h with
  | childless hfields =>
    rw [hempty hfields]
    refine ⟨fun h => ⟨h, fun _ first hfirst => ?_⟩, And.left⟩
    rw [hfields] at hfirst
    cases hfirst
  | merged _ hanonymous moved =>
    rw [inPlace_moved_iff moved]
    refine ⟨fun h => ⟨h, fun hnamed => ?_⟩, And.left⟩
    rw [hanonymous] at hnamed
    cases hnamed
  | kept _ _ inline => rw [hinline] at inline; cases inline
  | @spread before after first hnamed _ moved hbefore hfirst =>
    -- the first field of the child is the one that moved to `first`
    have hfields : ∃ lead rest, child.fields = lead :: rest ∧
        Moved (some f.name) offset source lead first := by
      have hmoved := moved_filter moved
      rw [filter_first_field hbefore hfirst] at hmoved
      obtain ⟨lead, rest, hlead, -, hrest⟩ := List.forall₂_cons_right_iff.1 hmoved
      exact ⟨lead, rest, hrest, hlead⟩
    obtain ⟨lead, rest, hlead, hmoved⟩ := hfields
    have hleads : child.LeadsAtStart ↔ first.offset = offset := by
      rw [FlatStruct.LeadsAtStart, hlead, ← UInt32.toNat_inj, hmoved.offset]
      simp only [List.head?_cons, Option.mem_some_iff, forall_eq', ← UInt32.toNat_inj]
      exact ⟨fun h => by rw [h]; exact Nat.zero_add _, fun h => by simpa using h⟩
    rw [hleads, ← inPlace_moved_iff moved]
    constructor
    · intro h
      refine ⟨h.of_subset fun m hm => mem_insert_behind.2 (.inr hm), fun _ => ?_⟩
      exact h (.nestedAccessor f first.name offset source) (by simp) first (by simp) rfl hfirst rfl
    · rintro ⟨h, hplace⟩ a ha b hb hacc hfield hname
      have hb' : b ∈ before ++ first :: after := by
        rcases mem_insert_behind.1 hb with rfl | hb
        · cases hfield
        · exact hb
      rcases mem_insert_behind.1 ha with rfl | ha
      · -- names are not repeated, so the reference can only mean `first`
        obtain rfl := List.inj_on_of_nodup_map hnodup (by simp) hb (Option.some.inj hname)
        exact hplace hnamed
      · exact h a ha b hb' hacc hfield hname

end

/-! ### One struct -/

variable {c : Catalog} {o : Options} {key : QualName} {f : FlatStruct}

/-- A field that is no struct has its accessors in place. -/
theorem Spot.Filled.targeted_or_struct {role : Role} {t : Spot} (h : t.Filled o role)
    (hrole : role.isAccessor = false) :
    (Targeted t.members ∧ InPlace t.members) ∨ ∃ flat, t.element = .struct flat := by
  cases h with
  | scalar _ _ hmembers =>
    have hfields : ∀ m ∈ t.members, m.isAccessor = false := by simp [hmembers, hrole]
    exact .inl ⟨targeted_of_fields hfields, inPlace_of_fields hfields⟩
  | native _ _ _ _ _ _ hmembers =>
    have hfields : ∀ m ∈ t.members, m.isAccessor = false := by simp [hmembers, hrole]
    exact .inl ⟨targeted_of_fields hfields, inPlace_of_fields hfields⟩
  | started _ _ _ _ _ _ hmembers =>
    rw [hmembers]
    exact .inl ⟨targeted_pair rfl rfl rfl, inPlace_pair rfl rfl⟩
  | nested flat _ helement => exact .inr ⟨flat, helement⟩

namespace Laid

variable {s : StructDecl} {rule : LayoutRule} {ts : List Spot} {p : Placement} {t : Spot}

theorem targeted_or_struct (laid : Laid c o (c.answer o) key s rule ts p f) (ht : t ∈ ts) :
    (Targeted t.members ∧ InPlace t.members) ∨ ∃ d, t.type = .struct d := by
  obtain ⟨p', q, hstep⟩ := laid.run.exists_step ht
  rcases hstep.filled.targeted_or_struct (isAccessor_plainRole p') with h | ⟨flat, helement⟩
  · exact .inl h
  · obtain ⟨d, htype, -⟩ := exists_struct_of_made (helement ▸ hstep.made)
    exact .inr ⟨d, htype⟩

theorem targeted_spot (laid : Laid c o (c.answer o) key s rule ts p f) (ht : t ∈ ts)
    (hchild : ∀ d flat, t.type = .struct d → c.answer o d = .ok flat → Targeted flat.members) :
    Targeted t.members := by
  rcases laid.targeted_or_struct ht with h | ⟨d, htype⟩
  · exact h.1
  · obtain ⟨flat, hflat, -, hcontributed⟩ := laid.contributed ht htype
    exact hcontributed.targeted (hchild d flat htype hflat)

theorem members_spot_subset (laid : Laid c o (c.answer o) key s rule ts p f) (ht : t ∈ ts) :
    t.members ⊆ f.members := by
  intro m hm
  rw [laid.members_eq]
  exact List.mem_flatMap.2 ⟨t, ht, hm⟩

theorem nodup_spot (laid : Laid c o (c.answer o) key s rule ts p f) (ht : t ∈ ts) :
    (t.members.map (·.name)).Nodup := by
  have hnodup := laid.nodup
  rw [laid.members_eq, List.map_flatMap] at hnodup
  exact (List.nodup_flatMap.1 hnodup).1 t ht

end Laid

/-- Every accessor of a flat struct names one of its fields. -/
theorem targeted_of_answer (h : c.answer o key = .ok f) : Targeted f.members := by
  refine Catalog.answer_induction (motive := fun _ _ f => Targeted f.members) ?_ h
  intro n key s rule ts p f hs laid ih a ha hacc
  rw [laid.members_eq] at ha
  obtain ⟨t, ht, ha⟩ := List.mem_flatMap.1 ha
  have htargeted : Targeted t.members := by
    refine laid.targeted_spot ht fun d flat htype hflat => ih d flat ?_ hflat
    exact (laid.contains_iff hs).2 ⟨t, ht, htype⟩
  obtain ⟨b, hb, htarget⟩ := htargeted a ha hacc
  exact ⟨b, laid.members_spot_subset ht hb, htarget⟩

/-- Accessors name fields of their own spot, so a struct is in place if all its spots are. -/
theorem Laid.inPlace_iff {s : StructDecl} {rule : LayoutRule} {ts : List Spot} {p : Placement}
    (laid : Laid c o (c.answer o) key s rule ts p f) :
    InPlace f.members ↔ ∀ t ∈ ts, InPlace t.members := by
  constructor
  · intro h t ht
    exact h.of_subset (laid.members_spot_subset ht)
  · intro h a ha b hb hacc hfield hname
    rw [laid.members_eq] at ha
    obtain ⟨t, ht, ha⟩ := List.mem_flatMap.1 ha
    have htargeted := laid.targeted_spot ht fun _ _ _ => targeted_of_answer
    obtain ⟨b', hb', hfield', hname', -⟩ := htargeted a ha hacc
    have hsame : b'.name = b.name := Option.some.inj (hname'.symm.trans hname)
    obtain rfl := List.inj_on_of_nodup_map laid.nodup (laid.members_spot_subset ht hb') hb hsame
    exact h t ht a ha b' hb' hacc hfield' hname'

/-! ### All contained structs -/

/-- Every struct that the struct `outer` nests under a name has its first field at its front. -/
def Catalog.LeadsAtStart (c : Catalog) (o : Options) (outer : QualName) : Prop :=
  ∀ s g source inner child, c.struct? outer = some s → Slot.field g source ∈ s.slots →
    c.bind g.type outer = .ok (.struct inner) → c.flatten o inner = .ok child →
    (g.markers.anonymous || child.markers.anonymous) = false → child.LeadsAtStart

namespace Laid

variable {s : StructDecl} {rule : LayoutRule} {ts : List Spot} {p : Placement} {t : Spot}

theorem leadsAtStart_iff (laid : Laid c o (c.answer o) key s rule ts p f)
    (hs : c.struct? key = some s) :
    c.LeadsAtStart o key ↔ ∀ t ∈ ts, ∀ d flat, t.type = .struct d → c.answer o d = .ok flat →
      (t.decl.markers.anonymous || flat.markers.anonymous) = false → flat.LeadsAtStart := by
  constructor
  · intro h t ht d flat htype hflat hnamed
    refine h s t.decl t.source d flat hs ?_ (by rw [laid.bound ht, htype]) ?_ hnamed
    · exact laid.field_mem_slots_iff.2 ⟨t, ht, rfl, rfl⟩
    · rw [flatten_eq_answer, hflat]
  · intro h s' g source inner child hs' hslot hbind hchild hnamed
    obtain rfl := Option.some.inj (hs.symm.trans hs')
    obtain ⟨t, ht, rfl, rfl⟩ := laid.field_mem_slots_iff.1 hslot
    have htype : t.type = .struct inner := Except.ok.inj ((laid.bound ht).symm.trans hbind)
    rw [flatten_eq_answer] at hchild
    exact h t ht inner child htype hchild hnamed

/-- A spot of a struct type is in place if that struct is, and leads with a field at its front
unless it stands there without a name. -/
theorem inPlace_spot_iff (laid : Laid c o (c.answer o) key s rule ts p f)
    (hinline : o.inlineNested = true) (ht : t ∈ ts) :
    InPlace t.members ↔ ∀ d flat, t.type = .struct d → c.answer o d = .ok flat →
      InPlace flat.members ∧
        ((t.decl.markers.anonymous || flat.markers.anonymous) = false → flat.LeadsAtStart) := by
  have hspot : ∀ d flat, t.type = .struct d → c.answer o d = .ok flat →
      (InPlace t.members ↔ InPlace flat.members ∧
        ((t.decl.markers.anonymous || flat.markers.anonymous) = false → flat.LeadsAtStart)) := by
    intro d flat htype hflat
    obtain ⟨flat', hflat', -, hcontributed⟩ := laid.contributed ht htype
    obtain rfl := Except.ok.inj (hflat.symm.trans hflat')
    exact hcontributed.inPlace_iff hinline (laid.nodup_spot ht) (members_eq_nil_of_answer hflat)
  constructor
  · intro h d flat htype hflat
    exact (hspot d flat htype hflat).1 h
  · intro h
    rcases laid.targeted_or_struct ht with hown | ⟨d, htype⟩
    · exact hown.2
    · obtain ⟨flat, hflat, -⟩ := laid.contributed ht htype
      exact (hspot d flat htype hflat).2 (h d flat htype hflat)

/-- One struct: it is in place if the structs it contains are, and if those it nests under a name
lead with a field at their front. -/
theorem inPlace_iff_contains (laid : Laid c o (c.answer o) key s rule ts p f)
    (hs : c.struct? key = some s) (hinline : o.inlineNested = true) :
    InPlace f.members ↔ c.LeadsAtStart o key ∧
      ∀ d flat, c.Contains key d → c.answer o d = .ok flat → InPlace flat.members := by
  rw [laid.inPlace_iff, laid.leadsAtStart_iff hs]
  constructor
  · intro h
    refine ⟨fun t ht d flat htype hflat => ?_, fun d flat hd hflat => ?_⟩
    · exact ((laid.inPlace_spot_iff hinline ht).1 (h t ht) d flat htype hflat).2
    · obtain ⟨t, ht, htype⟩ := (laid.contains_iff hs).1 hd
      exact ((laid.inPlace_spot_iff hinline ht).1 (h t ht) d flat htype hflat).1
  · rintro ⟨hleads, hbelow⟩ t ht
    refine (laid.inPlace_spot_iff hinline ht).2 fun d flat htype hflat => ?_
    have hd : c.Contains key d := (laid.contains_iff hs).2 ⟨t, ht, htype⟩
    exact ⟨hbelow d flat hd hflat, hleads t ht d flat htype hflat⟩

end Laid

/-- Where nested structs are kept together, accessors are always in place. -/
theorem inPlace_of_kept (h : c.answer o key = .ok f) (hinline : o.inlineNested = false) :
    InPlace f.members := by
  refine Catalog.answer_induction (motive := fun _ _ f => InPlace f.members) ?_ h
  intro n key s rule ts p f hs laid ih
  rw [laid.inPlace_iff]
  intro t ht
  rcases laid.targeted_or_struct ht with h | ⟨d, htype⟩
  · exact h.2
  · obtain ⟨flat, hflat, -, hcontributed⟩ := laid.contributed ht htype
    have hd : c.Contains key d := (laid.contains_iff hs).2 ⟨t, ht, htype⟩
    exact hcontributed.inPlace_of_kept hinline (ih d flat hd hflat)

/-- **Agreement is decided below**: by the structs that are nested under a name, at any depth. -/
theorem inPlace_iff_of_answer (h : c.answer o key = .ok f) (hinline : o.inlineNested = true) :
    InPlace f.members ↔ ∀ d, ReflTransGen c.Contains key d → c.LeadsAtStart o d := by
  refine Catalog.answer_induction (motive := fun _ key f =>
    InPlace f.members ↔ ∀ d, ReflTransGen c.Contains key d → c.LeadsAtStart o d) ?_ h
  intro n key s rule ts p f hs laid ih
  rw [laid.inPlace_iff_contains hs hinline]
  constructor
  · rintro ⟨hleads, hbelow⟩ d hd
    rcases hd.cases_head with rfl | ⟨k, hk, hd⟩
    · exact hleads
    · obtain ⟨flat, hflat⟩ := laid.exists_child hs hk
      exact (ih k flat hk hflat).1 (hbelow k flat hk hflat) d hd
  · intro h
    refine ⟨h key .refl, fun d flat hd hflat => ?_⟩
    exact (ih d flat hd hflat).2 fun e he => h e (he.head hd)

theorem nodup_of_answer (h : c.answer o key = .ok f) : (f.members.map (·.name)).Nodup := by
  obtain ⟨s, rule, ts, p, -, laid⟩ := Catalog.exists_laid_of_answer h
  exact laid.nodup

/-- Where names are not repeated, every member is found under its name. -/
theorem FlatStruct.member?_of_nodup (h : (f.members.map (·.name)).Nodup) {m : PlacedMember}
    (hm : m ∈ f.members) : f.member? m.name = some m := by
  have hfound : (f.member? m.name).isSome = true := by
    rw [FlatStruct.member?, List.find?_isSome]
    exact ⟨m, hm, by simp⟩
  obtain ⟨m', hm'⟩ := Option.isSome_iff_exists.1 hfound
  have hname : m'.name = m.name := by simpa using List.find?_some hm'
  have hmem : m' ∈ f.members := List.mem_of_find?_eq_some hm'
  obtain rfl := List.inj_on_of_nodup_map h hmem hm hname
  exact hm'

/-- Since names are not repeated, it makes no difference whether the field that an accessor names is
looked for or given. -/
theorem inPlace_iff_exists (h : c.answer o key = .ok f) :
    InPlace f.members ↔ ∀ a ∈ f.members, a.isAccessor = true →
      ∃ b ∈ f.fields, a.baseField = some b.name ∧ b.offset = a.offset := by
  constructor
  · intro hplace a ha hacc
    obtain ⟨b, hb, hfield, hname, -⟩ := targeted_of_answer h a ha hacc
    exact ⟨b, List.mem_filter.2 ⟨hb, by rw [hfield]; rfl⟩, hname,
      hplace a ha b hb hacc hfield hname⟩
  · intro hexists a ha b hb hacc hfield hname
    obtain ⟨b', hb', hname', hoffset⟩ := hexists a ha hacc
    have hsame : b'.name = b.name := Option.some.inj (hname'.symm.trans hname)
    obtain rfl := List.inj_on_of_nodup_map (nodup_of_answer h) (List.mem_filter.1 hb').1 hb hsame
    exact hoffset

/-- **What accessors point at.** Every accessor names a field that stands at its own offset or
behind it. All of them stand exactly there if and only if nested structs are kept together, or every
struct that is nested under a name, at any depth, has its first field at its front. -/
theorem accessors_in_place_iff (calls : List Call)
    (h : outcome (Bench.flatten c o key) (Workbench.afterCalls c o calls) = .ok f) :
    (∀ a ∈ f.members, a.isAccessor = true →
      ∃ b ∈ f.fields, a.baseField = some b.name ∧ a.offset ≤ b.offset) ∧
    ((∀ a ∈ f.members, a.isAccessor = true →
        ∃ b ∈ f.fields, a.baseField = some b.name ∧ b.offset = a.offset) ↔
      (o.inlineNested = true → ∀ d, ReflTransGen c.Contains key d → c.LeadsAtStart o d)) := by
  rw [outcome_flatten_eq_answer] at h
  constructor
  · intro a ha hacc
    obtain ⟨b, hb, hfield, htarget⟩ := targeted_of_answer h a ha hacc
    exact ⟨b, List.mem_filter.2 ⟨hb, by rw [hfield]; rfl⟩, htarget⟩
  · rw [← inPlace_iff_exists h]
    cases hinline : o.inlineNested with
    | false => simp [inPlace_of_kept h hinline]
    | true =>
      rw [inPlace_iff_of_answer h hinline]
      exact ⟨fun hleads _ => hleads, fun hleads => hleads rfl⟩

/-! ### A field that does not stand in front -/

/-- A struct whose first field stands behind its second one, and a struct that contains it. -/
def swappedCatalog : Catalog :=
  let swapped : StructDecl :=
    ⟨["public"], "C", .none, some ⟨.explicit, none, none⟩,
      [.field ((FieldDecl.ofNames (.named "int") ["hi"]).withOffset 4),
        .field ((FieldDecl.ofNames (.named "int") ["lo"]).withOffset 0)]⟩
  let holder := (StructDecl.ofName "P").push (.field (.ofNames (.named "C") ["c"]))
  ⟨[(⟨"C"⟩, swapped), (⟨"P"⟩, holder)], [], [], [], []⟩

/-- Here the theorem says that some nested struct does not lead with a field at its front. -/
theorem not_leadsAtStart_swapped :
    ∃ f, outcome (Bench.flatten swappedCatalog (.ofPointerWidth 8) ⟨"P"⟩)
        (Workbench.afterCalls swappedCatalog (.ofPointerWidth 8) []) = .ok f ∧
      ¬ ∀ d, ReflTransGen swappedCatalog.Contains ⟨"P"⟩ d →
        swappedCatalog.LeadsAtStart (.ofPointerWidth 8) d := by
  have hmisses : ∃ f, outcome (Bench.flatten swappedCatalog (.ofPointerWidth 8) ⟨"P"⟩)
        (Workbench.afterCalls swappedCatalog (.ofPointerWidth 8) []) = .ok f ∧
      ∃ a ∈ f.members, a.isAccessor = true ∧
        ¬ ∃ b ∈ f.fields, a.baseField = some b.name ∧ b.offset = a.offset := by decide +kernel
  obtain ⟨f, hf, a, ha, hacc, hmisses⟩ := hmisses
  refine ⟨f, hf, fun hleads => hmisses ?_⟩
  exact (accessors_in_place_iff [] hf).2.2 (fun _ => hleads) a ha hacc

/-- The accessor of the contained struct has the offset of that struct, and the name of a field four
bytes behind it. -/
theorem accessor_misses_swapped :
    ∃ f, swappedCatalog.flatten (.ofPointerWidth 8) ⟨"P"⟩ = .ok f ∧
      ∃ a ∈ f.members, a.isAccessor = true ∧ a.offset = 0 ∧
        ∃ b ∈ f.fields, a.baseField = some b.name ∧ b.offset = 4 ∧
          ¬ ∃ b ∈ f.fields, a.baseField = some b.name ∧ b.offset = a.offset := by
  decide +kernel

end FlatLayout
