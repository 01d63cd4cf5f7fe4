import FlatLayout.Proofs.ExactLayout
import FlatLayout.Proofs.Origins
import Mathlib.Data.List.Pairwise

/-!
# Sequential structs

The fields of a struct that is no union and whose author writes no offsets follow each other. Each
one stands at the first place behind the field before it that is on its boundary, and no byte is set
aside for two of them. What a field contributes stays inside the bytes that were set aside for it,
also if it is a struct whose members are spread: they begin where the struct does or behind it, and
they end where the struct ends.

So two fields of a flat struct can share a byte only if they come from one nested struct, which has
fields that share bytes itself. These are the pairs that are reported when a flat struct is looked
at for overlaps.

## Why the places are intervals of numbers

A report compares the ends of members, and an end that is no word is cut off. The members of a flat
struct end inside of it, so for them nothing is cut off, and two members are reported exactly if
there is a byte that both occupy.

## Main definitions

* `PlacedMember.Occupies` — the bytes of a member
* `Spot.Encloses` — a member stays inside the bytes of a field
* `LayoutRule.Follows` — fields that stand behind each other as closely as their boundaries allow

## Main results

* `Spot.Filled.encloses` — what a field contributes stays inside of it
* `SpotRun.follows_written` — the fields of a sequential struct stand as closely as they can
* `mem_overlaps_iff` — what is reported are the fields with a common byte
* `sequential_tight` — tightness, containment, disjointness and reports together
-/

namespace FlatLayout

/-- The byte `n` belongs to the member. -/
def PlacedMember.Occupies (m : PlacedMember) (n : Nat) : Prop :=
  m.offset.toNat ≤ n ∧ n < m.offset.toNat + m.size.toNat

/-- The member stays inside the bytes that are set aside for the field. -/
def Spot.Encloses (t : Spot) (m : PlacedMember) : Prop :=
  t.offset.toNat ≤ m.offset.toNat ∧
    m.offset.toNat + m.size.toNat ≤ t.offset.toNat + t.size.toNat

/-- Some fields behind the byte `stop`: each one at the least multiple of its boundary that is no
less than the end of the one before. -/
inductive LayoutRule.Follows (rule : LayoutRule) : Nat → List Spot → Prop
  | nil (stop : Nat) : Follows rule stop []
  | cons {stop : Nat} {t : Spot} {ts : List Spot}
      (least : IsLeast {n | rule.boundary t.element.alignment.toNat ∣ n ∧ stop ≤ n}
        t.offset.toNat)
      (rest : Follows rule (t.offset.toNat + t.size.toNat) ts) : Follows rule stop (t :: ts)

/-! ### Fields that follow each other -/

namespace LayoutRule.Follows

variable {rule : LayoutRule} {stop : Nat} {ts : List Spot} {t u : Spot}

theorem stop_le (h : rule.Follows stop ts) (ht : t ∈ ts) : stop ≤ t.offset.toNat := by
  induction h with
  | nil stop => cases ht
  | @cons stop u us least rest ih =>
    have hfirst : stop ≤ u.offset.toNat := least.1.2
    rcases List.mem_cons.1 ht with rfl | ht
    · exact hfirst
    · have hrest := ih ht
      omega

/-- Every field ends before all fields behind it begin. -/
theorem pairwise (h : rule.Follows stop ts) :
    ts.Pairwise fun t u => t.offset.toNat + t.size.toNat ≤ u.offset.toNat := by
  induction h with
  | nil stop => exact .nil
  | cons _ rest ih => exact .cons (fun u hu => rest.stop_le hu) ih

/-- Of two fields one ends before the other one begins. -/
theorem apart (h : rule.Follows stop ts) (ht : t ∈ ts) (hu : u ∈ ts) (hne : t ≠ u) :
    t.offset.toNat + t.size.toNat ≤ u.offset.toNat ∨
      u.offset.toNat + u.size.toNat ≤ t.offset.toNat := by
  let Apart (t u : Spot) : Prop := t.offset.toNat + t.size.toNat ≤ u.offset.toNat ∨
    u.offset.toNat + u.size.toNat ≤ t.offset.toNat
  have hsymm : Std.Symm Apart := ⟨fun _ _ => Or.symm⟩
  have hapart : ts.Pairwise Apart := h.pairwise.imp Or.inl
  exact hapart.forall ht hu hne

end LayoutRule.Follows

/-- What stays inside of two fields that follow each other has no byte in common. -/
theorem Spot.Encloses.disjoint {t u : Spot} {a b : PlacedMember} (ha : t.Encloses a)
    (hb : u.Encloses b) (hle : t.offset.toNat + t.size.toNat ≤ u.offset.toNat) (n : Nat) :
    ¬ (a.Occupies n ∧ b.Occupies n) := by
  rintro ⟨⟨-, hn⟩, ⟨hn', -⟩⟩
  obtain ⟨-, ha⟩ := ha
  obtain ⟨hb, -⟩ := hb
  omega

section

variable {c : Catalog} {o : Options} {child : QualName → Except LayoutError FlatStruct}
  {key : QualName} {p q : Placement} {t : Spot} {ts : List Spot}

/-- A field that follows the others stands as closely behind them as its boundary allows. -/
theorem SpotStep.isLeast_offset (h : SpotStep c o child key p t q) (hover : p.overlapping = false) :
    IsLeast {n | p.rule.boundary t.element.alignment.toNat ∣ n ∧ p.size.toNat ≤ n}
      t.offset.toNat := by
  obtain ⟨hunion, hexplicit⟩ := Bool.or_eq_false_iff.1 hover
  have hoffset : t.offset.toNat =
      roundUp p.size.toNat (p.rule.boundary t.element.alignment.toNat) := by
    rw [h.exact.1, LayoutRule.position, hunion, hexplicit, if_neg (by decide), if_neg (by decide)]
    rfl
  rw [hoffset]
  exact isLeast_roundUp (LayoutRule.boundary_pos _ _)

/-- **The fields of a sequential struct stand as closely as they can**, by induction on the run: the
end of the struct is the end of the last field. -/
theorem SpotRun.follows_written (h : SpotRun c o child key p ts q)
    (hover : p.overlapping = false) : p.rule.Follows p.size.toNat ts := by
  induction h with
  | nil p => exact .nil _
  | @cons p q r t ts first rest ih =>
    have hsame : q.overlapping = p.overlapping := by
      rw [Placement.overlapping, first.isUnion_eq, first.rule_eq]
      rfl
    have hsize : q.size.toNat = t.offset.toNat + t.size.toNat := by
      rw [first.toNat_size, hover, if_neg (by decide)]
    have hrest := ih (hsame.trans hover)
    rw [first.rule_eq, hsize] at hrest
    exact .cons (first.isLeast_offset hover) hrest

theorem LayoutRule.isExplicit_written_eq_false {layout : Option LayoutAttr}
    (h : ∀ a, layout = some a → a.kind = .sequential) :
    (LayoutRule.written layout).isExplicit = false := by
  cases layout with
  | none => rfl
  | some a => simp only [written, isExplicit, h a rfl, reduceCtorEq, decide_false]

/-! ### What a field contributes -/

/-- What a nested struct hands on begins where the struct does or behind it. -/
theorem Contributed.offset_le {f : FieldDecl} {flat : FlatStruct} {source : Nat} {offset : UInt32}
    {ms : List PlacedMember} (h : Contributed o f flat source offset ms) :
    ∀ m ∈ ms, offset.toNat ≤ m.offset.toNat := by
  have moved_le : ∀ {outer : Option String} {ms' : List PlacedMember},
      List.Forall₂ (Moved outer offset source) flat.members ms' →
        ∀ m ∈ ms', offset.toNat ≤ m.offset.toNat := by
    intro outer ms' hmoved m hm
    obtain ⟨m₀, -, hm₀⟩ := exists_unmoved hmoved hm
    rw [hm₀.offset]
    exact Nat.le_add_left _ _
  cases h with
  | childless => nofun
  | merged _ _ moved => exact moved_le moved
  | spread _ _ moved =>
    intro m hm
    rcases mem_insert_behind.1 hm with rfl | hm
    · exact Nat.le_refl _
    · exact moved_le moved m hm
  | kept =>
    intro m hm
    rcases List.mem_pair.1 hm with rfl | rfl <;> exact Nat.le_refl _

theorem Spot.Filled.offset_le {role : Role} (h : t.Filled o role) :
    ∀ m ∈ t.members, t.offset.toNat ≤ m.offset.toNat := by
  intro m hm
  cases h with
  | scalar _ _ hmembers =>
    rw [hmembers] at hm
    rw [List.mem_singleton.1 hm]
    exact Nat.le_refl _
  | native _ _ _ _ _ _ hmembers =>
    rw [hmembers] at hm
    rw [List.mem_singleton.1 hm]
    exact Nat.le_refl _
  | started _ _ _ _ _ _ hmembers =>
    rw [hmembers] at hm
    rcases List.mem_pair.1 hm with rfl | rfl <;> exact Nat.le_refl _
  | nested flat _ _ _ hmembers => exact (contributed_of_nestedMembers hmembers).offset_le m hm

/-- **What a field contributes stays inside of it.** -/
theorem Spot.Filled.encloses {role : Role} (h : t.Filled o role)
    (hflat : ∀ flat, t.element = .struct flat → Within flat.footprint.size.toNat flat.members) :
    ∀ m ∈ t.members, t.Encloses m :=
  fun m hm => ⟨h.offset_le m hm, h.within hflat m hm⟩

/-- Of two fields that a nested struct contributes, each one is a field in there that was moved. -/
theorem Contributed.moved_of_ne {f : FieldDecl} {flat : FlatStruct} {source : Nat}
    {offset : UInt32} {ms : List PlacedMember} (h : Contributed o f flat source offset ms)
    {a b : PlacedMember} (ha : a ∈ ms) (hb : b ∈ ms) (hafield : a.isAccessor = false)
    (hbfield : b.isAccessor = false) (hne : a ≠ b) :
    ∃ m ∈ flat.fields, Moved (nestedLabel f flat) offset source m a := by
  have back : ∀ {outer : Option String} {ms' : List PlacedMember},
      List.Forall₂ (Moved outer offset source) flat.members ms' → a ∈ ms' →
        ∃ m ∈ flat.fields, Moved outer offset source m a := by
    intro outer ms' hmoved ha
    obtain ⟨m, hm, hma⟩ := exists_unmoved hmoved ha
    refine ⟨m, List.mem_filter.2 ⟨hm, ?_⟩, hma⟩
    rw [← hma.isAccessor_eq, hafield]
    rfl
  cases h with
  | childless => cases ha
  | merged _ hanonymous moved =>
    rw [nestedLabel, hanonymous, if_pos rfl]
    exact back moved ha
  | spread hnamed _ moved =>
    rw [nestedLabel, hnamed, if_neg (by decide)]
    rcases mem_insert_behind.1 ha with rfl | ha
    · cases hafield
    · exact back moved ha
  | kept =>
    -- there is a single field, which stands for the whole struct
    rcases List.mem_pair.1 ha with rfl | rfl
    · rcases List.mem_pair.1 hb with rfl | rfl
      · exact absurd rfl hne
      · cases hbfield
    · cases hafield

/-- A field that is no struct contributes one field. -/
theorem Spot.Filled.eq_of_fields {role : Role} (h : t.Filled o role)
    (hleaf : ∀ flat, t.element ≠ .struct flat) {a b : PlacedMember} (ha : a ∈ t.members)
    (hb : b ∈ t.members) (hafield : a.isAccessor = false) (hbfield : b.isAccessor = false) :
    a = b := by
  cases h with
  | scalar _ _ hmembers =>
    rw [hmembers] at ha hb
    rw [List.mem_singleton.1 ha, List.mem_singleton.1 hb]
  | native _ _ _ _ _ _ hmembers =>
    rw [hmembers] at ha hb
    rw [List.mem_singleton.1 ha, List.mem_singleton.1 hb]
  | started _ _ _ _ _ _ hmembers =>
    rw [hmembers] at ha hb
    rcases List.mem_pair.1 ha with rfl | rfl
    · rcases List.mem_pair.1 hb with rfl | rfl
      · rfl
      · cases hbfield
    · cases hafield
  | nested flat _ helement => exact absurd helement (hleaf flat)

end

/-! ### What is reported -/

/-- Two members with bytes that end at words share a byte exactly if their ends say so. -/
theorem PlacedMember.overlaps_iff {a b : PlacedMember} {size : UInt32}
    (ha : a.offset.toNat + a.size.toNat ≤ size.toNat) (hapos : a.size ≠ 0)
    (hb : b.offset.toNat + b.size.toNat ≤ size.toNat) (hbpos : b.size ≠ 0) :
    a.overlaps b = true ↔ ∃ n, a.Occupies n ∧ b.Occupies n := by
  have hlt := size.toNat_lt
  have hapos : 0 < a.size.toNat := Nat.pos_iff_ne_zero.2 fun h => hapos (UInt32.toNat_inj.1 h)
  have hbpos : 0 < b.size.toNat := Nat.pos_iff_ne_zero.2 fun h => hbpos (UInt32.toNat_inj.1 h)
  simp only [overlaps, Bool.and_eq_true, decide_eq_true_eq, UInt32.lt_iff_toNat_lt, endOffset,
    Word.toNat_addClamped, Word.limit, Occupies]
  constructor
  · rintro ⟨hab, hba⟩
    refine ⟨max a.offset.toNat b.offset.toNat, ?_, ?_⟩ <;> constructor <;> omega
  · rintro ⟨n, ⟨han, hna⟩, hbn, hnb⟩
    constructor <;> omega

/-- A pair is listed once for every way to find its first and its second member in this order. -/
theorem mem_overlapPairs_iff {ms : List PlacedMember} {a b : PlacedMember} :
    (a, b) ∈ overlapPairs ms ↔ [a, b].Sublist ms ∧ a.overlaps b = true := by
  induction ms with
  | nil => simp [overlapPairs]
  | cons m ms ih =>
    rw [overlapPairs, List.mem_append, ih, List.sublist_cons_iff]
    simp only [List.mem_map, List.mem_filter, Prod.mk.injEq, List.cons.injEq, existsAndEq,
      and_true, List.singleton_sublist, exists_eq_right_right]
    constructor
    · rintro (⟨⟨hb, hover⟩, rfl⟩ | ⟨hsub, hover⟩)
      · exact ⟨.inr ⟨rfl, hb⟩, hover⟩
      · exact ⟨.inl hsub, hover⟩
    · rintro ⟨hsub | ⟨rfl, hb⟩, hover⟩
      · exact .inr ⟨hsub, hover⟩
      · exact .inl ⟨⟨hb, hover⟩, rfl⟩

section

variable {c : Catalog} {o : Options} {key : QualName} {f : FlatStruct}

/-- **What is reported are the fields with a common byte**, each pair in the order of the struct. -/
theorem mem_overlaps_iff (h : c.answer o key = .ok f) {a b : PlacedMember} :
    (a, b) ∈ f.overlaps ↔
      [a, b].Sublist (f.fields.filter fun m => m.size ≠ 0) ∧ ∃ n, a.Occupies n ∧ b.Occupies n := by
  rw [FlatStruct.overlaps, mem_overlapPairs_iff, and_congr_right_iff]
  intro hsub
  have hmem : ∀ m ∈ [a, b], m ∈ f.members ∧ m.size ≠ 0 := by
    intro m hm
    obtain ⟨hfield, hsize⟩ := List.mem_filter.1 (hsub.subset hm)
    exact ⟨(List.mem_filter.1 hfield).1, by simpa using hsize⟩
  obtain ⟨ha, hapos⟩ := hmem a List.mem_cons_self
  obtain ⟨hb, hbpos⟩ := hmem b (List.mem_cons_of_mem _ List.mem_cons_self)
  exact PlacedMember.overlaps_iff (within_of_answer h a ha) hapos (within_of_answer h b hb) hbpos

/-- The two fields of a reported pair have different names. -/
theorem name_ne_of_mem_overlaps (h : c.answer o key = .ok f) {a b : PlacedMember}
    (hab : (a, b) ∈ f.overlaps) : a.name ≠ b.name := by
  have hsub : [a, b].Sublist f.members :=
    (mem_overlaps_iff h).1 hab |>.1.trans (List.filter_sublist.trans List.filter_sublist)
  have hnodup := (hsub.map (·.name)).nodup (nodup_of_answer h)
  simpa using hnodup

/-- What a spot of a flat struct contributes stays inside of it. -/
theorem encloses_of_mem_spots {t : Spot} (ht : t ∈ c.spots o key) :
    ∀ m ∈ t.members, t.Encloses m := by
  obtain ⟨p, q, hstep⟩ := exists_step_of_mem_spots ht
  refine hstep.filled.encloses fun flat helement => ?_
  obtain ⟨d, -, hd⟩ := exists_struct_of_made (helement ▸ hstep.made)
  exact within_of_answer hd

/-- Two fields with different names and a common byte come from one struct that was nested. -/
theorem exists_nested_of_common_byte {rule : LayoutRule} (hfollows : rule.Follows 0 (c.spots o key))
    {a b : PlacedMember} (hne : a.name ≠ b.name) {n : Nat} (hn : a.Occupies n ∧ b.Occupies n)
    {t u : Spot} (ht : t ∈ c.spots o key) (ha : a ∈ t.members) (hu : u ∈ c.spots o key)
    (hb : b ∈ u.members) (hafield : a.isAccessor = false) (hbfield : b.isAccessor = false) :
    ∃ d child, t.type = .struct d ∧ c.flatten o d = .ok child ∧ b ∈ t.members ∧
      (∃ m ∈ child.fields, Moved (nestedLabel t.decl child) t.offset t.source m a) ∧
      ∃ m ∈ child.fields, Moved (nestedLabel t.decl child) t.offset t.source m b := by
  have hain := encloses_of_mem_spots ht a ha
  have hbin := encloses_of_mem_spots hu b hb
  have hsame : t = u := by
    by_contra hdifferent
    rcases hfollows.apart ht hu hdifferent with hle | hle
    · exact hain.disjoint hbin hle n hn
    · exact hbin.disjoint hain hle n hn.symm
  subst hsame
  have hdistinct : a ≠ b := fun heq => hne (congrArg PlacedMember.name heq)
  obtain ⟨p, q, hstep⟩ := exists_step_of_mem_spots ht
  cases helement : t.element with
  | scalar size =>
    have hleaf : ∀ flat, t.element ≠ .struct flat := fun flat h => by
      rw [helement] at h
      cases h
    exact absurd (hstep.filled.eq_of_fields hleaf ha hb hafield hbfield) hdistinct
  | struct child =>
    obtain ⟨d, htype, hd⟩ := exists_struct_of_made (helement ▸ hstep.made)
    obtain ⟨-, hcontributed⟩ := hstep.filled.of_struct helement
    exact ⟨d, child, htype, (flatten_eq_answer c o d).trans hd, hb,
      hcontributed.moved_of_ne ha hb hafield hbfield hdistinct,
      hcontributed.moved_of_ne hb ha hbfield hafield hdistinct.symm⟩

/-- **Sequential structs are tight and free of overlaps.** In a flattened struct without explicit
layout that is no union, the instance fields, grouped ones split, stand behind each other: each one
at the least multiple of its boundary that is no less than the end of the one before, where its
boundary is the least of the pack and the alignment of what it is made of, and its size is that of
what it is made of. Whatever a field contributes stays inside of it. So members of different fields
have no byte in common, and a pair that is reported as overlapping consists of two fields of one
nested struct that were moved into this one together. -/
theorem sequential_tight {s : StructDecl} (calls : List Call)
    (h : outcome (Bench.flatten c o key) (Workbench.afterCalls c o calls) = .ok f)
    (hs : c.struct? key = some s) (hkind : ∀ a, s.layout = some a → a.kind = .sequential)
    (hunion : s.markers.union = false) :
    s.slots = (c.spots o key).map Spot.slot ∧
    f.members = (c.spots o key).flatMap Spot.members ∧
    (∀ t ∈ c.spots o key, c.bind t.decl.type key = .ok t.type ∧
      elementFrom o (c.flatten o) t.type = .ok t.element ∧
      t.size.toNat = (t.decl.piece t.element).extent.size) ∧
    (LayoutRule.written s.layout).Follows 0 (c.spots o key) ∧
    (∀ t ∈ c.spots o key, ∀ m ∈ t.members, t.Encloses m) ∧
    (c.spots o key).Pairwise (fun t u => ∀ a ∈ t.members, ∀ b ∈ u.members, ∀ n,
      ¬ (a.Occupies n ∧ b.Occupies n)) ∧
    ∀ a b, (a, b) ∈ f.overlaps → a.name ≠ b.name ∧
      ∃ t ∈ c.spots o key, a ∈ t.members ∧ ∃ d child, t.type = .struct d ∧
        c.flatten o d = .ok child ∧ b ∈ t.members ∧
        (∃ m ∈ child.fields, Moved (nestedLabel t.decl child) t.offset t.source m a) ∧
        ∃ m ∈ child.fields, Moved (nestedLabel t.decl child) t.offset t.source m b := by
  rw [outcome_flatten_eq_answer] at h
  obtain ⟨s', rule, ts, p, hs', laid⟩ := Catalog.exists_laid_of_answer h
  obtain rfl := Option.some.inj (hs.symm.trans hs')
  obtain rfl : rule = .written s.layout := (LayoutRule.ofAttr_eq_ok_iff.1 laid.ruled).2
  have hspots := laid.spots_eq hs
  have hflatten : c.flatten o = c.answer o := funext (flatten_eq_answer c o)
  have hmade : ∀ t ∈ c.spots o key, c.bind t.decl.type key = .ok t.type ∧
      elementFrom o (c.flatten o) t.type = .ok t.element ∧
      t.size.toNat = (t.decl.piece t.element).extent.size := by
    intro t ht
    obtain ⟨p', q, hstep⟩ := exists_step_of_mem_spots ht
    refine ⟨hstep.bound, hflatten ▸ hstep.made, ?_⟩
    rw [← hstep.filled.piece_eq]
    rfl
  have hover : (Placement.start s.name (.written s.layout) s.markers.union).overlapping = false := by
    rw [Placement.overlapping, Placement.start, hunion, Bool.false_or]
    exact LayoutRule.isExplicit_written_eq_false hkind
  have hfollows : (LayoutRule.written s.layout).Follows 0 (c.spots o key) :=
    hspots ▸ laid.run.follows_written hover
  have hinside : ∀ t ∈ c.spots o key, ∀ m ∈ t.members, t.Encloses m :=
    fun t ht => encloses_of_mem_spots ht
  have hmembers : f.members = (c.spots o key).flatMap Spot.members := by
    rw [hspots, laid.members_eq]
  refine ⟨hspots ▸ laid.slots, hmembers, hmade, hfollows, hinside, ?_, fun a b hab => ?_⟩
  · refine hfollows.pairwise.imp_of_mem fun {t u} ht hu hle a ha b hb n => ?_
    exact (hinside t ht a ha).disjoint (hinside u hu b hb) hle n
  · have hne := name_ne_of_mem_overlaps h hab
    obtain ⟨hsub, n, hn⟩ := (mem_overlaps_iff h).1 hab
    have hfield : ∀ m ∈ [a, b], ∃ t ∈ c.spots o key, m ∈ t.members ∧ m.isAccessor = false := by
      intro m hm
      obtain ⟨hmem, hplain⟩ := List.mem_filter.1 (List.mem_filter.1 (hsub.subset hm)).1
      rw [hmembers] at hmem
      obtain ⟨t, ht, hm⟩ := List.mem_flatMap.1 hmem
      exact ⟨t, ht, hm, by simpa using hplain⟩
    obtain ⟨t, ht, ha, hafield⟩ := hfield a List.mem_cons_self
    obtain ⟨u, hu, hb, hbfield⟩ := hfield b (List.mem_cons_of_mem _ List.mem_cons_self)
    exact ⟨hne, t, ht, ha,
      exists_nested_of_common_byte hfollows hne hn ht ha hu hb hafield hbfield⟩

end

/-- Here the theorem says where the four fields of the outermost struct stand, and that the one
reported pair are the fields of the union in there. -/
theorem sequential_tight_widened :
    ∃ f, outcome (Bench.flatten widenedCatalog (.ofPointerWidth 8) ⟨"Outer"⟩)
        (Workbench.afterCalls widenedCatalog (.ofPointerWidth 8) []) = .ok f ∧
      (widenedCatalog.spots (.ofPointerWidth 8) ⟨"Outer"⟩).map (fun t => (t.offset, t.size)) =
        [(0, 1), (2, 32), (34, 4), (38, 24)] ∧
      f.overlaps.map (fun ab => (ab.1.name, ab.2.name)) = [("either_whole", "either_half")] ∧
      ∀ a b, (a, b) ∈ f.overlaps → ∃ t ∈ widenedCatalog.spots (.ofPointerWidth 8) ⟨"Outer"⟩,
        a ∈ t.members ∧ b ∈ t.members ∧ ∃ d, t.type = .struct d := by
  have hflat : ∃ f, outcome (Bench.flatten widenedCatalog (.ofPointerWidth 8) ⟨"Outer"⟩)
        (Workbench.afterCalls widenedCatalog (.ofPointerWidth 8) []) = .ok f ∧
      f.overlaps.map (fun ab => (ab.1.name, ab.2.name)) = [("either_whole", "either_half")] := by
    decide +kernel
  obtain ⟨f, hf, hpairs⟩ := hflat
  have hspots : (widenedCatalog.spots (.ofPointerWidth 8) ⟨"Outer"⟩).map
      (fun t => (t.offset, t.size)) = [(0, 1), (2, 32), (34, 4), (38, 24)] := by decide +kernel
  obtain ⟨-, -, -, -, -, -, hreported⟩ := sequential_tight [] hf rfl
    (fun a ha => by obtain rfl := Option.some.inj ha; rfl) rfl
  refine ⟨f, hf, hspots, hpairs, fun a b hab => ?_⟩
  obtain ⟨-, t, ht, ha, d, child, htype, -, hb, -⟩ := hreported a b hab
  exact ⟨t, ht, ha, hb, d, htype⟩

end FlatLayout
