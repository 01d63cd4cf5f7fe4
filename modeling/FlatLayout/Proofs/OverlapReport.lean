import FlatLayout.Proofs.Sequential

/-!
# The report of overlaps

A flat struct is looked at for fields that share bytes, by two loops over its fields: for every
field, all fields behind it. Here it is shown what becomes of this as a list. The pairs that are
reported stand at pairs of positions, and these positions are all that qualify, in lexicographic
order. There is only one such list, so no pair is missing, repeated or out of place.

## Positions instead of members

Two members may look alike, but two positions are different or the same. So the list of members is
taken with the position of each one, and the loops are followed on the pairs. Accessors and fields
without bytes drop out of the list before the loops begin, and the positions that are left have
gaps; they still increase, and nothing more is used of them.

## Main definitions

* `relatedPairs` — the two loops, for any relation
* `FlatStruct.FieldAt` — the field at a position

## Main results

* `mem_relatedPairs_iff`, `pairwise_relatedPairs` — which pairs the loops find, and in which order
* `overlaps_at_positions` — what is reported for a flat struct
-/

namespace FlatLayout

/-- The pairs of entries that are related, where the second entry stands behind the first one. -/
def relatedPairs {α : Type} (r : α → α → Bool) : List α → List (α × α)
  | [] => []
  | a :: as => (as.filter (r a)).map (fun b => (a, b)) ++ relatedPairs r as

/-- The member at a position is a field. -/
def FlatStruct.FieldAt (f : FlatStruct) (i : Nat) (m : PlacedMember) : Prop :=
  f.members[i]? = some m ∧ m.isAccessor = false

/-! ### Two loops -/

theorem overlapPairs_map {α : Type} (g : α → PlacedMember) (as : List α) :
    overlapPairs (as.map g) =
      (relatedPairs (fun a b => (g a).overlaps (g b)) as).map (Prod.map g g) := by
  induction as with
  | nil => rfl
  | cons a as ih => simp [overlapPairs, relatedPairs, ih, List.filter_map, Function.comp_def]

section

variable {α : Type} {r : α × Nat → α × Nat → Bool} {es : List (α × Nat)} {x y : α × Nat}

theorem mem_of_mem_relatedPairs (h : (x, y) ∈ relatedPairs r es) : x ∈ es ∧ y ∈ es := by
  induction es with
  | nil => cases h
  | cons e es ih =>
    rcases List.mem_append.1 h with h | h
    · obtain ⟨b, hb, heq⟩ := List.mem_map.1 h
      obtain ⟨rfl, rfl⟩ := Prod.mk.inj heq
      exact ⟨List.mem_cons_self, List.mem_cons_of_mem _ (List.mem_filter.1 hb).1⟩
    · exact (ih h).imp (List.mem_cons_of_mem _) (List.mem_cons_of_mem _)

/-- **Which pairs the loops find.** Where positions increase, the second entry stands behind the
first one exactly if its position is greater. -/
theorem mem_relatedPairs_iff (hes : es.Pairwise fun a b => a.2 < b.2) :
    (x, y) ∈ relatedPairs r es ↔ x ∈ es ∧ y ∈ es ∧ x.2 < y.2 ∧ r x y = true := by
  induction es with
  | nil => simp [relatedPairs]
  | cons e es ih =>
    obtain ⟨hfirst, hes⟩ := List.pairwise_cons.1 hes
    rw [relatedPairs, List.mem_append, ih hes]
    simp only [List.mem_map, List.mem_filter, Prod.mk.injEq, List.mem_cons]
    constructor
    · rintro (⟨b, ⟨hb, hr⟩, rfl, rfl⟩ | ⟨hx, hy, hlt, hr⟩)
      · exact ⟨.inl rfl, .inr hb, hfirst b hb, hr⟩
      · exact ⟨.inr hx, .inr hy, hlt, hr⟩
    · rintro ⟨rfl | hx, rfl | hy, hlt, hr⟩
      · exact absurd hlt (Nat.lt_irrefl _)
      · exact .inl ⟨y, ⟨hy, hr⟩, rfl, rfl⟩
      · have := hfirst x hx
        omega
      · exact .inr ⟨hx, hy, hlt, hr⟩

/-- **In which order.** The pairs of one entry are found before those of the next one. -/
theorem pairwise_relatedPairs (hes : es.Pairwise fun a b => a.2 < b.2) :
    ((relatedPairs r es).map fun xy => (xy.1.2, xy.2.2)).Pairwise
      (Prod.Lex (· < ·) (· < ·)) := by
  induction es with
  | nil => exact .nil
  | cons e es ih =>
    obtain ⟨hfirst, hes⟩ := List.pairwise_cons.1 hes
    rw [relatedPairs, List.map_append, List.pairwise_append, List.map_map, List.pairwise_map]
    refine ⟨?_, ih hes, ?_⟩
    · exact (hes.filter _).imp fun hlt => .right _ hlt
    · intro p hp q hq
      obtain ⟨b, -, rfl⟩ := List.mem_map.1 hp
      obtain ⟨⟨x, y⟩, hxy, rfl⟩ := List.mem_map.1 hq
      exact .left _ _ (hfirst x (mem_of_mem_relatedPairs hxy).1)

end

/-! ### Flat structs -/

section

variable {c : Catalog} {o : Options} {key : QualName} {f : FlatStruct}

/-- The fields with bytes, each with its position among the members. -/
def FlatStruct.placedFields (f : FlatStruct) : List (PlacedMember × Nat) :=
  f.members.zipIdx.filter fun e => !e.1.isAccessor && e.1.size ≠ 0

theorem mem_placedFields_iff {e : PlacedMember × Nat} :
    e ∈ f.placedFields ↔ f.FieldAt e.2 e.1 ∧ e.1.size ≠ 0 := by
  simp [FlatStruct.placedFields, FlatStruct.FieldAt, List.mem_zipIdx_iff_getElem?, and_assoc]

theorem pairwise_placedFields : f.placedFields.Pairwise fun a b => a.2 < b.2 := by
  have hpositions : (f.members.zipIdx.map Prod.snd).Pairwise (· < ·) := by
    rw [List.zipIdx_map_snd]
    exact List.pairwise_lt_range'
  exact (List.pairwise_map.1 hpositions).filter _

theorem overlaps_eq_relatedPairs : f.overlaps =
    (relatedPairs (fun a b => a.1.overlaps b.1) f.placedFields).map
      (Prod.map Prod.fst Prod.fst) := by
  have hfields : (f.fields.filter fun m => m.size ≠ 0) = f.placedFields.map Prod.fst := by
    rw [FlatStruct.fields, FlatStruct.placedFields, List.filter_filter]
    conv_lhs => rw [← List.zipIdx_map_fst 0 f.members, List.filter_map]
    congr 2
    funext e
    simp [Bool.and_comm]
  rw [FlatStruct.overlaps, hfields, overlapPairs_map]

/-- Members that stand at positions of a flat struct share a byte exactly if their ends say so. -/
theorem overlaps_iff_of_placed (h : c.answer o key = .ok f) {a b : PlacedMember × Nat}
    (ha : a ∈ f.placedFields) (hb : b ∈ f.placedFields) :
    a.1.overlaps b.1 = true ↔ ∃ n, a.1.Occupies n ∧ b.1.Occupies n := by
  obtain ⟨⟨hamem, -⟩, hapos⟩ := mem_placedFields_iff.1 ha
  obtain ⟨⟨hbmem, -⟩, hbpos⟩ := mem_placedFields_iff.1 hb
  exact PlacedMember.overlaps_iff (within_of_answer h a.1 (List.mem_of_getElem? hamem)) hapos
    (within_of_answer h b.1 (List.mem_of_getElem? hbmem)) hbpos

/-- A member with a byte has a size. -/
theorem PlacedMember.Occupies.size_ne_zero {m : PlacedMember} {n : Nat} (h : m.Occupies n) :
    m.size ≠ 0 := by
  intro hzero
  obtain ⟨hle, hlt⟩ := h
  rw [hzero, UInt32.toNat_zero] at hlt
  omega

/-- No pair of members is reported twice: the members of a flat struct have different names, so each
of them has one position. -/
theorem nodup_overlaps (h : c.answer o key = .ok f) : f.overlaps.Nodup := by
  have hmembers : f.members.Nodup := List.Nodup.of_map _ (nodup_of_answer h)
  have hsame : ∀ x ∈ f.placedFields, ∀ y ∈ f.placedFields, x.1 = y.1 → x = y := by
    intro x hx y hy heq
    obtain ⟨⟨hxat, -⟩, -⟩ := mem_placedFields_iff.1 hx
    obtain ⟨⟨hyat, -⟩, -⟩ := mem_placedFields_iff.1 hy
    obtain ⟨hlt, -⟩ := List.getElem?_eq_some_iff.1 hxat
    exact Prod.ext heq ((List.getElem?_inj hlt hmembers).1 (by rw [hxat, hyat, heq]))
  have hpairs : (relatedPairs (fun a b => a.1.overlaps b.1) f.placedFields).Nodup :=
    List.Nodup.of_map _ (List.Pairwise.nodup (pairwise_relatedPairs pairwise_placedFields))
  rw [overlaps_eq_relatedPairs]
  refine List.Nodup.map_on ?_ hpairs
  rintro ⟨x, y⟩ hxy ⟨x', y'⟩ hxy' heq
  obtain ⟨hx, hy⟩ := mem_of_mem_relatedPairs hxy
  obtain ⟨hx', hy'⟩ := mem_of_mem_relatedPairs hxy'
  obtain ⟨hfirst, hsecond⟩ := Prod.mk.inj heq
  rw [hsame x hx x' hx' hfirst, hsame y hy y' hy' hsecond]

/-- **What is reported for a flat struct.** The reported pairs stand at the listed pairs of
positions. Two positions are listed exactly if the first one is in front of the second and there are
fields at them that have a byte in common, where bytes are natural numbers; and they are listed in
lexicographic order, each pair once. So no pair of members is reported twice. -/
theorem overlaps_at_positions (calls : List Call)
    (h : outcome (Bench.flatten c o key) (Workbench.afterCalls c o calls) = .ok f) :
    f.overlaps.Nodup ∧ ∃ ps : List (Nat × Nat),
      List.Forall₂ (fun p ab => f.members[p.1]? = some ab.1 ∧ f.members[p.2]? = some ab.2)
        ps f.overlaps ∧
      (∀ i j, (i, j) ∈ ps ↔ i < j ∧ ∃ a b, f.FieldAt i a ∧ f.FieldAt j b ∧
        ∃ n, a.Occupies n ∧ b.Occupies n) ∧
      ps.Pairwise (Prod.Lex (· < ·) (· < ·)) := by
  rw [outcome_flatten_eq_answer] at h
  let pairs := relatedPairs (fun a b => a.1.overlaps b.1) f.placedFields
  have hpairs : ∀ x y, (x, y) ∈ pairs ↔
      x ∈ f.placedFields ∧ y ∈ f.placedFields ∧ x.2 < y.2 ∧ x.1.overlaps y.1 = true :=
    fun _ _ => mem_relatedPairs_iff pairwise_placedFields
  refine ⟨nodup_overlaps h, pairs.map fun xy => (xy.1.2, xy.2.2), ?_, fun i j => ?_,
    pairwise_relatedPairs pairwise_placedFields⟩
  · rw [overlaps_eq_relatedPairs, List.forall₂_map_left_iff, List.forall₂_map_right_iff,
      List.forall₂_same]
    rintro ⟨x, y⟩ hxy
    obtain ⟨hx, hy, -, -⟩ := (hpairs x y).1 hxy
    exact ⟨(mem_placedFields_iff.1 hx).1.1, (mem_placedFields_iff.1 hy).1.1⟩
  · rw [List.mem_map]
    constructor
    · rintro ⟨⟨x, y⟩, hxy, heq⟩
      obtain ⟨rfl, rfl⟩ := Prod.mk.inj heq
      obtain ⟨hx, hy, hlt, hover⟩ := (hpairs x y).1 hxy
      exact ⟨hlt, x.1, y.1, (mem_placedFields_iff.1 hx).1, (mem_placedFields_iff.1 hy).1,
        (overlaps_iff_of_placed h hx hy).1 hover⟩
    · rintro ⟨hlt, a, b, ha, hb, n, han, hbn⟩
      have hx : (a, i) ∈ f.placedFields := mem_placedFields_iff.2 ⟨ha, han.size_ne_zero⟩
      have hy : (b, j) ∈ f.placedFields := mem_placedFields_iff.2 ⟨hb, hbn.size_ne_zero⟩
      exact ⟨((a, i), (b, j)),
        (hpairs _ _).2 ⟨hx, hy, hlt, (overlaps_iff_of_placed h hx hy).2 ⟨n, han, hbn⟩⟩, rfl⟩

end

/-- An explicit struct with a union in it, one member of which has no bytes, a field behind the
front half of the union, and a buffer with an accessor. -/
def stackedCatalog : Catalog :=
  let field (type name : String) : FieldDecl := .ofNames (.named type) [name]
  let struct (name : String) (markers : Markers) (layout : Option LayoutAttr)
      (fields : List FieldDecl) :=
    (QualName.mk name, (⟨["public"], name, markers, layout, fields.map .field⟩ : StructDecl))
  ⟨[struct "Word" (Markers.none.insert .union) none
      [field "long" "whole", field "int" "low", (field "byte" "rest").withFixedCount 0],
    struct "Frame" .none (some ⟨.explicit, none, none⟩)
      [(field "Word" "word").withOffset 0, (field "short" "tag").withOffset 4,
        ((field "IntPtr" "slots").withOffset 8).withFixedCount 2]], [], [], [], []⟩

/-- Here the theorem says that the two reported pairs stand at two pairs of positions, and that the
member without bytes, at position three, is in neither. -/
theorem overlaps_at_positions_stacked :
    ∃ f, outcome (Bench.flatten stackedCatalog (.ofPointerWidth 8) ⟨"Frame"⟩)
        (Workbench.afterCalls stackedCatalog (.ofPointerWidth 8) []) = .ok f ∧
      f.members.map (fun m => (m.name, m.offset, m.size)) = [("word_whole", 0, 8),
        ("word_Ref", 0, 0), ("word_low", 0, 4), ("word_rest", 0, 0), ("tag", 4, 2),
        ("slots_Start", 8, 16), ("slots", 8, 0)] ∧
      f.overlaps.map (fun ab => (ab.1.name, ab.2.name)) =
        [("word_whole", "word_low"), ("word_whole", "tag")] ∧
      ∃ ps : List (Nat × Nat), ps.length = 2 ∧ ps.Pairwise (Prod.Lex (· < ·) (· < ·)) ∧
        ∀ j, (3, j) ∉ ps := by
  have hflat : ∃ f, outcome (Bench.flatten stackedCatalog (.ofPointerWidth 8) ⟨"Frame"⟩)
        (Workbench.afterCalls stackedCatalog (.ofPointerWidth 8) []) = .ok f ∧
      f.members.map (fun m => (m.name, m.offset, m.size)) = [("word_whole", 0, 8),
        ("word_Ref", 0, 0), ("word_low", 0, 4), ("word_rest", 0, 0), ("tag", 4, 2),
        ("slots_Start", 8, 16), ("slots", 8, 0)] ∧
      f.overlaps.map (fun ab => (ab.1.name, ab.2.name)) =
        [("word_whole", "word_low"), ("word_whole", "tag")] := by decide +kernel
  obtain ⟨f, hf, hmembers, hpairs⟩ := hflat
  obtain ⟨-, ps, hplaces, hmem, hsorted⟩ := overlaps_at_positions [] hf
  refine ⟨f, hf, hmembers, hpairs, ps, ?_, hsorted, fun j hj => ?_⟩
  · rw [hplaces.length_eq, ← List.length_map fun ab : PlacedMember × PlacedMember =>
      (ab.1.name, ab.2.name), hpairs]
    rfl
  · obtain ⟨-, a, b, ⟨hat, -⟩, -, n, hn, -⟩ := (hmem 3 j).1 hj
    have hempty := congrArg (·[3]?) hmembers
    rw [List.getElem?_map, hat] at hempty
    exact hn.size_ne_zero (congrArg (fun e => e.2.2) (Option.some.inj hempty))

end FlatLayout
