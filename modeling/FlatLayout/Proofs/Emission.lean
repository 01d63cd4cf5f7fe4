import FlatLayout.Proofs.AccessorTargets

/-!
# The flat declaration

A flat struct is handed on as a declaration. It is made by going through the members of the old one:
an instance field gives way to what was placed for it, everything else is copied. What was placed is
one list for the whole struct, and how far it belongs to the field at hand is told by the number of
that field, which every placed member carries.

`Emitted` says the same without numbers and without a list to be used up: each field comes with its
own spots. All that is said here about the flat declaration is read off this form by induction.

## Main definitions

* `memberSlots` — the fields among some members, in the order in which they are placed
* `Emitted` — what takes the place of some members, given the spots of their fields

## Main results

* `Laid.emitted` — every flat declaration is made in this way
* `instanceField_of_answer` — what stands in a flat declaration
* `redeclared_of_answer` — the fields of a flat declaration are the fields of the flat struct
-/

namespace FlatLayout

/-! ### The fields among some members -/

/-- The steps in placing the fields among some members, which are counted from `n` on. -/
def memberSlots (n : Nat) (ms : List Member) : List Slot :=
  (ms.zipIdx n).flatMap fun (m, i) => m.slots i

theorem memberSlots_cons (n : Nat) (m : Member) (ms : List Member) :
    memberSlots n (m :: ms) = m.slots n ++ memberSlots (n + 1) ms := by
  simp only [memberSlots, List.zipIdx_cons, List.flatMap_cons]

theorem StructDecl.slots_eq (s : StructDecl) : s.slots = memberSlots 0 s.members := rfl

/-- A member only asks for steps with its own number. -/
theorem source_of_mem_slots {m : Member} {n i : Nat} {f : FieldDecl}
    (h : Slot.field f i ∈ m.slots n) : i = n := by
  cases m with
  | field g =>
    rw [Member.slots] at h
    split at h
    · cases h
    split at h
    · split at h
      · simp at h
      · obtain ⟨_, _, heq⟩ := List.mem_map.1 h
        exact (Slot.field.inj heq).2.symm
    · exact (Slot.field.inj (List.mem_singleton.1 h)).2
  | conditional symbol ms otherwise => simp [Member.slots] at h
  | accessor a => cases h
  | struct s => cases h
  | enum e => cases h
  | verbatim text => cases h

theorem source_of_mem_memberSlots {ms : List Member} {n i : Nat} {f : FieldDecl}
    (h : Slot.field f i ∈ memberSlots n ms) : n ≤ i := by
  induction ms generalizing n with
  | nil => cases h
  | cons m ms ih =>
    rw [memberSlots_cons] at h
    rcases List.mem_append.1 h with h | h
    · exact Nat.le_of_eq (source_of_mem_slots h).symm
    · exact Nat.le_of_succ_le (ih h)

/-- Every instance field is placed. -/
theorem isInstance_of_slots {f : FieldDecl} {n : Nat} (h : (Member.field f).slots n = []) :
    f.isInstance = false := by
  cases hf : f.isInstance with
  | false => rfl
  | true =>
    rw [Member.slots, hf, if_neg (by decide)] at h
    split at h
    next hgrouped =>
      split at h
      · cases h
      · obtain ⟨modifiers, type, names, count, offset, isStatic, isConst, markers⟩ := f
        simp only [FieldDecl.isGrouped, FieldDecl.split, List.map_map, List.map_eq_nil_iff,
          decide_eq_true_eq] at hgrouped h
        rw [h] at hgrouped
        exact absurd hgrouped (by decide)
    · cases h

/-! ### What takes the place of a member -/

/-- What takes the place of some members, which are counted from `n` on, where `ts` are the spots of
the fields among them. -/
inductive Emitted (container : String) : Nat → List Member → List Spot → List Member → Prop
  | nil (n : Nat) : Emitted container n [] [] []
  | replaced {n : Nat} {f : FieldDecl} {ms out : List Member} {ts us : List Spot}
      (placed : f.isInstance = true) (spots : (Member.field f).slots n = ts.map Spot.slot)
      (rest : Emitted container (n + 1) ms us out) :
      Emitted container n (.field f :: ms) (ts ++ us)
        ((ts.flatMap Spot.members).map (·.toMember container) ++ out)
  | copied {n : Nat} {m : Member} {ms out : List Member} {ts : List Spot} (passive : m.slots n = [])
      (rest : Emitted container (n + 1) ms ts out) : Emitted container n (m :: ms) ts (m :: out)

section

variable {container : String} {n : Nat} {ms out : List Member} {ts : List Spot}

theorem takeWhile_source {as bs : List PlacedMember} (has : ∀ m ∈ as, m.source = n)
    (hbs : ∀ m ∈ bs, m.source ≠ n) :
    (as ++ bs).takeWhile (·.source == n) = as ∧ (as ++ bs).dropWhile (·.source == n) = bs := by
  have hpos : ∀ m ∈ as, (m.source == n) = true := fun m hm => by simpa using has m hm
  rw [List.takeWhile_append_of_pos hpos, List.dropWhile_append_of_pos hpos]
  cases bs with
  | nil => simp
  | cons b bs =>
    have hneg := hbs b List.mem_cons_self
    rw [List.takeWhile_cons_of_neg (by simpa using hneg),
      List.dropWhile_cons_of_neg (by simpa using hneg), List.append_nil]
    exact ⟨rfl, rfl⟩

theorem replaceFields_cons {m : Member} (hpassive : m.slots n = []) (placed : List PlacedMember) :
    replaceFields container n (m :: ms) placed =
      m :: replaceFields container (n + 1) ms placed := by
  cases m with
  | field f =>
    rw [replaceFields, isInstance_of_slots hpassive]
    exact if_neg (by decide)
  | conditional symbol ms otherwise => cases hpassive
  | accessor a => rw [replaceFields]; intro f hf; cases hf
  | struct s => rw [replaceFields]; intro f hf; cases hf
  | enum e => rw [replaceFields]; intro f hf; cases hf
  | verbatim text => rw [replaceFields]; intro f hf; cases hf

/-- A member asks for no steps, or it is an instance field. -/
theorem slots_eq_nil_or {m : Member} (h : m.slots n = ts.map Spot.slot) :
    m.slots n = [] ∨ ∃ f, m = .field f ∧ f.isInstance = true := by
  cases m with
  | field f =>
    cases hf : f.isInstance with
    | true => exact .inr ⟨f, rfl, hf⟩
    | false => exact .inl (by rw [Member.slots, hf]; rfl)
  | conditional symbol ms otherwise =>
    obtain ⟨t, _, ht, -⟩ := List.map_eq_cons_iff.1 h.symm
    subst ht
    cases h
  | accessor a => exact .inl rfl
  | struct s => exact .inl rfl
  | enum e => exact .inl rfl
  | verbatim text => exact .inl rfl

/-- **Fields are replaced by what was placed for them**, if that carries the numbers of the
fields. -/
theorem emitted_of_slots (h : memberSlots n ms = ts.map Spot.slot)
    (hsource : ∀ t ∈ ts, ∀ m ∈ t.members, m.source = t.source) :
    Emitted container n ms ts (replaceFields container n ms (ts.flatMap Spot.members)) := by
  induction ms generalizing n ts with
  | nil =>
    obtain rfl : ts = [] := List.map_eq_nil_iff.1 h.symm
    exact .nil n
  | cons m ms ih =>
    rw [memberSlots_cons] at h
    obtain ⟨ts, us, rfl, hts, hus⟩ := List.map_eq_append_iff.1 h.symm
    have hrest := ih hus.symm fun t ht => hsource t (List.mem_append_right _ ht)
    rcases slots_eq_nil_or hts.symm with hpassive | ⟨f, rfl, hf⟩
    · obtain rfl : ts = [] := List.map_eq_nil_iff.1 (hts.trans hpassive)
      rw [replaceFields_cons hpassive]
      exact .copied hpassive hrest
    · have hhere : ∀ m ∈ ts.flatMap Spot.members, m.source = n := by
        intro m hm
        obtain ⟨t, ht, hm⟩ := List.mem_flatMap.1 hm
        rw [hsource t (List.mem_append_left _ ht) m hm]
        exact source_of_mem_slots (hts ▸ List.mem_map_of_mem (f := Spot.slot) ht)
      have hbehind : ∀ m ∈ us.flatMap Spot.members, m.source ≠ n := by
        intro m hm
        obtain ⟨t, ht, hm⟩ := List.mem_flatMap.1 hm
        rw [hsource t (List.mem_append_right _ ht) m hm]
        have hle : n + 1 ≤ t.source :=
          source_of_mem_memberSlots (hus ▸ List.mem_map_of_mem (f := Spot.slot) ht)
        omega
      obtain ⟨htake, hdrop⟩ := takeWhile_source hhere hbehind
      rw [replaceFields, if_pos hf, List.flatMap_append, htake, hdrop]
      exact .replaced hf hts.symm hrest

/-- A member of the new declaration stands for a placed member, or was copied. -/
theorem Emitted.mem (h : Emitted container n ms ts out) {m : Member} (hm : m ∈ out) :
    (∃ t ∈ ts, ∃ p ∈ t.members, m = p.toMember container) ∨
      (m ∈ ms ∧ ∀ f, m = .field f → f.isInstance = false) := by
  induction h with
  | nil => cases hm
  | @replaced n f ms out ts us placed spots rest ih =>
    rcases List.mem_append.1 hm with hm | hm
    · obtain ⟨p, hp, rfl⟩ := List.mem_map.1 hm
      obtain ⟨t, ht, hp⟩ := List.mem_flatMap.1 hp
      exact .inl ⟨t, List.mem_append_left _ ht, p, hp, rfl⟩
    · rcases ih hm with ⟨t, ht, hplaced⟩ | ⟨hm, hcopied⟩
      · exact .inl ⟨t, List.mem_append_right _ ht, hplaced⟩
      · exact .inr ⟨List.mem_cons_of_mem _ hm, hcopied⟩
  | @copied n m' ms out ts passive rest ih =>
    rcases List.mem_cons.1 hm with rfl | hm
    · refine .inr ⟨List.mem_cons_self, ?_⟩
      rintro f rfl
      exact isInstance_of_slots passive
    · rcases ih hm with hplaced | ⟨hm, hcopied⟩
      · exact .inl hplaced
      · exact .inr ⟨List.mem_cons_of_mem _ hm, hcopied⟩

end

/-! ### Placed members carry the numbers of their fields -/

theorem source_of_contributed {o : Options} {f : FieldDecl} {child : FlatStruct} {source : Nat}
    {offset : UInt32} {ms : List PlacedMember} (h : Contributed o f child source offset ms)
    {m : PlacedMember} (hm : m ∈ ms) : m.source = source := by
  cases h with
  | childless => cases hm
  | merged _ _ moved =>
    obtain ⟨_, -, hmoved⟩ := exists_unmoved moved hm
    exact hmoved.source
  | spread _ _ moved =>
    rcases mem_insert_behind.1 hm with rfl | hm
    · rfl
    · obtain ⟨_, -, hmoved⟩ := exists_unmoved moved hm
      exact hmoved.source
  | kept => rcases List.mem_pair.1 hm with rfl | rfl <;> rfl

theorem Spot.Filled.source {o : Options} {role : Role} {t : Spot} (h : t.Filled o role)
    {m : PlacedMember} (hm : m ∈ t.members) : m.source = t.source := by
  cases h with
  | scalar _ _ hmembers =>
    rw [hmembers] at hm
    rw [List.mem_singleton.1 hm]
    rfl
  | native _ _ _ _ _ _ hmembers =>
    rw [hmembers] at hm
    rw [List.mem_singleton.1 hm]
    rfl
  | started _ _ _ _ _ _ hmembers =>
    rw [hmembers] at hm
    rcases List.mem_pair.1 hm with rfl | rfl <;> rfl
  | nested flat _ _ _ hmembers =>
    exact source_of_contributed (contributed_of_nestedMembers hmembers) hm

/-! ### The flat declaration of a struct -/

section

variable {c : Catalog} {o : Options} {child : QualName → Except LayoutError FlatStruct}
  {key : QualName} {s : StructDecl} {rule : LayoutRule} {ts : List Spot} {p : Placement}
  {f : FlatStruct}

theorem Laid.decl_eq (laid : Laid c o child key s rule ts p f) :
    f.decl = s.withPlaced f.members f.footprint.size := by
  conv_lhs => rw [laid.flat]
  conv_rhs => rw [laid.flat]

/-- **Every flat declaration** has in place of each field what was placed for it. -/
theorem Laid.emitted (laid : Laid c o child key s rule ts p f) :
    Emitted s.name 0 s.members ts f.decl.members := by
  rw [laid.decl_eq, StructDecl.withPlaced, laid.members_eq]
  refine emitted_of_slots laid.slots fun t ht m hm => ?_
  obtain ⟨_, _, hstep⟩ := laid.run.exists_step ht
  exact hstep.filled.source hm

end

/-! ### What stands in a flat declaration -/

section

variable {c : Catalog} {o : Options} {key : QualName} {f : FlatStruct}

theorem toMember_of_field {m : PlacedMember} (h : m.isAccessor = false) (container : String) :
    m.toMember container = .field m.toField := by
  unfold PlacedMember.toMember
  split
  · rw [h]; rfl
  · rfl

theorem toMember_of_accessor {m : PlacedMember} (h : m.isAccessor = true) {base : String}
    (hbase : m.baseField = some base) (container : String) :
    m.toMember container = .accessor ⟨FieldDecl.addModifier m.modifiers "unsafe", m.name, m.type,
      container, base, m.offset⟩ := by
  rw [PlacedMember.toMember, hbase]
  exact if_pos h

@[simp] theorem isInstance_toField (m : PlacedMember) : m.toField.isInstance = true := rfl

theorem mem_fields_iff {s : StructDecl} {g : FieldDecl} : g ∈ s.fields ↔ .field g ∈ s.members := by
  rw [StructDecl.fields, List.mem_filterMap]
  constructor
  · rintro ⟨m, hm, hfield⟩
    cases m with
    | field f => rwa [← Option.some.inj hfield]
    | accessor a => cases hfield
    | struct s => cases hfield
    | enum e => cases hfield
    | conditional symbol ms otherwise => cases hfield
    | verbatim text => cases hfield
  · exact fun h => ⟨.field g, h, rfl⟩

/-- **The instance fields of a flat declaration** are fields of the flat struct. -/
theorem instanceField_of_answer (h : c.answer o key = .ok f) {g : FieldDecl}
    (hg : g ∈ f.decl.fields) (hinstance : g.isInstance = true) :
    ∃ m ∈ f.fields, g = m.toField := by
  rw [mem_fields_iff] at hg
  obtain ⟨s, rule, ts, p, -, laid⟩ := Catalog.exists_laid_of_answer h
  rcases laid.emitted.mem hg with ⟨t, ht, m, hm, hmember⟩ | ⟨-, hcopied⟩
  · have hmem : m ∈ f.members := laid.members_spot_subset ht hm
    cases hacc : m.isAccessor with
    | false =>
      rw [toMember_of_field hacc] at hmember
      exact ⟨m, List.mem_filter.2 ⟨hmem, by rw [hacc]; rfl⟩, Member.field.inj hmember⟩
    | true =>
      obtain ⟨b, -, -, hbase, -⟩ := targeted_of_answer h m hmem hacc
      rw [toMember_of_accessor hacc hbase] at hmember
      cases hmember
  · rw [hcopied g rfl] at hinstance
    cases hinstance

/-- **The flat declaration** of a struct has its modifiers and its name, and nothing else is left to
be told of it but what was placed. -/
theorem decl_of_answer {s : StructDecl} (h : c.answer o key = .ok f) (hs : c.struct? key = some s) :
    f.decl = s.withPlaced f.members f.footprint.size := by
  obtain ⟨s', rule, ts, p, hs', laid⟩ := Catalog.exists_laid_of_answer h
  obtain rfl := Option.some.inj (hs.symm.trans hs')
  exact laid.decl_eq

/-- The steps in placing the fields of a flat declaration, field by field of the flat struct. -/
def Redeclared (slots : List Slot) (ms : List PlacedMember) : Prop :=
  List.Forall₂ (fun slot m => ∃ i, slot = .field m.toField i) slots ms

theorem slots_toField (m : PlacedMember) (n : Nat) :
    (Member.field m.toField).slots n = [.field m.toField n] := rfl

theorem redeclared_toMember {ms : List PlacedMember}
    (hbase : ∀ m ∈ ms, m.isAccessor = true → ∃ base, m.baseField = some base)
    (container : String) (n : Nat) :
    Redeclared (memberSlots n (ms.map (·.toMember container)))
      (ms.filter fun m => !m.isAccessor) := by
  induction ms generalizing n with
  | nil => exact .nil
  | cons m ms ih =>
    have hrest := ih (fun m hm => hbase m (List.mem_cons_of_mem _ hm)) (n + 1)
    rw [List.map_cons, memberSlots_cons]
    cases hacc : m.isAccessor with
    | false =>
      rw [toMember_of_field hacc, slots_toField, List.filter_cons_of_pos (by simp [hacc])]
      exact .cons ⟨n, rfl⟩ hrest
    | true =>
      obtain ⟨base, hbase⟩ := hbase m List.mem_cons_self hacc
      rw [toMember_of_accessor hacc hbase, List.filter_cons_of_neg (by simp [hacc])]
      exact hrest

theorem memberSlots_append (n : Nat) (ms ms' : List Member) :
    memberSlots n (ms ++ ms') = memberSlots n ms ++ memberSlots (n + ms.length) ms' := by
  simp only [memberSlots, List.zipIdx_append, List.flatMap_append]

/-- What is copied asks for no steps, wherever it stands. -/
theorem slots_eq_nil {m : Member} {n : Nat} (h : m.slots n = []) (k : Nat) : m.slots k = [] := by
  cases m with
  | field f => rw [Member.slots, isInstance_of_slots h]; rfl
  | conditional symbol ms otherwise => cases h
  | accessor a => rfl
  | struct s => rfl
  | enum e => rfl
  | verbatim text => rfl

theorem Emitted.redeclared {container : String} {n : Nat} {ms out : List Member} {ts : List Spot}
    (h : Emitted container n ms ts out)
    (hbase : ∀ t ∈ ts, ∀ m ∈ t.members, m.isAccessor = true → ∃ base, m.baseField = some base)
    (k : Nat) :
    Redeclared (memberSlots k out)
      (ts.flatMap fun t => t.members.filter fun m => !m.isAccessor) := by
  induction h generalizing k with
  | nil => exact .nil
  | @replaced n f ms out ts us placed spots rest ih =>
    rw [memberSlots_append, List.flatMap_append, ← List.filter_flatMap]
    refine List.rel_append (redeclared_toMember ?_ container k) (ih ?_ _)
    · intro m hm
      obtain ⟨t, ht, hm⟩ := List.mem_flatMap.1 hm
      exact hbase t (List.mem_append_left _ ht) m hm
    · exact fun t ht => hbase t (List.mem_append_right _ ht)
  | copied passive rest ih =>
    rw [memberSlots_cons, slots_eq_nil passive, List.nil_append]
    exact ih hbase _

/-- **The fields of a flat declaration** are those of the flat struct, in order. -/
theorem redeclared_of_answer (h : c.answer o key = .ok f) : Redeclared f.decl.slots f.fields := by
  obtain ⟨s, rule, ts, p, -, laid⟩ := Catalog.exists_laid_of_answer h
  rw [StructDecl.slots_eq, laid.fields_eq]
  refine laid.emitted.redeclared (fun t ht m hm hacc => ?_) 0
  obtain ⟨b, -, -, hbase, -⟩ := targeted_of_answer h m (laid.members_spot_subset ht hm) hacc
  exact ⟨b.name, hbase⟩

end

end FlatLayout
