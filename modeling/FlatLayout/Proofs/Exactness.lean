import FlatLayout.Proofs.DependencyOrder
import FlatLayout.Proofs.Unbounded

/-!
# Words are enough

Flattening on words is compared with flattening on natural numbers, step by step. As long as every
number on the way is a word, both do the same, and they give the same flat struct or the same error.
At the first number that is no word the one on words stops with an overflow, and the other one has
that number among its readings.

## Two checks that are not where the reading is

Two places need more than this. An overflow may have happened in a contained struct. Then nothing is
known about the run of the container any more, and the large number is found in the run of the
contained struct; `Tracks` calls this an excuse.

And when a struct is nested, each of its members is moved by the offset of the field and checked,
before the end of the field is. The run on natural numbers checks only the end. That is no
difference, since the members end inside of their struct: a member that does not fit comes with an
end that does not fit.

## Main definitions

* `PlacedMember.widen`, `FlatStruct.widen` — the same data with natural numbers
* `Overflows` — a failure because a number is no word
* `Tracks` — a computation on words does what one on natural numbers does, until a number is no word

## Main results

* `Tracks.bind` — steps one after the other
* `limit_le_of_promoteAll` — members that cannot be moved belong to a struct that does not fit
* `tracks_placed` — one field, whatever it is made of
* `tracks_flattenUnder` — a struct, under any structs under way
* `flatten_exact` — what all this says about flattening
-/

namespace FlatLayout

open Relation

/-! ### The same data -/

/-- The member with natural numbers. -/
def PlacedMember.widen (m : PlacedMember) : WideMember :=
  ⟨m.name, m.type, m.offset.toNat, m.size.toNat, m.fixedCount, m.role, m.modifiers, m.baseField,
    m.source⟩

/-- The flat struct with natural numbers, without its declaration. -/
def FlatStruct.widen (f : FlatStruct) : WideStruct :=
  ⟨f.key, f.markers, f.footprint.extent, f.members.map PlacedMember.widen⟩

/-- What a field is made of, with natural numbers. -/
def Element.widen : Element → WideElement
  | .scalar size => .scalar size.toNat
  | .struct flat => .struct flat.widen

/-- What has been placed, with natural numbers. -/
def Placement.widen (p : Placement) : WidePlacement :=
  ⟨p.name, p.rule, p.isUnion, p.size.toNat, p.largest.toNat, p.members.map PlacedMember.widen⟩

/-- A field that was placed, with natural numbers. -/
def Placed.widen (t : Placed) : WidePlaced :=
  ⟨t.offset.toNat, t.size.toNat, t.placement.widen⟩

@[simp] theorem isAccessor_widen (m : PlacedMember) : m.widen.isAccessor = m.isAccessor := rfl

@[simp] theorem name_widen (m : PlacedMember) : m.widen.name = m.name := rfl

theorem fields_widen (f : FlatStruct) : f.widen.fields = f.fields.map PlacedMember.widen := by
  rw [WideStruct.fields, FlatStruct.widen, List.filter_map]
  rfl

theorem widen_add (p : Placement) (alignment : UInt32) (ms : List PlacedMember) :
    (p.add alignment ms).widen =
      p.widen.add alignment.toNat (ms.map PlacedMember.widen) := by
  simp only [Placement.widen, Placement.add, WidePlacement.add, Word.toNat_greater,
    List.map_append]

/-! ### Until a number is no word -/

section

variable {α β γ δ : Type}

/-- Some number was no word. -/
def Overflows (r : Except LayoutError α) : Prop := ∃ e, r = .error e ∧ e.isOverflow = true

/-- The computation `r` on words does what `x` does on natural numbers, where every number is a
word. If it stops because a number is none, then `x` came to such a number, or there is an
excuse. -/
structure Tracks (view : α → β) (excuse : Prop) (r : Except LayoutError α) (x : Gauged β) :
    Prop where
  overflow : Overflows r → excuse ∨ ¬ x.Bounded
  same : ¬ Overflows r → x.Bounded ∧ x.answer = r.map view

theorem not_overflows_ok (a : α) : ¬ Overflows (.ok a : Except LayoutError α) :=
  fun ⟨_, h, _⟩ => nomatch h

theorem overflows_error_iff {e : LayoutError} :
    Overflows (.error e : Except LayoutError α) ↔ e.isOverflow = true :=
  ⟨fun ⟨_, h, he⟩ => Except.error.inj h ▸ he, fun he => ⟨e, rfl, he⟩⟩

namespace Gauged

theorem bounded_ofExcept (r : Except LayoutError α) : (ofExcept r).Bounded :=
  fun _ hn => nomatch hn

theorem Bounded.of_bind {x : Gauged α} {f : α → Gauged β} (h : (x >>= f).Bounded) :
    x.Bounded := fun n hn => h n ((readings_prefix_bind x f).subset hn)

theorem bounded_bind_iff {x : Gauged α} {f : α → Gauged β} {a : α} (hx : x.answer = .ok a) :
    (x >>= f).Bounded ↔ x.Bounded ∧ (f a).Bounded := by
  rw [bind_of_ok hx]
  exact List.forall_mem_append

end Gauged

namespace Tracks

variable {view : α → β} {view' : γ → δ} {excuse : Prop}

theorem ok {a : α} {b : β} (h : view a = b) : Tracks view excuse (.ok a) (pure b) where
  overflow hover := absurd hover (not_overflows_ok a)
  same _ := ⟨by simp [Gauged.Bounded, pure], by rw [← h]; rfl⟩

/-- Where no number is looked at, nothing is wrong with one. -/
theorem ofExcept {r : Except LayoutError α} {w : Except LayoutError β}
    (h : FailsWith (fun e => e.isOverflow = false) r) (hw : w = r.map view) :
    Tracks view excuse r (.ofExcept w) where
  overflow := by
    rintro ⟨e, he, hover⟩
    rw [h e he] at hover
    cases hover
  same _ := ⟨Gauged.bounded_ofExcept w, hw⟩

/-- The same computation on both sides. -/
theorem common {r : Except LayoutError α} (h : FailsWith (fun e => e.isOverflow = false) r) :
    Tracks id excuse r (.ofExcept r) := ofExcept h (id_map r).symm

theorem error {e : LayoutError} (h : e.isOverflow = false) :
    Tracks view excuse (.error e) (.ofExcept (.error e)) := ofExcept (.error h) rfl

/-- A number that is a word is only read. -/
theorem gauge_bind {r : Except LayoutError α} {f : Nat → Gauged β} {n : Nat}
    (hn : n < Word.limit) (h : Tracks view excuse r (f n)) :
    Tracks view excuse r (.gauge n >>= f) := by
  have hbounded : (.gauge n >>= f : Gauged β).Bounded ↔ (f n).Bounded := by
    rw [Gauged.bounded_bind_iff rfl]
    exact and_iff_right (by simpa [Gauged.Bounded, Gauged.gauge] using hn)
  refine ⟨fun hover => ?_, fun hover => ?_⟩
  · rw [hbounded]
    exact h.overflow hover
  · rw [hbounded]
    exact h.same hover

/-- An overflow is right once a number is no word. -/
theorem beyond {f : Nat → Gauged β} {e : LayoutError} {n : Nat} (hn : Word.limit ≤ n)
    (he : e.isOverflow = true) : Tracks view excuse (.error e) (.gauge n >>= f) where
  overflow _ := .inr fun hbounded =>
    absurd (hbounded.of_bind n (List.mem_singleton_self n)) (Nat.not_lt.2 hn)
  same hover := absurd (overflows_error_iff.2 he) hover

/-- **Steps one after the other.** -/
theorem bind {r : Except LayoutError α} {x : Gauged β} {f : α → Except LayoutError γ}
    {g : β → Gauged δ} (hx : Tracks view excuse r x)
    (hfg : ∀ a, r = .ok a → Tracks view' excuse (f a) (g (view a))) :
    Tracks view' excuse (r >>= f) (x >>= g) := by
  cases r with
  | error e =>
    refine ⟨fun hover => ?_, fun hover => ?_⟩
    · exact (hx.overflow (overflows_error_iff.2 (overflows_error_iff.1 hover))).imp_right
        fun hnot hbounded => hnot hbounded.of_bind
    · obtain ⟨hbounded, hanswer⟩ :=
        hx.same fun h => hover (overflows_error_iff.2 (overflows_error_iff.1 h))
      rw [Gauged.bind_of_error hanswer]
      exact ⟨hbounded, rfl⟩
  | ok a =>
    obtain ⟨hbounded, hanswer⟩ := hx.same (not_overflows_ok a)
    have hrest := hfg a rfl
    refine ⟨fun hover => ?_, fun hover => ?_⟩
    · exact (hrest.overflow hover).imp_right fun hnot h =>
        hnot ((Gauged.bounded_bind_iff hanswer).1 h).2
    · obtain ⟨hboth, hsame⟩ := hrest.same hover
      exact ⟨(Gauged.bounded_bind_iff hanswer).2 ⟨hbounded, hboth⟩,
        by rw [Gauged.bind_of_ok hanswer]; exact hsame⟩

end Tracks

end

/-! ### One field -/

section

variable {excuse : Prop} {o : Options}

/-- Aligning is rounding up, and an overflow says that the result is no word. -/
theorem tracks_align (p : Placement) (natural base : UInt32) :
    Tracks UInt32.toNat excuse (p.align natural base)
      (p.widen.align natural.toNat base.toNat) := by
  rw [← bind_pure (p.widen.align _ _)]
  by_cases hlt : roundUp base.toNat (p.rule.boundary natural.toNat) < Word.limit
  · obtain ⟨offset, hoffset⟩ := exists_word hlt
    rw [Placement.align_eq_ok_iff.2 hoffset]
    refine .gauge_bind hlt ?_
    show Tracks _ _ _ (pure (roundUp base.toNat (p.rule.boundary natural.toNat)))
    exact .ok hoffset
  · have hnone : p.align natural base = .error (.offsetOverflow p.name base) := by
      have hover : (Alignment.effective p.rule.pack natural).align base = none := by
        rw [Alignment.align_eq_none_iff, Alignment.toNat_effective]
        exact Nat.not_lt.1 hlt
      rw [Placement.align, hover]
    rw [hnone]
    exact .beyond (Nat.not_lt.1 hlt) rfl

theorem tracks_advance (p : Placement) (offset size : UInt32) :
    Tracks Placement.widen excuse (p.advance offset size)
      (p.widen.advance offset.toNat size.toNat) := by
  unfold Placement.advance WidePlacement.advance
  cases hsum : Word.addChecked offset size with
  | none => exact .beyond (Word.addChecked_eq_none_iff.1 hsum) rfl
  | some fieldEnd =>
    rw [← Word.addChecked_eq_some_iff.1 hsum]
    refine .gauge_bind fieldEnd.toNat_lt ?_
    have hsmaller : (p.widen.overlapping && decide (fieldEnd.toNat < p.widen.size)) =
        (p.overlapping && decide (fieldEnd < p.size)) := by
      simp only [UInt32.lt_iff_toNat_lt]
      rfl
    simp only [hsmaller]
    cases p.overlapping && decide (fieldEnd < p.size) with
    | true => exact .ok rfl
    | false => exact .ok rfl

theorem tracks_placeScalar (p : Placement) (f : FieldDecl) (source : Nat) (size base : UInt32) :
    Tracks Placed.widen excuse (p.placeScalar f source size base)
      (p.widen.placeScalar f source size.toNat base.toNat) := by
  refine .bind (tracks_align p size base) fun offset _ => .ok ?_
  rw [Placed.widen, widen_add]
  rfl

theorem map_widen_bufferMembers (p : Placement) (f : FieldDecl) (source : Nat) (native : Bool)
    (offset size : UInt32) :
    (p.bufferMembers f source native offset size).map PlacedMember.widen =
      p.widen.bufferMembers f source native offset.toNat size.toNat := by
  cases native <;> rfl

theorem tracks_placeBuffer (p : Placement) (f : FieldDecl) (source : Nat) (count : UInt32)
    (native : Bool) (element : Element) (base : UInt32) :
    Tracks Placed.widen excuse (p.placeBuffer f source count native element base)
      (p.widen.placeBuffer f source count.toNat native element.widen base.toNat) := by
  cases element with
  | struct flat => exact .error rfl
  | scalar elementSize =>
    cases hproduct : Word.mulChecked elementSize count with
    | none =>
      simp only [Placement.placeBuffer, hproduct]
      exact .beyond (Word.mulChecked_eq_none_iff.1 hproduct) rfl
    | some size =>
      have hsize := Word.mulChecked_eq_some_iff.1 hproduct
      simp only [Placement.placeBuffer, hproduct]
      refine .gauge_bind (hsize ▸ size.toNat_lt) ?_
      refine .bind (tracks_align p elementSize base) fun offset _ => .ok ?_
      rw [Placed.widen, widen_add, map_widen_bufferMembers, hsize]

/-! ### A nested struct -/

theorem Moved.widen_eq {outer : Option String} {base : UInt32} {source : Nat}
    {m m' : PlacedMember} (h : Moved outer base source m m') :
    m'.widen = m.widen.promote outer base.toNat source := by
  simp only [PlacedMember.widen, WideMember.promote, h.name, h.type, h.offset, h.size,
    h.fixedCount, h.role, h.modifiers, h.baseField, h.source]

theorem map_widen_promoteAll {child : FlatStruct} {outer : Option String} {base : UInt32}
    {source : Nat} {ms : List PlacedMember}
    (h : Placement.promoteAll child outer base source = some ms) :
    ms.map PlacedMember.widen =
      WidePlacement.promoteAll child.widen outer base.toNat source := by
  rw [WidePlacement.promoteAll, FlatStruct.widen, List.map_map]
  have hmoved := moved_of_promoteAll h
  clear h
  generalize child.members = own at hmoved
  induction hmoved with
  | nil => rfl
  | cons first rest ih => exact congrArg₂ List.cons first.widen_eq ih

theorem map_widen_insertReference {reference : String → PlacedMember}
    {reference' : String → WideMember} (h : ∀ name, (reference name).widen = reference' name)
    (ms : List PlacedMember) :
    (Placement.insertReference reference ms).map PlacedMember.widen =
      WidePlacement.insertReference reference' (ms.map PlacedMember.widen) := by
  unfold Placement.insertReference WidePlacement.insertReference
  rw [List.takeWhile_map, List.dropWhile_map]
  simp only [Function.comp_def, isAccessor_widen]
  cases ms.dropWhile fun m => m.isAccessor with
  | nil => rfl
  | cons first rest => simp [h]

/-- What a nested struct contributes, if it can be moved at all. -/
theorem map_widen_nestedMembers {f : FieldDecl} {child : FlatStruct} {source : Nat}
    {offset : UInt32} {ms : List PlacedMember}
    (h : Placement.nestedMembers o f child source offset = some ms) :
    ms.map PlacedMember.widen =
      WidePlacement.nestedMembers o f child.widen source offset.toNat := by
  unfold Placement.nestedMembers at h
  unfold WidePlacement.nestedMembers
  rw [fields_widen]
  cases hfields : child.fields with
  | nil =>
    rw [hfields] at h
    cases h
    rfl
  | cons first rest =>
    rw [hfields] at h
    simp only [List.map_cons] at h ⊢
    show _ = if f.markers.anonymous || child.markers.anonymous then _ else _
    split at h
    next hanonymous =>
      rw [if_pos hanonymous]
      exact map_widen_promoteAll h
    next hnamed =>
      rw [if_neg hnamed]
      split at h
      next hinline =>
        obtain ⟨moved, hmoved, rfl⟩ := Option.map_eq_some_iff.1 h
        rw [if_pos hinline, ← map_widen_promoteAll hmoved]
        exact map_widen_insertReference (fun _ => rfl) moved
      next hkept =>
        rw [if_neg hkept]
        obtain rfl := Option.some.inj h
        rfl

/-- **A struct whose members cannot be moved does not fit as a whole.** -/
theorem limit_le_of_promoteAll {child : FlatStruct} {outer : Option String} {source : Nat}
    {offset : UInt32} (hwithin : Within child.footprint.size.toNat child.members)
    (h : Placement.promoteAll child outer offset source = none) :
    Word.limit ≤ offset.toNat + child.footprint.size.toNat := by
  by_contra hlt
  obtain ⟨ms, hms⟩ := exists_promoteAll hwithin (Nat.not_le.1 hlt) outer source
  rw [h] at hms
  cases hms

theorem limit_le_of_nestedMembers {f : FieldDecl} {child : FlatStruct} {source : Nat}
    {offset : UInt32} (hwithin : Within child.footprint.size.toNat child.members)
    (h : Placement.nestedMembers o f child source offset = none) :
    Word.limit ≤ offset.toNat + child.footprint.size.toNat := by
  by_contra hlt
  obtain ⟨ms, hms⟩ := exists_nestedMembers (o := o) hwithin (Nat.not_le.1 hlt) f source
  rw [h] at hms
  cases hms

/-- Placing a nested struct and moving the end of its container behind it. The check of the end
stands for the checks of the members. -/
theorem tracks_placeNested (p : Placement) (f : FieldDecl) (source : Nat) {child : FlatStruct}
    (hwithin : Within child.footprint.size.toNat child.members) (base : UInt32) :
    Tracks Placement.widen excuse
      (p.placeNested o f source child base >>= fun t => t.placement.advance t.offset t.size)
      (p.widen.placeNested o f source child.widen base.toNat >>= fun t =>
        t.placement.advance t.offset t.size) := by
  unfold Placement.placeNested WidePlacement.placeNested
  rw [bind_assoc, bind_assoc]
  refine .bind (tracks_align p child.footprint.alignment base) fun offset _ => ?_
  rw [pure_bind]
  cases hms : Placement.nestedMembers o f child source offset with
  | none => exact .beyond (limit_le_of_nestedMembers hwithin hms) rfl
  | some ms =>
    rw [← map_widen_nestedMembers hms]
    have hadd := widen_add p child.footprint.alignment ms
    have htracks : Tracks _ excuse _ _ :=
      tracks_advance (p.add child.footprint.alignment ms) offset child.footprint.size
    rw [hadd] at htracks
    exact htracks

/-- **One field**, whatever it is made of. -/
theorem tracks_placed (p : Placement) (f : FieldDecl) (source : Nat) (type : Binding)
    {element : Element}
    (hwithin : ∀ flat, element = .struct flat → Within flat.footprint.size.toNat flat.members)
    (base : UInt32) :
    Tracks Placement.widen excuse
      (p.place o f source type element base >>= fun t => t.placement.advance t.offset t.size)
      (p.widen.place o f source type element.widen base.toNat >>= fun t =>
        t.placement.advance t.offset t.size) := by
  unfold Placement.place WidePlacement.place
  cases f.fixedCount with
  | some count =>
    exact .bind (tracks_placeBuffer p f source count _ element base) fun t _ =>
      tracks_advance t.placement t.offset t.size
  | none =>
    cases element with
    | scalar size =>
      exact .bind (tracks_placeScalar p f source size base) fun t _ =>
        tracks_advance t.placement t.offset t.size
    | struct flat => exact tracks_placeNested p f source (hwithin flat rfl) base

end

/-! ### One struct -/

section

variable {c : Catalog} {o : Options} {child : QualName → Except LayoutError FlatStruct}
  {wide : QualName → Except LayoutError WideStruct} {key : QualName} {excuse : Prop}

theorem tracks_elementFrom {type : Binding}
    (h : ∀ d, type = .struct d → Tracks FlatStruct.widen excuse (child d) (.ofExcept (wide d))) :
    Tracks Element.widen excuse (elementFrom o child type)
      (.ofExcept (wideElement o wide type)) := by
  cases type with
  | struct d =>
    rw [elementFrom, wideElement, Gauged.ofExcept_bind]
    exact .bind (h d rfl) fun flat _ => .ok rfl
  | primitive p => exact .ok rfl
  | pointer t => exact .ok rfl
  | enum k p => exact .ok rfl
  | managed name => exact .error rfl

theorem tracks_baseOffset (p : Placement) (f : FieldDecl) :
    Tracks UInt32.toNat excuse (p.baseOffset f) (.ofExcept (p.widen.baseOffset f)) := by
  refine .ofExcept (failsWith_baseOffset (fun _ _ h _ => h) p f) ?_
  unfold Placement.baseOffset WidePlacement.baseOffset
  show (if p.isUnion then _ else if p.rule.isExplicit then _ else _) = _
  split
  · rfl
  split
  · cases f.offset <;> rfl
  · rfl

theorem tracks_checkNames (p : Placement) :
    Tracks id excuse p.checkNames (.ofExcept p.widen.checkNames) := by
  have hnames : p.widen.checkNames = p.checkNames := by
    rw [WidePlacement.checkNames, Placement.widen, List.map_map]
    rfl
  rw [hnames]
  exact .common (failsWith_checkNames (fun _ _ h _ => h) p)

theorem tracks_finish (p : Placement) (pad : Bool) :
    Tracks Footprint.extent excuse (p.finish pad) (p.widen.finish pad) := by
  cases pad with
  | false => exact .ok (by rw [Footprint.extent, Word.toNat_greater]; rfl)
  | true =>
    refine .bind (tracks_align p p.largest p.size) fun size _ => .ok ?_
    rw [Footprint.extent, Word.toNat_greater]
    rfl

variable (hwithin : ∀ d flat, child d = .ok flat →
  Within flat.footprint.size.toNat flat.members)

include hwithin

theorem tracks_spotFor {f : FieldDecl} {source : Nat} (p : Placement)
    (h : ∀ d, c.bind f.type key = .ok (.struct d) →
      Tracks FlatStruct.widen excuse (child d) (.ofExcept (wide d))) :
    Tracks Placement.widen excuse ((spotFor c o child key p f source).map Prod.snd)
      (placeWide c o wide key p.widen (.field f source)) := by
  rw [map_snd_spotFor, placeWide]
  refine .bind (.common (failsWith_bind (fun _ _ h _ => h) c _ _)) fun type htype => ?_
  refine .bind (tracks_baseOffset p f) fun base _ => ?_
  refine .bind (tracks_elementFrom fun d hd => h d (hd ▸ htype)) fun element helement => ?_
  refine tracks_placed p f source type (fun flat hflat => ?_) base
  obtain ⟨d, -, hd⟩ := exists_struct_of_made (hflat ▸ helement)
  exact hwithin d flat hd

/-- **The fields of a struct**, by induction on them. -/
theorem tracks_spotsFor {slots : List Slot} (p : Placement)
    (h : ∀ f source d, Slot.field f source ∈ slots → c.bind f.type key = .ok (.struct d) →
      Tracks FlatStruct.widen excuse (child d) (.ofExcept (wide d))) :
    Tracks Placement.widen excuse ((spotsFor c o child key p slots).map Prod.snd)
      (slots.foldlM (placeWide c o wide key) p.widen) := by
  induction slots generalizing p with
  | nil => exact .ok rfl
  | cons slot slots ih =>
    rw [List.foldlM_cons]
    cases slot with
    | groupedBuffer f => exact .error (e := .groupedBuffer f.names p.name) rfl
    | conditional symbol => exact .error (e := .conditionalBlock symbol p.name) rfl
    | field f source =>
      rw [map_snd_spotsFor_cons]
      refine .bind (tracks_spotFor hwithin p fun d => h f source d List.mem_cons_self) ?_
      exact fun q _ => ih q fun g i d hg => h g i d (List.mem_cons_of_mem _ hg)

/-- **One struct.** -/
theorem tracks_layoutFrom {s : StructDecl}
    (h : ∀ f source d, Slot.field f source ∈ s.slots → c.bind f.type key = .ok (.struct d) →
      Tracks FlatStruct.widen excuse (child d) (.ofExcept (wide d))) :
    Tracks FlatStruct.widen excuse ((layoutFrom c o child key s).map Prod.snd)
      (layoutWide c o wide key s) := by
  rw [map_snd_layoutFrom]
  refine .bind (.common (failsWith_ofAttr (fun _ _ h _ => h) _ _)) fun rule _ => ?_
  refine .bind (tracks_spotsFor hwithin _ h) fun p _ => ?_
  refine .bind (tracks_checkNames p) fun _ _ => ?_
  exact .bind (tracks_finish p o.padTrailing) fun footprint _ => .ok rfl

end

/-! ### All structs of a catalog -/

section

variable {c : Catalog} {o : Options} {key : QualName}

/-- **A struct, under any structs under way.** If it overflows, there is a number that is no word in
its own run or in that of a struct in there. -/
theorem tracks_flattenUnder {fuel : Nat} {pending : List QualName}
    (hfuel : fuel ≤ c.structs.length + 1) :
    Tracks FlatStruct.widen (∃ d, TransGen c.Contains key d ∧ ¬ (c.flattenWide o d).Bounded)
      (c.flattenUnder o fuel pending key) (c.flattenWideUnder o fuel pending key) := by
  induction fuel generalizing pending key with
  | zero => exact .error rfl
  | succ n ih =>
    rw [Catalog.flattenUnder, Catalog.flattenWideUnder]
    by_cases hkey : pending.contains key = true
    · rw [if_pos hkey, if_pos hkey]
      exact .error rfl
    rw [if_neg hkey, if_neg hkey]
    refine .bind (.common (failsWith_declaration (fun _ _ h _ => h) c key)) fun s hs => ?_
    have hs := Catalog.declaration_eq_ok hs
    refine tracks_layoutFrom (fun d flat hd => ?_) fun f source d hslot hbind => ?_
    · exact within_of_answer (Catalog.flattenUnder_mono (by omega) (List.nil_subset _) hd)
    have hd : c.Contains key d := ⟨s, hs, f, source, hslot, hbind⟩
    have hbelow := @ih d (key :: pending) (by omega)
    have hfarther : Gauged.Prefix (c.flattenWideUnder o n (key :: pending) d) (c.flattenWide o d) :=
      Catalog.prefix_flattenWideUnder (by omega) (List.nil_subset _) d
    refine ⟨fun hover => .inl ?_, fun hover => ?_⟩
    · rcases hbelow.overflow hover with ⟨e, he, hlarge⟩ | hlarge
      · exact ⟨e, he.head hd, hlarge⟩
      · exact ⟨d, .single hd, fun hbounded => hlarge (hfarther.bounded hbounded)⟩
    · exact ⟨Gauged.bounded_ofExcept _, (hbelow.same hover).2⟩

/-- A struct that can be flattened, and whatever it contains, never came to a number that is no
word. -/
theorem bounded_of_answer {f : FlatStruct} (h : c.answer o key = .ok f) {d : QualName}
    (hd : ReflTransGen c.Contains key d) : (c.flattenWide o d).Bounded := by
  obtain ⟨g, hg⟩ := Catalog.exists_answer_of_reachable h hd
  have htracks : Tracks _ _ (c.answer o d) _ := tracks_flattenUnder (Nat.le_refl _)
  rw [hg] at htracks
  exact (htracks.same (not_overflows_ok g)).1

/-- **Words are enough.** In any catalog, with any options and behind any calls: a struct that is
flattened has the offsets and sizes that it has without a limit, and no number in its run or in that
of a struct embedded in it is more than a word. If flattening overflows, there is such a number in
the run of the struct or of a struct embedded in it; and as long as there is none, flattening does
what it does without a limit. Members of a nested struct cannot be moved to an offset only where the
end of the whole struct is refused as well. -/
theorem flatten_exact (c : Catalog) (o : Options) (calls : List Call) (key : QualName) :
    (∀ f, outcome (Bench.flatten c o key) (Workbench.afterCalls c o calls) = .ok f →
      (c.flattenWide o key).answer = .ok f.widen ∧
        ∀ d, ReflTransGen c.Embeds key d → (c.flattenWide o d).Bounded) ∧
    (Overflows (outcome (Bench.flatten c o key) (Workbench.afterCalls c o calls)) →
      ∃ d, ReflTransGen c.Embeds key d ∧ ∃ n ∈ (c.flattenWide o d).readings, Word.limit ≤ n) ∧
    ((∀ d, ReflTransGen c.Embeds key d → (c.flattenWide o d).Bounded) →
      ¬ Overflows (outcome (Bench.flatten c o key) (Workbench.afterCalls c o calls)) ∧
        (c.flattenWide o key).answer =
          (outcome (Bench.flatten c o key) (Workbench.afterCalls c o calls)).map
            FlatStruct.widen) ∧
    ∀ f, outcome (Bench.flatten c o key) (Workbench.afterCalls c o calls) = .ok f →
      ∀ outer offset source, Placement.promoteAll f outer offset source = none →
        ∀ p : Placement, p.advance offset f.footprint.size =
          .error (.offsetOverflow p.name offset) := by
  rw [outcome_flatten_eq_answer]
  have htracks : Tracks FlatStruct.widen _ (c.answer o key) (c.flattenWide o key) :=
    tracks_flattenUnder (Nat.le_refl _)
  have hoverflow : Overflows (c.answer o key) →
      ∃ d, ReflTransGen c.Embeds key d ∧ ¬ (c.flattenWide o d).Bounded := by
    intro hover
    rcases htracks.overflow hover with ⟨d, hd, hlarge⟩ | hlarge
    · exact ⟨d, (Catalog.transGen_embeds hd).to_reflTransGen, hlarge⟩
    · exact ⟨key, .refl, hlarge⟩
  refine ⟨fun f hf => ⟨?_, fun d hd => ?_⟩, fun hover => ?_, fun hbounded => ?_, ?_⟩
  · rw [hf] at htracks
    exact (htracks.same (not_overflows_ok f)).2
  · exact bounded_of_answer hf (reaches_of_answer hf hd)
  · obtain ⟨d, hd, hlarge⟩ := hoverflow hover
    simp only [Gauged.Bounded, not_forall, Nat.not_lt] at hlarge
    obtain ⟨n, hn, hle⟩ := hlarge
    exact ⟨d, hd, n, hn, hle⟩
  · have hnot : ¬ Overflows (c.answer o key) := fun hover => by
      obtain ⟨d, hd, hlarge⟩ := hoverflow hover
      exact hlarge (hbounded d hd)
    exact ⟨hnot, (htracks.same hnot).2⟩
  · intro f hf outer offset source hnone p
    have hlarge := limit_le_of_promoteAll (within_of_answer hf) hnone
    rw [Placement.advance, Word.addChecked_eq_none_iff.2 hlarge]

/-- A buffer of all bytes that there are offsets for, alone in a struct and with a byte behind it;
a struct that contains the latter; and a struct with its only byte at the last offset but one. -/
def vastCatalog : Catalog :=
  let field (type name : String) : FieldDecl := .ofNames (.named type) [name]
  let struct (name : String) (layout : Option LayoutAttr) (fields : List FieldDecl) :=
    (QualName.mk name, (⟨["public"], name, .none, layout, fields.map .field⟩ : StructDecl))
  ⟨[struct "Full" none [(field "byte" "data").withFixedCount 4294967295],
    struct "Past" none [field "Full" "full", field "byte" "tag"],
    struct "Around" none [field "ushort" "id", field "Past" "past"],
    struct "Tail" (some ⟨.explicit, none, none⟩)
      [{ field "byte" "last" with offset := some 4294967294 }]], [], [], [], []⟩

/-- Here the theorem says that `Full` is as large as without a limit, that what `Around` embeds
comes to a number that is no word, and that `Tail`, whose member cannot be moved by two bytes, does
not end at a word there either. -/
theorem flatten_exact_vast :
    (∃ f, outcome (Bench.flatten vastCatalog (.ofPointerWidth 8) ⟨"Full"⟩) .empty = .ok f ∧
      f.footprint = ⟨4294967295, 1⟩ ∧
      (vastCatalog.flattenWide (.ofPointerWidth 8) ⟨"Full"⟩).answer = .ok f.widen ∧
      ¬ Overflows (outcome (Bench.flatten vastCatalog (.ofPointerWidth 8) ⟨"Full"⟩) .empty)) ∧
    outcome (Bench.flatten vastCatalog (.ofPointerWidth 8) ⟨"Around"⟩) .empty =
      .error (.offsetOverflow "Past" 4294967295) ∧
    (vastCatalog.flattenWide (.ofPointerWidth 8) ⟨"Past"⟩).readings =
      [0, 4294967295, 4294967295, 4294967296, 4294967296] ∧
    (∃ d, ReflTransGen vastCatalog.Embeds ⟨"Around"⟩ d ∧
      ∃ n ∈ (vastCatalog.flattenWide (.ofPointerWidth 8) d).readings, Word.limit ≤ n) ∧
    ∃ f, outcome (Bench.flatten vastCatalog (.ofPointerWidth 8) ⟨"Tail"⟩) .empty = .ok f ∧
      Placement.promoteAll f none 2 0 = none ∧
      (Placement.start "Outer" .default false).advance 2 f.footprint.size =
        .error (.offsetOverflow "Outer" 2) := by
  obtain ⟨hfull, -, hbounded, -⟩ := flatten_exact vastCatalog (.ofPointerWidth 8) [] ⟨"Full"⟩
  obtain ⟨-, haround, -, -⟩ := flatten_exact vastCatalog (.ofPointerWidth 8) [] ⟨"Around"⟩
  obtain ⟨-, -, -, htail⟩ := flatten_exact vastCatalog (.ofPointerWidth 8) [] ⟨"Tail"⟩
  have hovers : outcome (Bench.flatten vastCatalog (.ofPointerWidth 8) ⟨"Around"⟩) .empty =
      .error (.offsetOverflow "Past" 4294967295) := by decide +kernel
  refine ⟨?_, hovers, by decide +kernel, haround ⟨_, hovers, rfl⟩, ?_⟩
  · obtain ⟨f, hf, hsize⟩ : ∃ f, outcome (Bench.flatten vastCatalog (.ofPointerWidth 8)
        ⟨"Full"⟩) .empty = .ok f ∧ f.footprint = ⟨4294967295, 1⟩ := by decide +kernel
    obtain ⟨hsame, hwords⟩ := hfull f hf
    exact ⟨f, hf, hsize, hsame, (hbounded hwords).1⟩
  · obtain ⟨f, hf, hnone⟩ : ∃ f, outcome (Bench.flatten vastCatalog (.ofPointerWidth 8)
        ⟨"Tail"⟩) .empty = .ok f ∧ Placement.promoteAll f none 2 0 = none := by decide +kernel
    exact ⟨f, hf, hnone, htail f hf none 2 0 hnone _⟩

end

end FlatLayout
