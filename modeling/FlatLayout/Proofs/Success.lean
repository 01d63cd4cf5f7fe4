import FlatLayout.Proofs.ExactLayout
import FlatLayout.Proofs.MemberNames
import FlatLayout.Proofs.Reflattening
import FlatLayout.Proofs.Termination

/-!
# When flattening succeeds

Flattening stops at the first thing that is wrong, anywhere in the struct or in what it contains.
Here everything that can be wrong is collected, and nothing is left: what is accepted on all counts,
in every struct by value, is flattened.

## What a struct is judged by

`Catalog.Accepts` looks at one struct, and at four things only. Its declaration must make sense
where it stands, `Catalog.Admits`. It must not embed itself. And two things are read off the tree of
its type, without laying it out on words: the names of the members must differ, and no offset, no
end and no size may go beyond a word, `LayoutRule.Fits`.

The last two speak of the tree, so it matters that there is one. A struct whose declarations make
sense and which embeds no struct that embeds itself has a tree, `exists_typeTreeWithin_of_admits`;
the recursion on fuel which builds it ends for the same reason as flattening does.

## Main definitions

* `Catalog.Admits` — nothing in a declaration stands in the way of laying it out
* `LayoutRule.Fits` — no number of a layout in exact arithmetic goes beyond a word
* `Catalog.Accepts` — all that one struct is judged by

## Main results

* `exists_spotRun` — fields that end at words in exact arithmetic can be placed
* `accepts_of_answer` — what was flattened is accepted
* `exists_answer_of_accepts` — what is accepted can be flattened
-/

namespace FlatLayout

open Relation

/-! ### What is required -/

/-- A type that has a size: a primitive type, a pointer, an enumeration on integers, or a struct of
the catalog. -/
def Binding.HasSize (c : Catalog) : Binding → Prop
  | .primitive _ => True
  | .pointer _ => True
  | .enum _ underlying => underlying.isInteger = true
  | .struct d => (c.struct? d).isSome = true
  | .managed _ => False

/-- Nothing in the declaration of an instance field of the struct `d` stands in the way. -/
structure Catalog.AdmitsField (c : Catalog) (d : QualName) (s : StructDecl) (g : FieldDecl) :
    Prop where
  ungrouped : g.isGrouped = true → g.fixedCount = none
  typed : ∃ type, c.bind g.type d = .ok type ∧ type.HasSize c
  offset : (∃ a, s.layout = some a ∧ a.kind = .explicit) → s.markers.union = false →
    g.offset.isSome = true
  buffer : g.fixedCount.isSome = true → ∀ e, c.bind g.type d ≠ .ok (.struct e)

/-- Nothing in the declaration of the struct `d` stands in the way. -/
structure Catalog.Admits (c : Catalog) (d : QualName) (s : StructDecl) : Prop where
  pack : LayoutRule.AllowsPack (s.layout.bind (·.pack))
  unconditional : ∀ symbol ms otherwise, Member.conditional symbol ms otherwise ∉ s.members
  field : ∀ g, Member.field g ∈ s.members → g.isInstance = true → c.AdmitsField d s g

/-- No number of the layout of some fields goes beyond a word. -/
structure LayoutRule.Fits (rule : LayoutRule) (isUnion pad : Bool) (gs : List Piece) : Prop where
  offset : ∀ e ∈ rule.placed isUnion 0 gs, e.1 < Word.limit
  bytes : ∀ g ∈ gs, g.extent.size < Word.limit
  behind : ∀ e ∈ rule.placed isUnion 0 gs, e.1 + e.2.extent.size < Word.limit
  padded : pad = true → rule.padded isUnion gs (largest 0 gs) < Word.limit

/-- No number of the layout of a struct type goes beyond a word, apart from what is inside of the
structs in there. -/
def TypeTree.Fits (rules : QualName → LayoutRule) (pad : Bool) : TypeTree → Prop
  | .record key markers fields =>
    (rules key).Fits markers.union pad (TreeField.pieces rules pad fields)
  | _ => True

/-- All that a struct is judged by, apart from the structs that it contains. -/
structure Catalog.Accepts (c : Catalog) (o : Options) (d : QualName) (s : StructDecl) : Prop where
  admits : c.Admits d s
  acyclic : ¬ TransGen c.Embeds d d
  names : ∀ tree, c.typeTree o.pointerWidth d = some tree → (tree.names o.inlineNested).Nodup
  fits : ∀ tree, c.typeTree o.pointerWidth d = some tree → tree.Fits c.ruleOf o.padTrailing

section

variable {c : Catalog} {o : Options} {key d : QualName} {s : StructDecl}

/-! ### Types -/

theorem isSome_of_declared? (h : c.declared? d = some .struct) : (c.struct? d).isSome = true := by
  unfold Catalog.declared? at h
  split at h
  next hs => exact hs
  next =>
    split at h
    · cases h
    · split at h <;> cases h

theorem isInteger_of_enumBase {e : EnumDecl} {p : Primitive} (h : Catalog.enumBase d e = .ok p) :
    p.isInteger = true := by
  unfold Catalog.enumBase at h
  split at h
  · rw [← Except.ok.inj h]; rfl
  · split at h
    · split at h
      next hinteger =>
        rw [← Except.ok.inj h]
        exact (Bool.and_eq_true_iff.1 hinteger).1
      · cases h
    · cases h

/-- What a name is bound to has a size, unless it is a type without a layout. -/
theorem hasSize_of_bind {t : TypeRef} {type : Binding} (h : c.bind t key = .ok type)
    (hmanaged : ∀ name, type ≠ .managed name) : type.HasSize c := by
  unfold Catalog.bind at h
  split at h
  · rw [← Except.ok.inj h]; trivial
  split at h
  · rw [← Except.ok.inj h]; trivial
  split at h
  · exact absurd (Except.ok.inj h).symm (hmanaged _)
  split at h
  next q declared hfirst =>
    obtain ⟨_, _, -, hdeclared, -⟩ := firstDeclared_eq_some_iff.1 hfirst
    cases declared with
    | struct =>
      rw [← Except.ok.inj h]
      exact isSome_of_declared? hdeclared
    | managed => exact absurd (Except.ok.inj h).symm (hmanaged _)
    | enum e =>
      rw [Catalog.bindDeclared] at h
      cases hbase : Catalog.enumBase q e with
      | error err => rw [hbase] at h; cases h
      | ok p =>
        rw [hbase] at h
        rw [← Except.ok.inj h]
        exact isInteger_of_enumBase hbase
  · cases h

/-- A type with a size is a struct, or it is a scalar. -/
theorem Binding.HasSize.struct_or_scalar {type : Binding} (h : type.HasSize c)
    (pointerWidth : UInt32) :
    (∃ e, type = .struct e) ∨ ∃ size, type.scalarSize? pointerWidth = some size := by
  cases type with
  | struct e => exact .inl ⟨e, rfl⟩
  | managed name => exact h.elim
  | primitive p => exact .inr ⟨_, rfl⟩
  | pointer t => exact .inr ⟨_, rfl⟩
  | enum k p => exact .inr ⟨_, rfl⟩

/-! ### What was flattened is accepted -/

section

variable {child : QualName → Except LayoutError FlatStruct} {rule : LayoutRule} {ts : List Spot}
  {p q : Placement} {t : Spot} {f : FlatStruct}

theorem made_ne_managed {type : Binding} {element : Element}
    (h : elementFrom o child type = .ok element) (name : String) : type ≠ .managed name := by
  rintro rfl
  cases h

/-- Where authors write the offsets, every field has one. -/
theorem SpotStep.isSome_offset (h : SpotStep c o child key p t q) (hunion : p.isUnion = false)
    (hexplicit : p.rule.isExplicit = true) : t.decl.offset.isSome = true := by
  obtain ⟨base, hbase, -⟩ := h.aligned
  rw [Placement.baseOffset, hunion, if_neg (by decide), if_pos hexplicit] at hbase
  split at hbase
  next n hn => rw [hn]; rfl
  · cases hbase

/-- Buffers hold no structs. -/
theorem SpotStep.not_struct (h : SpotStep c o child key p t q)
    (hcount : t.decl.fixedCount.isSome = true) (e : QualName) : t.type ≠ .struct e := by
  cases h.filled with
  | scalar hnone => rw [hnone] at hcount; cases hcount
  | native _ _ _ helement => exact made_scalar (helement ▸ h.made) e
  | started _ _ _ helement => exact made_scalar (helement ▸ h.made) e
  | nested _ hnone => rw [hnone] at hcount; cases hcount

theorem LayoutRule.isExplicit_written {a : LayoutAttr} (h : a.kind = .explicit) :
    (written (some a)).isExplicit = true := by
  simp only [written, isExplicit, h, decide_true]

namespace Laid

variable (laid : Laid c o child key s rule ts p f)

include laid

theorem not_groupedBuffer (g : FieldDecl) : Slot.groupedBuffer g ∉ s.slots := by
  intro hslot
  rw [laid.slots] at hslot
  obtain ⟨t, -, heq⟩ := List.mem_map.1 hslot
  cases heq

theorem ungrouped {g : FieldDecl} (hg : Member.field g ∈ s.members)
    (hinstance : g.isInstance = true) (hgrouped : g.isGrouped = true) : g.fixedCount = none := by
  rw [Option.eq_none_iff_forall_ne_some]
  intro count hcount
  exact laid.not_groupedBuffer g
    (groupedBuffer_mem_slots hg hinstance hgrouped (by rw [hcount]; rfl))

/-- Every instance field has a spot. -/
theorem exists_spot {g : FieldDecl} (hg : Member.field g ∈ s.members)
    (hinstance : g.isInstance = true) : ∃ t ∈ ts, t.decl.PlacedFor g := by
  obtain ⟨f, source, hslot, hf⟩ := exists_slot_of_field hg hinstance (laid.ungrouped hg hinstance)
  obtain ⟨t, ht, rfl, -⟩ := laid.field_mem_slots_iff.1 hslot
  exact ⟨t, ht, hf⟩

/-- The declaration of a struct that is laid out makes sense. -/
theorem admits : c.Admits key s where
  pack := (LayoutRule.ofAttr_eq_ok_iff.1 laid.ruled).1
  unconditional := by
    intro symbol ms otherwise hmem
    have hslot := conditional_mem_slots hmem
    rw [laid.slots] at hslot
    obtain ⟨t, -, heq⟩ := List.mem_map.1 hslot
    cases heq
  field := by
    intro g hg hinstance
    obtain ⟨t, ht, hplaced⟩ := laid.exists_spot hg hinstance
    obtain ⟨p', q', hstep, hrule, hunion⟩ := laid.run.exists_step_within ht
    have hbound := hstep.bound
    rw [hplaced.type] at hbound
    refine ⟨laid.ungrouped hg hinstance, ⟨t.type, hbound, ?_⟩, ?_, fun hcount e hbind => ?_⟩
    · exact hasSize_of_bind hbound (made_ne_managed hstep.made)
    · rintro ⟨a, ha, hkind⟩ hnot
      rw [← hplaced.offset]
      refine hstep.isSome_offset (hunion.trans hnot) ?_
      rw [hrule, Placement.start, (LayoutRule.ofAttr_eq_ok_iff.1 laid.ruled).2, ha]
      exact LayoutRule.isExplicit_written hkind
    · rw [← hplaced.fixedCount] at hcount
      exact hstep.not_struct hcount e (Except.ok.inj (hbound.symm.trans hbind))

/-- A struct that is laid out contains whatever it embeds. -/
theorem contains_of_embeds (hs : c.struct? key = some s) (h : c.Embeds key d) :
    c.Contains key d := by
  obtain ⟨s', g, hs', hg, hstatic, hconst, -, hbind⟩ := h
  obtain rfl := Option.some.inj (hs.symm.trans hs')
  have hinstance : g.isInstance = true := by
    rw [FieldDecl.isInstance, hstatic, hconst]
    rfl
  obtain ⟨t, ht, hplaced⟩ := laid.exists_spot hg hinstance
  refine (laid.contains_iff hs).2 ⟨t, ht, ?_⟩
  have hbound := laid.bound ht
  rw [hplaced.type] at hbound
  exact Except.ok.inj (hbound.symm.trans hbind)

/-- **No number of a struct that is laid out goes beyond a word.** -/
theorem fits : rule.Fits s.markers.union o.padTrailing (ts.map Spot.piece) := by
  obtain ⟨hplaced, -⟩ := laid.exact
  have hspot : ∀ e ∈ rule.placed s.markers.union 0 (ts.map Spot.piece),
      ∃ t ∈ ts, e = (t.offset.toNat, t.piece) := by
    intro e he
    rw [← hplaced] at he
    obtain ⟨t, ht, rfl⟩ := List.mem_map.1 he
    exact ⟨t, ht, rfl⟩
  refine ⟨?_, ?_, ?_, fun hpad => ?_⟩
  · intro e he
    obtain ⟨t, -, rfl⟩ := hspot e he
    exact t.offset.toNat_lt
  · intro g hg
    obtain ⟨t, -, rfl⟩ := List.mem_map.1 hg
    exact t.size.toNat_lt
  · intro e he
    obtain ⟨t, ht, rfl⟩ := hspot e he
    exact Nat.lt_of_le_of_lt (laid.run.end_le.2 t ht) p.size.toNat_lt
  · have hfinished := laid.finished
    rw [hpad] at hfinished
    obtain ⟨size, hsize, -⟩ := bind_eq_ok hfinished
    obtain ⟨-, hstop, hlargest⟩ := laid.run.exact
    have hpadded := Placement.align_eq_ok_iff.1 hsize
    rw [laid.run.rule_eq, hstop, hlargest] at hpadded
    have hlt := size.toNat_lt
    rw [hpadded] at hlt
    exact hlt

end Laid

end

/-- What a struct that can be flattened embeds at some depth, it contains. -/
theorem reaches_of_answer {f : FlatStruct} (h : c.answer o key = .ok f)
    (hd : ReflTransGen c.Embeds key d) : ReflTransGen c.Contains key d := by
  induction hd with
  | refl => exact .refl
  | tail _ hstep ih =>
    obtain ⟨g, hg⟩ := Catalog.exists_answer_of_reachable h ih
    obtain ⟨s, rule, ts, p, hs, laid⟩ := Catalog.exists_laid_of_answer hg
    exact ih.tail (laid.contains_of_embeds hs hstep)

/-- **What was flattened is accepted**, and so is all that it embeds. -/
theorem accepts_of_answer {f : FlatStruct} (h : c.answer o key = .ok f)
    (hd : ReflTransGen c.Embeds key d) (hs : c.struct? d = some s) : c.Accepts o d s := by
  have hd := reaches_of_answer h hd
  obtain ⟨g, hg⟩ := Catalog.exists_answer_of_reachable h hd
  obtain ⟨s', rule, ts, p, hs', laid⟩ := Catalog.exists_laid_of_answer hg
  obtain rfl := Option.some.inj (hs.symm.trans hs')
  refine ⟨laid.admits, ?_, ?_, ?_⟩
  · intro hcycle
    obtain ⟨e, hde, hed⟩ := TransGen.head'_iff.1 hcycle
    have hcontains := laid.contains_of_embeds hs hde
    obtain ⟨g', hg'⟩ := laid.exists_child hs hcontains
    exact Catalog.acyclic_of_answer hg .refl (.head' hcontains (reaches_of_answer hg' hed))
  · intro tree htree
    exact (names_of_answer hg htree).names.nodup_iff.1 laid.nodup
  · intro tree htree
    obtain ⟨m, s', fields, -, hs', hfields, rfl⟩ := typeTreeWithin_eq_some htree
    obtain rfl := Option.some.inj (hs.symm.trans hs')
    have hpieces := laid.pieces_eq hs hfields fun _ _ _ _ hflat htree =>
      extent_of_answer hflat htree
    rw [TypeTree.Fits, hpieces, ← laid.rule_eq hs]
    exact laid.fits

/-! ### What is accepted has a tree -/

namespace Catalog.Admits

variable (h : c.Admits d s) (hs : c.struct? d = some s)

include h hs

/-- What is embedded is declared. -/
theorem isSome_of_embeds {e : QualName} (he : c.Embeds d e) : (c.struct? e).isSome = true := by
  obtain ⟨s', g, hs', hg, hstatic, hconst, -, hbind⟩ := he
  obtain rfl := Option.some.inj (hs.symm.trans hs')
  have hinstance : g.isInstance = true := by rw [FieldDecl.isInstance, hstatic, hconst]; rfl
  obtain ⟨type, htype, hsize⟩ := (h.field g hg hinstance).typed
  obtain rfl : type = .struct e := Except.ok.inj (htype.symm.trans hbind)
  exact hsize

/-- Every step can be taken as far as the declaration goes. -/
theorem exists_slotTree {slot : Slot} (hslot : slot ∈ s.slots) {pointerWidth : UInt32}
    {trees : QualName → Option TypeTree}
    (htrees : ∀ e, c.Contains d e → ∃ tree, trees e = some tree) :
    ∃ g, slotTree c pointerWidth trees d slot = some g := by
  rcases exists_member_of_slot hslot with ⟨g, f, source, hg, hinstance, rfl, hf⟩ | hwrong | hwrong
  · have hfield := h.field g (List.mem_of_getElem? hg) hinstance
    obtain ⟨type, hbind, hsize⟩ := hfield.typed
    rw [← hf.type] at hbind
    have htree : ∃ tree, fieldTree pointerWidth trees f type = some tree := by
      rcases hsize.struct_or_scalar pointerWidth with ⟨e, rfl⟩ | ⟨size, hscalar⟩
      · have hcount : f.fixedCount = none := by
          rw [Option.eq_none_iff_forall_ne_some]
          intro count hcount
          have hisSome : g.fixedCount.isSome = true := by rw [← hf.fixedCount, hcount]; rfl
          exact hfield.buffer hisSome e (hf.type ▸ hbind)
        obtain ⟨tree, htree⟩ := htrees e ⟨s, hs, f, source, hslot, hbind⟩
        exact ⟨tree, by simp only [fieldTree, hcount, htree]⟩
      · exact exists_fieldTree_of_scalarSize? hscalar
    obtain ⟨tree, htree⟩ := htree
    exact ⟨⟨f, tree⟩, by simp only [slotTree, hbind, htree, Option.map_some]⟩
  · obtain ⟨g, hg, hinstance, -, hgrouped, hcount⟩ := hwrong
    rw [(h.field g hg hinstance).ungrouped hgrouped] at hcount
    cases hcount
  · obtain ⟨symbol, ms, otherwise, hmem, -⟩ := hwrong
    exact absurd hmem (h.unconditional symbol ms otherwise)

end Catalog.Admits

/-- **Declarations that make sense and embed no struct in itself have trees.** The structs on the
way to the one at hand are different ones, as when it is flattened, so the fuel is enough. -/
theorem exists_typeTreeWithin_of_admits {fuel : Nat} {way : List QualName} (pointerWidth : UInt32)
    (hway : c.Underway fuel way) (hchain : ∀ e ∈ way, TransGen c.Embeds e d)
    (hd : (c.struct? d).isSome = true)
    (hadmits : ∀ e s, ReflTransGen c.Embeds d e → c.struct? e = some s →
      c.Admits e s ∧ ¬ TransGen c.Embeds e e) :
    ∃ tree, c.typeTreeWithin pointerWidth fuel d = some tree := by
  induction fuel generalizing way d with
  | zero =>
    obtain ⟨n, hn⟩ := hway.exists_fuel
    cases hn
  | succ n ih =>
    obtain ⟨s, hs⟩ := Option.isSome_iff_exists.1 hd
    obtain ⟨hown, hacyclic⟩ := hadmits d s .refl hs
    have hnew : d ∉ way := fun hmem => hacyclic (hchain d hmem)
    have hchild : ∀ e, c.Contains d e → ∃ tree, c.typeTreeWithin pointerWidth n e = some tree := by
      intro e he
      have hembeds := he.embeds
      refine ih (hway.cons hnew hs) ?_ (hown.isSome_of_embeds hs hembeds)
        fun e' s' he' => hadmits e' s' (he'.head hembeds)
      intro e' he'
      rcases List.mem_cons.1 he' with rfl | he'
      · exact .single hembeds
      · exact (hchain e' he').tail hembeds
    obtain ⟨fields, hfields⟩ :=
      exists_mapM_eq_some fun slot hslot => hown.exists_slotTree hs hslot hchild
    exact ⟨.record d s.markers fields, typeTreeWithin_of_mapM hs hfields⟩

/-! ### What is accepted can be flattened -/

/-- A field can be placed as far as its type goes. -/
structure Ready (c : Catalog) (o : Options) (child : QualName → Except LayoutError FlatStruct)
    (key : QualName) (f : FieldDecl) (type : Binding) (element : Element) : Prop where
  bound : c.bind f.type key = .ok type
  made : elementFrom o child type = .ok element
  buffer : f.fixedCount.isSome = true → ∀ flat, element ≠ .struct flat
  within : ∀ flat, element = .struct flat → Within flat.footprint.size.toNat flat.members

theorem exists_word {n : Nat} (h : n < Word.limit) : ∃ w : UInt32, w.toNat = n :=
  ⟨UInt32.ofNat n, UInt32.toNat_ofNat_of_lt' h⟩

section

variable {child : QualName → Except LayoutError FlatStruct} {p : Placement} {f : FieldDecl}
  {type : Binding} {element : Element}

theorem exists_baseOffset (hoffset : p.isUnion = false → p.rule.isExplicit = true →
    f.offset.isSome = true) : ∃ base, p.baseOffset f = .ok base := by
  unfold Placement.baseOffset
  by_cases hunion : p.isUnion = true
  · exact ⟨0, if_pos hunion⟩
  rw [if_neg hunion]
  by_cases hexplicit : p.rule.isExplicit = true
  · obtain ⟨n, hn⟩ := Option.isSome_iff_exists.1 (hoffset (by simpa using hunion) hexplicit)
    exact ⟨n, by rw [if_pos hexplicit, hn]⟩
  · exact ⟨p.size, if_neg hexplicit⟩

/-- What a field contributes at an offset, if it ends at a word there. -/
theorem Ready.exists_filled (h : Ready c o child key f type element) {offset : UInt32}
    (hend : offset.toNat + (f.piece element).extent.size < Word.limit) (source : Nat)
    (role : Role) :
    ∃ bytes ms, bytes.toNat = (f.piece element).extent.size ∧
      Spot.Filled o role ⟨f, source, type, element, offset, bytes, ms⟩ := by
  have hbuffer := h.buffer
  have hwithin := h.within
  obtain ⟨bytes, hbytes⟩ : ∃ bytes : UInt32, bytes.toNat = (f.piece element).extent.size :=
    exists_word (by omega)
  refine ⟨bytes, ?_⟩
  cases hcount : f.fixedCount with
  | some count =>
    cases element with
    | struct flat => exact absurd rfl (hbuffer (by rw [hcount]; rfl) flat)
    | scalar size =>
      have hsized : bytes.toNat = size.toNat * count.toNat := by
        rw [hbytes, FieldDecl.piece, hcount]
        rfl
      cases hnative : type.isBufferElement with
      | true =>
        exact ⟨[.ofField f source offset bytes role], hbytes,
          .native count size hcount rfl hnative hsized rfl⟩
      | false =>
        exact ⟨[{ PlacedMember.ofField f source offset bytes .bufferStart with
            name := startName f.name, fixedCount := none },
          .bufferAccessor f (startName f.name) offset source], hbytes,
          .started count size hcount rfl hnative hsized rfl⟩
  | none =>
    have hsized : bytes = element.size := by
      rw [← UInt32.toNat_inj, hbytes, FieldDecl.piece, hcount]
    subst hsized
    cases element with
    | scalar size =>
      exact ⟨[.ofField f source offset size role], hbytes, .scalar hcount rfl rfl⟩
    | struct flat =>
      rw [← hbytes] at hend
      obtain ⟨ms, hms⟩ := exists_nestedMembers (o := o) (hwithin flat rfl) hend f source
      exact ⟨ms, hbytes, .nested flat hcount rfl rfl hms⟩

/-- **A field that ends at a word in exact arithmetic can be placed.** -/
theorem Ready.exists_spotStep (h : Ready c o child key f type element)
    (hoffset : p.isUnion = false → p.rule.isExplicit = true → f.offset.isSome = true)
    (hend : p.rule.position p.isUnion p.size.toNat (f.piece element) +
      (f.piece element).extent.size < Word.limit) (source : Nat) :
    ∃ t q, t.slot = .field f source ∧ SpotStep c o child key p t q := by
  obtain ⟨base, hbase⟩ := exists_baseOffset hoffset
  obtain ⟨offset, hposition⟩ : ∃ offset : UInt32,
      offset.toNat = p.rule.position p.isUnion p.size.toNat (f.piece element) :=
    exists_word (by omega)
  have halign : p.align element.alignment base = .ok offset := by
    rw [Placement.align_eq_ok_iff, Placement.toNat_of_baseOffset hbase, hposition]
    rfl
  rw [← hposition] at hend
  obtain ⟨bytes, ms, hbytes, hfilled⟩ := h.exists_filled hend source p.plainRole
  rw [← hbytes] at hend
  obtain ⟨q, hadvance⟩ := Placement.exists_advance hend (p.add element.alignment ms)
  refine ⟨⟨f, source, type, element, offset, bytes, ms⟩, q, rfl, ?_⟩
  exact
    { bound := h.bound
      made := h.made
      aligned := ⟨base, hbase, halign⟩
      filled := hfilled
      advanced := hadvance }

/-- A step that can be taken, and the field of it as exact arithmetic sees it. -/
inductive ReadySlot (c : Catalog) (o : Options) (child : QualName → Except LayoutError FlatStruct)
    (key : QualName) (rule : LayoutRule) (isUnion : Bool) : Slot → Piece → Prop
  | field {f : FieldDecl} {type : Binding} {element : Element} (source : Nat)
      (ready : Ready c o child key f type element)
      (offset : isUnion = false → rule.isExplicit = true → f.offset.isSome = true) :
      ReadySlot c o child key rule isUnion (.field f source) (f.piece element)

/-- **Fields that end at words in exact arithmetic can be placed**, one after the other. -/
theorem exists_spotRun {slots : List Slot} {gs : List Piece} {p : Placement}
    (hready : List.Forall₂ (ReadySlot c o child key p.rule p.isUnion) slots gs)
    (hend : ∀ e ∈ p.rule.placed p.isUnion p.size.toNat gs,
      e.1 + e.2.extent.size < Word.limit) :
    ∃ ts q, slots = ts.map Spot.slot ∧ SpotRun c o child key p ts q := by
  induction slots generalizing p gs with
  | nil => exact ⟨[], p, rfl, .nil p⟩
  | cons slot slots ih =>
    obtain ⟨g, gs, hslot, hslots, rfl⟩ := List.forall₂_cons_left_iff.1 hready
    cases hslot with
    | @field f type element source ready offset =>
      have hfirst := hend _ List.mem_cons_self
      obtain ⟨t, q, hslot, hstep⟩ := ready.exists_spotStep offset hfirst source
      have hpiece : t.piece = f.piece element := by
        obtain ⟨hdecl, -⟩ := Slot.field.inj hslot
        have htype : t.type = type := by
          have hbound := hstep.bound
          rw [hdecl] at hbound
          exact Except.ok.inj (hbound.symm.trans ready.bound)
        have helement : t.element = element := by
          have hmade := hstep.made
          rw [htype] at hmade
          exact Except.ok.inj (hmade.symm.trans ready.made)
        rw [hstep.filled.piece_eq, hdecl, helement]
      have hrest : ∀ e ∈ q.rule.placed q.isUnion q.size.toNat gs,
          e.1 + e.2.extent.size < Word.limit := by
        rw [hstep.rule_eq, hstep.isUnion_eq, hstep.exact.2, hpiece]
        exact fun e he => hend e (List.mem_cons_of_mem _ he)
      rw [← hstep.rule_eq, ← hstep.isUnion_eq] at hslots
      obtain ⟨ts, r, hts, hrun⟩ := ih hslots hrest
      exact ⟨t :: ts, r, by rw [List.map_cons, hslot, hts], .cons hstep hrun⟩

/-- The end of a struct can be padded if that is a word. -/
theorem exists_finish {pad : Bool} {p : Placement}
    (hpad : pad = true → roundUp p.size.toNat (p.rule.boundary p.largest.toNat) < Word.limit) :
    ∃ footprint, p.finish pad = .ok footprint := by
  cases pad with
  | false => exact ⟨_, rfl⟩
  | true =>
    obtain ⟨size, hsize⟩ := exists_word (hpad rfl)
    exact ⟨_, by rw [Placement.finish, if_pos rfl, Placement.align_eq_ok_iff.2 hsize]; rfl⟩

end

theorem isExplicit_ruleOf (hs : c.struct? d = some s) (h : (c.ruleOf d).isExplicit = true) :
    ∃ a, s.layout = some a ∧ a.kind = .explicit := by
  rw [Catalog.ruleOf, hs] at h
  cases hlayout : s.layout with
  | none =>
    simp only [Option.bind_some, hlayout] at h
    cases h
  | some a =>
    simp only [Option.bind_some, hlayout, LayoutRule.written, LayoutRule.isExplicit,
      decide_eq_true_eq] at h
    exact ⟨a, rfl, h⟩

/-- Where the declaration makes sense and the contained structs can be flattened, every step can be
taken. -/
theorem Catalog.Admits.readySlot (h : c.Admits d s) (hs : c.struct? d = some s) {slot : Slot}
    (hslot : slot ∈ s.slots) {n : Nat} {g : TreeField}
    (htree : slotTree c o.pointerWidth (c.typeTreeWithin o.pointerWidth n) d slot = some g)
    (hchild : ∀ e tree, c.Contains d e → c.typeTreeWithin o.pointerWidth n e = some tree →
      ∃ flat, c.answer o e = .ok flat) :
    ReadySlot c o (c.answer o) d (c.ruleOf d) s.markers.union slot
      (g.piece c.ruleOf o.padTrailing) := by
  cases slot with
  | groupedBuffer f => cases htree
  | conditional symbol => cases htree
  | field f source =>
    obtain ⟨g', hg', hinstance, hplaced⟩ := exists_field_of_slot hslot
    have hfield := h.field g' (List.mem_of_getElem? hg') hinstance
    obtain ⟨type, hbind, hsize⟩ := hfield.typed
    rw [← hplaced.type] at hbind
    simp only [slotTree, hbind, Option.map_eq_some_iff] at htree
    obtain ⟨tree, htree, rfl⟩ := htree
    obtain ⟨element, hready⟩ : ∃ element, Ready c o (c.answer o) d f type element := by
      rcases hsize.struct_or_scalar o.pointerWidth with ⟨e, rfl⟩ | ⟨size, hscalar⟩
      · have hcount : f.fixedCount = none := by
          rw [Option.eq_none_iff_forall_ne_some]
          intro count hcount
          simp [fieldTree, hcount, Binding.scalarSize?] at htree
        rw [fieldTree_struct hcount] at htree
        obtain ⟨flat, hflat⟩ := hchild e tree ⟨s, hs, f, source, hslot, hbind⟩ htree
        refine ⟨.struct flat, hbind, by rw [elementFrom, hflat]; rfl, ?_, ?_⟩
        · intro hbuffer
          rw [hcount] at hbuffer
          cases hbuffer
        · rintro flat' heq
          obtain rfl := Element.struct.inj heq
          exact within_of_answer hflat
      · refine ⟨.scalar size, hbind, made_of_scalarSize? hscalar, ?_, ?_⟩
        · intro _ flat heq
          cases heq
        · intro flat heq
          cases heq
    rw [piece_of_made htree hready.made fun _ _ _ _ hflat htree => extent_of_answer hflat htree]
    refine .field source hready fun hunion hexplicit => ?_
    rw [hplaced.offset]
    exact hfield.offset (isExplicit_ruleOf hs hexplicit) hunion

/-- A struct that is accepted can be laid out once the structs that it contains are flat. -/
theorem exists_layoutFrom (haccept : c.Accepts o d s) (hs : c.struct? d = some s) {n : Nat}
    {fields : List TreeField}
    (hfields : s.slots.mapM
      (slotTree c o.pointerWidth (c.typeTreeWithin o.pointerWidth n) d) = some fields)
    (hfull : c.typeTree o.pointerWidth d = some (.record d s.markers fields))
    (hchild : ∀ e tree, c.Contains d e → c.typeTreeWithin o.pointerWidth n e = some tree →
      ∃ flat, c.answer o e = .ok flat) :
    ∃ r, layoutFrom c o (c.answer o) d s = .ok r := by
  have hfits := haccept.fits _ hfull
  have hnames := haccept.names _ hfull
  rw [TypeTree.Fits] at hfits
  rw [TypeTree.names] at hnames
  have hready : List.Forall₂ (ReadySlot c o (c.answer o) d (c.ruleOf d) s.markers.union) s.slots
      (TreeField.pieces c.ruleOf o.padTrailing fields) := by
    rw [TreeField.pieces_eq_map, List.forall₂_map_right_iff]
    have hslots := forall₂_of_mapM_eq_some hfields
    rw [List.forall₂_iff_zip] at hslots ⊢
    refine ⟨hslots.1, fun {slot g} hmem => ?_⟩
    exact haccept.admits.readySlot hs (List.of_mem_zip hmem).1 (hslots.2 hmem) hchild
  obtain ⟨ts, q, hts, hrun⟩ :=
    exists_spotRun (p := .start s.name (c.ruleOf d) s.markers.union) hready hfits.behind
  have hmatches := hrun.matches_of_mapM (hts ▸ hfields)
  have hpieces : TreeField.pieces c.ruleOf o.padTrailing fields = ts.map Spot.piece :=
    hrun.pieces_eq hmatches fun _ _ _ _ _ _ hflat htree => extent_of_answer hflat htree
  have hnodup : (q.members.map (·.name)).Nodup := by
    have hperm := names_of_spotRun hrun hmatches fun _ _ _ _ _ _ hflat htree =>
      names_of_answer hflat htree
    rw [hrun.members_eq]
    exact hperm.nodup_iff.2 hnames
  obtain ⟨footprint, hfinish⟩ : ∃ footprint, q.finish o.padTrailing = .ok footprint := by
    refine exists_finish fun hpad => ?_
    obtain ⟨-, hstop, hlargest⟩ := hrun.exact
    rw [hstop, hlargest, hrun.rule_eq, ← hpieces]
    exact hfits.padded hpad
  have hrule : LayoutRule.ofAttr s.name s.layout = .ok (c.ruleOf d) := by
    refine LayoutRule.ofAttr_eq_ok_iff.2 ⟨haccept.admits.pack, ?_⟩
    rw [Catalog.ruleOf, hs]
    rfl
  exact ⟨_, layoutFrom_of_spotRun hrule hts hrun hnodup hfinish⟩

/-- **What is accepted can be flattened**, by induction on the depth of the tree. -/
theorem exists_answer_of_accepts {n : Nat} (hn : n ≤ c.structs.length + 1) {tree : TypeTree}
    (htree : c.typeTreeWithin o.pointerWidth n d = some tree)
    (haccepts : ∀ e s, ReflTransGen c.Embeds d e → c.struct? e = some s → c.Accepts o e s) :
    ∃ f, c.answer o d = .ok f := by
  induction n generalizing d tree with
  | zero => cases htree
  | succ n ih =>
    obtain ⟨m, s, fields, heq, hs, hfields, rfl⟩ := typeTreeWithin_eq_some htree
    obtain rfl : n = m := by omega
    have hchild : ∀ e tree, c.Contains d e → c.typeTreeWithin o.pointerWidth n e = some tree →
        ∃ flat, c.answer o e = .ok flat := by
      intro e tree he htree
      exact ih (by omega) htree fun e' s' he' => haccepts e' s' (he'.head he.embeds)
    obtain ⟨⟨ts, f⟩, hlay⟩ := exists_layoutFrom (haccepts d s .refl hs) hs hfields
      (typeTreeWithin_mono hn htree) hchild
    exact ⟨f, Catalog.answer_of_layoutFrom hs hlay⟩

/-- **When flattening succeeds**, in any catalog, with any options and behind any calls: if and only
if the struct is declared and it is accepted, together with every struct that it embeds at some
depth. A struct is accepted if its declaration makes sense, it does not embed itself, the names of
its members differ, and no offset, end or size in exact arithmetic goes beyond a word. -/
theorem flatten_succeeds_iff (c : Catalog) (o : Options) (calls : List Call) (key : QualName) :
    (∃ f, outcome (Bench.flatten c o key) (Workbench.afterCalls c o calls) = .ok f) ↔
      (c.struct? key).isSome = true ∧
        ∀ d s, ReflTransGen c.Embeds key d → c.struct? d = some s → c.Accepts o d s := by
  rw [outcome_flatten_eq_answer]
  constructor
  · rintro ⟨f, hf⟩
    obtain ⟨s, rule, ts, p, hs, -⟩ := Catalog.exists_laid_of_answer hf
    exact ⟨by rw [hs]; rfl, fun d s hd hs => accepts_of_answer hf hd hs⟩
  · rintro ⟨hkey, haccepts⟩
    have hway : c.Underway (c.structs.length + 1) [] := ⟨List.nodup_nil, by simp, by simp⟩
    obtain ⟨tree, htree⟩ := exists_typeTreeWithin_of_admits o.pointerWidth hway (by simp) hkey
      fun d s hd hs => ⟨(haccepts d s hd hs).admits, (haccepts d s hd hs).acyclic⟩
    exact exists_answer_of_accepts (Nat.le_refl _) htree haccepts

end

end FlatLayout
