import FlatLayout.Proofs.Memoisation

/-!
# Flattening ends

Structs may contain each other in any way, and a struct that contains itself has no layout. What
keeps flattening from going round in circles is the list of structs under way: a struct is entered
only if it is indexed and not under way already. So the structs under way are always different
structs of the catalog, and there are no more of them than the catalog has.

## Watching the recursion

The recursion is written with fuel, and this alone would make it end. That the fuel plays no role is
said by `flattenWatched`, the same recursion with an alarm: it goes off when the fuel is spent, and
also when the structs under way are not a `Catalog.Stack`. The alarm is arbitrary and may change
everything there is to be seen. Nevertheless, with any fuel beyond the number of structs, watching
makes no difference at all, neither to the answer nor to the state.

## Main definitions

* `flattenWatched` — flattening with an alarm, which goes off unless what is under way is a
  `Catalog.Stack`
* `LayoutError.isLocal` — an error that says nothing of what is under way
* `Catalog.Embeds` — a struct has an instance field of another one's type
* `FailsWith` — every error of a computation has some property

## Main results

* `coincide_flattenWatched` — the alarm never goes off
* `failsWith_layoutFrom` — laying out a struct fails for a reason of its own, or as one of the
  structs that it contains does
* `Catalog.failsWith_flattenUnder` — a struct is refused as cyclic only if it embeds itself
* `flatten_ends` — all of this about flattening
-/

namespace FlatLayout

open Relation

/-! ### Flattening with an alarm -/

/-- Flattening a struct once, given how a declaration is laid out: the struct is recalled, or
refused, or laid out while it is under way and kept. -/
def flattenOnce (c : Catalog) (lay : StructDecl → Bench FlatStruct) (key : QualName) :
    Bench FlatStruct := do
  match ← Bench.finished? key with
  | some f => return f
  | none =>
    if (← get).pending.contains key then throw (.cyclicLayout key)
    let s ← Bench.ofExcept (c.declaration key)
    let f ← Bench.during key (lay s)
    Bench.finish f
    return f

/-- Does some steps if what is under way is a stack of the catalog, and else sounds an alarm. -/
def watched (c : Catalog) (alarm steps : Bench FlatStruct) : Bench FlatStruct := do
  if c.Stack (← get).pending then steps else alarm

/-- Flattening with an alarm that goes off when the fuel is spent, and whenever a struct is entered
or asked for while what is under way is no stack of the catalog. -/
def flattenWatched (c : Catalog) (o : Options) (alarm : Bench FlatStruct) :
    Nat → QualName → Bench FlatStruct
  | 0, _ => alarm
  | fuel + 1, key => watched c alarm <| flattenOnce c (fun s =>
      watched c alarm (layoutStruct c o (flattenWatched c o alarm fuel) key s)) key

section

variable {c : Catalog} {o : Options} {I : Workbench → Prop} {key : QualName}

theorem flattenWithin_succ (fuel : Nat) : flattenWithin c o (fuel + 1) key =
    flattenOnce c (layoutStruct c o (flattenWithin c o fuel) key) key := rfl

variable {child child' : QualName → Bench FlatStruct}

theorem coincide_elementOf (h : ∀ d, Coincide I (child d) (child' d)) (type : Binding) :
    Coincide I (elementOf o child type) (elementOf o child' type) := by
  cases type with
  | struct d => exact .bind (h d) fun _ => .refl (.pure _)
  | primitive p => exact .refl (.pure _)
  | pointer t => exact .refl (.pure _)
  | enum k p => exact .refl (.pure _)
  | managed name => exact .refl (.throw _)

theorem coincide_note (hI : Bench.Silent I) (level : Log.Level) (origin : Log.Origin)
    (message : String) :
    Coincide I (Bench.note level origin message) (Bench.note level origin message) :=
  .refl (.of_computes (Bench.computes_note hI level origin message))

theorem coincide_placeField (hI : Bench.Silent I) (h : ∀ d, Coincide I (child d) (child' d))
    (p : Placement) (f : FieldDecl) (source : Nat) :
    Coincide I (placeField c o child key p f source) (placeField c o child' key p f source) := by
  refine Bench.coincide_ofExcept_bind fun type _ => ?_
  refine Bench.coincide_ofExcept_bind fun base _ => ?_
  refine .bind (coincide_elementOf h type) fun element => ?_
  refine Bench.coincide_ofExcept_bind fun placed _ => ?_
  refine .bind (.refl (.of_computes (computes_noteEmpty hI p f element))) fun _ => ?_
  refine .bind (coincide_note hI _ _ _) fun _ => ?_
  exact .refl (.of_computes (Bench.computes_ofExcept I _))

theorem coincide_placeSlots (hI : Bench.Silent I) (h : ∀ d, Coincide I (child d) (child' d))
    (slots : List Slot) (p : Placement) :
    Coincide I (slots.foldlM (placeSlot c o child key) p)
      (slots.foldlM (placeSlot c o child' key) p) := by
  induction slots generalizing p with
  | nil => exact .refl (.pure _)
  | cons slot slots ih =>
    rw [List.foldlM_cons, List.foldlM_cons]
    refine .bind ?_ ih
    cases slot with
    | field f source => exact coincide_placeField hI h p f source
    | groupedBuffer f => exact .refl (.throw _)
    | conditional symbol => exact .refl (.throw _)

theorem coincide_layoutStruct (hI : Bench.Silent I) (h : ∀ d, Coincide I (child d) (child' d))
    (s : StructDecl) :
    Coincide I (layoutStruct c o child key s) (layoutStruct c o child' key s) := by
  refine Bench.coincide_ofExcept_bind fun rule _ => ?_
  refine .bind (coincide_note hI _ _ _) fun _ => ?_
  refine .bind (coincide_placeSlots hI h _ _) fun p => ?_
  refine Bench.coincide_ofExcept_bind fun _ _ => ?_
  refine Bench.coincide_ofExcept_bind fun footprint _ => ?_
  exact .bind (coincide_note hI _ _ _) fun _ => .refl (.pure _)

/-- The structs `pending` are under way. -/
def Workbench.IsUnderway (pending : List QualName) (w : Workbench) : Prop := w.pending = pending

variable {pending : List QualName} {alarm : Bench FlatStruct}

theorem Workbench.silent_isUnderway : Bench.Silent (IsUnderway pending) := fun _ _ hw => hw

theorem keeps_finished? (d : QualName) :
    Keeps (Workbench.IsUnderway pending) (Bench.finished? d) := fun _ hw => hw

theorem coincide_watched {x y : Bench FlatStruct} (hstack : c.Stack pending)
    (h : Coincide (Workbench.IsUnderway pending) x y) :
    Coincide (Workbench.IsUnderway pending) (watched c alarm x) y := by
  intro w hw
  have hpending : c.Stack w.pending := by
    rw [show w.pending = pending from hw]
    exact hstack
  have hrun : (watched c alarm x).run.run w = x.run.run w := by
    show (if c.Stack w.pending then x else alarm).run.run w = _
    rw [if_pos hpending]
  rw [hrun]
  exact h w hw

/-- A struct is laid out only while it is under way, in front of other structs. -/
theorem coincide_flattenOnce {lay lay' : StructDecl → Bench FlatStruct}
    (h : ∀ s, c.struct? key = some s → key ∉ pending →
      Coincide (Workbench.IsUnderway (key :: pending)) (lay s) (lay' s)) :
    Coincide (Workbench.IsUnderway pending) (flattenOnce c lay key) (flattenOnce c lay' key) := by
  refine .bind (.refl (keeps_finished? key)) fun found => ?_
  cases found with
  | some f => exact .refl (.pure f)
  | none =>
    refine .get_bind fun w hw => ?_
    have hunder : w.pending = pending := hw
    by_cases hkey : w.pending.contains key = true
    · simp only [if_pos hkey]
      exact .throw_bind _
    · simp only [if_neg hkey]
      have hnew : key ∉ pending := by simpa [hunder] using hkey
      refine Bench.coincide_ofExcept_bind fun s hs => ?_
      refine .bind ?_ fun f => .refl (.bind (fun _ hw => hw) fun _ => .pure f)
      exact Bench.coincide_during (h s (Catalog.declaration_eq_ok hs) hnew)
        (fun _ hw => congrArg (key :: ·) hw) (fun _ hw => congrArg List.tail hw)

/-- **The alarm never goes off**, as long as there is more fuel than there are structs that are not
under way. -/
theorem coincide_flattenWatched (hstack : c.Stack pending) {m n : Nat}
    (hm : c.structs.length < m + pending.length) (hn : c.structs.length < n + pending.length) :
    Coincide (Workbench.IsUnderway pending) (flattenWatched c o alarm m key)
      (flattenWithin c o n key) := by
  induction m generalizing n pending key with
  | zero =>
    have hle := hstack.length_le
    omega
  | succ m ih =>
    have hle := hstack.length_le
    obtain ⟨n, rfl⟩ : ∃ k, n = k + 1 := ⟨n - 1, by omega⟩
    rw [flattenWithin_succ, flattenWatched]
    refine coincide_watched hstack (coincide_flattenOnce fun s hs hnew => ?_)
    have hinner : c.Stack (key :: pending) := hstack.cons hnew hs
    refine coincide_watched hinner (coincide_layoutStruct Workbench.silent_isUnderway ?_ s)
    intro d
    exact ih hinner (by rw [List.length_cons]; omega) (by rw [List.length_cons]; omega)

end

/-! ### Why a struct is refused -/

/-- Whether an error is found in the declaration of a struct and in its numbers, and not in what is
under way or in a finished struct. -/
def LayoutError.isLocal : LayoutError → Bool
  | cyclicLayout _ => false
  | flawed _ => false
  | _ => true

/-- Whether an error says that a number is no word. -/
def LayoutError.isOverflow : LayoutError → Bool
  | offsetOverflow _ _ => true
  | bufferOverflow _ _ => true
  | _ => false

/-- Whether an error says that a conditional block is left. -/
def LayoutError.isBlock : LayoutError → Bool
  | conditionalBlock _ _ => true
  | _ => false

/-- Every error of a computation has the property `P`. -/
def FailsWith {α : Type} (P : LayoutError → Prop) (r : Except LayoutError α) : Prop :=
  ∀ e, r = .error e → P e

namespace FailsWith

variable {α β : Type} {P : LayoutError → Prop}

theorem ok (a : α) : FailsWith P (.ok a) := nofun

theorem error {e : LayoutError} (h : P e) : FailsWith P (.error e : Except LayoutError α) :=
  fun _ heq => Except.error.inj heq ▸ h

/-- The second computation only fails where the first one succeeds. -/
theorem bind {x : Except LayoutError α} {f : α → Except LayoutError β} (hx : FailsWith P x)
    (hf : ∀ a, x = .ok a → FailsWith P (f a)) : FailsWith P (x >>= f) := by
  cases x with
  | error e => exact error (hx e rfl)
  | ok a => exact hf a rfl

theorem map {x : Except LayoutError α} (f : α → β) (hx : FailsWith P x) :
    FailsWith P (x.map f) := by
  cases x with
  | error e => exact error (hx e rfl)
  | ok a => exact ok (f a)

end FailsWith

section

/-! What a struct is made of, its names and its attributes, has nothing to do with numbers, nor with
conditional blocks. -/

variable {P : LayoutError → Prop}
  (hlocal : ∀ e, e.isLocal = true → e.isOverflow = false → e.isBlock = false → P e)

include hlocal

theorem failsWith_ofAttr (struct : String) (a : Option LayoutAttr) :
    FailsWith P (LayoutRule.ofAttr struct a) := by
  cases a with
  | none => exact .ok _
  | some a =>
    refine .bind ?_ fun pack _ => .ok _
    unfold LayoutRule.packOf
    split
    · exact .ok _
    · split
      · exact .ok _
      · split
        · exact .ok _
        · exact .error (hlocal _ rfl rfl rfl)

theorem failsWith_bind (c : Catalog) (t : TypeRef) (scope : QualName) :
    FailsWith P (c.bind t scope) := by
  unfold Catalog.bind
  split
  · exact .ok _
  split
  · exact .ok _
  split
  · exact .ok _
  split
  next key d _ =>
    cases d with
    | struct => exact .ok _
    | managed => exact .ok _
    | enum e =>
      refine .map _ ?_
      unfold Catalog.enumBase
      split
      · exact .ok _
      split
      · split
        · exact .ok _
        · exact .error (hlocal _ rfl rfl rfl)
      · exact .error (hlocal _ rfl rfl rfl)
  · exact .error (hlocal _ rfl rfl rfl)

theorem failsWith_baseOffset (p : Placement) (f : FieldDecl) : FailsWith P (p.baseOffset f) := by
  unfold Placement.baseOffset
  split
  · exact .ok _
  split
  · split
    · exact .ok _
    · exact .error (hlocal _ rfl rfl rfl)
  · exact .ok _

theorem failsWith_checkNames (p : Placement) : FailsWith P p.checkNames := by
  unfold Placement.checkNames
  split
  · exact .error (hlocal _ rfl rfl rfl)
  · exact .ok _

theorem failsWith_declaration (c : Catalog) (key : QualName) : FailsWith P (c.declaration key) := by
  unfold Catalog.declaration
  split
  · exact .ok _
  · exact .error (hlocal _ rfl rfl rfl)

end

section

variable {P : LayoutError → Prop} (hlocal : ∀ e, e.isLocal = true → e.isBlock = false → P e)

include hlocal

theorem failsWith_align (p : Placement) (natural base : UInt32) :
    FailsWith P (p.align natural base) := by
  unfold Placement.align
  split
  · exact .ok _
  · exact .error (hlocal _ rfl rfl)

theorem failsWith_place (p : Placement) (o : Options) (f : FieldDecl) (source : Nat)
    (type : Binding) (element : Element) (base : UInt32) :
    FailsWith P (p.place o f source type element base) := by
  unfold Placement.place
  split
  · unfold Placement.placeBuffer
    split
    · exact .error (hlocal _ rfl rfl)
    · split
      · exact .error (hlocal _ rfl rfl)
      · exact .bind (failsWith_align hlocal p _ base) fun _ _ => .ok _
  · exact .bind (failsWith_align hlocal p _ base) fun _ _ => .ok _
  · refine .bind (failsWith_align hlocal p _ base) fun offset _ => ?_
    split
    · exact .ok _
    · exact .error (hlocal _ rfl rfl)

theorem failsWith_advance (p : Placement) (offset size : UInt32) :
    FailsWith P (p.advance offset size) := by
  unfold Placement.advance
  split
  · exact .error (hlocal _ rfl rfl)
  · split <;> exact .ok _

theorem failsWith_finish (p : Placement) (padTrailing : Bool) :
    FailsWith P (p.finish padTrailing) := by
  rw [Placement.finish]
  cases padTrailing with
  | true => exact .bind (failsWith_align hlocal p _ _) fun _ _ => .ok _
  | false => exact .ok _

variable {c : Catalog} {o : Options} {child : QualName → Except LayoutError FlatStruct}
  {key : QualName}

theorem failsWith_elementFrom {type : Binding}
    (hchild : ∀ d, type = .struct d → FailsWith P (child d)) :
    FailsWith P (elementFrom o child type) := by
  cases type with
  | struct d => exact .bind (hchild d rfl) fun _ _ => .ok _
  | primitive p => exact .ok _
  | pointer t => exact .ok _
  | enum k p => exact .ok _
  | managed name => exact .error (hlocal _ rfl rfl)

theorem failsWith_spotFor {f : FieldDecl}
    (hchild : ∀ d, c.bind f.type key = .ok (.struct d) → FailsWith P (child d)) (p : Placement)
    (source : Nat) : FailsWith P (spotFor c o child key p f source) := by
  refine .bind (failsWith_bind (fun e he _ => hlocal e he) c _ _) fun type htype => ?_
  refine .bind (failsWith_baseOffset (fun e he _ => hlocal e he) p f) fun base _ => ?_
  refine .bind (failsWith_elementFrom hlocal fun d hd => hchild d (hd ▸ htype)) fun element _ => ?_
  refine .bind (failsWith_place hlocal p o f source type element base) fun placed _ => ?_
  exact .bind (failsWith_advance hlocal _ _ _) fun _ _ => .ok _

theorem failsWith_spotsFor {slots : List Slot}
    (hchild : ∀ f source d, Slot.field f source ∈ slots → c.bind f.type key = .ok (.struct d) →
      FailsWith P (child d))
    (hblock : ∀ symbol name, Slot.conditional symbol ∈ slots → P (.conditionalBlock symbol name))
    (p : Placement) : FailsWith P (spotsFor c o child key p slots) := by
  induction slots generalizing p with
  | nil => exact .ok _
  | cons slot slots ih =>
    cases slot with
    | groupedBuffer f => exact .error (hlocal _ rfl rfl)
    | conditional symbol => exact .error (hblock symbol _ List.mem_cons_self)
    | field f source =>
      refine .bind (failsWith_spotFor hlocal (fun d => hchild f source d List.mem_cons_self) p
        source) fun r _ => ?_
      refine .bind (ih (fun g i d hg => hchild g i d (List.mem_cons_of_mem _ hg)) ?_ r.2) ?_
      · exact fun symbol name hslot => hblock symbol name (List.mem_cons_of_mem _ hslot)
      · exact fun _ _ => .ok _

/-- **Laying out a struct fails** for a reason that lies in the struct, or as a struct that it
contains does. It fails for a conditional block only if there is one. -/
theorem failsWith_layoutFrom {s : StructDecl}
    (hchild : ∀ f source d, Slot.field f source ∈ s.slots → c.bind f.type key = .ok (.struct d) →
      FailsWith P (child d))
    (hblock : ∀ symbol name, Slot.conditional symbol ∈ s.slots →
      P (.conditionalBlock symbol name)) : FailsWith P (layoutFrom c o child key s) := by
  refine .bind (failsWith_ofAttr (fun e he _ => hlocal e he) _ _) fun rule _ => ?_
  refine .bind (failsWith_spotsFor hlocal hchild hblock _) fun r _ => ?_
  refine .bind (failsWith_checkNames (fun e he _ => hlocal e he) _) fun _ _ => ?_
  exact .bind (failsWith_finish hlocal _ _) fun _ _ => .ok _

end

/-! ### The fields behind the steps -/

/-- The field `f` is placed for the declared field `g`: it is that field, or one of its names. -/
structure FieldDecl.PlacedFor (f g : FieldDecl) : Prop where
  type : f.type = g.type
  offset : f.offset = g.offset
  fixedCount : f.fixedCount = g.fixedCount

/-- What a step is asked for by: an instance field, a buffer under several names, or a conditional
block. -/
theorem exists_member_of_slot {s : StructDecl} {slot : Slot} (h : slot ∈ s.slots) :
    (∃ g f source, s.members[source]? = some (.field g) ∧ g.isInstance = true ∧
      slot = .field f source ∧ f.PlacedFor g) ∨
    (∃ g, Member.field g ∈ s.members ∧ g.isInstance = true ∧ slot = .groupedBuffer g ∧
      g.isGrouped = true ∧ g.fixedCount.isSome = true) ∨
    ∃ symbol ms otherwise, Member.conditional symbol ms otherwise ∈ s.members ∧
      slot = .conditional symbol := by
  obtain ⟨⟨m, i⟩, hm, h⟩ := List.mem_flatMap.1 h
  replace h : slot ∈ m.slots i := h
  have hindex : s.members[i]? = some m := List.mem_zipIdx_iff_getElem?.1 hm
  have hmem : m ∈ s.members := List.mem_of_getElem? hindex
  cases m with
  | field g =>
    rw [Member.slots] at h
    split at h
    · cases h
    next hinstance =>
      have hinstance : g.isInstance = true := by simpa using hinstance
      split at h
      next hgrouped =>
        split at h
        next hcount =>
          have hslot := List.mem_singleton.1 h
          exact .inr (.inl ⟨g, hmem, hinstance, hslot, hgrouped, hcount⟩)
        next =>
          obtain ⟨f, hf, rfl⟩ := List.mem_map.1 h
          obtain ⟨name, -, rfl⟩ := List.mem_map.1 hf
          exact .inl ⟨g, _, i, hindex, hinstance, rfl, rfl, rfl, rfl⟩
      next => exact .inl ⟨g, g, i, hindex, hinstance, List.mem_singleton.1 h, rfl, rfl, rfl⟩
  | conditional symbol ms otherwise =>
    exact .inr (.inr ⟨symbol, ms, otherwise, hmem, List.mem_singleton.1 h⟩)
  | accessor a => cases h
  | struct s => cases h
  | enum e => cases h
  | verbatim text => cases h

theorem exists_field_of_slot {s : StructDecl} {f : FieldDecl} {source : Nat}
    (h : Slot.field f source ∈ s.slots) :
    ∃ g, s.members[source]? = some (.field g) ∧ g.isInstance = true ∧ f.PlacedFor g := by
  rcases exists_member_of_slot h with ⟨g, f', i, hg, hinstance, heq, hf⟩ | h | h
  · obtain ⟨rfl, rfl⟩ := Slot.field.inj heq
    exact ⟨g, hg, hinstance, hf⟩
  · obtain ⟨g, -, -, heq, -⟩ := h
    cases heq
  · obtain ⟨symbol, ms, otherwise, -, heq⟩ := h
    cases heq

theorem exists_slots_subset {s : StructDecl} {m : Member} (hm : m ∈ s.members) :
    ∃ i, ∀ slot ∈ m.slots i, slot ∈ s.slots := by
  obtain ⟨i, hi⟩ := List.getElem?_of_mem hm
  have hmem : (m, i) ∈ s.members.zipIdx := List.mem_zipIdx_iff_getElem?.2 hi
  exact ⟨i, fun slot h => List.mem_flatMap.2 ⟨(m, i), hmem, h⟩⟩

/-- A buffer under several names asks for a step that cannot be taken. -/
theorem groupedBuffer_mem_slots {s : StructDecl} {g : FieldDecl} (hg : Member.field g ∈ s.members)
    (hinstance : g.isInstance = true) (hgrouped : g.isGrouped = true)
    (hcount : g.fixedCount.isSome = true) : Slot.groupedBuffer g ∈ s.slots := by
  obtain ⟨i, hslots⟩ := exists_slots_subset hg
  rw [Member.slots, hinstance, if_neg (by decide), if_pos hgrouped, if_pos hcount] at hslots
  exact hslots _ List.mem_cons_self

/-- Every other instance field is placed. -/
theorem exists_slot_of_field {s : StructDecl} {g : FieldDecl} (hg : Member.field g ∈ s.members)
    (hinstance : g.isInstance = true) (hgrouped : g.isGrouped = true → g.fixedCount = none) :
    ∃ f source, Slot.field f source ∈ s.slots ∧ f.PlacedFor g := by
  obtain ⟨i, hslots⟩ := exists_slots_subset hg
  rw [Member.slots, hinstance, if_neg (by decide)] at hslots
  by_cases hseveral : g.isGrouped = true
  · obtain ⟨name, names, hnames⟩ : ∃ name names, g.names = name :: names := by
      refine List.exists_cons_of_ne_nil fun hnil => ?_
      simp [FieldDecl.isGrouped, hnil] at hseveral
    rw [if_pos hseveral, hgrouped hseveral, if_neg (by decide)] at hslots
    refine ⟨{ g with names := [name] }, i, hslots _ ?_, rfl, rfl, rfl⟩
    exact List.mem_map.2 ⟨_, List.mem_map.2 ⟨name, by simp [hnames], rfl⟩, rfl⟩
  · rw [if_neg hseveral] at hslots
    exact ⟨g, i, hslots _ List.mem_cons_self, rfl, rfl, rfl⟩

theorem conditional_mem_slots {s : StructDecl} {symbol : String} {ms otherwise : List Member}
    (h : Member.conditional symbol ms otherwise ∈ s.members) :
    Slot.conditional symbol ∈ s.slots := by
  obtain ⟨i, hslots⟩ := exists_slots_subset h
  exact hslots _ List.mem_cons_self

/-! ### Cycles -/

namespace Catalog

/-- The struct `outer` has an instance field, plain or a fixed buffer, whose type is the struct
`inner` itself and not a pointer to it. -/
def Embeds (c : Catalog) (outer inner : QualName) : Prop :=
  ∃ s g, c.struct? outer = some s ∧ Member.field g ∈ s.members ∧
    g.isStatic = false ∧ g.isConst = false ∧ g.type.isPointer = false ∧
    c.bind g.type outer = .ok (.struct inner)

variable {c : Catalog} {o : Options} {key : QualName}

/-- What is bound to a struct is no pointer. -/
theorem isPointer_of_bind {t : TypeRef} {d : QualName} (h : c.bind t key = .ok (.struct d)) :
    t.isPointer = false := by
  unfold bind at h
  split at h
  · cases h
  next hnone =>
    rw [TypeRef.pointee?] at hnone
    split at hnone
    · cases hnone
    next hpointer => simpa using hpointer

/-- A struct contains another one only through a field that it embeds it with. -/
theorem Contains.embeds {outer inner : QualName} (h : c.Contains outer inner) :
    c.Embeds outer inner := by
  obtain ⟨s, hs, f, source, hslot, hbind⟩ := h
  obtain ⟨g, hg, hinstance, hf⟩ := exists_field_of_slot hslot
  rw [hf.type] at hbind
  obtain ⟨hstatic, hconst⟩ : g.isStatic = false ∧ g.isConst = false := by
    simpa [FieldDecl.isInstance] using hinstance
  exact ⟨s, g, hs, List.mem_of_getElem? hg, hstatic, hconst, isPointer_of_bind hbind, hbind⟩

theorem transGen_embeds {outer inner : QualName} (h : TransGen c.Contains outer inner) :
    TransGen c.Embeds outer inner :=
  TransGen.mono (fun _ _ => Contains.embeds) _ _ h

/-- **A struct is refused as cyclic only if it contains itself.** The structs under way form a chain
that leads to the struct at hand; a struct is refused because it is found in that chain. -/
theorem failsWith_flattenUnder {fuel : Nat} {pending : List QualName}
    (hway : c.Underway fuel pending) (hchain : ∀ d ∈ pending, TransGen c.Contains d key) :
    FailsWith (fun e => ∀ k, e = .cyclicLayout k → TransGen c.Contains k k)
      (c.flattenUnder o fuel pending key) := by
  have hlocal : ∀ e : LayoutError, e.isLocal = true → e.isBlock = false →
      ∀ k, e = .cyclicLayout k → TransGen c.Contains k k := by
    rintro e he - k rfl
    cases he
  induction fuel generalizing pending key with
  | zero =>
    obtain ⟨n, hn⟩ := hway.exists_fuel
    cases hn
  | succ n ih =>
    rw [flattenUnder]
    by_cases hkey : pending.contains key = true
    · rw [if_pos hkey]
      refine .error fun k hk => ?_
      obtain rfl := LayoutError.cyclicLayout.inj hk
      exact hchain key (by simpa using hkey)
    · rw [if_neg hkey]
      have hnew : key ∉ pending := by simpa using hkey
      refine .bind (failsWith_declaration (fun e he _ => hlocal e he) c key) fun s hs => ?_
      have hs := declaration_eq_ok hs
      refine .map _ (failsWith_layoutFrom hlocal (fun f source d hslot hbind => ?_) ?_)
      · have hd : c.Contains key d := ⟨s, hs, f, source, hslot, hbind⟩
        refine ih (hway.cons hnew hs) fun e he => ?_
        rcases List.mem_cons.1 he with rfl | he
        · exact .single hd
        · exact (hchain e he).tail hd
      · intro symbol name hslot k hk
        cases hk

end Catalog

/-- **Flattening ends, and finds cycles only where there are some**, in any catalog and behind any
calls: with enough fuel nothing depends on it, the structs under way are always different indexed
structs, of which there are no more than the catalog has, and a struct that is refused as cyclic
embeds itself. -/
theorem flatten_ends (c : Catalog) (o : Options) (calls : List Call) (key : QualName) :
    (∀ alarm fuel, c.structs.length < fuel →
      (flattenWatched c o alarm fuel key).run.run (Workbench.afterCalls c o calls) =
        (Bench.flatten c o key).run.run (Workbench.afterCalls c o calls)) ∧
    (∀ pending, c.Stack pending → pending.length ≤ c.structs.length) ∧
    ∀ k, outcome (Bench.flatten c o key) (Workbench.afterCalls c o calls) =
      .error (.cyclicLayout k) → TransGen c.Embeds k k := by
  refine ⟨fun alarm fuel hfuel => ?_, fun _ => Catalog.Stack.length_le, fun k hk => ?_⟩
  · have hidle := (faithful_afterCalls c o calls).underway
    have hn : c.structs.length < c.structs.length + 1 + ([] : List QualName).length := by simp
    exact (coincide_flattenWatched (.nil c) (by simpa using hfuel) hn _ hidle).1
  · rw [outcome_flatten_eq_answer] at hk
    have hway : c.Underway (c.structs.length + 1) [] := ⟨List.nodup_nil, by simp, by simp⟩
    exact Catalog.transGen_embeds
      (Catalog.failsWith_flattenUnder hway (by simp) _ hk k rfl)

/-! ### A ring -/

/-- Two structs that contain each other, one of them in a buffer, inside a third one; and a struct
that only mentions itself in a pointer and in a static field. -/
def ringCatalog : Catalog :=
  let field (type name : String) : FieldDecl := .ofNames (.named type) [name]
  let struct (name : String) (fields : List FieldDecl) :=
    (QualName.mk name, (⟨["public"], name, .none, none, fields.map .field⟩ : StructDecl))
  ⟨[struct "Node" [.ofNames ⟨"Node", 1⟩ ["next"], (field "Node" "first").asStatic],
    struct "Link" [field "Node" "node", (field "Ring" "rings").withFixedCount 2],
    struct "Ring" [field "byte" "tag", field "Link" "link"],
    struct "Outer" [field "Ring" "ring"]], [], [], [], []⟩

/-- Here the theorem says that the ring embeds itself, and that fuel for five structs is enough to
find this out, also when a struct was flattened before. -/
theorem flatten_ends_ring :
    (∃ f, outcome (Bench.flatten ringCatalog (.ofPointerWidth 8) ⟨"Node"⟩) .empty = .ok f ∧
      f.footprint = ⟨8, 8⟩) ∧
    outcome (Bench.flatten ringCatalog (.ofPointerWidth 8) ⟨"Outer"⟩)
        (Workbench.afterCalls ringCatalog (.ofPointerWidth 8) [.flatten ⟨"Node"⟩]) =
      .error (.cyclicLayout ⟨"Ring"⟩) ∧
    TransGen ringCatalog.Embeds ⟨"Ring"⟩ ⟨"Ring"⟩ ∧
    ([⟨"Link"⟩, ⟨"Ring"⟩, ⟨"Outer"⟩] : List QualName).length ≤ ringCatalog.structs.length ∧
    ∀ alarm, (flattenWatched ringCatalog (.ofPointerWidth 8) alarm 5 ⟨"Outer"⟩).run.run
        (Workbench.afterCalls ringCatalog (.ofPointerWidth 8) [.flatten ⟨"Node"⟩]) =
      (Bench.flatten ringCatalog (.ofPointerWidth 8) ⟨"Outer"⟩).run.run
        (Workbench.afterCalls ringCatalog (.ofPointerWidth 8) [.flatten ⟨"Node"⟩]) := by
  obtain ⟨hfuel, hstack, hcycle⟩ :=
    flatten_ends ringCatalog (.ofPointerWidth 8) [.flatten ⟨"Node"⟩] ⟨"Outer"⟩
  have hrefused : outcome (Bench.flatten ringCatalog (.ofPointerWidth 8) ⟨"Outer"⟩)
        (Workbench.afterCalls ringCatalog (.ofPointerWidth 8) [.flatten ⟨"Node"⟩]) =
      .error (.cyclicLayout ⟨"Ring"⟩) := by decide +kernel
  refine ⟨by decide +kernel, hrefused, hcycle _ hrefused, hstack _ (by decide +kernel), ?_⟩
  exact fun alarm => hfuel alarm 5 (by decide)

end FlatLayout
