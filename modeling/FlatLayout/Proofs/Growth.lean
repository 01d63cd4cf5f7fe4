import FlatLayout.Proofs.Memoisation

/-!
# How the memo grows

Finished structs are put behind each other, and none is ever taken away. Whatever is asked of a
workbench, the memo behind it is the memo before it with some structs added, one by one; each of
them has a new name and contains only structs in front of it.

## Why no struct is finished twice

A struct is computed if it is not in the memo, but it is entered only after all that it contains was
asked for, and by then the memo has grown. So it has to be known that it was not finished meanwhile.
It was not, because it was under way: what is finished while some structs are under way is none of
them. This is the part of the invariant that goes down with the recursion, and it is why
`Workbench.Grows` carries a condition on the names that may be added.

## Main definitions

* `Builds` — structs added to a list, each behind what it contains
* `Workbench.Grows` — the memo grew by structs with allowed names, all of them counted
* `Leads` — some steps let the memo grow, and finish certain structs if they succeed

## Main results

* `leads_flattenWithin` — flattening a struct adds structs that it contains, and itself
* `Builds.closed` — a list that was built up from nothing contains whatever is contained
-/

namespace FlatLayout

open Relation

/-- The list `es'` is `es` with some structs behind it, which were added one by one: each under a
new name that is `allowed`, and behind all that it contains. -/
inductive Builds (c : Catalog) (allowed : QualName → Prop) (es : List FlatStruct) :
    List FlatStruct → Prop
  | refl : Builds c allowed es es
  | snoc {es' : List FlatStruct} {f : FlatStruct} (before : Builds c allowed es es')
      (fresh : f.key ∉ es'.map (·.key)) (below : ∀ d, c.Contains f.key d → d ∈ es'.map (·.key))
      (named : allowed f.key) : Builds c allowed es (es' ++ [f])

namespace Builds

variable {c : Catalog} {allowed allowed' : QualName → Prop} {es es' es'' : List FlatStruct}

theorem trans (h : Builds c allowed es es') (h' : Builds c allowed es' es'') :
    Builds c allowed es es'' := by
  induction h' with
  | refl => exact h
  | snoc before fresh below named ih => exact .snoc ih fresh below named

theorem mono (h : Builds c allowed es es') (hmono : ∀ d, allowed d → allowed' d) :
    Builds c allowed' es es' := by
  induction h with
  | refl => exact .refl
  | snoc before fresh below named ih => exact .snoc ih fresh below (hmono _ named)

/-- What was there stays, in front. -/
theorem exists_append (h : Builds c allowed es es') :
    ∃ new, es' = es ++ new ∧ ∀ f ∈ new, allowed f.key := by
  induction h with
  | refl => exact ⟨[], by simp⟩
  | @snoc es' f before fresh below named ih =>
    obtain ⟨new, rfl, hnew⟩ := ih
    refine ⟨new ++ [f], List.append_assoc .., fun g hg => ?_⟩
    rcases List.mem_append.1 hg with hg | hg
    · exact hnew g hg
    · rw [List.mem_singleton.1 hg]
      exact named

theorem key_subset (h : Builds c allowed es es') {d : QualName} (hd : d ∈ es.map (·.key)) :
    d ∈ es'.map (·.key) := by
  obtain ⟨new, rfl, -⟩ := h.exists_append
  rw [List.map_append]
  exact List.mem_append_left _ hd

/-- A name that is not allowed is not added. -/
theorem not_mem (h : Builds c allowed es es') {d : QualName} (hd : d ∉ es.map (·.key))
    (hallowed : ¬ allowed d) : d ∉ es'.map (·.key) := by
  obtain ⟨new, rfl, hnew⟩ := h.exists_append
  rw [List.map_append, List.mem_append]
  rintro (hmem | hmem)
  · exact hd hmem
  · obtain ⟨f, hf, rfl⟩ := List.mem_map.1 hmem
    exact hallowed (hnew f hf)

/-! ### Lists that were built up from nothing -/

theorem allowed_of_mem (h : Builds c allowed [] es) {d : QualName} (hd : d ∈ es.map (·.key)) :
    allowed d := by
  obtain ⟨new, rfl, hnew⟩ := h.exists_append
  obtain ⟨f, hf, rfl⟩ := List.mem_map.1 hd
  exact hnew f hf

theorem nodup (h : Builds c allowed [] es) : (es.map (·.key)).Nodup := by
  induction h with
  | refl => exact List.nodup_nil
  | snoc before fresh below named ih =>
    rw [List.map_append, List.map_singleton]
    refine List.nodup_append.2 ⟨ih, by simp, fun d hd e he => ?_⟩
    rw [List.mem_singleton.1 he]
    rintro rfl
    exact fresh hd

/-- **Every struct stands behind what it contains.** -/
theorem below_of_append (h : Builds c allowed [] es) {before after : List FlatStruct}
    {f : FlatStruct} (heq : es = before ++ f :: after) {d : QualName} (hd : c.Contains f.key d) :
    d ∈ before.map (·.key) := by
  induction h generalizing after with
  | refl => exact absurd heq (by simp)
  | @snoc es' g hbuilds fresh below named ih =>
    rcases List.eq_nil_or_concat after with rfl | ⟨after, last, rfl⟩
    · obtain ⟨rfl, rfl⟩ := List.append_singleton_inj.1 heq
      exact below d hd
    · rw [List.concat_eq_append, ← List.cons_append, ← List.append_assoc] at heq
      exact ih (List.append_singleton_inj.1 heq).1

/-- What is contained in a struct of the list, at any depth, is in the list. -/
theorem closed (h : Builds c allowed [] es) {d e : QualName} (hd : d ∈ es.map (·.key))
    (hde : ReflTransGen c.Contains d e) : e ∈ es.map (·.key) := by
  induction hde with
  | refl => exact hd
  | tail _ hstep ih =>
    obtain ⟨f, hf, rfl⟩ := List.mem_map.1 ih
    obtain ⟨before, after, heq⟩ := List.append_of_mem hf
    have hmem := h.below_of_append heq hstep
    rw [heq, List.map_append]
    exact List.mem_append_left _ hmem

end Builds

/-! ### Steps that let the memo grow -/

/-- The workbench `w'` is what `w` has become: the memo grew by structs with allowed names, the same
structs are under way, and every new struct was counted. -/
structure Workbench.Grows (c : Catalog) (allowed : QualName → Prop) (w w' : Workbench) : Prop where
  builds : Builds c allowed w.memo.entries w'.memo.entries
  underway : w'.pending = w.pending
  counted : w'.computed + w.memo.entries.length = w.computed + w'.memo.entries.length

namespace Workbench.Grows

variable {c : Catalog} {allowed allowed' : QualName → Prop} {w w' w'' : Workbench}

theorem refl (w : Workbench) : Grows c allowed w w := ⟨.refl, rfl, rfl⟩

theorem trans (h : Grows c allowed w w') (h' : Grows c allowed w' w'') : Grows c allowed w w'' where
  builds := h.builds.trans h'.builds
  underway := h'.underway.trans h.underway
  counted := by
    have := h.counted
    have := h'.counted
    omega

theorem mono (h : Grows c allowed w w') (hmono : ∀ d, allowed d → allowed' d) :
    Grows c allowed' w w' := ⟨h.builds.mono hmono, h.underway, h.counted⟩

end Workbench.Grows

/-- At a workbench at which the structs `pending` are under way, the steps let the memo grow by
structs with allowed names, whether they succeed or not. A success has the property `P`, and then
all structs that are `needed` are finished. -/
def Leads {α : Type} (c : Catalog) (pending : List QualName) (allowed : QualName → Prop)
    (steps : Bench α) (P : α → Prop) (needed : QualName → Prop) : Prop :=
  ∀ w : Workbench, w.pending = pending → w.Grows c allowed (stateAfter steps w) ∧
    ∀ a, outcome steps w = .ok a → P a ∧ ∀ d, needed d → d ∈ (stateAfter steps w).memo.keys

/-- No struct. -/
abbrev noStruct : QualName → Prop := fun _ => False

namespace Leads

variable {α β : Type} {c : Catalog} {pending : List QualName}
  {allowed needed needed' : QualName → Prop} {P : α → Prop} {Q : β → Prop}

theorem pure {a : α} (h : P a) : Leads c pending allowed (pure a) P noStruct := by
  intro w _
  refine ⟨.refl w, fun b hb => ⟨?_, nofun⟩⟩
  rw [← Except.ok.inj hb]
  exact h

theorem throw (e : LayoutError) : Leads c pending allowed (throw e) P needed :=
  fun w _ => ⟨.refl w, nofun⟩

/-- What the first steps have finished is finished behind the second ones. -/
theorem bind {x : Bench α} {f : α → Bench β} (hx : Leads c pending allowed x P needed)
    (hf : ∀ a, P a → Leads c pending allowed (f a) Q needed') :
    Leads c pending allowed (x >>= f) Q fun d => needed d ∨ needed' d := by
  intro w hw
  obtain ⟨hgrows, hsuccess⟩ := hx w hw
  cases hr : outcome x w with
  | error e =>
    rw [stateAfter_bind_error hr, outcome_bind_error hr]
    exact ⟨hgrows, nofun⟩
  | ok a =>
    obtain ⟨hP, hneeded⟩ := hsuccess a hr
    obtain ⟨hgrows', hsuccess'⟩ := hf a hP _ (hgrows.underway.trans hw)
    rw [stateAfter_bind_ok hr, outcome_bind_ok hr]
    refine ⟨hgrows.trans hgrows', fun b hb => ⟨(hsuccess' b hb).1, ?_⟩⟩
    rintro d (hd | hd)
    · exact hgrows'.builds.key_subset (hneeded d hd)
    · exact (hsuccess' b hb).2 d hd

theorem mono {allowed' : QualName → Prop} {P' : α → Prop} {x : Bench α}
    (h : Leads c pending allowed x P needed) (hallowed : ∀ d, allowed d → allowed' d)
    (hP : ∀ a, P a → P' a) (hneeded : ∀ d, needed' d → needed d) :
    Leads c pending allowed' x P' needed' := by
  intro w hw
  obtain ⟨hgrows, hsuccess⟩ := h w hw
  refine ⟨hgrows.mono hallowed, fun a ha => ⟨hP a (hsuccess a ha).1, fun d hd => ?_⟩⟩
  exact (hsuccess a ha).2 d (hneeded d hd)

theorem weaken {x : Bench α} (h : Leads c pending allowed x P needed)
    (hneeded : ∀ d, needed' d → needed d) : Leads c pending allowed x P needed' :=
  h.mono (fun _ => id) (fun _ => id) hneeded

/-- The second steps need not finish anything. -/
theorem before {x : Bench α} {f : α → Bench β} (hx : Leads c pending allowed x P needed)
    (hf : ∀ a, P a → Leads c pending allowed (f a) Q noStruct) :
    Leads c pending allowed (x >>= f) Q needed :=
  (hx.bind hf).weaken fun _ => .inl

/-- The first steps need not finish anything. -/
theorem andThen {x : Bench α} {f : α → Bench β} (hx : Leads c pending allowed x P noStruct)
    (hf : ∀ a, P a → Leads c pending allowed (f a) Q needed) :
    Leads c pending allowed (x >>= f) Q needed :=
  (hx.bind hf).weaken fun _ => .inr

theorem throw_bind (e : LayoutError) (f : α → Bench β) :
    Leads c pending allowed ((MonadExcept.throw e : Bench α) >>= f) Q needed :=
  fun w _ => ⟨.refl w, nofun⟩

theorem ofExcept (r : Except LayoutError α) :
    Leads c pending allowed (Bench.ofExcept r) (fun a => r = .ok a) noStruct :=
  fun w _ => ⟨.refl w, fun _ ha => ⟨ha, nofun⟩⟩

theorem note (level : Log.Level) (origin : Log.Origin) (message : String) :
    Leads c pending allowed (Bench.note level origin message) (fun _ => True) noStruct :=
  fun _ _ => ⟨⟨.refl, rfl, rfl⟩, fun _ _ => ⟨trivial, nofun⟩⟩

/-- A struct that is under way during some steps is not under way behind them. -/
theorem during {key : QualName} {x : Bench α} (h : Leads c (key :: pending) allowed x P needed) :
    Leads c pending allowed (Bench.during key x) P needed := by
  intro w hw
  have henter : key :: w.pending = key :: pending := by rw [hw]
  obtain ⟨hgrows, hsuccess⟩ := h { w with pending := key :: w.pending } henter
  refine ⟨⟨hgrows.builds, ?_, hgrows.counted⟩, hsuccess⟩
  show (stateAfter x { w with pending := key :: w.pending }).pending.tail = w.pending
  rw [hgrows.underway]
  rfl

end Leads

/-! ### One struct -/

section

variable {c : Catalog} {o : Options} {key : QualName} {pending : List QualName}
  {allowed : QualName → Prop} {child : QualName → Bench FlatStruct}

theorem leads_elementOf {type : Binding}
    (hchild : ∀ d, type = .struct d → Leads c pending allowed (child d) (fun _ => True) (· = d)) :
    Leads c pending allowed (elementOf o child type) (fun _ => True) (type = .struct ·) := by
  cases type with
  | struct d =>
    refine ((hchild d rfl).before fun _ _ => .pure trivial).weaken fun e he => ?_
    exact (Binding.struct.inj he).symm
  | primitive p => exact (Leads.pure trivial).weaken nofun
  | pointer t => exact (Leads.pure trivial).weaken nofun
  | enum k p => exact (Leads.pure trivial).weaken nofun
  | managed name => exact .throw _

theorem leads_noteEmpty (p : Placement) (f : FieldDecl) (e : Element) :
    Leads c pending allowed (noteEmpty p f e) (fun _ => True) noStruct := by
  cases e with
  | scalar size => exact .pure trivial
  | struct flat =>
    rw [noteEmpty]
    split
    · exact .note _ _ _
    · exact .pure trivial

theorem leads_placeField {f : FieldDecl}
    (hchild : ∀ d, c.bind f.type key = .ok (.struct d) →
      Leads c pending allowed (child d) (fun _ => True) (· = d)) (p : Placement) (source : Nat) :
    Leads c pending allowed (placeField c o child key p f source) (fun _ => True)
      fun d => c.bind f.type key = .ok (.struct d) := by
  refine (Leads.ofExcept _).andThen fun type htype => ?_
  refine (Leads.ofExcept _).andThen fun base _ => ?_
  have helement := leads_elementOf (o := o) fun d hd => hchild d (hd ▸ htype)
  refine (helement.weaken fun d hd => Except.ok.inj (htype.symm.trans hd)).before ?_
  intro element _
  refine (Leads.ofExcept _).andThen fun placed _ => ?_
  refine (leads_noteEmpty p f element).andThen fun _ _ => ?_
  refine (Leads.note _ _ _).andThen fun _ _ => ?_
  exact (Leads.ofExcept _).mono (fun _ => id) (fun _ _ => trivial) fun _ => id

/-- Behind the fields of a struct all that they contain is finished. -/
theorem leads_placeSlots (slots : List Slot)
    (hchild : ∀ f source d, Slot.field f source ∈ slots → c.bind f.type key = .ok (.struct d) →
      Leads c pending allowed (child d) (fun _ => True) (· = d)) (p : Placement) :
    Leads c pending allowed (slots.foldlM (placeSlot c o child key) p) (fun _ => True) fun d =>
      ∃ f source, Slot.field f source ∈ slots ∧ c.bind f.type key = .ok (.struct d) := by
  induction slots generalizing p with
  | nil => exact (Leads.pure trivial).weaken (by simp)
  | cons slot slots ih =>
    have hrest := ih fun f source d hf => hchild f source d (List.mem_cons_of_mem _ hf)
    rw [List.foldlM_cons]
    cases slot with
    | groupedBuffer f => exact .throw_bind _ _
    | conditional symbol => exact .throw_bind _ _
    | field f source =>
      have hfirst := leads_placeField (o := o) (hchild f source · List.mem_cons_self) p source
      refine (hfirst.bind fun q _ => hrest q).weaken ?_
      rintro d ⟨g, i, hg, hbind⟩
      rcases List.mem_cons.1 hg with heq | hg
      · obtain ⟨rfl, -⟩ := Slot.field.inj heq
        exact .inl hbind
      · exact .inr ⟨g, i, hg, hbind⟩

theorem leads_layoutStruct {s : StructDecl} (hs : c.struct? key = some s)
    (hchild : ∀ d, c.Contains key d → Leads c pending allowed (child d) (fun _ => True) (· = d)) :
    Leads c pending allowed (layoutStruct c o child key s) (fun f => f.key = key)
      (c.Contains key) := by
  refine (Leads.ofExcept _).andThen fun rule _ => ?_
  refine (Leads.note _ _ _).andThen fun _ _ => ?_
  have hslots := leads_placeSlots (o := o) s.slots
    fun f source d hf hbind => hchild d ⟨s, hs, f, source, hf, hbind⟩
  refine ((hslots (.start s.name rule s.markers.union)).weaken ?_).before fun p _ => ?_
  · rintro d ⟨s', hs', hd⟩
    obtain rfl := Option.some.inj (hs.symm.trans hs')
    exact hd
  · refine (Leads.ofExcept _).andThen fun _ _ => ?_
    refine (Leads.ofExcept _).andThen fun footprint _ => ?_
    exact (Leads.note _ _ _).andThen fun _ _ => .pure rfl

/-! ### The recursion -/

/-- The structs that may be finished while the struct `key` is flattened. -/
def Catalog.Below (c : Catalog) (key : QualName) (pending : List QualName) (d : QualName) : Prop :=
  ReflTransGen c.Contains key d ∧ d ∉ pending

theorem Memo.peek?_eq_none {m : Memo} (h : m.peek? key = none) : key ∉ m.keys := by
  intro hkey
  obtain ⟨f, hf, rfl⟩ := List.mem_map.1 hkey
  have hne := List.find?_eq_none.1 h f hf
  simp at hne

theorem Memo.peek?_of_not_mem {m : Memo} (h : key ∉ m.keys) : m.peek? key = none := by
  refine List.find?_eq_none.2 fun f hf heq => h ?_
  rw [← eq_of_beq heq]
  exact List.mem_map_of_mem hf

/-- Keeping a struct that is new, with a name that is allowed, behind what it contains. -/
theorem Workbench.grows_finish (allowed : QualName → Prop) {w : Workbench} {f : FlatStruct}
    (hfresh : f.key ∉ w.memo.keys) (hbelow : ∀ d, c.Contains f.key d → d ∈ w.memo.keys)
    (hallowed : allowed f.key) :
    w.Grows c allowed (stateAfter (Bench.finish f) w) ∧
      f.key ∈ (stateAfter (Bench.finish f) w).memo.keys := by
  have hentries : (w.memo.insert f).entries = w.memo.entries ++ [f] := by
    rw [Memo.insert, if_neg]
    simp [Memo.contains, Memo.peek?_of_not_mem hfresh]
  constructor
  · refine ⟨?_, rfl, ?_⟩
    · show Builds c allowed w.memo.entries (w.memo.insert f).entries
      rw [hentries]
      exact .snoc .refl hfresh hbelow hallowed
    · show w.computed + 1 + w.memo.entries.length = w.computed + (w.memo.insert f).entries.length
      rw [hentries, List.length_append, List.length_singleton]
      omega
  · show f.key ∈ (w.memo.insert f).entries.map (·.key)
    rw [hentries]
    simp

/-- A struct that is computed is put behind what it contains. It is still new: it was under way. If
it cannot be computed, it stays new for the same reason. -/
theorem grows_computeWithin {n : Nat} {w : Workbench} (hw : w.pending = pending)
    (hkey : key ∉ pending) (hfresh : key ∉ w.memo.keys)
    (ih : ∀ d, Leads c (key :: pending) (c.Below d (key :: pending)) (flattenWithin c o n d)
      (fun f => f.key = d) (· = d)) :
    w.Grows c (c.Below key pending) (stateAfter (computeWithin c o n key) w) ∧
      (∀ f, outcome (computeWithin c o n key) w = .ok f →
        f.key = key ∧ key ∈ (stateAfter (computeWithin c o n key) w).memo.keys) ∧
      ∀ e, outcome (computeWithin c o n key) w = .error e →
        key ∉ (stateAfter (computeWithin c o n key) w).memo.keys := by
  cases hs : c.declaration key with
  | error e =>
    have hrun : (computeWithin c o n key).run.run w = (.error e, w) := by
      rw [computeWithin, hs]
      rfl
    rw [stateAfter, outcome, hrun]
    exact ⟨.refl w, fun f hf => (by cases hf), fun _ _ => hfresh⟩
  | ok s =>
    let steps := Bench.during key (layoutStruct c o (flattenWithin c o n) key s)
    have hsteps : computeWithin c o n key =
        steps >>= fun f => Bench.finish f >>= fun _ => pure f := by
      rw [computeWithin, hs]
      rfl
    have hs := Catalog.declaration_eq_ok hs
    have hinside : Leads c pending (fun d => ReflTransGen c.Contains key d ∧ d ∉ key :: pending)
        steps (fun f => f.key = key) (c.Contains key) := by
      refine .during (leads_layoutStruct hs fun d hd => (ih d).mono ?_ (fun _ _ => trivial) ?_)
      · exact fun e he => ⟨he.1.head hd, he.2⟩
      · exact fun _ => id
    obtain ⟨hgrows, hsuccess⟩ := hinside w hw
    have houter : w.Grows c (c.Below key pending) (stateAfter steps w) :=
      hgrows.mono fun d hd => ⟨hd.1, fun hmem => hd.2 (List.mem_cons_of_mem _ hmem)⟩
    have hstill : key ∉ (stateAfter steps w).memo.keys :=
      hgrows.builds.not_mem hfresh fun h => h.2 List.mem_cons_self
    rw [hsteps]
    cases hr : outcome steps w with
    | error e =>
      rw [stateAfter_bind_error hr, outcome_bind_error hr]
      exact ⟨houter, fun f hf => (by cases hf), fun _ _ => hstill⟩
    | ok f =>
      obtain ⟨rfl, hbelow⟩ := hsuccess f hr
      obtain ⟨hfinish, hmem⟩ :=
        Workbench.grows_finish (c.Below f.key pending) hstill hbelow ⟨.refl, hkey⟩
      rw [stateAfter_bind_ok hr, outcome_bind_ok hr]
      refine ⟨houter.trans hfinish, fun g hg => ?_, fun e he => by cases he⟩
      rw [← Except.ok.inj hg]
      exact ⟨rfl, hmem⟩

/-- **Flattening a struct** adds structs that it contains and that are not under way. If it
succeeds, the struct itself is finished. -/
theorem leads_flattenWithin (c : Catalog) (o : Options) (n : Nat) (pending : List QualName)
    (key : QualName) :
    Leads c pending (c.Below key pending) (flattenWithin c o n key) (fun f => f.key = key)
      (· = key) := by
  induction n generalizing pending key with
  | zero => exact .throw _
  | succ n ih =>
    intro w hw
    rw [outcome, stateAfter]
    cases hfound : w.memo.peek? key with
    | some f =>
      obtain ⟨hmem, rfl⟩ := Memo.mem_of_peek? hfound
      rw [run_flattenWithin_of_some hfound]
      refine ⟨⟨.refl, rfl, rfl⟩, fun g hg => ?_⟩
      rw [← Except.ok.inj hg]
      refine ⟨rfl, ?_⟩
      rintro d rfl
      exact List.mem_map_of_mem hmem
    | none =>
      rw [run_flattenWithin_of_none hfound, hw]
      by_cases hkey : pending.contains key = true
      · rw [if_pos hkey]
        exact ⟨.refl w, fun f hf => by cases hf⟩
      · rw [if_neg hkey]
        obtain ⟨hgrows, hsuccess, -⟩ := grows_computeWithin (o := o) hw (by simpa using hkey)
          (Memo.peek?_eq_none hfound) (ih (key :: pending))
        refine ⟨hgrows, fun f hf => ⟨(hsuccess f hf).1, ?_⟩⟩
        rintro d rfl
        exact (hsuccess f hf).2

end

end FlatLayout
