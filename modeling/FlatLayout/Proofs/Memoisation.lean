import FlatLayout.Proofs.ByValue

/-!
# Finished structs are recalled faithfully

A workbench remembers every struct that was finished at it, and it is shared by all that is asked of
it. That nothing of this shows in an answer is not a matter of the memo alone: a struct that is
found in the memo is not compared with the structs under way, so it has to be known that it could
not have been refused on their account.

What makes this sound is that the structs under way form a chain, each containing the next one, and
the last one the struct at hand. A struct that was finished contains no struct that contains itself,
so none of those under way is to be found inside of it.

## Main definitions

* `Workbench.Faithful` — everything in the memo is what a fresh computation answers
* `Call`, `Workbench.afterCalls` — what can be asked of a workbench, and what becomes of it
* `Catalog.flatten` — what flattening a struct answers at a new workbench

## Main results

* `computes_flattenWithin` — at a faithful workbench `Catalog.flattenUnder` is answered
* `faithful_afterCalls` — no call leaves an unfaithful workbench
* `outcome_flatten_afterCalls` — no call changes a later answer
-/

namespace FlatLayout

open Relation

/-! ### The memo -/

namespace Memo

variable {m : Memo} {key : QualName} {f g : FlatStruct}

theorem mem_of_peek? (h : m.peek? key = some f) : f ∈ m.entries ∧ f.key = key :=
  ⟨List.mem_of_find?_eq_some h, by simpa using List.find?_some h⟩

theorem mem_insert (h : g ∈ (m.insert f).entries) : g = f ∨ g ∈ m.entries := by
  unfold insert at h
  split at h
  · obtain ⟨e, he, rfl⟩ := List.mem_map.1 h
    split
    · exact .inl rfl
    · exact .inr he
  · rcases List.mem_append.1 h with h | h
    · exact .inr h
    · exact .inl (List.mem_singleton.1 h)

end Memo

/-- Every struct in the memo is what a fresh computation answers, and those under way are
`pending`. -/
structure Workbench.Faithful (c : Catalog) (o : Options) (pending : List QualName)
    (w : Workbench) : Prop where
  sound : ∀ f ∈ w.memo.entries, c.answer o f.key = .ok f
  underway : w.pending = pending

variable {c : Catalog} {o : Options} {key : QualName} {pending : List QualName}

namespace Workbench

theorem faithful_empty (c : Catalog) (o : Options) : Faithful c o [] .empty where
  sound := by intro f hf; cases hf
  underway := rfl

theorem silent_faithful : Bench.Silent (Faithful c o pending) :=
  fun _ _ hw => ⟨hw.sound, hw.underway⟩

theorem Faithful.enter {w : Workbench} (h : Faithful c o pending w) :
    Faithful c o (key :: pending) { w with pending := key :: w.pending } :=
  ⟨h.sound, congrArg (key :: ·) h.underway⟩

theorem Faithful.leave {w : Workbench} (h : Faithful c o (key :: pending) w) :
    Faithful c o pending { w with pending := w.pending.tail } :=
  ⟨h.sound, congrArg List.tail h.underway⟩

theorem Faithful.insert {w : Workbench} {f : FlatStruct} (h : Faithful c o pending w)
    (hf : c.answer o f.key = .ok f) :
    Faithful c o pending { w with memo := w.memo.insert f, computed := w.computed + 1 } where
  underway := h.underway
  sound := by
    intro g hg
    rcases Memo.mem_insert hg with rfl | hg
    · exact hf
    · exact h.sound g hg

end Workbench

open Workbench

/-! ### One struct

A struct is recalled, refused because it is under way, or computed. -/

/-- Computing a struct that is neither finished nor under way. -/
def computeWithin (c : Catalog) (o : Options) (fuel : Nat) (key : QualName) : Bench FlatStruct := do
  let s ← Bench.ofExcept (c.declaration key)
  let f ← Bench.during key (layoutStruct c o (flattenWithin c o fuel) key s)
  Bench.finish f
  return f

section

variable {fuel : Nat} {w : Workbench}

theorem run_flattenWithin_of_some {f : FlatStruct} (h : w.memo.peek? key = some f) :
    (flattenWithin c o (fuel + 1) key).run.run w =
      (.ok f, { w with memo := { w.memo with hits := w.memo.hits + 1 } }) := by
  have hget : w.memo.get? key = (some f, { w.memo with hits := w.memo.hits + 1 }) := by
    simp only [Memo.get?, h]
  have hfound : (Bench.finished? key).run.run w =
      (.ok (some f), { w with memo := { w.memo with hits := w.memo.hits + 1 } }) := by
    show (Except.ok (w.memo.get? key).1, { w with memo := (w.memo.get? key).2 }) = _
    rw [hget]
  rw [flattenWithin, ExceptT.run_bind, StateT.run_bind]
  simp only [bind, hfound]
  rfl

theorem run_flattenWithin_of_none (h : w.memo.peek? key = none) :
    (flattenWithin c o (fuel + 1) key).run.run w =
      if w.pending.contains key then (.error (.cyclicLayout key), w)
      else (computeWithin c o fuel key).run.run w := by
  have hget : w.memo.get? key = (none, w.memo) := by simp only [Memo.get?, h]
  have hfound : (Bench.finished? key).run.run w = (.ok none, w) := by
    show (Except.ok (w.memo.get? key).1, { w with memo := (w.memo.get? key).2 }) = _
    rw [hget]
  rw [flattenWithin, ExceptT.run_bind, StateT.run_bind]
  simp only [bind, hfound]
  show (if w.pending.contains key then (throw (.cyclicLayout key) : Bench FlatStruct)
      else computeWithin c o fuel key).run.run w = _
  split <;> rfl

end

theorem key_of_flattenUnder {n : Nat} {f : FlatStruct}
    (h : c.flattenUnder o n pending key = .ok f) : f.key = key := by
  obtain ⟨_, s, ts, -, -, -, hlay⟩ := Catalog.flattenUnder_eq_ok h
  obtain ⟨rule, p, laid⟩ := laid_of_layoutFrom hlay
  exact laid.key_eq

/-- A computed struct may be kept: with more fuel and no struct under way it comes out the same. -/
theorem computes_computeWithin {n : Nat} (hway : c.Underway (n + 1) pending) (hkey : key ∉ pending)
    (hchild : ∀ d, c.Contains key d → Computes (Faithful c o (key :: pending))
      (flattenWithin c o n d) (c.flattenUnder o n (key :: pending) d)) :
    Computes (Faithful c o pending) (computeWithin c o n key)
      (c.flattenUnder o (n + 1) pending key) := by
  have hpending : ¬ pending.contains key = true := by simpa using hkey
  rw [Catalog.flattenUnder, if_neg hpending]
  refine .bind (Bench.computes_ofExcept _ _) fun s hs => ?_
  have hlayout : Computes (Faithful c o (key :: pending))
      (layoutStruct c o (flattenWithin c o n) key s)
      ((layoutFrom c o (c.flattenUnder o n (key :: pending)) key s).map Prod.snd) := by
    refine computes_layoutStruct silent_faithful fun f source d hmem hbind => hchild d ?_
    exact ⟨s, Catalog.declaration_eq_ok hs, f, source, hmem, hbind⟩
  rw [← bind_pure (Except.map Prod.snd _)]
  refine .bind (Bench.computes_during hlayout (fun _ => Faithful.enter) fun _ => Faithful.leave) ?_
  intro f hf
  have hsame : c.flattenUnder o (n + 1) pending key = .ok f := by
    rw [Catalog.flattenUnder, if_neg hpending, hs]
    exact hf
  have hanswer : c.answer o f.key = .ok f := by
    rw [key_of_flattenUnder hsame]
    exact Catalog.flattenUnder_mono (by have := hway.spent; omega) (List.nil_subset _) hsame
  exact .after (fun w hw => ⟨rfl, hw.insert hanswer⟩) (.pure f)

/-- **Flattening at a faithful workbench.** The structs under way form a chain that leads to the
struct at hand, so a struct that is recalled contains none of them. -/
theorem computes_flattenWithin {n : Nat} (hway : c.Underway n pending)
    (hchain : ∀ d ∈ pending, TransGen c.Contains d key) :
    Computes (Faithful c o pending) (flattenWithin c o n key) (c.flattenUnder o n pending key) := by
  induction n generalizing pending key with
  | zero => exact .throw _
  | succ n ih =>
    intro w hw
    rw [outcome, stateAfter]
    cases hfound : w.memo.peek? key with
    | some f =>
      obtain ⟨hmem, rfl⟩ := Memo.mem_of_peek? hfound
      have hanswer := hw.sound f hmem
      have hfree : ∀ d ∈ pending, ¬ ReflTransGen c.Contains f.key d := by
        intro d hd hback
        exact Catalog.acyclic_of_answer hanswer hback ((hchain d hd).trans_left hback)
      rw [run_flattenWithin_of_some hfound, Catalog.flattenUnder_of_answer hanswer hway hfree]
      exact ⟨rfl, hw.sound, hw.underway⟩
    | none =>
      rw [run_flattenWithin_of_none hfound, hw.underway]
      by_cases hkey : pending.contains key = true
      · rw [if_pos hkey, Catalog.flattenUnder, if_pos hkey]
        exact ⟨rfl, hw⟩
      · rw [if_neg hkey]
        have hnew : key ∉ pending := by simpa using hkey
        refine computes_computeWithin hway hnew ?_ w hw
        intro d hd
        obtain ⟨s, hs, -⟩ := id hd
        refine ih (hway.cons hnew hs) ?_
        rintro e (_ | ⟨_, he⟩)
        · exact .single hd
        · exact (hchain e he).tail hd

/-- **Flattening at a faithful workbench with no struct under way** answers what it answers anew. -/
theorem computes_flatten (c : Catalog) (o : Options) (key : QualName) :
    Computes (Faithful c o []) (Bench.flatten c o key) (c.answer o key) :=
  computes_flattenWithin ⟨List.nodup_nil, by simp, by simp⟩ (by simp)

/-! ### All that can be asked of a workbench -/

/-- What is asked of a workbench from outside. -/
inductive Call where
  | flatten (key : QualName)
  | sizeOf (type : Binding)
  | flattenMarked (unit : SourceUnit)

/-- What becomes of a workbench when it is asked for something. Whether that succeeds is not
looked at. -/
def Call.perform (c : Catalog) (o : Options) (w : Workbench) : Call → Workbench
  | .flatten key => stateAfter (Bench.flatten c o key) w
  | .sizeOf type => stateAfter (Bench.sizeOf c o type) w
  | .flattenMarked unit => (stateAfter (unit.flattenMarked c o) ⟨w, []⟩).bench

/-- What becomes of a new workbench after some calls. -/
def Workbench.afterCalls (c : Catalog) (o : Options) (calls : List Call) : Workbench :=
  calls.foldl (Call.perform c o) .empty

theorem keeps_flatten (c : Catalog) (o : Options) (key : QualName) :
    Keeps (Faithful c o []) (Bench.flatten c o key) := .of_computes (computes_flatten c o key)

theorem keeps_sizeOf (c : Catalog) (o : Options) (type : Binding) :
    Keeps (Faithful c o []) (Bench.sizeOf c o type) :=
  .of_computes (computes_elementOf fun k _ => computes_flatten c o k)

/-! Flattening the marked structs of a unit goes down the tree of the unit; only at a marked struct
it goes to the workbench. -/

/-- The workbench of a draft is faithful. -/
def Draft.Faithful (c : Catalog) (o : Options) (d : Draft) : Prop := d.bench.Faithful c o []

theorem keeps_ofBench {α : Type} {steps : Bench α} (h : Keeps (Workbench.Faithful c o []) steps) :
    Keeps (Draft.Faithful c o) (Drafting.ofBench steps) := fun d hd => h d.bench hd

theorem keeps_noteDropped (c : Catalog) (o : Options) (what : String) :
    Keeps (Draft.Faithful c o) (Drafting.noteDropped what) :=
  keeps_ofBench (.of_computes (Bench.computes_note silent_faithful _ _ _))

theorem keeps_addReplaced (c : Catalog) (o : Options) (f : FlatStruct) :
    Keeps (Draft.Faithful c o) (Drafting.addReplaced f) := fun _ hd => hd

mutual

theorem keeps_member_flattenMarked {nested : QualName → List Member → Drafting (List Member)}
    (hnested : ∀ key ms, Keeps (Draft.Faithful c o) (nested key ms)) (key : QualName) (m : Member) :
    Keeps (Draft.Faithful c o) (m.flattenMarked c o nested key) := by
  cases m with
  | struct s =>
    rw [Member.flattenMarked]
    refine .bind (keeps_struct_flattenMarked hnested _ s) fun r => ?_
    cases r <;> exact .pure _
  | field f => exact .pure _
  | accessor a => exact .pure _
  | enum e => exact .pure _
  | conditional symbol ms otherwise => exact .pure _
  | verbatim text => exact .pure _

theorem keeps_struct_flattenMarked {nested : QualName → List Member → Drafting (List Member)}
    (hnested : ∀ key ms, Keeps (Draft.Faithful c o) (nested key ms)) (key : QualName)
    (s : StructDecl) : Keeps (Draft.Faithful c o) (s.flattenMarked c o nested key) := by
  obtain ⟨modifiers, name, markers, layout, members⟩ := s
  rw [StructDecl.flattenMarked]
  split
  · exact .bind (keeps_noteDropped c o _) fun _ => .pure _
  split
  · refine .bind (keeps_ofBench (keeps_flatten c o key)) fun flat => ?_
    refine .bind (keeps_addReplaced c o flat) fun _ => ?_
    exact .bind (hnested key _) fun _ => .pure _
  · exact .bind (keeps_members_flattenMarked hnested key members) fun _ => .pure _

theorem keeps_members_flattenMarked {nested : QualName → List Member → Drafting (List Member)}
    (hnested : ∀ key ms, Keeps (Draft.Faithful c o) (nested key ms)) (key : QualName)
    (ms : List Member) :
    Keeps (Draft.Faithful c o) (Member.flattenMarkedAll c o nested key ms) := by
  cases ms with
  | nil => exact .pure _
  | cons m ms =>
    rw [Member.flattenMarkedAll]
    refine .bind (keeps_member_flattenMarked hnested key m) fun _ => ?_
    exact .bind (keeps_members_flattenMarked hnested key ms) fun _ => .pure _

end

theorem keeps_flattenNested (fuel : Nat) (key : QualName) (ms : List Member) :
    Keeps (Draft.Faithful c o) (flattenNested c o fuel key ms) := by
  induction fuel generalizing key ms with
  | zero => exact .throw _
  | succ fuel ih => exact keeps_members_flattenMarked ih key ms

theorem keeps_item_flattenMarked (space : Option String) (i : Item) :
    Keeps (Draft.Faithful c o) (i.flattenMarked c o space) := by
  cases i with
  | struct s =>
    refine .bind (keeps_struct_flattenMarked (keeps_flattenNested _) _ s) fun r => ?_
    cases r <;> exact .pure _
  | classDecl d =>
    rw [Item.flattenMarked]
    split
    · exact .bind (keeps_noteDropped c o _) fun _ => .pure _
    · exact .pure _
  | enum e => exact .pure _
  | verbatim text => exact .pure _

theorem keeps_items_flattenMarked (space : Option String) (is : List Item) :
    Keeps (Draft.Faithful c o) (Item.flattenMarkedAll c o space is) := by
  induction is with
  | nil => exact .pure _
  | cons i is ih =>
    rw [Item.flattenMarkedAll]
    exact .bind (keeps_item_flattenMarked space i) fun _ => .bind ih fun _ => .pure _

theorem keeps_flattenMarked (c : Catalog) (o : Options) (u : SourceUnit) :
    Keeps (Draft.Faithful c o) (u.flattenMarked c o) :=
  .bind (keeps_items_flattenMarked u.namespaceName u.items) fun _ => .pure _

/-- A call at a faithful workbench leaves a faithful workbench, whether it succeeds or not. -/
theorem Workbench.Faithful.perform {w : Workbench} (h : Faithful c o [] w) (call : Call) :
    Faithful c o [] (call.perform c o w) := by
  cases call with
  | flatten key => exact keeps_flatten c o key w h
  | sizeOf type => exact keeps_sizeOf c o type w h
  | flattenMarked unit => exact keeps_flattenMarked c o unit ⟨w, []⟩ h

/-- **Every workbench is faithful**, and no struct is under way between two calls. -/
theorem faithful_afterCalls (c : Catalog) (o : Options) (calls : List Call) :
    Faithful c o [] (afterCalls c o calls) := by
  unfold afterCalls
  generalize hw : Workbench.empty = w
  have h : Faithful c o [] w := hw ▸ faithful_empty c o
  clear hw
  induction calls generalizing w with
  | nil => exact h
  | cons call calls ih => exact ih _ (h.perform call)

theorem outcome_flatten_eq_answer (c : Catalog) (o : Options) (calls : List Call)
    (key : QualName) :
    outcome (Bench.flatten c o key) (afterCalls c o calls) = c.answer o key :=
  (computes_flatten c o key _ (faithful_afterCalls c o calls)).1

/-- What flattening a struct answers at a new workbench. -/
def Catalog.flatten (c : Catalog) (o : Options) (key : QualName) : Except LayoutError FlatStruct :=
  outcome (Bench.flatten c o key) .empty

theorem flatten_eq_answer (c : Catalog) (o : Options) (key : QualName) :
    c.flatten o key = c.answer o key := outcome_flatten_eq_answer c o [] key

/-- **No call changes a later answer.** Flattening a struct behind any calls, whether they succeeded
or failed, answers what a new workbench answers, be it a flat struct or an error. -/
theorem outcome_flatten_afterCalls (c : Catalog) (o : Options) (calls : List Call)
    (key : QualName) :
    outcome (Bench.flatten c o key) (afterCalls c o calls) = c.flatten o key := by
  rw [outcome_flatten_eq_answer, flatten_eq_answer]

end FlatLayout
