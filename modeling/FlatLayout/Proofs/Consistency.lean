import FlatLayout.Proofs.Growth

/-!
# What a call leaves behind

A failure may come up deep in the recursion. By then structs are under way and others were finished,
and nothing of this is undone: the failure is handed on, call by call. A later call must not notice.
A struct that stayed under way would be taken for one that contains itself, and a struct that was
kept though it failed would be handed out.

What is known of successes is therefore proved again for failures. The structs under way are the
same behind a call as in front of it, and the memo has only become longer. New are structs that are
contained in the one asked for, each of them counted. And the struct that was asked for is there
exactly if the call succeeded.

## The workbench in front of a call

Nothing is asked of it. Structs may be under way, so all this is true of the calls inside of another
one as well, and it holds behind each of several calls, whichever of them failed.

## Main definitions

* `Workbench.Left` — what a call for a struct leaves of a workbench, success or not
* `Workbench.afterSizes` — what becomes of a workbench after several calls

## Main results

* `not_mem_of_flattenWithin` — a struct that cannot be flattened is not finished
* `calls_leave_consistent` — what flattening a struct and asking for a size leave behind
* `Workbench.left_afterSizes` — what many calls leave behind
-/

namespace FlatLayout

open Relation

/-- The struct that a type is, if it is one. -/
def Binding.struct? : Binding → Option QualName
  | .struct key => some key
  | _ => none

/-- The workbench `w'` is what a call leaves of `w`. It asked for the struct `asked`, or for no
struct. -/
structure Workbench.Left (c : Catalog) (asked : Option QualName) (success : Prop)
    (w w' : Workbench) : Prop where
  underway : w'.pending = w.pending
  /-- What was finished before stays in front, and all that is new was counted and is contained in
  the struct that was asked for. -/
  grown : ∃ new, w'.memo.entries = w.memo.entries ++ new ∧
    w'.computed = w.computed + new.length ∧
    ∀ f ∈ new, ∃ key ∈ asked, ReflTransGen c.Contains key f.key
  finished_iff : ∀ key ∈ asked, key ∈ w'.memo.keys ↔ success

variable {c : Catalog} {o : Options} {key : QualName} {w w' : Workbench}

theorem Workbench.Grows.exists_new {allowed : QualName → Prop} (h : w.Grows c allowed w') :
    ∃ new, w'.memo.entries = w.memo.entries ++ new ∧
      w'.computed = w.computed + new.length ∧ ∀ f ∈ new, allowed f.key := by
  obtain ⟨new, hentries, hnew⟩ := h.builds.exists_append
  have hcounted := h.counted
  rw [hentries, List.length_append] at hcounted
  exact ⟨new, hentries, by omega, hnew⟩

/-! ### Flattening a struct -/

/-- A struct that cannot be flattened is not finished: it was not found in front of the call, and it
was under way during the call. -/
theorem not_mem_of_flattenWithin {n : Nat} {e : LayoutError}
    (h : outcome (flattenWithin c o (n + 1) key) w = .error e) :
    key ∉ (stateAfter (flattenWithin c o (n + 1) key) w).memo.keys := by
  rw [outcome] at h
  rw [stateAfter]
  cases hfound : w.memo.peek? key with
  | some f =>
    rw [run_flattenWithin_of_some hfound] at h
    cases h
  | none =>
    have hfresh := Memo.peek?_eq_none hfound
    rw [run_flattenWithin_of_none hfound] at h ⊢
    by_cases hkey : w.pending.contains key = true
    · rw [if_pos hkey]
      exact hfresh
    · rw [if_neg hkey] at h ⊢
      -- Calls inside cannot finish the struct either: for them it is one of those under way.
      obtain ⟨-, -, hmissing⟩ := grows_computeWithin (o := o) rfl (by simpa using hkey) hfresh
        (leads_flattenWithin c o n (key :: w.pending))
      exact hmissing e h

namespace Workbench

theorem grows_flatten (c : Catalog) (o : Options) (w : Workbench) (key : QualName) :
    w.Grows c (ReflTransGen c.Contains key) (stateAfter (Bench.flatten c o key) w) := by
  obtain ⟨hgrows, -⟩ := leads_flattenWithin c o (c.structs.length + 1) w.pending key w rfl
  exact hgrows.mono fun d hd => hd.1

theorem mem_keys_flatten_iff :
    key ∈ (stateAfter (Bench.flatten c o key) w).memo.keys ↔
      ∃ f, outcome (Bench.flatten c o key) w = .ok f := by
  obtain ⟨-, hsuccess⟩ := leads_flattenWithin c o (c.structs.length + 1) w.pending key w rfl
  constructor
  · intro hkey
    cases hr : outcome (Bench.flatten c o key) w with
    | ok f => exact ⟨f, rfl⟩
    | error e => exact absurd hkey (not_mem_of_flattenWithin hr)
  · rintro ⟨f, hf⟩
    exact (hsuccess f hf).2 key rfl

theorem left_flatten (c : Catalog) (o : Options) (w : Workbench) (key : QualName) :
    w.Left c (some key) (∃ f, outcome (Bench.flatten c o key) w = .ok f)
      (stateAfter (Bench.flatten c o key) w) := by
  have hgrows := grows_flatten c o w key
  obtain ⟨new, hentries, hcomputed, hnew⟩ := hgrows.exists_new
  refine ⟨hgrows.underway, ⟨new, hentries, hcomputed, fun f hf => ⟨key, rfl, hnew f hf⟩⟩, ?_⟩
  intro d hd
  rw [← Option.some.inj hd]
  exact mem_keys_flatten_iff

/-! ### Asking for a size -/

theorem stateAfter_sizeOf_struct :
    stateAfter (Bench.sizeOf c o (.struct key)) w = stateAfter (Bench.flatten c o key) w := by
  cases hr : outcome (Bench.flatten c o key) w with
  | ok f => exact stateAfter_bind_ok hr
  | error e => exact stateAfter_bind_error hr

theorem outcome_sizeOf_struct :
    (∃ e, outcome (Bench.sizeOf c o (.struct key)) w = .ok e) ↔
      ∃ f, outcome (Bench.flatten c o key) w = .ok f := by
  cases hr : outcome (Bench.flatten c o key) w with
  | ok f => exact iff_of_true ⟨_, outcome_bind_ok hr⟩ ⟨f, rfl⟩
  | error e =>
    have hsize : outcome (Bench.sizeOf c o (.struct key)) w = .error e := outcome_bind_error hr
    simp [hsize]

theorem stateAfter_sizeOf_of_none {type : Binding} (h : type.struct? = none) :
    stateAfter (Bench.sizeOf c o type) w = w := by
  cases type with
  | struct key => cases h
  | _ => rfl

theorem left_sizeOf (c : Catalog) (o : Options) (w : Workbench) (type : Binding) :
    w.Left c type.struct? (∃ e, outcome (Bench.sizeOf c o type) w = .ok e)
      (stateAfter (Bench.sizeOf c o type) w) := by
  cases hasked : type.struct? with
  | none =>
    rw [stateAfter_sizeOf_of_none hasked]
    exact ⟨rfl, ⟨[], by simp⟩, nofun⟩
  | some key =>
    obtain rfl : type = .struct key := by
      cases type <;> cases hasked
      rfl
    rw [stateAfter_sizeOf_struct, outcome_sizeOf_struct]
    exact left_flatten c o w key

end Workbench

/-! ### Calls -/

/-- **A call leaves a consistent workbench, also if it fails.** Whatever the workbench was, and
whether the call succeeds or not: the same structs are under way behind it; what was finished is
still there, in the same order and in front; as many layouts were counted as there are new structs;
each new struct is contained in the one that was asked for, at some depth; and that one is finished
exactly if the call succeeded. -/
theorem calls_leave_consistent (c : Catalog) (o : Options) (w : Workbench) :
    (∀ key, w.Left c (some key) (∃ f, outcome (Bench.flatten c o key) w = .ok f)
      (stateAfter (Bench.flatten c o key) w)) ∧
    ∀ type : Binding, w.Left c type.struct? (∃ e, outcome (Bench.sizeOf c o type) w = .ok e)
      (stateAfter (Bench.sizeOf c o type) w) :=
  ⟨w.left_flatten c o, w.left_sizeOf c o⟩

/-- A struct whose second field has no type, so that its first field is laid out in vain. -/
def brokenCatalog : Catalog :=
  let whole := (StructDecl.ofName "Whole").push (.field (.ofNames (.named "int") ["value"]))
  let front := (StructDecl.ofName "Broken").push (.field (.ofNames (.named "Whole") ["whole"]))
  let broken := front.push (.field (.ofNames (.named "Absent") ["absent"]))
  ⟨[(⟨"Whole"⟩, whole), (⟨"Broken"⟩, broken)], [], [], [], []⟩

example :
    let steps := Bench.flatten brokenCatalog (.ofPointerWidth 8) ⟨"Broken"⟩
    let w := stateAfter steps .empty
    outcome steps .empty = .error (.unresolvedType "Absent" "Broken") ∧
      w.memo.keys = [⟨"Whole"⟩] ∧ w.computed = 1 ∧ w.pending = [] := by
  decide +kernel

/-- What a workbench becomes when it is asked for the sizes of some types, one after the other.
Whether that succeeds is not looked at. -/
def Workbench.afterSizes (c : Catalog) (o : Options) (w : Workbench) (types : List Binding) :
    Workbench :=
  types.foldl (fun w type => stateAfter (Bench.sizeOf c o type) w) w

/-- **Many calls** do what each of them does. They may fail in between. -/
theorem Workbench.left_afterSizes (c : Catalog) (o : Options) (w : Workbench)
    (types : List Binding) :
    (w.afterSizes c o types).pending = w.pending ∧
    ∃ new, (w.afterSizes c o types).memo.entries = w.memo.entries ++ new ∧
      (w.afterSizes c o types).computed = w.computed + new.length ∧
      ∀ f ∈ new, ∃ type ∈ types, ∃ key ∈ type.struct?, ReflTransGen c.Contains key f.key := by
  induction types generalizing w with
  | nil => exact ⟨rfl, [], by simp [afterSizes]⟩
  | cons type types ih =>
    obtain ⟨hunderway, ⟨first, hentries, hcomputed, hfirst⟩, -⟩ := w.left_sizeOf c o type
    obtain ⟨hunderway', rest, hentries', hcomputed', hrest⟩ :=
      ih (stateAfter (Bench.sizeOf c o type) w)
    refine ⟨hunderway'.trans hunderway, first ++ rest, ?_, ?_, fun f hf => ?_⟩
    · rw [← List.append_assoc, ← hentries]
      exact hentries'
    · rw [List.length_append, ← Nat.add_assoc, ← hcomputed]
      exact hcomputed'
    · rcases List.mem_append.1 hf with hf | hf
      · exact ⟨type, List.mem_cons_self, hfirst f hf⟩
      · obtain ⟨type', htype, hkey⟩ := hrest f hf
        exact ⟨type', List.mem_cons_of_mem _ htype, hkey⟩

end FlatLayout
