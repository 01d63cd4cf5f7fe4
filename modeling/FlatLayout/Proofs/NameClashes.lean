import FlatLayout.Proofs.EmittedMembers
import FlatLayout.Proofs.MemberNames
import Mathlib.Data.List.Flatten

/-!
# Names that meet in the flat declaration

Spreading nested structs brings names into a struct that its author did not write, and such a name
may be taken. That is looked for when a struct is laid out, but among what was placed only. A static
field, a constant or an accessor that the author wrote has no place. It is copied into the flat
declaration all the same, and if it has the name of something that was placed, the flat declaration
declares this name twice.

There is no other way for a name to be repeated. The flat declaration has the names of the members
that were copied and of those that were placed, and the latter are different, as was checked. Which
names are placed is said by the type, so it is known without a layout whether the names of a struct
can be in the way of its flat declaration.

## Main definitions

* `StructDecl.memberNames` — the names of the fields and accessors of a struct
* `StructDecl.bystanderNames` — the names of those that take no part in the layout

## Main results

* `Emitted.names` — what takes the place of some members has their names and the placed ones
* `memberNames_nodup_iff` — when no name is repeated in a flat declaration
-/

namespace FlatLayout

/-- The names that a member declares, if it is a field or an accessor. -/
def Member.names : Member → List String
  | .field g => g.names
  | .accessor a => [a.name]
  | _ => []

/-- The names of the fields and accessors of a struct. -/
def StructDecl.memberNames (s : StructDecl) : List String := s.members.flatMap Member.names

/-- The names of the static fields, constants and accessors of a struct. -/
def StructDecl.bystanderNames (s : StructDecl) : List String :=
  (s.members.filter fun m => !m.isInstance).flatMap Member.names

theorem PlacedMember.names_toMember (m : PlacedMember) (container : String) :
    (m.toMember container).names = [m.name] := by
  unfold PlacedMember.toMember
  split
  · split <;> rfl
  · rfl

theorem flatMap_names_toMember (container : String) (ms : List PlacedMember) :
    (ms.map (·.toMember container)).flatMap Member.names = ms.map (·.name) := by
  simp only [List.flatMap_map, PlacedMember.names_toMember, ← List.map_eq_flatMap]

/-- Up to their order, the names of what takes the place of some members are those of the members
that are copied and those of what was placed. -/
theorem Emitted.names {container : String} {n : Nat} {ms out : List Member} {ts : List Spot}
    (h : Emitted container n ms ts out) :
    (out.flatMap Member.names).Perm ((ms.filter fun m => !m.isInstance).flatMap Member.names ++
      (ts.flatMap Spot.members).map (·.name)) := by
  induction h with
  | nil n => exact .nil
  | @replaced n g ms out ts us placed spots rest ih =>
    have hinstance : (Member.field g).isInstance = true := placed
    rw [List.flatMap_append, flatMap_names_toMember, List.filter_cons_of_neg (by simp [hinstance]),
      List.flatMap_append, List.map_append]
    exact (ih.append_left _).trans (List.perm_append_comm_assoc _ _ _)
  | @copied n m ms out ts passive rest ih =>
    have hm : m.isInstance = false := Member.isInstance_of_slots passive
    rw [List.flatMap_cons, List.filter_cons_of_pos (by simp [hm]), List.flatMap_cons,
      List.append_assoc]
    exact ih.append_left _

section

variable {c : Catalog} {o : Options} {key : QualName} {s : StructDecl} {f : FlatStruct}

/-- **When no name is repeated in a flat declaration**: if none of the members that take no part in
the layout has a name that is placed for the type. That the author wrote different names is not
enough, because a type has names from the structs in it and from its buffers. -/
theorem memberNames_nodup_iff (calls : List Call) (hs : c.struct? key = some s)
    (hown : s.memberNames.Nodup)
    (h : outcome (Bench.flatten c o key) (Workbench.afterCalls c o calls) = .ok f) :
    ∃ tree, c.typeTree o.pointerWidth key = some tree ∧
      (f.decl.memberNames.Nodup ↔
        ∀ name ∈ s.bystanderNames, name ∉ tree.names o.inlineNested) := by
  rw [outcome_flatten_eq_answer] at h
  obtain ⟨tree, htree⟩ := exists_typeTree_of_answer h
  obtain ⟨s', rule, ts, p, hs', laid⟩ := Catalog.exists_laid_of_answer h
  obtain rfl := Option.some.inj (hs.symm.trans hs')
  have hplaced : (f.members.map (·.name)).Perm (tree.names o.inlineNested) :=
    (names_of_answer h htree).names
  have hnames := laid.emitted.names
  rw [← laid.members_eq] at hnames
  have hbystanders : s.bystanderNames.Nodup := hown.sublist (List.filter_sublist.flatMap _)
  refine ⟨tree, htree, ?_⟩
  rw [StructDecl.memberNames, hnames.nodup_iff, List.nodup_append', ← StructDecl.bystanderNames]
  constructor
  · rintro ⟨-, -, hdisjoint⟩ name hname hin
    exact hdisjoint hname (hplaced.mem_iff.2 hin)
  · intro hfree
    refine ⟨hbystanders, nodup_of_answer h, ?_⟩
    intro name hname hin
    exact hfree name hname (hplaced.mem_iff.1 hin)

end

/-! ### A name that is taken by a static field -/

/-- A struct that is contained twice: under no name of its own in a struct with a static field of
the name that is in there, and under a name in a struct whose static field has the joined name. -/
def takenCatalog : Catalog :=
  let low : List Member := [.field (.ofNames (.named "int") ["Low"])]
  let anonymous : FieldDecl :=
    (FieldDecl.ofNames (.named "U") ["u"]).withMarkers { Markers.none with anonymous := true }
  let merging : List Member :=
    [.field (FieldDecl.ofNames (.named "int") ["Low"]).asStatic, .field anonymous]
  let joining : List Member :=
    [.field (FieldDecl.ofNames (.named "int") ["u_Low"]).asStatic,
      .field (.ofNames (.named "U") ["u"])]
  ⟨[(⟨"U"⟩, ⟨["public"], "U", .none, none, low⟩),
    (⟨"P"⟩, ⟨["public"], "P", .none, none, merging⟩),
    (⟨"Q"⟩, ⟨["public"], "Q", .none, none, joining⟩)], [], [], [], []⟩

/-- The static field of `Q` is in the way if nested structs are spread, and not if they are kept
together. -/
theorem memberNames_nodup_iff_taken :
    let flat (o : Options) := outcome (Bench.flatten takenCatalog o ⟨"Q"⟩)
      (Workbench.afterCalls takenCatalog o [.flatten ⟨"U"⟩])
    (∃ f, flat ⟨8, true, true⟩ = .ok f ∧ ¬ f.decl.memberNames.Nodup) ∧
      ∃ f, flat ⟨8, false, true⟩ = .ok f ∧ f.decl.memberNames.Nodup := by
  intro flat
  have hspread : ∃ f, flat ⟨8, true, true⟩ = .ok f ∧ f.footprint.size = 4 := by decide +kernel
  have hkept : ∃ f, flat ⟨8, false, true⟩ = .ok f ∧ f.footprint.size = 4 := by decide +kernel
  have hnames : (takenCatalog.typeTree 8 ⟨"Q"⟩).map
      (fun tree => (tree.names true, tree.names false)) =
        some (["u_Ref", "u_Low"], ["u_Start", "u_Ref"]) := by decide +kernel
  constructor
  · obtain ⟨f, hf, -⟩ := hspread
    obtain ⟨tree, htree, hiff⟩ := memberNames_nodup_iff [.flatten ⟨"U"⟩] rfl (by decide) hf
    rw [show takenCatalog.typeTree 8 ⟨"Q"⟩ = some tree from htree] at hnames
    obtain ⟨hspread, -⟩ := Prod.mk.inj (Option.some.inj hnames)
    refine ⟨f, hf, fun hnodup => ?_⟩
    have hfree := hiff.1 hnodup "u_Low" (by decide)
    rw [hspread] at hfree
    exact hfree (by decide)
  · obtain ⟨f, hf, -⟩ := hkept
    obtain ⟨tree, htree, hiff⟩ := memberNames_nodup_iff [.flatten ⟨"U"⟩] rfl (by decide) hf
    rw [show takenCatalog.typeTree 8 ⟨"Q"⟩ = some tree from htree] at hnames
    obtain ⟨-, hkept⟩ := Prod.mk.inj (Option.some.inj hnames)
    refine ⟨f, hf, hiff.2 ?_⟩
    rw [hkept]
    decide

/-- The names of the members of `P` are different, and its flat declaration has two members of one
name. -/
theorem memberNames_repeated_taken :
    let o := Options.ofPointerWidth 8
    ∃ s f, takenCatalog.struct? ⟨"P"⟩ = some s ∧ s.memberNames.Nodup ∧
      outcome (Bench.flatten takenCatalog o ⟨"P"⟩) (Workbench.afterCalls takenCatalog o []) =
        .ok f ∧
      f.decl.memberNames = ["Low", "Low"] ∧ ¬ f.decl.memberNames.Nodup := by
  intro o
  have hflat : ∃ f, outcome (Bench.flatten takenCatalog o ⟨"P"⟩)
      (Workbench.afterCalls takenCatalog o []) = .ok f ∧
        f.decl.memberNames = ["Low", "Low"] := by decide +kernel
  obtain ⟨f, hf, hnames⟩ := hflat
  refine ⟨_, f, rfl, by decide, hf, hnames, ?_⟩
  rw [hnames]
  decide

end FlatLayout
