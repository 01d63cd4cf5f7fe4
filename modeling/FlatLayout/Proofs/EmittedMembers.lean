import FlatLayout.Proofs.Patch

/-!
# Nothing is lost in the flat declaration

What was placed for a struct is one list. The flat declaration is made by going through the members
of the old one, and each instance field takes what carries its number from the front of this list.
If a placed member carried the number of a field that was passed already, or of a member that takes
nothing, it would stay in front and hold back all that is behind it, and the flat declaration would
end with the fields it has so far. No check would notice.

It does not happen. A field is given its number when it is placed, a grouped field gives its number
to each of its parts, and what a nested struct contributes is renumbered on the way. So the numbers
go up along the list, and all of them are numbers of instance fields. The flat declaration can then
be read member by member: here a member is told what it gives way to by its number alone, with no
regard to what was taken before.

## Main definitions

* `Member.isInstance` — the members that give way to what was placed for them
* `FlatStruct.emittedFor` — what stands in the place of a member with a number

## Main results

* `Emitted.eq_flatMap` — what takes the place of some members, member by member
* `flatten_emits_all` — the same for the flat declarations, in which everything stands once
-/

namespace FlatLayout

/-- The member is a field that every instance has storage for. -/
def Member.isInstance : Member → Bool
  | .field g => g.isInstance
  | _ => false

/-- What stands in the flat declaration in the place of the member with a number. -/
def FlatStruct.emittedFor (f : FlatStruct) (m : Member) (i : Nat) : List Member :=
  if m.isInstance then f.emitted i else [m]

theorem Member.isInstance_of_slots {m : Member} {n : Nat} (h : m.slots n = []) :
    m.isInstance = false := by
  cases m with
  | field g => exact FlatLayout.isInstance_of_slots h
  | accessor a => rfl
  | struct s => rfl
  | enum e => rfl
  | conditional symbol ms otherwise => rfl
  | verbatim text => rfl

section

variable {f : FlatStruct} {n : Nat} {ts : List Spot}

theorem emittedFor_of_filter {g : FieldDecl} {ms : List PlacedMember} (placed : g.isInstance = true)
    (h : f.members.filter (·.source == n) = ms) :
    f.emittedFor (.field g) n = ms.map (·.toMember f.decl.name) := by
  rw [FlatStruct.emittedFor, Member.isInstance, if_pos placed, FlatStruct.emitted, h]

theorem emittedFor_of_slots {m : Member} (h : m.slots n = []) : f.emittedFor m n = [m] := by
  rw [FlatStruct.emittedFor, Member.isInstance_of_slots h]
  rfl

/-- **What takes the place of some members**, member by member: what carries the number of a field
takes the place of the field. Together this is all that was placed, in order. -/
theorem Emitted.eq_flatMap {ms out : List Member} (h : Emitted f.decl.name n ms ts out)
    (hfrom : f.HasFrom n ts) :
    out = (ms.zipIdx n).flatMap (fun (m, i) => f.emittedFor m i) ∧
      ((ms.zipIdx n).filter (·.1.isInstance)).flatMap (fun (_, i) =>
        f.members.filter (·.source == i)) = ts.flatMap Spot.members := by
  generalize hname : f.decl.name = container at h
  induction h with
  | nil n => exact ⟨rfl, rfl⟩
  | @replaced n g ms out ts us placed spots rest ih =>
    obtain ⟨hfirst, hrest⟩ := hfrom.split spots rest.slots_eq
    obtain ⟨hout, hall⟩ := ih hrest
    have hinstance : (Member.field g).isInstance = true := placed
    constructor
    · simp only [List.zipIdx_cons, List.flatMap_cons, emittedFor_of_filter placed hfirst, hname,
        ← hout]
    · simp only [List.zipIdx_cons, List.filter_cons, hinstance, if_true, List.flatMap_cons, hall,
        hfirst, List.flatMap_append]
  | @copied n m ms out ts passive rest ih =>
    obtain ⟨hout, hall⟩ := ih hfrom.skip
    have hm : m.isInstance = false := Member.isInstance_of_slots passive
    constructor
    · simp only [List.zipIdx_cons, List.flatMap_cons, emittedFor_of_slots passive, ← hout,
        List.singleton_append]
    · rw [List.zipIdx_cons, List.filter_cons_of_neg (by simp [hm]), hall]

end

section

variable {c : Catalog} {o : Options} {key : QualName} {s : StructDecl} {f : FlatStruct}

/-- **The flat declaration has all that was placed, and all that was not replaced.** It is made
member by member of the struct: an instance field gives way to what was placed with its number, in
order, and every other member is copied. What all the fields give way to, one field after the other,
is what was placed: every placed member once, in order. -/
theorem flatten_emits_all (calls : List Call) (hs : c.struct? key = some s)
    (h : outcome (Bench.flatten c o key) (Workbench.afterCalls c o calls) = .ok f) :
    f.decl.members = s.members.zipIdx.flatMap (fun (m, i) =>
      if m.isInstance then (f.members.filter (·.source == i)).map (·.toMember s.name) else [m]) ∧
    (s.members.zipIdx.filter (·.1.isInstance)).flatMap (fun (_, i) =>
      f.members.filter (·.source == i)) = f.members ∧
    (s.members.zipIdx.filter (·.1.isInstance)).flatMap (fun (_, i) =>
      (f.members.filter (·.source == i)).map (·.toMember s.name)) =
        f.members.map (·.toMember s.name) := by
  rw [outcome_flatten_eq_answer] at h
  obtain ⟨s', rule, ts, p, hs', laid⟩ := Catalog.exists_laid_of_answer h
  obtain rfl := Option.some.inj (hs.symm.trans hs')
  have hemitted : Emitted f.decl.name 0 s.members ts f.decl.members := laid.name_eq ▸ laid.emitted
  obtain ⟨hmembers, hall⟩ := hemitted.eq_flatMap laid.hasFrom
  rw [← laid.members_eq] at hall
  refine ⟨?_, hall, ?_⟩
  · rw [← laid.name_eq]
    exact hmembers
  · rw [← List.map_flatMap, hall]

end

/-! ### Fields among other members -/

/-- Fields of several kinds, with text, a static field and an accessor between them. -/
def assortedMembers : List Member := [
  .verbatim "// coordinates",
  .field (.ofNames (.named "short") ["x", "y"]),
  .field (FieldDecl.ofNames (.named "int") ["count"]).asStatic,
  .field (.ofNames (.named "Handles") ["handles"]),
  .accessor ⟨["public"], "First", .named "short", "Outer", "x", 0⟩,
  .field ((FieldDecl.ofNames (.named "IntPtr") ["spare"]).withFixedCount 2)]

/-- A struct with these members, and one that it contains. -/
def assortedCatalog : Catalog :=
  let slots := (FieldDecl.ofNames (.named "IntPtr") ["slots"]).withFixedCount 3
  let handles : List Member := [.field (.ofNames (.named "byte") ["tag"]), .field slots]
  ⟨[(⟨"Handles"⟩, ⟨["public"], "Handles", .none, none, handles⟩),
    (⟨"Outer"⟩, ⟨["public"], "Outer", .none, none, assortedMembers⟩)], [], [], [], []⟩

/-- Here the theorem says that the flat declaration stands for the members one by one: two fields in
the place of the second one, four members in the place of the nested struct, two in the place of the
buffer, and the other three as they were. -/
theorem flatten_emits_all_assorted :
    let o := Options.ofPointerWidth 8
    ∃ f, outcome (Bench.flatten assortedCatalog o ⟨"Outer"⟩)
        (Workbench.afterCalls assortedCatalog o [.flatten ⟨"Handles"⟩]) = .ok f ∧
      f.members.map (fun m => (m.name, m.source)) = [("x", 1), ("y", 1), ("handles_tag", 3),
        ("handles_Ref", 3), ("handles_slots_Start", 3), ("handles_slots", 3), ("spare_Start", 5),
        ("spare", 5)] ∧
      f.decl.members = assortedMembers.zipIdx.flatMap (fun (m, i) =>
        if m.isInstance then (f.members.filter (·.source == i)).map (·.toMember "Outer")
        else [m]) ∧
      (assortedMembers.zipIdx.filter (·.1.isInstance)).flatMap (fun (_, i) =>
        f.members.filter (·.source == i)) = f.members := by
  intro o
  have hflat : ∃ f, outcome (Bench.flatten assortedCatalog o ⟨"Outer"⟩)
        (Workbench.afterCalls assortedCatalog o [.flatten ⟨"Handles"⟩]) = .ok f ∧
      f.members.map (fun m => (m.name, m.source)) = [("x", 1), ("y", 1), ("handles_tag", 3),
        ("handles_Ref", 3), ("handles_slots_Start", 3), ("handles_slots", 3), ("spare_Start", 5),
        ("spare", 5)] := by decide +kernel
  obtain ⟨f, hf, hplaced⟩ := hflat
  obtain ⟨hmembers, hall, -⟩ := flatten_emits_all [.flatten ⟨"Handles"⟩] rfl hf
  exact ⟨f, hf, hplaced, hmembers, hall⟩

end FlatLayout
