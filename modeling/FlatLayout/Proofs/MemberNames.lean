import FlatLayout.Proofs.Resemblance

/-!
# The names of the members

Which names a flat struct uses is decided by the type alone, before anything is placed: a scalar
keeps its name, a buffer without a native form needs a second one, and a nested struct contributes
the names in there, or two names of its own. Here the names are read off the tree of the type.

They are the names of the members up to their order. The accessor of a nested struct is put behind
the first field in there, which is of no interest where the only question is whether a name is used
twice.

## Main definitions

* `nestedNames` — the names that a struct contributes as a field
* `TypeTree.names` — the names of the members of a struct type

## Main results

* `names_of_spotRun` — one struct, from the names of those that it contains
* `names_of_answer` — the members of a flat struct have the names of its type
-/

namespace FlatLayout

/-- The names that a field contributes which is a struct with the names `inner`. -/
def nestedNames (inline anonymous : Bool) (field : String) (inner : List String) : List String :=
  if inner.isEmpty then []
  else if anonymous then inner
  else if inline then refName field :: inner.map (PlacedMember.qualify (some field))
  else [startName field, refName field]

/-- The names that a field contributes which is no struct. -/
def TypeTree.leafNames (field : String) : TypeTree → List String
  | .buffer _ _ false => [startName field, field]
  | _ => [field]

section

variable (inline : Bool)

mutual

/-- The names of the members of a struct type. -/
def TypeTree.names : TypeTree → List String
  | .record _ _ fields => TreeField.namesAll fields
  | _ => []

/-- The names that a field contributes. -/
def TreeField.names : TreeField → List String
  | ⟨decl, type⟩ =>
    if type.isRecord then
      nestedNames inline (decl.markers.anonymous || type.markers.anonymous) decl.name type.names
    else type.leafNames decl.name

/-- The names that some fields contribute. -/
def TreeField.namesAll : List TreeField → List String
  | [] => []
  | g :: gs => g.names ++ TreeField.namesAll gs

end

end

theorem qualify_none : PlacedMember.qualify none = id := rfl

/-- A flat struct has the names of its type. -/
structure FlatStruct.HasNames (f : FlatStruct) (inline : Bool) (tree : TypeTree) : Prop where
  isRecord : tree.isRecord = true
  markers : tree.markers = f.markers
  names : (f.members.map (·.name)).Perm (tree.names inline)
  /-- An accessor never stands alone. -/
  fields : f.fields = [] → f.members = []

section

variable {c : Catalog} {o : Options} {child : QualName → Except LayoutError FlatStruct}
  {key : QualName} {p q : Placement} {t : Spot} {ts : List Spot} {f : FlatStruct}

/-- What a nested struct contributes is named as its type says. -/
theorem Contributed.names {g : FieldDecl} {flat : FlatStruct} {source : Nat} {offset : UInt32}
    {ms : List PlacedMember} {tree : TypeTree} (h : Contributed o g flat source offset ms)
    (htree : flat.HasNames o.inlineNested tree) :
    (ms.map (·.name)).Perm (TreeField.names o.inlineNested ⟨g, tree⟩) := by
  have hempty : (tree.names o.inlineNested).isEmpty = true ↔ flat.members = [] := by
    rw [List.isEmpty_iff, ← List.length_eq_zero_iff, ← htree.names.length_eq, List.length_map,
      List.length_eq_zero_iff]
  have hne : flat.fields ≠ [] → ¬ (tree.names o.inlineNested).isEmpty = true := by
    intro hfields hnil
    rw [FlatStruct.fields, hempty.1 hnil] at hfields
    exact hfields rfl
  rw [TreeField.names, if_pos htree.isRecord, htree.markers, nestedNames]
  cases h with
  | childless hfields => rw [if_pos (hempty.2 (htree.fields hfields))]; exact .nil
  | merged hfields hanonymous moved =>
    rw [if_neg (hne hfields), if_pos hanonymous, names_of_moved moved, qualify_none, List.map_id]
    exact htree.names
  | @spread before after first hnamed hinline moved _ hfirst =>
    have hfields : flat.fields ≠ [] := by
      intro hnil
      have hlength := (moved_filter moved).length_eq
      rw [← FlatStruct.fields, hnil] at hlength
      have hmem : first ∈ (before ++ first :: after).filter fun m => !m.isAccessor := by
        rw [List.mem_filter]
        exact ⟨by simp, by simp [hfirst]⟩
      rw [List.length_eq_zero_iff.1 hlength.symm] at hmem
      cases hmem
    rw [if_neg (hne hfields), hnamed, if_neg (by decide), if_pos hinline]
    have hmoved := htree.names.map (PlacedMember.qualify (some g.name))
    rw [← names_of_moved moved] at hmoved
    let reference := PlacedMember.nestedAccessor g first.name offset source
    have hmiddle : (before ++ first :: reference :: after).Perm
        (reference :: (before ++ first :: after)) := by
      rw [List.append_cons before first (reference :: after), List.append_cons before first after]
      exact List.perm_middle
    exact (hmiddle.map _).trans (hmoved.cons _)
  | kept hfields hnamed hinline =>
    rw [if_neg (hne (by rw [hfields]; exact List.cons_ne_nil _ _)), hnamed, if_neg (by decide),
      hinline, if_neg (by decide)]
    exact .refl _

/-- What a field contributes is named as its type says. -/
theorem SpotStep.names (h : SpotStep c o child key p t q) {trees : QualName → Option TypeTree}
    {g : TreeField} (hmatch : g.Matches o.pointerWidth trees t)
    (hchild : ∀ d flat tree, t.type = .struct d → child d = .ok flat → trees d = some tree →
      flat.HasNames o.inlineNested tree) :
    (t.members.map (·.name)).Perm (g.names o.inlineNested) := by
  obtain ⟨decl, type⟩ := g
  obtain ⟨rfl, htype⟩ := hmatch
  cases h.filled with
  | scalar hcount helement hmembers =>
    obtain rfl := Option.some.inj ((fieldTree_scalar hcount (helement ▸ h.made)).symm.trans htype)
    rw [hmembers, TreeField.names]
    exact .refl _
  | native count size hcount helement hnative _ hmembers =>
    obtain rfl := Option.some.inj ((fieldTree_buffer hcount (helement ▸ h.made)).symm.trans htype)
    rw [hmembers, TreeField.names, hnative]
    exact .refl _
  | started count size hcount helement hnative _ hmembers =>
    obtain rfl := Option.some.inj ((fieldTree_buffer hcount (helement ▸ h.made)).symm.trans htype)
    rw [hmembers, TreeField.names, hnative]
    exact .refl _
  | nested flat hcount helement _ hmembers =>
    obtain ⟨d, hstruct, hflat⟩ := exists_struct_of_made (helement ▸ h.made)
    rw [hstruct, fieldTree_struct hcount] at htype
    exact (contributed_of_nestedMembers hmembers).names (hchild d flat type hstruct hflat htype)

/-- **The members of one struct** are named as its fields say. -/
theorem names_of_spotRun (hrun : SpotRun c o child key p ts q)
    {trees : QualName → Option TypeTree} {fields : List TreeField}
    (hmatches : List.Forall₂ (TreeField.Matches o.pointerWidth trees) fields ts)
    (hchild : ∀ t ∈ ts, ∀ d flat tree, t.type = .struct d → child d = .ok flat →
      trees d = some tree → flat.HasNames o.inlineNested tree) :
    ((ts.flatMap Spot.members).map (·.name)).Perm (TreeField.namesAll o.inlineNested fields) := by
  induction hrun generalizing fields with
  | nil p =>
    cases hmatches
    rw [TreeField.namesAll]
    exact .nil
  | cons first rest ih =>
    cases hmatches with
    | cons hg hgs =>
      rw [List.flatMap_cons, List.map_append, TreeField.namesAll]
      refine (first.names hg (hchild _ List.mem_cons_self)).append (ih hgs ?_)
      exact fun t ht => hchild t (List.mem_cons_of_mem _ ht)

/-- **The members of a flat struct have the names of its type.** -/
theorem names_of_answer (h : c.answer o key = .ok f) {n : Nat} {tree : TypeTree}
    (htree : c.typeTreeWithin o.pointerWidth n key = some tree) :
    f.HasNames o.inlineNested tree := by
  refine Catalog.answer_induction (motive := fun _ key f => c.answer o key = .ok f → ∀ n tree,
    c.typeTreeWithin o.pointerWidth n key = some tree → f.HasNames o.inlineNested tree)
    ?_ h h n tree htree
  intro _ key s rule ts p f hs laid ih h n tree htree
  obtain ⟨m, s', fields, rfl, hs', hfields, rfl⟩ := typeTreeWithin_eq_some htree
  obtain rfl := Option.some.inj (hs.symm.trans hs')
  refine ⟨rfl, laid.markers_eq.symm, ?_, members_eq_nil_of_answer h⟩
  rw [laid.members_eq, TypeTree.names]
  refine names_of_spotRun laid.run (laid.matches_of_mapM hfields) ?_
  intro t ht d flat tree htype hflat htree
  have hd : c.Contains key d := (laid.contains_iff hs).2 ⟨t, ht, htype⟩
  exact ih d flat hd hflat hflat m tree htree

end

end FlatLayout
