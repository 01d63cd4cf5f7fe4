import FlatLayout.Proofs.Rewriting

/-!
# Rewriting as a local change

A marked struct is not rewritten where it stands. It is looked up by its name, its flat declaration
is taken from the workbench, and what is nested in there is rewritten in turn; the declaration at
hand only says that it is marked. Still, where no name is used twice, the new unit is the old one
with a few local changes, and nothing else has moved. `SourceUnit.patched` makes these changes on
the old tree. All that it has to be told is the flat struct of each name.

## What is changed

* Anonymous structs and marker classes are gone, with all that is in them.
* There are no markers.
* In a marked struct the layout attribute is that of the flat struct, and each instance field has
  given way to the members that carry its number.

Everything else is copied by `patched` as it is, in its place: this can be read off its definition,
which has no other cases.

## Main definitions

* `SourceUnit.patched` — the unit with these changes
* `SourceUnit.survivors` — the structs that are not dropped, containers first
* `FlatStruct.emitted` — the members made for the field with a number
* `FlatStruct.HasFrom` — what was placed from a number on

## Main results

* `patchedAll_of_answer` — patching a flat declaration is patching the struct it was made from
* `flattenMarked_patches` — flattening the marked structs of a unit patches it
-/

namespace FlatLayout

/-- The members that are made for the field with a number. -/
def FlatStruct.emitted (f : FlatStruct) (n : Nat) : List Member :=
  (f.members.filter (·.source == n)).map (·.toMember f.decl.name)

section

variable (flat : QualName → Option FlatStruct)

mutual

/-- What takes the place of the member with a number of the struct `key`. The struct is replaced by
`place`, if by anything. -/
def Member.patched (key : QualName) (place : Option FlatStruct) (n : Nat) : Member → List Member
  | .field g =>
    match place, g.isInstance with
    | some f, true => f.emitted n
    | _, _ => [.field { g with markers := .none }]
  | .struct s => ((StructDecl.patched (key.child s.name) s).map Member.struct).toList
  | m => [m]

/-- What takes the place of the struct `key`: nothing if it is anonymous. -/
def StructDecl.patched (key : QualName) : StructDecl → Option StructDecl
  | ⟨modifiers, name, markers, layout, members⟩ =>
    if markers.anonymous then none
    else
      let place := if markers.flatten then flat key else none
      some ⟨modifiers, name, .none, (place.map fun f => .flat f.footprint.size).or layout,
        Member.patchedAll key place 0 members⟩

/-- What takes the place of some members, which are counted from `n` on. -/
def Member.patchedAll (key : QualName) (place : Option FlatStruct) : Nat → List Member → List Member
  | _, [] => []
  | n, m :: ms => m.patched key place n ++ Member.patchedAll key place (n + 1) ms

end

/-- What takes the place of an item: nothing if it is a marker class. -/
def Item.patched (space : Option String) : Item → List Item
  | .struct s => ((s.patched flat (.root space s.name)).map Item.struct).toList
  | .classDecl d => if isMarkerClass d.name d.base then [] else [.classDecl d]
  | i => [i]

/-- The unit with all changes made. Its name, its namespace and its imports stay. -/
def SourceUnit.patched (u : SourceUnit) : SourceUnit :=
  { u with items := u.items.flatMap (Item.patched flat u.namespaceName) }

end

mutual

/-- The structs in a member that are not dropped. -/
def Member.survivors (key : QualName) : Member → List (QualName × StructDecl)
  | .struct s => StructDecl.survivors (key.child s.name) s
  | _ => []

/-- The struct `key` and the structs in there, the container first, unless they are dropped. -/
def StructDecl.survivors (key : QualName) : StructDecl → List (QualName × StructDecl)
  | ⟨modifiers, name, markers, layout, members⟩ =>
    if markers.anonymous then []
    else (key, ⟨modifiers, name, markers, layout, members⟩) :: Member.survivorsAll key members

/-- The structs in some members that are not dropped. -/
def Member.survivorsAll (key : QualName) : List Member → List (QualName × StructDecl)
  | [] => []
  | m :: ms => m.survivors key ++ Member.survivorsAll key ms

end

/-- The structs in an item that are not dropped. -/
def Item.survivors (space : Option String) : Item → List (QualName × StructDecl)
  | .struct s => s.survivors (.root space s.name)
  | _ => []

/-- The structs of a unit that are not dropped, in the order in which they stand there, each in
front of what is nested in it. -/
def SourceUnit.survivors (u : SourceUnit) : List (QualName × StructDecl) :=
  u.items.flatMap (Item.survivors u.namespaceName)

section

variable {flat : QualName → Option FlatStruct} {c : Catalog} {o : Options} {key : QualName}
  {f : FlatStruct}

/-! ### Members and their numbers -/

/-- In a struct that is copied the numbers do not matter. -/
theorem patchedAll_none (n : Nat) (ms : List Member) :
    Member.patchedAll flat key none n ms = ms.flatMap (Member.patched flat key none 0) := by
  induction ms generalizing n with
  | nil => rw [Member.patchedAll, List.flatMap_nil]
  | cons m ms ih =>
    rw [Member.patchedAll, List.flatMap_cons, ih]
    congr 1
    cases m <;> simp [Member.patched]

theorem survivorsAll_eq (ms : List Member) :
    Member.survivorsAll key ms = ms.flatMap (Member.survivors key) := by
  induction ms with
  | nil => rw [Member.survivorsAll, List.flatMap_nil]
  | cons m ms ih => rw [Member.survivorsAll, List.flatMap_cons, ih]

theorem flatMap_eq_self {α : Type} {f : α → List α} {as : List α} (h : ∀ a ∈ as, f a = [a]) :
    as.flatMap f = as := by
  induction as with
  | nil => rfl
  | cons a as ih =>
    rw [List.flatMap_cons, h a List.mem_cons_self, ih fun b hb => h b (List.mem_cons_of_mem _ hb)]
    rfl

/-- What was placed is left alone. -/
theorem flatMap_patched_toMember (container : String) (ms : List PlacedMember) :
    (ms.map (·.toMember container)).flatMap (Member.patched flat key none 0) =
      ms.map (·.toMember container) := by
  refine flatMap_eq_self fun m hm => ?_
  obtain ⟨p, -, rfl⟩ := List.mem_map.1 hm
  unfold PlacedMember.toMember
  split
  · split <;> simp [Member.patched, PlacedMember.toField]
  · simp [Member.patched, PlacedMember.toField]

/-- What was placed is no struct. -/
theorem flatMap_survivors_toMember (container : String) (ms : List PlacedMember) :
    (ms.map (·.toMember container)).flatMap (Member.survivors key) = [] := by
  refine List.flatMap_eq_nil_iff.2 fun m hm => ?_
  obtain ⟨p, -, rfl⟩ := List.mem_map.1 hm
  unfold PlacedMember.toMember
  split
  · split <;> simp [Member.survivors]
  · simp [Member.survivors]

/-- The spots of some fields have the numbers of the fields. -/
theorem Emitted.slots_eq {container : String} {n : Nat} {ms out : List Member} {ts : List Spot}
    (h : Emitted container n ms ts out) : memberSlots n ms = ts.map Spot.slot := by
  induction h with
  | nil n => rfl
  | replaced placed spots rest ih => rw [memberSlots_cons, spots, ih, List.map_append]
  | copied passive rest ih => rw [memberSlots_cons, passive, ih, List.nil_append]

/-- Of what was placed for a field and for those behind it, the number of the field tells the first
part. -/
theorem filter_source {n : Nat} {ts us : List Spot} {ms : List Member} {g : FieldDecl}
    (hsource : ∀ t ∈ ts ++ us, ∀ m ∈ t.members, m.source = t.source)
    (hts : (Member.field g).slots n = ts.map Spot.slot)
    (hus : memberSlots (n + 1) ms = us.map Spot.slot) :
    ((ts ++ us).flatMap Spot.members).filter (·.source == n) = ts.flatMap Spot.members ∧
      ∀ i, n + 1 ≤ i → ((ts ++ us).flatMap Spot.members).filter (·.source == i) =
        (us.flatMap Spot.members).filter (·.source == i) := by
  have hhere : ∀ m ∈ ts.flatMap Spot.members, m.source = n := by
    intro m hm
    obtain ⟨t, ht, hm⟩ := List.mem_flatMap.1 hm
    rw [hsource t (List.mem_append_left _ ht) m hm]
    exact source_of_mem_slots (hts ▸ List.mem_map_of_mem (f := Spot.slot) ht)
  have hbehind : ∀ m ∈ us.flatMap Spot.members, n + 1 ≤ m.source := by
    intro m hm
    obtain ⟨t, ht, hm⟩ := List.mem_flatMap.1 hm
    rw [hsource t (List.mem_append_right _ ht) m hm]
    exact source_of_mem_memberSlots (hus ▸ List.mem_map_of_mem (f := Spot.slot) ht)
  simp only [List.flatMap_append, List.filter_append]
  constructor
  · rw [List.filter_eq_self.2 fun m hm => by simp [hhere m hm], List.filter_eq_nil_iff.2,
      List.append_nil]
    intro m hm
    have := hbehind m hm
    simp only [beq_iff_eq]
    omega
  · intro i hi
    rw [List.filter_eq_nil_iff.2, List.nil_append]
    intro m hm
    have := hhere m hm
    simp only [beq_iff_eq]
    omega

/-- The spots are those of the members that are counted from `n` on: what they contribute is what
the flat struct has under these numbers. -/
structure FlatStruct.HasFrom (f : FlatStruct) (n : Nat) (ts : List Spot) : Prop where
  source : ∀ t ∈ ts, ∀ m ∈ t.members, m.source = t.source
  placed : ∀ i, n ≤ i → f.members.filter (·.source == i) =
    (ts.flatMap Spot.members).filter (·.source == i)

section

variable {f : FlatStruct} {n : Nat} {ts us : List Spot}

theorem FlatStruct.HasFrom.skip (h : f.HasFrom n ts) : f.HasFrom (n + 1) ts where
  source := h.source
  placed := fun i hi => h.placed i (by omega)

/-- The number of a field tells what was placed for it from what was placed for those behind it. -/
theorem FlatStruct.HasFrom.split {g : FieldDecl} {ms : List Member} (h : f.HasFrom n (ts ++ us))
    (spots : (Member.field g).slots n = ts.map Spot.slot)
    (rest : memberSlots (n + 1) ms = us.map Spot.slot) :
    f.members.filter (·.source == n) = ts.flatMap Spot.members ∧ f.HasFrom (n + 1) us := by
  obtain ⟨hhere, hbehind⟩ := filter_source h.source spots rest
  refine ⟨(h.placed n (Nat.le_refl n)).trans hhere, ?_, ?_⟩
  · intro t ht
    exact h.source t (List.mem_append_right _ ht)
  · intro i hi
    rw [h.placed i (by omega), hbehind i hi]

end

/-- Patching what was emitted is patching what it was emitted for. -/
theorem Emitted.patchedAll {n : Nat} {ms out : List Member} {ts : List Spot}
    (h : Emitted f.decl.name n ms ts out) (hfrom : f.HasFrom n ts) :
    out.flatMap (Member.patched flat key none 0) = Member.patchedAll flat key (some f) n ms := by
  generalize hname : f.decl.name = container at h
  induction h with
  | nil n => rw [Member.patchedAll, List.flatMap_nil]
  | @replaced n g ms out ts us placed spots rest ih =>
    obtain ⟨hfirst, hrest⟩ := hfrom.split spots rest.slots_eq
    rw [List.flatMap_append, flatMap_patched_toMember, Member.patchedAll, Member.patched,
      FlatStruct.emitted, hfirst, hname, ih hrest]
    exact placed
  | @copied n m ms out ts passive rest ih =>
    have hm : m.patched flat key none 0 = m.patched flat key (some f) n := by
      cases m with
      | field g => simp [Member.patched, isInstance_of_slots passive]
      | accessor a => simp [Member.patched]
      | struct s => simp [Member.patched]
      | enum e => simp [Member.patched]
      | conditional symbol ms otherwise => simp [Member.patched]
      | verbatim text => simp [Member.patched]
    rw [List.flatMap_cons, hm, Member.patchedAll, ih hfrom.skip]

theorem Emitted.survivorsAll {container : String} {n : Nat} {ms out : List Member} {ts : List Spot}
    (h : Emitted container n ms ts out) :
    Member.survivorsAll key out = Member.survivorsAll key ms := by
  rw [survivorsAll_eq, survivorsAll_eq]
  induction h with
  | nil n => rfl
  | replaced placed spots rest ih =>
    rw [List.flatMap_append, flatMap_survivors_toMember, ih, List.flatMap_cons, Member.survivors]
    nofun
  | copied passive rest ih => rw [List.flatMap_cons, List.flatMap_cons, ih]

/-- What is placed carries the number of the field that it was placed for. -/
theorem Laid.hasFrom {rule : LayoutRule} {ts : List Spot} {p : Placement}
    {child : QualName → Except LayoutError FlatStruct} (laid : Laid c o child key s rule ts p f) :
    f.HasFrom 0 ts where
  source := by
    intro t ht m hm
    obtain ⟨_, _, hstep⟩ := laid.run.exists_step ht
    exact hstep.filled.source hm
  placed := fun i _ => by rw [laid.members_eq]

theorem Laid.name_eq {rule : LayoutRule} {ts : List Spot} {p : Placement}
    {child : QualName → Except LayoutError FlatStruct} (laid : Laid c o child key s rule ts p f) :
    f.decl.name = s.name := by
  rw [laid.decl_eq]
  rfl

/-- **Patching a flat declaration** is patching the struct that it was made from. -/
theorem patchedAll_of_answer (flat : QualName → Option FlatStruct) {s : StructDecl}
    (h : c.answer o key = .ok f) (hs : c.struct? key = some s) :
    Member.patchedAll flat key none 0 f.decl.members =
        Member.patchedAll flat key (some f) 0 s.members ∧
      Member.survivorsAll key f.decl.members = Member.survivorsAll key s.members := by
  obtain ⟨s', rule, ts, p, hs', laid⟩ := Catalog.exists_laid_of_answer h
  obtain rfl := Option.some.inj (hs.symm.trans hs')
  have hemitted : Emitted f.decl.name 0 s.members ts f.decl.members := laid.name_eq ▸ laid.emitted
  refine ⟨?_, laid.emitted.survivorsAll⟩
  rw [patchedAll_none]
  exact hemitted.patchedAll laid.hasFrom

/-! ### From the rules to the patch -/

/-- The flat structs of a catalog, as far as there are any. -/
def Catalog.flat? (c : Catalog) (o : Options) (k : QualName) : Option FlatStruct :=
  (c.flatten o k).toOption

theorem flat?_of_answer (h : c.answer o key = .ok f) : c.flat? o key = some f := by
  rw [Catalog.flat?, flatten_eq_answer, h]
  rfl

/-- A struct is patched, if what is nested in its shell is. -/
theorem Shell.patched {s t : StructDecl} {inner : List Member} {ws : List (QualName × StructDecl)}
    (h : Shell c o key s t) (hs : c.struct? key = some s)
    (hinner : inner = Member.patchedAll (c.flat? o) key none 0 t.members ∧
      ws = Member.survivorsAll key t.members) :
    some { t with members := inner } = s.patched (c.flat? o) key ∧
      (key, s) :: ws = s.survivors key := by
  obtain ⟨rfl, rfl⟩ := hinner
  obtain ⟨modifiers, name, markers, layout, members⟩ := s
  cases h with
  | copied named unmarked =>
    simp only at named unmarked
    simp [StructDecl.patched, StructDecl.survivors, named, unmarked]
  | @flattened f named marked flat =>
    simp only at named marked
    obtain ⟨hpatched, hsurvivors⟩ := patchedAll_of_answer (c.flat? o) flat hs
    rw [hpatched, hsurvivors, decl_of_answer flat hs]
    simp [StructDecl.patched, StructDecl.survivors, named, marked, flat?_of_answer flat,
      StructDecl.withPlaced]

theorem patched_of_anonymous (flat : QualName → Option FlatStruct) (key : QualName)
    {s : StructDecl} (h : s.markers.anonymous = true) :
    s.patched flat key = none ∧ s.survivors key = [] := by
  obtain ⟨modifiers, name, markers, layout, members⟩ := s
  simp only at h
  simp [StructDecl.patched, StructDecl.survivors, h]

/-- What is nested in the shell of a struct was nested in the struct. -/
theorem Shell.knows {s t : StructDecl} (h : Shell c o key s t)
    (hknows : c.Knows (s.declarations key)) : c.Knows (Member.declarationsAll key t.members) := by
  rw [(h.declarations_eq (knows_self hknows)).2]
  rw [StructDecl.declarations_eq] at hknows
  exact hknows.of_subset (List.subset_append_left _ _)

/-- **The rules amount to a patch**, where every struct is the one that the catalog has. -/
theorem TreatedAll.eq_patched {ms out : List Member} {vs : List (QualName × StructDecl)}
    (h : TreatedAll c o key ms out vs) (hknows : c.Knows (Member.declarationsAll key ms))
    (n : Nat) :
    out = Member.patchedAll (c.flat? o) key none n ms ∧ vs = Member.survivorsAll key ms := by
  induction h generalizing n with
  | nil key => simp [Member.patchedAll, Member.survivorsAll]
  | field g rest ih =>
    rw [Member.declarationsAll] at hknows
    obtain ⟨hout, hvs⟩ := ih (hknows.of_subset (List.subset_append_right _ _)) (n + 1)
    simp [Member.patchedAll, Member.survivorsAll, Member.patched, Member.survivors, ← hout, ← hvs]
  | @struct key s t inner ms out ws vs shell inside rest ihInside ihRest =>
    rw [Member.declarationsAll, Member.declarations] at hknows
    have hs := hknows.of_subset (List.subset_append_left _ _)
    obtain ⟨hout, hvs⟩ := ihRest (hknows.of_subset (List.subset_append_right _ _)) (n + 1)
    obtain ⟨hpatched, hsurvivors⟩ := shell.patched (knows_self hs)
      (ihInside (shell.knows hs) 0)
    rw [Member.patchedAll, Member.survivorsAll, Member.patched, Member.survivors, ← hpatched,
      ← hsurvivors, ← hout, ← hvs]
    simp
  | @dropped key s ms out vs anonymous rest ih =>
    rw [Member.declarationsAll] at hknows
    obtain ⟨hout, hvs⟩ := ih (hknows.of_subset (List.subset_append_right _ _)) (n + 1)
    obtain ⟨hpatched, hsurvivors⟩ := patched_of_anonymous (c.flat? o) (key.child s.name) anonymous
    rw [Member.patchedAll, Member.survivorsAll, Member.patched, Member.survivors, hpatched,
      hsurvivors, ← hout, ← hvs]
    simp
  | @copied key m ms out vs nofield nostruct rest ih =>
    rw [Member.declarationsAll] at hknows
    obtain ⟨hout, hvs⟩ := ih (hknows.of_subset (List.subset_append_right _ _)) (n + 1)
    rw [Member.patchedAll, Member.survivorsAll, ← hout, ← hvs]
    cases m with
    | field g => cases nofield
    | struct s => cases nostruct
    | accessor a => simp [Member.patched, Member.survivors]
    | enum e => simp [Member.patched, Member.survivors]
    | conditional symbol ms otherwise => simp [Member.patched, Member.survivors]
    | verbatim text => simp [Member.patched, Member.survivors]

theorem TreatedItems.eq_patched {space : Option String} {is out : List Item}
    {vs : List (QualName × StructDecl)} (h : TreatedItems c o space is out vs)
    (hknows : c.Knows (is.flatMap (Item.declarations space))) :
    out = is.flatMap (Item.patched (c.flat? o) space) ∧
      vs = is.flatMap (Item.survivors space) := by
  induction h with
  | nil => exact ⟨rfl, rfl⟩
  | @struct s s' is out ws vs treated rest ih =>
    rw [List.flatMap_cons] at hknows
    have hs : c.Knows (s.declarations (.root space s.name)) :=
      hknows.of_subset (List.subset_append_left _ _)
    obtain ⟨hout, hvs⟩ := ih (hknows.of_subset (List.subset_append_right _ _))
    obtain ⟨t, inner, inside, hshell, hinside, rfl, rfl⟩ := treated
    obtain ⟨hpatched, hsurvivors⟩ := hshell.patched (knows_self hs)
      (hinside.eq_patched (hshell.knows hs) 0)
    rw [List.flatMap_cons, List.flatMap_cons, Item.patched, Item.survivors, ← hpatched,
      ← hsurvivors, ← hout, ← hvs]
    simp
  | @dropped s is out vs anonymous rest ih =>
    rw [List.flatMap_cons] at hknows
    obtain ⟨hout, hvs⟩ := ih (hknows.of_subset (List.subset_append_right _ _))
    obtain ⟨hpatched, hsurvivors⟩ :=
      patched_of_anonymous (c.flat? o) (.root space s.name) anonymous
    rw [List.flatMap_cons, List.flatMap_cons, Item.patched, Item.survivors, hpatched, hsurvivors,
      ← hout, ← hvs]
    simp
  | @droppedClass d is out vs marker rest ih =>
    rw [List.flatMap_cons] at hknows
    obtain ⟨hout, hvs⟩ := ih (hknows.of_subset (List.subset_append_right _ _))
    rw [List.flatMap_cons, List.flatMap_cons, Item.patched, if_pos marker, ← hout, ← hvs]
    simp [Item.survivors]
  | @copied i is out vs nostruct nomarker rest ih =>
    rw [List.flatMap_cons] at hknows
    obtain ⟨hout, hvs⟩ := ih (hknows.of_subset (List.subset_append_right _ _))
    rw [List.flatMap_cons, List.flatMap_cons, ← hout, ← hvs]
    cases i with
    | struct s => cases nostruct
    | classDecl d => simp [Item.patched, Item.survivors, nomarker d rfl]
    | enum e => simp [Item.patched, Item.survivors]
    | verbatim text => simp [Item.patched, Item.survivors]

end

/-- **Flattening the marked structs of a unit is a local change.** Take a unit in which no struct is
declared twice, and a catalog in which it comes first. If flattening succeeds, behind any calls, the
new unit is the old one patched with the flat structs of the catalog; and what was replaced is
listed in the order of the unit, containers first: the flat structs of exactly those marked structs
that are not dropped. -/
theorem flattenMarked_patches {c : Catalog} {o : Options} {u u' : SourceUnit}
    {others : List SourceUnit} (hc : c = .ofUnits (u :: others)) (hdistinct : u.structKeys.Nodup)
    (calls : List Call) (before : List FlatStruct)
    (h : outcome (u.flattenMarked c o) ⟨Workbench.afterCalls c o calls, before⟩ = .ok u') :
    u' = u.patched (c.flat? o) ∧
    ∃ flats, (stateAfter (u.flattenMarked c o)
        ⟨Workbench.afterCalls c o calls, before⟩).replaced = before ++ flats ∧
      List.Forall₂ (fun v f => f.key = v.1 ∧ c.flatten o v.1 = .ok f)
        (u.survivors.filter (·.2.markers.flatten)) flats := by
  obtain ⟨flats, hadvances, items, vs, htreated, hflats, rfl⟩ := drafts_flattenMarked c o u
    ⟨Workbench.afterCalls c o calls, before⟩ (faithful_afterCalls c o calls) u' h
  obtain ⟨rfl, rfl⟩ := htreated.eq_patched (hc ▸ knows_ofUnits hdistinct others)
  refine ⟨rfl, flats, hadvances.replaced, hflats.imp fun v f hf => ⟨key_of_flattenUnder hf, ?_⟩⟩
  rw [flatten_eq_answer, hf]

/-- A unit with something of everything: a marked struct among whose members stand a static field, a
nested struct with a further marked one in it, and text; and things that are dropped, one of them
with a marked struct in it. -/
def mixedUnit : SourceUnit :=
  let field (type name : String) : FieldDecl := .ofNames (.named type) [name]
  let struct (name : String) (markers : Markers) (members : List Member) : StructDecl :=
    ⟨["public"], name, markers, none, members⟩
  ⟨"a.cs", some "Game", ["System"], [
    .classDecl ⟨["public"], "FlattenAttribute", some "Attribute", []⟩,
    .verbatim "// first",
    .struct (struct "Outer" (Markers.none.insert .flatten) [
      .verbatim "// inside",
      .field (field "Pair" "pair"),
      .field ((field "int" "count").asStatic.withMarkers (Markers.none.insert .flatten)),
      .struct (struct "Middle" .none [
        .field (field "long" "big"),
        .struct (struct "Deep" (Markers.none.insert .flatten) [.field (field "byte" "tag")])]),
      .field (field "byte" "last")]),
    .struct (struct "Gone" (Markers.none.insert .anonymous) [
      .struct (struct "Lost" (Markers.none.insert .flatten) [.field (field "int" "x")])]),
    .enum ⟨["public"], "Kind", none, ["A"]⟩,
    .struct (struct "Pair" .none [.field (field "short" "a"), .field (field "int" "b")])]⟩

/-- Here the theorem says that the new unit is a patch of this one, and that two structs were
replaced, `Outer` before the one that is nested in it. -/
theorem flattenMarked_patches_mixed :
    let c := Catalog.ofUnits [mixedUnit]
    let o := Options.ofPointerWidth 8
    let draft : Draft := ⟨Workbench.afterCalls c o [.flatten ⟨"Game.Outer.Middle.Deep"⟩], []⟩
    ∃ u', outcome (mixedUnit.flattenMarked c o) draft = .ok u' ∧
      u' = mixedUnit.patched (c.flat? o) ∧
      u'.structs.map (fun s => (s.name, s.fields.map (·.name))) =
        [("Outer", ["pair_a", "pair_b", "count", "last"]), ("Pair", ["a", "b"])] ∧
      (stateAfter (mixedUnit.flattenMarked c o) draft).replaced.map (·.key) =
        [⟨"Game.Outer"⟩, ⟨"Game.Outer.Middle.Deep"⟩] := by
  intro c o draft
  have hrun : ∃ u', outcome (mixedUnit.flattenMarked c o) draft = .ok u' ∧
      u'.structs.map (fun s => (s.name, s.fields.map (·.name))) =
        [("Outer", ["pair_a", "pair_b", "count", "last"]), ("Pair", ["a", "b"])] := by
    decide +kernel
  obtain ⟨u', hu', hfields⟩ := hrun
  obtain ⟨hpatched, flats, hreplaced, hflats⟩ := flattenMarked_patches rfl (by decide +kernel)
    [.flatten ⟨"Game.Outer.Middle.Deep"⟩] [] hu'
  have hkeys : flats.map (·.key) =
      (mixedUnit.survivors.filter (·.2.markers.flatten)).map Prod.fst := by
    refine List.forall₂_eq_eq_eq ▸ ?_
    exact List.forall₂_map_left_iff.2 (List.forall₂_map_right_iff.2
      (hflats.flip.imp fun f v hf => hf.1))
  refine ⟨u', hu', hpatched, hfields, ?_⟩
  rw [hreplaced, List.nil_append, hkeys]
  decide +kernel

end FlatLayout
