import FlatLayout.Proofs.Declarations
import FlatLayout.Proofs.Emission
import FlatLayout.Proofs.Treatment

/-!
# What becomes of a unit

Flattening the marked structs of a unit goes down its tree with a workbench, a log and fuel.
Whatever happens there, a unit that comes out is related to the unit that went in by rules that know
nothing of this: `RewrittenAll` has one rule for each kind of member, and its only link to
flattening is that a marked struct is replaced by what `Catalog.answer` says.

What is nested in a struct is treated in the same way in a marked one and in any other, because a
flat declaration keeps what is nested in the old one. So the declarations of the new unit are
declarations of the old one, each under its old name.

## Main definitions

* `RewrittenAll`, `Rewritten` — what becomes of members, and of a struct
* `Declaration.Becomes` — what becomes of a declaration
* `SourceUnit.RewrittenAs` — what becomes of a unit

## Main results

* `rewrittenAs_of_run` — whatever flattening a project yields is related to its primary unit
* `RewrittenAll.slots` — the fields stay as they are, up to their markers
-/

namespace FlatLayout

/-- What becomes of the members of the struct `key`. -/
inductive RewrittenAll (c : Catalog) (o : Options) : QualName → List Member → List Member → Prop
  | nil (key : QualName) : RewrittenAll c o key [] []
  | field {key : QualName} {ms out : List Member} (g : FieldDecl)
      (rest : RewrittenAll c o key ms out) :
      RewrittenAll c o key (.field g :: ms) (.field { g with markers := .none } :: out)
  | struct {key : QualName} {s t : StructDecl} {inner ms out : List Member}
      (shell : Shell c o (key.child s.name) s t)
      (inside : RewrittenAll c o (key.child s.name) t.members inner)
      (rest : RewrittenAll c o key ms out) :
      RewrittenAll c o key (.struct s :: ms) (.struct { t with members := inner } :: out)
  | dropped {key : QualName} {s : StructDecl} {ms out : List Member}
      (anonymous : s.markers.anonymous = true) (rest : RewrittenAll c o key ms out) :
      RewrittenAll c o key (.struct s :: ms) out
  | copied {key : QualName} {m : Member} {ms out : List Member} (nofield : m.field? = none)
      (nostruct : m.struct? = none) (rest : RewrittenAll c o key ms out) :
      RewrittenAll c o key (m :: ms) (m :: out)

/-- What becomes of a struct that is not dropped. -/
def Rewritten (c : Catalog) (o : Options) (key : QualName) (s s' : StructDecl) : Prop :=
  ∃ t inner, Shell c o key s t ∧ RewrittenAll c o key t.members inner ∧
    s' = { t with members := inner }

section

variable {c : Catalog} {o : Options} {key : QualName}

/-! ### From the pass to the rules

The rules of the pass list the structs on the way. Here they are left out. -/

theorem TreatedAll.rewritten {ms out : List Member} {vs : List (QualName × StructDecl)}
    (h : TreatedAll c o key ms out vs) : RewrittenAll c o key ms out := by
  induction h with
  | nil key => exact .nil key
  | field g rest ih => exact .field g ih
  | struct shell inside rest ihInside ihRest => exact .struct shell ihInside ihRest
  | dropped anonymous rest ih => exact .dropped anonymous ih
  | copied nofield nostruct rest ih => exact .copied nofield nostruct ih

theorem Treated.rewritten {s s' : StructDecl} {vs : List (QualName × StructDecl)}
    (h : Treated c o key s s' vs) : Rewritten c o key s s' := by
  obtain ⟨t, inner, ws, hshell, hinside, rfl, -⟩ := h
  exact ⟨t, inner, hshell, hinside.rewritten, rfl⟩

/-! ### Declarations -/

/-- What becomes of a declaration. -/
inductive Declaration.Becomes (c : Catalog) (o : Options) : Declaration → Declaration → Prop
  | struct {key : QualName} {s s' : StructDecl} (rewritten : Rewritten c o key s s') :
      Becomes c o (.struct key s) (.struct key s')
  | enum (key : QualName) (e : EnumDecl) : Becomes c o (.enum key e) (.enum key e)
  | managed (key : QualName) (d : ClassDecl) : Becomes c o (.managed key d) (.managed key d)

theorem Declaration.Becomes.key_eq {d d' : Declaration} (h : d.Becomes c o d') :
    d'.key = d.key := by
  cases h <;> rfl

theorem StructDecl.declarations_eq (key : QualName) (s : StructDecl) :
    s.declarations key = Member.declarationsAll key s.members ++ [.struct key s] := by
  obtain ⟨modifiers, name, markers, layout, members⟩ := s
  rw [StructDecl.declarations]

theorem declarationsAll_append (key : QualName) (ms ms' : List Member) :
    Member.declarationsAll key (ms ++ ms') =
      Member.declarationsAll key ms ++ Member.declarationsAll key ms' := by
  induction ms with
  | nil => rw [List.nil_append, Member.declarationsAll, List.nil_append]
  | cons m ms ih =>
    rw [List.cons_append, Member.declarationsAll, Member.declarationsAll, ih, List.append_assoc]

theorem declarationsAll_eq_nil {ms : List Member} (h : ∀ m ∈ ms, m.declarations key = []) :
    Member.declarationsAll key ms = [] := by
  induction ms with
  | nil => rw [Member.declarationsAll]
  | cons m ms ih =>
    rw [Member.declarationsAll, h m List.mem_cons_self, List.nil_append]
    exact ih fun m hm => h m (List.mem_cons_of_mem _ hm)

theorem declarations_toMember (m : PlacedMember) (container : String) :
    (m.toMember container).declarations key = [] := by
  unfold PlacedMember.toMember
  split
  · split <;> rw [Member.declarations] <;> nofun
  · rw [Member.declarations] <;> nofun

/-- What takes the place of a field declares nothing. -/
theorem Emitted.declarations_eq {container : String} {n : Nat} {ms out : List Member}
    {ts : List Spot} (h : Emitted container n ms ts out) :
    Member.declarationsAll key out = Member.declarationsAll key ms := by
  induction h with
  | nil => rfl
  | replaced placed spots rest ih =>
    rw [declarationsAll_append, ih, declarationsAll_eq_nil, Member.declarationsAll,
      Member.declarations, List.nil_append]
    · nofun
    · nofun
    · intro m hm
      obtain ⟨p, -, rfl⟩ := List.mem_map.1 hm
      exact declarations_toMember p container
  | copied passive rest ih => rw [Member.declarationsAll, Member.declarationsAll, ih]

/-- A flat declaration declares what was declared before. -/
theorem declarations_of_answer {s : StructDecl} {f : FlatStruct} (h : c.answer o key = .ok f)
    (hs : c.struct? key = some s) :
    f.decl.name = s.name ∧
      Member.declarationsAll key f.decl.members = Member.declarationsAll key s.members := by
  obtain ⟨s', rule, ts, p, hs', laid⟩ := Catalog.exists_laid_of_answer h
  obtain rfl := Option.some.inj (hs.symm.trans hs')
  refine ⟨?_, laid.emitted.declarations_eq⟩
  rw [laid.decl_eq]
  rfl

theorem Shell.declarations_eq {s t : StructDecl} (h : Shell c o key s t)
    (hs : c.struct? key = some s) :
    t.name = s.name ∧
      Member.declarationsAll key t.members = Member.declarationsAll key s.members := by
  cases h with
  | copied => exact ⟨rfl, rfl⟩
  | flattened _ _ flat => exact declarations_of_answer flat hs

/-- Every struct among some declarations is the one that the catalog has. -/
def Catalog.Knows (c : Catalog) (ds : List Declaration) : Prop :=
  ∀ k s, .struct k s ∈ ds → c.struct? k = some s

theorem Catalog.Knows.of_subset {ds ds' : List Declaration} (h : c.Knows ds') (hsub : ds ⊆ ds') :
    c.Knows ds := fun k s hmem => h k s (hsub hmem)

/-- Where no name is used twice, the catalog has the structs of the first unit. -/
theorem knows_ofUnits {u : SourceUnit} (hdistinct : u.structKeys.Nodup) (us : List SourceUnit) :
    (Catalog.ofUnits (u :: us)).Knows u.declarations := by
  intro k s hmem
  rw [Catalog.struct?_ofUnits_cons, structAt?_of_mem hdistinct hmem, Option.some_or]

/-- Every declaration of a struct that was treated was declared by it before. -/
theorem becomes_of_inside {s t : StructDecl} {inner : List Member}
    (hknows : c.Knows (s.declarations key)) (hshell : Shell c o key s t)
    (hinside : RewrittenAll c o key t.members inner)
    (ih : c.Knows (Member.declarationsAll key t.members) →
      ∀ d' ∈ Member.declarationsAll key inner,
        ∃ d ∈ Member.declarationsAll key t.members, d.Becomes c o d') :
    ∀ d' ∈ StructDecl.declarations key { t with members := inner },
      ∃ d ∈ s.declarations key, d.Becomes c o d' := by
  rw [StructDecl.declarations_eq] at hknows
  have hs : c.struct? key = some s := hknows key s (by simp)
  obtain ⟨-, hsame⟩ := hshell.declarations_eq hs
  rw [hsame] at ih
  intro d' hd'
  rw [StructDecl.declarations_eq] at hd' ⊢
  rcases List.mem_append.1 hd' with hd' | hd'
  · obtain ⟨d, hd, hbecomes⟩ := ih (hknows.of_subset (List.subset_append_left _ _)) d' hd'
    exact ⟨d, List.mem_append_left _ hd, hbecomes⟩
  · rw [List.mem_singleton.1 hd']
    exact ⟨.struct key s, by simp, .struct ⟨t, inner, hshell, hinside, rfl⟩⟩

theorem becomes_of_copied {m : Member} (nostruct : m.struct? = none) {d : Declaration}
    (hd : d ∈ m.declarations key) : d.Becomes c o d := by
  cases m with
  | enum e =>
    rw [Member.declarations, List.mem_singleton] at hd
    rw [hd]
    exact .enum _ _
  | struct s => cases nostruct
  | field g => simp [Member.declarations] at hd
  | accessor a => simp [Member.declarations] at hd
  | conditional symbol ms otherwise => simp [Member.declarations] at hd
  | verbatim text => simp [Member.declarations] at hd

/-- **Every declaration among the new members** was there before, under the same name. -/
theorem RewrittenAll.becomes {ms out : List Member} (h : RewrittenAll c o key ms out)
    (hknows : c.Knows (Member.declarationsAll key ms)) :
    ∀ d' ∈ Member.declarationsAll key out,
      ∃ d ∈ Member.declarationsAll key ms, d.Becomes c o d' := by
  induction h with
  | nil => intro d' hd'; rw [Member.declarationsAll] at hd'; cases hd'
  | @field key ms out g rest ih =>
    rw [Member.declarationsAll, Member.declarationsAll] at *
    exact ih hknows
  | @struct key s t inner ms out shell inside rest ihInside ihRest =>
    rw [Member.declarationsAll, Member.declarations] at hknows
    have hs := hknows.of_subset (List.subset_append_left _ _)
    have hname : t.name = s.name := by
      refine (shell.declarations_eq (hs _ s ?_)).1
      rw [StructDecl.declarations_eq]
      simp
    have hkey : key.child t.name = key.child s.name := by rw [hname]
    intro d' hd'
    rw [Member.declarationsAll, Member.declarations] at hd' ⊢
    rw [hkey] at hd'
    rcases List.mem_append.1 hd' with hd' | hd'
    · obtain ⟨d, hd, hbecomes⟩ := becomes_of_inside hs shell inside ihInside d' hd'
      exact ⟨d, List.mem_append_left _ hd, hbecomes⟩
    · obtain ⟨d, hd, hbecomes⟩ :=
        ihRest (hknows.of_subset (List.subset_append_right _ _)) d' hd'
      exact ⟨d, List.mem_append_right _ hd, hbecomes⟩
  | dropped anonymous rest ih =>
    rw [Member.declarationsAll] at hknows
    intro d' hd'
    obtain ⟨d, hd, hbecomes⟩ := ih (hknows.of_subset (List.subset_append_right _ _)) d' hd'
    rw [Member.declarationsAll]
    exact ⟨d, List.mem_append_right _ hd, hbecomes⟩
  | @copied key m ms out nofield nostruct rest ih =>
    rw [Member.declarationsAll] at hknows
    intro d' hd'
    rw [Member.declarationsAll] at hd' ⊢
    rcases List.mem_append.1 hd' with hd' | hd'
    · exact ⟨d', List.mem_append_left _ hd', becomes_of_copied nostruct hd'⟩
    · obtain ⟨d, hd, hbecomes⟩ := ih (hknows.of_subset (List.subset_append_right _ _)) d' hd'
      exact ⟨d, List.mem_append_right _ hd, hbecomes⟩

/-! ### Fields -/

/-- A step in placing the fields of a struct, and the same step without markers. -/
inductive Slot.Cleared : Slot → Slot → Prop
  | field (g : FieldDecl) (i j : Nat) : Cleared (.field g i) (.field { g with markers := .none } j)
  | groupedBuffer (g : FieldDecl) :
      Cleared (.groupedBuffer g) (.groupedBuffer { g with markers := .none })
  | conditional (symbol : String) : Cleared (.conditional symbol) (.conditional symbol)

theorem cleared_field (g : FieldDecl) (n k : Nat) :
    List.Forall₂ Slot.Cleared ((Member.field g).slots n)
      ((Member.field { g with markers := .none }).slots k) := by
  show List.Forall₂ Slot.Cleared
    (if !g.isInstance then []
      else if g.isGrouped then
        if g.fixedCount.isSome then [.groupedBuffer g] else g.split.map (.field · n)
      else [.field g n])
    (if !g.isInstance then []
      else if g.isGrouped then
        if g.fixedCount.isSome then [.groupedBuffer { g with markers := .none }]
        else (FieldDecl.split { g with markers := .none }).map (.field · k)
      else [.field { g with markers := .none } k])
  split
  · exact .nil
  split
  · split
    · exact .cons (.groupedBuffer g) .nil
    · rw [FieldDecl.split, FieldDecl.split, List.map_map, List.map_map, List.forall₂_map_left_iff,
        List.forall₂_map_right_iff, List.forall₂_same]
      exact fun name _ => .field { g with names := [name] } n k
  · exact .cons (.field g n k) .nil

/-- **The fields of the new members** are placed in the same steps, without markers. -/
theorem RewrittenAll.slots {ms out : List Member} (h : RewrittenAll c o key ms out) (n k : Nat) :
    List.Forall₂ Slot.Cleared (memberSlots n ms) (memberSlots k out) := by
  induction h generalizing n k with
  | nil => exact .nil
  | field g rest ih =>
    rw [memberSlots_cons, memberSlots_cons]
    exact List.rel_append (cleared_field g n k) (ih _ _)
  | struct shell inside rest _ ih =>
    rw [memberSlots_cons, memberSlots_cons]
    exact ih _ _
  | dropped anonymous rest ih =>
    rw [memberSlots_cons]
    exact ih _ _
  | @copied key m ms out nofield nostruct rest ih =>
    rw [memberSlots_cons, memberSlots_cons]
    refine List.rel_append ?_ (ih _ _)
    cases m with
    | conditional symbol ms otherwise => exact .cons (.conditional symbol) .nil
    | field g => cases nofield
    | struct s => cases nostruct
    | accessor a => exact .nil
    | enum e => exact .nil
    | verbatim text => exact .nil

/-! ### Units -/

/-- What becomes of a unit: the namespace and the imports stay, and whatever it declares was
declared before. -/
structure SourceUnit.RewrittenAs (c : Catalog) (o : Options) (u u' : SourceUnit) : Prop where
  namespaceName : u'.namespaceName = u.namespaceName
  imports : u'.imports = u.imports
  becomes : c.Knows u.declarations → ∀ d' ∈ u'.declarations, ∃ d ∈ u.declarations, d.Becomes c o d'

theorem Rewritten.becomes {s s' : StructDecl} (h : Rewritten c o key s s')
    (hknows : c.Knows (s.declarations key)) :
    ∀ d' ∈ s'.declarations key, ∃ d ∈ s.declarations key, d.Becomes c o d' := by
  obtain ⟨t, inner, hshell, hinside, rfl⟩ := h
  exact becomes_of_inside hknows hshell hinside hinside.becomes

theorem Rewritten.name_eq {s s' : StructDecl} (h : Rewritten c o key s s')
    (hs : c.struct? key = some s) : s'.name = s.name := by
  obtain ⟨t, inner, hshell, -, rfl⟩ := h
  exact (hshell.declarations_eq hs).1

theorem knows_self {s : StructDecl} (h : c.Knows (s.declarations key)) :
    c.struct? key = some s := by
  refine h key s ?_
  rw [StructDecl.declarations_eq]
  simp

theorem becomes_of_item {i : Item} {space : Option String} (nostruct : i.struct? = none)
    {d : Declaration} (hd : d ∈ i.declarations space) : d.Becomes c o d := by
  cases i with
  | struct s => cases nostruct
  | enum e =>
    rw [List.mem_singleton.1 hd]
    exact .enum _ _
  | classDecl d =>
    rw [List.mem_singleton.1 hd]
    exact .managed _ _
  | verbatim text => cases hd

/-- **Every declaration among the new items** was there before, under the same name. -/
theorem TreatedItems.becomes {space : Option String} {is out : List Item}
    {vs : List (QualName × StructDecl)} (h : TreatedItems c o space is out vs)
    (hknows : c.Knows (is.flatMap (Item.declarations space))) :
    ∀ d' ∈ out.flatMap (Item.declarations space),
      ∃ d ∈ is.flatMap (Item.declarations space), d.Becomes c o d' := by
  induction h with
  | nil => exact nofun
  | @struct s s' is out ws vs treated rest ih =>
    intro d' hd'
    rw [List.flatMap_cons] at hknows hd' ⊢
    have hs := hknows.of_subset (List.subset_append_left _ _)
    rw [Item.declarations, treated.rewritten.name_eq (knows_self hs)] at hd'
    rcases List.mem_append.1 hd' with hd' | hd'
    · obtain ⟨d, hd, hbecomes⟩ := treated.rewritten.becomes hs d' hd'
      exact ⟨d, List.mem_append_left _ hd, hbecomes⟩
    · obtain ⟨d, hd, hbecomes⟩ := ih (hknows.of_subset (List.subset_append_right _ _)) d' hd'
      exact ⟨d, List.mem_append_right _ hd, hbecomes⟩
  | dropped anonymous rest ih =>
    intro d' hd'
    rw [List.flatMap_cons] at hknows ⊢
    obtain ⟨d, hd, hbecomes⟩ := ih (hknows.of_subset (List.subset_append_right _ _)) d' hd'
    exact ⟨d, List.mem_append_right _ hd, hbecomes⟩
  | droppedClass marker rest ih =>
    intro d' hd'
    rw [List.flatMap_cons] at hknows ⊢
    obtain ⟨d, hd, hbecomes⟩ := ih (hknows.of_subset (List.subset_append_right _ _)) d' hd'
    exact ⟨d, List.mem_append_right _ hd, hbecomes⟩
  | copied nostruct nomarker rest ih =>
    intro d' hd'
    rw [List.flatMap_cons] at hknows hd' ⊢
    rcases List.mem_append.1 hd' with hd' | hd'
    · exact ⟨d', List.mem_append_left _ hd', becomes_of_item nostruct hd'⟩
    · obtain ⟨d, hd, hbecomes⟩ := ih (hknows.of_subset (List.subset_append_right _ _)) d' hd'
      exact ⟨d, List.mem_append_right _ hd, hbecomes⟩

end

/-- **Whatever flattening a project yields** is related to its primary unit. -/
theorem rewrittenAs_of_run {p : Project} {out : Outcome} {log : List Log.Record}
    (h : p.run = (.ok out, log)) :
    (p.primary.select p.defines).RewrittenAs p.catalog p.options out.unit := by
  obtain ⟨items, vs, ran⟩ := treats_of_run (congrArg Prod.fst h)
  rw [ran.unit]
  exact ⟨rfl, rfl, ran.treated.becomes⟩

end FlatLayout
