import FlatLayout.Proofs.Finished
import FlatLayout.Proofs.LaterUnits
import FlatLayout.Proofs.MemberOrder

/-!
# Lexical scopes

A struct stands inside of other structs, and the outermost one in the namespace of a unit. The
catalog keeps none of this: it has a list of qualified names, and what a name written in a struct
may mean is found by cutting the qualified name of the struct at its dots. Here the levels of this
search are read off the tree in which the struct was declared, and shown to be the same.

## The levels

From inside out these are the struct itself, the structs that it stands in, the namespace of the
unit and the texts in front of the dots of that namespace, the top, and then the namespaces and
imports of all units, in the order in which they first occur. At each level there is one qualified
name that `x` could have, and the first of these names under which anything is declared decides.
That a type cannot be used, as a class or an enumeration of something else than integers, does not
lead to the next level.

## What keeps the names apart

A qualified name does not say where the namespace ends and the structs begin, and it need not: both
are cut at the dots. But a struct with a dot in its own name would be taken for two levels, so this
is excluded. A dot at the front or at the end of a namespace does no harm; the empty text in front
of it is a level like the others.

## Main definitions

* `SourceUnit.Nests` — a struct of a unit, with the names of all that it stands in
* `SpaceLevels`, `contributedSpaces`, `levelNames` — the levels
* `Denotes` — what the declarations under a name say it is

## Main results

* `scopes_of_nests` — cutting at the dots gives the levels up to the namespace
* `candidates_of_nests` — the names that are tried
* `bind_lexical` — what a name means is what the innermost level says that declares it
-/

namespace FlatLayout

/-! ### Levels -/

/-- The unit declares the struct `s` under the name `k` in its tree. The list has the names of the
structs that it stands in, from inside out. -/
inductive SourceUnit.Nests (u : SourceUnit) : QualName → List QualName → StructDecl → Prop
  | top {s : StructDecl} (h : .struct s ∈ u.items) : Nests u (.root u.namespaceName s.name) [] s
  | inside {k : QualName} {ks : List QualName} {s t : StructDecl} (outer : Nests u k ks s)
    (h : .struct t ∈ s.members) : Nests u (k.child t.name) (k :: ks) t

/-- A namespace and the texts in front of its dots, the longest first. -/
structure SpaceLevels (space : Option String) (levels : List String) : Prop where
  mem : ∀ l, l ∈ levels ↔ ∃ ns, space = some ns ∧ ns ≠ "" ∧ (l = ns ∨ ∃ rest, ns = l ++ "." ++ rest)
  longest_first : levels.Pairwise fun l m => m.length < l.length

/-- The namespaces and imports of some units, each at the place where it occurs first. -/
def contributedSpaces (us : List SourceUnit) : List String :=
  (us.flatMap fun u => u.namespaceName.toList ++ u.imports).eraseDups

/-- The qualified names that a name could have: in the structs `ks`, in the namespaces `spaces`, at
the top, and in what the units contribute. -/
def levelNames (us : List SourceUnit) (ks : List QualName) (spaces : List String) (name : String) :
    List QualName :=
  ks.map (·.child name) ++ spaces.map (fun ns => ⟨ns ++ "." ++ name⟩) ++
    ⟨name⟩ :: (contributedSpaces us).map fun ns => .root (some ns) name

/-- The integer type that an enumeration is based on. -/
def EnumDecl.BasedOn (e : EnumDecl) (p : Primitive) : Prop :=
  (e.underlying = none ∧ p = .int) ∨
    ∃ t, e.underlying = some t ∧ t.isPointer = false ∧ Primitive.ofName? t.name = some p ∧
      p.isInteger = true

/-- What a qualified name is, by the declarations that have it. A struct goes before an enumeration,
the last enumeration counts, and a class comes last. -/
inductive Denotes (es : List Declaration) (k : QualName) : Except LayoutError Binding → Prop
  | struct {s : StructDecl} (h : .struct k s ∈ es) : Denotes es k (.ok (.struct k))
  | enum {e : EnumDecl} {p : Primitive} {before after : List Declaration}
    (nostruct : ∀ s, .struct k s ∉ es) (here : es = before ++ .enum k e :: after)
    (last : ∀ d, .enum k d ∉ after) (based : e.BasedOn p) : Denotes es k (.ok (.enum k p))
  | baseless {e : EnumDecl} {t : TypeRef} {before after : List Declaration}
    (nostruct : ∀ s, .struct k s ∉ es) (here : es = before ++ .enum k e :: after)
    (last : ∀ d, .enum k d ∉ after) (written : e.underlying = some t)
    (baseless : ∀ p, ¬ e.BasedOn p) : Denotes es k (.error (.enumBase k t))
  | managed {d : ClassDecl} (nostruct : ∀ s, .struct k s ∉ es) (noenum : ∀ e, .enum k e ∉ es)
    (h : .managed k d ∈ es) : Denotes es k (.ok (.managed k.text))

/-! ### Cutting at dots -/

namespace QualName

theorem beforeDots_of_not_mem {cs : List Char} (h : '.' ∉ cs) : beforeDots cs = [] := by
  induction cs with
  | nil => rfl
  | cons c cs ih =>
    rw [List.mem_cons, not_or] at h
    rw [beforeDots, ih h.2, if_neg (Ne.symm h.1)]
    rfl

/-- The last cut is made first. -/
theorem beforeDots_append (cs : List Char) {ds : List Char} (h : '.' ∉ ds) :
    beforeDots (cs ++ '.' :: ds) = cs :: beforeDots cs := by
  induction cs with
  | nil => simp [beforeDots, beforeDots_of_not_mem h]
  | cons c cs ih => simp [beforeDots, ih]

theorem mem_beforeDots_iff {cs ds : List Char} :
    ds ∈ beforeDots cs ↔ ∃ rest, cs = ds ++ '.' :: rest := by
  induction cs generalizing ds with
  | nil => simp [beforeDots]
  | cons c cs ih =>
    rw [beforeDots, List.mem_append, List.mem_map]
    constructor
    · rintro (⟨es, hes, rfl⟩ | hempty)
      · obtain ⟨rest, rfl⟩ := ih.1 hes
        exact ⟨rest, rfl⟩
      · split at hempty
        next hdot => exact ⟨cs, by rw [List.mem_singleton.1 hempty, hdot]; rfl⟩
        next => cases hempty
    · rintro ⟨rest, heq⟩
      cases ds with
      | nil =>
        rw [List.nil_append, List.cons.injEq] at heq
        rw [if_pos heq.1]
        exact .inr List.mem_cons_self
      | cons d ds =>
        rw [List.cons_append, List.cons.injEq] at heq
        exact .inl ⟨ds, ih.2 ⟨rest, heq.2⟩, by rw [heq.1]⟩

theorem pairwise_beforeDots (cs : List Char) :
    (beforeDots cs).Pairwise fun ds es => es.length < ds.length := by
  induction cs with
  | nil => exact .nil
  | cons c cs ih =>
    rw [beforeDots, List.pairwise_append, List.pairwise_map]
    refine ⟨ih.imp (by simp), ?_, ?_⟩
    · split
      · exact List.pairwise_singleton _ _
      · exact .nil
    · intro ds hds es hes
      obtain ⟨ds, -, rfl⟩ := List.mem_map.1 hds
      split at hes
      next => simp [List.mem_singleton.1 hes]
      next => cases hes

/-- A name without dots is one level inside of what it stands in. -/
theorem scopes_child (k : QualName) {name : String} (h : '.' ∉ name.toList) :
    (k.child name).scopes = k.child name :: k.scopes := by
  have htext : (k.child name).text.toList = k.text.toList ++ '.' :: name.toList := by
    simp [child, String.toList_append]
  rw [scopes, scopes, enclosing, htext, beforeDots_append _ h, List.map_cons, String.ofList_toList]
  rfl

end QualName

/-! ### Structs in the tree -/

section

variable {us : List SourceUnit} {u : SourceUnit} {k : QualName} {ks : List QualName}
  {s : StructDecl}

/-- All that a struct in the tree declares is declared by the unit. -/
theorem declarations_subset_of_nests (h : u.Nests k ks s) : s.declarations k ⊆ u.declarations := by
  induction h with
  | top h => exact fun d hd => List.mem_flatMap.2 ⟨_, h, hd⟩
  | @inside k ks s t outer h ih =>
    refine List.Subset.trans (fun d hd => ?_) ih
    rw [StructDecl.declarations_eq, Member.declarationsAll_eq_flatMap]
    refine List.mem_append_left _ (List.mem_flatMap.2 ⟨_, h, ?_⟩)
    rwa [Member.declarations]

theorem mem_declarations_of_nests (h : u.Nests k ks s) : .struct k s ∈ u.declarations := by
  refine declarations_subset_of_nests h ?_
  rw [StructDecl.declarations_eq]
  exact List.mem_append_right _ (List.mem_singleton.2 rfl)

/-- Whatever has members in the unit stands in its tree. -/
theorem hereditary_nests (u : SourceUnit) :
    Hereditary fun key ms => ∃ ks s, u.Nests key ks s ∧ ms ⊆ s.members where
  tail := by
    rintro key m ms ⟨ks, s, hs, hms⟩
    exact ⟨ks, s, hs, (List.cons_subset.1 hms).2⟩
  inside := by
    rintro key t ms ⟨ks, s, hs, hms⟩
    exact ⟨key :: ks, t, hs.inside (List.cons_subset.1 hms).1, List.Subset.refl _⟩

/-- The structs of the catalog are those in the trees. -/
theorem isSome_struct?_iff_nests :
    ((Catalog.ofUnits us).struct? k).isSome ↔ ∃ u ∈ us, ∃ ks s, u.Nests k ks s := by
  rw [Catalog.struct?_ofUnits, List.findSome?_isSome_iff]
  constructor
  · rintro ⟨u, hu, hsome⟩
    obtain ⟨s, hs⟩ := Option.isSome_iff_exists.1 hsome
    obtain ⟨ks, s, hnests, -⟩ := (hereditary_nests u).of_unit
      (fun t ht => ⟨[], t, .top ht, List.Subset.refl _⟩) (mem_of_structAt? hs)
    exact ⟨u, hu, ks, s, hnests⟩
  · rintro ⟨u, hu, ks, s, hs⟩
    refine ⟨u, hu, List.findSome?_isSome_iff.2 ⟨_, mem_declarations_of_nests hs, ?_⟩⟩
    rw [Declaration.struct?_eq_some_iff.2 rfl]
    rfl

end

/-! ### The scopes of a struct in the tree -/

/-- The names of a namespace and of the texts in front of its dots. -/
def spaceScopes : Option String → List QualName
  | none => []
  | some ns => if ns.isEmpty then [] else (⟨ns⟩ : QualName).scopes

theorem scopes_root (space : Option String) {name : String} (h : '.' ∉ name.toList) :
    (QualName.root space name).scopes = .root space name :: spaceScopes space := by
  have htop : (⟨name⟩ : QualName).scopes = [⟨name⟩] := by
    simp [QualName.scopes, QualName.enclosing, QualName.beforeDots_of_not_mem h]
  cases space with
  | none => exact htop
  | some ns =>
    rw [QualName.root, spaceScopes]
    split
    · exact htop
    · exact QualName.scopes_child ⟨ns⟩ h

/-- **Cutting at the dots gives the levels** of the tree, up to the namespace. -/
theorem scopes_of_nests {u : SourceUnit}
    (hdots : ∀ k ks s, u.Nests k ks s → '.' ∉ s.name.toList)
    {k : QualName} {ks : List QualName} {s : StructDecl} (h : u.Nests k ks s) :
    k.scopes = k :: ks ++ spaceScopes u.namespaceName := by
  induction h with
  | top h => exact scopes_root _ (hdots _ _ _ (.top h))
  | inside outer h ih =>
    rw [QualName.scopes_child _ (hdots _ _ _ (.inside outer h)), ih]
    rfl

theorem QualName.mem_enclosing_iff {q k : QualName} :
    q ∈ k.enclosing ↔ ∃ rest, k.text = q.text ++ "." ++ rest := by
  rw [enclosing, List.mem_map]
  constructor
  · rintro ⟨cs, hcs, rfl⟩
    obtain ⟨rest, hrest⟩ := mem_beforeDots_iff.1 hcs
    refine ⟨String.ofList rest, String.toList_inj.1 ?_⟩
    simp [hrest, String.toList_append]
  · rintro ⟨rest, hrest⟩
    refine ⟨q.text.toList, mem_beforeDots_iff.2 ⟨rest.toList, ?_⟩, by rw [String.ofList_toList]⟩
    simp [hrest, String.toList_append]

/-- From inside out the names get shorter. -/
theorem QualName.pairwise_scopes (k : QualName) :
    k.scopes.Pairwise fun p q => q.text.length < p.text.length := by
  rw [scopes, List.pairwise_cons]
  constructor
  · intro q hq
    obtain ⟨rest, hrest⟩ := mem_enclosing_iff.1 hq
    have hdot : ".".length = 1 := rfl
    rw [hrest, String.length_append, String.length_append]
    omega
  · rw [enclosing, List.pairwise_map]
    exact (pairwise_beforeDots _).imp fun h => by simpa using h

theorem spaceLevels_spaceScopes (space : Option String) :
    SpaceLevels space ((spaceScopes space).map QualName.text) := by
  cases space with
  | none => exact ⟨by simp [spaceScopes], .nil⟩
  | some ns =>
    by_cases hempty : ns = ""
    · subst hempty
      exact ⟨by simp [spaceScopes], .nil⟩
    · have hscopes : spaceScopes (some ns) = (⟨ns⟩ : QualName).scopes :=
        if_neg (by simpa using hempty)
      rw [hscopes]
      refine ⟨fun l => ?_, List.pairwise_map.2 (QualName.pairwise_scopes _)⟩
      rw [QualName.scopes, List.map_cons, List.mem_cons, List.mem_map]
      constructor
      · rintro (rfl | ⟨q, hq, rfl⟩)
        · exact ⟨_, rfl, hempty, .inl rfl⟩
        · exact ⟨_, rfl, hempty, .inr (QualName.mem_enclosing_iff.1 hq)⟩
      · rintro ⟨_, heq, -, hl⟩
        obtain rfl := Option.some.inj heq
        rcases hl with rfl | hrest
        · exact .inl rfl
        · exact .inr ⟨⟨l⟩, QualName.mem_enclosing_iff.2 hrest, rfl⟩

/-- There is one list of the levels of a namespace. -/
theorem SpaceLevels.eq {space : Option String} {levels levels' : List String}
    (h : SpaceLevels space levels) (h' : SpaceLevels space levels') : levels = levels' := by
  have nodup {ls : List String} (hls : SpaceLevels space ls) : ls.Nodup :=
    hls.longest_first.imp fun hlt heq => by simp [heq] at hlt
  have hperm : levels.Perm levels' :=
    (List.perm_ext_iff_of_nodup (nodup h) (nodup h')).2 fun l => by rw [h.mem, h'.mem]
  refine hperm.eq_of_pairwise (fun l m _ _ hlt hgt => ?_) h.longest_first h'.longest_first
  exact absurd hlt (Nat.lt_asymm hgt)

/-! ### Namespaces -/

namespace Catalog

variable {c : Catalog} {seen : List String}

theorem namespaces_putNamespace_eq (h : c.namespaces = seen.eraseDups) (n : String) :
    (c.putNamespace n).namespaces = (seen ++ [n]).eraseDups := by
  by_cases hn : n ∈ seen
  · have hcontains : c.namespaces.contains n = true := by
      rw [h, List.contains_iff_mem]
      exact List.mem_eraseDups.2 hn
    have hseen : [n].removeAll seen = [] := by simp [List.removeAll, hn]
    rw [putNamespace, if_pos hcontains, List.eraseDups_append, hseen, List.eraseDups_nil,
      List.append_nil, h]
  · have hcontains : ¬ c.namespaces.contains n = true := by
      rw [h, List.contains_iff_mem]
      exact fun hmem => hn (List.mem_eraseDups.1 hmem)
    have hnew : [n].removeAll seen = [n] := by simp [List.removeAll, hn]
    rw [putNamespace, if_neg hcontains, List.eraseDups_append, hnew, h]
    rfl

theorem namespaces_foldl_putNamespace (h : c.namespaces = seen.eraseDups) (names : List String) :
    (names.foldl putNamespace c).namespaces = (seen ++ names).eraseDups := by
  induction names generalizing c seen with
  | nil => rw [List.append_nil]; exact h
  | cons n names ih =>
    rw [List.foldl_cons, ih (namespaces_putNamespace_eq h n), List.append_assoc]
    rfl

theorem namespaces_foldl_addUnit_eq (h : c.namespaces = seen.eraseDups) (us : List SourceUnit) :
    (us.foldl addUnit c).namespaces =
      (seen ++ us.flatMap fun u => u.namespaceName.toList ++ u.imports).eraseDups := by
  induction us generalizing c seen with
  | nil => rw [List.flatMap_nil, List.append_nil]; exact h
  | cons u us ih =>
    have hunit : (c.addUnit u).namespaces =
        (seen ++ (u.namespaceName.toList ++ u.imports)).eraseDups := by
      rw [addUnit_eq, namespaces_foldl_put]
      exact namespaces_foldl_putNamespace h _
    rw [List.foldl_cons, ih hunit, List.flatMap_cons, List.append_assoc]

/-- **The names that are tried** are those of the levels. -/
theorem candidates_of_nests {us : List SourceUnit} {u : SourceUnit}
    (hdots : ∀ k ks s, u.Nests k ks s → '.' ∉ s.name.toList)
    {k : QualName} {ks : List QualName} {s : StructDecl} (h : u.Nests k ks s) (name : String) :
    (ofUnits us).candidates name k =
      levelNames us (k :: ks) ((spaceScopes u.namespaceName).map QualName.text) name := by
  have hnone : empty.namespaces = [].eraseDups := rfl
  have hnamespaces : (ofUnits us).namespaces = contributedSpaces us :=
    namespaces_foldl_addUnit_eq hnone us
  rw [candidates, scopes_of_nests hdots h, hnamespaces, levelNames, List.map_append, List.map_map]
  rfl

end Catalog

/-! ### What a name is -/

section

variable {us : List SourceUnit} {k : QualName}

theorem not_mem_of_findSome?_eq_none {α β : Type} {sel : α → Option β} {es : List α} {e : α} {b : β}
    (h : es.findSome? sel = none) (he : sel e = some b) : e ∉ es := by
  intro hmem
  rw [List.findSome?_eq_none_iff.1 h e hmem] at he
  cases he

/-- An enumeration is based on at most one type, and it has an error of its own if on none. -/
theorem enumBase_eq (k : QualName) (e : EnumDecl) :
    (∃ p, e.BasedOn p ∧ Catalog.enumBase k e = .ok p) ∨
      ∃ t, e.underlying = some t ∧ (∀ p, ¬ e.BasedOn p) ∧
        Catalog.enumBase k e = .error (.enumBase k t) := by
  unfold Catalog.enumBase EnumDecl.BasedOn
  cases e.underlying with
  | none => exact .inl ⟨.int, .inl ⟨rfl, rfl⟩, rfl⟩
  | some t =>
    cases hname : Primitive.ofName? t.name with
    | none => exact .inr ⟨t, rfl, by simp [hname], by simp [hname]⟩
    | some p =>
      by_cases hp : p.isInteger = true ∧ t.isPointer = false
      · exact .inl ⟨p, .inr ⟨t, rfl, hp.2, hname, hp.1⟩, by simp [hname, hp]⟩
      · refine .inr ⟨t, rfl, ?_, ?_⟩
        · rintro q (⟨h, -⟩ | ⟨_, heq, hpointer, hq, hinteger⟩)
          · cases h
          · obtain rfl := Option.some.inj heq
            obtain rfl := Option.some.inj (hname.symm.trans hq)
            exact hp ⟨hinteger, hpointer⟩
        · simpa [hname] using hp

/-- **What a name is by its declarations** is what the catalog has it bound to. -/
theorem denotes_of_declared? {d : Declared} (h : (Catalog.ofUnits us).declared? k = some d) :
    Denotes (us.flatMap (·.declarations)) k (Catalog.bindDeclared k d) := by
  have hstruct := Catalog.struct?_foldl_addUnit_eq .empty us k
  have henum := Catalog.lookup_enums_foldl_addUnit .empty us k
  have hclass := Catalog.lookup_classes_foldl_addUnit .empty us k
  rw [show Catalog.empty.struct? k = none from rfl, Option.none_or] at hstruct
  rw [show Catalog.empty.enums.lookup k = none from rfl, Option.or_none] at henum
  rw [show Catalog.empty.classes.lookup k = none from rfl, Option.or_none] at hclass
  cases hs : (Catalog.ofUnits us).struct? k with
  | some s =>
    obtain rfl := Option.some.inj (h.symm.trans (Catalog.declared?_of_struct? hs))
    obtain ⟨e, he, hes⟩ := List.exists_of_findSome?_eq_some (hstruct.symm.trans hs)
    exact .struct (Declaration.struct?_eq_some_iff.1 hes ▸ he)
  | none =>
    have nostruct : ∀ s, .struct k s ∉ us.flatMap (·.declarations) := fun s =>
      not_mem_of_findSome?_eq_none (hstruct.symm.trans hs) (Declaration.struct?_eq_some_iff.2 rfl)
    cases he : (Catalog.ofUnits us).enums.lookup k with
    | some e =>
      obtain rfl := Option.some.inj (h.symm.trans (Catalog.declared?_of_enum hs he))
      obtain ⟨before, e', after, here, hlast, hafter⟩ :=
        findSome?_reverse_eq_some (henum.symm.trans he)
      obtain rfl := Declaration.enum?_eq_some_iff.1 hlast
      have last : ∀ d, .enum k d ∉ after := fun d =>
        not_mem_of_findSome?_eq_none (List.findSome?_eq_none_iff.2 hafter)
          (Declaration.enum?_eq_some_iff.2 rfl)
      rcases enumBase_eq k e with ⟨p, based, hp⟩ | ⟨t, written, baseless, hp⟩
      · rw [Catalog.bindDeclared, hp]
        exact .enum nostruct here last based
      · rw [Catalog.bindDeclared, hp]
        exact .baseless nostruct here last written baseless
    | none =>
      obtain rfl := Option.some.inj
        (h.symm.trans (Catalog.declared?_of_isSome hs he (h ▸ rfl)))
      have noenum : ∀ e, .enum k e ∉ us.flatMap (·.declarations) := fun e hmem =>
        not_mem_of_findSome?_eq_none (henum.symm.trans he) (Declaration.enum?_eq_some_iff.2 rfl)
          (List.mem_reverse.2 hmem)
      cases hd : (Catalog.ofUnits us).classes.lookup k with
      | some d =>
        obtain ⟨e, hmem, hed⟩ := List.exists_of_findSome?_eq_some (hclass.symm.trans hd)
        exact .managed nostruct noenum (Declaration.managed?_eq_some_iff.1 hed ▸ List.mem_reverse.1 hmem)
      | none =>
        rw [Catalog.declared?_eq_none_iff.2 ⟨hs, he, hd⟩] at h
        cases h

/-- Nothing is declared under a name that is on no list. -/
theorem declared?_eq_none_iff_forall :
    (Catalog.ofUnits us).declared? k = none ↔
      ∀ e ∈ us.flatMap (·.declarations), e.key ≠ k := by
  rw [Catalog.declared?_ofUnits_eq_none_iff]
  simp only [List.mem_flatMap]
  constructor
  · rintro h e ⟨u, hu, he⟩
    exact h u hu e he
  · exact fun h u hu e he => h e ⟨u, hu, he⟩

end

/-! ### Lexical scoping -/

/-- What is neither a pointer nor has a name of its own is looked for in the scopes. -/
theorem bind_eq_firstDeclared (c : Catalog) {t : TypeRef} (scope : QualName)
    (hpointer : t.isPointer = false) (hprimitive : Primitive.ofName? t.name = none)
    (hmanaged : isManagedName t.name = false) :
    c.bind t scope =
      ((c.firstDeclared (c.candidates t.name scope)).map fun (k, d) =>
        Catalog.bindDeclared k d).getD (.error (.unresolvedType t.text scope.text)) := by
  have hpointee : t.pointee? = none := by simp [TypeRef.pointee?, hpointer]
  cases hfirst : c.firstDeclared (c.candidates t.name scope) with
  | none => simp [Catalog.bind, hpointee, hprimitive, hmanaged, hfirst]
  | some found => simp [Catalog.bind, hpointee, hprimitive, hmanaged, hfirst]

/-- What is declared is not unresolved. -/
theorem bindDeclared_ne_unresolvedType (k : QualName) (d : Declared) (type scope : String) :
    Catalog.bindDeclared k d ≠ .error (.unresolvedType type scope) := by
  cases d with
  | struct =>
    intro h
    cases h
  | enum e =>
    rcases enumBase_eq k e with ⟨p, -, h⟩ | ⟨t, -, -, h⟩
    · simp [Catalog.bindDeclared, h, Except.map]
    · simp [Catalog.bindDeclared, h, Except.map]
  | managed =>
    intro h
    cases h

/-- **A name means what the innermost level says that declares it**, for every struct in a tree and
at any depth; the catalog has no others. The levels are the struct, those that it stands in from
inside out, the namespace of the unit and its dotted prefixes from the longest on, the top, and what
all units contribute. At the level that decides a struct goes before an enumeration and that before
a class, and an enumeration of something else than integers is an error, not a reason to go on. The
name is unresolved exactly if no level declares it. The structs of the trees must not have dots in
their own names. -/
theorem bind_lexical (us : List SourceUnit)
    (hdots : ∀ u ∈ us, ∀ k ks s, u.Nests k ks s → '.' ∉ s.name.toList) (t : TypeRef)
    (hpointer : t.isPointer = false) (hprimitive : Primitive.ofName? t.name = none)
    (hmanaged : isManagedName t.name = false) (k : QualName) :
    let type := (Catalog.ofUnits us).bind t k
    let es := us.flatMap (·.declarations)
    (((Catalog.ofUnits us).struct? k).isSome ↔ ∃ u ∈ us, ∃ ks s, u.Nests k ks s) ∧
    ∀ u ∈ us, ∀ ks s, u.Nests k ks s → ∃ spaces, SpaceLevels u.namespaceName spaces ∧
      let names := levelNames us (k :: ks) spaces t.name
      (∀ before q after, names = before ++ q :: after → (∀ p ∈ before, ∀ e ∈ es, e.key ≠ p) →
        (∃ e ∈ es, e.key = q) → Denotes es q type) ∧
      (type = .error (.unresolvedType t.text k.text) ↔ ∀ q ∈ names, ∀ e ∈ es, e.key ≠ q) := by
  intro type es
  refine ⟨isSome_struct?_iff_nests, fun u hu ks s hs => ?_⟩
  refine ⟨_, spaceLevels_spaceScopes u.namespaceName, ?_⟩
  intro names
  have hbind := bind_eq_firstDeclared (Catalog.ofUnits us) k hpointer hprimitive hmanaged
  rw [Catalog.candidates_of_nests (hdots u hu) hs t.name] at hbind
  constructor
  · intro before q after hnames hbefore ⟨e, he, hq⟩
    obtain ⟨d, hd⟩ : ∃ d, (Catalog.ofUnits us).declared? q = some d := by
      rw [← Option.isSome_iff_exists, Option.isSome_iff_ne_none, Ne, declared?_eq_none_iff_forall]
      exact fun hnone => hnone e he hq
    have hfirst := firstDeclared_eq_some_iff.2 ⟨before, after, hnames, hd, fun p hp =>
      declared?_eq_none_iff_forall.2 (hbefore p hp)⟩
    have htype : type = Catalog.bindDeclared q d := by
      rw [hfirst] at hbind
      exact hbind
    rw [htype]
    exact denotes_of_declared? hd
  · constructor
    · intro htype q hq e he
      cases hfirst : (Catalog.ofUnits us).firstDeclared names with
      | some found =>
        rw [hfirst] at hbind
        exact absurd (hbind.symm.trans htype) (bindDeclared_ne_unresolvedType _ _ _ _)
      | none =>
        have hnone := List.findSome?_eq_none_iff.1 hfirst q hq
        exact declared?_eq_none_iff_forall.1 (Option.map_eq_none_iff.1 hnone) e he
    · intro hnone
      have hfirst : (Catalog.ofUnits us).firstDeclared names = none := by
        refine List.findSome?_eq_none_iff.2 fun q hq => ?_
        rw [declared?_eq_none_iff_forall.2 (hnone q hq)]
        rfl
      rw [hfirst] at hbind
      exact hbind

/-- A struct with a field of a type that it does not declare. -/
def innerStruct : StructDecl :=
  ⟨["public"], "Inner", .none, none, [.field (.ofNames (.named "E") ["e"])]⟩

/-- The struct that it stands in. -/
def outerStruct : StructDecl := ⟨["public"], "Outer", .none, none, [.struct innerStruct]⟩

/-- The two in a dotted namespace. -/
def nestedUnit : SourceUnit := ⟨"a.cs", some "N.M", ["Lib"], [.struct outerStruct]⟩

/-- Two units that declare the type, at the top and in a namespace in front of the dot. -/
def enumUnits : List SourceUnit := [
  ⟨"b.cs", none, [], [.enum ⟨["public"], "E", some (.named "long"), []⟩]⟩,
  ⟨"c.cs", some "N", [], [.enum ⟨["public"], "E", some (.named "byte"), []⟩]⟩]

/-- Here the theorem says that the name means the enumeration in the prefix of the namespace, which
is the fourth level. -/
theorem bind_lexical_nested :
    let us := nestedUnit :: enumUnits
    let k : QualName := ⟨"N.M.Outer.Inner"⟩
    levelNames us [k, ⟨"N.M.Outer"⟩] ["N.M", "N"] "E" =
        [⟨"N.M.Outer.Inner.E"⟩, ⟨"N.M.Outer.E"⟩, ⟨"N.M.E"⟩] ++
          ⟨"N.E"⟩ :: [⟨"E"⟩, ⟨"N.M.E"⟩, ⟨"Lib.E"⟩, ⟨"N.E"⟩] ∧
      Denotes (us.flatMap (·.declarations)) ⟨"N.E"⟩ ((Catalog.ofUnits us).bind (.named "E") k) := by
  intro us k
  have hplain : ∀ e ∈ us.flatMap (·.declarations), ∀ s ∈ e.struct? e.key, '.' ∉ s.name.toList := by
    decide +kernel
  have hdots : ∀ u ∈ us, ∀ k ks s, u.Nests k ks s → '.' ∉ s.name.toList := fun u hu k ks s hs =>
    hplain _ (List.mem_flatMap.2 ⟨u, hu, mem_declarations_of_nests hs⟩) s
      (Declaration.struct?_eq_some_iff.2 rfl)
  have hinner : nestedUnit.Nests k [⟨"N.M.Outer"⟩] innerStruct := by
    have outer : nestedUnit.Nests (.root (some "N.M") "Outer") [] outerStruct :=
      .top (s := outerStruct) List.mem_cons_self
    have inner := outer.inside (t := innerStruct) List.mem_cons_self
    have houter : QualName.root (some "N.M") "Outer" = ⟨"N.M.Outer"⟩ := by decide +kernel
    have hk : QualName.child ⟨"N.M.Outer"⟩ innerStruct.name = k := by decide +kernel
    rwa [houter, hk] at inner
  obtain ⟨-, hlevels⟩ := bind_lexical us hdots (.named "E") rfl (by decide +kernel)
    (by decide +kernel) k
  obtain ⟨spaces, hspaces, hmeans, -⟩ := hlevels _ List.mem_cons_self _ _ hinner
  have hspaces : spaces = ["N.M", "N"] := by
    rw [hspaces.eq (spaceLevels_spaceScopes nestedUnit.namespaceName)]
    decide +kernel
  have hnames : levelNames us [k, ⟨"N.M.Outer"⟩] ["N.M", "N"] "E" =
      [⟨"N.M.Outer.Inner.E"⟩, ⟨"N.M.Outer.E"⟩, ⟨"N.M.E"⟩] ++
        ⟨"N.E"⟩ :: [⟨"E"⟩, ⟨"N.M.E"⟩, ⟨"Lib.E"⟩, ⟨"N.E"⟩] := by decide +kernel
  have hbefore : ∀ p ∈ [⟨"N.M.Outer.Inner.E"⟩, ⟨"N.M.Outer.E"⟩, (⟨"N.M.E"⟩ : QualName)],
      ∀ q ∈ (us.flatMap (·.declarations)).map Declaration.key, q ≠ p := by decide +kernel
  have hthere : ⟨"N.E"⟩ ∈ (us.flatMap (·.declarations)).map Declaration.key := by decide +kernel
  subst hspaces
  refine ⟨hnames, hmeans _ _ _ hnames (fun p hp e he => ?_) (List.mem_map.1 hthere)⟩
  exact hbefore p hp _ (List.mem_map_of_mem he)

end FlatLayout
