import FlatLayout.Proofs.Declarations
import FlatLayout.Proofs.TypeNames

/-!
# Units that are added later

Units are added to a catalog one after the other, the auxiliary ones behind the primary one. What a
name means may change with every unit, and in two ways. A unit may declare a name that is looked up
earlier: one in an inner scope, where nothing was declared before. This is what scopes are for. And
it may declare the very name again.

Three lists answer for a name, and one of them is guarded. A struct that is declared again is noted
and dropped, and the catalog is what it would be without it.

## Names without a guard

Enumerations and classes are entered without a look at what is there, so a later one hides the first
one and nothing is noted. For a class this makes no difference, as a class has no layout. For an
enumeration it does: the structs that refer to it take what the later one takes. An enumeration that
is nested in a struct comes in on its own, before the struct does. So it hides the first one even if
the struct is noted and dropped, and the struct that was kept changes its size by what is nested in
the one that was not.

This is no rule about meanings, and nothing here relies on it. What stays is said of the names of
enumerations that are not declared again, and two small catalogs show what happens to the others.

## Main definitions

* `Catalog.drops` — a declaration of a struct whose name is taken

## Main results

* `foldl_addUnit_eq` — units add their declarations, and namespaces behind the others
* `bind_eq_of_means` — a name that means the same declaration is bound to the same
* `Catalog.Means.of_later` — what a name keeps its meaning by
* `later_units_keep` — what stays as it was when units are added
* `enum_again_hides` — an enumeration that is declared again hides the first one, unnoted
-/

namespace FlatLayout

namespace Declaration

/-- The enumeration that is declared, if it has the name `k`. -/
def enum? (k : QualName) : Declaration → Option EnumDecl
  | enum q e => if q = k then some e else none
  | _ => none

/-- The class that is declared, if it has the name `k`. -/
def managed? (k : QualName) : Declaration → Option ClassDecl
  | managed q d => if q = k then some d else none
  | _ => none

/-- Whether it is a class, which is what a name means last. -/
def isManaged : Declaration → Bool
  | managed _ _ => true
  | _ => false

variable {e : Declaration} {k : QualName}

theorem enum?_eq_none (h : ∀ d, e ≠ .enum k d) : e.enum? k = none := by
  cases e with
  | struct q s => rfl
  | enum q d => exact if_neg fun hq => h d (congrArg (Declaration.enum · d) hq)
  | managed q d => rfl

theorem enum?_eq_some_iff {d : EnumDecl} : e.enum? k = some d ↔ e = .enum k d := by
  cases e <;> simp [enum?]

theorem managed?_eq_some_iff {d : ClassDecl} : e.managed? k = some d ↔ e = .managed k d := by
  cases e <;> simp [managed?]

/-- Nothing but a class is declared under the name `k`. -/
theorem eq_none_of_isManaged (h : e.key = k → e.isManaged = true) :
    e.struct? k = none ∧ e.enum? k = none := by
  cases e with
  | struct q s => exact ⟨if_neg fun hq => Bool.false_ne_true (h hq), rfl⟩
  | enum q d => exact ⟨rfl, if_neg fun hq => Bool.false_ne_true (h hq)⟩
  | managed q d => exact ⟨rfl, rfl⟩

theorem managed?_eq_none (h : ∀ d, e ≠ .managed k d) : e.managed? k = none := by
  cases e with
  | struct q s => rfl
  | enum q d => rfl
  | managed q d => exact if_neg fun hq => h d (congrArg (Declaration.managed · d) hq)

end Declaration

namespace Catalog

/-! ### Entering, list by list -/

theorem put_of_taken {c : Catalog} {k : QualName} (h : (c.struct? k).isSome) (s : StructDecl) :
    c.put (.struct k s) = { c with repeated := c.repeated ++ [k] } := if_pos h

theorem put_of_free {c : Catalog} {k : QualName} (h : ¬ (c.struct? k).isSome) (s : StructDecl) :
    c.put (.struct k s) = { c with structs := c.structs ++ [(k, s)] } := if_neg h

theorem lookup_cons_or {α : Type} (key k : QualName) (a : α) (as : List (QualName × α)) :
    ((key, a) :: as).lookup k = (if key = k then some a else none).or (as.lookup k) := by
  rw [List.lookup_cons]
  by_cases h : key = k
  · rw [if_pos h, h, beq_self_eq_true]
    rfl
  · rw [if_neg h, beq_false_of_ne (Ne.symm h)]
    rfl

theorem lookup_enums_put (c : Catalog) (e : Declaration) (k : QualName) :
    (c.put e).enums.lookup k = (e.enum? k).or (c.enums.lookup k) := by
  cases e with
  | struct q s => rw [put, putStruct]; split <;> rfl
  | enum q d => exact lookup_cons_or q k d c.enums
  | managed q d => rfl

theorem lookup_classes_put (c : Catalog) (e : Declaration) (k : QualName) :
    (c.put e).classes.lookup k = (e.managed? k).or (c.classes.lookup k) := by
  cases e with
  | struct q s => rw [put, putStruct]; split <;> rfl
  | enum q d => rfl
  | managed q d => exact lookup_cons_or q k d c.classes

/-- Where a declaration goes before what was there, the last one counts. -/
theorem foldl_put_or {α : Type} (look : Catalog → Option α) {sel : Declaration → Option α}
    (hput : ∀ c e, look (put c e) = (sel e).or (look c)) (c : Catalog) (es : List Declaration) :
    look (es.foldl put c) = (es.reverse.findSome? sel).or (look c) := by
  induction es generalizing c with
  | nil => rfl
  | cons e es ih =>
    have hlast : [e].findSome? sel = sel e := by
      rw [List.findSome?_cons]
      cases sel e <;> rfl
    rw [List.foldl_cons, ih, hput, List.reverse_cons, List.findSome?_append, Option.or_assoc, hlast]

theorem lookup_enums_foldl_put (c : Catalog) (es : List Declaration) (k : QualName) :
    (es.foldl put c).enums.lookup k =
      (es.reverse.findSome? (Declaration.enum? k)).or (c.enums.lookup k) :=
  foldl_put_or (fun c => c.enums.lookup k) (fun c e => lookup_enums_put c e k) c es

theorem lookup_classes_foldl_put (c : Catalog) (es : List Declaration) (k : QualName) :
    (es.foldl put c).classes.lookup k =
      (es.reverse.findSome? (Declaration.managed? k)).or (c.classes.lookup k) :=
  foldl_put_or (fun c => c.classes.lookup k) (fun c e => lookup_classes_put c e k) c es

/-! ### Units -/

/-- The catalog with other namespaces. -/
def withNamespaces (c : Catalog) (names : List String) : Catalog :=
  ⟨c.structs, c.enums, c.classes, names, c.repeated⟩

theorem put_withNamespaces (c : Catalog) (names : List String) (e : Declaration) :
    (c.withNamespaces names).put e = (c.put e).withNamespaces names := by
  cases e with
  | struct q s =>
    by_cases hq : (c.struct? q).isSome
    · rw [put_of_taken hq, put_of_taken (c := c.withNamespaces names) hq]
      rfl
    · rw [put_of_free hq, put_of_free (c := c.withNamespaces names) hq]
      rfl
  | enum q d => rfl
  | managed q d => rfl

theorem foldl_put_withNamespaces (c : Catalog) (names : List String) (es : List Declaration) :
    es.foldl put (c.withNamespaces names) = (es.foldl put c).withNamespaces names := by
  induction es generalizing c with
  | nil => rfl
  | cons e es ih => rw [List.foldl_cons, put_withNamespaces, ih, List.foldl_cons]

theorem foldl_putNamespace_eq (c : Catalog) (names : List String) :
    ∃ more, names.foldl putNamespace c = c.withNamespaces (c.namespaces ++ more) := by
  induction names generalizing c with
  | nil => exact ⟨[], by rw [List.append_nil]; rfl⟩
  | cons n names ih =>
    obtain ⟨more, h⟩ := ih (c.putNamespace n)
    rw [List.foldl_cons, h, putNamespace]
    split
    · exact ⟨more, rfl⟩
    · exact ⟨n :: more, by rw [List.append_assoc]; rfl⟩

/-- **Units add their declarations**, one after the other, and namespaces behind those that are
there. -/
theorem foldl_addUnit_eq (c : Catalog) (us : List SourceUnit) :
    ∃ more, us.foldl addUnit c =
      ((us.flatMap (·.declarations)).foldl put c).withNamespaces (c.namespaces ++ more) := by
  induction us generalizing c with
  | nil => exact ⟨[], by rw [List.append_nil]; rfl⟩
  | cons u us ih =>
    obtain ⟨first, hfirst⟩ := foldl_putNamespace_eq c (u.namespaceName.toList ++ u.imports)
    obtain ⟨more, hmore⟩ := ih (c.addUnit u)
    have hunit : c.addUnit u =
        (u.declarations.foldl put c).withNamespaces (c.namespaces ++ first) := by
      rw [addUnit_eq, hfirst, foldl_put_withNamespaces]
    refine ⟨first ++ more, ?_⟩
    rw [List.foldl_cons, hmore, hunit, foldl_put_withNamespaces, List.flatMap_cons,
      List.foldl_append, ← List.append_assoc]
    rfl

theorem struct?_foldl_addUnit_eq (c : Catalog) (us : List SourceUnit) (k : QualName) :
    (us.foldl addUnit c).struct? k =
      (c.struct? k).or ((us.flatMap (·.declarations)).findSome? (Declaration.struct? k)) := by
  obtain ⟨more, h⟩ := foldl_addUnit_eq c us
  rw [← struct?_foldl_put, h]
  rfl

theorem lookup_enums_foldl_addUnit (c : Catalog) (us : List SourceUnit) (k : QualName) :
    (us.foldl addUnit c).enums.lookup k =
      ((us.flatMap (·.declarations)).reverse.findSome? (Declaration.enum? k)).or
        (c.enums.lookup k) := by
  obtain ⟨more, h⟩ := foldl_addUnit_eq c us
  rw [← lookup_enums_foldl_put, h]
  rfl

theorem lookup_classes_foldl_addUnit (c : Catalog) (us : List SourceUnit) (k : QualName) :
    (us.foldl addUnit c).classes.lookup k =
      ((us.flatMap (·.declarations)).reverse.findSome? (Declaration.managed? k)).or
        (c.classes.lookup k) := by
  obtain ⟨more, h⟩ := foldl_addUnit_eq c us
  rw [← lookup_classes_foldl_put, h]
  rfl

/-! ### Structs that are dropped -/

/-- Whether the declaration is one of a struct whose name is taken. It is noted and dropped. -/
def drops (c : Catalog) : Declaration → Bool
  | .struct k _ => (c.struct? k).isSome
  | _ => false

/-- The catalog without the note of what was dropped. -/
def unnoted (c : Catalog) : Catalog := ⟨c.structs, c.enums, c.classes, c.namespaces, []⟩

theorem unnoted_put {c c' : Catalog} (h : c.unnoted = c'.unnoted) (e : Declaration) :
    (c.put e).unnoted = (c'.put e).unnoted := by
  obtain ⟨hstructs, henums, hclasses, hnamespaces, -⟩ := Catalog.mk.inj h
  cases e with
  | struct q s =>
    have hsame : c'.struct? q = c.struct? q := by rw [struct?, struct?, hstructs]
    by_cases hq : (c.struct? q).isSome
    · rw [put_of_taken hq, put_of_taken (hsame ▸ hq)]
      exact h
    · rw [put_of_free hq, put_of_free (hsame ▸ hq)]
      simp only [unnoted, hstructs, henums, hclasses, hnamespaces]
  | enum q d => simp only [put, putEnum, unnoted, hstructs, henums, hclasses, hnamespaces]
  | managed q d => simp only [put, putClass, unnoted, hstructs, henums, hclasses, hnamespaces]

theorem unnoted_foldl_put {c c' : Catalog} (h : c.unnoted = c'.unnoted) (es : List Declaration) :
    (es.foldl put c).unnoted = (es.foldl put c').unnoted := by
  induction es generalizing c c' with
  | nil => exact h
  | cons e es ih => exact ih (unnoted_put h e)

theorem unnoted_put_of_drops {c : Catalog} {e : Declaration} (h : c.drops e = true) :
    (c.put e).unnoted = c.unnoted := by
  cases e with
  | struct q s =>
    rw [put_of_taken h]
    rfl
  | enum q d => cases h
  | managed q d => cases h

/-- A name that is taken stays taken. -/
theorem drops_put {c : Catalog} {d : Declaration} (h : c.drops d = true) (e : Declaration) :
    (c.put e).drops d = true := by
  cases d with
  | struct q s =>
    have hq : (c.struct? q).isSome := h
    show ((c.put e).struct? q).isSome = true
    rw [struct?_put, Option.isSome_or, hq]
    rfl
  | enum q d => cases h
  | managed q d => cases h

/-- **What is dropped contributes nothing**: without it the catalog is the same, but for the
note. -/
theorem unnoted_foldl_put_kept (c : Catalog) (es : List Declaration) :
    (es.foldl put c).unnoted = ((es.filter fun e => !c.drops e).foldl put c).unnoted := by
  suffices ∀ c', (∀ e, c.drops e = true → c'.drops e = true) →
      (es.foldl put c').unnoted = ((es.filter fun e => !c.drops e).foldl put c').unnoted from
    this c fun _ h => h
  induction es with
  | nil => exact fun _ _ => rfl
  | cons e es ih =>
    intro c' hc'
    have hrest := ih (c'.put e) fun d hd => drops_put (hc' d hd) e
    rw [List.foldl_cons, hrest]
    cases he : c.drops e with
    | true =>
      rw [List.filter_cons_of_neg (by simp [he])]
      exact unnoted_foldl_put (unnoted_put_of_drops (hc' e he)) _
    | false =>
      rw [List.filter_cons_of_pos (by simp [he])]
      rfl

theorem repeated_subset_foldl_put (c : Catalog) (es : List Declaration) :
    c.repeated ⊆ (es.foldl put c).repeated := by
  induction es generalizing c with
  | nil => exact List.Subset.refl _
  | cons e es ih =>
    refine List.Subset.trans ?_ (ih (c.put e))
    cases e with
    | struct q s =>
      rw [put, putStruct]
      split
      · exact List.subset_append_left _ _
      · exact List.Subset.refl _
    | enum q d => exact List.Subset.refl _
    | managed q d => exact List.Subset.refl _

/-- Only names of structs are noted. -/
theorem mem_repeated_foldl_put {c : Catalog} {es : List Declaration} {k : QualName}
    (h : k ∈ (es.foldl put c).repeated) : k ∈ c.repeated ∨ ∃ s, .struct k s ∈ es := by
  induction es generalizing c with
  | nil => exact .inl h
  | cons e es ih =>
    rcases ih h with hput | ⟨s, hs⟩
    · cases e with
      | struct q s =>
        rw [put, putStruct] at hput
        split at hput
        · rcases List.mem_append.1 hput with hc | hq
          · exact .inl hc
          · exact .inr ⟨s, by rw [List.mem_singleton.1 hq]; exact List.mem_cons_self⟩
        · exact .inl hput
      | enum q d => exact .inl hput
      | managed q d => exact .inl hput
    · exact .inr ⟨s, List.mem_cons_of_mem _ hs⟩

/-- And all of it is noted. -/
theorem mem_repeated_of_drops {c : Catalog} {es : List Declaration} {e : Declaration} (he : e ∈ es)
    (hdrops : c.drops e = true) : e.key ∈ (es.foldl put c).repeated := by
  induction es generalizing c with
  | nil => cases he
  | cons d es ih =>
    rcases List.mem_cons.1 he with rfl | he
    · refine repeated_subset_foldl_put _ es ?_
      cases e with
      | struct q s =>
        rw [put_of_taken hdrops]
        exact List.mem_append_right _ List.mem_cons_self
      | enum q d => cases hdrops
      | managed q d => cases hdrops
    · exact ih he (drops_put hdrops d)

end Catalog

/-! ### What a name means -/

section

variable {c c' : Catalog} {t : TypeRef} {scope k : QualName} {name : String}

/-- A name that means the same declaration in both catalogs is bound to the same, be it a type or an
error. -/
theorem bind_eq_of_means (h : c.Means scope t.name k) (h' : c'.Means scope t.name k)
    (hsame : c'.declared? k = c.declared? k) : c'.bind t scope = c.bind t scope := by
  obtain ⟨d, hd⟩ : ∃ d, c.declared? k = some d := by
    obtain ⟨_, _, -, hdeclared, -⟩ := h
    exact Option.isSome_iff_exists.1 hdeclared
  have hfirst := (means_iff hd).1 h
  have hfirst' := (means_iff (hsame.trans hd)).1 h'
  simp only [Catalog.bind, hfirst, hfirst']

/-- What stands in front of a name that does not occur there. -/
theorem takeWhile_bne_append {before : List QualName} (h : k ∉ before) (after : List QualName) :
    (before ++ k :: after).takeWhile (· != k) = before := by
  have hne : ∀ q ∈ before, (q != k) = true := by
    intro q hq
    have : q ≠ k := fun heq => h (heq ▸ hq)
    simpa using this
  rw [List.takeWhile_append_of_pos hne, List.takeWhile_cons_of_neg (by simp), List.append_nil]

/-- What is tried before a declaration that is meant. -/
theorem takeWhile_of_means {before after : List QualName} (hk : (c.declared? k).isSome)
    (hbefore : ∀ q ∈ before, c.declared? q = none) :
    (before ++ k :: after).takeWhile (· != k) = before := by
  refine takeWhile_bne_append (fun hmem => ?_) after
  rw [hbefore k hmem] at hk
  cases hk

variable {us : List SourceUnit}

theorem isSome_declared?_of_later (hk : (c.declared? k).isSome) :
    ((us.foldl Catalog.addUnit c).declared? k).isSome := by
  rw [Option.isSome_iff_ne_none] at hk ⊢
  exact fun hnone => hk ((Catalog.declared?_foldl_addUnit_eq_none_iff c us).1 hnone).1

/-- **A name keeps its meaning** if no unit declares a name that is tried before it. New namespaces
are tried last. -/
theorem Catalog.Means.of_later (h : c.Means scope name k)
    (hfresh : ∀ e ∈ us.flatMap (·.declarations),
      e.key ∉ (c.candidates name scope).takeWhile (· != k)) :
    (us.foldl Catalog.addUnit c).Means scope name k := by
  obtain ⟨before, after, hcandidates, hdeclared, hbefore⟩ := h
  obtain ⟨more, hmore⟩ := Catalog.foldl_addUnit_eq c us
  rw [hcandidates, takeWhile_of_means hdeclared hbefore] at hfresh
  refine ⟨before, after ++ more.map fun ns => .root (some ns) name, ?_,
    isSome_declared?_of_later hdeclared, fun q hq => ?_⟩
  · have hnamespaces : (us.foldl Catalog.addUnit c).namespaces = c.namespaces ++ more := by
      rw [hmore]
      rfl
    rw [candidates] at hcandidates
    rw [candidates, hnamespaces, List.map_append, ← List.cons_append, ← List.append_assoc,
      hcandidates, List.append_assoc, List.cons_append]
  · refine (Catalog.declared?_foldl_addUnit_eq_none_iff c us).2 ⟨hbefore q hq, fun u hu e he => ?_⟩
    rintro rfl
    exact hfresh e (List.mem_flatMap.2 ⟨u, hu, he⟩) hq

/-- **A declaration stays what it is** if it is one of a struct, or if nothing but classes is
declared under its name. -/
theorem declared?_of_later (hk : (c.declared? k).isSome)
    (hsame : ∀ e ∈ us.flatMap (·.declarations), e.key = k →
      (c.struct? k).isSome ∨ e.isManaged = true) :
    (us.foldl Catalog.addUnit c).declared? k = c.declared? k := by
  have hstruct := Catalog.struct?_foldl_addUnit_eq c us k
  have henum := Catalog.lookup_enums_foldl_addUnit c us k
  have hsome : ((us.foldl Catalog.addUnit c).declared? k).isSome := isSome_declared?_of_later hk
  cases hs : c.struct? k with
  | some s =>
    rw [hs, Option.some_or] at hstruct
    rw [Catalog.declared?_of_struct? hstruct, Catalog.declared?_of_struct? hs]
  | none =>
    have hmanaged : ∀ e ∈ us.flatMap (·.declarations), e.struct? k = none ∧ e.enum? k = none := by
      intro e he
      refine Declaration.eq_none_of_isManaged fun hkey => (hsame e he hkey).resolve_left ?_
      rw [hs]
      exact Bool.false_ne_true
    rw [hs, Option.none_or, List.findSome?_eq_none_iff.2 fun e he => (hmanaged e he).1] at hstruct
    rw [List.findSome?_eq_none_iff.2 fun e he => (hmanaged e (List.mem_reverse.1 he)).2,
      Option.none_or] at henum
    cases hd : c.enums.lookup k with
    | some d =>
      rw [Catalog.declared?_of_enum hstruct (henum.trans hd), Catalog.declared?_of_enum hs hd]
    | none =>
      rw [Catalog.declared?_of_isSome hstruct (henum.trans hd) hsome,
        Catalog.declared?_of_isSome hs hd hk]

end

/-! ### What stays -/

/-- **What stays when units are added**, whatever they declare. Every struct keeps its declaration.
An enumeration or a class does if no enumeration, or no class, is declared under its name. A name
that means a declaration is bound to what it was, be it a type or an error, if no name that is
tried before is declared, and if the declaration is a struct or nothing but classes is declared
under its name. A struct that is declared again is noted, and apart from that the declarations are
what they would be without it. -/
theorem later_units_keep (c : Catalog) (us : List SourceUnit) :
    let c' := us.foldl Catalog.addUnit c
    let added := us.flatMap (·.declarations)
    (∀ k s, c.struct? k = some s → c'.struct? k = some s) ∧
    (∀ k d, c.enums.lookup k = some d → (∀ e, .enum k e ∉ added) → c'.enums.lookup k = some d) ∧
    (∀ k d, c.classes.lookup k = some d → (∀ e, .managed k e ∉ added) →
      c'.classes.lookup k = some d) ∧
    (∀ (t : TypeRef) scope k, c.Means scope t.name k →
      (∀ e ∈ added, e.key ∉ (c.candidates t.name scope).takeWhile (· != k)) →
      (∀ e ∈ added, e.key = k → (c.struct? k).isSome ∨ e.isManaged = true) →
        c'.bind t scope = c.bind t scope) ∧
    (∀ e ∈ added, c.drops e = true → e.key ∈ c'.repeated) ∧
    let kept := (added.filter fun e => !c.drops e).foldl Catalog.put c
    c'.structs = kept.structs ∧ c'.enums = kept.enums ∧ c'.classes = kept.classes := by
  intro c' added
  obtain ⟨more, hmore⟩ : ∃ more, c' = (added.foldl Catalog.put c).withNamespaces
    (c.namespaces ++ more) := Catalog.foldl_addUnit_eq c us
  refine ⟨fun k s hs => ?_, fun k d hd hfresh => ?_, fun k d hd hfresh => ?_,
    fun t scope k hmeans hfresh hsame => ?_, fun e he hdrops => ?_, ?_⟩
  · rw [Catalog.struct?_foldl_addUnit_eq, hs, Option.some_or]
  · have hnone : ∀ e ∈ added.reverse, e.enum? k = none := fun e he =>
      Declaration.enum?_eq_none fun d heq => hfresh d (heq ▸ List.mem_reverse.1 he)
    rw [Catalog.lookup_enums_foldl_addUnit, List.findSome?_eq_none_iff.2 hnone, Option.none_or, hd]
  · have hnone : ∀ e ∈ added.reverse, e.managed? k = none := fun e he =>
      Declaration.managed?_eq_none fun d heq => hfresh d (heq ▸ List.mem_reverse.1 he)
    rw [Catalog.lookup_classes_foldl_addUnit, List.findSome?_eq_none_iff.2 hnone, Option.none_or,
      hd]
  · have hdeclared : (c.declared? k).isSome := by
      obtain ⟨_, _, -, hdeclared, -⟩ := hmeans
      exact hdeclared
    exact bind_eq_of_means hmeans (hmeans.of_later hfresh) (declared?_of_later hdeclared hsame)
  · rw [hmore]
    exact Catalog.mem_repeated_of_drops he hdrops
  · obtain ⟨hstructs, henums, hclasses, -⟩ :=
      Catalog.mk.inj (Catalog.unnoted_foldl_put_kept c added)
    rw [hmore]
    exact ⟨hstructs, henums, hclasses⟩

/-! ### Units that declare names again -/

/-- A unit with a struct whose field has the type of an enumeration. -/
def firstUnit : SourceUnit :=
  ⟨"a.cs", some "N", [], [
    .enum ⟨["public"], "E", some (.named "long"), []⟩,
    .struct ⟨["public"], "P", .none, none, [.field (.ofNames (.named "E") ["e"])]⟩]⟩

/-- A unit that declares the struct again, and one with an enumeration whose name is tried later. -/
def laterUnits : List SourceUnit := [
  ⟨"b.cs", some "N", ["M"], [
    .struct ⟨["public"], "P", .none, none, [.field (.ofNames (.named "int") ["x", "y"])]⟩]⟩,
  ⟨"c.cs", none, [], [.enum ⟨["public"], "E", some (.named "byte"), []⟩]⟩]

/-- Here the theorem says that the first struct is kept and its field is still a `long`, that the
second one is noted, and that no struct is new. -/
theorem later_units_keep_repeated :
    let c := Catalog.ofUnits [firstUnit]
    let c' := laterUnits.foldl Catalog.addUnit c
    (∃ s, c'.struct? ⟨"N.P"⟩ = some s ∧ s.slots.length = 1) ∧
      c'.bind (.named "E") ⟨"N.P"⟩ = .ok (.enum ⟨"N.E"⟩ .long) ∧
      ⟨"N.P"⟩ ∈ c'.repeated ∧ c'.structs.length = 1 := by
  intro c c'
  obtain ⟨hstructs, -, -, hnames, hnoted, hlist, -, -⟩ := later_units_keep c laterUnits
  have hstruct : ∃ s, c.struct? ⟨"N.P"⟩ = some s ∧ s.slots.length = 1 := ⟨_, rfl, rfl⟩
  have hmeans : c.Means ⟨"N.P"⟩ "E" ⟨"N.E"⟩ :=
    ⟨[⟨"N.P.E"⟩], [⟨"E"⟩, ⟨"N.E"⟩], by decide +kernel, by decide +kernel, by decide +kernel⟩
  have hbind : c.bind (.named "E") ⟨"N.P"⟩ = .ok (.enum ⟨"N.E"⟩ .long) := by decide +kernel
  have hkeys : laterUnits.flatMap (·.declarations) = [
      .struct ⟨"N.P"⟩
        ⟨["public"], "P", .none, none, [.field (.ofNames (.named "int") ["x", "y"])]⟩,
      .enum ⟨"E"⟩ ⟨["public"], "E", some (.named "byte"), []⟩] := rfl
  have hfresh : ∀ e ∈ laterUnits.flatMap (·.declarations),
      e.key ∉ (c.candidates "E" ⟨"N.P"⟩).takeWhile (· != ⟨"N.E"⟩) := by
    rw [hkeys]
    decide +kernel
  have hother : ∀ e ∈ laterUnits.flatMap (·.declarations), e.key ≠ ⟨"N.E"⟩ := by
    rw [hkeys]
    decide +kernel
  obtain ⟨s, hs, hslots⟩ := hstruct
  refine ⟨⟨s, hstructs _ s hs, hslots⟩, ?_, ?_, ?_⟩
  · rw [← hbind]
    exact hnames (.named "E") _ _ hmeans hfresh fun e he hkey => absurd hkey (hother e he)
  · have hdropped : ∀ e ∈ laterUnits.flatMap (·.declarations),
        e.key = ⟨"N.P"⟩ → c.drops e = true := by
      rw [hkeys]
      decide +kernel
    have hagain : ∃ e ∈ laterUnits.flatMap (·.declarations), e.key = ⟨"N.P"⟩ := by
      rw [hkeys]
      exact ⟨_, List.mem_cons_self, rfl⟩
    obtain ⟨e, he, hkey⟩ := hagain
    exact hkey ▸ hnoted e he (hdropped e he hkey)
  · rw [hlist]
    decide +kernel

/-- A unit that declares nothing but an enumeration in a namespace. -/
def nearerUnit : SourceUnit :=
  ⟨"b.cs", some "N", [], [.enum ⟨["public"], "E", some (.named "byte"), []⟩]⟩

/-- A name that means a declaration means another one when a nearer one is added, though nothing is
declared again and the first declaration is where it was. -/
theorem meaning_changes_nearer :
    let c := Catalog.ofUnits [
      ⟨"a.cs", none, [], [.enum ⟨["public"], "E", some (.named "long"), []⟩]⟩,
      ⟨"n.cs", some "N", [], [
        .struct ⟨["public"], "P", .none, none, [.field (.ofNames (.named "E") ["e"])]⟩]⟩]
    (∀ e ∈ nearerUnit.declarations, (c.declared? e.key).isNone) ∧
      c.Means ⟨"N.P"⟩ "E" ⟨"E"⟩ ∧
      c.bind (.named "E") ⟨"N.P"⟩ = .ok (.enum ⟨"E"⟩ .long) ∧
      (∃ d, c.enums.lookup ⟨"E"⟩ = some d ∧
        (c.addUnit nearerUnit).enums.lookup ⟨"E"⟩ = some d) ∧
      (c.addUnit nearerUnit).bind (.named "E") ⟨"N.P"⟩ = .ok (.enum ⟨"N.E"⟩ .byte) := by
  refine ⟨fun e he => ?_, ⟨[⟨"N.P.E"⟩, ⟨"N.E"⟩], [⟨"N.E"⟩], rfl, rfl, fun q hq => ?_⟩, rfl,
    ⟨_, rfl, rfl⟩, rfl⟩
  · obtain rfl := List.mem_singleton.1 he
    rfl
  · rcases List.mem_pair.1 hq with rfl | rfl
    · rfl
    · rfl

/-! ### Names without a guard -/

theorem findSome?_reverse_eq_some {α : Type} {sel : Declaration → Option α}
    {es : List Declaration} {a : α} (h : es.reverse.findSome? sel = some a) :
    ∃ before e after, es = before ++ e :: after ∧ sel e = some a ∧ ∀ d ∈ after, sel d = none := by
  obtain ⟨after, e, before, hes, he, hafter⟩ := List.findSome?_eq_some_iff.1 h
  refine ⟨before.reverse, e, after.reverse, ?_, he, fun d hd => hafter d (List.mem_reverse.1 hd)⟩
  rw [← List.reverse_reverse es, hes]
  simp

/-- **An enumeration that is declared again hides the first one**: what counts is the last one of
that name in the units that are added. The name is noted only if it is one of a struct as well. -/
theorem enum_again_hides (c : Catalog) {us : List SourceUnit} {k : QualName} {d : EnumDecl}
    (hagain : .enum k d ∈ us.flatMap (·.declarations)) :
    let c' := us.foldl Catalog.addUnit c
    let added := us.flatMap (·.declarations)
    (∃ before d' after, added = before ++ .enum k d' :: after ∧
        (∀ e ∈ after, e.enum? k = none) ∧ c'.enums.lookup k = some d') ∧
      (k ∈ c'.repeated → k ∈ c.repeated ∨ ∃ s, .struct k s ∈ added) := by
  intro c' added
  refine ⟨?_, fun hnoted => ?_⟩
  · have hfound : ((Declaration.enum k d).enum? k).isSome := by
      rw [Declaration.enum?_eq_some_iff.2 rfl]
      rfl
    obtain ⟨d', hlast⟩ : ∃ d', added.reverse.findSome? (Declaration.enum? k) = some d' :=
      Option.isSome_iff_exists.1
        (List.findSome?_isSome_iff.2 ⟨_, List.mem_reverse.2 hagain, hfound⟩)
    obtain ⟨before, e, after, hadded, he, hafter⟩ := findSome?_reverse_eq_some hlast
    obtain rfl := Declaration.enum?_eq_some_iff.1 he
    refine ⟨before, d', after, hadded, hafter, ?_⟩
    rw [Catalog.lookup_enums_foldl_addUnit, hlast, Option.some_or]
  · obtain ⟨more, hmore⟩ : ∃ more, c' = (added.foldl Catalog.put c).withNamespaces
      (c.namespaces ++ more) := Catalog.foldl_addUnit_eq c us
    rw [hmore] at hnoted
    exact Catalog.mem_repeated_foldl_put hnoted

/-- A unit with an enumeration, and a struct whose field has its type. -/
def sizedUnit : SourceUnit :=
  ⟨"a.cs", none, [], [
    .enum ⟨["public"], "E", some (.named "long"), []⟩,
    .struct ⟨["public"], "P", .none, none, [.field (.ofNames (.named "E") ["e"])]⟩]⟩

/-- A unit with the enumeration again, one byte wide. -/
def resizingUnit : SourceUnit :=
  ⟨"b.cs", none, [], [.enum ⟨["public"], "E", some (.named "byte"), []⟩]⟩

/-- The struct shrinks from eight bytes to one when the enumeration is declared again, and nothing
is noted. -/
theorem footprint_changes_enum :
    let c := Catalog.ofUnits [sizedUnit]
    let c' := c.addUnit resizingUnit
    c.bind (.named "E") ⟨"P"⟩ = .ok (.enum ⟨"E"⟩ .long) ∧
      (∃ f, c.flatten (.ofPointerWidth 8) ⟨"P"⟩ = .ok f ∧ f.footprint = ⟨8, 8⟩) ∧
      c'.bind (.named "E") ⟨"P"⟩ = .ok (.enum ⟨"E"⟩ .byte) ∧
      (∃ f', c'.flatten (.ofPointerWidth 8) ⟨"P"⟩ = .ok f' ∧ f'.footprint = ⟨1, 1⟩) ∧
      c'.repeated = [] :=
  ⟨rfl, ⟨_, rfl, rfl⟩, rfl, ⟨_, rfl, rfl⟩, rfl⟩

/-- A unit with a struct that holds an enumeration of some width. -/
def nestingUnit (width : String) (fields : List Member) : SourceUnit :=
  ⟨"s.cs", none, [], [
    .struct ⟨["public"], "S", .none, none,
      .enum ⟨["public"], "E", some (.named width), []⟩ :: fields⟩]⟩

/-- The second struct is noted and dropped, and the first one is kept as it was declared. But it
shrinks from eight bytes to one, since the enumeration in the second one is not dropped. -/
theorem footprint_changes_dropped :
    let c := Catalog.ofUnits [nestingUnit "long" [.field (.ofNames (.named "E") ["e"])]]
    let c' := c.addUnit (nestingUnit "byte" [])
    c'.structs = c.structs ∧ c'.repeated = [⟨"S"⟩] ∧
      (∃ f, c.flatten (.ofPointerWidth 8) ⟨"S"⟩ = .ok f ∧ f.footprint = ⟨8, 8⟩) ∧
      ∃ f', c'.flatten (.ofPointerWidth 8) ⟨"S"⟩ = .ok f' ∧ f'.footprint = ⟨1, 1⟩ :=
  ⟨rfl, rfl, ⟨_, rfl, rfl⟩, ⟨_, rfl, rfl⟩⟩

end FlatLayout
