import FlatLayout.Proofs.Origins

/-!
# Names of types in another struct

The type of a member is written once, in the struct that declares the field, and copied into every
container. The name is looked up again wherever the flat declaration is read: in the container, in
whatever that stands in, at the top, and in the namespaces. From there the declaration that was
meant may not be visible, or another one may come first.

What a name means in a scope is therefore put in a form that can be compared between scopes: the
declaration is visible, and nothing visible before it has the same name.

## Main definitions

* `Binding.declaration?` — the declaration that a type is
* `Catalog.Means` — a name means a declaration in a scope

## Main results

* `bind_iff_means` — a type is bound in another scope to what it was bound to exactly if its name
  means the same declaration there
* `type_names_iff` — the same for everything that is written in a flat declaration
-/

namespace FlatLayout

open Relation

/-- The declaration that a type is. Primitive types and pointers have none. -/
def Binding.declaration? : Binding → Option QualName
  | .enum key _ | .struct key => some key
  | _ => none

/-- The name, written in the scope, means the declaration `k`: it is one of those that can be meant,
and none that is preferred is declared. -/
def Catalog.Means (c : Catalog) (scope : QualName) (name : String) (k : QualName) : Prop :=
  ∃ before after, c.candidates name scope = before ++ k :: after ∧ (c.declared? k).isSome ∧
    ∀ q ∈ before, c.declared? q = none

variable {c : Catalog} {o : Options} {key scope : QualName} {f : FlatStruct} {t : TypeRef}
  {type : Binding} {k : QualName} {d : Declared}

/-! ### The first that is declared -/

theorem firstDeclared_eq_some_iff {keys : List QualName} :
    c.firstDeclared keys = some (k, d) ↔
      ∃ before after, keys = before ++ k :: after ∧ c.declared? k = some d ∧
        ∀ q ∈ before, c.declared? q = none := by
  rw [Catalog.firstDeclared, List.findSome?_eq_some_iff]
  simp only [Option.map_eq_some_iff, Option.map_eq_none_iff]
  constructor
  · rintro ⟨before, q, after, hkeys, ⟨d', hd, heq⟩, hbefore⟩
    obtain ⟨rfl, rfl⟩ := Prod.mk.inj heq
    exact ⟨before, after, hkeys, hd, hbefore⟩
  · rintro ⟨before, after, hkeys, hd, hbefore⟩
    exact ⟨before, k, after, hkeys, ⟨d, hd, rfl⟩, hbefore⟩

theorem means_iff {name : String} (hd : c.declared? k = some d) :
    c.Means scope name k ↔ c.firstDeclared (c.candidates name scope) = some (k, d) := by
  rw [firstDeclared_eq_some_iff, Catalog.Means]
  simp only [hd, Option.isSome_some, true_and]

/-- Distinct declarations are distinct types. -/
theorem bindDeclared_declaration? {q : QualName} (h : Catalog.bindDeclared q d = .ok type)
    (hk : type.declaration? = some k) : q = k := by
  cases d with
  | struct => cases h; exact Option.some.inj hk
  | enum e =>
    rw [Catalog.bindDeclared] at h
    cases hbase : Catalog.enumBase q e with
    | error e => rw [hbase] at h; cases h
    | ok p => rw [hbase] at h; cases h; exact Option.some.inj hk
  | managed => cases h; cases hk

theorem means_of_bind (h : c.bind t scope = .ok type) (hk : type.declaration? = some k) :
    c.Means scope t.name k := by
  unfold Catalog.bind at h
  split at h
  · cases h; cases hk
  split at h
  · cases h; cases hk
  split at h
  · cases h; cases hk
  split at h
  next q d hfirst =>
    obtain rfl := bindDeclared_declaration? h hk
    obtain ⟨before, after, hkeys, hd, hbefore⟩ := firstDeclared_eq_some_iff.1 hfirst
    exact ⟨before, after, hkeys, by rw [hd]; rfl, hbefore⟩
  · cases h

/-- A name that means the same declaration is bound to the same type, also in a catalog in which
this declaration is the same. -/
theorem bind_of_means (h : c.bind t scope = .ok type) (hk : type.declaration? = some k)
    {c' : Catalog} {scope' : QualName} (hmeans : c'.Means scope' t.name k)
    (hsame : c'.declared? k = c.declared? k) : c'.bind t scope' = .ok type := by
  unfold Catalog.bind at h ⊢
  split at h
  · exact h
  split at h
  · exact h
  split at h
  · cases h; cases hk
  next hmanaged =>
    rw [if_neg hmanaged]
    split at h
    next q d hfirst =>
      obtain rfl := bindDeclared_declaration? h hk
      obtain ⟨_, _, -, hd, -⟩ := firstDeclared_eq_some_iff.1 hfirst
      simp only [(means_iff (hsame.trans hd)).1 hmeans]
      exact h
    · cases h

/-! ### Types that mean the same everywhere -/

/-- Whether every scope means the type by the same name: no declaration is looked for. -/
def Binding.isFixed : Binding → Bool
  | .primitive _ | .pointer _ => true
  | _ => false

theorem bindDeclared_not_isFixed {q : QualName} (h : Catalog.bindDeclared q d = .ok type) :
    type.isFixed = false := by
  cases d with
  | struct => cases h; rfl
  | enum e =>
    rw [Catalog.bindDeclared] at h
    cases hbase : Catalog.enumBase q e with
    | error e => rw [hbase] at h; cases h
    | ok p => rw [hbase] at h; cases h; rfl
  | managed => cases h; rfl

theorem bind_of_isFixed (h : c.bind t scope = .ok type) (hfixed : type.isFixed = true)
    (c' : Catalog) (scope' : QualName) : c'.bind t scope' = .ok type := by
  unfold Catalog.bind at h ⊢
  split at h
  · exact h
  split at h
  · exact h
  split at h
  · cases h
    cases hfixed
  split at h
  · rw [bindDeclared_not_isFixed h] at hfixed
    cases hfixed
  · cases h

/-- **A type with a layout is bound in another scope to what it was bound to** exactly if its name
means the same declaration there, in case it is a declaration. -/
theorem bind_iff_means (h : c.bind t scope = .ok type) (hmanaged : ∀ name, type ≠ .managed name)
    (scope' : QualName) :
    c.bind t scope' = .ok type ↔ ∀ k, type.declaration? = some k → c.Means scope' t.name k := by
  refine ⟨fun hsame k hk => means_of_bind hsame hk, fun hmeans => ?_⟩
  cases type with
  | primitive p => exact bind_of_isFixed h rfl c scope'
  | pointer r => exact bind_of_isFixed h rfl c scope'
  | enum k p => exact bind_of_means h rfl (hmeans k rfl) rfl
  | struct k => exact bind_of_means h rfl (hmeans k rfl) rfl
  | managed name => exact absurd rfl (hmanaged name)

/-! ### What is written in a flat declaration -/

/-- The type of a spot has a layout. -/
theorem SpotStep.not_managed {child : QualName → Except LayoutError FlatStruct} {p q : Placement}
    {s : Spot} (h : SpotStep c o child key p s q) (name : String) : s.type ≠ .managed name := by
  intro htype
  have hmade := h.made
  rw [htype] at hmade
  cases hmade

variable {m : PlacedMember} {e : QualName} {g : FieldDecl}

namespace Catalog.Origin

theorem not_managed (h : c.Origin o key m e g) (hbind : c.bind g.type e = .ok type)
    (name : String) : type ≠ .managed name := by
  induction h with
  | own spot =>
    obtain ⟨p, q, hstep⟩ := exists_step_of_mem_spots spot
    obtain rfl := Except.ok.inj (hstep.bound.symm.trans hbind)
    exact hstep.not_managed name
  | reference spot =>
    obtain ⟨p, q, hstep⟩ := exists_step_of_mem_spots spot
    obtain rfl := Except.ok.inj (hstep.bound.symm.trans hbind)
    exact hstep.not_managed name
  | moved _ _ _ _ _ _ _ _ ih => exact ih hbind
  | kept _ _ _ _ _ _ _ ih => exact ih hbind

/-- The type of a member means in the flat struct what it meant where it was declared, exactly if
its name does. -/
theorem bind_iff (h : c.Origin o key m e g) (hbind : c.bind g.type e = .ok type) :
    c.bind m.type key = .ok type ↔
      ∀ k, type.declaration? = some k → c.Means key m.type.name k := by
  rw [h.type_eq]
  exact bind_iff_means hbind (h.not_managed hbind) key

end Catalog.Origin

theorem mem_accessors_iff {s : StructDecl} {a : AccessorDecl} :
    a ∈ s.accessors ↔ .accessor a ∈ s.members := by
  rw [StructDecl.accessors, List.mem_filterMap]
  constructor
  · rintro ⟨m, hm, haccessor⟩
    cases m with
    | accessor b => rwa [← Option.some.inj haccessor]
    | field f => cases haccessor
    | struct s => cases haccessor
    | enum e => cases haccessor
    | conditional symbol ms otherwise => cases haccessor
    | verbatim text => cases haccessor
  · exact fun h => ⟨.accessor a, h, rfl⟩

/-- **The accessors of a flat declaration** are those of the flat struct, and the ones that were
declared before. -/
theorem accessor_of_answer (h : c.answer o key = .ok f) {a : AccessorDecl}
    (ha : a ∈ f.decl.accessors) :
    (∃ m ∈ f.members, m.isAccessor = true ∧ a.name = m.name ∧ a.pointee = m.type) ∨
      ∃ s, c.struct? key = some s ∧ a ∈ s.accessors := by
  rw [mem_accessors_iff] at ha
  obtain ⟨s, rule, ts, p, hs, laid⟩ := Catalog.exists_laid_of_answer h
  rcases laid.emitted.mem ha with ⟨t, ht, m, hm, hmember⟩ | ⟨hcopied, -⟩
  · have hmem : m ∈ f.members := laid.members_spot_subset ht hm
    cases hacc : m.isAccessor with
    | false =>
      rw [toMember_of_field hacc] at hmember
      cases hmember
    | true =>
      obtain ⟨b, -, -, hbase, -⟩ := targeted_of_answer h m hmem hacc
      rw [toMember_of_accessor hacc hbase] at hmember
      obtain rfl := Member.accessor.inj hmember
      exact .inl ⟨m, hmem, hacc, rfl, rfl⟩
  · exact .inr ⟨s, hs, mem_accessors_iff.2 hcopied⟩

/-- **What the names of types in a flat declaration mean.** Its instance fields and new accessors
are written with the types of members. Each member goes back to a field that is declared in the
struct or in one that it contains, and was bound to something there. The type of the member is bound
to the same in the flat struct exactly if it is primitive, or a pointer, or its name means the same
declaration. -/
theorem type_names_iff (calls : List Call)
    (h : outcome (Bench.flatten c o key) (Workbench.afterCalls c o calls) = .ok f) :
    (∀ g ∈ f.decl.fields, g.isInstance = true → ∃ m ∈ f.fields, g = m.toField) ∧
    (∀ a ∈ f.decl.accessors,
      (∃ m ∈ f.members, m.isAccessor = true ∧ a.name = m.name ∧ a.pointee = m.type) ∨
        ∃ s, c.struct? key = some s ∧ a ∈ s.accessors) ∧
    ∀ m ∈ f.members, (∃ e g, c.Origin o key m e g) ∧ ∀ e g, c.Origin o key m e g →
      ReflTransGen c.Contains key e ∧ c.HasField e g ∧ m.type = g.type ∧
        ∃ type, c.bind g.type e = .ok type ∧
          (c.bind m.type key = .ok type ↔
            ∀ k, type.declaration? = some k → c.Means key m.type.name k) := by
  rw [outcome_flatten_eq_answer] at h
  refine ⟨fun g => instanceField_of_answer h, fun a => accessor_of_answer h, fun m hm => ?_⟩
  refine ⟨exists_origin h hm, fun e g horigin => ?_⟩
  obtain ⟨type, hbind⟩ := horigin.exists_bind
  exact ⟨horigin.reachable, horigin.hasField, horigin.type_eq, type, hbind, horigin.bind_iff hbind⟩

/-! ### A name that means something else -/

/-- A struct with an enumeration of its own, a larger enumeration of the same name outside, and a
struct that contains the first one. -/
def shadowedCatalog : Catalog :=
  let enum (underlying : String) : EnumDecl := ⟨["public"], "E", some (.named underlying), []⟩
  let inner : StructDecl := ⟨["public"], "C", .none, none,
    [.enum (enum "byte"), .field (.ofNames (.named "E") ["e"])]⟩
  let outer : StructDecl := ⟨["public"], "P", Markers.none.insert .flatten, none,
    [.field (.ofNames (.named "C") ["c"])]⟩
  ⟨[(⟨"C"⟩, inner), (⟨"P"⟩, outer)], [(⟨"C.E"⟩, enum "byte"), (⟨"E"⟩, enum "long")], [], [], []⟩

/-- Where the name is written, it means the smaller enumeration. -/
theorem bind_field_shadowed (hg : shadowedCatalog.HasField e g) (hname : g.type = .named "E")
    (hbind : shadowedCatalog.bind g.type e = .ok type) : type = .enum ⟨"C.E"⟩ .byte := by
  have hall : shadowedCatalog.allFields (fun g type =>
      g.type != .named "E" || type == .enum ⟨"C.E"⟩ .byte) = true := rfl
  simpa [hname] using Catalog.of_allFields hall hg hbind

theorem bind_outer_shadowed :
    shadowedCatalog.bind (.named "E") ⟨"P"⟩ = .ok (.enum ⟨"E"⟩ .long) := rfl

/-- In the outer struct the name is not bound to a byte, so by the theorem it does not mean the
enumeration of the inner one. -/
theorem type_names_iff_shadowed :
    ∃ f, outcome (Bench.flatten shadowedCatalog (.ofPointerWidth 8) ⟨"P"⟩)
        (Workbench.afterCalls shadowedCatalog (.ofPointerWidth 8) []) = .ok f ∧
      ∃ m ∈ f.fields, m.name = "c_e" ∧ ¬ shadowedCatalog.Means ⟨"P"⟩ m.type.name ⟨"C.E"⟩ := by
  have hflat : ∃ f, outcome (Bench.flatten shadowedCatalog (.ofPointerWidth 8) ⟨"P"⟩)
        (Workbench.afterCalls shadowedCatalog (.ofPointerWidth 8) []) = .ok f ∧
      ∃ m ∈ f.fields, m.name = "c_e" ∧ m.type = .named "E" := by decide +kernel
  obtain ⟨f, hf, m, hm, hname, htype⟩ := hflat
  refine ⟨f, hf, m, hm, hname, fun hmeans => ?_⟩
  obtain ⟨-, -, hmembers⟩ := type_names_iff [] hf
  obtain ⟨⟨e, g, horigin⟩, hall⟩ := hmembers m (List.mem_filter.1 hm).1
  obtain ⟨-, hg, hsame, type, hbind, hiff⟩ := hall e g horigin
  obtain rfl := bind_field_shadowed hg (hsame.symm.trans htype) hbind
  have hbyte := hiff.2 fun k hk => Option.some.inj hk ▸ hmeans
  rw [htype, bind_outer_shadowed] at hbyte
  exact absurd (Binding.enum.inj (Except.ok.inj hbyte)).2 (by decide)

/-- The field was declared as one byte, and is read in the outer struct as eight. -/
theorem type_changes_shadowed :
    ∃ f, shadowedCatalog.flatten (.ofPointerWidth 8) ⟨"P"⟩ = .ok f ∧
      ∃ m ∈ f.fields, ∃ e g, shadowedCatalog.Origin (.ofPointerWidth 8) ⟨"P"⟩ m e g ∧
        shadowedCatalog.bind g.type e = .ok (.enum ⟨"C.E"⟩ .byte) ∧
        shadowedCatalog.bind m.type ⟨"P"⟩ = .ok (.enum ⟨"E"⟩ .long) := by
  have hflat : ∃ f, shadowedCatalog.flatten (.ofPointerWidth 8) ⟨"P"⟩ = .ok f ∧
      ∃ m ∈ f.fields, m.name = "c_e" ∧ m.type = .named "E" := by decide +kernel
  obtain ⟨f, hf, m, hm, -, htype⟩ := hflat
  have hanswer := (flatten_eq_answer _ _ _).symm.trans hf
  obtain ⟨e, g, horigin⟩ := exists_origin hanswer (List.mem_filter.1 hm).1
  obtain ⟨type, hbind⟩ := horigin.exists_bind
  obtain rfl := bind_field_shadowed horigin.hasField (horigin.type_eq.symm.trans htype) hbind
  exact ⟨f, hf, m, hm, e, g, horigin, hbind, by rw [htype, bind_outer_shadowed]⟩

end FlatLayout
