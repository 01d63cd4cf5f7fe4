import FlatLayout.Project
import FlatLayout.Proofs.Growth

/-!
# How a unit is treated

Flattening the marked structs of a unit is one pass down its tree, and three things come of it: the
new unit, the list of the structs that were replaced, and the workbench. Here the pass is gone
through once, and all three are described together.

The new unit is described by rules for what takes the place of a member, and the rules list the
structs that are not dropped, in the order in which the pass comes to them. This list is the link
between the three: the marked structs on it are the ones that were replaced, and they are what the
workbench was asked for.

## Main definitions

* `Workbench.Serves` — a workbench is asked for some structs, one after the other
* `Drafts` — what some steps in flattening a unit yield, and which structs they replace
* `Shell` — a struct before what is nested in it is looked at
* `TreatedAll`, `Treated`, `TreatedItems` — what takes the place of members, of a struct, and of the
  items of a unit, with the structs that are met on the way
* `Catalog.FlatsOf` — the flat structs that the marked ones among some structs are replaced by
* `Project.draft`, `Project.Treats` — what becomes of a whole project

## Main results

* `Workbench.Serves.grows` — the memo grows by what is contained in the structs asked for
* `drafts_flattenMarked` — flattening a unit keeps to the rules
* `treats_of_run` — the same for what flattening a project yields
-/

namespace FlatLayout

open Relation

/-! ### What is asked of the workbench -/

/-- The workbench `w` is asked for the structs `fs`, one after the other, and is `w'` behind that.
Reports may be made in between. -/
inductive Workbench.Serves (c : Catalog) (o : Options) :
    Workbench → List FlatStruct → Workbench → Prop
  | done (w : Workbench) : Serves c o w [] w
  | report {w w' : Workbench} {fs : List FlatStruct} (log : List Log.Record)
      (rest : Serves c o { w with log := log } fs w') : Serves c o w fs w'
  | flatten {w w' : Workbench} {fs : List FlatStruct} {key : QualName} {f : FlatStruct}
      (success : outcome (Bench.flatten c o key) w = .ok f)
      (rest : Serves c o (stateAfter (Bench.flatten c o key) w) fs w') : Serves c o w (f :: fs) w'

variable {c : Catalog} {o : Options}

namespace Workbench.Serves

variable {w w' w'' : Workbench} {fs gs : List FlatStruct}

theorem trans (h : Serves c o w fs w') (h' : Serves c o w' gs w'') :
    Serves c o w (fs ++ gs) w'' := by
  induction h with
  | done w => exact h'
  | report log rest ih => exact .report log (ih h')
  | flatten success rest ih => exact .flatten success (ih h')

theorem faithful (h : Serves c o w fs w') (hw : w.Faithful c o []) : w'.Faithful c o [] := by
  induction h with
  | done w => exact hw
  | report log rest ih => exact ih (silent_faithful _ log hw)
  | flatten success rest ih => exact ih (keeps_flatten c o _ _ hw)

/-- **The memo grows** by what is contained in the structs that are asked for, and these are
finished then. -/
theorem grows (h : Serves c o w fs w') (hw : w.pending = []) :
    w.Grows c (fun d => ∃ f ∈ fs, ReflTransGen c.Contains f.key d) w' ∧
      ∀ f ∈ fs, f.key ∈ w'.memo.keys := by
  induction h with
  | done w => exact ⟨.refl w, nofun⟩
  | report log rest ih =>
    obtain ⟨⟨hbuilds, hunderway, hcounted⟩, hkeys⟩ := ih hw
    exact ⟨⟨hbuilds, hunderway, hcounted⟩, hkeys⟩
  | @flatten w w' fs key f success rest ih =>
    obtain ⟨hfirst, hsuccess⟩ := leads_flattenWithin c o (c.structs.length + 1) [] key w hw
    obtain ⟨rfl, hfinished⟩ := hsuccess f success
    obtain ⟨hrest, hkeys⟩ := ih (hfirst.underway.trans hw)
    refine ⟨.trans (hfirst.mono fun d hd => ⟨f, List.mem_cons_self, hd.1⟩)
      (hrest.mono fun d ⟨g, hg, hd⟩ => ⟨g, List.mem_cons_of_mem _ hg, hd⟩), fun g hg => ?_⟩
    rcases List.mem_cons.1 hg with rfl | hg
    · exact hrest.builds.key_subset (hfinished g.key rfl)
    · exact hkeys g hg

end Workbench.Serves

/-- The draft `d` has become `d'`: the structs `fs` were asked for and replaced. -/
structure Draft.Advances (c : Catalog) (o : Options) (d : Draft) (fs : List FlatStruct)
    (d' : Draft) : Prop where
  served : d.bench.Serves c o fs d'.bench
  replaced : d'.replaced = d.replaced ++ fs

theorem Draft.Advances.trans {d d' d'' : Draft} {fs gs : List FlatStruct}
    (h : d.Advances c o fs d') (h' : d'.Advances c o gs d'') : d.Advances c o (fs ++ gs) d'' where
  served := h.served.trans h'.served
  replaced := by rw [h'.replaced, h.replaced, List.append_assoc]

theorem Draft.Advances.faithful {d d' : Draft} {fs : List FlatStruct} (h : d.Advances c o fs d')
    (hd : d.Faithful c o) : d'.Faithful c o := h.served.faithful hd

/-- From every faithful draft, a success of the steps and the structs that are replaced have the
property `P`. -/
def Drafts {α : Type} (c : Catalog) (o : Options) (steps : Drafting α)
    (P : α → List FlatStruct → Prop) : Prop :=
  ∀ d : Draft, d.Faithful c o → ∀ a, outcome steps d = .ok a →
    ∃ fs, d.Advances c o fs (stateAfter steps d) ∧ P a fs

namespace Drafts

variable {α β : Type} {P : α → List FlatStruct → Prop} {Q : β → List FlatStruct → Prop}

theorem pure {a : α} (h : P a []) : Drafts c o (pure a) P := by
  intro d _ b hb
  refine ⟨[], ⟨.done _, (List.append_nil _).symm⟩, ?_⟩
  rw [← Except.ok.inj hb]
  exact h

theorem throw (e : LayoutError) : Drafts c o (throw e) P := nofun

/-- The structs that the second steps replace come behind those of the first ones. -/
theorem bind {x : Drafting α} {f : α → Drafting β} (hx : Drafts c o x P)
    (hf : ∀ a fs, P a fs → Drafts c o (f a) fun b gs => Q b (fs ++ gs)) :
    Drafts c o (x >>= f) Q := by
  intro d hd b hb
  cases hr : outcome x d with
  | error e => rw [outcome_bind_error hr] at hb; cases hb
  | ok a =>
    obtain ⟨fs, hadvances, hP⟩ := hx d hd a hr
    rw [outcome_bind_ok hr] at hb
    obtain ⟨gs, hadvances', hQ⟩ := hf a fs hP _ (hadvances.faithful hd) b hb
    rw [stateAfter_bind_ok hr]
    exact ⟨fs ++ gs, hadvances.trans hadvances', hQ⟩

/-- A report may stand in front. -/
theorem afterNote {what : String} {steps : Unit → Drafting α} (h : Drafts c o (steps ()) P) :
    Drafts c o (Drafting.noteDropped what >>= steps) P := by
  intro d hd a ha
  obtain ⟨fs, hadvances, hP⟩ := h _ (keeps_noteDropped c o what d hd) a ha
  exact ⟨fs, ⟨.report _ hadvances.served, hadvances.replaced⟩, hP⟩

/-- What follows on a struct that is flattened and counted as replaced. -/
theorem replace {key : QualName} {steps : FlatStruct → Drafting α}
    (h : ∀ f, c.answer o key = .ok f → Drafts c o (steps f) fun a fs => P a (f :: fs)) :
    Drafts c o (Drafting.ofBench (Bench.flatten c o key) >>= fun f =>
      Drafting.addReplaced f >>= fun _ => steps f) P := by
  intro d hd a ha
  obtain ⟨hanswer, hfaithful⟩ := computes_flatten c o key d.bench hd
  cases hr : outcome (Drafting.ofBench (Bench.flatten c o key)) d with
  | error e => rw [outcome_bind_error hr] at ha; cases ha
  | ok f =>
    have hf : outcome (Bench.flatten c o key) d.bench = .ok f := hr
    let next : Draft := ⟨stateAfter (Bench.flatten c o key) d.bench, d.replaced ++ [f]⟩
    rw [outcome_bind_ok hr] at ha
    rw [stateAfter_bind_ok hr]
    obtain ⟨fs, hadvances, hP⟩ := h f (hanswer ▸ hf) next hfaithful a ha
    refine ⟨f :: fs, ⟨.flatten hf hadvances.served, ?_⟩, hP⟩
    show (stateAfter (steps f) next).replaced = d.replaced ++ f :: fs
    rw [hadvances.replaced, List.append_assoc]
    rfl

end Drafts

/-! ### The rules -/

/-- What a struct is replaced by, before what is nested in it is looked at: itself without markers,
or its flat declaration. -/
inductive Shell (c : Catalog) (o : Options) (key : QualName) (s : StructDecl) : StructDecl → Prop
  | copied (named : s.markers.anonymous = false) (unmarked : s.markers.flatten = false) :
      Shell c o key s { s with markers := .none }
  | flattened {f : FlatStruct} (named : s.markers.anonymous = false)
      (marked : s.markers.flatten = true) (flat : c.answer o key = .ok f) : Shell c o key s f.decl

/-- Some of these structs are marked; they are replaced by `fs`, in this order. -/
def Catalog.FlatsOf (c : Catalog) (o : Options) (vs : List (QualName × StructDecl))
    (fs : List FlatStruct) : Prop :=
  List.Forall₂ (fun v f => c.answer o v.1 = .ok f) (vs.filter (·.2.markers.flatten)) fs

/-- What takes the place of the members of the struct `key`, and the structs at any depth in there
that are not dropped, each in front of what is nested in it. -/
inductive TreatedAll (c : Catalog) (o : Options) :
    QualName → List Member → List Member → List (QualName × StructDecl) → Prop
  | nil (key : QualName) : TreatedAll c o key [] [] []
  | field {key : QualName} {ms out : List Member} {vs : List (QualName × StructDecl)}
      (g : FieldDecl) (rest : TreatedAll c o key ms out vs) :
      TreatedAll c o key (.field g :: ms) (.field { g with markers := .none } :: out) vs
  | struct {key : QualName} {s t : StructDecl} {inner ms out : List Member}
      {ws vs : List (QualName × StructDecl)} (shell : Shell c o (key.child s.name) s t)
      (inside : TreatedAll c o (key.child s.name) t.members inner ws)
      (rest : TreatedAll c o key ms out vs) :
      TreatedAll c o key (.struct s :: ms) (.struct { t with members := inner } :: out)
        (((key.child s.name, s) :: ws) ++ vs)
  | dropped {key : QualName} {s : StructDecl} {ms out : List Member}
      {vs : List (QualName × StructDecl)} (anonymous : s.markers.anonymous = true)
      (rest : TreatedAll c o key ms out vs) : TreatedAll c o key (.struct s :: ms) out vs
  | copied {key : QualName} {m : Member} {ms out : List Member}
      {vs : List (QualName × StructDecl)} (nofield : m.field? = none) (nostruct : m.struct? = none)
      (rest : TreatedAll c o key ms out vs) : TreatedAll c o key (m :: ms) (m :: out) vs

/-- What takes the place of the struct `key` if it is not dropped, and the structs that are not
dropped, with itself in front. -/
def Treated (c : Catalog) (o : Options) (key : QualName) (s s' : StructDecl)
    (vs : List (QualName × StructDecl)) : Prop :=
  ∃ t inner ws, Shell c o key s t ∧ TreatedAll c o key t.members inner ws ∧
    s' = { t with members := inner } ∧ vs = (key, s) :: ws

/-- What takes the place of the items of a unit in a namespace, and the structs at any depth that
are not dropped. -/
inductive TreatedItems (c : Catalog) (o : Options) (space : Option String) :
    List Item → List Item → List (QualName × StructDecl) → Prop
  | nil : TreatedItems c o space [] [] []
  | struct {s s' : StructDecl} {is out : List Item} {ws vs : List (QualName × StructDecl)}
      (treated : Treated c o (.root space s.name) s s' ws)
      (rest : TreatedItems c o space is out vs) :
      TreatedItems c o space (.struct s :: is) (.struct s' :: out) (ws ++ vs)
  | dropped {s : StructDecl} {is out : List Item} {vs : List (QualName × StructDecl)}
      (anonymous : s.markers.anonymous = true) (rest : TreatedItems c o space is out vs) :
      TreatedItems c o space (.struct s :: is) out vs
  | droppedClass {d : ClassDecl} {is out : List Item} {vs : List (QualName × StructDecl)}
      (marker : isMarkerClass d.name d.base = true) (rest : TreatedItems c o space is out vs) :
      TreatedItems c o space (.classDecl d :: is) out vs
  | copied {i : Item} {is out : List Item} {vs : List (QualName × StructDecl)}
      (nostruct : i.struct? = none)
      (nomarker : ∀ d, i = .classDecl d → isMarkerClass d.name d.base = false)
      (rest : TreatedItems c o space is out vs) : TreatedItems c o space (i :: is) (i :: out) vs

/-! ### From the steps to the rules -/

section

variable {key : QualName}

theorem Catalog.FlatsOf.nil : c.FlatsOf o [] [] := List.Forall₂.nil

theorem Catalog.FlatsOf.append {vs ws : List (QualName × StructDecl)} {fs gs : List FlatStruct}
    (h : c.FlatsOf o vs fs) (h' : c.FlatsOf o ws gs) : c.FlatsOf o (vs ++ ws) (fs ++ gs) := by
  rw [Catalog.FlatsOf, List.filter_append]
  exact List.rel_append h h'

theorem Catalog.FlatsOf.cons_marked {s : StructDecl} {f : FlatStruct}
    {vs : List (QualName × StructDecl)} {fs : List FlatStruct} (hmarked : s.markers.flatten = true)
    (hf : c.answer o key = .ok f) (h : c.FlatsOf o vs fs) :
    c.FlatsOf o ((key, s) :: vs) (f :: fs) := by
  rw [Catalog.FlatsOf, List.filter_cons_of_pos (by exact hmarked)]
  exact .cons hf h

theorem Catalog.FlatsOf.cons_unmarked {s : StructDecl} {vs : List (QualName × StructDecl)}
    {fs : List FlatStruct} (hunmarked : s.markers.flatten = false) (h : c.FlatsOf o vs fs) :
    c.FlatsOf o ((key, s) :: vs) fs := by
  rw [Catalog.FlatsOf, List.filter_cons_of_neg (by simp [hunmarked])]
  exact h

/-- Some steps for the members of a struct keep to the rules. -/
def Treats (c : Catalog) (o : Options)
    (nested : QualName → List Member → Drafting (List Member)) : Prop :=
  ∀ key ms, Drafts c o (nested key ms) fun out fs =>
    ∃ vs, TreatedAll c o key ms out vs ∧ c.FlatsOf o vs fs

section

variable {nested : QualName → List Member → Drafting (List Member)}

mutual

theorem drafts_member_flattenMarked (hnested : Treats c o nested) (key : QualName) (m : Member) :
    Drafts c o (m.flattenMarked c o nested key) fun first fs => ∃ ws, c.FlatsOf o ws fs ∧
      ∀ ms rest vs, TreatedAll c o key ms rest vs →
        TreatedAll c o key (m :: ms) (first ++ rest) (ws ++ vs) := by
  cases m with
  | struct s =>
    rw [Member.flattenMarked]
    refine (drafts_struct_flattenMarked hnested (key.child s.name) s).bind fun r fs hr => ?_
    cases r with
    | none =>
      obtain ⟨hanonymous, rfl⟩ := hr
      exact .pure ⟨[], .nil, fun _ _ _ hrest => .dropped hanonymous hrest⟩
    | some s' =>
      obtain ⟨_, ⟨t, inner, ws, hshell, hinside, rfl, rfl⟩, hflats⟩ := hr
      refine .pure ⟨_, by rwa [List.append_nil], fun _ _ _ hrest => ?_⟩
      exact .struct hshell hinside hrest
  | field f => exact .pure ⟨[], .nil, fun _ _ _ hrest => .field f hrest⟩
  | accessor a => exact .pure ⟨[], .nil, fun _ _ _ hrest => .copied rfl rfl hrest⟩
  | enum e => exact .pure ⟨[], .nil, fun _ _ _ hrest => .copied rfl rfl hrest⟩
  | conditional symbol ms otherwise =>
    exact .pure ⟨[], .nil, fun _ _ _ hrest => .copied rfl rfl hrest⟩
  | verbatim text => exact .pure ⟨[], .nil, fun _ _ _ hrest => .copied rfl rfl hrest⟩

theorem drafts_struct_flattenMarked (hnested : Treats c o nested) (key : QualName)
    (s : StructDecl) :
    Drafts c o (s.flattenMarked c o nested key) fun
      | none, fs => s.markers.anonymous = true ∧ fs = []
      | some s', fs => ∃ vs, Treated c o key s s' vs ∧ c.FlatsOf o vs fs := by
  obtain ⟨modifiers, name, markers, layout, members⟩ := s
  rw [StructDecl.flattenMarked]
  split
  next hanonymous => exact .afterNote (.pure ⟨hanonymous, rfl⟩)
  next hanonymous =>
    have hnamed : markers.anonymous = false := by simpa using hanonymous
    split
    next hmarked =>
      refine .replace fun f hf => (hnested key f.decl.members).bind fun inner fs hinner => ?_
      obtain ⟨ws, hinside, hflats⟩ := hinner
      refine .pure ⟨_, ⟨f.decl, inner, ws, .flattened hnamed hmarked hf, hinside, rfl, rfl⟩, ?_⟩
      rw [List.append_nil]
      exact hflats.cons_marked hmarked hf
    next hmarked =>
      have hunmarked : markers.flatten = false := by simpa using hmarked
      refine (drafts_members_flattenMarked hnested key members).bind fun inner fs hinner => ?_
      obtain ⟨ws, hinside, hflats⟩ := hinner
      refine .pure ⟨_, ⟨_, inner, ws, .copied hnamed hunmarked, hinside, rfl, rfl⟩, ?_⟩
      rw [List.append_nil]
      exact hflats.cons_unmarked hunmarked

theorem drafts_members_flattenMarked (hnested : Treats c o nested) (key : QualName)
    (ms : List Member) :
    Drafts c o (Member.flattenMarkedAll c o nested key ms) fun out fs =>
      ∃ vs, TreatedAll c o key ms out vs ∧ c.FlatsOf o vs fs := by
  cases ms with
  | nil => exact .pure ⟨[], .nil key, .nil⟩
  | cons m ms =>
    rw [Member.flattenMarkedAll]
    refine (drafts_member_flattenMarked hnested key m).bind fun first fs hfirst => ?_
    refine (drafts_members_flattenMarked hnested key ms).bind fun rest gs hrest => ?_
    obtain ⟨ws, hflats, hthen⟩ := hfirst
    obtain ⟨vs, htreated, hflats'⟩ := hrest
    refine .pure ⟨ws ++ vs, hthen ms rest vs htreated, ?_⟩
    rw [List.append_nil]
    exact hflats.append hflats'

end

end

theorem treats_flattenNested (fuel : Nat) : Treats c o (flattenNested c o fuel) := by
  induction fuel with
  | zero => exact fun _ _ => .throw _
  | succ fuel ih => exact drafts_members_flattenMarked ih

theorem drafts_item_flattenMarked (space : Option String) (i : Item) :
    Drafts c o (i.flattenMarked c o space) fun first fs => ∃ ws, c.FlatsOf o ws fs ∧
      ∀ is rest vs, TreatedItems c o space is rest vs →
        TreatedItems c o space (i :: is) (first ++ rest) (ws ++ vs) := by
  cases i with
  | struct s =>
    rw [Item.flattenMarked]
    refine (drafts_struct_flattenMarked (treats_flattenNested _) _ s).bind fun r fs hr => ?_
    cases r with
    | none =>
      obtain ⟨hanonymous, rfl⟩ := hr
      exact .pure ⟨[], .nil, fun _ _ _ hrest => .dropped hanonymous hrest⟩
    | some s' =>
      obtain ⟨ws, htreated, hflats⟩ := hr
      exact .pure ⟨ws, by rwa [List.append_nil], fun _ _ _ hrest => .struct htreated hrest⟩
  | classDecl d =>
    rw [Item.flattenMarked]
    split
    next hmarker =>
      exact .afterNote (.pure ⟨[], .nil, fun _ _ _ hrest => .droppedClass hmarker hrest⟩)
    next hmarker =>
      refine .pure ⟨[], .nil, fun _ _ _ hrest => .copied rfl (fun e he => ?_) hrest⟩
      rw [← Item.classDecl.inj he]
      simpa using hmarker
  | enum e =>
    refine .pure ⟨[], .nil, fun _ _ _ hrest => .copied rfl (fun d hd => ?_) hrest⟩
    cases hd
  | verbatim text =>
    refine .pure ⟨[], .nil, fun _ _ _ hrest => .copied rfl (fun d hd => ?_) hrest⟩
    cases hd

theorem drafts_items_flattenMarked (space : Option String) (is : List Item) :
    Drafts c o (Item.flattenMarkedAll c o space is) fun out fs =>
      ∃ vs, TreatedItems c o space is out vs ∧ c.FlatsOf o vs fs := by
  induction is with
  | nil => exact .pure ⟨[], .nil, .nil⟩
  | cons i is ih =>
    rw [Item.flattenMarkedAll]
    refine (drafts_item_flattenMarked space i).bind fun first fs hfirst => ?_
    refine ih.bind fun rest gs hrest => ?_
    obtain ⟨ws, hflats, hthen⟩ := hfirst
    obtain ⟨vs, htreated, hflats'⟩ := hrest
    refine .pure ⟨ws ++ vs, hthen is rest vs htreated, ?_⟩
    rw [List.append_nil]
    exact hflats.append hflats'

/-- **Flattening a unit keeps to the rules**, and replaces the marked structs that it meets. -/
theorem drafts_flattenMarked (c : Catalog) (o : Options) (u : SourceUnit) :
    Drafts c o (u.flattenMarked c o) fun u' fs =>
      ∃ items vs, TreatedItems c o u.namespaceName u.items items vs ∧ c.FlatsOf o vs fs ∧
        u' = { u with items := items } := by
  refine (drafts_items_flattenMarked u.namespaceName u.items).bind fun items fs hitems => ?_
  obtain ⟨vs, htreated, hflats⟩ := hitems
  exact .pure ⟨items, vs, htreated, by rwa [List.append_nil], rfl⟩

end

/-! ### A whole project -/

/-- What flattening a project leaves behind. -/
def Project.draft (p : Project) : Draft :=
  stateAfter ((p.primary.select p.defines).flattenMarked p.catalog p.options) ⟨.empty, []⟩

/-- How a project was flattened. -/
structure Project.Treats (p : Project) (out : Outcome) (items : List Item)
    (vs : List (QualName × StructDecl)) : Prop where
  treated : TreatedItems p.catalog p.options (p.primary.select p.defines).namespaceName
    (p.primary.select p.defines).items items vs
  unit : out.unit = { p.primary.select p.defines with items := items }
  flats : p.catalog.FlatsOf p.options vs out.replaced
  served : Workbench.empty.Serves p.catalog p.options out.replaced p.draft.bench
  layouts : out.layouts = p.draft.bench.memo.entries

/-- **Whatever flattening a project yields** keeps to the rules. -/
theorem treats_of_run {p : Project} {out : Outcome} (h : p.run.1 = .ok out) :
    ∃ items vs, p.Treats out items vs := by
  let steps := (p.primary.select p.defines).flattenMarked p.catalog p.options
  obtain ⟨hunit, hlayouts, hreplaced⟩ : outcome steps ⟨.empty, []⟩ = .ok out.unit ∧
      out.layouts = p.draft.bench.memo.entries ∧ out.replaced = p.draft.replaced := by
    rw [outcome, Project.draft, stateAfter]
    rcases hr : steps.run.run ⟨.empty, []⟩ with ⟨r, draft⟩
    simp only [Project.run, steps, hr] at h
    cases r with
    | error e => cases h
    | ok unit =>
      rw [← Except.ok.inj h]
      exact ⟨rfl, rfl, rfl⟩
  obtain ⟨fs, hadvances, items, vs, hitems, hflats, hout⟩ := drafts_flattenMarked p.catalog
    p.options (p.primary.select p.defines) ⟨.empty, []⟩ (Workbench.faithful_empty _ _) _ hunit
  obtain rfl : out.replaced = fs := hreplaced.trans (hadvances.replaced.trans (List.nil_append _))
  exact ⟨items, vs, hitems, hout, hflats, hadvances.served, hlayouts⟩

end FlatLayout
