import FlatLayout.Proofs.EmittedMembers
import FlatLayout.Proofs.MemberOrder
import FlatLayout.Proofs.Renumbering

/-!
# Groups of fields and members without storage

An author may declare several fields of one type at once, and may write text, accessors, static
fields and constants between the fields. Nothing of this matters for the layout. Here a struct is
compared with what is left of it when its groups are split and any of the other members are deleted:
both are flattened with the same error, or to the same members at the same places, and the flat
declaration has everything but what was deleted.

The layout is the smaller part of it. Splitting and deleting leave the steps in placing as they are,
apart from the numbers of members, and these are of no account. But the flat declaration is made by
means of the numbers. It is followed by an induction on the members of the struct as it was, where a
group is a single member to which the spots of several fields belong. In what is left of the struct
this is several members, one spot each.

Structs and enumerations that are declared inside of the struct are never deleted, so all names are
bound as before.

## Main definitions

* `Member.isStorageFree`, `Member.ungrouped` — what may be deleted, and what is split
* `StructDecl.desugared` — what is left of a struct

## Main results

* `renumbered_desugared` — it has the same fields
* `Emitted.desugared` — what takes the place of the members that are left
* `Catalog.renumbered_of_replacedIn` — the catalogs of two projects that differ in a struct
* `flatten_desugared` — groups of fields and members without storage are sugar
-/

namespace FlatLayout

/-! ### The same struct without sugar -/

/-- The member is not placed and declares no type: it is text, an accessor, a static field or a
constant. -/
def Member.isStorageFree : Member → Bool
  | .field g => !g.isInstance
  | .accessor _ | .verbatim _ => true
  | _ => false

/-- The member, or one for each name if it is a group of fields. A buffer is not split. -/
def Member.ungrouped : Member → List Member
  | .field g =>
    if g.isInstance && g.isGrouped && g.fixedCount.isNone then g.split.map .field else [.field g]
  | m => [m]

/-- What is left of some members, which are counted from `n` on, when groups are split and some of
the members without storage are deleted. -/
def desugared (deleted : Nat → Bool) (n : Nat) (ms : List Member) : List Member :=
  (ms.zipIdx n).flatMap fun (m, i) => if m.isStorageFree && deleted i then [] else m.ungrouped

/-- The struct with its groups split and some of its members without storage deleted. -/
def StructDecl.desugared (deleted : Nat → Bool) (s : StructDecl) : StructDecl :=
  { s with members := FlatLayout.desugared deleted 0 s.members }

theorem desugared_cons (deleted : Nat → Bool) (n : Nat) (m : Member) (ms : List Member) :
    desugared deleted n (m :: ms) = (if m.isStorageFree && deleted n then [] else m.ungrouped) ++
      desugared deleted (n + 1) ms := by
  rw [desugared, List.zipIdx_cons, List.flatMap_cons]
  rfl

/-- What is gathered from all members is gathered from what is left of them, if a group gives what
its fields give, and a member without storage gives nothing. -/
theorem flatMap_desugared {α : Type} {g : Member → List α}
    (hungrouped : ∀ m, m.ungrouped.flatMap g = g m)
    (hfree : ∀ m, m.isStorageFree = true → g m = []) (deleted : Nat → Bool) (n : Nat)
    (ms : List Member) : (desugared deleted n ms).flatMap g = ms.flatMap g := by
  induction ms generalizing n with
  | nil => rfl
  | cons m ms ih =>
    rw [desugared_cons, List.flatMap_append, List.flatMap_cons, ih]
    split
    next hdeleted =>
      rw [hfree m (Bool.and_eq_true_iff.1 hdeleted).1]
      rfl
    next => rw [hungrouped m]

/-- A field under one name is placed in one step. -/
theorem slots_of_single {g : FieldDecl} (hinstance : g.isInstance = true)
    (hsingle : g.isGrouped = false) (n : Nat) : (Member.field g).slots n = [.field g n] := by
  rw [Member.slots, hinstance, hsingle]
  rfl

theorem single_of_mem_split {g h : FieldDecl} (hinstance : g.isInstance = true)
    (hh : h ∈ g.split) : h.isInstance = true ∧ h.isGrouped = false := by
  obtain ⟨name, -, rfl⟩ := List.mem_map.1 hh
  exact ⟨hinstance, rfl⟩

/-- Only a group of fields is split. -/
theorem ungrouped_eq_or (m : Member) : m.ungrouped = [m] ∨
    ∃ g, m = .field g ∧ g.isInstance = true ∧ m.ungrouped = g.split.map .field ∧
      ∀ n, m.slots n = g.split.map (.field · n) := by
  cases m with
  | field g =>
    rw [Member.ungrouped]
    split
    next hgroup =>
      obtain ⟨hfield, hcount⟩ := Bool.and_eq_true_iff.1 hgroup
      obtain ⟨hinstance, hgrouped⟩ := Bool.and_eq_true_iff.1 hfield
      have hnone : g.fixedCount = none := Option.isNone_iff_eq_none.1 hcount
      refine .inr ⟨g, rfl, hinstance, rfl, fun n => ?_⟩
      rw [Member.slots, hinstance, hgrouped, hnone]
      rfl
    next => exact .inl rfl
  | accessor a => exact .inl rfl
  | struct s => exact .inl rfl
  | enum e => exact .inl rfl
  | conditional symbol ms otherwise => exact .inl rfl
  | verbatim text => exact .inl rfl

theorem flatMap_slots_ungrouped (m : Member) :
    m.ungrouped.flatMap (Member.slots 0) = m.slots 0 := by
  rcases ungrouped_eq_or m with h | ⟨g, -, hinstance, h, hslots⟩
  · rw [h, List.flatMap_singleton]
  · have hsingle : ∀ d ∈ g.split, (Member.field d).slots 0 = [.field d 0] := by
      intro d hd
      obtain ⟨hd, hsingle⟩ := single_of_mem_split hinstance hd
      exact slots_of_single hd hsingle 0
    rw [h, hslots, List.flatMap_map, List.flatMap_congr hsingle, List.map_eq_flatMap]

theorem slots_of_isStorageFree {m : Member} (h : m.isStorageFree = true) (n : Nat) :
    m.slots n = [] := by
  cases m with
  | field g => exact if_pos h
  | accessor a => rfl
  | verbatim text => rfl
  | struct s => cases h
  | enum e => cases h
  | conditional symbol ms otherwise => cases h

/-- **The struct is placed as before**, apart from the numbers of its members. -/
theorem renumbered_desugared (deleted : Nat → Bool) (s : StructDecl) :
    s.Renumbered (s.desugared deleted) where
  name := rfl
  markers := rfl
  layout := rfl
  slots := by
    rw [StructDecl.map_unsourced_slots, StructDecl.map_unsourced_slots]
    exact flatMap_desugared flatMap_slots_ungrouped (fun _ h => slots_of_isStorageFree h 0) ..

/-- The same is declared inside of the struct. -/
theorem declarationsAll_desugared (deleted : Nat → Bool) (key : QualName) (s : StructDecl) :
    Member.declarationsAll key (s.desugared deleted).members =
      Member.declarationsAll key s.members := by
  rw [Member.declarationsAll_eq_flatMap, Member.declarationsAll_eq_flatMap]
  refine flatMap_desugared (fun m => ?_) (fun m hm => ?_) deleted 0 s.members
  · rcases ungrouped_eq_or m with h | ⟨g, rfl, -, h, -⟩
    · rw [h, List.flatMap_singleton]
    · rw [h, List.flatMap_map]
      exact List.flatMap_eq_nil_iff.2 fun d _ => rfl
  · cases m with
    | field g => rfl
    | accessor a => rfl
    | verbatim text => rfl
    | struct s => cases hm
    | enum e => cases hm
    | conditional symbol ms otherwise => cases hm

/-! ### The flat declaration -/

section

variable {container : String} {n : Nat}

/-- What takes the place of some fields under one name each, and of the members behind them. -/
theorem Emitted.of_fields {gs : List FieldDecl} {ms out : List Member} {ts : List Spot}
    (h : Emitted container n (gs.map .field ++ ms) ts out)
    (hgs : ∀ g ∈ gs, g.isInstance = true ∧ g.isGrouped = false) :
    ∃ us vs rest, ts = us ++ vs ∧ us.length = gs.length ∧
      out = (us.flatMap Spot.members).map (·.toMember container) ++ rest ∧
      Emitted container (n + gs.length) ms vs rest := by
  induction gs generalizing n ts out with
  | nil => exact ⟨[], ts, out, rfl, rfl, rfl, h⟩
  | cons g gs ih =>
    obtain ⟨hinstance, hsingle⟩ := hgs g List.mem_cons_self
    cases h with
    | @replaced _ _ _ out ts us placed spots rest =>
      obtain ⟨us', vs, out', rfl, hlength, rfl, hrest⟩ :=
        ih rest fun d hd => hgs d (List.mem_cons_of_mem _ hd)
      rw [slots_of_single hinstance hsingle] at spots
      have hone : ts.length = 1 := by simpa using congrArg List.length spots.symm
      refine ⟨ts ++ us', vs, out', ?_, ?_, ?_, ?_⟩
      · rw [List.append_assoc]
      · rw [List.length_append, List.length_cons, hone, hlength, Nat.add_comm]
      · rw [List.flatMap_append, List.map_append, List.append_assoc]
      · rwa [List.length_cons, Nat.add_comm gs.length 1, ← Nat.add_assoc]
    | copied passive rest =>
      rw [slots_of_single hinstance hsingle] at passive
      cases passive

/-- A field that has its spots is split into as many fields under one name each. -/
theorem exists_ungrouped {g : FieldDecl} {ts : List Spot} (placed : g.isInstance = true)
    (spots : (Member.field g).slots n = ts.map Spot.slot) :
    ∃ gs : List FieldDecl, (Member.field g).ungrouped = gs.map .field ∧ gs.length = ts.length ∧
      ∀ d ∈ gs, d.isInstance = true ∧ d.isGrouped = false := by
  cases hgrouped : g.isGrouped with
  | false =>
    rw [slots_of_single placed hgrouped] at spots
    refine ⟨[g], ?_, by simpa using congrArg List.length spots, ?_⟩
    · rw [Member.ungrouped, hgrouped, Bool.and_false, Bool.false_and]
      rfl
    · intro d hd
      obtain rfl := List.mem_singleton.1 hd
      exact ⟨placed, hgrouped⟩
  | true =>
    rw [Member.slots, placed, hgrouped] at spots
    cases hcount : g.fixedCount with
    | some count =>
      rw [hcount] at spots
      obtain ⟨t, _, -, hslot, -⟩ := List.map_eq_cons_iff.1 spots.symm
      cases hslot
    | none =>
      rw [hcount] at spots
      refine ⟨g.split, ?_, by simpa using congrArg List.length spots, ?_⟩
      · rw [Member.ungrouped, placed, hgrouped, hcount]
        rfl
      · exact fun d => single_of_mem_split placed

/-- The members that are declared for some spots do not show their numbers. -/
theorem map_toMember_of_bare {us ts : List Spot} (h : us.map Spot.bare = ts.map Spot.bare) :
    (us.flatMap Spot.members).map (·.toMember container) =
      (ts.flatMap Spot.members).map (·.toMember container) := by
  have hbare (vs : List Spot) : (vs.flatMap Spot.members).map (·.toMember container) =
      (vs.map Spot.bare).flatMap fun t => t.members.map (·.toMember container) := by
    rw [List.map_flatMap, List.flatMap_map]
    refine List.flatMap_congr fun t _ => ?_
    rw [Spot.bare, Spot.withSource, List.map_map]
    rfl
  rw [hbare, hbare, h]

/-- **What takes the place of the members that are left** is what took their place before. -/
theorem Emitted.desugared {f : FlatStruct} {ms out out' : List Member} {ts us : List Spot}
    {deleted : Nat → Bool} {n' : Nat} (h : Emitted f.decl.name n ms ts out)
    (hfrom : f.HasFrom n ts)
    (h' : Emitted f.decl.name n' (FlatLayout.desugared deleted n ms) us out')
    (hbare : us.map Spot.bare = ts.map Spot.bare) :
    out' = (ms.zipIdx n).flatMap fun (m, i) =>
      if m.isStorageFree && deleted i then [] else f.emittedFor m i := by
  generalize hname : f.decl.name = container at h h'
  induction h generalizing n' us out' with
  | nil n =>
    cases h'
    rfl
  | @replaced n g ms out ts ts' placed spots rest ih =>
    -- a group is one member here, and in what is left it is several members with one spot each
    have hplaced : (Member.field g).isStorageFree = false := by
      rw [Member.isStorageFree, placed]
      rfl
    obtain ⟨gs, hgs, hlength, hsingle⟩ := exists_ungrouped placed spots
    rw [desugared_cons, hplaced, hgs] at h'
    obtain ⟨us, us', rest', rfl, hlength', rfl, hrest⟩ := h'.of_fields hsingle
    rw [List.map_append, List.map_append] at hbare
    obtain ⟨hhere, hbehind⟩ := List.append_inj hbare (by simp [hlength, hlength'])
    obtain ⟨hfirst, hfrom⟩ := hfrom.split spots rest.slots_eq
    rw [List.zipIdx_cons, List.flatMap_cons, ← ih hfrom hbehind hrest]
    simp only [hplaced, Bool.false_and, emittedFor_of_filter placed hfirst, hname,
      map_toMember_of_bare hhere]
    rfl
  | @copied n m ms out ts passive rest ih =>
    -- a member that was copied is deleted, or it is copied again
    have hkept : m.ungrouped = [m] := by
      rcases ungrouped_eq_or m with hkept | ⟨g, rfl, hinstance, -, -⟩
      · exact hkept
      · rw [isInstance_of_slots passive] at hinstance
        cases hinstance
    rw [desugared_cons, hkept] at h'
    rw [List.zipIdx_cons, List.flatMap_cons]
    simp only [emittedFor_of_slots passive]
    by_cases hdeleted : (m.isStorageFree && deleted n) = true
    · rw [if_pos hdeleted] at h' ⊢
      exact ih hfrom.skip hbare h'
    · rw [if_neg hdeleted] at h' ⊢
      cases h' with
      | replaced placed spots rest' =>
        rw [isInstance_of_slots passive] at placed
        cases placed
      | copied passive' rest' =>
        rw [ih hfrom.skip hbare rest', List.singleton_append]

end

/-! ### Two projects -/

theorem StructDecl.Renumbered.refl (s : StructDecl) : s.Renumbered s := ⟨rfl, rfl, rfl, rfl⟩

/-- The declarations are the same, or they are structs of one name with the same fields. -/
inductive Declaration.Renumbered : Declaration → Declaration → Prop
  | struct (k : QualName) {s s' : StructDecl} (fields : s.Renumbered s') :
      Renumbered (.struct k s) (.struct k s')
  | same (e : Declaration) : Renumbered e e

namespace Declaration.Renumbered

theorem enum?_eq {e e' : Declaration} (h : e.Renumbered e') (k : QualName) :
    e'.enum? k = e.enum? k := by
  cases h <;> rfl

theorem managed?_eq {e e' : Declaration} (h : e.Renumbered e') (k : QualName) :
    e'.managed? k = e.managed? k := by
  cases h <;> rfl

theorem struct?_rel {e e' : Declaration} (h : e.Renumbered e') (k : QualName) :
    Option.Rel StructDecl.Renumbered (e.struct? k) (e'.struct? k) := by
  cases h with
  | same e => exact rel_self .refl _
  | struct q fields =>
    rw [struct?, struct?]
    by_cases hq : q = k
    · rw [if_pos hq, if_pos hq]
      exact .some fields
    · rw [if_neg hq, if_neg hq]
      exact .none

end Declaration.Renumbered

theorem forall₂_renumbered_self (es : List Declaration) :
    List.Forall₂ Declaration.Renumbered es es := List.forall₂_same.2 fun e _ => .same e

theorem findSome?_of_forall₂ {α β : Type} {f : α → Option β} {as as' : List α}
    (h : List.Forall₂ (fun a a' => f a' = f a) as as') : as'.findSome? f = as.findSome? f := by
  induction h with
  | nil => rfl
  | cons first rest ih => rw [List.findSome?_cons, List.findSome?_cons, first, ih]

theorem findSome?_rel_of_forall₂ {α β : Type} {R : β → β → Prop} {f : α → Option β}
    {as as' : List α} (h : List.Forall₂ (fun a a' => Option.Rel R (f a) (f a')) as as') :
    Option.Rel R (as.findSome? f) (as'.findSome? f) := by
  induction h with
  | nil => exact .none
  | @cons a a' as as' first rest ih =>
    rw [List.findSome?_cons, List.findSome?_cons]
    generalize f a = b, f a' = b' at first
    cases first with
    | none => exact ih
    | some hab => exact .some hab

section

variable {key k : QualName} {r r' s s' : StructDecl} {us us' : List SourceUnit}

/-- A struct in which one is declared with the same fields. -/
theorem renumbered_of_replaced (h : StructDecl.Replaced key r r' k s s') (hfields : r.Renumbered r')
    (hinside : Member.declarationsAll key r'.members = Member.declarationsAll key r.members) :
    List.Forall₂ Declaration.Renumbered (s.declarations k) (s'.declarations k) := by
  induction h with
  | here =>
    rw [StructDecl.declarations_eq, StructDecl.declarations_eq, hinside]
    exact List.rel_append (forall₂_renumbered_self _) (.cons (.struct key hfields) .nil)
  | @inside k _ _ _ _ before after t t' inner ih =>
    have hname := inner.name_eq hfields.name
    rw [StructDecl.declarations_eq, StructDecl.declarations_eq]
    refine List.rel_append ?_ (.cons (.struct k ⟨rfl, rfl, rfl, ?_⟩) .nil)
    simp only [Member.declarationsAll_eq_flatMap, List.flatMap_append, List.flatMap_cons]
    refine List.rel_append (forall₂_renumbered_self _)
      (List.rel_append ?_ (forall₂_renumbered_self _))
    · rw [Member.declarations, Member.declarations, hname]
      exact ih
    · rw [slots_of_replaced]

theorem renumbered_of_replacedIn (h : ReplacedIn key r r' us us') (hfields : r.Renumbered r')
    (hinside : Member.declarationsAll key r'.members = Member.declarationsAll key r.members) :
    List.Forall₂ Declaration.Renumbered (us.flatMap (·.declarations))
      (us'.flatMap (·.declarations)) := by
  cases h with
  | @mk before after name space imports front back s s' replaced =>
    have hname := replaced.name_eq hfields.name
    have hself := forall₂_renumbered_self
    have hhere := renumbered_of_replaced replaced hfields hinside
    simp only [List.flatMap_append, List.flatMap_cons, SourceUnit.declarations]
    refine List.rel_append (hself _) (List.rel_append (List.rel_append (hself _)
      (List.rel_append ?_ (hself _))) (hself _))
    rw [Item.declarations, Item.declarations, hname]
    exact hhere

/-- **Two projects in which a struct is declared with the same fields** have catalogs that differ in
numbers. -/
theorem Catalog.renumbered_of_replacedIn (h : ReplacedIn key r r' us us')
    (hfields : r.Renumbered r')
    (hinside : Member.declarationsAll key r'.members = Member.declarationsAll key r.members) :
    (Catalog.ofUnits us).Renumbered (.ofUnits us') := by
  have hdeclared := FlatLayout.renumbered_of_replacedIn h hfields hinside
  have hreverse := List.forall₂_reverse_iff.2 hdeclared
  have hstructs (d : QualName) : Option.Rel StructDecl.Renumbered ((Catalog.ofUnits us).struct? d)
      ((Catalog.ofUnits us').struct? d) := by
    rw [Catalog.ofUnits, Catalog.ofUnits, Catalog.struct?_foldl_addUnit_eq,
      Catalog.struct?_foldl_addUnit_eq]
    exact rel_or .none (findSome?_rel_of_forall₂ (hdeclared.imp fun _ _ he => he.struct?_rel d))
  refine ⟨hstructs, bind_ofUnits_congr (namespaces_of_replacedIn h)
    (fun d => isSome_of_rel (hstructs d)) ?_ ?_⟩
  · exact fun d => findSome?_of_forall₂ (hreverse.imp fun _ _ he => he.enum?_eq d)
  · exact fun d => findSome?_of_forall₂ (hreverse.imp fun _ _ he => he.managed?_eq d)

/-- The struct has the layout that it had, and what is left of its members gives way to what took
its place before. -/
theorem Catalog.Renumbered.exists_desugared {c c' : Catalog} {o : Options} {deleted : Nat → Bool}
    (h : c.Renumbered c') (hs : c.struct? key = some s)
    (hs' : c'.struct? key = some (s.desugared deleted)) {f : FlatStruct}
    (hf : c.answer o key = .ok f) :
    ∃ f', c'.answer o key = .ok f' ∧ f'.bare = f.bare ∧
      f.decl.members = s.members.zipIdx.flatMap (fun (m, i) => f.emittedFor m i) ∧
      f'.decl = { f.decl with members := s.members.zipIdx.flatMap fun (m, i) =>
        if m.isStorageFree && deleted i then [] else f.emittedFor m i } := by
  have hanswer := h.answer_eq o key
  rw [hf] at hanswer
  cases hf' : c'.answer o key with
  | error e =>
    rw [hf'] at hanswer
    cases hanswer
  | ok f' =>
    obtain ⟨s₁, rule, ts, p, hs₁, laid⟩ := exists_laid_of_answer hf
    obtain rfl := Option.some.inj (hs.symm.trans hs₁)
    obtain ⟨s₂, rule', us, p', hs₂, laid'⟩ := exists_laid_of_answer hf'
    obtain rfl := Option.some.inj (hs'.symm.trans hs₂)
    have hlayout := layoutFrom_renumbered o key (renumbered_desugared deleted s) h.bind
      (h.answer_eq o)
    rw [laid.computed, laid'.computed] at hlayout
    obtain ⟨hspots, hbare⟩ := Prod.mk.inj (Except.ok.inj hlayout)
    obtain ⟨-, -, -, hfootprint, -⟩ := FlatStruct.mk.inj hbare
    have hemitted : Emitted f.decl.name 0 s.members ts f.decl.members := laid.name_eq ▸ laid.emitted
    have hemitted' : Emitted f.decl.name 0 (s.desugared deleted).members us f'.decl.members :=
      laid.name_eq ▸ laid'.emitted
    refine ⟨f', rfl, hbare, (hemitted.eq_flatMap laid.hasFrom).1, ?_⟩
    -- all but the members is taken from the struct, or it is the size
    rw [← hemitted.desugared laid.hasFrom hemitted' hspots, laid.decl_eq, laid'.decl_eq, hfootprint]
    rfl

/-- **Groups of fields and members without storage are sugar.** Take a struct, anywhere in some
units, that is the one of its name. Declare the fields of its groups one by one, and delete some of
the members that are not placed. Then flattening it answers with the error that it answered with
before, or with the same layout: the key, the markers, the size, the alignment and the members are
the same, apart from the numbers of the declarations that the members were made from. In the flat
declaration the deleted members are missing, and nothing else has changed. -/
theorem flatten_desugared (deleted : Nat → Bool) (hs : (Catalog.ofUnits us).struct? key = some s)
    (hs' : (Catalog.ofUnits us').struct? key = some (s.desugared deleted))
    (h : ReplacedIn key s (s.desugared deleted) us us') (o : Options) (calls calls' : List Call) :
    let before := outcome (Bench.flatten (.ofUnits us) o key)
      (Workbench.afterCalls (.ofUnits us) o calls)
    let after := outcome (Bench.flatten (.ofUnits us') o key)
      (Workbench.afterCalls (.ofUnits us') o calls')
    (∀ e, before = .error e → after = .error e) ∧
    ∀ f, before = .ok f → ∃ f', after = .ok f' ∧ f'.key = f.key ∧ f'.markers = f.markers ∧
      f'.footprint = f.footprint ∧
      (f'.members.map fun m => { m with source := 0 }) =
        f.members.map (fun m => { m with source := 0 }) ∧
      f.decl.members = s.members.zipIdx.flatMap (fun (m, i) => f.emittedFor m i) ∧
      f'.decl = { f.decl with members := s.members.zipIdx.flatMap fun (m, i) =>
        if m.isStorageFree && deleted i then [] else f.emittedFor m i } := by
  intro before after
  have hcatalogs := Catalog.renumbered_of_replacedIn h (renumbered_desugared deleted s)
    (declarationsAll_desugared deleted key s)
  have hbefore : before = (Catalog.ofUnits us).answer o key := outcome_flatten_eq_answer ..
  have hafter : after = (Catalog.ofUnits us').answer o key := outcome_flatten_eq_answer ..
  rw [hbefore, hafter]
  constructor
  · intro e he
    have hanswer := hcatalogs.answer_eq o key
    rw [he] at hanswer
    cases hf' : (Catalog.ofUnits us').answer o key with
    | error e' => rw [hf'] at hanswer; exact hanswer
    | ok f' => rw [hf'] at hanswer; cases hanswer
  · intro f hf
    obtain ⟨f', hf', hbare, hold, hnew⟩ := hcatalogs.exists_desugared hs hs' hf
    obtain ⟨hkey, hmarkers, -, hfootprint, hmembers⟩ := FlatStruct.mk.inj hbare
    exact ⟨f', hf', hkey, hmarkers, hfootprint, hmembers, hold, hnew⟩

end

/-! ### A struct with some of everything -/

/-- A struct with text, two groups of fields, a static field and an accessor, in which another
struct is declared. -/
def wordyStruct : StructDecl := ⟨["public"], "Wordy", .none, none, [
  .verbatim "// coordinates",
  .field (.ofNames (.named "short") ["x", "y"]),
  .field (FieldDecl.ofNames (.named "int") ["count"]).asStatic,
  .struct ⟨["public"], "Tag", .none, none, [.field (.ofNames (.named "byte") ["low", "high"])]⟩,
  .field (.ofNames (.named "Tag") ["first", "last"]),
  .accessor ⟨["public"], "Start", .named "short", "Wordy", "x", 0⟩]⟩

/-- A unit that declares it inside of a struct. -/
def wordyUnit (s : StructDecl) : SourceUnit :=
  ⟨"a.cs", some "Data", [], [.struct ⟨["public"], "Holder", .none, none,
    [.field (.ofNames (.named "int") ["tag"]), .struct s]⟩]⟩

/-- Here the text and the static field are deleted, and each group is declared as two fields. The
accessor and the struct that is declared inside are left. -/
theorem flatten_desugared_wordy :
    let o := Options.ofPointerWidth 8
    let key : QualName := ⟨"Data.Holder.Wordy"⟩
    let deleted : Nat → Bool := fun i => i == 0 || i == 2
    let before := Catalog.ofUnits [wordyUnit wordyStruct]
    let after := Catalog.ofUnits [wordyUnit (wordyStruct.desugared deleted)]
    ∃ f f', outcome (Bench.flatten before o key) (Workbench.afterCalls before o []) = .ok f ∧
      outcome (Bench.flatten after o key) (Workbench.afterCalls after o []) = .ok f' ∧
      f.members.map (fun m => (m.name, m.source)) = [("x", 1), ("y", 1), ("first_low", 4),
        ("first_Ref", 4), ("first_high", 4), ("last_low", 4), ("last_Ref", 4), ("last_high", 4)] ∧
      f'.footprint = ⟨8, 2⟩ ∧
      (f'.members.map fun m => { m with source := 0 }) =
        f.members.map (fun m => { m with source := 0 }) ∧
      f'.decl.members = wordyStruct.members.zipIdx.flatMap fun (m, i) =>
        if m.isStorageFree && deleted i then [] else f.emittedFor m i := by
  intro o key deleted before after
  have hflat : ∃ f, outcome (Bench.flatten before o key) (Workbench.afterCalls before o []) =
        .ok f ∧ f.footprint = ⟨8, 2⟩ ∧
      f.members.map (fun m => (m.name, m.source)) = [("x", 1), ("y", 1), ("first_low", 4),
        ("first_Ref", 4), ("first_high", 4), ("last_low", 4), ("last_Ref", 4),
        ("last_high", 4)] := by
    decide +kernel
  obtain ⟨f, hf, hfootprint, hnames⟩ := hflat
  have hreplaced : ReplacedIn key wordyStruct (wordyStruct.desugared deleted)
      [wordyUnit wordyStruct] [wordyUnit (wordyStruct.desugared deleted)] := by
    have hholder := @StructDecl.Replaced.inside key _ _ ⟨"Data.Holder"⟩ ["public"] "Holder" .none
      none [.field (.ofNames (.named "int") ["tag"])] [] wordyStruct
      (wordyStruct.desugared deleted) .here
    exact @ReplacedIn.mk key _ _ [] [] "a.cs" (some "Data") [] [] [] _ _ hholder
  obtain ⟨-, hok⟩ := flatten_desugared deleted rfl rfl hreplaced o [] []
  obtain ⟨f', hf', -, -, hfootprint', hmembers, -, hdecl⟩ := hok f hf
  refine ⟨f, f', hf, hf', hnames, hfootprint'.trans hfootprint, hmembers, ?_⟩
  rw [hdecl]

end FlatLayout
