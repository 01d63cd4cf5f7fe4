import FlatLayout.Proofs.Spots
import Mathlib.Data.List.Perm.Subperm
import Mathlib.Logic.Relation

/-!
# Structs inside structs

A struct contains another one by value if it has a field of that type. Flattening goes down this
relation, and it ends because a struct is never entered while it is under way. Here the recursion is
a function of the structs under way: there is no memo, no counter and no log.

## The fuel is never spent

`flattenUnder` is told how deep it may go. At the top this is one more than there are structs, and
the structs under way are different structs of the catalog; so wherever the function arrives there
is fuel left, and `flattenUnder_of_answer` needs no bound on the depth of the structs at hand.

## Main definitions

* `Catalog.Contains` — a struct has a field of another one's type
* `Catalog.flattenUnder` — what flattening answers while some structs are under way
* `Catalog.answer` — the same with none under way
* `Catalog.Stack` — structs that may be under way

## Main results

* `answer_induction` — a property of flat structs, proved from the contained ones to their container
* `acyclic_of_answer` — what can be flattened contains no struct that contains itself
* `flattenUnder_of_answer` — the structs under way do not change a success, as long as none of them
  is contained
* `answer_of_layoutFrom` — what can be laid out with the answers for the contained structs is
  answered
* `answer_of_repeated` — the same for a name that is used twice
-/

namespace FlatLayout

open Relation

namespace Catalog

/-- The struct `outer` has a field whose type is the struct `inner`. -/
def Contains (c : Catalog) (outer inner : QualName) : Prop :=
  ∃ s, c.struct? outer = some s ∧
    ∃ f source, Slot.field f source ∈ s.slots ∧ c.bind f.type outer = .ok (.struct inner)

/-- What flattening a struct answers while the structs `pending` are under way. -/
def flattenUnder (c : Catalog) (o : Options) :
    Nat → List QualName → QualName → Except LayoutError FlatStruct
  | 0, _, key => .error (.cyclicLayout key)
  | fuel + 1, pending, key =>
    if pending.contains key then .error (.cyclicLayout key)
    else do
      let s ← c.declaration key
      (layoutFrom c o (flattenUnder c o fuel (key :: pending)) key s).map Prod.snd

/-- What flattening a struct answers while none is under way. -/
def answer (c : Catalog) (o : Options) (key : QualName) : Except LayoutError FlatStruct :=
  c.flattenUnder o (c.structs.length + 1) [] key

variable {c : Catalog} {o : Options} {key : QualName}

theorem declaration_eq_ok {s : StructDecl} (h : c.declaration key = .ok s) :
    c.struct? key = some s := by
  unfold declaration at h
  split at h
  next s' hs => rw [hs, Except.ok.inj h]
  · cases h

theorem declaration_of_struct? {s : StructDecl} (h : c.struct? key = some s) :
    c.declaration key = .ok s := by
  rw [declaration, h]

/-- A success of `flattenUnder`, taken apart. -/
theorem flattenUnder_eq_ok {fuel : Nat} {pending : List QualName} {f : FlatStruct}
    (h : c.flattenUnder o fuel pending key = .ok f) :
    ∃ n s ts, fuel = n + 1 ∧ key ∉ pending ∧ c.struct? key = some s ∧
      layoutFrom c o (c.flattenUnder o n (key :: pending)) key s = .ok (ts, f) := by
  cases fuel with
  | zero => cases h
  | succ n =>
    rw [flattenUnder] at h
    split at h
    · cases h
    next hkey =>
      obtain ⟨s, hs, h⟩ := bind_eq_ok h
      cases hr : layoutFrom c o (c.flattenUnder o n (key :: pending)) key s with
      | error e => rw [hr] at h; cases h
      | ok r =>
        rw [hr] at h
        cases h
        exact ⟨n, s, r.1, rfl, by simpa using hkey, declaration_eq_ok hs, hr⟩

/-- More fuel and fewer structs under way leave a success as it is. -/
theorem flattenUnder_mono {m n : Nat} {pending fewer : List QualName} {f : FlatStruct}
    (hmn : m ≤ n) (hsub : fewer ⊆ pending) (h : c.flattenUnder o m pending key = .ok f) :
    c.flattenUnder o n fewer key = .ok f := by
  induction m generalizing n pending fewer key f with
  | zero => cases h
  | succ m ih =>
    obtain ⟨m', s, ts, hm, hkey, hs, hlay⟩ := flattenUnder_eq_ok h
    obtain rfl : m = m' := by omega
    obtain ⟨n, rfl⟩ : ∃ n', n = n' + 1 := ⟨n - 1, by omega⟩
    have hlay' : layoutFrom c o (c.flattenUnder o n (key :: fewer)) key s = .ok (ts, f) :=
      layoutFrom_mono (fun _ _ k _ _ g hg => ih (by omega) (List.cons_subset_cons key hsub) hg) hlay
    rw [flattenUnder, if_neg (by simpa using fun hk => hkey (hsub hk)), declaration_of_struct? hs]
    show (layoutFrom c o (c.flattenUnder o n (key :: fewer)) key s).map Prod.snd = _
    rw [hlay']
    rfl

end Catalog

variable {c : Catalog} {o : Options} {key : QualName}

namespace Laid

variable {child : QualName → Except LayoutError FlatStruct} {s : StructDecl} {rule : LayoutRule}
  {ts : List Spot} {p : Placement} {f : FlatStruct}

/-- The structs that a struct contains are the types of its spots. -/
theorem contains_iff (h : Laid c o child key s rule ts p f) (hs : c.struct? key = some s)
    {d : QualName} : c.Contains key d ↔ ∃ t ∈ ts, t.type = .struct d := by
  constructor
  · rintro ⟨s', hs', g, source, hmem, hbind⟩
    obtain rfl : s = s' := Option.some.inj (hs.symm.trans hs')
    obtain ⟨t, ht, rfl, rfl⟩ := h.field_mem_slots_iff.1 hmem
    exact ⟨t, ht, Except.ok.inj ((h.bound ht).symm.trans hbind)⟩
  · rintro ⟨t, ht, htype⟩
    exact ⟨s, hs, t.decl, t.source, h.field_mem_slots_iff.2 ⟨t, ht, rfl, rfl⟩,
      by rw [h.bound ht, htype]⟩

/-- Every contained struct was answered for. -/
theorem exists_child (h : Laid c o child key s rule ts p f) (hs : c.struct? key = some s)
    {d : QualName} (hd : c.Contains key d) : ∃ g, child d = .ok g := by
  obtain ⟨t, ht, htype⟩ := (h.contains_iff hs).1 hd
  obtain ⟨p, q, hstep⟩ := h.run.exists_step ht
  obtain ⟨g, hg, -⟩ := made_struct hstep.made htype
  exact ⟨g, hg⟩

end Laid

namespace Catalog

/-- **Induction from the contained structs to their container.** The number is the fuel that is left
below a struct, for properties of functions that spend fuel of their own; other properties ignore
it. -/
theorem answer_induction {motive : Nat → QualName → FlatStruct → Prop}
    (step : ∀ n key s rule ts p f, c.struct? key = some s →
      Laid c o (c.answer o) key s rule ts p f →
      (∀ d g, c.Contains key d → c.answer o d = .ok g → motive n d g) → motive (n + 1) key f)
    {f : FlatStruct} (h : c.answer o key = .ok f) : motive (c.structs.length + 1) key f := by
  suffices ∀ n ≤ c.structs.length + 1, ∀ pending key f,
      c.flattenUnder o n pending key = .ok f → motive n key f from
    this _ (Nat.le_refl _) _ _ _ h
  intro n
  induction n with
  | zero => intro _ pending key f h; cases h
  | succ n ih =>
    intro hn pending key f h
    obtain ⟨m, s, ts, hm, -, hs, hlay⟩ := flattenUnder_eq_ok h
    obtain rfl : n = m := by omega
    have toAnswer : ∀ d g, c.flattenUnder o n (key :: pending) d = .ok g → c.answer o d = .ok g :=
      fun d g hg => flattenUnder_mono (by omega) (List.nil_subset _) hg
    obtain ⟨_, _, below⟩ := laid_of_layoutFrom hlay
    obtain ⟨rule, p, laid⟩ := laid_of_layoutFrom
      (layoutFrom_mono (fun _ _ d _ _ g hg => toAnswer d g hg) hlay)
    refine step n key s rule ts p f hs laid fun d g hd hg => ?_
    obtain ⟨g', hg'⟩ := below.exists_child hs hd
    obtain rfl : g = g' := Except.ok.inj (hg.symm.trans (toAnswer d g' hg'))
    exact ih (by omega) _ _ _ hg'

/-- Laying out a struct once more, with the answers for the contained ones, gives the same. -/
theorem exists_laid_of_answer {f : FlatStruct} (h : c.answer o key = .ok f) :
    ∃ s rule ts p, c.struct? key = some s ∧ Laid c o (c.answer o) key s rule ts p f :=
  answer_induction (motive := fun _ key f => ∃ s rule ts p, c.struct? key = some s ∧
    Laid c o (c.answer o) key s rule ts p f)
    (fun _ _ s rule ts p _ hs laid _ => ⟨s, rule, ts, p, hs, laid⟩) h

/-- Whatever a struct that can be flattened contains, at any depth, can be flattened. -/
theorem exists_answer_of_reachable {f : FlatStruct} (h : c.answer o key = .ok f) {d : QualName}
    (hd : ReflTransGen c.Contains key d) : ∃ g, c.answer o d = .ok g := by
  induction hd with
  | refl => exact ⟨f, h⟩
  | tail _ hd ih =>
    obtain ⟨g, hg⟩ := ih
    obtain ⟨s, rule, ts, p, hs, laid⟩ := exists_laid_of_answer hg
    exact laid.exists_child hs hd

/-- What contains itself cannot be flattened, nor can anything it is contained in. -/
theorem acyclic_of_answer {f : FlatStruct} (h : c.answer o key = .ok f) {d : QualName}
    (hd : ReflTransGen c.Contains key d) : ¬ TransGen c.Contains d d := by
  refine answer_induction (motive := fun _ key _ =>
    ∀ d, ReflTransGen c.Contains key d → ¬ TransGen c.Contains d d) ?_ h d hd
  intro n key s rule ts p f hs laid ih d hd hcycle
  -- a cycle through `key` itself passes through a contained struct
  have key_acyclic : ¬ TransGen c.Contains key key := fun hkey => by
    obtain ⟨k, hk, hback⟩ := TransGen.head'_iff.1 hkey
    obtain ⟨g, hg⟩ := laid.exists_child hs hk
    exact ih k g hk hg key hback hkey
  rcases hd.cases_head with rfl | ⟨k, hk, hd⟩
  · exact key_acyclic hcycle
  · obtain ⟨g, hg⟩ := laid.exists_child hs hk
    exact ih k g hk hg d hd hcycle

/-- Structs that may be under way: different structs of the catalog. -/
structure Stack (c : Catalog) (pending : List QualName) : Prop where
  nodup : pending.Nodup
  declared : ∀ d ∈ pending, (c.struct? d).isSome

theorem mem_structs_of_struct? {d : QualName} {s : StructDecl} (h : c.struct? d = some s) :
    (d, s) ∈ c.structs := by
  obtain ⟨before, after, heq, -⟩ := List.lookup_eq_some_iff.1 h
  rw [heq]
  exact List.mem_append_right _ List.mem_cons_self

namespace Stack

variable {pending : List QualName}

instance decidable (c : Catalog) (pending : List QualName) : Decidable (c.Stack pending) :=
  decidable_of_iff (pending.Nodup ∧ ∀ d ∈ pending, (c.struct? d).isSome)
    ⟨fun ⟨hnodup, hdeclared⟩ => ⟨hnodup, hdeclared⟩, fun h => ⟨h.nodup, h.declared⟩⟩

theorem nil (c : Catalog) : c.Stack [] := ⟨List.nodup_nil, by simp⟩

theorem cons (h : c.Stack pending) (hkey : key ∉ pending) {s : StructDecl}
    (hs : c.struct? key = some s) : c.Stack (key :: pending) where
  nodup := List.nodup_cons.2 ⟨hkey, h.nodup⟩
  declared := by
    intro d hd
    rcases List.mem_cons.1 hd with rfl | hd
    · rw [hs]; rfl
    · exact h.declared d hd

/-- **There are no more structs under way than there are structs.** -/
theorem length_le (h : c.Stack pending) : pending.length ≤ c.structs.length := by
  have hkeys : pending ⊆ c.structs.map Prod.fst := by
    intro d hd
    obtain ⟨s, hs⟩ := Option.isSome_iff_exists.1 (h.declared d hd)
    exact List.mem_map.2 ⟨(d, s), mem_structs_of_struct? hs, rfl⟩
  have hle := (h.nodup.subperm hkeys).length_le
  rwa [List.length_map] at hle

end Stack

/-- Structs under way, as many as fuel was spent. -/
structure Underway (c : Catalog) (fuel : Nat) (pending : List QualName) : Prop where
  nodup : pending.Nodup
  declared : ∀ d ∈ pending, (c.struct? d).isSome
  spent : fuel + pending.length = c.structs.length + 1

theorem Underway.stack {fuel : Nat} {pending : List QualName} (h : c.Underway fuel pending) :
    c.Stack pending := ⟨h.nodup, h.declared⟩

/-- There is fuel left. -/
theorem Underway.exists_fuel {fuel : Nat} {pending : List QualName} (h : c.Underway fuel pending) :
    ∃ n, fuel = n + 1 := by
  have hle := h.stack.length_le
  have := h.spent
  exact ⟨fuel - 1, by omega⟩

theorem Underway.cons {n : Nat} {pending : List QualName} (h : c.Underway (n + 1) pending)
    (hkey : key ∉ pending) {s : StructDecl} (hs : c.struct? key = some s) :
    c.Underway n (key :: pending) where
  nodup := (h.stack.cons hkey hs).nodup
  declared := (h.stack.cons hkey hs).declared
  spent := by have := h.spent; simp only [List.length_cons]; omega

/-- **The structs under way do not change a success**, as long as the struct contains none of
them. -/
theorem flattenUnder_of_answer {fuel : Nat} {pending : List QualName} {f : FlatStruct}
    (h : c.answer o key = .ok f) (hway : c.Underway fuel pending)
    (hfree : ∀ d ∈ pending, ¬ ReflTransGen c.Contains key d) :
    c.flattenUnder o fuel pending key = .ok f := by
  have acyclic := fun d => acyclic_of_answer h (d := d)
  refine answer_induction (motive := fun _ key f => ∀ fuel pending, c.Underway fuel pending →
    (∀ d, ReflTransGen c.Contains key d → ¬ TransGen c.Contains d d) →
    (∀ d ∈ pending, ¬ ReflTransGen c.Contains key d) →
    c.flattenUnder o fuel pending key = .ok f) ?_ h fuel pending hway acyclic hfree
  intro _ key s rule ts p f hs laid ih fuel pending hway acyclic hfree
  obtain ⟨n, rfl⟩ := hway.exists_fuel
  have hkey : key ∉ pending := fun hk => hfree key hk .refl
  have below : ∀ d, c.Contains key d → ∀ g, c.answer o d = .ok g →
      c.flattenUnder o n (key :: pending) d = .ok g := by
    intro d hd g hg
    refine ih d g hd hg n _ (hway.cons hkey hs) (fun e he => acyclic e (he.head hd)) ?_
    rintro e (_ | ⟨_, he⟩) hde
    · exact acyclic key .refl (TransGen.head' hd hde)
    · exact hfree e he (hde.head hd)
  have hlay' : layoutFrom c o (c.flattenUnder o n (key :: pending)) key s = .ok (ts, f) :=
    layoutFrom_mono (fun g source d hmem hbind => below d ⟨s, hs, g, source, hmem, hbind⟩)
      laid.computed
  rw [flattenUnder, if_neg (by simpa using hkey), declaration_of_struct? hs]
  show (layoutFrom c o (c.flattenUnder o n (key :: pending)) key s).map Prod.snd = _
  rw [hlay']
  rfl

/-- A struct is no obstacle for what it contains: nothing in there leads back to it, or it would
contain itself. -/
theorem flattenUnder_of_contains {s : StructDecl} (hs : c.struct? key = some s) {d : QualName}
    (hd : c.Contains key d) {g : FlatStruct} (hg : c.answer o d = .ok g) :
    c.flattenUnder o c.structs.length [key] d = .ok g := by
  have hway : c.Underway c.structs.length [key] :=
    Underway.cons ⟨List.nodup_nil, by simp, by simp⟩ (by simp) hs
  refine flattenUnder_of_answer hg hway fun e he hde => ?_
  obtain rfl := List.mem_singleton.1 he
  exact acyclic_of_answer hg .refl (TransGen.tail' hde hd)

theorem answer_eq {s : StructDecl} (hs : c.struct? key = some s) :
    c.answer o key =
      (layoutFrom c o (c.flattenUnder o c.structs.length [key]) key s).map Prod.snd := by
  rw [answer, flattenUnder, if_neg (by simp), declaration_of_struct? hs]
  rfl

/-- **What can be laid out with the answers for the contained structs is answered.** -/
theorem answer_of_layoutFrom {s : StructDecl} {ts : List Spot} {f : FlatStruct}
    (hs : c.struct? key = some s) (h : layoutFrom c o (c.answer o) key s = .ok (ts, f)) :
    c.answer o key = .ok f := by
  have hlay : layoutFrom c o (c.flattenUnder o c.structs.length [key]) key s = .ok (ts, f) :=
    layoutFrom_mono (fun g source d hmem hbind g hg =>
      flattenUnder_of_contains hs ⟨s, hs, _, source, hmem, hbind⟩ hg) h
  rw [answer_eq hs, hlay]
  rfl

/-- If all fields have spots and a name is used twice, this is what is answered. -/
theorem answer_of_repeated {s : StructDecl} {rule : LayoutRule} {ts : List Spot} {p : Placement}
    (hs : c.struct? key = some s) (hrule : LayoutRule.ofAttr s.name s.layout = .ok rule)
    (hslots : s.slots = ts.map Spot.slot)
    (hrun : SpotRun c o (c.answer o) key (.start s.name rule s.markers.union) ts p)
    (hrepeated : ¬ (p.members.map (·.name)).Nodup) :
    ∃ name, c.answer o key = .error (.duplicateMember p.name name) := by
  obtain ⟨name, hnames⟩ : ∃ name, p.checkNames = .error (.duplicateMember p.name name) := by
    unfold Placement.checkNames
    split
    next name _ => exact ⟨name, rfl⟩
    next hnone => exact absurd (nodup_of_firstRepeated hnone).1 hrepeated
  have hspots : spotsFor c o (c.flattenUnder o c.structs.length [key]) key
      (.start s.name rule s.markers.union) s.slots = .ok (ts, p) := by
    refine spotsFor_mono (fun g source d hmem hbind g hg => ?_) (hslots ▸ spotsFor_of_spotRun hrun)
    exact flattenUnder_of_contains hs ⟨s, hs, _, source, hmem, hbind⟩ hg
  refine ⟨name, ?_⟩
  simp only [answer_eq hs, layoutFrom, hrule, hspots, hnames, Bind.bind, Except.bind]
  rfl

end Catalog

end FlatLayout
