import FlatLayout.Proofs.Success
import FlatLayout.Proofs.Treatment

/-!
# The layouts that a run hands out

Flattening a project hands out the memo as it is in the end. Which structs are in there is decided
by recursive calls from many places, and their order is the order in which these calls ended. From
outside it is simple: the layouts are those of the structs that were replaced and of everything
embedded in them, each once and each behind what it embeds.

The invariant of the memo, `Builds`, speaks of the structs that a struct contains, as they are met
when its fields are placed. That these are all that it embeds is known only for structs that were
laid out; the memo has no others.

## Main results

* `layouts_of_run` — the layouts of a run are the closure of what was replaced, in order
-/

namespace FlatLayout

open Relation

section

variable {c : Catalog} {o : Options} {key d : QualName} {f : FlatStruct}

/-- What can be flattened contains exactly what it embeds. -/
theorem contains_iff_embeds (h : c.answer o key = .ok f) : c.Contains key d ↔ c.Embeds key d := by
  obtain ⟨s, rule, ts, p, hs, laid⟩ := Catalog.exists_laid_of_answer h
  exact ⟨Catalog.Contains.embeds, laid.contains_of_embeds hs⟩

theorem reaches_iff_of_answer (h : c.answer o key = .ok f) :
    ReflTransGen c.Contains key d ↔ ReflTransGen c.Embeds key d :=
  ⟨ReflTransGen.mono (fun _ _ => Catalog.Contains.embeds) _ _, reaches_of_answer h⟩

theorem Workbench.Faithful.exists_answer {w : Workbench} {pending : List QualName}
    (h : w.Faithful c o pending) (hd : d ∈ w.memo.keys) : ∃ f, c.answer o d = .ok f := by
  obtain ⟨f, hf, rfl⟩ := List.mem_map.1 hd
  exact ⟨f, h.sound f hf⟩

end

/-- **The layouts are the closure of what was replaced, in order.** Whatever flattening a project
yields: no struct has two layouts; there is a layout of exactly those structs that can be reached
from a struct that was replaced, through instance fields of struct type; each layout stands behind
those of all structs that it embeds; and as many layouts were computed as there are. -/
theorem layouts_of_run {p : Project} {out : Outcome} (h : p.run.1 = .ok out) :
    (out.layouts.map (·.key)).Nodup ∧
    (∀ d, d ∈ out.layouts.map (·.key) ↔
      ∃ f ∈ out.replaced, ReflTransGen p.catalog.Embeds f.key d) ∧
    (∀ before f after, out.layouts = before ++ f :: after →
      ∀ d, p.catalog.Embeds f.key d → d ∈ before.map (·.key)) ∧
    p.draft.bench.computed = out.layouts.length := by
  obtain ⟨items, vs, ran⟩ := treats_of_run h
  obtain ⟨⟨hbuilds, -, hcounted⟩, hfinished⟩ := ran.served.grows rfl
  have hfaithful := ran.served.faithful (Workbench.faithful_empty _ _)
  have hreaches : ∀ f ∈ out.replaced, ∀ d, ReflTransGen p.catalog.Contains f.key d ↔
      ReflTransGen p.catalog.Embeds f.key d := by
    intro f hf d
    obtain ⟨g, hg⟩ := hfaithful.exists_answer (hfinished f hf)
    exact reaches_iff_of_answer hg
  rw [ran.layouts]
  refine ⟨hbuilds.nodup, fun d => ⟨fun hd => ?_, ?_⟩, fun before f after heq d hd => ?_, ?_⟩
  · obtain ⟨f, hf, hd⟩ := hbuilds.allowed_of_mem hd
    exact ⟨f, hf, (hreaches f hf d).1 hd⟩
  · rintro ⟨f, hf, hd⟩
    exact hbuilds.closed (hfinished f hf) ((hreaches f hf d).2 hd)
  · have hf : f ∈ p.draft.bench.memo.entries := heq ▸ by simp
    exact hbuilds.below_of_append heq ((contains_iff_embeds (hfaithful.sound f hf)).2 hd)
  · have : p.draft.bench.computed + 0 = 0 + p.draft.bench.memo.entries.length := hcounted
    omega

/-- A struct to be flattened, declared twice, and another one nested in it. Both contain `Pair`, one
of them twice, and `Pair` contains `Cell` twice. A further struct is contained in none of them. -/
def sharedProject : Project :=
  let field (type name : String) : Member := .field (.ofNames (.named type) [name])
  let struct (name : String) (markers : Markers) (members : List Member) : StructDecl :=
    ⟨["public"], name, markers, none, members⟩
  { options := .ofPointerWidth 8
    defines := []
    primary := ⟨"a.cs", none, [], [
      .struct (struct "Outer" (Markers.none.insert .flatten) [
        .struct (struct "Inner" (Markers.none.insert .flatten) [field "Pair" "pair"]),
        field "Pair" "left", field "Pair" "right"]),
      .struct (struct "Pair" .none [field "Cell" "x", field "Cell" "y"]),
      .struct (struct "Cell" .none [field "int" "value"]),
      .struct (struct "Alone" .none [field "Cell" "cell"]),
      .struct (struct "Outer" (Markers.none.insert .flatten) [field "byte" "tag"])]⟩
    auxiliary := [] }

/-- Here the theorem says that `Cell` can be reached from one of the four structs that were replaced
and `Alone` cannot, and that four layouts were computed. -/
theorem layouts_of_run_shared :
    ∃ out, sharedProject.run.1 = .ok out ∧
      out.replaced.map (·.key.text) = ["Outer", "Outer.Inner", "Outer", "Outer.Inner"] ∧
      out.layouts.map (·.key.text) = ["Cell", "Pair", "Outer", "Outer.Inner"] ∧
      (∃ f ∈ out.replaced, ReflTransGen sharedProject.catalog.Embeds f.key ⟨"Cell"⟩) ∧
      (∀ f ∈ out.replaced, ¬ ReflTransGen sharedProject.catalog.Embeds f.key ⟨"Alone"⟩) ∧
      sharedProject.draft.bench.computed = 4 := by
  have hrun : ∃ out, sharedProject.run.1 = .ok out ∧
      out.replaced.map (·.key.text) = ["Outer", "Outer.Inner", "Outer", "Outer.Inner"] ∧
      out.layouts.map (·.key.text) = ["Cell", "Pair", "Outer", "Outer.Inner"] ∧
      out.layouts.map (·.key) = [⟨"Cell"⟩, ⟨"Pair"⟩, ⟨"Outer"⟩, ⟨"Outer.Inner"⟩] := by
    decide +kernel
  obtain ⟨out, hrun, hreplaced, htexts, hkeys⟩ := hrun
  obtain ⟨-, hreached, -, hcomputed⟩ := layouts_of_run hrun
  refine ⟨out, hrun, hreplaced, htexts, (hreached _).1 (by simp [hkeys]), fun f hf h => ?_, ?_⟩
  · have hmem := (hreached _).2 ⟨f, hf, h⟩
    simp [hkeys] at hmem
  · rw [hcomputed, ← List.length_map (f := FlatStruct.key), hkeys]
    rfl

end FlatLayout
