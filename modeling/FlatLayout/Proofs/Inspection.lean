import FlatLayout.Proofs.LaterUnits
import FlatLayout.Proofs.Memoisation
import FlatLayout.Proofs.Publication
import Mathlib.Data.List.TakeWhile

/-!
# Showing one struct by its name

A struct is asked for by its qualified name or by its name alone, behind the last dot. Both are
looked for at once: the first struct that has the name in one way or the other is the one that is
laid out and shown. The structs come in the order in which they are entered, the primary unit first,
and what is nested in a struct before it.

## Which struct is shown

What stands behind the last dot has no dot, so a qualified name with a dot is the name of one struct
only, which is found whatever else is declared. The qualified name of a struct at the top without a
namespace is its own name. It is found exactly if no struct of that name is entered before it, at
any depth and in any namespace; otherwise the first of those is shown in its place, and there is no
other name by which it could be asked for.

## Main definitions

* `selectedFor` — the struct that is found when one is asked for by its qualified name
* `CommandLine.Shows` — a run shows the layout of a struct, or fails because it has none

## Main results

* `findStruct_text` — the struct that is found
* `inspect_type_iff` — what a run shows, and when it is the struct that was asked for
-/

namespace FlatLayout

/-! ### The structs in order -/

namespace Catalog

theorem isSome_struct?_iff {c : Catalog} {k : QualName} :
    (c.struct? k).isSome ↔ k ∈ c.structs.map Prod.fst := by
  simp only [struct?, List.lookup_isSome_iff, List.mem_map, beq_iff_eq, eq_comm (a := k)]

/-- Structs are found in the order in which they are entered. One whose name is taken is not
entered, but then another one with the same name is found before it. -/
theorem find?_structs_foldl_put (c : Catalog) (es : List Declaration) (P : QualName → Bool) :
    ((es.foldl put c).structs.map Prod.fst).find? P =
      ((c.structs.map Prod.fst).find? P).or ((es.filterMap Declaration.structKey?).find? P) := by
  induction es generalizing c with
  | nil => exact Option.or_none.symm
  | cons e es ih =>
    rw [List.foldl_cons, ih]
    cases e with
    | struct q s =>
      have hkeys : (Declaration.struct q s :: es).filterMap Declaration.structKey? =
          q :: es.filterMap Declaration.structKey? := rfl
      rw [hkeys, ← List.singleton_append, List.find?_append, ← Option.or_assoc]
      congr 1
      by_cases htaken : (c.struct? q).isSome
      · rw [put_of_taken htaken, List.find?_singleton]
        split
        next hP =>
          have hfound : ((c.structs.map Prod.fst).find? P).isSome :=
            List.find?_isSome.2 ⟨q, isSome_struct?_iff.1 htaken, hP⟩
          rw [Option.or_of_isSome hfound]
        next => exact Option.or_none.symm
      · rw [put_of_free htaken, List.map_append, List.find?_append]
        rfl
    | enum q d => rfl
    | managed q d => rfl

variable (us : List SourceUnit)

/-- **The structs are found in the order of the declarations.** -/
theorem find?_structs_ofUnits (P : QualName → Bool) :
    ((ofUnits us).structs.map Prod.fst).find? P = (us.flatMap (·.structKeys)).find? P := by
  obtain ⟨more, h⟩ := foldl_addUnit_eq empty us
  have hkeys : us.flatMap (·.structKeys) =
      (us.flatMap (·.declarations)).filterMap Declaration.structKey? :=
    List.filterMap_flatMap.symm
  rw [ofUnits, h, hkeys, withNamespaces, find?_structs_foldl_put]
  exact Option.none_or

theorem isSome_struct?_iff_mem (k : QualName) :
    ((ofUnits us).struct? k).isSome ↔ k ∈ us.flatMap (·.structKeys) := by
  have mem_iff {ks : List QualName} : k ∈ ks ↔ (ks.find? (· == k)).isSome := by simp
  rw [isSome_struct?_iff, mem_iff, find?_structs_ofUnits, ← mem_iff]

end Catalog

/-! ### Finding a struct -/

theorem QualName.text_inj {q k : QualName} : q.text = k.text ↔ q = k := by
  cases q
  cases k
  simp

theorem QualName.dot_not_mem_simpleName (k : QualName) : '.' ∉ k.simpleName.toList := by
  rw [simpleName, String.toList_ofList, List.mem_reverse]
  intro h
  simpa using List.mem_takeWhile_imp h

/-- The struct that is found among some names when `k` is asked for: the first one in front of `k`
that has this name behind its last dot, or else `k`. -/
def selectedFor (names : List QualName) (k : QualName) : QualName :=
  ((names.takeWhile (· != k)).find? fun q => q.simpleName == k.text).getD k

section

variable {names : List QualName} {k : QualName}

theorem selectedFor_eq_iff :
    selectedFor names k = k ↔ ∀ q ∈ names.takeWhile (· != k), q.simpleName ≠ k.text := by
  rw [selectedFor]
  cases hfind : (names.takeWhile (· != k)).find? fun q => q.simpleName == k.text with
  | none => simpa using hfind
  | some q =>
    have hq : q ∈ names.takeWhile (· != k) := List.mem_of_find?_eq_some hfind
    have hname : q.simpleName = k.text := by simpa using List.find?_some hfind
    have hne : q ≠ k := by simpa using List.mem_takeWhile_imp hq
    exact ⟨fun heq => absurd heq hne, fun h => absurd hname (h q hq)⟩

/-- **The struct that is found** when one is asked for by its qualified name. -/
theorem findStruct_text (us : List SourceUnit) (hk : k ∈ us.flatMap (·.structKeys)) :
    CommandLine.findStruct (.ofUnits us) k.text =
      some (selectedFor (us.flatMap (·.structKeys)) k) := by
  obtain ⟨before, after, hnames, hbefore⟩ := List.eq_append_cons_of_mem hk
  -- in front of `k` no qualified name is the one asked for
  have hsimple : before.find? (fun q => q.text == k.text || q.simpleName == k.text) =
      before.find? fun q => q.simpleName == k.text := by
    rw [← List.head?_filter, ← List.head?_filter]
    refine congrArg _ (List.filter_congr fun q hq => ?_)
    have : q.text ≠ k.text := fun heq => hbefore (QualName.text_inj.1 heq ▸ hq)
    simp [this]
  rw [CommandLine.findStruct, Catalog.find?_structs_ofUnits, hnames, selectedFor,
    takeWhile_bne_append hbefore, List.find?_append, hsimple, List.find?_cons_of_pos (by simp)]
  cases before.find? fun q => q.simpleName == k.text <;> rfl

/-- No other struct has a qualified name with a dot in one way or the other. -/
theorem selectedFor_of_dot (h : '.' ∈ k.text.toList) : selectedFor names k = k :=
  selectedFor_eq_iff.2 fun q _ hq => q.dot_not_mem_simpleName (hq ▸ h)

end

namespace CommandLine

/-! ### What is printed -/

/-- The lines that show a layout. -/
def displayed (styled withAccessors : Bool) (f : FlatStruct) : List String :=
  [caption styled f ++ "\n", (Table.ofStruct f withAccessors).text styled ++ "\n"] ++
    (if f.overlaps.length ≠ 0 then
      ["  " ++ Terminal.paintIf styled .yellow (Text.decimal f.overlaps.length) ++
        " overlapping field pairs" ++ "\n"]
    else []) ++
    ["\n"]

/-- What is left behind by a run that shows the layout of the struct `k`, or that fails because the
struct has none. -/
def Shows (styled withAccessors : Bool) (k : QualName) (t : Transcript) :
    Except LayoutError FlatStruct → Prop
  | .ok f => f.key = k ∧ t.exitCode = 0 ∧ t.out = displayed styled withAccessors f ∧ t.files = []
  | .error e => t.exitCode = 1 ∧ t.out = [] ∧ t.files = [] ∧
      ∃ lines, t.err = lines ++ [statusLine styled .red "[!]" e.message]

section

variable {s : Setup}

theorem run_print (text : String) (t : Transcript) :
    (print text).run.run t = (.ok (), { t with out := t.out ++ [text ++ "\n"] }) := rfl

theorem run_showStruct (withAccessors : Bool) (f : FlatStruct) (t : Transcript) :
    (showStruct s withAccessors f).run.run t =
      (.ok (), { t with out := t.out ++ displayed s.styled withAccessors f }) := by
  by_cases hoverlaps : f.overlaps.length = 0
  · simp only [showStruct, displayed, hoverlaps, ne_eq, not_true_eq_false, if_false, run_bind,
      run_print, List.append_assoc, List.append_nil]
    rfl
  · simp only [showStruct, displayed, hoverlaps, ne_eq, not_false_eq_true, if_true, run_bind,
      run_print, List.append_assoc]
    rfl

theorem outcome_log (rs : List Log.Record) (t : Transcript) : outcome (log s rs) t = .ok () := by
  unfold log
  split <;> rfl

/-- The configuration and the units make a project. -/
def loadProject (s : Setup) (source : SourceArgs) : Steps Project := do
  let c ← loadConfig s source
  let units ← loadUnits s source
  return projectOf c units

theorem keeps_loadProject (source : SourceArgs) : Keeps Unpublished (loadProject s source) :=
  .bind (keeps_loadConfig source) fun _ => .bind (keeps_loadUnits source) fun _ => .pure _

theorem inspect_some_eq (source : SourceArgs) (name : String) (accessors : Bool) :
    inspect s source (some name) accessors =
      loadProject s source >>= fun p => inspectStruct s p name >>= showStruct s accessors := by
  simp [inspect, loadProject, bind_assoc]

theorem outcome_inspectStruct {p : Project} {name : String} {k : QualName}
    (h : findStruct p.catalog name = some k) (t : Transcript) :
    outcome (inspectStruct s p name) t = (p.catalog.flatten p.options k).mapError (·.message) := by
  rw [inspectStruct, outcome_bind_ok (outcome_log _ t), h]
  show outcome (reported s (p.catalog.flatten p.options k, _)) _ = _
  rw [reported, outcome_bind_ok (outcome_log _ _)]
  cases p.catalog.flatten p.options k <;> rfl

/-- What the first steps of `inspect` come to is shown, or the run ends with their error. -/
theorem shows_inspect {source : SourceArgs} {name : String} {accessors : Bool} {p : Project}
    {k : QualName} (hloaded : outcome (loadProject s source) Transcript.start = .ok p)
    (h : findStruct p.catalog name = some k) :
    Shows s.styled accessors k (finish s.styled (inspect s source (some name) accessors))
      (p.catalog.flatten p.options k) := by
  have hsteps : inspect s source (some name) accessors =
      (loadProject s source >>= fun p => inspectStruct s p name) >>= showStruct s accessors := by
    rw [inspect_some_eq, bind_assoc]
  have hprepared : Unpublished (stateAfter
      (loadProject s source >>= fun p => inspectStruct s p name) Transcript.start) :=
    Keeps.bind (keeps_loadProject source) (fun p => keeps_inspectStruct p name) _ ⟨rfl, rfl, rfl⟩
  have houtcome : outcome (loadProject s source >>= fun p => inspectStruct s p name)
      Transcript.start = (p.catalog.flatten p.options k).mapError (·.message) := by
    rw [outcome_bind_ok hloaded, outcome_inspectStruct h]
  rw [hsteps]
  cases hflat : p.catalog.flatten p.options k with
  | ok f =>
    rw [hflat] at houtcome
    have hkey : f.key = k := by
      rw [flatten_eq_answer] at hflat
      obtain ⟨_, _, _, _, -, laid⟩ := Catalog.exists_laid_of_answer hflat
      exact laid.key_eq
    have hshown := run_showStruct (s := s) accessors f
    rw [finish_of_ok ((outcome_bind_ok houtcome).trans (congrArg Prod.fst (hshown _))),
      stateAfter_bind_ok houtcome, stateAfter, hshown]
    refine ⟨hkey, hprepared.running, ?_, hprepared.files⟩
    show _ ++ _ = _
    rw [hprepared.out, List.nil_append]
  | error e =>
    rw [hflat] at houtcome
    rw [finish_of_error (outcome_bind_error houtcome), stateAfter_bind_error houtcome]
    exact ⟨rfl, hprepared.out, hprepared.files, _, rfl⟩

end

/-! ### Asking for a struct -/

/-- **What is shown when a struct is asked for by its qualified name.** It is the struct, unless one
that is entered before it has this name behind its last dot; then it is the first of those. So the
struct is shown whenever there is a dot in its qualified name, whatever else is declared, and one at
the top without a namespace is shown exactly if no struct of its name is entered before it. To show
a struct is to print its layout, or to fail if it has none. -/
theorem inspect_type_iff {env : Surroundings} {args : List String} {a : Arguments}
    {source : SourceArgs} {k : QualName} {accessors : Bool} {level : Option Log.Level} {p : Project}
    (hparse : Arguments.parse args = .ok a)
    (hcommand : a.command = .inspect source (some k.text) accessors)
    (hlevel : logLevelOf a.logLevel = .ok level)
    (hloaded : outcome (loadProject ⟨env, env.styled && !a.noColor, level⟩ source)
      Transcript.start = .ok p)
    (hk : (p.catalog.struct? k).isSome) :
    let names := p.selectedUnits.flatMap (·.structKeys)
    let shown := selectedFor names k
    Shows (env.styled && !a.noColor) accessors shown (run env args)
        (p.catalog.flatten p.options shown) ∧
      (shown = k ↔ ∀ q ∈ names.takeWhile (· != k), q.simpleName ≠ k.text) ∧
      ('.' ∈ k.text.toList → shown = k) := by
  intro names shown
  have hfound : findStruct p.catalog k.text = some shown :=
    findStruct_text p.selectedUnits ((Catalog.isSome_struct?_iff_mem p.selectedUnits k).1 hk)
  refine ⟨?_, selectedFor_eq_iff, selectedFor_of_dot⟩
  simp only [run, hparse, runArguments, hlevel, hcommand, execute]
  exact shows_inspect hloaded hfound

/-- One file, a unit with a struct in another one, and then a struct of the same name at the top. -/
def clashSurroundings : Surroundings where
  read? path :=
    if path = "unit.json" then
      some ("\x7b\"name\":\"u\",\"items\":[\x7b\"kind\":\"struct\",\"name\":\"Outer\"," ++
        "\"members\":[\x7b\"kind\":\"struct\",\"name\":\"A\",\"members\":" ++
        "[\x7b\"kind\":\"field\",\"type\":\"byte\",\"names\":[\"b\"]\x7d]\x7d]\x7d," ++
        "\x7b\"kind\":\"struct\",\"name\":\"A\",\"members\":" ++
        "[\x7b\"kind\":\"field\",\"type\":\"int\",\"names\":[\"x\"]\x7d]\x7d]\x7d")
    else none
  writable _ := false
  styled := false

/-- The unit and nothing else. -/
def clashSource : SourceArgs := ⟨"unit.json", [], none, none, [], false, false⟩

/-- Both structs are declared, and both have a layout. -/
theorem loadProject_clash :
    ∃ p, outcome (loadProject ⟨clashSurroundings, false, some .info⟩ clashSource)
        Transcript.start = .ok p ∧
      (p.catalog.struct? ⟨"Outer.A"⟩).isSome ∧
      (∃ f, p.catalog.flatten p.options ⟨"Outer.A"⟩ = .ok f ∧ f.footprint.size = 1) ∧
      ∃ f, p.catalog.flatten p.options ⟨"A"⟩ = .ok f ∧
        caption false f = "A size 0x4 (4) align 4" := by decide +kernel

/-- The struct in the other one has a dot in its qualified name, and it is the one that is shown. -/
theorem inspect_type_iff_nested :
    ∃ p, outcome (loadProject ⟨clashSurroundings, false, some .info⟩ clashSource)
        Transcript.start = .ok p ∧
      (∃ f, p.catalog.flatten p.options ⟨"Outer.A"⟩ = .ok f ∧ f.footprint.size = 1) ∧
      Shows false false ⟨"Outer.A"⟩
        (run clashSurroundings ["inspect", "-i", "unit.json", "--type", "Outer.A"])
        (p.catalog.flatten p.options ⟨"Outer.A"⟩) := by
  obtain ⟨p, hp, hk, hlaid, -⟩ := loadProject_clash
  have hparse : Arguments.parse ["inspect", "-i", "unit.json", "--type", "Outer.A"] =
      .ok ⟨.inspect clashSource (some "Outer.A") false, "info", false⟩ := rfl
  obtain ⟨hshows, -, hdot⟩ := inspect_type_iff hparse rfl rfl hp hk
  rw [hdot (by decide +kernel)] at hshows
  exact ⟨p, hp, hlaid, hshows⟩

/-- The one at the top cannot be shown: asked for by its qualified name, the run shows the struct in
the other one. -/
theorem inspect_type_shows_other :
    ∃ p f, outcome (loadProject ⟨clashSurroundings, false, some .info⟩ clashSource)
        Transcript.start = .ok p ∧
      p.catalog.flatten p.options ⟨"A"⟩ = .ok f ∧
      ¬ Shows false false ⟨"A"⟩
        (run clashSurroundings ["inspect", "-i", "unit.json", "--type", "A"]) (.ok f) ∧
      (run clashSurroundings ["inspect", "-i", "unit.json", "--type", "A"]).out.head? =
        some "Outer.A size 0x1 (1) align 1\n" := by
  have hhead : (run clashSurroundings ["inspect", "-i", "unit.json", "--type", "A"]).out.head? =
      some "Outer.A size 0x1 (1) align 1\n" := by decide +kernel
  obtain ⟨p, hp, -, -, f, hf, hcaption⟩ := loadProject_clash
  refine ⟨p, f, hp, hf, ?_, hhead⟩
  rintro ⟨-, -, hout, -⟩
  rw [hout, displayed, hcaption] at hhead
  exact absurd (Option.some.inj hhead) (by decide +kernel)

end CommandLine

end FlatLayout
