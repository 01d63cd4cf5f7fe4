import FlatLayout.CommandLine.Run
import FlatLayout.Proofs.Steps

/-!
# What a failing run publishes

A run publishes what it prints and the files it writes. A run may fail at many places: the log level
may be unknown, a file missing or malformed, the configuration refused, a struct without a layout, a
check not passed, a name unknown. All of these come before anything is published; what can fail
afterwards is only to write a file.

## The two halves of a command

Each command is put together from steps that prepare and steps that publish. What prepares may fail,
keeps `Unpublished`, and does not look at which files can be written. What publishes has a list of
files, and `Publishes` says that it fails exactly if one of them cannot be written. So a run that
fails either fails for a file, and would not if every file could be written, or it fails all the
same, while nothing is published.

## Main definitions

* `Unpublished` — nothing was printed and no file written, and the run goes on
* `Publishes` — steps that write some files, and fail only for one of them
* `CannotWrite` — a file that the program would write cannot be written

## Main results

* `cannotWrite_iff` — a run that cannot write is one that fails and would succeed if every file
  could be written
* `failing_run_publishes_nothing` — a run that fails for any other reason publishes nothing
-/

namespace FlatLayout

theorem Keeps.mapM {ε σ α β : Type} {I : σ → Prop} {f : α → ExceptT ε (StateM σ) β}
    (h : ∀ a, Keeps I (f a)) (as : List α) : Keeps I (as.mapM f) := by
  induction as with
  | nil => exact .pure _
  | cons a as ih =>
    rw [List.mapM_cons]
    exact .bind (h a) fun b => .bind ih fun bs => .pure _

namespace CommandLine

/-! ### Preparing -/

/-- Nothing was printed and no file was written, and the run goes on. -/
structure Unpublished (t : Transcript) : Prop where
  running : t.exitCode = 0
  out : t.out = []
  files : t.files = []

section

variable {α : Type} {s : Setup}

/-- Messages may be added. -/
theorem keeps_err (more : List String) :
    Keeps Unpublished (modify fun t => { t with err := t.err ++ more } : Steps Unit) :=
  fun _ ht => ⟨ht.running, ht.out, ht.files⟩

theorem keeps_status (style : Terminal.Style) (label message : String) :
    Keeps Unpublished (status s style label message) := keeps_err _

theorem keeps_log (rs : List Log.Record) : Keeps Unpublished (log s rs) := by
  unfold log
  split
  · exact .pure _
  · exact keeps_err _

theorem keeps_reported (r : Reported (Except LayoutError α)) :
    Keeps Unpublished (reported s r) := by
  refine .bind (keeps_log _) fun _ => ?_
  split
  · exact .pure _
  · exact .throw _

theorem keeps_load (context path : String) (decode : String → Except Json.DecodeError α) :
    Keeps Unpublished (load s context path decode) := by
  unfold load
  split
  · exact .throw _
  · split
    · exact .pure _
    · exact .throw _

theorem keeps_checkConfig (context : List String) (c : Config) :
    Keeps Unpublished (checkConfig context c) := by
  unfold checkConfig
  split
  · exact .pure _
  · exact .throw _

theorem keeps_configFile (source : SourceArgs) : Keeps Unpublished (configFile s source) := by
  unfold configFile
  split
  · exact .pure _
  · exact .bind (keeps_load _ _ _) fun c => .bind (keeps_checkConfig _ c) fun _ => .pure _

theorem keeps_loadConfig (source : SourceArgs) : Keeps Unpublished (loadConfig s source) :=
  .bind (keeps_configFile source) fun _ =>
    .bind (keeps_checkConfig _ _) fun _ => .bind (keeps_log _) fun _ => .pure _

theorem keeps_loadUnits (source : SourceArgs) : Keeps Unpublished (loadUnits s source) := by
  have hrest : Keeps Unpublished (do
      let primary ← loadUnit s source.input
      let aux ← source.aux.mapM (loadUnit s)
      info s ("Loaded " ++ primary.name ++ " (" ++ Text.decimal aux.length ++ " auxiliary units)")
      return (primary, aux)) :=
    .bind (keeps_load _ _ _) fun _ => .bind (Keeps.mapM (fun _ => keeps_load _ _ _) _) fun _ =>
      .bind (keeps_status _ _ _) fun _ => .pure _
  unfold loadUnits
  split
  · exact .bind (.throw _) fun _ => hrest
  · exact hrest

theorem keeps_flattenProject (p : Project) (verify : Bool) :
    Keeps Unpublished (flattenProject s p verify) := by
  unfold flattenProject
  refine .bind (keeps_reported _) fun outcome => ?_
  have hverify : Keeps Unpublished (if verify = true then do
        reported s (p.verify outcome)
        success s ("Verified " ++ Text.decimal outcome.replaced.length ++ " structs")
        return outcome
      else return outcome) := by
    split
    · exact .bind (keeps_reported _) fun _ => .bind (keeps_status _ _ _) fun _ => .pure _
    · exact .pure _
  by_cases hempty : outcome.replaced.isEmpty = true
  · simp only [hempty, if_true]
    exact .bind (keeps_status _ _ _) fun _ => hverify
  · simp only [hempty]
    exact hverify

theorem keeps_inspectStruct (p : Project) (name : String) :
    Keeps Unpublished (inspectStruct s p name) := by
  unfold inspectStruct
  refine .bind (keeps_log _) fun _ => ?_
  split
  · exact .throw _
  · exact keeps_reported _

/-- What the steps of `flatten` come to that prepare: the configuration, and the flattened unit with
the layouts. -/
def prepareFlatten (s : Setup) (source : SourceArgs) (format : Option OutputFormat)
    (verify : Bool) : Steps (Config × Outcome) := do
  let file ← loadConfig s source
  let c := { file with outputFormat := format.getD file.outputFormat }
  let units ← loadUnits s source
  let outcome ← flattenProject s (projectOf c units) verify
  return (c, outcome)

/-- What the steps of `inspect` come to that prepare: the layouts to be shown. -/
def prepareInspect (s : Setup) (source : SourceArgs) (type : Option String) :
    Steps (List FlatStruct) := do
  let c ← loadConfig s source
  let units ← loadUnits s source
  let p := projectOf c units
  match type with
  | some name => do
    let f ← inspectStruct s p name
    return [f]
  | none => do
    let outcome ← reported s p.run
    return outcome.layouts

theorem keeps_prepareFlatten (source : SourceArgs) (format : Option OutputFormat) (verify : Bool) :
    Keeps Unpublished (prepareFlatten s source format verify) :=
  .bind (keeps_loadConfig source) fun _ => .bind (keeps_loadUnits source) fun _ =>
    .bind (keeps_flattenProject _ verify) fun _ => .pure _

theorem keeps_prepareInspect (source : SourceArgs) (type : Option String) :
    Keeps Unpublished (prepareInspect s source type) := by
  refine .bind (keeps_loadConfig source) fun _ => .bind (keeps_loadUnits source) fun _ => ?_
  cases type with
  | some name => exact .bind (keeps_inspectStruct _ name) fun _ => .pure _
  | none => exact .bind (keeps_reported _) fun _ => .pure _

end

/-! ### Publishing -/

/-- The steps write the files, in order, and fail exactly if one of them cannot be written. -/
structure Publishes (env : Surroundings) (steps : Steps Unit) (files : List (String × String)) :
    Prop where
  succeeds : (∀ file ∈ files, env.writable file.1 = true) → ∀ t, outcome steps t = .ok () ∧
    (stateAfter steps t).files = t.files ++ files ∧ (stateAfter steps t).exitCode = t.exitCode
  fails : (∃ file ∈ files, env.writable file.1 = false) → ∀ t, ∃ e, outcome steps t = .error e

namespace Publishes

variable {env : Surroundings} {x y : Steps Unit} {files files' : List (String × String)}

theorem bind (hx : Publishes env x files) (hy : Publishes env y files') :
    Publishes env (x >>= fun _ => y) (files ++ files') where
  succeeds hwritable t := by
    obtain ⟨hfiles, hfiles'⟩ := List.forall_mem_append.1 hwritable
    obtain ⟨hok, hwritten, hcode⟩ := hx.succeeds hfiles t
    obtain ⟨hok', hwritten', hcode'⟩ := hy.succeeds hfiles' (stateAfter x t)
    rw [outcome_bind_ok hok, stateAfter_bind_ok hok, hwritten', hwritten, hcode', hcode,
      List.append_assoc]
    exact ⟨hok', rfl, rfl⟩
  fails := by
    rintro ⟨file, hfile, hwritable⟩ t
    cases hx' : outcome x t with
    | error e => exact ⟨e, outcome_bind_error hx'⟩
    | ok a =>
      rw [outcome_bind_ok hx']
      refine hy.fails ⟨file, ?_, hwritable⟩ _
      rcases List.mem_append.1 hfile with hfile | hfile
      · obtain ⟨e, he⟩ := hx.fails ⟨file, hfile, hwritable⟩ t
        cases hx'.symm.trans he
      · exact hfile

/-- Nothing is written. -/
theorem pure : Publishes env (pure ()) [] where
  succeeds _ _ := ⟨rfl, (List.append_nil _).symm, rfl⟩
  fails := by simp

theorem forM {α : Type} {f : α → Steps Unit} (h : ∀ a, Publishes env (f a) []) (as : List α) :
    Publishes env (as.forM f) [] := by
  induction as with
  | nil => exact pure
  | cons a as ih => exact (h a).bind ih

variable {s : Setup}

theorem status (style : Terminal.Style) (label message : String) :
    Publishes env (status s style label message) [] where
  succeeds _ _ := ⟨rfl, (List.append_nil _).symm, rfl⟩
  fails := by simp

theorem print (text : String) : Publishes env (print text) [] where
  succeeds _ _ := ⟨rfl, (List.append_nil _).symm, rfl⟩
  fails := by simp

/-- A file is written if it can be. -/
theorem save (path contents failure : String) :
    Publishes s.surroundings (save s path contents failure) [(path, contents)] where
  succeeds hwritable t := by
    rw [CommandLine.save, if_pos (hwritable _ List.mem_cons_self)]
    exact ⟨rfl, rfl, rfl⟩
  fails := by
    rintro ⟨file, hfile, hwritable⟩ t
    rw [List.mem_singleton.1 hfile] at hwritable
    rw [CommandLine.save, if_neg (by rw [hwritable]; decide)]
    exact ⟨failure, rfl⟩

theorem publish (text : String) (output : Option String) :
    Publishes s.surroundings (publish s text output) (output.toList.map (·, text)) := by
  cases output with
  | none => exact print text
  | some path => exact (save path text _).bind (status _ _ _)

theorem publishReport (c : Config) (layouts : List FlatStruct) (report : Option String) :
    Publishes s.surroundings (publishReport s c layouts report)
      (report.toList.map
        (·, Report.text (.ofPretty c.prettyJson) (layouts.map Report.ofStruct))) := by
  cases report with
  | none => exact pure
  | some path => exact (save path _ _).bind (status _ _ _)

theorem showStruct (withAccessors : Bool) (f : FlatStruct) :
    Publishes env (showStruct s withAccessors f) [] := by
  have hend : Publishes env (CommandLine.print "") [] := print ""
  unfold CommandLine.showStruct
  refine (print _).bind ((print _).bind ?_)
  dsimp only
  split
  · exact (print _).bind hend
  · exact hend

end Publishes

/-! ### Commands -/

/-- The steps of `flatten` that publish. -/
def publishFlatten (s : Setup) (output report : Option String) (r : Config × Outcome) :
    Steps Unit := do
  publish s (outputText r.1 r.2.unit) output
  publishReport s r.1 r.2.layouts report
  success s ("Flattened " ++ Text.decimal r.2.replaced.length ++ " structs for " ++
    r.1.target.name)

/-- The files that `flatten` writes. -/
def flattenFiles (output report : Option String) (r : Config × Outcome) :
    List (String × String) :=
  output.toList.map (·, outputText r.1 r.2.unit) ++
    report.toList.map
      (·, Report.text (.ofPretty r.1.prettyJson) (r.2.layouts.map Report.ofStruct))

theorem flatten_eq (s : Setup) (source : SourceArgs) (format : Option OutputFormat)
    (output report : Option String) (verify : Bool) :
    flatten s source format output report verify =
      prepareFlatten s source format verify >>= publishFlatten s output report := by
  simp only [flatten, prepareFlatten, publishFlatten, bind_assoc, pure_bind]

theorem inspect_eq (s : Setup) (source : SourceArgs) (type : Option String) (accessors : Bool) :
    inspect s source type accessors =
      prepareInspect s source type >>= fun layouts => layouts.forM (showStruct s accessors) := by
  cases type <;> simp only [inspect, prepareInspect, bind_assoc, pure_bind]

/-! ### Runs -/

/-- The same surroundings, but every file can be written. -/
def permissive (env : Surroundings) : Surroundings := { env with writable := fun _ => true }

/-- Two runs of one command, the second one where every file can be written: they prepare in the
same way, and publish the same files as far as they can be written. -/
inductive Staged (env : Surroundings) : Steps Unit → Steps Unit → Prop
  | intro {α : Type} {prepare : Steps α} {publish publish' : α → Steps Unit}
    {files : α → List (String × String)} (keeps : Keeps Unpublished prepare)
    (publishes : ∀ a, Publishes env (publish a) (files a))
    (publishes' : ∀ a, Publishes (permissive env) (publish' a) (files a)) :
    Staged env (prepare >>= publish) (prepare >>= publish')

/-- Every command is staged. That a file can be written is not looked at before it is written, so
both runs prepare by the same steps. -/
theorem staged_execute (env : Surroundings) (styled : Bool) (level : Option Log.Level)
    (command : Command) :
    Staged env (execute ⟨env, styled, level⟩ command)
      (execute ⟨permissive env, styled, level⟩ command) := by
  cases command with
  | flatten source format output report verify =>
    have hpublishes : ∀ (s : Setup) (r : Config × Outcome),
        Publishes s.surroundings (publishFlatten s output report r)
          (flattenFiles output report r ++ []) := fun s r =>
      List.append_assoc _ _ [] ▸ (Publishes.publish _ output).bind
        ((Publishes.publishReport _ _ report).bind (.status _ _ _))
    rw [execute, execute, flatten_eq, flatten_eq]
    exact .intro (keeps_prepareFlatten source format verify) (hpublishes ⟨env, styled, level⟩)
      (hpublishes ⟨permissive env, styled, level⟩)
  | inspect source type accessors =>
    rw [execute, execute, inspect_eq, inspect_eq]
    exact .intro (keeps_prepareInspect source type)
      (fun _ => Publishes.forM (Publishes.showStruct accessors) _)
      (fun _ => Publishes.forM (Publishes.showStruct accessors) _)

theorem finish_of_ok {styled : Bool} {steps : Steps Unit}
    (h : outcome steps Transcript.start = .ok ()) :
    finish styled steps = stateAfter steps Transcript.start := by
  unfold finish
  rw [outcome] at h
  split
  next t ht => rw [stateAfter, ht]
  next e t ht => rw [ht] at h; cases h

theorem finish_of_error {styled : Bool} {steps : Steps Unit} {e : String}
    (h : outcome steps Transcript.start = .error e) :
    finish styled steps = failed styled e (stateAfter steps Transcript.start) := by
  unfold finish
  rw [outcome] at h
  split
  next t ht => rw [ht] at h; cases h
  next e' t ht =>
    rw [ht] at h
    obtain rfl : e' = e := Except.error.inj h
    rw [stateAfter, ht]

/-- **What becomes of a command.** Either it fails while nothing is published, whatever files can be
written, or it succeeds where every file can be written, and otherwise fails exactly for a file. -/
theorem Staged.outcomes {env : Surroundings} {steps steps' : Steps Unit}
    (h : Staged env steps steps') (styled : Bool) :
    (finish styled steps = finish styled steps' ∧ (finish styled steps).exitCode = 1 ∧
        (finish styled steps).out = [] ∧ (finish styled steps).files = []) ∨
      (finish styled steps').exitCode = 0 ∧
        ((∀ file ∈ (finish styled steps').files, env.writable file.1 = true) →
          (finish styled steps).exitCode = 0) ∧
        ((∃ file ∈ (finish styled steps').files, env.writable file.1 = false) →
          (finish styled steps).exitCode = 1) := by
  obtain @⟨α, prepare, publish, publish', files, keeps, publishes, publishes'⟩ := h
  have hprepared : Unpublished (stateAfter prepare Transcript.start) := keeps _ ⟨rfl, rfl, rfl⟩
  cases hprepare : outcome prepare Transcript.start with
  | error e =>
    refine .inl ?_
    rw [finish_of_error (outcome_bind_error hprepare),
      finish_of_error (outcome_bind_error hprepare), stateAfter_bind_error hprepare,
      stateAfter_bind_error hprepare]
    exact ⟨rfl, rfl, hprepared.out, hprepared.files⟩
  | ok a =>
    refine .inr ?_
    obtain ⟨hok', hwritten', hcode'⟩ :=
      (publishes' a).succeeds (fun _ _ => rfl) (stateAfter prepare Transcript.start)
    rw [finish_of_ok ((outcome_bind_ok hprepare).trans hok'), stateAfter_bind_ok hprepare,
      hwritten', hprepared.files, List.nil_append]
    refine ⟨hcode'.trans hprepared.running, fun hwritable => ?_, fun hwritable => ?_⟩
    · obtain ⟨hok, -, hcode⟩ :=
        (publishes a).succeeds hwritable (stateAfter prepare Transcript.start)
      rw [finish_of_ok ((outcome_bind_ok hprepare).trans hok), stateAfter_bind_ok hprepare]
      exact hcode.trans hprepared.running
    · obtain ⟨e, he⟩ := (publishes a).fails hwritable (stateAfter prepare Transcript.start)
      rw [finish_of_error ((outcome_bind_ok hprepare).trans he)]
      rfl

/-- A file that the program would write, if it could write any, cannot be written. -/
def CannotWrite (env : Surroundings) (args : List String) : Prop :=
  ∃ file ∈ (run (permissive env) args).files, env.writable file.1 = false

instance CannotWrite.decidable (env : Surroundings) (args : List String) :
    Decidable (CannotWrite env args) :=
  inferInstanceAs (Decidable (∃ file ∈ (run (permissive env) args).files,
    env.writable file.1 = false))

/-- The same of a run of the program with arguments that make sense. A log level that is unknown is
noticed before anything else. -/
theorem run_outcomes (env : Surroundings) {args : List String} {a : Arguments}
    (h : Arguments.parse args = .ok a) :
    (run env args = run (permissive env) args ∧ (run env args).exitCode = 1 ∧
        (run env args).out = [] ∧ (run env args).files = []) ∨
      (run (permissive env) args).exitCode = 0 ∧
        (¬ CannotWrite env args → (run env args).exitCode = 0) ∧
        (CannotWrite env args → (run env args).exitCode = 1) := by
  simp only [CannotWrite, run, h, runArguments]
  cases logLevelOf a.logLevel with
  | error message => exact .inl ⟨rfl, rfl, rfl, rfl⟩
  | ok level =>
    rcases (staged_execute env (env.styled && !a.noColor) level a.command).outcomes
      (env.styled && !a.noColor) with hfailed | ⟨hcode', hcode, hfailed⟩
    · exact .inl hfailed
    · refine .inr ⟨hcode', fun hnone => hcode fun file hfile => ?_, hfailed⟩
      exact eq_true_of_ne_false fun hwritable => hnone ⟨file, hfile, hwritable⟩

/-- **What it means that a run cannot write**: it fails, and would succeed if every file could be
written. -/
theorem cannotWrite_iff {env : Surroundings} {args : List String} {a : Arguments}
    (h : Arguments.parse args = .ok a) :
    CannotWrite env args ↔
      (run env args).exitCode = 1 ∧ (run (permissive env) args).exitCode = 0 := by
  rcases run_outcomes env h with ⟨hsame, hcode, -, hfiles⟩ | ⟨hcode', hcode, hfailed⟩
  · rw [CannotWrite, ← hsame, hfiles, hcode]
    simp
  · refine ⟨fun hwrite => ⟨hfailed hwrite, hcode'⟩, fun ⟨hone, _⟩ => ?_⟩
    refine Decidable.byContradiction fun hwrite => ?_
    have hzero := hcode hwrite
    rw [hone] at hzero
    exact absurd hzero (by decide)

/-- **A failing run publishes nothing**, unless it fails because a file cannot be written. Nothing
is printed, and no file is written. -/
theorem failing_run_publishes_nothing {env : Surroundings} {args : List String} {a : Arguments}
    (h : Arguments.parse args = .ok a) (hfailed : (run env args).exitCode = 1)
    (hwrite : ¬ CannotWrite env args) :
    (run env args).out = [] ∧ (run env args).files = [] := by
  rcases run_outcomes env h with ⟨-, -, hout, hfiles⟩ | ⟨-, hcode, -⟩
  · exact ⟨hout, hfiles⟩
  · have hzero := hcode hwrite
    rw [hfailed] at hzero
    exact absurd hzero (by decide)

/-- One file, a unit with a marked struct whose only field has a type that nothing declares. No file
can be written. -/
def unboundSurroundings : Surroundings where
  read? path :=
    if path = "unit.json" then
      some ("\x7b\"name\":\"u\",\"items\":[\x7b\"kind\":\"struct\",\"name\":\"S\"," ++
        "\"markers\":[\"Flatten\"],\"members\":" ++
        "[\x7b\"kind\":\"field\",\"type\":\"T\",\"names\":[\"a\"]\x7d]\x7d]\x7d")
    else none
  writable _ := false
  styled := false

/-- The struct has no layout. That is found out before it matters that the output cannot be
written. -/
theorem failing_run_publishes_nothing_unbound :
    (run unboundSurroundings ["flatten", "-i", "unit.json", "-o", "flat.cs"]).exitCode = 1 ∧
      ¬ CannotWrite unboundSurroundings ["flatten", "-i", "unit.json", "-o", "flat.cs"] ∧
      (run unboundSurroundings ["flatten", "-i", "unit.json", "-o", "flat.cs"]).out = [] ∧
      (run unboundSurroundings ["flatten", "-i", "unit.json", "-o", "flat.cs"]).files = [] := by
  have hfailed :
      (run unboundSurroundings ["flatten", "-i", "unit.json", "-o", "flat.cs"]).exitCode = 1 := by
    decide +kernel
  have hwrite : ¬ CannotWrite unboundSurroundings
      ["flatten", "-i", "unit.json", "-o", "flat.cs"] := by decide +kernel
  exact ⟨hfailed, hwrite, failing_run_publishes_nothing rfl hfailed hwrite⟩

end CommandLine

end FlatLayout
