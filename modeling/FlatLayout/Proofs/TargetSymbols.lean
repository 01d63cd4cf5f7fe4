import FlatLayout.CommandLine.Run
import FlatLayout.Proofs.Steps
import FlatLayout.Proofs.TypeSyntax
import Mathlib.Data.List.Nodup

/-!
# Symbols and the target

The target decides twice what a struct looks like. Its symbol selects branches of conditional
blocks, and its pointers have a width. Selecting reads the symbols that are defined and never the
target, and placing reads the target and never the symbols, so that the two agree is up to the
configuration.

## Two checks

Target and symbols come from different places. The target is that of an argument, else that of the
file, else the default; the symbols of the file and those of the arguments are put together. The
file is checked when it is read, and everything once more when the arguments were applied.

The first check says nothing about what is in effect. A file for one target may define its symbol,
and is refused later if an argument asks for the other target; a file that defines the symbol of the
other target is refused at once, even if an argument would have made it right. Only the last check
sees the target and the symbols that are used, and `Config.Consistent` is what it establishes.

## Main definitions

* `Config.Consistent` — all symbols are identifiers, and none belongs to the other target
* `CommandLine.configured?` — the configuration before the arguments are applied

## Main results

* `Config.validate_eq_ok_iff` — the check accepts exactly the consistent configurations
* `Config.mem_activeDefines_iff`, `Config.nodup_activeDefines` — the symbols in effect
* `CommandLine.yields_loadConfig` — what is known of a configuration in effect
* `CommandLine.symbols_agree_with_target` — symbols and widths of a run agree
-/

namespace FlatLayout

/-! ### Targets -/

namespace Target

theorem symbol_ne_other (t : Target) : t.symbol ≠ t.other.symbol := by
  cases t <;> decide

/-- There are two targets. -/
theorem eq_or_eq_other (t t' : Target) : t' = t ∨ t' = t.other := by
  cases t <;> cases t' <;> decide

theorem pointerWidth_inj {t t' : Target} : t.pointerWidth = t'.pointerWidth ↔ t = t' := by
  cases t <;> cases t' <;> decide

theorem identifier_symbol (t : Target) : TypeRef.Identifier t.symbol.toList := by
  rw [← TypeRef.isIdentifier_iff]
  cases t <;> decide +kernel

end Target

/-! ### Symbols in effect -/

namespace Config

section

variable {ds new : List String} {d e : String}

theorem mem_addDefine : e ∈ addDefine ds d ↔ e ∈ ds ∨ e = d := by
  unfold addDefine
  split
  case isTrue h =>
    refine ⟨.inl, ?_⟩
    rintro (he | rfl)
    · exact he
    · exact List.contains_iff_mem.1 h
  case isFalse => rw [List.mem_append, List.mem_singleton]

theorem nodup_addDefine (h : ds.Nodup) : (addDefine ds d).Nodup := by
  unfold addDefine
  split
  case isTrue => exact h
  case isFalse hd =>
    refine h.append (List.nodup_singleton d) (List.disjoint_singleton.2 ?_)
    exact mt List.contains_iff_mem.2 hd

theorem mem_foldl_addDefine : e ∈ new.foldl addDefine ds ↔ e ∈ ds ∨ e ∈ new := by
  induction new generalizing ds with
  | nil => simp
  | cons d new ih => rw [List.foldl_cons, ih, mem_addDefine, List.mem_cons, or_assoc]

theorem nodup_foldl_addDefine (h : ds.Nodup) : (new.foldl addDefine ds).Nodup := by
  induction new generalizing ds with
  | nil => exact h
  | cons d new ih => exact ih (nodup_addDefine h)

end

variable {c : Config}

theorem mem_activeDefines_iff {d : String} :
    d ∈ c.activeDefines ↔ d = c.target.symbol ∨ d ∈ c.defines := by
  rw [activeDefines, mem_foldl_addDefine, List.mem_singleton]

theorem nodup_activeDefines (c : Config) : c.activeDefines.Nodup :=
  nodup_foldl_addDefine (List.nodup_singleton _)

/-! ### Consistent configurations -/

/-- All symbols are identifiers, and none belongs to the other target. -/
structure Consistent (c : Config) : Prop where
  identifiers : ∀ d ∈ c.defines, TypeRef.Identifier d.toList
  other_not_mem : c.target.other.symbol ∉ c.defines

theorem validate_eq_ok_iff : c.validate = .ok () ↔ c.Consistent := by
  unfold validate
  split
  case h_1 d hfind =>
    obtain ⟨hd, -⟩ := List.find?_eq_some_iff_append.1 hfind
    refine iff_of_false nofun fun h => ?_
    rw [TypeRef.isIdentifier_iff.2 (h.identifiers d (List.mem_of_find?_eq_some hfind))] at hd
    cases hd
  case h_2 hfind =>
    have hall : ∀ d ∈ c.defines, TypeRef.Identifier d.toList := by
      intro d hd
      have hnot := List.find?_eq_none.1 hfind d hd
      rw [Bool.not_eq_true', Bool.not_eq_false] at hnot
      exact TypeRef.isIdentifier_iff.1 hnot
    split
    case isTrue hother =>
      exact iff_of_false nofun fun h => h.other_not_mem (List.contains_iff_mem.1 hother)
    case isFalse hother =>
      exact iff_of_true rfl ⟨hall, mt List.contains_iff_mem.2 hother⟩

namespace Consistent

variable (h : c.Consistent)

include h

theorem identifier_of_mem {d : String} (hd : d ∈ c.activeDefines) :
    TypeRef.Identifier d.toList := by
  rcases mem_activeDefines_iff.1 hd with rfl | hd
  · exact c.target.identifier_symbol
  · exact h.identifiers d hd

/-- The symbol of a target is defined exactly if this is what is laid out for. -/
theorem symbol_mem_iff (t : Target) : t.symbol ∈ c.activeDefines ↔ t = c.target := by
  rw [mem_activeDefines_iff]
  refine ⟨fun hmem => ?_, fun ht => .inl (congrArg Target.symbol ht)⟩
  rcases c.target.eq_or_eq_other t with ht | rfl
  · exact ht
  · exact absurd hmem (not_or.2 ⟨c.target.symbol_ne_other.symm, h.other_not_mem⟩)

theorem symbol_mem_iff_pointerWidth (t : Target) :
    t.symbol ∈ c.activeDefines ↔ c.options.pointerWidth = t.pointerWidth := by
  rw [h.symbol_mem_iff, options, Target.pointerWidth_inj, eq_comm]

/-- Of a block for the symbol of a target the first branch is selected exactly if pointers have the
width of that target. -/
theorem select_block (t : Target) (ms otherwise : List Member) :
    (Member.conditional t.symbol ms otherwise).select c.activeDefines =
      Member.selectAll c.activeDefines
        (if c.options.pointerWidth = t.pointerWidth then ms else otherwise) := by
  rw [Member.select, List.contains_eq_mem]
  simp only [h.symbol_mem_iff_pointerWidth, decide_eq_true_eq]
  split <;> rfl

end Consistent

end Config

/-! ### Reading the configuration -/

namespace CommandLine

/-- The configuration before the arguments are applied: that of the file if one is named, and else
the default. There is none if the file cannot be read. -/
def configured? (s : Setup) (source : SourceArgs) : Option Config :=
  match source.config with
  | none => some .default
  | some path => (s.surroundings.read? path).bind fun text => (Config.ofJsonText text).toOption

section

variable {s : Setup} {source : SourceArgs} {I : Transcript → Prop}

theorem yields_load {α : Type} (context path : String)
    (decode : String → Except Json.DecodeError α) :
    Yields I (load s context path decode) fun a =>
      ∃ text, s.surroundings.read? path = some text ∧ decode text = .ok a := by
  unfold load
  split
  case h_1 => exact .throw _
  case h_2 text htext =>
    split
    case h_1 a ha => exact .pure ⟨text, htext, ha⟩
    case h_2 => exact .throw _

theorem yields_checkConfig (context : List String) (c : Config) :
    Yields I (checkConfig context c) fun _ => c.Consistent := by
  unfold checkConfig
  split
  case h_1 hvalid => exact .pure (Config.validate_eq_ok_iff.1 hvalid)
  case h_2 => exact .throw _

/-- Nothing is asked of a transcript. -/
theorem keeps_true {α : Type} (steps : Steps α) : Keeps (fun _ => True) steps :=
  fun _ _ => trivial

theorem yields_configFile :
    Yields (fun _ => True) (configFile s source) fun c => configured? s source = some c := by
  unfold configFile
  split
  case h_1 hnone => exact .pure (by rw [configured?, hnone])
  case h_2 path hpath =>
    refine .bind (keeps_true _) (yields_load _ path _) fun c hc => ?_
    obtain ⟨text, htext, hdecode⟩ := hc
    refine .bind (keeps_true _) (.any _) fun _ _ => .pure ?_
    rw [configured?, hpath]
    dsimp only
    rw [htext, Option.bind_some, hdecode]
    rfl

/-- A configuration in effect comes from a file or the default by applying the arguments, and it is
consistent. -/
theorem yields_loadConfig :
    Yields (fun _ => True) (loadConfig s source) fun c =>
      c.Consistent ∧ ∃ file, configured? s source = some file ∧ c = applyArgs file source :=
  .bind (keeps_true _) yields_configFile fun file hfile =>
    .bind (keeps_true _) (yields_checkConfig [] _) fun _ hconsistent =>
      .bind (keeps_true _) (.any _) fun _ _ => .pure ⟨hconsistent, file, hfile, rfl⟩

end

/-- **Symbols and the target agree.** For every configuration in effect, wherever its target and its
symbols come from, the symbols that are defined are that of the target, those of the file and those
of the arguments. None is there twice, and each is an identifier. Of the symbols of the two targets
exactly one is defined, and it is the one whose target has pointers of the width that is used for
placing. So in a project under this configuration, whatever its output format is, of a block for
either symbol the branch is selected that is right for the width. -/
theorem symbols_agree_with_target {s : Setup} {source : SourceArgs} {t : Transcript} {c : Config}
    (h : outcome (loadConfig s source) t = .ok c) :
    (∃ file, configured? s source = some file ∧ c.target = source.target.getD file.target ∧
      ∀ d, d ∈ c.activeDefines ↔
        d = c.target.symbol ∨ d ∈ file.defines ∨ d ∈ source.defines) ∧
    c.activeDefines.Nodup ∧
    (∀ d ∈ c.activeDefines, TypeRef.Identifier d.toList) ∧
    ("X86" ∈ c.activeDefines ↔ c.options.pointerWidth = 4) ∧
    ("X64" ∈ c.activeDefines ↔ c.options.pointerWidth = 8) ∧
    ("X86" ∈ c.activeDefines ↔ "X64" ∉ c.activeDefines) ∧
    ∀ (format : OutputFormat) (units : SourceUnit × List SourceUnit) (p : Project),
      p = projectOf { c with outputFormat := format } units → ∀ ms otherwise,
        (Member.conditional "X86" ms otherwise).select p.defines =
          Member.selectAll p.defines (if p.options.pointerWidth = 4 then ms else otherwise) ∧
        (Member.conditional "X64" ms otherwise).select p.defines =
          Member.selectAll p.defines (if p.options.pointerWidth = 8 then ms else otherwise) := by
  obtain ⟨hconsistent, file, hfile, hc⟩ := yields_loadConfig t trivial c h
  refine ⟨⟨file, hfile, by rw [hc, applyArgs], fun d => ?_⟩, c.nodup_activeDefines,
    fun _ => hconsistent.identifier_of_mem, hconsistent.symbol_mem_iff_pointerWidth .x86,
    hconsistent.symbol_mem_iff_pointerWidth .x64, ?_, ?_⟩
  · rw [Config.mem_activeDefines_iff]
    refine or_congr_right ?_
    rw [hc, applyArgs, List.mem_append]
  · have hx86 : "X86" ∈ c.activeDefines ↔ .x86 = c.target := hconsistent.symbol_mem_iff .x86
    have hx64 : "X64" ∈ c.activeDefines ↔ .x64 = c.target := hconsistent.symbol_mem_iff .x64
    rw [hx86, hx64]
    cases c.target <;> decide
  · rintro format units p rfl ms otherwise
    exact ⟨hconsistent.select_block .x86 ms otherwise, hconsistent.select_block .x64 ms otherwise⟩

/-- A run that finds a configuration for `x86` in a file, with a symbol besides. -/
def x86Setup : Setup where
  surroundings :=
    { read? := fun path =>
        if path = "flatten.json" then
          some "\x7b\"target\": \"x86\", \"defines\": [\"DEBUG\"]\x7d"
        else none
      writable := fun _ => true
      styled := false }
  styled := false
  level := some .debug

/-- Arguments that name this file, and a target and symbols of their own. -/
def overriding (target : Target) (defines : List String) : SourceArgs :=
  ⟨"unit.json", [], some "flatten.json", some target, defines, true, false⟩

/-- What is in effect then. -/
def overriddenConfig : Config := ⟨.x64, false, true, ["DEBUG", "X64", "DEBUG", "_T"], .source, true⟩

/-- The file is for the target that is not laid out for, and the symbols come from both sides, two
of them twice. -/
theorem symbols_agree_with_target_overridden :
    outcome (loadConfig x86Setup (overriding .x64 ["X64", "DEBUG", "_T"])) Transcript.start =
        .ok overriddenConfig ∧
      overriddenConfig.activeDefines = ["X64", "DEBUG", "_T"] ∧
      overriddenConfig.activeDefines.Nodup ∧ TypeRef.Identifier "_T".toList ∧
      overriddenConfig.options.pointerWidth = 8 ∧ "X86" ∉ overriddenConfig.activeDefines := by
  have hload : outcome (loadConfig x86Setup (overriding .x64 ["X64", "DEBUG", "_T"]))
      Transcript.start = .ok overriddenConfig := by decide +kernel
  obtain ⟨-, hnodup, hidentifiers, hx86, hx64, -⟩ := symbols_agree_with_target hload
  exact ⟨hload, by decide +kernel, hnodup, hidentifiers "_T" (by decide +kernel),
    hx64.1 (by decide +kernel), mt hx86.1 (by decide +kernel)⟩

/-- A file may define the symbol of its own target, but only while this stays the target. -/
example : outcome (loadConfig x86Setup (overriding .x64 ["X86"])) Transcript.start =
    .error "Invalid configuration: X86 is defined while targeting x64" := by
  decide +kernel

end CommandLine

end FlatLayout
