import FlatLayout.Proofs.Decoding
import FlatLayout.Decl.Json

/-!
# Units as JSON

A unit is read back from its text as it was written, in either style, with all that stands in it:
members in conditional blocks and in nested structs at any depth, strings of any characters, and
fields that were not written because they are at their defaults.

Two things limit this. A type reference may hold any name, but only dotted names are read. And a
reader of JSON gives up at some depth, while structs nest without a limit.

## Main definitions

* `SourceUnit.typeRefs` — the type references of a unit, those of its members included

## Main results

* `Member.reads_decoderWithin`, `StructDecl.fills` — members and structs at any depth
* `SourceUnit.ofJsonText_jsonText` — what is written is read
-/

namespace FlatLayout

open Json (Reads Fills)

/-! ### Type references -/

mutual

/-- The type references of a member. -/
def Member.typeRefs : Member → List TypeRef
  | .field f => [f.type]
  | .accessor a => [a.pointee]
  | .struct s => s.typeRefs
  | .enum e => e.underlying.toList
  | .conditional _ members otherwise =>
    Member.listTypeRefs members ++ Member.listTypeRefs otherwise
  | .verbatim _ => []

/-- The type references of a struct, all in its members. -/
def StructDecl.typeRefs : StructDecl → List TypeRef
  | ⟨_, _, _, _, members⟩ => Member.listTypeRefs members

/-- The type references of some members. -/
def Member.listTypeRefs : List Member → List TypeRef
  | [] => []
  | m :: ms => m.typeRefs ++ Member.listTypeRefs ms

end

/-- The type references of an item. -/
def Item.typeRefs : Item → List TypeRef
  | .struct s => s.typeRefs
  | .enum e => e.underlying.toList
  | .classDecl _ | .verbatim _ => []

/-- The type references of a unit. -/
def SourceUnit.typeRefs (u : SourceUnit) : List TypeRef := u.items.flatMap Item.typeRefs

/-- A reference that is read back from its text, as those with a dotted name are. -/
def TypeRef.Readable (t : TypeRef) : Prop := TypeRef.parse t.text = .ok t

theorem TypeRef.reads_decoder {t : TypeRef} (h : t.Readable) :
    Reads TypeRef.decoder t.toJson t := by
  refine ⟨Json.plain_text _, fun place hplace => ?_⟩
  rw [TypeRef.Readable] at h
  simp only [decoder, toJson, (Json.reads_asText t.text).read place hplace, bind, Except.bind, h]

/-! ### Leaves -/

theorem Marker.ofName?_name (m : Marker) : ofName? m.name = some m := by
  cases m <;> decide +kernel

/-- The markers with the names of some markers are those. -/
theorem Markers.ofNames_map_name (ms : List Marker) :
    ofNames (ms.map Marker.name) = .ok (ms.foldl insert none) := by
  rw [ofNames, List.foldlM_map]
  generalize none = s
  induction ms generalizing s with
  | nil => rfl
  | cons m ms ih =>
    rw [List.foldlM_cons, Marker.ofName?_name]
    exact ih (s.insert m)

theorem Markers.foldl_insert_toList (s : Markers) : s.toList.foldl insert none = s := by
  obtain ⟨flatten, union, anonymous⟩ := s
  cases flatten <;> cases union <;> cases anonymous <;> rfl

theorem Markers.ofNames_names (s : Markers) : ofNames s.names = .ok s := by
  rw [names, ofNames_map_name, foldl_insert_toList]

theorem Markers.eq_none_of_not_isEmpty (s : Markers) (h : (!s.isEmpty) = false) : s = none := by
  obtain ⟨flatten, union, anonymous⟩ := s
  simp only [isEmpty, Bool.not_eq_false', Bool.and_eq_true, Bool.not_eq_true'] at h
  obtain ⟨⟨rfl, rfl⟩, rfl⟩ := h
  rfl

theorem reads_textsDecoder (ss : List String) : Reads textsDecoder (Json.texts ss) ss :=
  Json.reads_listOf fun s _ => Json.reads_asText s

theorem reads_wordOption (n : UInt32) : Reads wordOption (Json.word n) (some n) :=
  (Json.reads_asWord n).option nofun

theorem Markers.reads_decoder (s : Markers) : Reads Markers.decoder s.toJson s := by
  have hnames := reads_textsDecoder s.names
  refine ⟨hnames.plain, fun place hplace => ?_⟩
  have hread : Json.listOf Json.asText place s.toJson = .ok s.names := hnames.read place hplace
  simp only [decoder, hread, bind, Except.bind, ofNames_names]

theorem LayoutKind.lookupName_name (k : LayoutKind) :
    Json.lookupName names k.name = .ok k := by
  cases k <;> rfl

namespace LayoutAttr

theorem fills (a : LayoutAttr) :
    Fills jsonFields a.entries ⟨.sequential, none, none⟩ a := by
  refine .of_append_nil ?_
  simp only [entries, List.append_assoc, List.cons_append]
  refine .field (Json.reads_keyword a.kind.lookupName_name) ?_
  refine .present (fun n _ => reads_wordOption n) rfl ?_
  refine .present (fun n _ => reads_wordOption n) rfl ?_
  exact .nil _

theorem reads_decoder (a : LayoutAttr) : Reads decoder a.toJson a :=
  a.fills.reads_record (by decide)

end LayoutAttr

namespace FieldDecl

theorem fills {f : FieldDecl} (htype : f.type.Readable) :
    Fills jsonFields f.entries ⟨[], .named "", [], none, none, false, false, .none⟩ f := by
  refine .of_append_nil ?_
  simp only [entries, List.append_assoc, List.cons_append, List.nil_append]
  refine .field (reads_textsDecoder _) ?_
  refine .field (TypeRef.reads_decoder htype) ?_
  refine .field (reads_textsDecoder _) ?_
  refine .present (fun n _ => reads_wordOption n) rfl ?_
  refine .present (fun n _ => reads_wordOption n) rfl ?_
  refine .flag rfl ?_
  refine .flag rfl ?_
  refine .presentIf (fun _ => f.markers.reads_decoder) f.markers.eq_none_of_not_isEmpty rfl ?_
  exact .nil _

end FieldDecl

namespace AccessorDecl

theorem fills {a : AccessorDecl} (htype : a.pointee.Readable) :
    Fills jsonFields a.entries ⟨[], "", .named "", "", "", 0⟩ a := by
  refine .field (reads_textsDecoder _) ?_
  refine .field (Json.reads_asText _) ?_
  refine .field (TypeRef.reads_decoder htype) ?_
  refine .field (Json.reads_asText _) ?_
  refine .field (Json.reads_asText _) ?_
  refine .field (Json.reads_asWord _) ?_
  exact .nil _

end AccessorDecl

namespace EnumDecl

theorem fills {e : EnumDecl} (htype : ∀ t ∈ e.underlying.toList, t.Readable) :
    Fills jsonFields e.entries ⟨[], "", none, []⟩ e := by
  have hunderlying : ∀ t ∈ e.underlying,
      Reads (Json.option TypeRef.decoder) t.toJson (some t) := fun t ht =>
    (TypeRef.reads_decoder (htype t (Option.mem_toList.2 ht))).option nofun
  refine .of_append_nil ?_
  simp only [entries, List.append_assoc, List.cons_append, List.nil_append]
  refine .field (reads_textsDecoder _) ?_
  refine .field (Json.reads_asText _) ?_
  refine .present hunderlying rfl ?_
  refine .nonempty (reads_textsDecoder _) rfl ?_
  exact .nil _

end EnumDecl

namespace ClassDecl

theorem fills (c : ClassDecl) : Fills jsonFields c.entries ⟨[], "", none, []⟩ c := by
  refine .of_append_nil ?_
  simp only [entries, List.append_assoc, List.cons_append, List.nil_append]
  refine .field (reads_textsDecoder _) ?_
  refine .field (Json.reads_asText _) ?_
  refine .present (fun s _ => (Json.reads_asText s).option nofun) rfl ?_
  refine .nonempty (reads_textsDecoder _) rfl ?_
  exact .nil _

end ClassDecl

theorem fills_verbatimFields (text : String) :
    Fills verbatimFields [("text", Json.text text)] "" text :=
  .field (Json.reads_asText text) (.nil _)

/-! ### Structs and their members -/

theorem Member.listToJson_eq_map (ms : List Member) : listToJson ms = ms.map toJson := by
  induction ms with
  | nil => rfl
  | cons m ms ih => rw [listToJson, ih, List.map_cons]

theorem Json.nesting_le_of_mem_list {vs : List Json} {n : Nat} (h : (Json.list vs).nesting ≤ n) :
    ∀ v ∈ vs, v.nesting ≤ n := by
  cases n with
  | zero => exact absurd h (Nat.not_le.2 (Json.nesting_list_pos vs))
  | succ n => exact fun v hv => Nat.le_succ_of_le (Json.nesting_list_le.1 h v hv)

theorem Member.reads_list {ms : List Member} {n : Nat}
    (h : ∀ m ∈ ms, Reads (decoderWithin n) m.toJson m) :
    Reads (Json.listOf (decoderWithin n)) (Json.list (listToJson ms)) ms := by
  rw [listToJson_eq_map]
  exact Json.reads_listOf h

theorem StructDecl.nodup_names (member : Json.Decoder Member) :
    (Json.tagKey :: (jsonFields member).map (·.name)).Nodup := by
  simp [jsonFields, Json.field, Json.tagKey]

theorem Member.Block.nodup_names (member : Json.Decoder Member) :
    (Json.tagKey :: (jsonFields member).map (·.name)).Nodup := by
  simp [jsonFields, Json.field, Json.tagKey]

theorem Member.Block.fills {b : Member.Block} {n : Nat}
    (hmembers : ∀ m ∈ b.members, Reads (decoderWithin n) m.toJson m)
    (hotherwise : ∀ m ∈ b.otherwise, Reads (decoderWithin n) m.toJson m) :
    Fills (jsonFields (decoderWithin n)) ([("symbol", Json.text b.symbol),
      ("members", Json.list (listToJson b.members))] ++
      Json.presentIf (!b.otherwise.isEmpty) "else_members" (Json.list (listToJson b.otherwise)))
      ⟨"", [], []⟩ b := by
  refine .of_append_nil ?_
  refine .field (Json.reads_asText _) ?_
  refine .field (Member.reads_list hmembers) ?_
  refine .nonempty (Member.reads_list hotherwise) rfl ?_
  exact .nil _

/-- The entries of an object with a kind nest less deep than the object. -/
theorem exists_of_nesting_ofKind_le {kind : String} {es : List (String × Json)} {n : Nat}
    (h : (ofKind kind es).nesting ≤ n) : ∃ k, n = k + 1 ∧ ∀ e ∈ es, e.2.nesting ≤ k := by
  cases n with
  | zero => exact absurd h (Nat.not_le.2 (Json.nesting_fields_pos _))
  | succ k =>
    exact ⟨k, rfl, fun e he => Json.nesting_fields_le.1 h e (List.mem_cons_of_mem _ he)⟩

mutual

/-- **Members are read back**, by recursion along the tree. Every member inside of a member nests
less deep, so the decoder of the inner ones may go less deep. -/
theorem Member.reads_decoderWithin :
    ∀ (m : Member) (n : Nat), (∀ t ∈ m.typeRefs, t.Readable) → m.toJson.nesting ≤ n →
      Reads (Member.decoderWithin n) m.toJson m
  | .field f, n, htypes, hdepth => by
    rw [Member.toJson] at hdepth ⊢
    obtain ⟨n, rfl, -⟩ := exists_of_nesting_ofKind_le hdepth
    have hfills := FieldDecl.fills (htypes f.type (by simp [Member.typeRefs]))
    exact hfills.reads_byKind (by decide) rfl (fun _ => rfl) rfl
  | .accessor a, n, htypes, hdepth => by
    rw [Member.toJson] at hdepth ⊢
    obtain ⟨n, rfl, -⟩ := exists_of_nesting_ofKind_le hdepth
    have hfills := AccessorDecl.fills (htypes a.pointee (by simp [Member.typeRefs]))
    exact hfills.reads_byKind (by decide) rfl (fun _ => rfl) rfl
  | .struct s, n, htypes, hdepth => by
    rw [Member.typeRefs] at htypes
    rw [Member.toJson] at hdepth ⊢
    obtain ⟨n, rfl, hentries⟩ := exists_of_nesting_ofKind_le hdepth
    have hfills := s.fills n htypes hentries
    exact hfills.reads_byKind (StructDecl.nodup_names _) rfl (fun _ => rfl) rfl
  | .enum e, n, htypes, hdepth => by
    rw [Member.typeRefs] at htypes
    rw [Member.toJson] at hdepth ⊢
    obtain ⟨n, rfl, -⟩ := exists_of_nesting_ofKind_le hdepth
    exact (EnumDecl.fills htypes).reads_byKind (by decide) rfl (fun _ => rfl) rfl
  | .conditional symbol members otherwise, n, htypes, hdepth => by
    rw [Member.typeRefs] at htypes
    rw [Member.toJson] at hdepth ⊢
    obtain ⟨n, rfl, hentries⟩ := exists_of_nesting_ofKind_le hdepth
    have hmembers := Member.listReads members n
      (fun t ht => htypes t (List.mem_append_left _ ht))
      (Json.nesting_le_of_mem_list
        (hentries ("members", Json.list (Member.listToJson members)) (by simp)))
    have hdeep : ∀ v ∈ Member.listToJson otherwise, v.nesting ≤ n := by
      cases hempty : otherwise.isEmpty with
      | true =>
        rw [List.isEmpty_iff.1 hempty]
        nofun
      | false =>
        exact Json.nesting_le_of_mem_list
          (hentries ("else_members", Json.list (Member.listToJson otherwise))
            (by simp [Json.presentIf, hempty]))
    have hotherwise := Member.listReads otherwise n
      (fun t ht => htypes t (List.mem_append_right _ ht)) hdeep
    have hfills : Fills _ _ _ (⟨symbol, members, otherwise⟩ : Member.Block) :=
      Member.Block.fills hmembers hotherwise
    exact hfills.reads_byKind (Member.Block.nodup_names _) rfl (fun _ => rfl) rfl
  | .verbatim text, n, htypes, hdepth => by
    rw [Member.toJson] at hdepth ⊢
    obtain ⟨n, rfl, -⟩ := exists_of_nesting_ofKind_le hdepth
    exact (fills_verbatimFields text).reads_byKind (by decide) rfl (fun _ => rfl) rfl

theorem StructDecl.fills :
    ∀ (s : StructDecl) (n : Nat), (∀ t ∈ s.typeRefs, t.Readable) →
      (∀ e ∈ s.entries, e.2.nesting ≤ n) →
      Fills (StructDecl.jsonFields (Member.decoderWithin n)) s.entries ⟨[], "", .none, none, []⟩ s
  | ⟨modifiers, name, markers, layout, members⟩, n, htypes, hdepth => by
    rw [StructDecl.typeRefs] at htypes
    have hmembers := Member.listReads members n htypes (Json.nesting_le_of_mem_list
      (hdepth ("members", Json.list (Member.listToJson members)) (by simp [StructDecl.entries])))
    simp only [StructDecl.entries, List.append_assoc, List.cons_append, List.nil_append]
    refine .field (reads_textsDecoder _) ?_
    refine .field (Json.reads_asText _) ?_
    refine .presentIf (fun _ => markers.reads_decoder) markers.eq_none_of_not_isEmpty rfl ?_
    refine .present (fun a _ => a.reads_decoder.option nofun) rfl ?_
    refine .field (Member.reads_list hmembers) ?_
    exact .nil _

theorem Member.listReads :
    ∀ (ms : List Member) (n : Nat), (∀ t ∈ Member.listTypeRefs ms, t.Readable) →
      (∀ v ∈ Member.listToJson ms, v.nesting ≤ n) →
      ∀ m ∈ ms, Reads (Member.decoderWithin n) m.toJson m
  | [], _, _, _ => nofun
  | m :: ms, n, htypes, hdepth => by
    rw [Member.listTypeRefs] at htypes
    rw [Member.listToJson] at hdepth
    have hhead := m.reads_decoderWithin n (fun t ht => htypes t (List.mem_append_left _ ht))
      (hdepth _ List.mem_cons_self)
    have htail := Member.listReads ms n (fun t ht => htypes t (List.mem_append_right _ ht))
      (fun v hv => hdepth v (List.mem_cons_of_mem _ hv))
    intro m' hm'
    rcases List.mem_cons.1 hm' with rfl | hm'
    · exact hhead
    · exact htail m' hm'

end

/-! ### Units -/

theorem Item.reads_decoder {i : Item} (htypes : ∀ t ∈ i.typeRefs, t.Readable)
    (hdepth : i.toJson.nesting ≤ Json.maxDepth) : Reads decoder i.toJson i := by
  cases i with
  | struct s =>
    obtain ⟨n, hn, hentries⟩ := exists_of_nesting_ofKind_le hdepth
    have hfills := s.fills Json.maxDepth htypes fun e he =>
      Nat.le_trans (hentries e he) (hn ▸ Nat.le_succ n)
    exact hfills.reads_byKind (StructDecl.nodup_names _) rfl (fun _ => rfl) rfl
  | enum e => exact (EnumDecl.fills htypes).reads_byKind (by decide) rfl (fun _ => rfl) rfl
  | classDecl c => exact c.fills.reads_byKind (by decide) rfl (fun _ => rfl) rfl
  | verbatim text =>
    exact (fills_verbatimFields text).reads_byKind (by decide) rfl (fun _ => rfl) rfl

namespace SourceUnit

theorem fills {u : SourceUnit} (hitems : ∀ i ∈ u.items, Reads Item.decoder i.toJson i) :
    Fills jsonFields u.entries ⟨"", none, [], []⟩ u := by
  simp only [entries, List.append_assoc, List.cons_append]
  refine .field (Json.reads_asText _) ?_
  refine .present (fun s _ => (Json.reads_asText s).option nofun) rfl ?_
  refine .nonempty (reads_textsDecoder _) rfl ?_
  refine .field (Json.reads_listOf hitems) ?_
  exact .nil _

/-- **What is written is read.** A unit comes back from its text in either style, if its type
references are ones that were read from some text, and if it does not nest deeper than a reader
goes. -/
theorem ofJsonText_jsonText (u : SourceUnit) (style : Json.Style)
    (htypes : ∀ t ∈ u.typeRefs, ∃ s, TypeRef.parse s = .ok t)
    (hdepth : u.toJson.nesting ≤ Json.maxDepth) : ofJsonText (u.jsonText style) = .ok u := by
  have hitems : ∀ i ∈ u.items, Reads Item.decoder i.toJson i := by
    intro i hi
    refine Item.reads_decoder (fun t ht => ?_) ?_
    · exact TypeRef.parse_text (TypeRef.exists_parse_iff.1
        (htypes t (List.mem_flatMap.2 ⟨i, hi, ht⟩)))
    · have hentry : ("items", Json.list (u.items.map Item.toJson)) ∈ u.entries := by
        simp [entries]
      have hlist : (Json.list (u.items.map Item.toJson)).nesting ≤ Json.maxDepth :=
        Nat.le_succ_of_le (Json.nesting_fields_le.1 hdepth _ hentry)
      exact Json.nesting_le_of_mem_list hlist _ (List.mem_map_of_mem hi)
  exact ((fills hitems).reads_record (by decide)).decodeText hdepth style

/-- A unit with a block in a nested struct, with the largest word, and with text that has to be
escaped. -/
def assortedUnit : SourceUnit :=
  let field : FieldDecl :=
    ⟨["public"], ⟨"System.Int32", 2⟩, ["a", "b"], some 0, some 0xFFFFFFFF, true, false, .none⟩
  let accessor : AccessorDecl := ⟨[], "P", .named "X", "S", "a", 4⟩
  let nested : StructDecl := ⟨[], "N", ⟨true, true, false⟩, some ⟨.explicit, some 1, none⟩,
    [.conditional "WIN" [.field field, .accessor accessor] [.verbatim "\x00\t\"\\é𝄞"]]⟩
  { SourceUnit.ofName "assorted.cs" with
    namespaceName := some "Assorted\n"
    items := [.struct ⟨["public"], "S", .none, none, [.struct nested]⟩,
      .enum ⟨[], "E", some (.named "byte"), ["A"]⟩, .classDecl ⟨[], "C", none, []⟩] }

/-- Every field that the unit lacks comes back as its default, in either style. -/
theorem ofJsonText_jsonText_assorted :
    (∀ t ∈ assortedUnit.typeRefs, ∃ s, TypeRef.parse s = .ok t) ∧
      assortedUnit.toJson.nesting = 10 ∧
      ofJsonText (assortedUnit.jsonText .compact) = .ok assortedUnit ∧
      ofJsonText (assortedUnit.jsonText .pretty) = .ok assortedUnit := by
  have hnames : ∀ t ∈ assortedUnit.typeRefs, TypeRef.isDottedName t.name.toList = true := by
    decide +kernel
  have htypes : ∀ t ∈ assortedUnit.typeRefs, ∃ s, TypeRef.parse s = .ok t :=
    fun t ht => TypeRef.exists_parse_iff.2 (hnames t ht)
  have hnesting : assortedUnit.toJson.nesting = 10 := by decide +kernel
  have hdepth : assortedUnit.toJson.nesting ≤ Json.maxDepth := by
    rw [hnesting]
    decide
  exact ⟨htypes, hnesting, ofJsonText_jsonText assortedUnit .compact htypes hdepth,
    ofJsonText_jsonText assortedUnit .pretty htypes hdepth⟩

end SourceUnit

end FlatLayout
