import FlatLayout.Proofs.WrittenJson
import FlatLayout.Json.Decode

/-!
# Decoders on what is written

What a decoder makes of the values that the program writes. A value is read where it stands in the
text, as long as it nests no deeper than the limit allows there, and just so when it is buffered.

A record is written as entries in the order of its fields, with some of them left out. Reading it is
followed field by field (`Fills`): every entry sets its field, a field without an entry must be one
that may be absent, and the names of the fields keep the entries apart.

## Main definitions

* `Json.nesting` — how deep arrays and objects nest
* `Json.Place.Admits` — the values that may stand at a place
* `Json.Reads` — a decoder that reads what is written, wherever it may stand
* `Json.Fills` — entries that lead from one state of a record to another

## Main results

* `Json.sound_of_plain` — what is written can be kept for later
* `Json.Fills.reads_record` — a record is read from entries that fill it
* `Json.Fills.reads_tagged` — the kind of an object is read, and the other entries are left
* `Json.Reads.decodeText` — whole texts are decoded
-/

namespace FlatLayout.Json

/-! ### Nesting -/

mutual

/-- How deep arrays and objects nest in a value. -/
def nesting : Json → Nat
  | .array items => items.nesting + 1
  | .object entries => entries.nesting + 1
  | _ => 0

/-- How deep arrays and objects nest in the items of an array. -/
def Items.nesting : Items → Nat
  | .item v rest => max v.nesting rest.nesting
  | _ => 0

/-- How deep arrays and objects nest in the entries of an object. -/
def Entries.nesting : Entries → Nat
  | .entry _ v rest => max v.nesting rest.nesting
  | _ => 0

end

theorem meaningful_ofNat {n : Nat} (h : n < Numeral.wordLimit) : meaningful (.ofNat n) = true := by
  rw [meaningful, Numeral.value_ofNat h]

mutual

/-- **What is written can be kept**, as far as it does not nest too deep. -/
theorem sound_of_plain :
    ∀ (v : Json) {depth : Nat}, v.Plain → v.nesting ≤ depth → v.sound depth = true
  | .null, _, _, _ => by rw [sound]
  | .bool _, _, _, _ => by rw [sound]
  | .number n, _, h, _ => by
    rw [Plain] at h
    obtain ⟨k, hk, rfl⟩ := h
    rw [sound, meaningful_ofNat hk]
  | .string s, _, h, _ => by
    rw [Plain] at h
    rw [sound, h]
  | .array items, depth, h, hdepth => by
    rw [Plain] at h
    rw [nesting] at hdepth
    rw [sound, Items.sound_of_plain items h (by omega), Bool.and_true, decide_eq_true_eq]
    omega
  | .object entries, depth, h, hdepth => by
    rw [Plain] at h
    rw [nesting] at hdepth
    rw [sound, Entries.sound_of_plain entries h (by omega), Bool.and_true, decide_eq_true_eq]
    omega
  | .broken, _, h, _ => by
    rw [Plain] at h
    cases h

theorem Items.sound_of_plain :
    ∀ (items : Items) {depth : Nat}, items.Plain → items.nesting ≤ depth →
      items.sound depth = true
  | .closed, _, _, _ => by rw [Items.sound]
  | .item v items, depth, h, hdepth => by
    rw [Items.Plain] at h
    rw [Items.nesting, Nat.max_le] at hdepth
    rw [Items.sound, Json.sound_of_plain v h.1 hdepth.1, items.sound_of_plain h.2 hdepth.2,
      Bool.and_true]
  | .broken, _, h, _ => by
    rw [Items.Plain] at h
    cases h

theorem Entries.sound_of_plain :
    ∀ (entries : Entries) {depth : Nat}, entries.Plain → entries.nesting ≤ depth →
      entries.sound depth = true
  | .closed, _, _, _ => by rw [Entries.sound]
  | .entry key v entries, depth, h, hdepth => by
    rw [Entries.Plain] at h
    rw [Entries.nesting, Nat.max_le] at hdepth
    rw [Entries.sound, h.1, Json.sound_of_plain v h.2.1 hdepth.1,
      entries.sound_of_plain h.2.2 hdepth.2, Bool.and_true, Bool.and_true]
  | .broken, _, h, _ => by
    rw [Entries.Plain] at h
    cases h

end

/-! ### Lists and objects -/

theorem Items.plain_ofList {vs : List Json} :
    (Items.ofList vs).Plain ↔ ∀ v ∈ vs, v.Plain := by
  induction vs with
  | nil => simp [Items.ofList, Items.Plain]
  | cons v vs ih => simp [Items.ofList, Items.Plain, ih]

theorem Entries.plain_ofList {es : List (String × Json)} :
    (Entries.ofList es).Plain ↔ ∀ e ∈ es, e.2.Plain := by
  induction es with
  | nil => simp [Entries.ofList, Entries.Plain]
  | cons e es ih => simp [Entries.ofList, Entries.Plain, ih]

theorem Items.nesting_ofList_le {vs : List Json} {n : Nat} :
    (Items.ofList vs).nesting ≤ n ↔ ∀ v ∈ vs, v.nesting ≤ n := by
  induction vs with
  | nil => simp [Items.ofList, Items.nesting]
  | cons v vs ih => simp [Items.ofList, Items.nesting, ih]

theorem Entries.nesting_ofList_le {es : List (String × Json)} {n : Nat} :
    (Entries.ofList es).nesting ≤ n ↔ ∀ e ∈ es, e.2.nesting ≤ n := by
  induction es with
  | nil => simp [Entries.ofList, Entries.nesting]
  | cons e es ih => simp [Entries.ofList, Entries.nesting, ih]

theorem plain_text (s : String) : (text s).Plain := by
  rw [text, Plain, Option.isSome_some]

theorem plain_word (n : UInt32) : (word n).Plain := by
  have hlimit : n.toNat < Numeral.wordLimit := Nat.lt_trans n.toNat_lt (by decide)
  rw [word, nat, Plain]
  exact ⟨n.toNat, hlimit, rfl⟩

theorem plain_bool (b : Bool) : (Json.bool b).Plain := by
  rw [Plain]
  trivial

theorem plain_list {vs : List Json} : (list vs).Plain ↔ ∀ v ∈ vs, v.Plain := by
  rw [list, Plain, Items.plain_ofList]

theorem plain_fields {es : List (String × Json)} :
    (fields es).Plain ↔ ∀ e ∈ es, e.2.Plain := by
  rw [fields, Plain, Entries.plain_ofList]

theorem nesting_list_le {vs : List Json} {n : Nat} :
    (list vs).nesting ≤ n + 1 ↔ ∀ v ∈ vs, v.nesting ≤ n := by
  rw [list, nesting, Nat.add_le_add_iff_right, Items.nesting_ofList_le]

theorem nesting_fields_le {es : List (String × Json)} {n : Nat} :
    (fields es).nesting ≤ n + 1 ↔ ∀ e ∈ es, e.2.nesting ≤ n := by
  rw [fields, nesting, Nat.add_le_add_iff_right, Entries.nesting_ofList_le]

theorem nesting_list_pos (vs : List Json) : 0 < (list vs).nesting := by
  rw [list, nesting]
  omega

theorem nesting_fields_pos (es : List (String × Json)) : 0 < (fields es).nesting := by
  rw [fields, nesting]
  omega

/-! ### Places -/

/-- A value that may stand at a place: in the text one that nests no deeper than the place allows,
and any value among those that were buffered. -/
def Place.Admits : Place → Json → Prop
  | .text levels, v => v.nesting ≤ levels
  | .buffered, _ => True

/-- An array that may stand at a place is entered, and its items may stand inside. -/
theorem Place.Admits.enter_list {place : Place} {vs : List Json} (h : place.Admits (list vs)) :
    ∃ inside, place.enter = .ok inside ∧ ∀ v ∈ vs, inside.Admits v := by
  match place, h with
  | .text 0, h => exact absurd h (Nat.not_le.2 (nesting_list_pos vs))
  | .text (levels + 1), h => exact ⟨.text levels, rfl, nesting_list_le.1 h⟩
  | .buffered, _ => exact ⟨.buffered, rfl, fun _ _ => trivial⟩

/-- The same of an object. -/
theorem Place.Admits.enter_fields {place : Place} {es : List (String × Json)}
    (h : place.Admits (fields es)) :
    ∃ inside, place.enter = .ok inside ∧ ∀ e ∈ es, inside.Admits e.2 := by
  match place, h with
  | .text 0, h => exact absurd h (Nat.not_le.2 (nesting_fields_pos es))
  | .text (levels + 1), h => exact ⟨.text levels, rfl, nesting_fields_le.1 h⟩
  | .buffered, _ => exact ⟨.buffered, rfl, fun _ _ => trivial⟩

theorem Place.Admits.keeps {place : Place} {v : Json} (h : place.Admits v) (hplain : v.Plain) :
    place.keeps v = true := by
  match place, h with
  | .text levels, h => exact sound_of_plain v hplain h
  | .buffered, _ => rfl

/-- A value that is written, and that a decoder reads wherever it may stand. -/
structure Reads {α : Type} (d : Decoder α) (v : Json) (a : α) : Prop where
  plain : v.Plain
  read : ∀ place : Place, place.Admits v → d place v = .ok a

theorem Reads.buffered {α : Type} {d : Decoder α} {v : Json} {a : α} (h : Reads d v a) :
    d .buffered v = .ok a := h.read .buffered trivial

/-! ### Scalars and lists -/

theorem reads_asText (s : String) : Reads asText (text s) s := ⟨plain_text s, fun _ _ => rfl⟩

theorem reads_asBool (b : Bool) : Reads asBool (.bool b) b := ⟨plain_bool b, fun _ _ => rfl⟩

theorem reads_asWord (n : UInt32) : Reads asWord (word n) n := by
  refine ⟨plain_word n, fun place _ => ?_⟩
  have hlimit : n.toNat < Numeral.wordLimit := Nat.lt_trans n.toNat_lt (by decide)
  have hword : n.toNat < UInt32.size := n.toNat_lt
  simp [asWord, word, nat, Numeral.value_ofNat hlimit, hword]

section

variable {α : Type} {d : Decoder α}

theorem Reads.option {v : Json} {a : α} (h : Reads d v a) (hv : v ≠ .null) :
    Reads (Json.option d) v (some a) := by
  refine ⟨h.plain, fun place hplace => ?_⟩
  unfold Json.option
  split
  · exact absurd rfl hv
  · rw [h.read place hplace, Except.map]

theorem decodeItems_map {write : α → Json} {place : Place} {as : List α}
    (h : ∀ a ∈ as, d place (write a) = .ok a) :
    decodeItems d place (.ofList (as.map write)) = .ok as := by
  induction as with
  | nil => rfl
  | cons a as ih =>
    have hhead := h a List.mem_cons_self
    have htail := ih fun b hb => h b (List.mem_cons_of_mem _ hb)
    rw [List.map_cons, Items.ofList, decodeItems, hhead]
    simp only [bind, Except.bind, htail]

/-- A list is read if its items are. -/
theorem reads_listOf {write : α → Json} {as : List α} (h : ∀ a ∈ as, Reads d (write a) a) :
    Reads (listOf d) (list (as.map write)) as := by
  refine ⟨plain_list.2 fun v hv => ?_, fun place hplace => ?_⟩
  · obtain ⟨a, ha, rfl⟩ := List.mem_map.1 hv
    exact (h a ha).plain
  · obtain ⟨inside, henter, hitems⟩ := hplace.enter_list
    have hread : decodeItems d inside (.ofList (as.map write)) = .ok as :=
      decodeItems_map fun a ha => (h a ha).read inside (hitems _ (List.mem_map_of_mem ha))
    simp only [list, listOf, henter, bind, Except.bind, hread]

end

theorem reads_keyword {τ : Type} {names : List (String × τ)} {name : String} {t : τ}
    (h : lookupName names name = .ok t) : Reads (keyword names) (text name) t :=
  ⟨plain_text name, fun place _ => by cases place <;> exact h⟩

/-! ### Records -/

section Record

variable {ρ : Type}

/-- The entries that some fields are written as, in the order of the fields. They lead from one
state of the record to another. A field may have no entry if it may be absent. -/
inductive Fills : List (RecordField ρ) → List (String × Json) → ρ → ρ → Prop
  | nil (r : ρ) : Fills [] [] r r
  | skip {f : RecordField ρ} {fs : List (RecordField ρ)} {es : List (String × Json)} {r r' : ρ}
    (habsent : f.presence ≠ .required) (rest : Fills fs es r r') : Fills (f :: fs) es r r'
  | read {f : RecordField ρ} {fs : List (RecordField ρ)} {es : List (String × Json)} {r s r' : ρ}
    {v : Json} (hplain : v.Plain)
    (hread : ∀ place : Place, place.Admits v → f.read place v r = .ok s)
    (rest : Fills fs es s r') : Fills (f :: fs) ((f.name, v) :: es) r r'

variable {fs : List (RecordField ρ)} {es : List (String × Json)} {r r' : ρ}

/-- Every entry is named after a field. -/
theorem Fills.name_mem (h : Fills fs es r r') {e : String × Json} (he : e ∈ es) :
    e.1 ∈ fs.map (·.name) := by
  induction h with
  | nil => cases he
  | skip _ _ ih => exact List.mem_cons_of_mem _ (ih he)
  | read _ _ _ ih =>
    rcases List.mem_cons.1 he with rfl | he
    · exact List.mem_cons_self
    · exact List.mem_cons_of_mem _ (ih he)

/-- Every entry has a value that is written. -/
theorem Fills.plain (h : Fills fs es r r') {e : String × Json} (he : e ∈ es) : e.2.Plain := by
  induction h with
  | nil => cases he
  | skip _ _ ih => exact ih he
  | read hplain _ _ ih =>
    rcases List.mem_cons.1 he with rfl | he
    · exact hplain
    · exact ih he

/-- A field is found by its name where no other field has it. -/
theorem find?_name_of_mem {all : List (RecordField ρ)} (hnames : (all.map (·.name)).Nodup)
    {f : RecordField ρ} (hf : f ∈ all) : all.find? (fun g => g.name == f.name) = some f := by
  induction all with
  | nil => cases hf
  | cons g all ih =>
    rw [List.map_cons, List.nodup_cons] at hnames
    rcases List.mem_cons.1 hf with rfl | hf
    · exact List.find?_cons_of_pos (beq_self_eq_true _)
    · have hname : g.name ≠ f.name := fun heq => hnames.1 (heq ▸ List.mem_map_of_mem hf)
      rw [List.find?_cons_of_neg (by simpa using hname), ih hnames.2 hf]

/-- Entries are read one by one. What is known of the fields to come is that none of their names has
been seen; at the end those of the required ones have. -/
theorem Fills.recordEntries (h : Fills fs es r r') {all : List (RecordField ρ)}
    {place : Place} (seen : List String) (hnames : (fs.map (·.name)).Nodup)
    (hfind : ∀ f ∈ fs, all.find? (fun g => g.name == f.name) = some f)
    (hseen : ∀ f ∈ fs, f.name ∉ seen) (hplace : ∀ e ∈ es, place.Admits e.2) :
    ∃ seen', recordEntries all place (.ofList es) seen r = .ok (seen', r') ∧
      (∀ name ∈ seen, name ∈ seen') ∧
      ∀ f ∈ fs, f.presence = .required → f.name ∈ seen' := by
  induction h generalizing seen with
  | nil r => exact ⟨seen, rfl, fun _ => id, nofun⟩
  | @skip f fs es r r' habsent _ ih =>
    obtain ⟨seen', hread, hkept, hrequired⟩ := ih seen (List.nodup_cons.1 hnames).2
      (fun g hg => hfind g (List.mem_cons_of_mem _ hg))
      (fun g hg => hseen g (List.mem_cons_of_mem _ hg)) hplace
    refine ⟨seen', hread, hkept, fun g hg hg' => ?_⟩
    rcases List.mem_cons.1 hg with rfl | hg
    · exact absurd hg' habsent
    · exact hrequired g hg hg'
  | @read f fs es r s r' v _ hread _ ih =>
    rw [List.map_cons, List.nodup_cons] at hnames
    have hcontains : seen.contains f.name = false := by
      rw [List.contains_eq_mem, decide_eq_false_iff_not]
      exact hseen f List.mem_cons_self
    have hvalue := hread place (hplace _ List.mem_cons_self)
    have hlater : ∀ g ∈ fs, g.name ∉ f.name :: seen := by
      intro g hg hmem
      rcases List.mem_cons.1 hmem with heq | hmem
      · exact hnames.1 (heq ▸ List.mem_map_of_mem hg)
      · exact hseen g (List.mem_cons_of_mem _ hg) hmem
    obtain ⟨seen', hrest, hkept, hrequired⟩ := ih (f.name :: seen) hnames.2
      (fun g hg => hfind g (List.mem_cons_of_mem _ hg)) hlater
      (fun e he => hplace e (List.mem_cons_of_mem _ he))
    refine ⟨seen', ?_, fun name hname => hkept name (List.mem_cons_of_mem _ hname),
      fun g hg hg' => ?_⟩
    · rw [Entries.ofList, Json.recordEntries, hfind f List.mem_cons_self]
      simp only [hcontains, Bool.false_eq_true, if_false, hvalue, bind, Except.bind, hrest]
    · rcases List.mem_cons.1 hg with rfl | hg
      · exact hkept _ List.mem_cons_self
      · exact hrequired g hg hg'

/-- **A record is read** from entries that fill it. -/
theorem Fills.reads_record (h : Fills fs es r r') (hnames : (fs.map (·.name)).Nodup) :
    Reads (record fs r) (fields es) r' := by
  refine ⟨plain_fields.2 fun e => h.plain, fun place hplace => ?_⟩
  obtain ⟨inside, henter, hentries⟩ := hplace.enter_fields
  obtain ⟨seen, hread, -, hrequired⟩ := h.recordEntries [] hnames
    (fun f hf => find?_name_of_mem hnames hf) (fun _ _ => List.not_mem_nil) hentries
  have hmissing : fs.find? (fun f => f.presence == .required && !seen.contains f.name) = none := by
    rw [List.find?_eq_none]
    intro f hf hmissing
    simp only [Bool.and_eq_true, beq_iff_eq, Bool.not_eq_true', List.contains_eq_mem,
      decide_eq_false_iff_not] at hmissing
    exact hmissing.2 (hrequired f hf hmissing.1)
  simp only [fields, record, henter, bind, Except.bind, hread, hmissing]

variable {α : Type} {name : String} {presence : Presence} {d : Decoder α} {set : α → ρ → ρ}

/-- A field that is always written. -/
theorem Fills.field {v : Json} {a : α} (hread : Reads d v a)
    (rest : Fills fs es (set a r) r') :
    Fills (field name presence d set :: fs) ((name, v) :: es) r r' :=
  .read (f := Json.field name presence d set) hread.plain
    (fun place hplace => congrArg (Except.map fun a => set a r) (hread.read place hplace)) rest

/-- A field that is written only under a condition. Otherwise it has a value that the record has
already. -/
theorem Fills.presentIf {condition : Bool} {v : Json} {a blank : α}
    (hread : condition = true → Reads d v a) (habsent : condition = false → a = blank)
    (hblank : set blank r = r) (rest : Fills fs es (set a r) r') :
    Fills (Json.field name .defaulted d set :: fs)
      (Json.presentIf condition name v ++ es) r r' := by
  cases condition with
  | true => exact .field (hread rfl) rest
  | false =>
    rw [habsent rfl, hblank] at rest
    exact .skip nofun rest

/-- A flag that is written if it is set. -/
theorem Fills.flag {b : Bool} {set : Bool → ρ → ρ} (hblank : set false r = r)
    (rest : Fills fs es (set b r) r') :
    Fills (Json.field name .defaulted asBool set :: fs)
      (Json.presentIf b name (.bool true) ++ es) r r' :=
  .presentIf (fun hb => hb ▸ reads_asBool true) id hblank rest

/-- A list that is written if there is something in it. -/
theorem Fills.nonempty {β : Type} {d : Decoder (List β)} {set : List β → ρ → ρ} {v : Json}
    {bs : List β} (hread : Reads d v bs) (hblank : set [] r = r)
    (rest : Fills fs es (set bs r) r') :
    Fills (Json.field name .defaulted d set :: fs)
      (Json.presentIf (!bs.isEmpty) name v ++ es) r r' :=
  .presentIf (fun _ => hread) (fun hempty => by simpa using hempty) hblank rest

/-- A field that is written if it has a value. Otherwise the record has none already. -/
theorem Fills.present {β : Type} {d : Decoder (Option β)} {set : Option β → ρ → ρ}
    {write : β → Json} {o : Option β} (hread : ∀ b ∈ o, Reads d (write b) (some b))
    (hblank : set none r = r) (rest : Fills fs es (set o r) r') :
    Fills (Json.field name .defaulted d set :: fs) (Json.present name write o ++ es) r r' := by
  cases o with
  | none =>
    rw [hblank] at rest
    exact .skip nofun rest
  | some b => exact .field (hread b rfl) rest

theorem Fills.of_append_nil (h : Fills fs (es ++ []) r r') : Fills fs es r r' := by
  rwa [List.append_nil] at h

end Record

/-! ### Tags -/

section Tags

variable {τ : Type} {names : List (String × τ)} {es : List (String × Json)}

/-- Entries that are no tag are kept. -/
theorem tagEntries_ofList {place : Place} (tag : Option τ) (hkeys : ∀ e ∈ es, e.1 ≠ tagKey)
    (hkeeps : ∀ e ∈ es, place.keeps e.2 = true) :
    tagEntries names place (.ofList es) tag = .ok (tag, .ofList es) := by
  induction es with
  | nil => rfl
  | cons e es ih =>
    obtain ⟨key, v⟩ := e
    have hkey : key ≠ tagKey := hkeys _ List.mem_cons_self
    have hvalue : place.keeps v = true := hkeeps _ List.mem_cons_self
    have hrest := ih (fun e he => hkeys e (List.mem_cons_of_mem _ he))
      (fun e he => hkeeps e (List.mem_cons_of_mem _ he))
    rw [Entries.ofList, tagEntries.eq_def]
    simp only [hkey, if_false, hvalue, if_true, hrest, bind, Except.bind]

/-- **The kind of an object is read** if no field of its content is named like the kind. -/
theorem Fills.reads_tagged {ρ : Type} {fs : List (RecordField ρ)} {r r' : ρ} {kind : String} {t : τ}
    (h : Fills fs es r r') (htag : tagKey ∉ fs.map (·.name))
    (hkind : lookupName names kind = .ok t) :
    Reads (tagged names) (fields ((tagKey, text kind) :: es)) (t, fields es) := by
  refine ⟨plain_fields.2 fun e he => ?_, fun place hplace => ?_⟩
  · rcases List.mem_cons.1 he with rfl | he
    · exact plain_text kind
    · exact h.plain he
  · obtain ⟨inside, henter, hentries⟩ := hplace.enter_fields
    have hkeys : ∀ e ∈ es, e.1 ≠ tagKey := fun e he heq => htag (heq ▸ h.name_mem he)
    have hrest : tagEntries names inside (.ofList es) (some t) = .ok (some t, .ofList es) :=
      tagEntries_ofList (some t) hkeys fun e he =>
        (hentries e (List.mem_cons_of_mem _ he)).keeps (h.plain he)
    have hvalue : tagValue names inside (text kind) = .ok t := by
      cases inside <;> exact hkind
    simp only [fields, Entries.ofList, tagged, henter, bind, Except.bind, tagEntries, if_true,
      hvalue, hrest]

/-- **A value is read by its kind** if the decoder goes on with a record that the other entries
fill. -/
theorem Fills.reads_byKind {ρ β : Type} {fs : List (RecordField ρ)} {r r' : ρ} {kind : String}
    {t : τ} {k : τ × Json → Except DecodeError β} {g : ρ → β} {b : β} (h : Fills fs es r r')
    (hnames : (tagKey :: fs.map (·.name)).Nodup) (hkind : lookupName names kind = .ok t)
    (hnext : ∀ content, k (t, content) = (record fs r .buffered content).map g)
    (hb : g r' = b) :
    Reads (fun place v => tagged names place v >>= k) (fields ((tagKey, text kind) :: es)) b := by
  obtain ⟨htag, hnodup⟩ := List.nodup_cons.1 hnames
  have htagged : Reads (tagged names) (fields ((tagKey, text kind) :: es)) (t, fields es) :=
    h.reads_tagged htag hkind
  refine ⟨htagged.plain, fun place hplace => ?_⟩
  simp only [htagged.read place hplace, bind, Except.bind, hnext,
    (h.reads_record hnodup).buffered, Except.map, hb]

end Tags

/-! ### Whole texts -/

/-- **A text is decoded** if it is that of a value which the decoder reads and which does not nest
too deep. -/
theorem Reads.decodeText {α : Type} {d : Decoder α} {v : Json} {a : α} (h : Reads d v a)
    (hdepth : v.nesting ≤ maxDepth) (style : Style) : decodeText d (v.write style) = .ok a := by
  simp only [Json.decodeText, read_write style h.plain, decode, h.read .start hdepth, bind,
    Except.bind, if_true]

end FlatLayout.Json
