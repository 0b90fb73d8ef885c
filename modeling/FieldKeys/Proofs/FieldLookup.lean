import FieldKeys.Proofs.DistinctKeys
import FieldKeys.Proofs.StyleChoice
import Mathlib.Tactic.Choose

/-! From the text of an item to look-ups by field name in the code that is generated for it. -/

namespace FieldKeys

theorem Item.kept_split {i : Item} {before after : List Field} {f : Field}
    (h : i.fields = before ++ f :: after) (hf : ¬ f.Ignored) :
    i.kept = (before.filter fun g => ¬ g.Ignored) ++ f :: (after.filter fun g => ¬ g.Ignored) := by
  rw [kept, h, List.filter_append, List.filter_cons_of_pos (by simpa using hf)]

theorem Item.kept_nodup {i : Item} (hn : (i.fields.map fun f => unescape f.name).Nodup) :
    (i.kept.map fun f => unescape f.name).Nodup :=
  hn.sublist (List.filter_sublist.map _)

theorem Item.ignored_name {i : Item} (hn : (i.fields.map fun f => unescape f.name).Nodup) {f : Field}
    (hf : f ∈ i.fields) (hi : f.Ignored) : unescape f.name ∉ i.kept.map fun f => unescape f.name := by
  intro hm
  obtain ⟨g, hg, he⟩ := List.mem_map.mp hm
  have hgi := (List.mem_filter.mp hg).2
  obtain rfl := List.inj_on_of_nodup_map hn (kept_subset hg) hf he
  simp [hi] at hgi

theorem Item.raw_name {text : Text} {i : Item} (hi : Item.ofText? text = some i) (rest : Text) :
    rawMark ++ rest ∉ i.kept.map fun f => unescape f.name := by
  intro hm
  obtain ⟨f, hf, he⟩ := List.mem_map.mp hm
  exact (field_isName hi (kept_subset hf)).ne_raw rest he

/-- Where the custom keys are string literals every field that is not ignored has a key. -/
theorem Field.exists_key {f : Field} (s : Style)
    (h : ∀ a, f.customAttribute? = some a → ∃ key, a.form.KeyLiteral key) : ∃ key, f.HasKey s key := by
  cases ha : f.customAttribute? with
  | none => exact ⟨_, .derived ha⟩
  | some a =>
    obtain ⟨key, hk⟩ := h a ha
    exact ⟨key, .literal ha hk⟩

/-- In the code generated for a text the name of every field that is not ignored leads to the
variant of the field and to its key, and no other string leads to anything. The variants and the
keys are those of the fields that are not ignored, in their order. -/
theorem lookups_of_text {text : Text} {i : Item} {code : List Lexeme} (data : Bool)
    (hi : Item.ofText? text = some i) (hx : (i.expand data).result = .ok code) (hk : i.kept ≠ [])
    (hn : (i.fields.map fun f => unescape f.name).Nodup)
    (hl : ∀ f ∈ i.kept, ∀ a, f.customAttribute? = some a → ∃ key, a.form.KeyLiteral key) :
    ∃ s k t, i.HasStyle s ∧ KeyCode.read? code = some k ∧ k.table? = some t ∧
      (∀ before f after, i.fields = before ++ f :: after → ¬ f.Ignored →
        ∃ key, f.HasKey s key ∧
          KeyTable.fromFieldName t (unescape f.name) =
            .ok ⟨(before.filter fun g => ¬ g.Ignored).length, ⟨unescape f.name, key⟩⟩ ∧
          KeyTable.keyForField t (unescape f.name) = some key) ∧
      (∀ name, (∃ f ∈ i.fields, f.Ignored ∧ name = unescape f.name) ∨
          (∀ f ∈ i.fields, name ≠ unescape f.name) ∨ (∃ rest, name = rawMark ++ rest) →
        KeyTable.keyForField t name = none ∧
          KeyTable.fromFieldName t name = .error (.unknownField name)) ∧
      k.all = i.kept.map Field.name ∧ k.all.Nodup ∧
      (KeyTable.variants t).map (fun v => v.row.field) = i.kept.map (fun f => unescape f.name) ∧
      (KeyTable.variants t).map Variant.index = List.range i.kept.length ∧
      List.Forall₂ (fun f key => f.HasKey s key) i.kept (KeyTable.keys t) := by
  obtain ⟨m, hm⟩ := Item.mapping_of_expand hx
  obtain ⟨ts, -, ht⟩ := Option.bind_eq_some_iff.mp hi
  obtain ⟨es, he⟩ := Item.mapping_isSome hm hk
  have hkn := Item.kept_nodup hn
  have hkeys : ∀ f ∈ i.kept, ∃ key, f.HasKey m.record.style key :=
    fun f hf => Field.exists_key m.record.style (hl f hf)
  choose! key hkey using hkeys
  have hr := Item.read?_expand data ht hm he
  obtain rfl : m.record.expansion data es = code :=
    Except.ok.inj ((Item.expand_ok data hm he).symm.trans hx)
  have htable := Item.codeTable?_fields data ht hm hkn hkey
  rw [Item.codeTable?_read hx hr] at htable
  have hnames := Item.entries_names hm
  rw [he, Option.getD_some] at hnames
  have hfields : ((i.kept.map fun f => (⟨unescape f.name, key f⟩ : Row)).map Row.field) =
      i.kept.map fun f => unescape f.name := by
    rw [List.map_map]
    rfl
  have hrows : ((i.kept.map fun f => (⟨unescape f.name, key f⟩ : Row)).map Row.field).Nodup := by
    rwa [hfields]
  refine ⟨m.record.style, _, _, Item.hasStyle (Item.record_ok (Item.mapping_ok hm).1).2.1, hr, htable,
    fun before f after hb hf => ?_, fun name hname => ?_, hnames, ?_, ?_, ?_, ?_⟩
  · have hs := Item.kept_split hb hf
    have hmem : f ∈ i.kept := by simp [hs]
    have hv : (⟨(before.filter fun g => ¬ g.Ignored).length, ⟨unescape f.name, key f⟩⟩ : Variant) ∈
        KeyTable.variants (i.kept.map fun f => ⟨unescape f.name, key f⟩) := by
      rw [KeyTable.mem_variants, hs]
      simp
    exact ⟨key f, hkey f hmem, KeyTable.fromFieldName_variant hrows hv,
      KeyTable.keyForField_variant hrows hv⟩
  · have hu : name ∉ (i.kept.map fun f => (⟨unescape f.name, key f⟩ : Row)).map Row.field := by
      rw [hfields]
      rcases hname with ⟨f, hf, hig, rfl⟩ | hno | ⟨rest, rfl⟩
      · exact Item.ignored_name hn hf hig
      · intro hmem
        obtain ⟨f, hf, rfl⟩ := List.mem_map.mp hmem
        exact hno f (Item.kept_subset hf) rfl
      · exact Item.raw_name hi rest
    exact ⟨KeyTable.keyForField_unknown hu, KeyTable.fromFieldName_unknown hu⟩
  · refine List.Nodup.of_map unescape ?_
    have hall : (m.record.keyCode es).all = i.kept.map Field.name := hnames
    rw [hall, List.map_map]
    exact hkn
  · rw [KeyTable.map_variants _ Row.field, hfields]
  · rw [KeyTable.index_variants, List.length_map]
  · rw [KeyTable.keys, List.map_map, List.forall₂_map_right_iff, List.forall₂_same]
    exact hkey

theorem lookups_of_text_row :
    ∃ i code k t, Item.ofText? ("#[coding_keys(style = kebab_cased)] struct Row \x7b ".toList ++
        "#[coding_key = \"id\"] userID: u8, #[coding_key_ignored] r#gen: u8, ".toList ++
        "lastName: u8, r#type: u8 \x7d".toList) = some i ∧
      (i.expand true).result = .ok code ∧ KeyCode.read? code = some k ∧ k.table? = some t ∧
      (KeyTable.variants t).map (fun v => v.row.field) =
        ["userID".toList, "lastName".toList, "type".toList] ∧
      (∃ key, KeyTable.fromFieldName t "userID".toList = .ok ⟨0, ⟨"userID".toList, key⟩⟩) ∧
      KeyTable.fromFieldName t "gen".toList = .error (.unknownField "gen".toList) ∧
      KeyTable.keyForField t "r#type".toList = none := by
  have h : ((Item.ofText? ("#[coding_keys(style = kebab_cased)] struct Row \x7b ".toList ++
      "#[coding_key = \"id\"] userID: u8, #[coding_key_ignored] r#gen: u8, ".toList ++
      "lastName: u8, r#type: u8 \x7d".toList)).filter fun i => (i.expand true).result.isOk).map (fun i =>
        (i.fields.map fun f => (unescape f.name, decide f.Ignored),
          i.kept.map fun f => (unescape f.name, f.customAttribute?.map Attribute.form))) =
      some ([("userID".toList, false), ("gen".toList, true), ("lastName".toList, false),
        ("type".toList, false)],
        [("userID".toList, some (.value ⟨.literal,
          [⟨.literal "\"id\"".toList, ⟨⟨1, 64⟩, ⟨1, 68⟩⟩⟩]⟩)), ("lastName".toList, none),
          ("type".toList, none)]) := by
    decide +kernel
  obtain ⟨i, hi, he⟩ := Option.map_eq_some_iff.mp h
  obtain ⟨hi, hx⟩ := Option.filter_eq_some_iff.mp hi
  obtain ⟨hfields, hk⟩ := Prod.mk.inj he
  obtain ⟨code, hx⟩ := exists_of_isOk hx
  have hn : (i.fields.map fun f => unescape f.name).Nodup := by
    have hh := congrArg (List.map Prod.fst) hfields
    rw [List.map_map] at hh
    exact (show (i.fields.map fun f => unescape f.name) = _ from hh) ▸ by decide
  have hnames : (i.kept.map fun f => unescape f.name) =
      ["userID".toList, "lastName".toList, "type".toList] := by
    have hh := congrArg (List.map Prod.fst) hk
    rwa [List.map_map] at hh
  have hne : i.kept ≠ [] := by
    rintro hz
    simp [hz] at hnames
  have hforms : ∀ p ∈ i.kept.map (fun f => (unescape f.name, f.customAttribute?.map Attribute.form)),
      ∀ form, p.2 = some form → form.KeyLiteral "id".toList := by
    rw [hk]
    intro p hp form hf
    simp only [List.mem_cons, List.not_mem_nil, or_false] at hp
    rcases hp with rfl | rfl | rfl
    · obtain rfl := Option.some.inj hf
      exact .value ⟨rfl, by decide⟩
    · simp at hf
    · simp at hf
  have hl : ∀ f ∈ i.kept, ∀ a, f.customAttribute? = some a → ∃ key, a.form.KeyLiteral key :=
    fun f hf a ha => ⟨_, hforms _ (List.mem_map_of_mem hf) a.form (by simp [ha])⟩
  obtain ⟨g, hg, hgen, hig⟩ : ∃ g ∈ i.fields, unescape g.name = "gen".toList ∧ g.Ignored := by
    have hm : ("gen".toList, true) ∈ i.fields.map fun f => (unescape f.name, decide f.Ignored) := by
      rw [hfields]
      decide
    obtain ⟨g, hg, he⟩ := List.mem_map.mp hm
    obtain ⟨hgen, hig⟩ := Prod.mk.inj he
    exact ⟨g, hg, hgen, by simpa using hig⟩
  obtain ⟨f, rest, hsplit, hf, -⟩ := List.map_eq_cons_iff.mp hfields
  obtain ⟨hname, hfi⟩ := Prod.mk.inj hf
  obtain ⟨s, k, t, -, hr, ht, hl, hu, -, -, hv, -⟩ := lookups_of_text true hi hx hne hn hl
  obtain ⟨key, -, hkey, -⟩ := hl [] f rest hsplit (by simpa using hfi)
  rw [hname] at hkey
  have hign := hu "gen".toList (.inl ⟨g, hg, hig, hgen.symm⟩)
  have hraw := hu "r#type".toList (.inr (.inr ⟨"type".toList, rfl⟩))
  exact ⟨i, code, k, t, hi, hx, hr, ht, hv.trans hnames, ⟨key, hkey⟩, hign.2, hraw.1⟩

end FieldKeys
