import FieldKeys.KeyMap
import FieldKeys.Proofs.FieldKey
import FieldKeys.Proofs.Word

/-! Keys derived from distinct names are distinct, so that every variant is found again by its
key. -/

namespace FieldKeys

theorem Item.field_isWord {text : Text} {i : Item} (hi : Item.ofText? text = some i) {f : Field}
    (hf : f ∈ i.fields) : IsWord f.name := by
  obtain ⟨ts, hs, ht⟩ := Option.bind_eq_some_iff.mp hi
  have hb : i.body.fields? = some i.fields := by
    unfold fields at hf ⊢
    cases hb : i.body.fields? with
    | none => simp [hb] at hf
    | some fields => rfl
  obtain ⟨t, hm, hw⟩ := ((Item.ofTokens?_written ht).body i.fields hb f hf).name
  exact Token.scan?_word hs hm hw

theorem Item.field_isName {text : Text} {i : Item} (hi : Item.ofText? text = some i) {f : Field}
    (hf : f ∈ i.fields) : IsName (unescape f.name) :=
  (field_isWord hi hf).unescape

theorem Item.kept_subset {i : Item} {f : Field} (hf : f ∈ i.kept) : f ∈ i.fields :=
  (List.mem_filter.mp hf).1

theorem IsName.unambiguous_hyphen {name : Text} (h : IsName name) : Unambiguous '-' name :=
  unambiguous_of_not_mem (h.not_mem (by decide))

theorem Item.mapping_of_expand {i : Item} {data : Bool} {code : List Lexeme}
    (h : (i.expand data).result = .ok code) : ∃ m, i.mapping.result = .ok m := by
  obtain ⟨m, hm, -⟩ := exists_of_map_ok h
  exact ⟨m, hm⟩

theorem Item.style_of_mapping {i : Item} {m : Mapping} {s : Style} (h : i.mapping.result = .ok m)
    (hs : Style.ofAttributes i.attributes = .ok s) : m.record.style = s := by
  obtain ⟨-, ho, -⟩ := record_ok (mapping_ok h).1
  exact Except.ok.inj (ho.symm.trans hs)

/-- Among distinct names without custom keys, and with capitals in ASCII only, the keys are
distinct if they are hyphenated, or if no underscore stands before a lowercase letter. So every
variant is found by its key, and read back from what it is written as. -/
theorem derived_keys_distinct {text : Text} {i : Item} {code : List Lexeme} {s : Style} (data : Bool)
    (hi : Item.ofText? text = some i) (hx : (i.expand data).result = .ok code)
    (hs : Style.ofAttributes i.attributes = .ok s)
    (hn : (i.kept.map fun f => unescape f.name).Nodup)
    (hc : ∀ f ∈ i.kept, f.customAttribute? = none)
    (hu : ∀ f ∈ i.kept, PlainUppercase (unescape f.name))
    (ha : s = .kebab ∨ s = .snake ∧ ∀ f ∈ i.kept, Unambiguous '_' (unescape f.name)) :
    ∃ t, i.codeTable? data = some t ∧ t.map Row.field = i.kept.map (fun f => unescape f.name) ∧
      (t.map Row.key).Nodup ∧
      ∀ v ∈ KeyTable.variants t, KeyTable.fromKey t v.displayText = .ok v ∧
        KeyTable.deserialize t (.text v.serialized) = .ok v := by
  obtain ⟨m, hm⟩ := Item.mapping_of_expand hx
  obtain ⟨ts, -, ht⟩ := Option.bind_eq_some_iff.mp hi
  obtain rfl := Item.style_of_mapping hm hs
  have hk : ∀ f ∈ i.kept, f.HasKey m.record.style (m.record.style.convert (unescape f.name)) :=
    fun f hf => .derived (hc f hf)
  have hd : ∀ f ∈ i.kept, Unambiguous m.record.style.separator (unescape f.name) := by
    intro f hf
    rcases ha with hh | ⟨hh, ha⟩
    · rw [hh]
      exact (Item.field_isName hi (Item.kept_subset hf)).unambiguous_hyphen
    · rw [hh]
      exact ha f hf
  have hkeys : ((i.kept.map fun f => unescape f.name).map m.record.style.convert).Nodup := by
    refine List.Nodup.map_on (fun a ha b hb hab => ?_) hn
    obtain ⟨f, hf, rfl⟩ := List.mem_map.mp ha
    obtain ⟨g, hg, rfl⟩ := List.mem_map.mp hb
    exact m.record.style.convert_injective (hu f hf) (hu g hg) (hd f hf) (hd g hg) hab
  have hrows : ((i.kept.map fun f =>
      (⟨unescape f.name, m.record.style.convert (unescape f.name)⟩ : Row)).map Row.key).Nodup := by
    rw [List.map_map] at hkeys ⊢
    exact hkeys
  refine ⟨_, Item.codeTable?_fields data ht hm hn hk, ?_, hrows, fun v hv => ?_⟩
  · rw [List.map_map]
    rfl
  · have hh := KeyTable.fromKey_variant hrows hv
    exact ⟨hh, hh⟩

theorem derived_keys_distinct_row :
    ∃ i t, Item.ofText? ("#[coding_keys(style = kebab_cased)] struct Row ".toList ++
        "\x7b userID: u8, user_id: u8, r#type: u8 \x7d".toList) = some i ∧
      i.codeTable? true = some t ∧
      t.map Row.field = ["userID".toList, "user_id".toList, "type".toList] ∧
      ∀ v ∈ KeyTable.variants t, KeyTable.fromKey t v.displayText = .ok v ∧
        KeyTable.deserialize t (.text v.serialized) = .ok v := by
  have h : (Item.ofText? ("#[coding_keys(style = kebab_cased)] struct Row ".toList ++
      "\x7b userID: u8, user_id: u8, r#type: u8 \x7d".toList)).map (fun i =>
        ((i.expand true).result.isOk, (Style.ofAttributes i.attributes).toOption,
          i.kept.map fun f => (unescape f.name, f.customAttribute?))) =
      some (true, some .kebab, [("userID".toList, none), ("user_id".toList, none),
        ("type".toList, none)]) := by
    decide +kernel
  obtain ⟨i, hi, he⟩ := Option.map_eq_some_iff.mp h
  obtain ⟨hx, he⟩ := Prod.mk.inj he
  obtain ⟨hs, hk⟩ := Prod.mk.inj he
  obtain ⟨code, hx⟩ := exists_of_isOk hx
  have hs : Style.ofAttributes i.attributes = .ok .kebab := by
    cases hr : Style.ofAttributes i.attributes with
    | error f => simp [hr, Except.toOption] at hs
    | ok s => simpa [hr, Except.toOption] using hs
  have hnames : (i.kept.map fun f => unescape f.name) =
      ["userID".toList, "user_id".toList, "type".toList] := by
    have hh := congrArg (List.map Prod.fst) hk
    rwa [List.map_map] at hh
  have hall : ∀ p ∈ i.kept.map (fun f => (unescape f.name, f.customAttribute?)),
      p.2 = none ∧ PlainUppercase p.1 := by
    rw [hk]
    decide
  have hfield := fun f (hf : f ∈ i.kept) => hall _ (List.mem_map_of_mem hf)
  obtain ⟨t, ht, hf, -, hv⟩ := derived_keys_distinct true hi hx hs (by rw [hnames]; decide)
    (fun f hf => (hfield f hf).1) (fun f hf => (hfield f hf).2) (.inl rfl)
  exact ⟨i, t, hi, ht, hf.trans hnames, hv⟩

end FieldKeys
