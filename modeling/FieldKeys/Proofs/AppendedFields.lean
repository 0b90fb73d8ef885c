import FieldKeys.KeyMap
import FieldKeys.Proofs.Rows
import FieldKeys.Proofs.Shadowing

/-! A record that grows at its end: what was found in its table is found in the same place, and
what is found besides belongs to the fields that came along. -/

namespace FieldKeys

/-- A variant that belongs to one of the fields `more`, which stand after those of the table. -/
def KeyTable.Added (t : KeyTable) (s : Style) (more : List Field) (v : Variant) : Prop :=
  t.length ≤ v.index ∧ ∃ f ∈ more, ¬ f.Ignored ∧
    (more.filter fun g => ¬ g.Ignored)[v.index - t.length]? = some f ∧
    v.row.field = unescape f.name ∧ f.HasKey s v.row.key

theorem KeyTable.First.append {t : KeyTable} {column : Row → Text} {value : Text} {v : Variant}
    (h : KeyTable.First t column value v) (rows : KeyTable) :
    KeyTable.First (t ++ rows) column value v := by
  obtain ⟨hv, hc, hb⟩ := h
  have hlt : v.index < t.length := (List.getElem?_eq_some_iff.mp hv).1
  refine ⟨(List.getElem?_append_left hlt).trans hv, hc, fun j hj row hrow => ?_⟩
  exact hb j hj row ((List.getElem?_append_left (by omega)).symm.trans hrow)

theorem KeyTable.First.of_append {t rows : KeyTable} {column : Row → Text} {value : Text}
    {v : Variant} (h : KeyTable.First (t ++ rows) column value v) (hn : value ∉ t.map column) :
    t.length ≤ v.index ∧ rows[v.index - t.length]? = some v.row := by
  obtain ⟨hv, hc, -⟩ := h
  by_cases hlt : v.index < t.length
  · rw [List.getElem?_append_left hlt] at hv
    exact absurd (hc ▸ List.mem_map_of_mem (List.mem_of_getElem? hv)) hn
  · rw [List.getElem?_append_right (by omega)] at hv
    exact ⟨by omega, hv⟩

theorem KeyTable.fromKey_append {t : KeyTable} {key : Text} {v : Variant}
    (h : KeyTable.fromKey t key = .ok v) (rows : KeyTable) :
    KeyTable.fromKey (t ++ rows) key = .ok v :=
  fromKey_eq_ok_iff.mpr ((fromKey_eq_ok_iff.mp h).append rows)

theorem KeyTable.fromFieldName_append {t : KeyTable} {name : Text} {v : Variant}
    (h : KeyTable.fromFieldName t name = .ok v) (rows : KeyTable) :
    KeyTable.fromFieldName (t ++ rows) name = .ok v :=
  fromFieldName_eq_ok_iff.mpr ((fromFieldName_eq_ok_iff.mp h).append rows)

theorem KeyTable.keyForField_append {t : KeyTable} {name key : Text}
    (h : KeyTable.keyForField t name = some key) (rows : KeyTable) :
    KeyTable.keyForField (t ++ rows) name = some key := by
  obtain ⟨v, hv, hk⟩ := keyForField_eq_some_iff.mp h
  exact keyForField_eq_some_iff.mpr ⟨v, fromFieldName_append hv rows, hk⟩

theorem KeyTable.fromKey_new {t rows : KeyTable} {key : Text} {e : LookupError} {v : Variant}
    (h : KeyTable.fromKey t key = .error e) (h' : KeyTable.fromKey (t ++ rows) key = .ok v) :
    t.length ≤ v.index ∧ rows[v.index - t.length]? = some v.row :=
  (fromKey_eq_ok_iff.mp h').of_append (fromKey_eq_error_iff.mp h).2

theorem KeyTable.fromFieldName_new {t rows : KeyTable} {name : Text} {e : LookupError} {v : Variant}
    (h : KeyTable.fromFieldName t name = .error e)
    (h' : KeyTable.fromFieldName (t ++ rows) name = .ok v) :
    t.length ≤ v.index ∧ rows[v.index - t.length]? = some v.row :=
  (fromFieldName_eq_ok_iff.mp h').of_append (fromFieldName_eq_error_iff.mp h).2

theorem KeyTable.keyForField_eq_none {t : KeyTable} {name : Text}
    (h : KeyTable.keyForField t name = none) :
    ∃ e, KeyTable.fromFieldName t name = .error e := by
  unfold keyForField at h
  split at h
  · simp at h
  · next e he => exact ⟨e, he⟩

theorem KeyTable.added_of_getElem? {t : KeyTable} {s : Style} {more : List Field} {v : Variant}
    {row : Field → Row}
    (hv : t.length ≤ v.index ∧
      ((more.filter fun g => ¬ g.Ignored).map row)[v.index - t.length]? = some v.row)
    (hrow : ∀ f ∈ more, ¬ f.Ignored → (row f).field = unescape f.name ∧ f.HasKey s (row f).key) :
    KeyTable.Added t s more v := by
  obtain ⟨hlt, hv⟩ := hv
  rw [List.getElem?_map] at hv
  obtain ⟨f, hf, hr⟩ := Option.map_eq_some_iff.mp hv
  obtain ⟨hm, hi⟩ := List.mem_filter.mp (List.mem_of_getElem? hf)
  have hi : ¬ f.Ignored := by simpa using hi
  obtain ⟨hfield, hkey⟩ := hrow f hm hi
  rw [hr] at hfield hkey
  exact ⟨hlt, f, hm, hi, hf, hfield, hkey⟩

/-- The tables of a record and of the record with more fields at its end. -/
theorem Item.table_append {i j : Item} {fields more : List Field} {es : List Entry}
    {code : List Lexeme} {data : Bool} (hb : i.body = .named fields)
    (hj : j.unplaced = (i.withFields (fields ++ more)).unplaced) (he : i.entries? = some es)
    (hx : (j.expand data).result = .ok code)
    (hl : ∀ f ∈ fields ++ more, ¬ f.Ignored → ∀ a, f.customAttribute? = some a →
      ∃ key, a.form.KeyLiteral key) :
    ∃ s es' t row, i.HasStyle s ∧ KeyTable.ofEntries? es = some t ∧ j.entries? = some es' ∧
      KeyTable.ofEntries? es' = some (t ++ (more.filter fun g => ¬ g.Ignored).map row) ∧
      ∀ f ∈ more, ¬ f.Ignored → (row f).field = unescape f.name ∧ f.HasKey s (row f).key := by
  obtain ⟨m, hm, hes⟩ := entries?_some he
  obtain ⟨mj, hmj⟩ := mapping_of_expand hx
  obtain ⟨m', hm', hentries, hall⟩ := (alike_of_unplaced hj).rows hmj
  have hs : Style.ofAttributes i.attributes = .ok m.record.style := (record_ok (mapping_ok hm).1).2.1
  have hs' : m'.record.style = m.record.style := style_of_mapping hm' hs
  have hfields : i.fields = fields := by simp [Item.fields, hb, Body.fields?]
  have hkept : (i.withFields (fields ++ more)).kept =
      i.kept ++ more.filter fun g => ¬ g.Ignored := by
    rw [withFields_kept, List.filter_append, kept, hfields]
  obtain ⟨row, hrow⟩ := Field.exists_row m.record.style hl
  have ht := @ofEntries?_rows _ _ hm row fun f hf => hrow f (by simp [← hfields, hf])
  have ht' := @ofEntries?_rows _ _ hm' row (by rw [hs']; exact hrow)
  obtain ⟨es', hes'⟩ := mapping_isSome hm' (by simp [hkept, kept_ne_nil hm hes])
  obtain ⟨ej, hej⟩ : ∃ ej, mj.entries = some ej := by
    cases hej : mj.entries with
    | none => simp [hes', hej] at hentries
    | some ej => exact ⟨ej, rfl⟩
  rw [hes, Option.getD_some] at ht
  have hrows := KeyTable.ofEntries?_congr hall
  rw [hej, Option.getD_some, ht', hkept, List.map_append] at hrows
  exact ⟨m.record.style, ej, _, row, hasStyle hs, ht, (entries?_of_mapping hmj).trans hej, hrows,
    fun f hf => hrow f (by simp [hf])⟩

/-- When fields are added at the end of a record, its table is extended at the end. What was found
is still found, in the same place, and what is found besides belongs to an added field. -/
theorem appended_fields_extend_table {i j : Item} {fields more : List Field} {es : List Entry}
    {code : List Lexeme} {data : Bool} (hb : i.body = .named fields)
    (hj : j.unplaced = (i.withFields (fields ++ more)).unplaced) (he : i.entries? = some es)
    (hx : (j.expand data).result = .ok code)
    (hl : ∀ f ∈ fields ++ more, ¬ f.Ignored → ∀ a, f.customAttribute? = some a →
      ∃ key, a.form.KeyLiteral key) :
    ∃ s t es' t', i.HasStyle s ∧ KeyTable.ofEntries? es = some t ∧ j.entries? = some es' ∧
      KeyTable.ofEntries? es' = some t' ∧ t <+: t' ∧
      (∀ key v, KeyTable.fromKey t key = .ok v → KeyTable.fromKey t' key = .ok v) ∧
      (∀ name v, KeyTable.fromFieldName t name = .ok v → KeyTable.fromFieldName t' name = .ok v) ∧
      (∀ name key, KeyTable.keyForField t name = some key →
        KeyTable.keyForField t' name = some key) ∧
      (∀ key v, KeyTable.deserialize t (.text key) = .ok v →
        KeyTable.deserialize t' (.text key) = .ok v) ∧
      (∀ key e v, KeyTable.fromKey t key = .error e → KeyTable.fromKey t' key = .ok v →
        KeyTable.Added t s more v) ∧
      (∀ name e v, KeyTable.fromFieldName t name = .error e →
        KeyTable.fromFieldName t' name = .ok v → KeyTable.Added t s more v) ∧
      (∀ name key, KeyTable.keyForField t name = none → KeyTable.keyForField t' name = some key →
        ∃ v, KeyTable.fromFieldName t' name = .ok v ∧ v.row.key = key ∧
          KeyTable.Added t s more v) ∧
      (∀ key e v, KeyTable.deserialize t (.text key) = .error e →
        KeyTable.deserialize t' (.text key) = .ok v → KeyTable.Added t s more v) := by
  obtain ⟨s, es', t, row, hs, ht, hes', ht', hrow⟩ := Item.table_append hb hj he hx hl
  have hnewKey : ∀ key e v, KeyTable.fromKey t key = .error e →
      KeyTable.fromKey (t ++ (more.filter fun g => ¬ g.Ignored).map row) key = .ok v →
      KeyTable.Added t s more v :=
    fun key e v h h' => KeyTable.added_of_getElem? (KeyTable.fromKey_new h h') hrow
  have hnewName : ∀ name e v, KeyTable.fromFieldName t name = .error e →
      KeyTable.fromFieldName (t ++ (more.filter fun g => ¬ g.Ignored).map row) name = .ok v →
      KeyTable.Added t s more v :=
    fun name e v h h' => KeyTable.added_of_getElem? (KeyTable.fromFieldName_new h h') hrow
  refine ⟨s, t, es', _, hs, ht, hes', ht', List.prefix_append _ _,
    fun key v h => KeyTable.fromKey_append h _, fun name v h => KeyTable.fromFieldName_append h _,
    fun name key h => KeyTable.keyForField_append h _, fun key v h => KeyTable.fromKey_append h _,
    hnewKey, hnewName, fun name key h h' => ?_, hnewKey⟩
  obtain ⟨v, hv, hk⟩ := KeyTable.keyForField_eq_some_iff.mp h'
  obtain ⟨e, hf⟩ := KeyTable.keyForField_eq_none h
  exact ⟨v, hv, hk, hnewName name e v hf hv⟩

theorem appended_fields_extend_table_row :
    ∃ i j es t es' t', Item.ofText? "struct Row \x7b #[coding_key = \"id\"] userID: u8 \x7d".toList =
        some i ∧
      Item.ofText? ("struct Row \x7b #[coding_key = \"id\"] userID: u8, ".toList ++
        "#[coding_key_ignored] old: u8, lastName: u8 \x7d".toList) = some j ∧
      i.entries? = some es ∧ KeyTable.ofEntries? es = some t ∧ j.entries? = some es' ∧
      KeyTable.ofEntries? es' = some t' ∧ t <+: t' ∧
      KeyTable.fromKey t' "id".toList = .ok ⟨0, ⟨"userID".toList, "id".toList⟩⟩ ∧
      ∃ s more, KeyTable.Added t s more ⟨1, ⟨"lastName".toList, "last_name".toList⟩⟩ := by
  have h : (Item.ofText? "struct Row \x7b #[coding_key = \"id\"] userID: u8 \x7d".toList).bind (fun i =>
      (Item.ofText? ("struct Row \x7b #[coding_key = \"id\"] userID: u8, ".toList ++
        "#[coding_key_ignored] old: u8, lastName: u8 \x7d".toList)).map fun j =>
          ((!i.fields.isEmpty && i.entries?.isSome, (j.expand true).result.isOk,
              decide (j.unplaced = (i.withFields (i.fields ++ j.fields.drop 1)).unplaced)),
            (i.entries?.bind KeyTable.ofEntries?, j.entries?.bind KeyTable.ofEntries?),
            (i.fields ++ j.fields.drop 1).filterMap fun f => f.customAttribute?.map Attribute.form)) =
      some ((true, true, true), (some [⟨"userID".toList, "id".toList⟩],
          some [⟨"userID".toList, "id".toList⟩, ⟨"lastName".toList, "last_name".toList⟩]),
        [.value ⟨.literal, [⟨.literal "\"id\"".toList, ⟨⟨1, 28⟩, ⟨1, 32⟩⟩⟩]⟩]) := by
    decide +kernel
  obtain ⟨i, hi, h⟩ := Option.bind_eq_some_iff.mp h
  obtain ⟨j, hj, h⟩ := Option.map_eq_some_iff.mp h
  obtain ⟨hchecks, h⟩ := Prod.mk.inj h
  obtain ⟨htables, hforms⟩ := Prod.mk.inj h
  obtain ⟨hti, htj⟩ := Prod.mk.inj htables
  obtain ⟨hnamed, hchecks⟩ := Prod.mk.inj hchecks
  obtain ⟨hnamed, hes⟩ := Bool.and_eq_true_iff.mp hnamed
  obtain ⟨hx, hplaced⟩ := Prod.mk.inj hchecks
  obtain ⟨es, hes⟩ := Option.isSome_iff_exists.mp hes
  obtain ⟨code, hx⟩ := exists_of_isOk hx
  have hb := i.body_eq_named fun hf => by simp [hf] at hnamed
  have hl := Field.keyLiteral_of_forms hforms fun form hform => by
    obtain rfl := List.mem_singleton.mp hform
    exact ⟨"id".toList, .value ⟨rfl, by decide⟩⟩
  obtain ⟨s, t, es', t', -, ht, hes', ht', hp, -, -, -, -, hnew, -⟩ :=
    appended_fields_extend_table hb (of_decide_eq_true hplaced) hes hx hl
  rw [hes, Option.bind_some, ht] at hti
  rw [hes', Option.bind_some, ht'] at htj
  obtain rfl := Option.some.inj hti
  obtain rfl := Option.some.inj htj
  exact ⟨i, j, es, _, es', _, hi, hj, hes, ht, hes', ht', hp, by decide, s, _,
    hnew "last_name".toList (.unknownKey "last_name".toList) _ (by decide) (by decide)⟩

end FieldKeys
