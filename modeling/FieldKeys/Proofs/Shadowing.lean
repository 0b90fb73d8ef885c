import FieldKeys.KeyMap
import FieldKeys.Proofs.Lookup
import Mathlib.Data.Set.Card

/-! Look-ups in any table, also where fields or keys repeat. A look-up leads to the first row that
has what is asked for, and the rows that a key leads to are as many as there are different keys. -/

namespace FieldKeys

/-- The first row of a table with a value in a column. -/
def KeyTable.First (t : KeyTable) (column : Row → Text) (value : Text) (v : Variant) : Prop :=
  t[v.index]? = some v.row ∧ column v.row = value ∧
    ∀ j < v.index, ∀ row, t[j]? = some row → column row ≠ value

theorem KeyTable.getElem?_variants (t : KeyTable) (i : Nat) :
    (KeyTable.variants t)[i]? = t[i]?.map fun row => ⟨i, row⟩ := by
  rw [variants, List.getElem?_map, List.getElem?_zipIdx, Option.map_map]
  simp only [Function.comp_def, Nat.zero_add]

theorem KeyTable.First.mem {t : KeyTable} {column : Row → Text} {value : Text} {v : Variant}
    (h : KeyTable.First t column value v) : v ∈ KeyTable.variants t :=
  mem_variants.mpr h.1

theorem KeyTable.find?_variants_iff {t : KeyTable} {column : Row → Text} {value : Text}
    {v : Variant} :
    (KeyTable.variants t).find? (fun v => column v.row == value) = some v ↔
      KeyTable.First t column value v := by
  rw [List.find?_eq_some_iff_getElem]
  constructor
  · rintro ⟨hv, i, hi, he, hb⟩
    have hget : (KeyTable.variants t)[i]? = some v := by rw [List.getElem?_eq_getElem hi, he]
    obtain ⟨row, hrow, rfl⟩ := Option.map_eq_some_iff.mp ((getElem?_variants t i).symm.trans hget)
    refine ⟨hrow, beq_iff_eq.mp hv, fun j hj row' hrow' hc => ?_⟩
    have hjv : (KeyTable.variants t)[j]? = some ⟨j, row'⟩ := by
      rw [getElem?_variants, hrow', Option.map_some]
    obtain ⟨hlt, hej⟩ := List.getElem?_eq_some_iff.mp hjv
    have hne := hb j hj
    rw [hej] at hne
    simp [hc] at hne
  · rintro ⟨hrow, hc, hb⟩
    have hget : (KeyTable.variants t)[v.index]? = some v := by
      rw [getElem?_variants, hrow, Option.map_some]
    obtain ⟨hi, he⟩ := List.getElem?_eq_some_iff.mp hget
    refine ⟨beq_iff_eq.mpr hc, v.index, hi, he, fun j hj => ?_⟩
    have hjv : (KeyTable.variants t)[j]? = some (KeyTable.variants t)[j] :=
      List.getElem?_eq_getElem (hj.trans hi)
    obtain ⟨row, hrow', hej⟩ := Option.map_eq_some_iff.mp ((getElem?_variants t j).symm.trans hjv)
    rw [← hej]
    simpa using hb j hj row hrow'

theorem KeyTable.find?_variants_eq_none_iff {t : KeyTable} {column : Row → Text} {value : Text} :
    (KeyTable.variants t).find? (fun v => column v.row == value) = none ↔ value ∉ t.map column := by
  rw [← map_variants t column, List.find?_eq_none, List.mem_map, not_exists]
  refine forall_congr' fun v => ?_
  rw [not_and, beq_iff_eq]

theorem KeyTable.exists_first_iff {t : KeyTable} {column : Row → Text} {value : Text} :
    (∃ v, KeyTable.First t column value v) ↔ value ∈ t.map column := by
  constructor
  · rintro ⟨v, hv⟩
    rw [← map_variants t column]
    exact List.mem_map.mpr ⟨v, hv.mem, hv.2.1⟩
  · intro hm
    cases hf : (KeyTable.variants t).find? (fun v => column v.row == value) with
    | some v => exact ⟨v, find?_variants_iff.mp hf⟩
    | none => exact absurd hm (find?_variants_eq_none_iff.mp hf)

theorem KeyTable.fromKey_eq_ok_iff {t : KeyTable} {key : Text} {v : Variant} :
    KeyTable.fromKey t key = .ok v ↔ KeyTable.First t Row.key key v := by
  rw [← find?_variants_iff, fromKey]
  cases (KeyTable.variants t).find? (fun v => v.row.key == key) <;> simp

theorem KeyTable.fromKey_eq_error_iff {t : KeyTable} {key : Text} {e : LookupError} :
    KeyTable.fromKey t key = .error e ↔ e = .unknownKey key ∧ key ∉ KeyTable.keys t := by
  rw [keys, ← find?_variants_eq_none_iff, fromKey]
  cases (KeyTable.variants t).find? (fun v => v.row.key == key) <;> simp [eq_comm]

theorem KeyTable.fromFieldName_eq_ok_iff {t : KeyTable} {name : Text} {v : Variant} :
    KeyTable.fromFieldName t name = .ok v ↔ KeyTable.First t Row.field name v := by
  rw [← find?_variants_iff, fromFieldName]
  cases (KeyTable.variants t).find? (fun v => v.row.field == name) <;> simp

theorem KeyTable.fromFieldName_eq_error_iff {t : KeyTable} {name : Text} {e : LookupError} :
    KeyTable.fromFieldName t name = .error e ↔ e = .unknownField name ∧ name ∉ t.map Row.field := by
  rw [← find?_variants_eq_none_iff, fromFieldName]
  cases (KeyTable.variants t).find? (fun v => v.row.field == name) <;> simp [eq_comm]

theorem KeyTable.keyForField_eq_some_iff {t : KeyTable} {name key : Text} :
    KeyTable.keyForField t name = some key ↔
      ∃ v, KeyTable.fromFieldName t name = .ok v ∧ v.row.key = key := by
  rw [keyForField]
  split <;> simp_all

theorem KeyTable.First.fromKey_key {t : KeyTable} {key : Text} {v : Variant}
    (h : KeyTable.First t Row.key key v) : KeyTable.fromKey t v.row.key = .ok v := by
  rw [h.2.1]
  exact fromKey_eq_ok_iff.mpr h

theorem KeyTable.exists_fromKey {t : KeyTable} {v : Variant} (hv : v ∈ KeyTable.variants t) :
    ∃ w, KeyTable.fromKey t v.row.key = .ok w ∧ KeyTable.First t Row.key v.row.key w := by
  have hm : v.row.key ∈ t.map Row.key := by
    rw [← map_variants t Row.key]
    exact List.mem_map_of_mem hv
  obtain ⟨w, hw⟩ := exists_first_iff.mpr hm
  exact ⟨w, fromKey_eq_ok_iff.mpr hw, hw⟩

theorem KeyTable.fromKey_key_iff_nodup (t : KeyTable) :
    (∀ v ∈ KeyTable.variants t, KeyTable.fromKey t v.row.key = .ok v) ↔
      (KeyTable.keys t).Nodup := by
  refine ⟨fun h => ?_, fun hn v hv => fromKey_variant hn hv⟩
  rw [keys, ← map_variants t Row.key]
  -- Two rows with one key would both be the answer for it.
  have hinj : ∀ v ∈ KeyTable.variants t, ∀ w ∈ KeyTable.variants t, v.row.key = w.row.key → v = w := by
    intro v hv w hw he
    exact Except.ok.inj ((h v hv).symm.trans (he ▸ h w hw))
  have hvn : (KeyTable.variants t).Nodup := by
    refine List.Nodup.of_map Variant.index ?_
    rw [index_variants]
    exact List.nodup_range
  exact hvn.map_on hinj

/-- Each key leads to one row, and different keys lead to different rows. -/
theorem KeyTable.encard_reachable (t : KeyTable) :
    {v | ∃ key, KeyTable.fromKey t key = .ok v}.encard = ((KeyTable.keys t).toFinset.card : ℕ∞) := by
  have hinj : Set.InjOn (fun v : Variant => v.row.key) {v | ∃ key, KeyTable.fromKey t key = .ok v} := by
    rintro v ⟨key, hv⟩ w ⟨key', hw⟩ he
    have hv' := (fromKey_eq_ok_iff.mp hv).fromKey_key
    have hw' := (fromKey_eq_ok_iff.mp hw).fromKey_key
    simp only at he
    exact Except.ok.inj (hv'.symm.trans (he ▸ hw'))
  have himage : (fun v : Variant => v.row.key) '' {v | ∃ key, KeyTable.fromKey t key = .ok v} =
      ((KeyTable.keys t).toFinset : Set Text) := by
    ext key
    simp only [Set.mem_image, Set.mem_ofPred_eq, List.coe_toFinset]
    constructor
    · rintro ⟨v, ⟨key', hv⟩, rfl⟩
      exact exists_first_iff.mp ⟨v, fromKey_eq_ok_iff.mp (fromKey_eq_ok_iff.mp hv).fromKey_key⟩
    · intro hm
      obtain ⟨v, hv⟩ := exists_first_iff.mpr hm
      exact ⟨v, ⟨key, fromKey_eq_ok_iff.mpr hv⟩, hv.2.1⟩
  rw [← hinj.encard_image, himage, Set.encard_coe_eq_coe_finsetCard]

/-- A look-up by key or by field leads to the first row that answers, and fails with what was asked
for if there is none. The key of a field is the key of the first row of the field. All rows are
found again by their keys if and only if the keys are distinct. Data are written and read back
by the same laws. -/
theorem lookups_lead_to_first_row (t : KeyTable) :
    (∀ key v, KeyTable.fromKey t key = .ok v ↔ KeyTable.First t Row.key key v) ∧
    (∀ key e, KeyTable.fromKey t key = .error e ↔ e = .unknownKey key ∧ key ∉ KeyTable.keys t) ∧
    (∀ name v, KeyTable.fromFieldName t name = .ok v ↔ KeyTable.First t Row.field name v) ∧
    (∀ name e, KeyTable.fromFieldName t name = .error e ↔
      e = .unknownField name ∧ name ∉ t.map Row.field) ∧
    (∀ name key, KeyTable.keyForField t name = some key ↔
      ∃ v, KeyTable.fromFieldName t name = .ok v ∧ v.row.key = key) ∧
    (∀ key v, KeyTable.fromKey t key = .ok v → v.row.key = key) ∧
    (∀ v ∈ KeyTable.variants t,
      ∃ w, KeyTable.fromKey t v.row.key = .ok w ∧ KeyTable.First t Row.key v.row.key w) ∧
    ((∀ v ∈ KeyTable.variants t, KeyTable.fromKey t v.row.key = .ok v) ↔ (KeyTable.keys t).Nodup) ∧
    {v | ∃ key, KeyTable.fromKey t key = .ok v}.encard = ((KeyTable.keys t).toFinset.card : ℕ∞) ∧
    (∀ key, KeyTable.deserialize t (.text key) = KeyTable.fromKey t key) ∧
    (∀ v : Variant, v.serialized = v.row.key ∧ v.displayText = v.row.key) ∧
    ((∀ v ∈ KeyTable.variants t, KeyTable.deserialize t (.text v.serialized) = .ok v) ↔
      (KeyTable.keys t).Nodup) :=
  ⟨fun _ _ => KeyTable.fromKey_eq_ok_iff, fun _ _ => KeyTable.fromKey_eq_error_iff,
    fun _ _ => KeyTable.fromFieldName_eq_ok_iff, fun _ _ => KeyTable.fromFieldName_eq_error_iff,
    fun _ _ => KeyTable.keyForField_eq_some_iff,
    fun _ _ h => (KeyTable.fromKey_eq_ok_iff.mp h).2.1, fun _ => KeyTable.exists_fromKey,
    KeyTable.fromKey_key_iff_nodup t, KeyTable.encard_reachable t, fun _ => rfl,
    fun _ => ⟨rfl, rfl⟩, KeyTable.fromKey_key_iff_nodup t⟩

example : (KeyTable.fromKey [⟨['a'], ['k']⟩, ⟨['b'], ['k']⟩] ['k']).toOption.map (·.index) = some 0 ∧
    KeyTable.keyForField [⟨['a'], ['k']⟩, ⟨['b'], ['k']⟩] ['b'] = some ['k'] := by
  decide

end FieldKeys
