import FieldKeys.KeyTable
import Mathlib.Data.List.Nodup

/-! Look-ups in a table: among distinct names or keys the first row that answers is the only one. -/

namespace FieldKeys

theorem find?_of_nodup {α β : Type} [BEq β] [LawfulBEq β] {f : α → β} {l : List α} {a : α}
    (hn : (l.map f).Nodup) (ha : a ∈ l) : l.find? (fun b => f b == f a) = some a := by
  induction l with
  | nil => simp at ha
  | cons b l ih =>
    rw [List.map_cons, List.nodup_cons] at hn
    rcases List.mem_cons.mp ha with rfl | ha
    · simp
    · have hb : f b ≠ f a := fun he => hn.1 (he ▸ List.mem_map_of_mem ha)
      rw [List.find?_cons_of_neg (by simpa using hb)]
      exact ih hn.2 ha

theorem KeyTable.rows_variants (t : KeyTable) : (KeyTable.variants t).map Variant.row = t := by
  have hh : (Variant.row ∘ fun (x : Row × Nat) => (⟨x.2, x.1⟩ : Variant)) = Prod.fst := rfl
  rw [variants, List.map_map, hh, List.zipIdx_map_fst]

theorem KeyTable.mem_variants {t : KeyTable} {v : Variant} :
    v ∈ KeyTable.variants t ↔ t[v.index]? = some v.row := by
  obtain ⟨index, row⟩ := v
  simp [variants, List.mem_zipIdx_iff_getElem?]

theorem KeyTable.map_variants {β : Type} (t : KeyTable) (f : Row → β) :
    (KeyTable.variants t).map (fun v => f v.row) = t.map f := by
  have hh := congrArg (List.map f) (rows_variants t)
  rwa [List.map_map] at hh

theorem KeyTable.index_variants (t : KeyTable) :
    (KeyTable.variants t).map Variant.index = List.range t.length := by
  have hh : (Variant.index ∘ fun (x : Row × Nat) => (⟨x.2, x.1⟩ : Variant)) = Prod.snd := rfl
  rw [variants, List.map_map, hh, List.zipIdx_map_snd, List.range_eq_range']

theorem KeyTable.fromKey_variant {t : KeyTable} (hn : (t.map Row.key).Nodup) {v : Variant}
    (hv : v ∈ KeyTable.variants t) : KeyTable.fromKey t v.row.key = .ok v := by
  have hm : ((KeyTable.variants t).map fun v => v.row.key).Nodup := by
    rwa [map_variants t Row.key]
  rw [fromKey, find?_of_nodup hm hv]

theorem KeyTable.fromFieldName_variant {t : KeyTable} (hn : (t.map Row.field).Nodup) {v : Variant}
    (hv : v ∈ KeyTable.variants t) : KeyTable.fromFieldName t v.row.field = .ok v := by
  have hm : ((KeyTable.variants t).map fun v => v.row.field).Nodup := by
    rwa [map_variants t Row.field]
  rw [fromFieldName, find?_of_nodup hm hv]

theorem KeyTable.fromFieldName_unknown {t : KeyTable} {name : Text}
    (h : name ∉ t.map Row.field) :
    KeyTable.fromFieldName t name = .error (.unknownField name) := by
  have hn : (KeyTable.variants t).find? (fun v => v.row.field == name) = none := by
    rw [List.find?_eq_none]
    intro v hv he
    have hm : v.row.field ∈ (KeyTable.variants t).map fun v => v.row.field :=
      List.mem_map_of_mem hv
    rw [map_variants t Row.field] at hm
    exact h ((beq_iff_eq.mp he) ▸ hm)
  rw [fromFieldName, hn]

theorem KeyTable.keyForField_variant {t : KeyTable} (hn : (t.map Row.field).Nodup) {v : Variant}
    (hv : v ∈ KeyTable.variants t) : KeyTable.keyForField t v.row.field = some v.row.key := by
  rw [keyForField, fromFieldName_variant hn hv]

theorem KeyTable.keyForField_unknown {t : KeyTable} {name : Text} (h : name ∉ t.map Row.field) :
    KeyTable.keyForField t name = none := by
  rw [keyForField, fromFieldName_unknown h]

end FieldKeys
