import FieldKeys.Text

/-! The byte order of texts is linear: any two texts can be compared, and texts that stand before
each other are equal. -/

namespace FieldKeys

theorem bytesLE_cons_iff {a b : UInt8} {as bs : List UInt8} :
    bytesLE (a :: as) (b :: bs) = true ↔ a < b ∨ a = b ∧ bytesLE as bs = true := by
  simp [bytesLE]

theorem bytesLE_total (a b : List UInt8) : bytesLE a b = true ∨ bytesLE b a = true := by
  induction a generalizing b with
  | nil => exact .inl rfl
  | cons x a ih =>
    cases b with
    | nil => exact .inr rfl
    | cons y b =>
      rw [bytesLE_cons_iff, bytesLE_cons_iff]
      by_cases he : x = y
      · subst he
        exact (ih b).imp (fun h => .inr ⟨rfl, h⟩) (fun h => .inr ⟨rfl, h⟩)
      · exact (UInt8.lt_or_lt_of_ne he).imp .inl .inl

theorem bytesLE_trans {a b c : List UInt8} (hab : bytesLE a b = true) (hbc : bytesLE b c = true) :
    bytesLE a c = true := by
  induction a generalizing b c with
  | nil => rfl
  | cons x a ih =>
    cases b with
    | nil => simp [bytesLE] at hab
    | cons y b =>
      cases c with
      | nil => simp [bytesLE] at hbc
      | cons z c =>
        rw [bytesLE_cons_iff] at hab hbc ⊢
        rcases hab with hxy | ⟨rfl, hab⟩
        · rcases hbc with hyz | ⟨rfl, -⟩
          · exact .inl (UInt8.lt_trans hxy hyz)
          · exact .inl hxy
        · rcases hbc with hyz | ⟨rfl, hbc⟩
          · exact .inl hyz
          · exact .inr ⟨rfl, ih hab hbc⟩

theorem bytesLE_antisymm {a b : List UInt8} (hab : bytesLE a b = true) (hba : bytesLE b a = true) :
    a = b := by
  induction a generalizing b with
  | nil =>
    cases b with
    | nil => rfl
    | cons y b => simp [bytesLE] at hba
  | cons x a ih =>
    cases b with
    | nil => simp [bytesLE] at hab
    | cons y b =>
      rw [bytesLE_cons_iff] at hab hba
      rcases hab with hxy | ⟨rfl, hab⟩
      · rcases hba with hyx | ⟨rfl, -⟩
        · exact absurd hyx (UInt8.lt_asymm hxy)
        · exact absurd hxy (UInt8.lt_irrefl _)
      · rcases hba with hyx | ⟨-, hba⟩
        · exact absurd hyx (UInt8.lt_irrefl _)
        · rw [ih hab hba]

theorem Text.utf8_injective {a b : Text} (h : Text.utf8 a = Text.utf8 b) : a = b := by
  have hs : (String.ofList a).toByteArray = (String.ofList b).toByteArray := by
    rw [String.toByteArray_ofList, String.toByteArray_ofList, List.utf8Encode, List.utf8Encode]
    exact congrArg List.toByteArray h
  exact String.ofList_injective (String.toByteArray_inj.mp hs)

theorem Text.byteLE_total (a b : Text) : (Text.byteLE a b || Text.byteLE b a) = true :=
  Bool.or_eq_true_iff.mpr (bytesLE_total _ _)

theorem Text.byteLE_trans {a b c : Text} (hab : Text.byteLE a b = true)
    (hbc : Text.byteLE b c = true) : Text.byteLE a c = true :=
  bytesLE_trans hab hbc

theorem Text.byteLE_antisymm {a b : Text} (hab : Text.byteLE a b = true)
    (hba : Text.byteLE b a = true) : a = b :=
  Text.utf8_injective (bytesLE_antisymm hab hba)

end FieldKeys
