import Mathlib.Data.List.Forall2

/-! Lists that are related member by member. -/

namespace FieldKeys

theorem forall₂_comp {α β γ : Type} {R : α → β → Prop} {S : β → γ → Prop} {as : List α}
    {bs : List β} {cs : List γ} (h : List.Forall₂ R as bs) (h' : List.Forall₂ S bs cs) :
    List.Forall₂ (fun a c => ∃ b, R a b ∧ S b c) as cs := by
  induction h generalizing cs with
  | nil =>
    obtain rfl := List.forall₂_nil_left_iff.mp h'
    exact .nil
  | cons hr _ ih =>
    obtain ⟨c, cs, hs, hss, rfl⟩ := List.forall₂_cons_left_iff.mp h'
    exact .cons ⟨_, hr, hs⟩ (ih hss)

theorem forall₂_mem_right {α β : Type} {R : α → β → Prop} {as : List α} {bs : List β}
    (h : List.Forall₂ R as bs) {b : β} (hb : b ∈ bs) : ∃ a ∈ as, R a b := by
  induction h with
  | nil => simp at hb
  | cons hr _ ih =>
    rcases List.mem_cons.mp hb with rfl | hb
    · exact ⟨_, by simp, hr⟩
    · obtain ⟨a, ha, hh⟩ := ih hb
      exact ⟨a, by simp [ha], hh⟩

theorem forall₂_mem_left {α β : Type} {R : α → β → Prop} {as : List α} {bs : List β}
    (h : List.Forall₂ R as bs) {a : α} (ha : a ∈ as) : ∃ b ∈ bs, R a b :=
  forall₂_mem_right (R := flip R) h.flip ha

theorem forall₂_split {α β : Type} {R : α → β → Prop} {before after : List α} {a : α}
    {bs : List β} (h : List.Forall₂ R (before ++ a :: after) bs) :
    ∃ before' b after', bs = before' ++ b :: after' ∧ List.Forall₂ R before before' ∧ R a b ∧
      List.Forall₂ R after after' := by
  induction before generalizing bs with
  | nil =>
    obtain ⟨b, after', hr, hs, rfl⟩ := List.forall₂_cons_left_iff.mp h
    exact ⟨[], b, after', rfl, .nil, hr, hs⟩
  | cons c before ih =>
    obtain ⟨d, bs, hr, hs, rfl⟩ := List.forall₂_cons_left_iff.mp h
    obtain ⟨before', b, after', rfl, hb, ha, hs'⟩ := ih hs
    exact ⟨d :: before', b, after', rfl, .cons hr hb, ha, hs'⟩

theorem forall₂_find? {α β : Type} {R : α → β → Prop} {p : α → Bool} {q : β → Bool} {as : List α}
    {bs : List β} (h : List.Forall₂ R as bs) (hpq : ∀ a b, R a b → p a = q b) :
    Option.Rel R (as.find? p) (bs.find? q) := by
  induction h with
  | nil => exact .none
  | @cons a b as bs hr _ ih =>
    have hab := hpq a b hr
    cases hq : q b with
    | true =>
      rw [List.find?_cons_of_pos (hab.trans hq), List.find?_cons_of_pos hq]
      exact .some hr
    | false =>
      rw [List.find?_cons_of_neg (by simp [hab, hq]), List.find?_cons_of_neg (by simp [hq])]
      exact ih

theorem forall₂_map_eq_iff {α β γ : Type} {f : α → γ} {g : β → γ} {as : List α} {bs : List β} :
    List.Forall₂ (fun a b => f a = g b) as bs ↔ as.map f = bs.map g := by
  rw [← List.forall₂_map_right_iff, ← List.forall₂_map_left_iff (R := Eq), List.forall₂_eq_eq_eq]

theorem mapM_forall₂ {α β γ : Type} {f : α → Option γ} {g : β → Option γ} {as : List α} {bs : List β}
    (h : List.Forall₂ (fun a b => f a = g b) as bs) : as.mapM f = bs.mapM g := by
  induction h with
  | nil => rfl
  | cons hab _ ih => simp only [List.mapM_cons, hab, ih]

theorem exists_first {α : Type} {p : α → Prop} {l : List α} (h : ∃ a ∈ l, p a) :
    ∃ before a after, l = before ++ a :: after ∧ p a ∧ ∀ b ∈ before, ¬ p b := by
  induction l with
  | nil => simp at h
  | cons a l ih =>
    by_cases ha : p a
    · exact ⟨[], a, l, rfl, ha, by simp⟩
    · obtain ⟨b, hb, hpb⟩ := h
      rcases List.mem_cons.mp hb with rfl | hb
      · exact absurd hpb ha
      · obtain ⟨before, c, after, rfl, hc, hbefore⟩ := ih ⟨b, hb, hpb⟩
        exact ⟨a :: before, c, after, rfl, hc, by simpa using ⟨ha, hbefore⟩⟩

end FieldKeys
