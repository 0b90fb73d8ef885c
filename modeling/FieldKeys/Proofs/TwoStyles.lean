import FieldKeys.Proofs.Lists
import FieldKeys.Proofs.Mapping

/-! What the styles have in common. Their conversions of a text, and so their mappings of a record,
differ in the separators put in and in nothing else. -/

namespace FieldKeys

/-- Texts of one length that differ at `n` positions. At each of them the one has the separator of
one style and the other that of the other. -/
structure ApartAt (n : Nat) (a b : Text) : Prop where
  length_eq : a.length = b.length
  count_eq : ((List.range a.length).countP fun i : Nat => a[i]? ≠ b[i]?) = n
  separators : ∀ i : Nat, a[i]? ≠ b[i]? →
    a[i]? = some Style.snake.separator ∧ b[i]? = some Style.kebab.separator

theorem ApartAt.nil : ApartAt 0 [] [] where
  length_eq := rfl
  count_eq := rfl
  separators := by simp

/-- The positions behind the first character are those of the rest. -/
theorem countP_range_cons (a b : Text) (c d : Char) :
    ((List.range (c :: a).length).countP fun i : Nat => (c :: a)[i]? ≠ (d :: b)[i]?) =
      ((List.range a.length).countP fun i : Nat => a[i]? ≠ b[i]?) + if c ≠ d then 1 else 0 := by
  rw [List.length_cons, List.range_succ_eq_map, List.countP_cons, List.countP_map]
  congr 1
  simp

theorem ApartAt.same {n : Nat} {a b : Text} (h : ApartAt n a b) (c : Char) :
    ApartAt n (c :: a) (c :: b) where
  length_eq := by simp [h.length_eq]
  count_eq := by simp only [countP_range_cons, h.count_eq, ne_eq, not_true, if_false, Nat.add_zero]
  separators := by
    intro i hi
    cases i with
    | zero => simp at hi
    | succ i => exact h.separators i hi

theorem ApartAt.inserted {n : Nat} {a b : Text} (h : ApartAt n a b) :
    ApartAt (n + 1) (Style.snake.separator :: a) (Style.kebab.separator :: b) where
  length_eq := by simp [h.length_eq]
  count_eq := by
    have hne : Style.snake.separator ≠ Style.kebab.separator := by decide
    rw [countP_range_cons, h.count_eq, if_pos hne]
  separators := by
    intro i hi
    cases i with
    | zero => exact ⟨rfl, rfl⟩
    | succ i => exact h.separators i hi

theorem ApartAt.append_left {n : Nat} {a b : Text} (h : ApartAt n a b) (t : Text) :
    ApartAt n (t ++ a) (t ++ b) := by
  induction t with
  | nil => exact h
  | cons c t ih => exact ih.same c

theorem convert_apartAt (t : Text) :
    ApartAt (t.countP isUppercase) (Style.snake.convert t) (Style.kebab.convert t) := by
  induction t with
  | nil => exact .nil
  | cons c r ih =>
    cases hc : isUppercase c with
    | true =>
      rw [Style.convert_cons, Style.convert_cons, Style.convertChar_upper _ hc,
        Style.convertChar_upper _ hc, List.countP_cons_of_pos hc]
      exact (ih.append_left (lowercase c)).inserted
    | false =>
      rw [Style.convert_cons, Style.convert_cons, Style.convertChar_other _ hc,
        Style.convertChar_other _ hc, List.countP_cons_of_neg (by simp [hc])]
      exact ih.same c

/-- No move of the table leads to a sign. -/
theorem lowercaseMoves_above : ∀ m ∈ lowercaseMoves, 96 < m.run.first + m.distance := by
  decide +kernel

theorem toNat_ofNat (n : Nat) : (Char.ofNat n).toNat = n ∨ (Char.ofNat n).toNat = 0 := by
  unfold Char.ofNat
  by_cases h : n.isValidChar
  · rw [dif_pos h]
    exact .inl rfl
  · rw [dif_neg h]
    exact .inr rfl

theorem moved_ne {c d : Char} (hc : 128 ≤ c.toNat) (h0 : 0 < d.toNat) (hd : d.toNat ≤ 96) :
    moved lowercaseMoves c ≠ d := by
  rintro rfl
  unfold moved at h0 hd
  cases hm : lowercaseMoves.find? (·.run.holds c.toNat) with
  | none =>
    simp only [hm] at hd
    omega
  | some m =>
    simp only [hm] at h0 hd
    have hrun : m.run.holds c.toNat = true := by simpa using List.find?_some hm
    have hfirst : m.run.first ≤ c.toNat := by
      simp only [Run.holds, Bool.and_eq_true, decide_eq_true_eq] at hrun
      exact hrun.1.1
    have habove := lowercaseMoves_above m (List.mem_of_find?_eq_some hm)
    rcases toNat_ofNat (c.toNat + m.distance).toNat with h | h <;> omega

/-- A lowercase form brings in no separator. -/
theorem Style.separator_not_mem_lowercase (s : Style) {c : Char} (hc : isUppercase c = true) :
    s.separator ∉ lowercase c := by
  by_cases h : c.toNat < 128
  · obtain ⟨d, hl, hd, -⟩ := lowercase_of_ascii hc h
    rw [hl, List.mem_singleton]
    rintro rfl
    simp [s.separator_not_lower] at hd
  · have hs : 0 < s.separator.toNat ∧ s.separator.toNat ≤ 96 ∧
        s.separator ∉ ['i', Char.ofNat 0x307] := by
      cases s <;> decide
    unfold lowercase
    rw [if_neg h]
    split
    · exact hs.2.2
    · rw [List.mem_singleton]
      exact (moved_ne (by omega) hs.1 hs.2.1).symm

theorem Style.count_separator_convert (s : Style) (t : Text) :
    (s.convert t).count s.separator = t.count s.separator + t.countP isUppercase := by
  induction t with
  | nil => rfl
  | cons c r ih =>
    rw [convert_cons, List.count_append, ih]
    cases hc : isUppercase c with
    | true =>
      have hne : c ≠ s.separator := by
        rintro rfl
        simp [s.separator_not_uppercase] at hc
      have hl : (lowercase c).count s.separator = 0 :=
        List.count_eq_zero.mpr (s.separator_not_mem_lowercase hc)
      rw [s.convertChar_upper hc, List.count_cons_self, hl, List.count_cons_of_ne hne,
        List.countP_cons_of_pos hc]
      omega
    | false =>
      rw [s.convertChar_other hc, List.count_cons, List.count_nil, List.count_cons,
        List.countP_cons_of_neg (by simp [hc])]
      omega

/-- The entries of one field under the two styles. -/
inductive Entry.Restyled : Entry → Entry → Prop
  | same {e : Entry} (h : ∀ name, e.key ≠ some (.derived name)) : Restyled e e
  | derived {field a b : Text} (h : ApartAt ((unescape field).countP isUppercase) a b) :
      Restyled ⟨field, some (.derived a)⟩ ⟨field, some (.derived b)⟩

theorem Declaration.Gives.restyled {d : Declaration} {e e' : Entry} (h : d.Gives .snake e)
    (h' : d.Gives .kebab e') : Entry.Restyled e e' := by
  obtain ⟨field, key⟩ := e
  obtain ⟨field', key'⟩ := e'
  obtain ⟨rfl, hk⟩ := h
  obtain ⟨rfl, hk'⟩ := h'
  cases hk with
  | custom hf =>
    obtain rfl := hk'.unique (.custom hf)
    exact .same (by simp)
  | same hn hu =>
    obtain rfl := hk'.unique (.same hn hu)
    exact .same (by simp)
  | derived hn hc hu =>
    obtain rfl := hk'.unique (.derived hn hc hu)
    exact .derived (convert_apartAt _)

theorem Style.mapping_restyled {fields : List Declaration}
    (h : ∀ d ∈ fields, ∀ span, ¬ d.Malformed span) :
    ∃ es es', (Style.snake.mapping fields).result = .ok es ∧
      (Style.kebab.mapping fields).result = .ok es' ∧
      Option.Rel (List.Forall₂ Entry.Restyled) es es' := by
  by_cases hk : ∃ d ∈ fields, ¬ d.Ignored
  · obtain ⟨es, he, hf⟩ := Style.snake.mapping_some h hk
    obtain ⟨es', he', hf'⟩ := Style.kebab.mapping_some h hk
    refine ⟨some es, some es', he, he', .some ?_⟩
    refine (forall₂_comp hf.flip hf').imp ?_
    rintro e e' ⟨d, hg, hg'⟩
    exact Declaration.Gives.restyled hg hg'
  · have ha : ∀ d ∈ fields, d.Ignored := by simpa using hk
    exact ⟨none, none, Style.snake.mapping_none ha, Style.kebab.mapping_none ha, .none⟩

/-- Under the two styles the conversions of a text differ at as many positions as the text has
uppercase characters, each time in the separator; so a style puts in one separator for each of
them. The mappings of a record fail at the same field, or have the same entries but for the
separators in derived keys. -/
theorem styles_differ_in_separators :
    (∀ t : Text,
      ApartAt (t.countP isUppercase) (Style.snake.convert t) (Style.kebab.convert t) ∧
      ∀ s : Style, (s.convert t).count s.separator =
        t.count s.separator + t.countP isUppercase) ∧
    ∀ fields : List Declaration,
      (∃ before d after span, fields = before ++ d :: after ∧ d.Malformed span ∧
        (∀ e ∈ before, ∀ span, ¬ e.Malformed span) ∧
        ∀ s : Style, (s.mapping fields).result = .error (.malformedCustomKey span)) ∨
      ∃ es es', (Style.snake.mapping fields).result = .ok es ∧
        (Style.kebab.mapping fields).result = .ok es' ∧
        Option.Rel (List.Forall₂ Entry.Restyled) es es' := by
  refine ⟨fun t => ⟨convert_apartAt t, fun s => s.count_separator_convert t⟩, fun fields => ?_⟩
  rcases exists_first_malformed fields with ⟨before, d, after, span, rfl, hd, hb⟩ | hw
  · exact .inl ⟨before, d, after, span, rfl, hd, hb, fun s => s.mapping_malformed hb hd⟩
  · exact .inr (Style.mapping_restyled hw)

/-- Of the three hyphens one is the text's own, and the capital keeps its own form. -/
example : Style.kebab.convert "a-ℂ_B".toList = "a--ℂ_-b".toList ∧
    Style.snake.convert "a-ℂ_B".toList = "a-_ℂ__b".toList := by
  decide

end FieldKeys
