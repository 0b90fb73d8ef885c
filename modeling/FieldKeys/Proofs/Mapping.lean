import FieldKeys.Mapping
import FieldKeys.Proofs.Conversion
import Mathlib.Data.List.Forall2

/-! The mapping of a record, said of its declarations as they stand: which field makes it fail,
and which entries it has otherwise. -/

namespace FieldKeys

/-- The first custom key among directives, whatever stands around it. -/
def FirstCustom (ds : List Directive) (span : Span) (key : Option Expression) : Prop :=
  ∃ before after, ds = before ++ .custom span key :: after ∧
    ∀ span' key', Directive.custom span' key' ∉ before

def NoCustom (ds : List Directive) : Prop :=
  ∀ span key, Directive.custom span key ∉ ds

def Declaration.Ignored (d : Declaration) : Prop :=
  Directive.ignore ∈ d.directives

instance (d : Declaration) : Decidable d.Ignored :=
  inferInstanceAs (Decidable (Directive.ignore ∈ d.directives))

/-- A field that is not ignored and whose first custom key, at `span`, is empty. -/
def Declaration.Malformed (d : Declaration) (span : Span) : Prop :=
  ¬ d.Ignored ∧ FirstCustom d.directives span none

/-- The key of an entry: the first custom key, else the converted name if the name has an
uppercase character, else none. -/
inductive Declaration.Keyed (s : Style) (d : Declaration) : Option Key → Prop
  | custom {span : Span} {e : Expression} (h : FirstCustom d.directives span (some e)) :
      Keyed s d (some (.custom e))
  | same (h : NoCustom d.directives) (hu : ∀ c ∈ unescape d.name, isUppercase c = false) :
      Keyed s d none
  | derived (h : NoCustom d.directives) {c : Char} (hc : c ∈ unescape d.name)
      (hu : isUppercase c = true) : Keyed s d (some (.derived (s.convert (unescape d.name))))

def Declaration.Gives (s : Style) (d : Declaration) (e : Entry) : Prop :=
  e.field = d.name ∧ d.Keyed s e.key

theorem firstCustom?_eq_none_iff {ds : List Directive} :
    firstCustom? ds = none ↔ NoCustom ds := by
  induction ds with
  | nil => simp [firstCustom?, NoCustom]
  | cons d ds ih =>
    cases d with
    | custom span key =>
      simp only [firstCustom?, reduceCtorEq, false_iff]
      exact fun h => h span key (by simp)
    | ignore | other => simpa [firstCustom?, NoCustom] using ih

theorem firstCustom?_eq_some_iff {ds : List Directive} {span : Span} {key : Option Expression} :
    firstCustom? ds = some (span, key) ↔ FirstCustom ds span key := by
  constructor
  · intro h
    induction ds with
    | nil => simp [firstCustom?] at h
    | cons d ds ih =>
      cases d with
      | custom span' key' =>
        obtain ⟨rfl, rfl⟩ : span' = span ∧ key' = key := by simpa [firstCustom?] using h
        exact ⟨[], ds, rfl, by simp⟩
      | ignore | other =>
        obtain ⟨before, after, rfl, hb⟩ := ih h
        exact ⟨_ :: before, after, rfl, by simpa using hb⟩
  · rintro ⟨before, after, rfl, hb⟩
    induction before with
    | nil => rfl
    | cons d before ih =>
      have hh := ih (fun span' key' hm => hb span' key' (by simp [hm]))
      cases d with
      | custom span' key' => exact absurd (by simp) (hb span' key')
      | ignore | other => exact hh

theorem FirstCustom.unique {ds : List Directive} {span span' : Span}
    {key key' : Option Expression} (h : FirstCustom ds span key)
    (h' : FirstCustom ds span' key') : span = span' ∧ key = key' := by
  rw [← firstCustom?_eq_some_iff] at h h'
  simpa [h] using h'

theorem FirstCustom.not_noCustom {ds : List Directive} {span : Span} {key : Option Expression}
    (h : FirstCustom ds span key) : ¬ NoCustom ds := by
  rw [← firstCustom?_eq_some_iff] at h
  rw [← firstCustom?_eq_none_iff, h]
  simp

theorem any_isIgnore_iff {ds : List Directive} :
    ds.any Directive.isIgnore = true ↔ Directive.ignore ∈ ds := by
  induction ds with
  | nil => simp
  | cons d ds ih => cases d <;> simp [Directive.isIgnore, ih]

theorem Declaration.resolve_ignored {d : Declaration} (h : d.Ignored) : d.resolve = .ok .skip := by
  simp [resolve, any_isIgnore_iff.mpr h]

theorem Declaration.resolve_of_not_ignored {d : Declaration} (h : ¬ d.Ignored) :
    d.resolve = match firstCustom? d.directives with
      | some (_, some e) => .ok (.rename (.custom e))
      | some (span, none) => .error (.malformedCustomKey span)
      | none => .ok .keep := by
  have hi : ¬ d.directives.any Directive.isIgnore = true := fun hh => h (any_isIgnore_iff.mp hh)
  unfold resolve
  exact if_neg hi

theorem Declaration.resolve_malformed {d : Declaration} {span : Span} (h : d.Malformed span) :
    d.resolve = .error (.malformedCustomKey span) := by
  rw [resolve_of_not_ignored h.1, firstCustom?_eq_some_iff.mpr h.2]

theorem Style.normalize_eq_iff (s : Style) (field : Text) :
    s.normalize field = unescape field ↔ ∀ c ∈ unescape field, isUppercase c = false :=
  s.convert_eq_self_iff _

theorem Style.derived?_same (s : Style) {field : Text}
    (h : ∀ c ∈ unescape field, isUppercase c = false) : s.derived? field = none := by
  rw [derived?, if_pos ((s.normalize_eq_iff _).mpr h)]

theorem Style.derived?_derived (s : Style) {field : Text} {c : Char}
    (hc : c ∈ unescape field) (hu : isUppercase c = true) :
    s.derived? field = some (.derived (s.convert (unescape field))) := by
  have hn : ¬ s.normalize field = unescape field := fun h => by
    simp [(s.normalize_eq_iff _).mp h c hc] at hu
  rw [derived?, if_neg hn]
  rfl

/-- A field that is neither ignored nor malformed gets an entry. -/
theorem Declaration.resolve_gives (s : Style) {d : Declaration} (hi : ¬ d.Ignored)
    (hm : ∀ span, ¬ d.Malformed span) :
    ∃ disposition e, d.resolve = .ok disposition ∧ Entry.of s d.name disposition = some e ∧
      d.Gives s e := by
  rw [resolve_of_not_ignored hi]
  cases hc : firstCustom? d.directives with
  | some c =>
    obtain ⟨span, key⟩ := c
    have hf := firstCustom?_eq_some_iff.mp hc
    cases key with
    | some e => exact ⟨_, ⟨d.name, some (.custom e)⟩, rfl, rfl, rfl, .custom hf⟩
    | none => exact absurd ⟨hi, hf⟩ (hm span)
  | none =>
    have hn := firstCustom?_eq_none_iff.mp hc
    refine ⟨_, ⟨d.name, s.derived? d.name⟩, rfl, rfl, rfl, ?_⟩
    by_cases hu : ∀ c ∈ unescape d.name, isUppercase c = false
    · simpa only [s.derived?_same hu] using Keyed.same hn hu
    · obtain ⟨c, hc, hu⟩ : ∃ c ∈ unescape d.name, isUppercase c = true := by simpa using hu
      simpa only [s.derived?_derived hc hu] using Keyed.derived hn hc hu

theorem Declaration.Keyed.unique {s : Style} {d : Declaration} {k k' : Option Key}
    (h : d.Keyed s k) (h' : d.Keyed s k') : k = k' := by
  cases h with
  | custom h =>
    cases h' with
    | custom h' => rw [Option.some.inj (h.unique h').2]
    | same h' | derived h' => exact absurd h' h.not_noCustom
  | same h hu =>
    cases h' with
    | custom h' => exact absurd h h'.not_noCustom
    | same => rfl
    | derived _ hc hu' => simp [hu _ hc] at hu'
  | derived h hc hu =>
    cases h' with
    | custom h' => exact absurd h h'.not_noCustom
    | same _ hu' => simp [hu' _ hc] at hu
    | derived => rfl

theorem Declaration.Gives.unique {s : Style} {d : Declaration} {e e' : Entry}
    (h : d.Gives s e) (h' : d.Gives s e') : e = e' := by
  obtain ⟨field, key⟩ := e
  obtain ⟨field', key'⟩ := e'
  obtain ⟨rfl, hk⟩ := h
  obtain ⟨rfl, hk'⟩ := h'
  exact congrArg _ (hk.unique hk')

theorem Style.entries_malformed (s : Style) {before after : List Declaration} {d : Declaration}
    {span : Span} (hb : ∀ e ∈ before, ∀ span, ¬ e.Malformed span) (hd : d.Malformed span) :
    (s.entries (before ++ d :: after)).result = .error (.malformedCustomKey span) := by
  induction before with
  | nil => simp [entries, Declaration.resolve_malformed hd]
  | cons e before ih =>
    have hh := ih (fun x hx => hb x (by simp [hx]))
    by_cases hi : e.Ignored
    · simp [entries, Declaration.resolve_ignored hi, Entry.of, hh]
    · obtain ⟨disposition, entry, hr, ho, -⟩ :=
        Declaration.resolve_gives s hi (hb e (by simp))
      simp [entries, hr, ho, hh, Except.map]

theorem Style.entries_wellFormed (s : Style) {fields : List Declaration}
    (h : ∀ d ∈ fields, ∀ span, ¬ d.Malformed span) :
    ∃ es, (s.entries fields).result = .ok es ∧
      List.Forall₂ (Declaration.Gives s) (fields.filter fun d => ¬ d.Ignored) es := by
  induction fields with
  | nil => exact ⟨[], rfl, .nil⟩
  | cons d ds ih =>
    obtain ⟨es, he, hf⟩ := ih (fun x hx => h x (by simp [hx]))
    by_cases hi : d.Ignored
    · refine ⟨es, by simp [entries, Declaration.resolve_ignored hi, Entry.of, he], ?_⟩
      rwa [List.filter_cons_of_neg (by simpa using hi)]
    · obtain ⟨disposition, e, hr, ho, hg⟩ := Declaration.resolve_gives s hi (h d (by simp))
      refine ⟨e :: es, by simp [entries, hr, ho, he, Except.map], ?_⟩
      rw [List.filter_cons_of_pos (by simpa using hi)]
      exact .cons hg hf

theorem exists_first_malformed (fields : List Declaration) :
    (∃ before d after span, fields = before ++ d :: after ∧ d.Malformed span ∧
      ∀ e ∈ before, ∀ span, ¬ e.Malformed span) ∨
    ∀ d ∈ fields, ∀ span, ¬ d.Malformed span := by
  induction fields with
  | nil => exact .inr (by simp)
  | cons d ds ih =>
    by_cases hd : ∃ span, d.Malformed span
    · obtain ⟨span, hs⟩ := hd
      exact .inl ⟨[], d, ds, span, rfl, hs, by simp⟩
    · have hn : ∀ span, ¬ d.Malformed span := fun span hs => hd ⟨span, hs⟩
      rcases ih with ⟨before, e, after, span, rfl, hs, hb⟩ | hw
      · refine .inl ⟨d :: before, e, after, span, rfl, hs, ?_⟩
        simpa using ⟨hn, hb⟩
      · exact .inr (by simpa using ⟨hn, hw⟩)

theorem forall₂_gives_unique {s : Style} {ds : List Declaration} {es es' : List Entry}
    (h : List.Forall₂ (Declaration.Gives s) ds es)
    (h' : List.Forall₂ (Declaration.Gives s) ds es') : es = es' := by
  induction h generalizing es' with
  | nil => exact (List.forall₂_nil_left_iff.mp h').symm
  | cons hg _ ih =>
    obtain ⟨e, rest, hg', hr, rfl⟩ := List.forall₂_cons_left_iff.mp h'
    rw [hg.unique hg', ih hr]

theorem Style.mapping_malformed (s : Style) {before after : List Declaration} {d : Declaration}
    {span : Span} (hb : ∀ e ∈ before, ∀ span, ¬ e.Malformed span) (hd : d.Malformed span) :
    (s.mapping (before ++ d :: after)).result = .error (.malformedCustomKey span) := by
  simp [mapping, s.entries_malformed hb hd, Except.map]

theorem Style.mapping_some (s : Style) {fields : List Declaration}
    (h : ∀ d ∈ fields, ∀ span, ¬ d.Malformed span) (hk : ∃ d ∈ fields, ¬ d.Ignored) :
    ∃ es, (s.mapping fields).result = .ok (some es) ∧
      List.Forall₂ (Declaration.Gives s) (fields.filter fun d => ¬ d.Ignored) es := by
  obtain ⟨es, he, hf⟩ := s.entries_wellFormed h
  obtain ⟨d, hd, hi⟩ := hk
  have hm : d ∈ fields.filter fun d => ¬ d.Ignored := by simp [hd, hi]
  have hl : 0 < es.length := by
    rw [← hf.length_eq]
    exact List.length_pos_of_mem hm
  refine ⟨es, ?_, hf⟩
  cases es with
  | nil => simp at hl
  | cons e es => simp [mapping, he, Except.map]

theorem Style.mapping_none (s : Style) {fields : List Declaration} (h : ∀ d ∈ fields, d.Ignored) :
    (s.mapping fields).result = .ok none := by
  have hw : ∀ d ∈ fields, ∀ span, ¬ d.Malformed span := fun d hd span hm => hm.1 (h d hd)
  obtain ⟨es, he, hf⟩ := s.entries_wellFormed hw
  have hn : fields.filter (fun d => ¬ d.Ignored) = [] := by simpa using h
  rw [hn, List.forall₂_nil_left_iff] at hf
  simp [mapping, he, hf, Except.map]

theorem Style.not_malformed_of_mapping_ok (s : Style) {fields : List Declaration}
    {answer : Option (List Entry)} (h : (s.mapping fields).result = .ok answer) :
    ∀ d ∈ fields, ∀ span, ¬ d.Malformed span := by
  rcases exists_first_malformed fields with ⟨before, d, after, span, rfl, hd, hb⟩ | hw
  · simp [s.mapping_malformed hb hd] at h
  · exact hw

theorem Style.mapping_gives (s : Style) {fields : List Declaration} {es : List Entry}
    (h : (s.mapping fields).result = .ok (some es)) :
    List.Forall₂ (Declaration.Gives s) (fields.filter fun d => ¬ d.Ignored) es := by
  obtain ⟨es', he, hf⟩ := s.entries_wellFormed (s.not_malformed_of_mapping_ok h)
  simp only [mapping, he, Except.map] at h
  split at h
  · simp at h
  · obtain rfl : es' = es := by simpa using h
    exact hf

theorem Style.exists_of_mapping_some (s : Style) {fields : List Declaration} {es : List Entry}
    (h : (s.mapping fields).result = .ok (some es)) : ∃ d ∈ fields, ¬ d.Ignored := by
  by_contra hk
  have ha : ∀ d ∈ fields, d.Ignored := by simpa using hk
  simp [s.mapping_none ha] at h

theorem Style.ignored_of_mapping_none (s : Style) {fields : List Declaration}
    (h : (s.mapping fields).result = .ok none) : ∀ d ∈ fields, d.Ignored := by
  by_contra hk
  obtain ⟨es, he, -⟩ := s.mapping_some (s.not_malformed_of_mapping_ok h) (by simpa using hk)
  simp [he] at h

theorem Style.malformed_of_mapping_error (s : Style) {fields : List Declaration} {f : Fault}
    (h : (s.mapping fields).result = .error f) :
    ∃ before d after span, fields = before ++ d :: after ∧ d.Malformed span ∧
      (∀ e ∈ before, ∀ span, ¬ e.Malformed span) ∧ f = .malformedCustomKey span := by
  rcases exists_first_malformed fields with ⟨before, d, after, span, rfl, hd, hb⟩ | hw
  · rw [s.mapping_malformed hb hd] at h
    exact ⟨before, d, after, span, rfl, hd, hb, (Except.error.inj h).symm⟩
  · obtain ⟨es, he, -⟩ := s.entries_wellFormed hw
    simp [mapping, he, Except.map] at h

/-- The mapping fails at the first malformed field and nowhere else. Without a malformed field
it has one entry for every field that is not ignored, in their order, and it is none if there is
no such field. -/
theorem mapping_result_iff (s : Style) (fields : List Declaration) :
    (∀ f, (s.mapping fields).result = .error f ↔
      ∃ before d after span, fields = before ++ d :: after ∧ d.Malformed span ∧
        (∀ e ∈ before, ∀ span, ¬ e.Malformed span) ∧ f = .malformedCustomKey span) ∧
    (∀ es, (s.mapping fields).result = .ok (some es) ↔
      (∀ d ∈ fields, ∀ span, ¬ d.Malformed span) ∧ (∃ d ∈ fields, ¬ d.Ignored) ∧
        List.Forall₂ (Declaration.Gives s) (fields.filter fun d => ¬ d.Ignored) es) ∧
    ((s.mapping fields).result = .ok none ↔ ∀ d ∈ fields, d.Ignored) := by
  refine ⟨fun f => ⟨s.malformed_of_mapping_error, ?_⟩, fun es => ⟨fun h => ?_, ?_⟩,
    s.ignored_of_mapping_none, s.mapping_none⟩
  · rintro ⟨before, d, after, span, rfl, hd, hb, rfl⟩
    exact s.mapping_malformed hb hd
  · exact ⟨s.not_malformed_of_mapping_ok h, s.exists_of_mapping_some h, s.mapping_gives h⟩
  · rintro ⟨hw, hk, hf⟩
    obtain ⟨es', he, hf'⟩ := s.mapping_some hw hk
    rw [he, forall₂_gives_unique hf hf']

end FieldKeys
