import FieldKeys.Expansion
import FieldKeys.Proofs.Record

/-! Which fault an item has. The stages are the kind of the item, its style, the attributes of all
its fields, and the mapping; a fault of one stage hides those of the later ones. -/

namespace FieldKeys

/-- An attribute that asks for a custom key with a list of arguments that are no expressions. -/
def Attribute.Unreadable (a : Attribute) : Prop :=
  a.isNamed Directive.customName = true ∧
    ∃ inside, a.form = .list inside ∧ Expression.listOfTokens? inside = none

def Attribute.Idle (a : Attribute) : Prop :=
  a.form = .bare ∨ a.form = .list []

/-- A field that is not ignored and whose first attribute for a custom key, at `span`, has no
argument. -/
def Field.Malformed (f : Field) (span : Span) : Prop :=
  ¬ f.Ignored ∧ ∃ a, f.customAttribute? = some a ∧ a.Idle ∧ a.span = span

/-- The fault of an item, by the stage that finds it. A fault in the arguments of a custom key does
not tell its place. -/
inductive Item.Fails (i : Item) : Fault → Prop
  | notStructure (hb : i.body = .noStructure) : Fails i (.notStructure i.span)
  | style {f : Fault} (hb : i.body ≠ .noStructure) (hs : Style.ofAttributes i.attributes = .error f) :
      Fails i f
  | unreadable {s : Style} {f : Field} {a : Attribute} (hb : i.body ≠ .noStructure)
      (hs : Style.ofAttributes i.attributes = .ok s) (hf : f ∈ i.fields) (ha : a ∈ f.attributes)
      (hu : a.Unreadable) : Fails i .illFormed
  | malformed {s : Style} {before after : List Field} {f : Field} {span : Span}
      (hb : i.body ≠ .noStructure) (hs : Style.ofAttributes i.attributes = .ok s)
      (hr : ∀ f ∈ i.fields, ∀ a ∈ f.attributes, ¬ a.Unreadable)
      (hi : i.fields = before ++ f :: after) (hf : f.Malformed span)
      (ho : ∀ g ∈ before, ∀ span, ¬ g.Malformed span) : Fails i (.malformedCustomKey span)

theorem labelled?_nil : labelled? [] = none := by
  decide +kernel

theorem customKey?_eq_none_iff {ts : List Token} :
    customKey? ts = none ↔ Expression.listOfTokens? ts = none :=
  Option.map_eq_none_iff

theorem customKey?_eq_some_none_iff {ts : List Token} :
    customKey? ts = some none ↔ ts = [] := by
  constructor
  · intro h
    obtain ⟨es, hes, hk⟩ := Option.map_eq_some_iff.mp h
    obtain ⟨-, hh⟩ := Option.or_eq_none_iff.mp hk
    obtain rfl := List.head?_eq_none_iff.mp hh
    cases ts with
    | nil => rfl
    | cons t ts =>
      rw [Expression.listOfTokens?, List.length_cons, Expression.readList?] at hes
      split at hes
      · simp at hes
      · split at hes <;> simp at hes
      · simp at hes
  · rintro rfl
    simp [customKey?, labelled?_nil, Expression.listOfTokens?, Expression.readList?]

theorem Directive.ofAttribute_eq_error_iff {a : Attribute} {f : Fault} :
    Directive.ofAttribute a = .error f ↔ a.Unreadable ∧ f = .illFormed := by
  unfold ofAttribute Attribute.Unreadable
  by_cases hi : a.isNamed Directive.ignoreName = true
  · have hc := Attribute.not_isNamed hi (show Directive.ignoreName ≠ Directive.customName by decide)
    simp [hi, hc]
  · cases hc : a.isNamed Directive.customName with
    | false => simp [hi]
    | true =>
      cases hf : a.form with
      | bare | value e => simp [hi]
      | list inside =>
        cases hk : customKey? inside with
        | some key =>
          have hl : Expression.listOfTokens? inside ≠ none := fun hl => by
            simp [customKey?_eq_none_iff.mpr hl] at hk
          simp [hi, hk, hl]
        | none => simp [hi, hk, customKey?_eq_none_iff.mp hk, eq_comm]

theorem Directive.ofAttribute_custom_none_iff {a : Attribute} {key : Option Expression} {span : Span}
    (h : Directive.ofAttribute a = .ok (.custom span key)) : key = none ↔ a.Idle := by
  unfold ofAttribute at h
  unfold Attribute.Idle
  split at h
  · simp at h
  · split at h
    · split at h
      · next hf =>
        obtain ⟨-, rfl⟩ := Directive.custom.inj (Except.ok.inj h)
        simp [hf]
      · next e hf =>
        obtain ⟨-, rfl⟩ := Directive.custom.inj (Except.ok.inj h)
        simp [hf]
      · next inside hf =>
        split at h
        · next key' hk =>
          obtain ⟨-, rfl⟩ := Directive.custom.inj (Except.ok.inj h)
          rw [hf]
          simpa [hk] using @customKey?_eq_some_none_iff inside
        · simp at h
    · simp at h

theorem Directive.ofAttributes_eq_error_iff {as : List Attribute} {f : Fault} :
    Directive.ofAttributes as = .error f ↔ (∃ a ∈ as, a.Unreadable) ∧ f = .illFormed := by
  induction as with
  | nil => simp [ofAttributes]
  | cons a as ih =>
    rw [ofAttributes]
    cases h : Directive.ofAttribute a with
    | error g =>
      obtain ⟨hu, rfl⟩ := ofAttribute_eq_error_iff.mp h
      simp [hu, eq_comm]
    | ok d =>
      have hn : ¬ a.Unreadable := fun hu => by
        simp [ofAttribute_eq_error_iff.mpr ⟨hu, rfl⟩] at h
      simp [hn, map_eq_error_iff, ih]

theorem Field.declaration_eq_error_iff {f : Field} {fault : Fault} :
    f.declaration = .error fault ↔ (∃ a ∈ f.attributes, a.Unreadable) ∧ fault = .illFormed := by
  rw [declaration, map_eq_error_iff, Directive.ofAttributes_eq_error_iff]

theorem Field.declarations_eq_error_iff {fields : List Field} {fault : Fault} :
    Field.declarations fields = .error fault ↔
      (∃ f ∈ fields, ∃ a ∈ f.attributes, a.Unreadable) ∧ fault = .illFormed := by
  induction fields with
  | nil => simp [declarations]
  | cons f fields ih =>
    rw [declarations]
    cases h : f.declaration with
    | error g =>
      obtain ⟨hu, rfl⟩ := declaration_eq_error_iff.mp h
      simp [hu, eq_comm]
    | ok d =>
      have hn : ¬ ∃ a ∈ f.attributes, a.Unreadable := fun hu => by
        simp [declaration_eq_error_iff.mpr ⟨hu, rfl⟩] at h
      simp only [List.exists_mem_cons_iff, hn, false_or, map_eq_error_iff, ih]

/-- The first custom key of a field is empty if the first attribute for one has no argument. -/
theorem Field.malformed_iff {f : Field} {d : Declaration} (h : f.declaration = .ok d) (span : Span) :
    d.Malformed span ↔ f.Malformed span := by
  refine and_congr (not_congr (ignored_iff h).symm) ?_
  cases hc : f.customAttribute? with
  | none =>
    have hn := noCustom h hc
    refine ⟨fun hf => absurd hn hf.not_noCustom, ?_⟩
    rintro ⟨a, ha, -⟩
    simp at ha
  | some a =>
    obtain ⟨key, ho, hf⟩ := firstCustom h hc
    have hidle := Directive.ofAttribute_custom_none_iff ho
    constructor
    · intro hf'
      obtain ⟨hs, hk⟩ := hf.unique hf'
      exact ⟨a, rfl, hidle.mp hk, hs⟩
    · rintro ⟨a', ha', hi, rfl⟩
      obtain rfl := Option.some.inj ha'
      obtain rfl := hidle.mpr hi
      exact hf

theorem Field.mapping_eq_error_iff {fields : List Field} {ds : List Declaration} (s : Style)
    (h : List.Forall₂ (fun f d => Field.declaration f = .ok d) fields ds) {fault : Fault} :
    (s.mapping ds).result = .error fault ↔
      ∃ before f after span, fields = before ++ f :: after ∧ f.Malformed span ∧
        (∀ g ∈ before, ∀ span, ¬ g.Malformed span) ∧ fault = .malformedCustomKey span := by
  constructor
  · intro he
    obtain ⟨before, d, after, span, rfl, hd, hb, rfl⟩ := s.malformed_of_mapping_error he
    obtain ⟨before', f, after', rfl, hbf, hf, -⟩ := forall₂_split h.flip
    refine ⟨before', f, after', span, rfl, (malformed_iff hf span).mp hd, fun g hg span' hm => ?_, rfl⟩
    obtain ⟨e, he, hge⟩ := forall₂_mem_right hbf hg
    exact hb e he span' ((malformed_iff hge span').mpr hm)
  · rintro ⟨before, f, after, span, rfl, hf, hb, rfl⟩
    obtain ⟨before', d, after', rfl, hbd, hd, -⟩ := forall₂_split h
    refine s.mapping_malformed (fun e he span' hm => ?_) ((malformed_iff hd span).mpr hf)
    obtain ⟨g, hg, hge⟩ := forall₂_mem_right hbd he
    exact hb g hg span' ((malformed_iff hge span').mp hm)

theorem Item.fields?_eq_none_iff {i : Item} : i.body.fields? = none ↔ i.body = .noStructure := by
  cases i.body <;> simp [Body.fields?]

theorem Item.mapping_notStructure {i : Item} (hb : i.body = .noStructure) :
    i.mapping.result = .error (.notStructure i.span) := by
  simp [mapping, record, fields?_eq_none_iff.mpr hb]

theorem Item.fields?_eq_some {i : Item} (hb : i.body ≠ .noStructure) :
    i.body.fields? = some i.fields := by
  cases hf : i.body.fields? with
  | none => exact absurd (fields?_eq_none_iff.mp hf) hb
  | some fields => simp [Item.fields, hf]

theorem Item.mapping_of_style_error {i : Item} {f : Fault} (hb : i.body ≠ .noStructure)
    (hs : Style.ofAttributes i.attributes = .error f) : i.mapping.result = .error f := by
  simp [mapping, record, fields?_eq_some hb, hs]

theorem Item.mapping_of_declarations_error {i : Item} {s : Style} {f : Fault}
    (hb : i.body ≠ .noStructure) (hs : Style.ofAttributes i.attributes = .ok s)
    (hd : Field.declarations i.fields = .error f) : i.mapping.result = .error f := by
  simp [mapping, record, fields?_eq_some hb, hs, hd, Except.map]

theorem Item.mapping_of_declarations {i : Item} {s : Style} {ds : List Declaration}
    (hb : i.body ≠ .noStructure) (hs : Style.ofAttributes i.attributes = .ok s)
    (hd : Field.declarations i.fields = .ok ds) :
    i.mapping.result = (s.mapping ds).result.map fun es =>
      ⟨⟨i.name, i.visibility, i.generics, s, ds⟩, es⟩ := by
  simp [mapping, record, fields?_eq_some hb, hs, hd, Except.map]

theorem Item.fails_of_mapping_error {i : Item} {f : Fault} (h : i.mapping.result = .error f) :
    i.Fails f := by
  by_cases hb : i.body = .noStructure
  · rw [mapping_notStructure hb] at h
    obtain rfl := Except.error.inj h
    exact .notStructure hb
  cases hs : Style.ofAttributes i.attributes with
  | error g =>
    rw [mapping_of_style_error hb hs] at h
    obtain rfl := Except.error.inj h
    exact .style hb hs
  | ok s =>
    cases hd : Field.declarations i.fields with
    | error g =>
      rw [mapping_of_declarations_error hb hs hd] at h
      obtain rfl := Except.error.inj h
      obtain ⟨⟨x, hx, a, ha, hu⟩, rfl⟩ := Field.declarations_eq_error_iff.mp hd
      exact .unreadable hb hs hx ha hu
    | ok ds =>
      rw [mapping_of_declarations hb hs hd, map_eq_error_iff,
        Field.mapping_eq_error_iff s (Field.declarations_ok hd)] at h
      obtain ⟨before, x, after, span, hi, hx, ho, rfl⟩ := h
      refine .malformed hb hs (fun g hg a ha hu => ?_) hi hx ho
      simp [Field.declarations_eq_error_iff.mpr ⟨⟨g, hg, a, ha, hu⟩, rfl⟩] at hd

theorem Item.mapping_of_fails {i : Item} {f : Fault} (h : i.Fails f) :
    i.mapping.result = .error f := by
  cases h with
  | notStructure hb => exact mapping_notStructure hb
  | style hb hs => exact mapping_of_style_error hb hs
  | unreadable hb hs hf ha hu =>
    exact mapping_of_declarations_error hb hs
      (Field.declarations_eq_error_iff.mpr ⟨⟨_, hf, _, ha, hu⟩, rfl⟩)
  | malformed hb hs hr hi hf ho =>
    cases hd : Field.declarations i.fields with
    | error g =>
      obtain ⟨⟨x, hx, a, ha, hu⟩, -⟩ := Field.declarations_eq_error_iff.mp hd
      exact absurd hu (hr x hx a ha)
    | ok ds =>
      rw [mapping_of_declarations hb hs hd, map_eq_error_iff,
        Field.mapping_eq_error_iff _ (Field.declarations_ok hd)]
      exact ⟨_, _, _, _, hi, hf, ho, rfl⟩

theorem Item.mapping_eq_error_iff {i : Item} {f : Fault} :
    i.mapping.result = .error f ↔ i.Fails f :=
  ⟨fails_of_mapping_error, mapping_of_fails⟩

theorem Item.expand_eq_error_iff {i : Item} {data : Bool} {f : Fault} :
    (i.expand data).result = .error f ↔ i.Fails f := by
  rw [expand, map_eq_error_iff, mapping_eq_error_iff]

theorem Record.expansion_ne_nil (r : Record) (data : Bool) (es : List Entry) :
    r.expansion data es ≠ [] := by
  simp [expansion, enumLexemes, op, operator]

/-- An item that is accepted has code if and only if one of its named fields is not ignored. -/
theorem Item.expand_eq_nil_iff {i : Item} {data : Bool} {code : List Lexeme}
    (h : (i.expand data).result = .ok code) : code = [] ↔ ∀ f ∈ i.fields, f.Ignored := by
  obtain ⟨m, hm, hc⟩ := exists_of_map_ok h
  cases he : m.entries with
  | none =>
    have hk : i.kept = [] := by
      by_contra hk
      obtain ⟨es, hs⟩ := mapping_isSome hm hk
      simp [he] at hs
    rw [he] at hc
    exact iff_of_true hc.symm (by simpa [kept] using hk)
  | some es =>
    have hk := kept_ne_nil hm he
    rw [he] at hc
    refine iff_of_false (fun hn => m.record.expansion_ne_nil data es (hc.trans hn)) fun hall => ?_
    exact hk (by simpa [kept] using hall)

theorem Item.expand_of_not_fails {i : Item} (data : Bool) (h : ∀ f, ¬ i.Fails f) :
    ∃ code, (i.expand data).result = .ok code ∧ (code = [] ↔ ∀ f ∈ i.fields, f.Ignored) := by
  cases hx : (i.expand data).result with
  | error f => exact absurd (expand_eq_error_iff.mp hx) (h f)
  | ok code => exact ⟨code, rfl, expand_eq_nil_iff hx⟩

/-- A structure without named fields has a style or a fault in it, and no code. -/
theorem Item.expand_unnamed {i : Item} (data : Bool) (hb : i.body = .tuple ∨ i.body = .unit) :
    (i.expand data).result = (Style.ofAttributes i.attributes).map fun _ => [] := by
  have hn : i.body ≠ .noStructure := by rcases hb with hb | hb <;> simp [hb]
  have hf : i.fields = [] := by rcases hb with hb | hb <;> simp [Item.fields, hb, Body.fields?]
  cases hs : Style.ofAttributes i.attributes with
  | error f => exact expand_eq_error_iff.mpr (.style hn hs)
  | ok s =>
    have hd : Field.declarations i.fields = .ok [] := by rw [hf, Field.declarations]
    rw [expand, mapping_of_declarations hn hs hd]
    rfl

/-- An item has the fault of the first stage that finds one, and then no code. Without a fault its
code is empty if and only if no named field is left. A structure without named fields has no
fault but one in its style. -/
theorem faults_in_stages (i : Item) (data : Bool) :
    (∀ f, (i.expand data).result = .error f ↔ i.Fails f) ∧
    (∀ f, i.mapping.result = .error f ↔ i.Fails f) ∧
    ((∀ f, ¬ i.Fails f) →
      ∃ code, (i.expand data).result = .ok code ∧ (code = [] ↔ ∀ f ∈ i.fields, f.Ignored)) ∧
    (i.body = .tuple ∨ i.body = .unit →
      (i.expand data).result = (Style.ofAttributes i.attributes).map fun _ => []) :=
  ⟨fun _ => Item.expand_eq_error_iff, fun _ => Item.mapping_eq_error_iff,
    Item.expand_of_not_fails data, Item.expand_unnamed data⟩

theorem faults_in_stages_pair :
    (∃ i, Item.ofText? "#[coding_keys(style = kebab_cased)] struct Pair(#[coding_key(=>)] u8);".toList =
        some i ∧ (i.expand true).result = .ok []) ∧
    ∃ i code, Item.ofText? "struct Row \x7b #[coding_key_ignored] #[coding_key] a: u8, b: u8 \x7d".toList =
        some i ∧ (i.expand true).result = .ok code ∧ code ≠ [] := by
  constructor
  · have h : (Item.ofText?
        "#[coding_keys(style = kebab_cased)] struct Pair(#[coding_key(=>)] u8);".toList).map (fun i =>
          (i.body matches .tuple, (Style.ofAttributes i.attributes).toOption)) =
        some (true, some .kebab) := by
      decide +kernel
    obtain ⟨i, hi, he⟩ := Option.map_eq_some_iff.mp h
    obtain ⟨hb, hs⟩ := Prod.mk.inj he
    have hb : i.body = .tuple := by cases hc : i.body <;> simp_all
    refine ⟨i, hi, ((faults_in_stages i true).2.2.2 (.inl hb)).trans ?_⟩
    cases hr : Style.ofAttributes i.attributes with
    | error f => simp [hr, Except.toOption] at hs
    | ok s => rfl
  · have h : (Item.ofText?
        "struct Row \x7b #[coding_key_ignored] #[coding_key] a: u8, b: u8 \x7d".toList).map (fun i =>
          (i.mapping.result.isOk, i.fields.map fun f => decide f.Ignored)) =
        some (true, [true, false]) := by
      decide +kernel
    obtain ⟨i, hi, he⟩ := Option.map_eq_some_iff.mp h
    obtain ⟨hm, hf⟩ := Prod.mk.inj he
    obtain ⟨m, hm⟩ := exists_of_isOk hm
    have hn : ∀ f, ¬ i.Fails f := fun f hx => by
      simp [Item.mapping_eq_error_iff.mpr hx] at hm
    obtain ⟨code, hx, hc⟩ := (faults_in_stages i true).2.2.1 hn
    refine ⟨i, code, hi, hx, fun hnil => ?_⟩
    obtain ⟨f, hmem, hd⟩ := List.mem_map.mp (hf ▸ (by decide : false ∈ [true, false]))
    exact absurd (hc.mp hnil f hmem) (by simpa using hd)

end FieldKeys
