import FieldKeys.Proofs.IgnoredFields
import FieldKeys.Proofs.OwnText

/-! What the span of a fault covers: its cause and nothing else. Read alone, the characters of the span
are the attribute that lacks an argument, the expression that names no style, or the item that is no
structure, and they have the same fault. -/

namespace FieldKeys

/-- Arguments in front that set styles, each with its comma, and what follows them. -/
inductive StylesInFront : List Token → List Token → Prop
  | nil (ts : List Token) : StylesInFront ts ts
  | cons {comma : Token} {ts left rest : List Token} {s : Style}
      (h : StyleInFront false ts s (comma :: left))
      (hc : isSign ',' comma = true) (hr : StylesInFront left rest) : StylesInFront ts rest

/-- The leftmost argument whose value names no style: the value is written `own`, before `rest`. -/
def LeftmostUnrecognized (inside : List Token) (x : Expression) (own rest : List Token) : Prop :=
  ∃ label equals, StylesInFront inside (label :: equals :: (own ++ rest)) ∧
    label.lexeme = .word StyleOption.argumentName ∧ isSign '=' equals = true ∧
    Expression.inFront? false (own ++ rest) = some (x, rest) ∧ ∀ s, ¬ x.NamesStyle s

def Item.LeftmostUnrecognized (i : Item) (x : Expression) (own rest : List Token) : Prop :=
  ∃ before a after styles inside,
    i.attributes.filter (·.isNamed StyleOption.attributeName) = before ++ a :: after ∧
    List.Forall₂ Attribute.Sets before styles ∧ a.form = .list inside ∧
    FieldKeys.LeftmostUnrecognized inside x own rest

theorem StyleInFront.suffix {whole : Bool} {ts rest : List Token} {s : Style}
    (h : StyleInFront whole ts s rest) : rest <:+ ts := by
  obtain ⟨label, equals, value, x, rfl, -, -, hx, -⟩ := h
  exact (Expression.inFront?_suffix hx).trans ((List.suffix_cons _ _).trans (List.suffix_cons _ _))

theorem StylesInFront.suffix {ts rest : List Token} (h : StylesInFront ts rest) : rest <:+ ts := by
  induction h with
  | nil ts => exact List.suffix_rfl
  | cons h _ _ ih => exact ih.trans ((List.suffix_cons _ _).trans h.suffix)

theorem ArgumentsFault.exists_value {ts : List Token} {f : Fault} {span : Span}
    (h : ArgumentsFault false ts f) (hf : f = .unrecognizedStyle span) :
    ∃ x own rest, LeftmostUnrecognized ts x own rest ∧ x.span = span := by
  induction h with
  | argument h =>
    cases h with
    | otherValue hl he hx hs =>
      obtain ⟨own, rfl⟩ := Expression.inFront?_suffix hx
      exact ⟨_, own, _, ⟨_, _, .nil _, hl, he, hx, hs⟩, Fault.unrecognizedStyle.inj hf⟩
    | _ => simp at hf
  | noComma => simp at hf
  | later h hc _ ih =>
    obtain ⟨x, own, left, ⟨label, equals, hfront, hx⟩, hspan⟩ := ih hf
    exact ⟨x, own, left, ⟨label, equals, .cons h hc hfront, hx⟩, hspan⟩

theorem Style.exists_value {i : Item} {span : Span}
    (h : Style.ofAttributes i.attributes = .error (.unrecognizedStyle span)) :
    ∃ x own rest, i.LeftmostUnrecognized x own rest ∧ x.span = span := by
  obtain ⟨before, a, after, styles, heq, hb, hf⟩ :=
    StyleOption.ofAttributes_eq_error_iff.mp (map_eq_error_iff.mp h)
  cases hf with
  | list hform hf =>
    obtain ⟨x, own, rest, hx, hspan⟩ := hf.exists_value rfl
    exact ⟨x, own, rest, ⟨before, a, after, styles, _, heq, hb, hform, hx⟩, hspan⟩

theorem ArgumentsFault.ne {ts : List Token} {f : Fault} (h : ArgumentsFault false ts f)
    (span : Span) : f ≠ .malformedCustomKey span ∧ f ≠ .notStructure span := by
  induction h with
  | argument h => cases h <;> simp
  | noComma => simp
  | later _ _ _ ih => exact ih

/-- A fault in the style of an item is never one of another stage. -/
theorem Style.ofAttributes_ne {as : List Attribute} {f : Fault} (h : Style.ofAttributes as = .error f)
    (span : Span) : f ≠ .malformedCustomKey span ∧ f ≠ .notStructure span := by
  obtain ⟨_, a, _, _, -, -, hf⟩ :=
    StyleOption.ofAttributes_eq_error_iff.mp (map_eq_error_iff.mp h)
  have hfault : ∀ g, a.StyleFault g → g ≠ .malformedCustomKey span ∧ g ≠ .notStructure span := by
    rintro g (- | ⟨-, hg⟩ | -)
    · simp
    · exact hg.ne span
    · simp
  exact hfault f hf

/-- What an attribute holds stands in the item as it is. -/
theorem Attribute.ReadIn.exists_inside {ts inside : List Token} {a : Attribute} (h : a.ReadIn ts)
    (hf : a.form = .list inside) : ∃ front back, ts = front ++ (inside ++ back) := by
  obtain ⟨own, rest, ⟨front, rfl⟩, hread⟩ := h
  obtain ⟨hash, bracket, path, form, last, rfl, hp⟩ := Attribute.read?_eq_some_iff.mp hread
  obtain ⟨used, rfl⟩ := Attribute.readPath?_suffix hp.path
  have hform := hp.form
  rw [hf] at hform
  rcases form with _ | ⟨opening, form⟩
  · simp [readForm?] at hform
  rcases Attribute.formCases opening with ho | ho | ⟨ho, he⟩
  · rw [readForm?_opening ho] at hform
    obtain ⟨⟨group, left⟩, hcut, hp⟩ := Option.map_eq_some_iff.mp hform
    obtain ⟨hinside, rfl⟩ := Prod.mk.inj hp
    obtain ⟨all, close, d, rfl, -⟩ := cutGroup_closing hcut
    obtain rfl : all = inside := by simpa using hinside
    rw [cutGroup_append hcut]
    exact ⟨front ++ hash :: bracket :: (used ++ [opening]), close :: last :: rest, by simp⟩
  · rw [readForm?_equals ho] at hform
    obtain ⟨r, -, hp⟩ := Option.map_eq_some_iff.mp hform
    simp at hp
  · rw [readForm?_bare ho he] at hform
    simp at hform

theorem Expression.NamesStyle.of_unplaced {x y : Expression} {s : Style} (h : x.NamesStyle s)
    (hxy : x.unplaced = y.unplaced) : y.NamesStyle s := by
  have halike : SameAnswer (Style.ofExpression x) (Style.ofExpression y) :=
    Style.ofExpression_alike (Expression.mk.inj hxy).1 (Expression.lexemes_unplaced hxy)
  rw [SameAnswer, Style.ofExpression_eq_ok_iff.mpr h] at halike
  cases hy : Style.ofExpression y with
  | ok s' =>
    rw [hy] at halike
    obtain rfl : s = s' := Except.ok.inj halike
    exact Style.ofExpression_eq_ok_iff.mp hy
  | error f => simp [hy, Except.mapError] at halike

/-- The tokens of an item, around those of its leftmost argument that names no style. -/
theorem Item.LeftmostUnrecognized.tokens {i : Item} {x : Expression} {ts own rest : List Token}
    (h : i.LeftmostUnrecognized x own rest) (hi : i.Written ts) : ∃ front label equals back,
      ts = front ++ [label, equals] ++ (own ++ (rest ++ back)) ∧
        label.lexeme = .word StyleOption.argumentName ∧ isSign '=' equals = true ∧
        Expression.inFront? false (own ++ rest) = some (x, rest) ∧ ∀ s, ¬ x.NamesStyle s := by
  obtain ⟨before, a, after, styles, inside, hf, -, hform, label, equals, hstyles, hl, he, hx⟩ := h
  have ha : a ∈ i.attributes :=
    (List.mem_filter.mp (hf ▸ List.mem_append_right before List.mem_cons_self)).1
  obtain ⟨front, back, rfl⟩ := (hi.attributes a ha).exists_inside hform
  obtain ⟨used, rfl⟩ := hstyles.suffix
  exact ⟨front ++ used, label, equals, back, by simp, hl, he, hx⟩

theorem Field.customAttribute?_named {f : Field} {a : Attribute} (h : f.customAttribute? = some a) :
    a ∈ f.attributes ∧ a.isNamed Directive.customName = true :=
  ⟨List.mem_of_find?_eq_some h, by simpa using List.find?_some h⟩

theorem Item.malformed_slice {text : Text} {i : Item} {span : Span} (hi : Item.ofText? text = some i)
    (h : i.mapping.result = .error (.malformedCustomKey span)) : ∃ before f a b,
      Field.FirstMalformed i.fields before f span ∧ f.customAttribute? = some a ∧ a.span = span ∧
      Attribute.listOfText? (span.slice text) = some [b] ∧ b.unplaced = a.unplaced ∧
      b.isNamed Directive.customName = true ∧ b.Idle ∧ b.span = (span.slice text).extent := by
  obtain ⟨ts, hts, hi⟩ := Option.bind_eq_some_iff.mp hi
  cases fails_of_mapping_error h with
  | style _ hs => exact absurd rfl (Style.ofAttributes_ne hs span).1
  | malformed hb _ _ hfields hf ho =>
    obtain ⟨hignored, a, ha, hidle, rfl⟩ := hf
    obtain ⟨hmem, hnamed⟩ := Field.customAttribute?_named ha
    have hw := (ofTokens?_written hi).body _ (fields?_eq_some hb) _
      (hfields ▸ List.mem_append_right _ List.mem_cons_self)
    obtain ⟨b, hlist, hsame, hspan⟩ := (hw.attributes a hmem).listOfText?_slice hts
    exact ⟨_, _, a, b, ⟨⟨_, hfields⟩, ⟨hignored, a, ha, hidle, rfl⟩, ho⟩, ha, rfl, hlist, hsame,
      (Attribute.isNamed_congr hsame _).trans hnamed, hidle.of_unplaced hsame.symm, hspan⟩

theorem Item.unrecognized_slice {text : Text} {i : Item} {span : Span} (hi : Item.ofText? text = some i)
    (h : i.mapping.result = .error (.unrecognizedStyle span)) : ∃ x own rest,
      i.LeftmostUnrecognized x own rest ∧ x.span = span ∧
      ((∃ y, Expression.ofText? (span.slice text) = some y ∧ y.unplaced = x.unplaced ∧
          Style.ofExpression y = .error (.unrecognizedStyle (span.slice text).extent)) ∨
        Expression.ofText? (span.slice text) = none ∧
          (EndsInTry own ∧ inputsAhead.holds rest = true ∨ x.LeftOver own)) := by
  obtain ⟨ts, hts, hi⟩ := Option.bind_eq_some_iff.mp hi
  cases fails_of_mapping_error h with
  | style _ hs =>
    obtain ⟨x, own, rest, hx, rfl⟩ := Style.exists_value hs
    obtain ⟨front, label, equals, back, rfl, hl, he, hread, hno⟩ := hx.tokens (ofTokens?_written hi)
    refine ⟨x, own, rest, hx, rfl, ?_⟩
    rcases Expression.ofText?_slice hts hl (by decide) he hread with ⟨y, hy, hsame, hspan⟩ | hnone
    · left
      exact ⟨y, hy, hsame, Style.ofExpression_eq_error_iff.mpr
        ⟨fun s hs => hno s (hs.of_unplaced hsame), by rw [hspan]⟩⟩
    · exact .inr hnone

theorem Item.notStructure_slice {text : Text} {i : Item} {span : Span} (hi : Item.ofText? text = some i)
    (h : i.mapping.result = .error (.notStructure span)) : ∃ j, Item.ofText? (span.slice text) = some j ∧
      j.mapping.result = .error (.notStructure (span.slice text).extent) := by
  cases fails_of_mapping_error h with
  | notStructure hb =>
    obtain ⟨j, hj, hbody, hspan⟩ := ofText?_slice hi hb
    exact ⟨j, hj, hspan ▸ mapping_notStructure hbody⟩
  | style _ hs => exact absurd rfl (Style.ofAttributes_ne hs span).2

theorem Item.exists_of_fault {text : Text} {f : Fault}
    (h : (Item.ofText? text).map (fun i => i.mapping.result.map fun _ => ()) = some (.error f)) :
    ∃ i, Item.ofText? text = some i ∧ i.mapping.result = .error f := by
  obtain ⟨i, hi, hm⟩ := Option.map_eq_some_iff.mp h
  exact ⟨i, hi, map_eq_error_iff.mp hm⟩

/-- The slice that the span of a fault covers, wherever comments, line breaks and other scripts stand,
is its cause: the first attribute of the first malformed field, the leftmost value that names no style,
or the item itself. Read alone it has the same fault, with a span over all of it. A value alone may be
no expression where it ends in a `try` that is a path only before a double colon, or where something is
left over in its groups. -/
theorem fault_spans_cover_cause {text : Text} {i : Item} (hi : Item.ofText? text = some i) :
    (∀ span, i.mapping.result = .error (.malformedCustomKey span) → ∃ before f a b,
      Field.FirstMalformed i.fields before f span ∧ f.customAttribute? = some a ∧ a.span = span ∧
      Attribute.listOfText? (span.slice text) = some [b] ∧ b.unplaced = a.unplaced ∧
      b.isNamed Directive.customName = true ∧ b.Idle ∧ b.span = (span.slice text).extent) ∧
    (∀ span, i.mapping.result = .error (.unrecognizedStyle span) → ∃ x own rest,
      i.LeftmostUnrecognized x own rest ∧ x.span = span ∧
      ((∃ y, Expression.ofText? (span.slice text) = some y ∧ y.unplaced = x.unplaced ∧
          Style.ofExpression y = .error (.unrecognizedStyle (span.slice text).extent)) ∨
        Expression.ofText? (span.slice text) = none ∧
          (EndsInTry own ∧ inputsAhead.holds rest = true ∨ x.LeftOver own))) ∧
    ∀ span, i.mapping.result = .error (.notStructure span) → ∃ j,
      Item.ofText? (span.slice text) = some j ∧
      j.mapping.result = .error (.notStructure (span.slice text).extent) :=
  ⟨fun _ => Item.malformed_slice hi, fun _ => Item.unrecognized_slice hi,
    fun _ => Item.notStructure_slice hi⟩

theorem fault_spans_cover_cause_layouts :
    (∃ i span b, Item.ofText? ("struct Größe \x7b /* ä\n */ #[coding_key_ignored] ".toList ++
        "#[coding_key] a: u8,\n #[coding_key /* ö */ ()] b: u8 \x7d".toList) = some i ∧
      i.mapping.result = .error (.malformedCustomKey span) ∧
      Attribute.listOfText? "#[coding_key /* ö */ ()]".toList = some [b] ∧ b.Idle) ∧
    (∃ i span y, Item.ofText? ("/* Maße\n */ #[coding_keys(style = \"kebab_cased\", ".toList ++
        "style /* ü */ = \"grö\\\n ße\" /* ä */)] struct A;".toList) = some i ∧
      i.mapping.result = .error (.unrecognizedStyle span) ∧
      Expression.ofText? "\"grö\\\n ße\"".toList = some y ∧
      Style.ofExpression y = .error (.unrecognizedStyle ⟨⟨1, 0⟩, ⟨2, 4⟩⟩)) ∧
    ∃ i span j, Item.ofText? ("// Größe\n #[doc = \"ä\"] ".toList ++
        "enum /* ö */ Maß\n\x7b Ä, Ö \x7d /* ü */".toList) = some i ∧
      i.mapping.result = .error (.notStructure span) ∧
      Item.ofText? "#[doc = \"ä\"] enum /* ö */ Maß\n\x7b Ä, Ö \x7d".toList = some j ∧
      j.mapping.result = .error (.notStructure ⟨⟨1, 0⟩, ⟨2, 8⟩⟩) := by
  refine ⟨?_, ?_, ?_⟩
  · have h : (Item.ofText? ("struct Größe \x7b /* ä\n */ #[coding_key_ignored] ".toList ++
        "#[coding_key] a: u8,\n #[coding_key /* ö */ ()] b: u8 \x7d".toList)).map
          (fun i => i.mapping.result.map fun _ => ()) =
        some (.error (.malformedCustomKey ⟨⟨3, 1⟩, ⟨3, 25⟩⟩)) := by
      decide +kernel
    have hslice : Span.slice ⟨⟨3, 1⟩, ⟨3, 25⟩⟩ ("struct Größe \x7b /* ä\n */ #[coding_key_ignored] ".toList ++
        "#[coding_key] a: u8,\n #[coding_key /* ö */ ()] b: u8 \x7d".toList) =
        "#[coding_key /* ö */ ()]".toList := by
      decide +kernel
    obtain ⟨i, hi, hm⟩ := Item.exists_of_fault h
    have hspans := (fault_spans_cover_cause hi).1 _ hm
    rw [hslice] at hspans
    obtain ⟨_, _, _, b, -, -, -, hb, -, -, hidle, -⟩ := hspans
    exact ⟨i, _, b, hi, hm, hb, hidle⟩
  · have h : (Item.ofText? ("/* Maße\n */ #[coding_keys(style = \"kebab_cased\", ".toList ++
        "style /* ü */ = \"grö\\\n ße\" /* ä */)] struct A;".toList)).map
          (fun i => i.mapping.result.map fun _ => ()) =
        some (.error (.unrecognizedStyle ⟨⟨2, 57⟩, ⟨3, 4⟩⟩)) := by
      decide +kernel
    have hslice : Span.slice ⟨⟨2, 57⟩, ⟨3, 4⟩⟩ ("/* Maße\n */ #[coding_keys(style = \"kebab_cased\", ".toList ++
        "style /* ü */ = \"grö\\\n ße\" /* ä */)] struct A;".toList) = "\"grö\\\n ße\"".toList := by
      decide +kernel
    have hread : (Expression.ofText? "\"grö\\\n ße\"".toList).isSome = true := by
      decide +kernel
    obtain ⟨i, hi, hm⟩ := Item.exists_of_fault h
    have hspans := (fault_spans_cover_cause hi).2.1 _ hm
    rw [hslice] at hspans
    obtain ⟨_, _, _, -, -, ⟨y, hy, -, hs⟩ | ⟨hnone, -⟩⟩ := hspans
    · exact ⟨i, _, y, hi, hm, hy, hs⟩
    · exact absurd hnone (Option.isSome_iff_ne_none.mp hread)
  · have h : (Item.ofText? ("// Größe\n #[doc = \"ä\"] ".toList ++
        "enum /* ö */ Maß\n\x7b Ä, Ö \x7d /* ü */".toList)).map
          (fun i => i.mapping.result.map fun _ => ()) =
        some (.error (.notStructure ⟨⟨2, 1⟩, ⟨3, 8⟩⟩)) := by
      decide +kernel
    have hslice : Span.slice ⟨⟨2, 1⟩, ⟨3, 8⟩⟩ ("// Größe\n #[doc = \"ä\"] ".toList ++
        "enum /* ö */ Maß\n\x7b Ä, Ö \x7d /* ü */".toList) =
        "#[doc = \"ä\"] enum /* ö */ Maß\n\x7b Ä, Ö \x7d".toList := by
      decide +kernel
    obtain ⟨i, hi, hm⟩ := Item.exists_of_fault h
    have hspans := (fault_spans_cover_cause hi).2.2 _ hm
    rw [hslice] at hspans
    obtain ⟨j, hj, hs⟩ := hspans
    exact ⟨i, _, j, hi, hm, hj, hs⟩

/-- A `try` is a path before a double colon, but none by itself, and an index is an expression up to
what is left over in its brackets. -/
theorem values_unreadable_alone :
    (∃ i span, Item.ofText? "#[coding_keys(style = try::(1))] struct S \x7b a: u8 \x7d".toList = some i ∧
      i.mapping.result = .error (.unrecognizedStyle span) ∧
      span.slice "#[coding_keys(style = try::(1))] struct S \x7b a: u8 \x7d".toList = "try".toList ∧
      Expression.ofText? "try".toList = none) ∧
    ∃ i span, Item.ofText? "#[coding_keys(style = a[b c])] struct S \x7b a: u8 \x7d".toList = some i ∧
      i.mapping.result = .error (.unrecognizedStyle span) ∧
      span.slice "#[coding_keys(style = a[b c])] struct S \x7b a: u8 \x7d".toList = "a[b c]".toList ∧
      Expression.ofText? "a[b c]".toList = none := by
  constructor
  · have h : (Item.ofText? "#[coding_keys(style = try::(1))] struct S \x7b a: u8 \x7d".toList).map
        (fun i => i.mapping.result.map fun _ => ()) =
        some (.error (.unrecognizedStyle ⟨⟨1, 22⟩, ⟨1, 25⟩⟩)) := by
      decide +kernel
    obtain ⟨i, hi, hm⟩ := Item.exists_of_fault h
    exact ⟨i, _, hi, hm, by decide +kernel, by decide +kernel⟩
  · have h : (Item.ofText? "#[coding_keys(style = a[b c])] struct S \x7b a: u8 \x7d".toList).map
        (fun i => i.mapping.result.map fun _ => ()) =
        some (.error (.unrecognizedStyle ⟨⟨1, 22⟩, ⟨1, 28⟩⟩)) := by
      decide +kernel
    obtain ⟨i, hi, hm⟩ := Item.exists_of_fault h
    exact ⟨i, _, hi, hm, by decide +kernel, by decide +kernel⟩

end FieldKeys
