import FieldKeys.Proofs.Grammar.NamePath
import FieldKeys.Record
import Mathlib.Data.List.Forall2

/-! The style of a record, said of the arguments of its attributes as they stand: the last style
that is set, and the standard one if none is. -/

namespace FieldKeys

variable {whole : Bool}

/-- The style that an expression names by a word or a string. -/
def Expression.NamesStyle (x : Expression) (s : Style) : Prop :=
  ∃ name, (x.name? = some name ∨ x.stringValue? = some name) ∧ Style.ofName? name = some s

/-- Arguments that all set a style, with commas between them and perhaps one at the end. If groups
are not read as a `whole`, something may be left over in those of the values. -/
inductive StyleArguments (whole : Bool) : List Token → List Style → Prop
  | nil : StyleArguments whole [] []
  | last {label equals : Token} {value : List Token} {x : Expression} {s : Style}
      (hl : label.lexeme = .word StyleOption.argumentName) (he : isSign '=' equals = true)
      (hx : Expression.inFront? whole value = some (x, [])) (hs : x.NamesStyle s) :
      StyleArguments whole (label :: equals :: value) [s]
  | more {label equals comma : Token} {value others : List Token} {x : Expression} {s : Style}
      {ss : List Style} (hl : label.lexeme = .word StyleOption.argumentName)
      (he : isSign '=' equals = true)
      (hx : Expression.inFront? whole value = some (x, comma :: others)) (hs : x.NamesStyle s)
      (hc : isSign ',' comma = true) (ho : StyleArguments whole others ss) :
      StyleArguments whole (label :: equals :: value) (s :: ss)

inductive Attribute.Sets (a : Attribute) : List Style → Prop
  | bare (h : a.form = .bare) : Sets a []
  | list {inside : List Token} {ss : List Style} (h : a.form = .list inside)
      (hs : StyleArguments true inside ss) : Sets a ss

/-- The style of an item: the last one that its attributes set. -/
def Item.HasStyle (i : Item) (s : Style) : Prop :=
  ∃ styles, List.Forall₂ Attribute.Sets
    (i.attributes.filter (·.isNamed StyleOption.attributeName)) styles ∧
    s = styles.flatten.getLast?.getD .snake

theorem Style.ofExpression_ok {x : Expression} {s : Style} (h : Style.ofExpression x = .ok s) :
    x.NamesStyle s := by
  unfold ofExpression at h
  split at h
  · next s' hs =>
    obtain rfl := Except.ok.inj h
    obtain ⟨name, hn, ho⟩ := Option.bind_eq_some_iff.mp hs
    rcases Option.or_eq_some_iff.mp hn with hn | ⟨-, hn⟩
    · exact ⟨name, .inl hn, ho⟩
    · exact ⟨name, .inr hn, ho⟩
  · simp at h

theorem StyleOption.readArgument_ok {ts rest : List Token} {s : Style}
    (h : StyleOption.readArgument whole ts = .ok (s, rest)) :
    ∃ label equals value x, ts = label :: equals :: value ∧
      label.lexeme = .word StyleOption.argumentName ∧ isSign '=' equals = true ∧
      Expression.inFront? whole value = some (x, rest) ∧ x.NamesStyle s := by
  unfold readArgument at h
  split at h
  · simp at h
  · next r hr =>
    split at h
    · next t ht =>
      split at h
      · next hn =>
        have hts := nestedPath_word hr ht
        have hl : t.lexeme = .word StyleOption.argumentName := Lexeme.isWord_iff.mp hn
        unfold readValue at h
        split at h
        · next equals value hv =>
          split at h
          · next he =>
            split at h
            · next x rest' hx =>
              obtain ⟨s', hs, hp⟩ := exists_of_map_ok h
              obtain ⟨rfl, rfl⟩ := Prod.mk.inj hp
              exact ⟨t, equals, value, x, by rw [hts, hv], hl, he, hx, Style.ofExpression_ok hs⟩
            · simp at h
          · simp at h
        · simp at h
      · simp at h
    · simp at h

theorem StyleOption.readArguments_ok {n : Nat} {ts : List Token} {ss : List Style}
    (h : StyleOption.readArguments whole n ts = .ok ss) : StyleArguments whole ts ss := by
  induction n generalizing ts ss with
  | zero =>
    cases ts with
    | nil =>
      obtain rfl := Except.ok.inj h
      exact .nil
    | cons t ts => simp [readArguments] at h
  | succ n ih =>
    cases ts with
    | nil =>
      obtain rfl := Except.ok.inj h
      exact .nil
    | cons t ts =>
      simp only [readArguments] at h
      split at h
      · simp at h
      · next s hs =>
        obtain rfl := Except.ok.inj h
        obtain ⟨label, equals, value, x, ht, hl, he, hx, hn⟩ := readArgument_ok hs
        rw [ht]
        exact .last hl he hx hn
      · next s comma rest hs =>
        obtain ⟨label, equals, value, x, ht, hl, he, hx, hn⟩ := readArgument_ok hs
        split at h
        · next hc =>
          obtain ⟨ss', ho, rfl⟩ := exists_of_map_ok h
          rw [ht]
          exact .more hl he hx hn hc (ih ho)
        · simp at h

theorem StyleOption.ofAttribute_ok {a : Attribute} {ss : List Style}
    (h : StyleOption.ofAttribute a = .ok ss) : a.Sets ss := by
  unfold ofAttribute at h
  split at h
  · next hf =>
    obtain rfl := Except.ok.inj h
    exact .bare hf
  · simp at h
  · next inside hf =>
    split at h
    · simp at h
    · exact .list hf (readArguments_ok h)

theorem StyleOption.ofAttributes_ok {as : List Attribute} {ss : List Style}
    (h : StyleOption.ofAttributes as = .ok ss) :
    ∃ styles, List.Forall₂ Attribute.Sets as styles ∧ ss = styles.flatten := by
  induction as generalizing ss with
  | nil =>
    obtain rfl := Except.ok.inj h
    exact ⟨[], .nil, rfl⟩
  | cons a as ih =>
    simp only [ofAttributes] at h
    split at h
    · simp at h
    · next styles ha =>
      obtain ⟨others, ho, rfl⟩ := exists_of_map_ok h
      obtain ⟨lists, hl, rfl⟩ := ih ho
      exact ⟨styles :: lists, .cons (ofAttribute_ok ha) hl, rfl⟩

theorem Item.hasStyle {i : Item} {s : Style} (h : Style.ofAttributes i.attributes = .ok s) :
    i.HasStyle s := by
  obtain ⟨ss, hs, rfl⟩ := exists_of_map_ok h
  obtain ⟨styles, hf, rfl⟩ := StyleOption.ofAttributes_ok hs
  exact ⟨styles, hf, rfl⟩

end FieldKeys
