import FieldKeys.Proofs.Grammar.Leaving
import FieldKeys.Proofs.StyleChoice

/-! What is wrong with the arguments of a record's attributes: the leftmost fault decides, and it is
said of the arguments as they stand. Only what is left over in the groups of a value is a fault of
an attribute that has no other. -/

namespace FieldKeys

variable {whole : Bool}

/-- An argument in front that sets a style, and what follows it. -/
def StyleInFront (whole : Bool) (ts : List Token) (s : Style) (rest : List Token) : Prop :=
  ∃ label equals value x, ts = label :: equals :: value ∧
    label.lexeme = .word StyleOption.argumentName ∧ isSign '=' equals = true ∧
    Expression.inFront? whole value = some (x, rest) ∧ x.NamesStyle s

/-- What is wrong with the argument in front, whatever comes after that. -/
inductive ArgumentFault (whole : Bool) : List Token → Fault → Prop
  | noName {ts : List Token} (h : ∀ rooted words rest, ¬ PathInFront rooted ts words rest) :
      ArgumentFault whole ts .illFormed
  | otherName {rooted : Bool} {ts words rest : List Token} (h : PathInFront rooted ts words rest)
      (hn : ¬ (rooted = false ∧ words.map (·.lexeme) = [.word StyleOption.argumentName])) :
      ArgumentFault whole ts (.unknownArgument (wordsSpan words))
  | noValue {label : Token} {ts rest : List Token} (h : PathInFront false ts [label] rest)
      (hl : label.lexeme = .word StyleOption.argumentName)
      (hv : ∀ equals value, rest = equals :: value → isSign '=' equals = true →
        Expression.inFront? whole value = none) : ArgumentFault whole ts .illFormed
  | otherValue {label equals : Token} {value left : List Token} {x : Expression}
      (hl : label.lexeme = .word StyleOption.argumentName) (he : isSign '=' equals = true)
      (hx : Expression.inFront? whole value = some (x, left)) (hs : ∀ s, ¬ x.NamesStyle s) :
      ArgumentFault whole (label :: equals :: value) (.unrecognizedStyle x.span)

/-- The leftmost fault in arguments with commas between them. -/
inductive ArgumentsFault (whole : Bool) : List Token → Fault → Prop
  | argument {t : Token} {ts : List Token} {f : Fault} (h : ArgumentFault whole (t :: ts) f) :
      ArgumentsFault whole (t :: ts) f
  | noComma {t : Token} {ts rest : List Token} {s : Style} (h : StyleInFront whole ts s (t :: rest))
      (ht : isSign ',' t = false) : ArgumentsFault whole ts .illFormed
  | later {comma : Token} {ts rest : List Token} {s : Style} {f : Fault}
      (h : StyleInFront whole ts s (comma :: rest)) (hc : isSign ',' comma = true)
      (hf : ArgumentsFault whole rest f) : ArgumentsFault whole ts f

inductive Attribute.StyleFault (a : Attribute) : Fault → Prop
  | value {x : Expression} (h : a.form = .value x) : StyleFault a .illFormed
  | list {inside : List Token} {f : Fault} (h : a.form = .list inside)
      (hf : ArgumentsFault false inside f) : StyleFault a f
  | leftOver {inside : List Token} {ss : List Style} (h : a.form = .list inside)
      (hs : StyleArguments false inside ss) (hn : ¬ StyleArguments true inside ss) :
      StyleFault a .illFormed

theorem Style.ofExpression_eq_ok_iff {x : Expression} {s : Style} :
    Style.ofExpression x = .ok s ↔ x.NamesStyle s := by
  refine ⟨ofExpression_ok, ?_⟩
  rintro ⟨name, hn, hs⟩
  have ho : x.name?.or x.stringValue? = some name := by
    rcases hn with hn | hn
    · rw [hn, Option.some_or]
    · -- A string is no path.
      have hname : x.name? = none := by
        unfold Expression.stringValue? at hn
        split at hn
        · next hshape => simp [Expression.name?, hshape]
        · simp at hn
      rw [hname, Option.none_or, hn]
  simp [ofExpression, ho, hs]

theorem Style.ofExpression_eq_error_iff {x : Expression} {f : Fault} :
    Style.ofExpression x = .error f ↔ (∀ s, ¬ x.NamesStyle s) ∧ f = .unrecognizedStyle x.span := by
  simp only [← ofExpression_eq_ok_iff]
  unfold ofExpression
  split
  · simp
  · simp [eq_comm]

theorem StyleOption.readArgument_noName {ts : List Token}
    (h : ∀ rooted words rest, ¬ PathInFront rooted ts words rest) :
    StyleOption.readArgument whole ts = .error .illFormed := by
  have hn : Phrase.nestedPath.read ts = none := by
    by_contra hc
    obtain ⟨r, hr⟩ := Option.ne_none_iff_exists'.mp hc
    obtain ⟨rooted, words, rest, hp⟩ := exists_path_iff.mpr ⟨r, hr⟩
    exact h rooted words rest hp
  simp [readArgument, hn]

theorem PathInFront.readArgument_otherName {rooted : Bool} {ts words rest : List Token}
    (h : PathInFront rooted ts words rest)
    (hn : ¬ (rooted = false ∧ words.map (·.lexeme) = [.word StyleOption.argumentName])) :
    StyleOption.readArgument whole ts = .error (.unknownArgument (wordsSpan words)) := by
  obtain ⟨r, hr, -, hspan, hw⟩ := h.read
  simp only [StyleOption.readArgument, hr, hspan]
  split
  · next t ht =>
    obtain ⟨hroot, rfl⟩ := (hw t).mp ht
    rw [if_neg fun hl => hn ⟨hroot, by simpa using Lexeme.isWord_iff.mp hl⟩]
  · rfl

theorem PathInFront.readArgument_label {label : Token} {ts rest : List Token}
    (h : PathInFront false ts [label] rest)
    (hl : label.lexeme = .word StyleOption.argumentName) :
    StyleOption.readArgument whole ts = StyleOption.readValue whole rest := by
  obtain ⟨r, hr, hrest, -, hw⟩ := h.read
  have ht : r.written = [label] := (hw label).mpr ⟨rfl, rfl⟩
  simp only [StyleOption.readArgument, hr, ht, Lexeme.isWord_iff.mpr hl, if_true, hrest]

theorem StyleOption.readValue_noValue {ts : List Token}
    (h : ∀ equals value, ts = equals :: value → isSign '=' equals = true →
      Expression.inFront? whole value = none) :
    StyleOption.readValue whole ts = .error .illFormed := by
  cases ts with
  | nil => rfl
  | cons equals value =>
    cases he : isSign '=' equals with
    | false => simp [readValue, he]
    | true => simp [readValue, he, h equals value rfl he]

theorem pathInFront_label {label equals : Token} {value : List Token}
    (hl : label.lexeme = .word StyleOption.argumentName) (he : isSign '=' equals = true) :
    PathInFront false (label :: equals :: value) [label] (equals :: value) := by
  refine .plain (.last hl ?_)
  obtain ⟨joint, h⟩ := exists_sign he
  simp [pathMark, signAhead, h]

theorem StyleOption.readArgument_value {label equals : Token} {value rest : List Token}
    {x : Expression} (hl : label.lexeme = .word StyleOption.argumentName)
    (he : isSign '=' equals = true) (hx : Expression.inFront? whole value = some (x, rest)) :
    StyleOption.readArgument whole (label :: equals :: value) =
      (Style.ofExpression x).map (·, rest) := by
  rw [(pathInFront_label hl he).readArgument_label hl]
  simp [readValue, he, hx]

theorem StyleOption.readArgument_eq_ok_iff {ts rest : List Token} {s : Style} :
    StyleOption.readArgument whole ts = .ok (s, rest) ↔ StyleInFront whole ts s rest := by
  refine ⟨readArgument_ok, ?_⟩
  rintro ⟨label, equals, value, x, rfl, hl, he, hx, hs⟩
  rw [readArgument_value hl he hx, Style.ofExpression_eq_ok_iff.mpr hs]
  rfl

theorem StyleOption.argumentFault_of_error {ts : List Token} {f : Fault}
    (h : StyleOption.readArgument whole ts = .error f) : ArgumentFault whole ts f := by
  by_cases hp : ∃ rooted words rest, PathInFront rooted ts words rest
  · obtain ⟨rooted, words, rest, hp⟩ := hp
    by_cases hn : rooted = false ∧ words.map (·.lexeme) = [.word StyleOption.argumentName]
    · obtain ⟨rfl, hw⟩ := hn
      obtain ⟨label, rfl, hl⟩ := List.map_eq_singleton_iff.mp hw
      rw [hp.readArgument_label hl] at h
      by_cases hv : ∀ equals value, rest = equals :: value → isSign '=' equals = true →
          Expression.inFront? whole value = none
      · rw [readValue_noValue hv] at h
        rw [← Except.error.inj h]
        exact .noValue hp hl hv
      · push Not at hv
        obtain ⟨equals, value, rfl, he, hx⟩ := hv
        obtain ⟨⟨x, left⟩, hx⟩ := Option.ne_none_iff_exists'.mp hx
        obtain rfl := hp.eq_cons
        simp only [readValue, he, if_true, hx, map_eq_error_iff] at h
        obtain ⟨hs, rfl⟩ := Style.ofExpression_eq_error_iff.mp h
        exact .otherValue hl he hx hs
    · rw [hp.readArgument_otherName hn] at h
      rw [← Except.error.inj h]
      exact .otherName hp hn
  · push Not at hp
    rw [readArgument_noName hp] at h
    rw [← Except.error.inj h]
    exact .noName hp

theorem StyleOption.readArgument_eq_error_iff {ts : List Token} {f : Fault} :
    StyleOption.readArgument whole ts = .error f ↔ ArgumentFault whole ts f := by
  refine ⟨argumentFault_of_error, fun h => ?_⟩
  cases h with
  | noName h => exact readArgument_noName h
  | otherName h hn => exact h.readArgument_otherName hn
  | noValue h hl hv => rw [h.readArgument_label hl, readValue_noValue hv]
  | otherValue hl he hx hs =>
    rw [readArgument_value hl he hx, Style.ofExpression_eq_error_iff.mpr ⟨hs, rfl⟩]
    rfl

/-- Every argument is read from its own tokens, so fewer are left for the others. -/
theorem StyleInFront.length_lt {ts rest : List Token} {s : Style}
    (h : StyleInFront whole ts s rest) : rest.length + 1 < ts.length := by
  obtain ⟨label, equals, value, x, rfl, -, -, hx, -⟩ := h
  obtain ⟨r, hr, hp⟩ := Option.map_eq_some_iff.mp hx
  obtain ⟨-, rfl⟩ := Prod.mk.inj hp
  have hle := (Phrase.inFront_suffix hr).length_le
  simp only [List.length_cons]
  omega

theorem StyleOption.readArguments_last {n : Nat} {ts : List Token} {s : Style}
    (h : StyleInFront whole ts s []) : StyleOption.readArguments whole (n + 1) ts = .ok [s] := by
  cases ts with
  | nil => simp [StyleInFront] at h
  | cons t ts => simp only [readArguments, readArgument_eq_ok_iff.mpr h]

theorem StyleOption.readArguments_more {n : Nat} {comma : Token} {ts rest : List Token} {s : Style}
    (h : StyleInFront whole ts s (comma :: rest)) (hc : isSign ',' comma = true) :
    StyleOption.readArguments whole (n + 1) ts =
      (StyleOption.readArguments whole n rest).map (s :: ·) := by
  cases ts with
  | nil => simp [StyleInFront] at h
  | cons t ts => simp only [readArguments, readArgument_eq_ok_iff.mpr h, hc, if_true]

theorem StyleOption.readArguments_noComma {n : Nat} {t : Token} {ts rest : List Token} {s : Style}
    (h : StyleInFront whole ts s (t :: rest)) (ht : isSign ',' t = false) :
    StyleOption.readArguments whole (n + 1) ts = .error .illFormed := by
  cases ts with
  | nil => simp [StyleInFront] at h
  | cons t ts => simp [readArguments, readArgument_eq_ok_iff.mpr h, ht]

theorem StyleOption.readArguments_eq_ok_iff {n : Nat} {ts : List Token} {ss : List Style}
    (hn : ts.length ≤ n) :
    StyleOption.readArguments whole n ts = .ok ss ↔ StyleArguments whole ts ss := by
  refine ⟨readArguments_ok, fun h => ?_⟩
  induction h generalizing n with
  | nil => cases n <;> rfl
  | @last label equals value x s hl he hx hs =>
    obtain ⟨n, rfl⟩ := Nat.exists_eq_succ_of_ne_zero (Nat.ne_zero_of_lt hn)
    exact readArguments_last ⟨label, equals, value, x, rfl, hl, he, hx, hs⟩
  | @more label equals comma value others x s ss hl he hx hs hc _ ih =>
    obtain ⟨n, rfl⟩ := Nat.exists_eq_succ_of_ne_zero (Nat.ne_zero_of_lt hn)
    have hf : StyleInFront whole (label :: equals :: value) s (comma :: others) :=
      ⟨label, equals, value, x, rfl, hl, he, hx, hs⟩
    have hlt := hf.length_lt
    rw [readArguments_more hf hc, ih (by simp only [List.length_cons] at hlt hn ⊢; omega)]
    rfl

theorem StyleOption.argumentsFault_of_error {n : Nat} {ts : List Token} {f : Fault}
    (hn : ts.length ≤ n) (h : StyleOption.readArguments whole n ts = .error f) :
    ArgumentsFault whole ts f := by
  induction n generalizing ts with
  | zero =>
    obtain rfl := List.length_eq_zero_iff.mp (Nat.le_zero.mp hn)
    simp [readArguments] at h
  | succ n ih =>
    cases ts with
    | nil => simp [readArguments] at h
    | cons t ts =>
      cases ha : readArgument whole (t :: ts) with
      | error x =>
        simp only [readArguments, ha, Except.error.injEq] at h
        rw [← h]
        exact .argument (argumentFault_of_error ha)
      | ok answer =>
        obtain ⟨s, rest⟩ := answer
        have hf := readArgument_eq_ok_iff.mp ha
        cases rest with
        | nil => simp [readArguments_last hf] at h
        | cons comma rest =>
          cases hc : isSign ',' comma with
          | false =>
            rw [readArguments_noComma hf hc] at h
            rw [← Except.error.inj h]
            exact .noComma hf hc
          | true =>
            rw [readArguments_more hf hc, map_eq_error_iff] at h
            have hlt := hf.length_lt
            exact .later hf hc (ih (by simp only [List.length_cons] at hlt hn ⊢; omega) h)

theorem StyleOption.readArguments_eq_error_iff {n : Nat} {ts : List Token} {f : Fault}
    (hn : ts.length ≤ n) :
    StyleOption.readArguments whole n ts = .error f ↔ ArgumentsFault whole ts f := by
  refine ⟨argumentsFault_of_error hn, fun h => ?_⟩
  induction h generalizing n with
  | argument h =>
    obtain ⟨n, rfl⟩ := Nat.exists_eq_succ_of_ne_zero (Nat.ne_zero_of_lt hn)
    simp only [readArguments, readArgument_eq_error_iff.mpr h]
  | noComma h ht =>
    obtain ⟨n, rfl⟩ := Nat.exists_eq_succ_of_ne_zero
      (Nat.ne_zero_of_lt (Nat.lt_of_lt_of_le h.length_lt hn))
    exact readArguments_noComma h ht
  | later h hc _ ih =>
    have hlt := h.length_lt
    obtain ⟨n, rfl⟩ := Nat.exists_eq_succ_of_ne_zero
      (Nat.ne_zero_of_lt (Nat.lt_of_lt_of_le hlt hn))
    rw [readArguments_more h hc, map_eq_error_iff]
    exact ih (by simp only [List.length_cons] at hlt; omega)

/-- Nothing but what is left over in the groups of a value is wrong with it if it is read without
that. -/
theorem StyleOption.readValue_whole {ts : List Token} {answer : Style × List Token}
    (h : StyleOption.readValue false ts = .ok answer) :
    StyleOption.readValue true ts = .ok answer ∨
      StyleOption.readValue true ts = .error .illFormed := by
  cases ts with
  | nil => exact .inr rfl
  | cons t rest =>
    simp only [readValue] at h ⊢
    split at h
    · next ht =>
      rw [if_pos ht]
      cases hx : Expression.inFront? true rest with
      | none => exact .inr rfl
      | some x =>
        rw [Expression.inFront?_of_whole hx] at h
        exact .inl h
    · simp at h

theorem StyleOption.readArgument_whole {ts : List Token} {answer : Style × List Token}
    (h : StyleOption.readArgument false ts = .ok answer) :
    StyleOption.readArgument true ts = .ok answer ∨
      StyleOption.readArgument true ts = .error .illFormed := by
  unfold readArgument at h ⊢
  split at h
  · simp at h
  · split at h
    · split at h
      · next hn => simpa only [hn, if_true] using readValue_whole h
      · simp at h
    · simp at h

theorem StyleOption.readArguments_whole {n : Nat} {ts : List Token} {ss : List Style}
    (h : StyleOption.readArguments false n ts = .ok ss) :
    StyleOption.readArguments true n ts = .ok ss ∨
      StyleOption.readArguments true n ts = .error .illFormed := by
  induction n generalizing ts ss with
  | zero =>
    cases ts with
    | nil => exact .inl h
    | cons t ts => simp [readArguments] at h
  | succ n ih =>
    cases ts with
    | nil => exact .inl h
    | cons t ts =>
      simp only [readArguments] at h ⊢
      cases ha : readArgument false (t :: ts) with
      | error f => simp [ha] at h
      | ok answer =>
        rw [ha] at h
        rcases readArgument_whole ha with hw | hw
        · rw [hw]
          obtain ⟨s, rest⟩ := answer
          cases rest with
          | nil => exact .inl h
          | cons comma rest =>
            dsimp only at h ⊢
            split at h
            · next hc =>
              obtain ⟨others, ho, rfl⟩ := exists_of_map_ok h
              rw [if_pos hc]
              rcases ih ho with hw | hw
              · exact .inl (by rw [hw]; rfl)
              · exact .inr (by rw [hw]; rfl)
            · simp at h
        · rw [hw]
          exact .inr rfl

theorem StyleArguments.of_whole {ts : List Token} {ss : List Style}
    (h : StyleArguments true ts ss) : StyleArguments whole ts ss := by
  induction h with
  | nil => exact .nil
  | last hl he hx hs => exact .last hl he (Expression.inFront?_of_whole hx) hs
  | more hl he hx hs hc _ ih => exact .more hl he (Expression.inFront?_of_whole hx) hs hc ih

theorem StyleOption.ofAttribute_eq_ok_iff {a : Attribute} {ss : List Style} :
    StyleOption.ofAttribute a = .ok ss ↔ a.Sets ss := by
  refine ⟨ofAttribute_ok, fun h => ?_⟩
  cases h with
  | bare h => simp [ofAttribute, h]
  | list h hs =>
    have hloose := (@readArguments_eq_ok_iff false _ _ _ (Nat.le_refl _)).mpr hs.of_whole
    simp only [ofAttribute, h, hloose]
    exact (readArguments_eq_ok_iff (Nat.le_refl _)).mpr hs

theorem StyleOption.ofAttribute_eq_error_iff {a : Attribute} {f : Fault} :
    StyleOption.ofAttribute a = .error f ↔ a.StyleFault f := by
  constructor
  · intro h
    unfold ofAttribute at h
    split at h
    · simp at h
    · next x hx =>
      rw [← Except.error.inj h]
      exact .value hx
    · next inside hi =>
      split at h
      · next g hg =>
        obtain rfl := Except.error.inj h
        exact .list hi ((readArguments_eq_error_iff (Nat.le_refl _)).mp hg)
      · next ss hs =>
        have hn : ¬ StyleArguments true inside ss := fun hn => by
          simp [(readArguments_eq_ok_iff (Nat.le_refl _)).mpr hn] at h
        rcases readArguments_whole hs with hw | hw
        · simp [hw] at h
        · rw [hw] at h
          rw [← Except.error.inj h]
          exact .leftOver hi (readArguments_ok hs) hn
  · rintro (h | ⟨h, hf⟩ | ⟨h, hs, hn⟩)
    · simp [ofAttribute, h]
    · simp only [ofAttribute, h, (readArguments_eq_error_iff (Nat.le_refl _)).mpr hf]
    · have hloose := (readArguments_eq_ok_iff (Nat.le_refl _)).mpr hs
      simp only [ofAttribute, h, hloose]
      rcases readArguments_whole hloose with hw | hw
      · exact absurd (readArguments_ok hw) hn
      · exact hw

theorem StyleOption.ofAttributes_eq_ok_iff {as : List Attribute} {ss : List Style} :
    StyleOption.ofAttributes as = .ok ss ↔
      ∃ styles, List.Forall₂ Attribute.Sets as styles ∧ ss = styles.flatten := by
  refine ⟨ofAttributes_ok, ?_⟩
  rintro ⟨styles, h, rfl⟩
  induction h with
  | nil => rfl
  | cons ha _ ih =>
    simp only [ofAttributes, ofAttribute_eq_ok_iff.mpr ha, ih]
    rfl

theorem StyleOption.ofAttributes_eq_error_iff {as : List Attribute} {f : Fault} :
    StyleOption.ofAttributes as = .error f ↔ ∃ before a after styles, as = before ++ a :: after ∧
      List.Forall₂ Attribute.Sets before styles ∧ a.StyleFault f := by
  constructor
  · intro h
    induction as with
    | nil => simp [ofAttributes] at h
    | cons a as ih =>
      simp only [ofAttributes] at h
      split at h
      · next x hx =>
        obtain rfl := Except.error.inj h
        exact ⟨[], a, as, [], rfl, .nil, ofAttribute_eq_error_iff.mp hx⟩
      · next ss hs =>
        obtain ⟨before, b, after, styles, rfl, hb, hf⟩ := ih (map_eq_error_iff.mp h)
        exact ⟨a :: before, b, after, ss :: styles, rfl, .cons (ofAttribute_eq_ok_iff.mp hs) hb, hf⟩
  · rintro ⟨before, a, after, styles, rfl, hb, hf⟩
    induction hb with
    | nil => simp only [List.nil_append, ofAttributes, ofAttribute_eq_error_iff.mpr hf]
    | cons hs _ ih =>
      simp only [List.cons_append, ofAttributes, ofAttribute_eq_ok_iff.mpr hs, ih]
      rfl

end FieldKeys
