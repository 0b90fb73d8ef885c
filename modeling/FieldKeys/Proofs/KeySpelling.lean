import FieldKeys.Proofs.FieldAttributes
import FieldKeys.Proofs.Grammar.SingleToken
import FieldKeys.Proofs.OwnTokens

/-! The spellings of a custom key: after an equals sign, or as the first argument of a list, with a
label or without. They agree, but for an expression that is itself an assignment to the label. -/

namespace FieldKeys

theorem Expression.read?_equals {joint : Bool} {span : Span} {ts : List Token} :
    Expression.read? (⟨.sign '=' joint, span⟩ :: ts) = none :=
  rfl

theorem Expression.read?_greater {joint : Bool} {span : Span} {ts : List Token} :
    Expression.read? (⟨.sign '>' joint, span⟩ :: ts) = none :=
  rfl

/-- No longer operator is made up of an equals sign and what an expression begins with. -/
theorem WholeExpression.equals_alone {ts : List Token} (h : WholeExpression ts) (joint : Bool)
    (span : Span) (tail : List Token) :
    (signAt 0 "==" ||| signAt 0 "=>").holds (⟨.sign '=' joint, span⟩ :: (ts ++ tail)) = false := by
  obtain ⟨x, hx⟩ := h
  cases ts with
  | nil => exact absurd (Expression.inFront?_length hx) (by simp)
  | cons t ts =>
    obtain ⟨l, s⟩ := t
    have hne : ∀ c ∈ ['=', '>'], isSign c ⟨l, s⟩ = false := by
      intro c hc
      rw [Bool.eq_false_iff]
      intro hs
      obtain ⟨joint', rfl : l = _⟩ := exists_sign hs
      rcases List.mem_pair.mp hc with rfl | rfl
      · simp [Expression.read?_equals] at hx
      · simp [Expression.read?_greater] at hx
    have hone : ∀ c ∈ ['=', '>'],
        signAhead ['=', c] (⟨.sign '=' joint, span⟩ :: (⟨l, s⟩ :: ts ++ tail)) = false := by
      intro c hc
      have hs := hne c hc
      unfold isSign at hs
      simp only [List.cons_append, signAhead]
      cases l <;> simp_all
    exact Bool.or_eq_false_iff.mpr ⟨hone '=' (by simp), hone '>' (by simp)⟩

theorem unary_label {s s' : Span} {joint : Bool} {ts : List Token} :
    (Phrase.unary true).readAfter .other
        (⟨.word Directive.label, s⟩ :: ⟨.sign '=' joint, s'⟩ :: ts) =
      some ⟨.name, [⟨.word Directive.label, s⟩], ⟨.sign '=' joint, s'⟩ :: ts⟩ :=
  rfl

/-- Whatever is assigned to the label, the assignment is an expression too. -/
theorem WholeExpression.labelled {label equals : Token} {ts : List Token}
    (hl : label.lexeme = .word Directive.label) (he : isSign '=' equals = true)
    (h : WholeExpression ts) : WholeExpression (label :: equals :: ts) := by
  obtain ⟨l, s⟩ := label
  obtain rfl : l = .word Directive.label := hl
  obtain ⟨l, s'⟩ := equals
  obtain ⟨joint, rfl : l = _⟩ := exists_sign he
  have hlook := h.equals_alone joint s' []
  rw [List.append_nil] at hlook
  obtain ⟨x, hx⟩ := h
  obtain ⟨r, hr, hp⟩ := Option.map_eq_some_iff.mp hx
  obtain ⟨-, hrest⟩ := Prod.mk.inj hp
  have hvalue : (Phrase.expression true).readAfter .name ts = some r :=
    (Phrase.readAfter_eq_read rfl rfl _ _).trans hr
  let front := ⟨.sign '=' joint, s'⟩ :: ts
  let written := ⟨.sign '=' false, s'⟩ :: r.written
  have hequals : (sign "=" : PhraseRule).run true Phrase.readAfter .name front =
      some ⟨.name, [⟨.sign '=' false, s'⟩], ts⟩ := rfl
  have hassign : (sign "=" ++ .call (.expression true) : PhraseRule).run true Phrase.readAfter
      .name front = some ⟨r.shape, written, []⟩ := by
    rw [Rule.run_seq_of_left hequals, Rule.run, hvalue, Option.map_some, hrest]
    rfl
  have hmarked : (sign "=" ++ .call (.expression true) ++ .mark .other : PhraseRule).run
      true Phrase.readAfter .name front = some ⟨.other, written ++ [], []⟩ := by
    rw [Rule.run_seq_of_left hassign]
    rfl
  have hlast : (Phrase.operators .lowest true).readAfter .name front =
      some ⟨.other, written ++ [] ++ [], []⟩ := by
    rw [operators_run_equals hlook, assignmentRule, Rule.run_seq_of_left hmarked]
    rfl
  refine ⟨⟨.other, ⟨.word Directive.label, s⟩ :: (written ++ [] ++ [])⟩, ?_⟩
  simp only [Expression.read?_eq, Phrase.expression_read, unary_label, Option.bind_some]
  rw [hlast]
  rfl

theorem labelled?_whole {label equals : Token} {ts : List Token} {x : Expression}
    (hl : label.lexeme = .word Directive.label) (he : isSign '=' equals = true)
    (hx : Expression.read? ts = some (x, [])) : labelled? (label :: equals :: ts) = some x := by
  have hnone : Phrase.attributes.read (label :: equals :: ts) =
      some ⟨.other, [], label :: equals :: ts⟩ :=
    Phrase.attributes_none (by simp [signAt, Look.holds, Test.holds, signAhead, hl]) _
  have hlook : (signAt 0 "==" ||| signAt 0 "=>").holds (equals :: ts) = false := by
    obtain ⟨l, s⟩ := equals
    obtain ⟨joint, rfl : l = _⟩ := exists_sign he
    have hh := WholeExpression.equals_alone ⟨x, hx⟩ joint s []
    rwa [List.append_nil] at hh
  have hafter : afterLabel? (label :: equals :: ts) = some ts := by
    simp only [afterLabel?, hnone, Option.bind_some]
    rw [if_pos ⟨Lexeme.isWord_iff.mpr hl, he, hlook⟩]
  simp [labelled?, hafter, hx, atArgumentEnd]

/-- An assignment to the label, with nothing in front of it and nothing around the label. -/
def AssignsLabel (ts : List Token) : Prop :=
  ∃ label equals value, ts = label :: equals :: value ∧ label.lexeme = .word Directive.label ∧
    isSign '=' equals = true ∧ WholeExpression value

theorem labelled?_eq_none {ts : List Token} (hw : WholeExpression ts)
    (hn : (signAt 0 "#").holds ts = false) (hl : ¬ AssignsLabel ts) : labelled? ts = none := by
  rw [Option.eq_none_iff_forall_ne_some]
  intro y hy
  obtain ⟨⟨y', rest⟩, hy, he⟩ := Option.bind_eq_some_iff.mp hy
  obtain ⟨us, hafter, hread⟩ := Option.bind_eq_some_iff.mp hy
  have hend : atArgumentEnd rest = true := by
    dsimp only at he
    split at he
    · assumption
    · simp at he
  obtain ⟨attributes, s, s', joint, ha, hrest, -⟩ := afterLabel?_eq_some hafter
  obtain rfl := Option.some.inj ((Phrase.attributes_none hn .other).symm.trans ha)
  dsimp only at hrest
  subst hrest
  obtain ⟨value, rfl, hvalue⟩ := Expression.read?_whole hread hend
  have hlabelled : WholeExpression (⟨.word Directive.label, s⟩ :: ⟨.sign '=' joint, s'⟩ :: value) :=
    WholeExpression.labelled rfl (by simp [isSign]) ⟨y', hvalue⟩
  cases rest with
  | nil =>
    rw [List.append_nil] at hl
    exact hl ⟨_, _, _, rfl, rfl, by simp [isSign], y', hvalue⟩
  | cons comma rest =>
    -- A comma would be left over.
    obtain ⟨x, hx⟩ := hw
    obtain ⟨z, hz⟩ := hlabelled
    have hh := Expression.read?_append hz (.of_argument hend)
    simp only [List.cons_append] at hh
    simp [hx] at hh

theorem WholeExpression.depth {ts : List Token} (h : WholeExpression ts) :
    depthAfter? 0 (ts.map (·.lexeme)) = some 0 := by
  obtain ⟨x, hx⟩ := h
  obtain ⟨used, rfl, hu⟩ := Expression.inFront?_leaves hx
  rwa [List.append_nil]

theorem ExpressionList.depth {ts : List Token} (h : ExpressionList ts) :
    depthAfter? 0 (ts.map (·.lexeme)) = some 0 := by
  induction h with
  | nil => rfl
  | last h => exact h.depth
  | @more ts us comma h hc _ ih =>
    obtain ⟨joint, hl⟩ := exists_sign hc
    have hcomma : comma.lexeme.depthAfter? 0 = some 0 := by rw [hl]; rfl
    rw [List.map_append, depthAfter?_append, h.depth]
    exact depthAfter?_of_cons hcomma ih

theorem cutGroup_closed {d : Delimiter} {last : Token} (hl : last.lexeme = .closing d) {n : Nat}
    {inside : List Token} (h : depthAfter? n (inside.map (·.lexeme)) = some 0) (rest : List Token) :
    cutGroup (n + 1) (inside ++ last :: rest) = some (inside ++ [last], rest) := by
  induction inside generalizing n with
  | nil =>
    obtain rfl : n = 0 := by simpa [depthAfter?] using h
    simp [cutGroup, hl]
  | cons t inside ih =>
    obtain ⟨l, s⟩ := t
    cases l with
    | opening e =>
      have hh := @ih (n + 1) (by simpa [depthAfter?, Lexeme.depthAfter?] using h)
      simp [cutGroup, hh]
    | closing e =>
      cases n with
      | zero => simp [depthAfter?, Lexeme.depthAfter?] at h
      | succ n =>
        have hh := @ih n (by simpa [depthAfter?, Lexeme.depthAfter?] using h)
        simp [cutGroup, hh]
    | _ =>
      have hh := @ih n (by simpa [depthAfter?, Lexeme.depthAfter?] using h)
      simp [cutGroup, hh]

/-- What may stand behind the first argument of a list. -/
inductive FurtherList : List Token → Prop
  | nil : FurtherList []
  | more {comma : Token} {ts : List Token} (hc : isSign ',' comma = true) (h : ExpressionList ts) :
      FurtherList (comma :: ts)

theorem FurtherList.list {ts tail : List Token} (h : FurtherList tail) (hw : WholeExpression ts) :
    ExpressionList (ts ++ tail) := by
  cases h with
  | nil => rw [List.append_nil]; exact .last hw
  | more hc h => exact .more hw hc h

theorem FurtherList.atEnd {tail : List Token} (h : FurtherList tail) : atArgumentEnd tail = true := by
  cases h with
  | nil => rfl
  | more hc h => exact hc

theorem customKey?_argument {ts tail : List Token} {x : Expression}
    (hx : Expression.read? ts = some (x, [])) (ht : FurtherList tail) :
    customKey? (ts ++ tail) = some ((labelled? ts).or (some x)) := by
  obtain ⟨es, hes⟩ := Option.isSome_iff_exists.mp (ht.list ⟨x, hx⟩).isSome
  rw [customKey?_whole hx ht.atEnd, hes]
  rfl

/-- A minus sign and a number: one literal if an attribute has nothing else after its equals sign. -/
def NegativeNumber (ts : List Token) : Prop :=
  ∃ minus number, ts = [minus, number] ∧ isSign '-' minus = true ∧
    Test.number.fits number.lexeme = true

/-- The spellings that ask for an expression as it stands. -/
inductive KeyForm (ts : List Token) : List Token → Prop
  | value {equals : Token} (he : isSign '=' equals = true) (hn : ¬ NegativeNumber ts) :
      KeyForm ts (equals :: ts)
  | labelled {d : Delimiter} {opening label equals closing : Token} {tail : List Token}
      (ho : opening.lexeme = .opening d) (hl : label.lexeme = .word Directive.label)
      (he : isSign '=' equals = true) (ht : FurtherList tail) (hc : closing.lexeme = .closing d) :
      KeyForm ts (opening :: (label :: equals :: ts ++ tail ++ [closing]))
  | argument {d : Delimiter} {opening closing : Token} {tail : List Token}
      (ho : opening.lexeme = .opening d) (hn : ¬ AssignsLabel ts) (ht : FurtherList tail)
      (hc : closing.lexeme = .closing d) : KeyForm ts (opening :: (ts ++ tail ++ [closing]))

/-- The spellings that ask for no expression. -/
inductive IdleForm : List Token → Prop
  | bare : IdleForm []
  | list {d : Delimiter} {opening closing : Token} (ho : opening.lexeme = .opening d)
      (hc : closing.lexeme = .closing d) : IdleForm [opening, closing]

/-- The tokens of an attribute for a custom key. -/
inductive KeyAttribute (form : List Token) : List Token → Prop
  | mk {hash bracket name last : Token} (hh : isSign '#' hash = true)
      (hb : isOpening .bracket bracket = true) (hn : name.lexeme = .word Directive.customName)
      (hl : isClosing .bracket last = true) :
      KeyAttribute form (hash :: bracket :: name :: (form ++ [last]))

theorem plainPath_customName {ts : List Token} (h : signAhead pathMark ts = false) (span : Span) :
    Phrase.plainPath.read (⟨.word Directive.customName, span⟩ :: ts) =
      some ⟨.other, [⟨.word Directive.customName, span⟩], ts⟩ := by
  let name : Token := ⟨.word Directive.customName, span⟩
  have hfront : (optionalSign "::").run true Phrase.readAfter .other (name :: ts) =
      some ⟨.other, [], name :: ts⟩ := rfl
  have hword : (Rule.choose (.ahead 0 .anyName ||| pathKeywordAhead) (.take .anyWord) .fail :
      PhraseRule).run true Phrase.readAfter .other (name :: ts) = some ⟨.other, [name], ts⟩ := rfl
  have hwords : Phrase.plainPathWords.readAfter .other (name :: ts) = some ⟨.other, [name], ts⟩ := by
    rw [Phrase.readAfter_eq_run, grammar, plainPathWordsRule, Rule.run_seq_of_left hword,
      whenMark_run_of_not h]
    rfl
  rw [Phrase.read, Phrase.readAfter_eq_run, grammar, plainPathRule, Rule.run_seq_of_left hfront]
  simp only [Rule.run]
  rw [hwords]
  rfl

/-- An attribute is read as its form is. -/
theorem KeyAttribute.read {form us : List Token} {f : Attribute.Form} (h : KeyAttribute form us)
    (hf : ∀ last, isClosing .bracket last = true → signAhead pathMark (form ++ [last]) = false ∧
      Attribute.readForm? (form ++ [last]) = some (f, [last])) :
    ∃ a, Attribute.listOfTokens? us = some [a] ∧ Token.spanOf? us = some a.span ∧
      a.isNamed Directive.customName = true ∧ a.form = f := by
  cases h with
  | @mk hash bracket name last hh hb hn hl =>
    obtain ⟨l, s⟩ := name
    obtain rfl : l = .word Directive.customName := hn
    obtain ⟨hmark, hform⟩ := hf last hl
    let a : Attribute := ⟨[⟨.word Directive.customName, s⟩], f, hash.span.join last.span⟩
    have hpath : Attribute.readPath? (⟨.word Directive.customName, s⟩ :: (form ++ [last])) =
        some (a.path, form ++ [last]) := by
      have hne : Lexeme.word Directive.customName ≠ .word "unsafe".toList := by decide
      rw [Attribute.readPath?, if_neg hne, plainPath_customName hmark]
      rfl
    have hread := Attribute.read?_eq_some_iff.mpr
      ⟨hash, bracket, _, _, last, rfl, hh, hb, hpath, hform, hl, rfl⟩
    exact ⟨a, Attribute.listOfTokens?_single hread, by simp [Token.spanOf?, a],
      Attribute.isNamed_iff.mpr ⟨s, rfl⟩, rfl⟩

theorem readForm?_group {d : Delimiter} {opening closing : Token} {inside : List Token}
    (ho : opening.lexeme = .opening d) (hc : closing.lexeme = .closing d)
    (hi : depthAfter? 0 (inside.map (·.lexeme)) = some 0) (rest : List Token) :
    signAhead pathMark (opening :: (inside ++ [closing]) ++ rest) = false ∧
      Attribute.readForm? (opening :: (inside ++ [closing]) ++ rest) = some (.list inside, rest) := by
  constructor
  · simp [pathMark, signAhead, ho]
  · have hcut := cutGroup_closed hc hi rest
    rw [List.cons_append, Attribute.readForm?_opening ho, List.append_assoc, List.singleton_append,
      hcut]
    simp

/-- The literal that a minus sign and a number are together. -/
def Expression.negative (minus number : Token) : Expression :=
  ⟨.literal, [⟨.literal ('-' :: number.lexeme.text), minus.span.join number.span⟩]⟩

theorem exists_number {t : Token} (h : Test.number.fits t.lexeme = true) :
    ∃ text, t.lexeme = .literal text := by
  cases ht : t.lexeme with
  | literal text => exact ⟨text, rfl⟩
  | _ => simp [Test.fits, ht] at h

theorem attributeValue_read {ts : List Token}
    (hn : (signAt 0 "-" &&& .ahead 1 .number &&& .ahead 2 .finish).holds ts = false)
    (ha : (signAt 0 "#" &&& openingAt 1 .bracket).holds ts = false) :
    Phrase.attributeValue.read ts = (Phrase.expression true).read ts := by
  rw [Phrase.read, Phrase.readAfter_eq_run, grammar, attributeValueRule,
    firstOf_run_of_not (by simp [hn, ha])]
  rfl

/-- In front of the bracket that closes an attribute, only such a number is read as one literal. -/
theorem WholeExpression.not_literal_ahead {ts : List Token} {last : Token} (hw : WholeExpression ts)
    (hn : ¬ NegativeNumber ts) (hl : last.lexeme = .closing .bracket) :
    (signAt 0 "-" &&& .ahead 1 .number &&& .ahead 2 .finish).holds (ts ++ [last]) = false := by
  rw [Bool.eq_false_iff]
  intro h
  obtain ⟨h, hfinish⟩ := Bool.and_eq_true_iff.mp h
  obtain ⟨hminus, hnumber⟩ := Bool.and_eq_true_iff.mp h
  have hsign : ∀ (t : Token) us, (signAt 0 "-").holds (t :: us) = true → isSign '-' t = true := by
    rintro ⟨l, s⟩ us h
    cases l <;> exact h
  rcases ts with _ | ⟨a, _ | ⟨b, _ | ⟨⟨c, s⟩, ts⟩⟩⟩
  · simp [signAt, Look.holds, Test.holds, signAhead, hl] at hminus
  · simp [Look.holds, Test.holds, Test.fits, hl] at hnumber
  · exact hn ⟨a, b, rfl, hsign a _ hminus, hnumber⟩
  · -- The third token would close a bracket that is not open.
    have hdepth := hw.depth
    obtain ⟨joint, ha⟩ := exists_sign (hsign a _ hminus)
    obtain ⟨text, hb⟩ := exists_number hnumber
    cases c <;> cases hfinish
    simp [depthAfter?, Lexeme.depthAfter?, ha, hb] at hdepth

theorem readForm?_value {equals last : Token} {ts : List Token} {x : Expression}
    (he : isSign '=' equals = true) (hx : Expression.read? ts = some (x, []))
    (hn : (signAt 0 "#").holds ts = false) (hneg : ¬ NegativeNumber ts)
    (hl : isClosing .bracket last = true) :
    signAhead pathMark (equals :: ts ++ [last]) = false ∧
      Attribute.readForm? (equals :: ts ++ [last]) = some (.value x, [last]) := by
  obtain ⟨joint, hj⟩ := exists_sign he
  have hclose := isClosing_iff.mp hl
  constructor
  · simp [pathMark, signAhead, hj]
  · have hmark : (signAt 0 "#" &&& openingAt 1 .bracket).holds (ts ++ [last]) = false := by
      refine Bool.and_eq_false_iff.mpr (.inl ?_)
      cases ts with
      | nil => simp [signAt, Look.holds, Test.holds, signAhead, hclose]
      | cons t ts => exact hn
    have hread := Expression.read?_append hx (.closing hclose : Ends [last])
    rw [Expression.read?_eq] at hread
    obtain ⟨r, hr, hp⟩ := Option.map_eq_some_iff.mp hread
    obtain ⟨rfl, hrest⟩ := Prod.mk.inj hp
    rw [List.cons_append, Attribute.readForm?_equals hj,
      attributeValue_read (WholeExpression.not_literal_ahead ⟨_, hx⟩ hneg hclose) hmark, hr,
      Option.map_some, hrest]
    rfl

theorem attributeValue_negative {joint : Bool} {s s' s'' : Span} {text : Text}
    (hn : Test.number.fits (.literal text) = true) :
    Phrase.attributeValue.read [⟨.sign '-' joint, s⟩, ⟨.literal text, s'⟩, ⟨.closing .bracket, s''⟩] =
      some ⟨.literal, [⟨.literal ('-' :: text), s.join s'⟩], [⟨.closing .bracket, s''⟩]⟩ := by
  let minus : Token := ⟨.sign '-' joint, s⟩
  let number : Token := ⟨.literal text, s'⟩
  let last : Token := ⟨.closing .bracket, s''⟩
  have hlook : (signAt 0 "-" &&& .ahead 1 .number &&& .ahead 2 .finish).holds
      [minus, number, last] = true := by
    show (true && Test.number.fits (.literal text) && true) = true
    rw [hn]
    rfl
  have hminus : (sign "-" : PhraseRule).run true Phrase.readAfter .other [minus, number, last] =
      some ⟨.other, [⟨.sign '-' false, s⟩], [number, last]⟩ := rfl
  have hnumber : (Rule.take .number : PhraseRule).run true Phrase.readAfter .other [number, last] =
      some ⟨.other, [number], [last]⟩ := if_pos hn
  have hboth : (sign "-" ++ .take .number : PhraseRule).run true Phrase.readAfter .other
      [minus, number, last] = some ⟨.other, [⟨.sign '-' false, s⟩, number], [last]⟩ := by
    rw [Rule.run_seq_of_left hminus, hnumber]
    rfl
  have hliteral : literal.run true Phrase.readAfter .other [minus, number, last] =
      some ⟨.other, [⟨.literal ('-' :: text), s.join s'⟩], [last]⟩ := by
    refine (if_pos rfl).trans ?_
    rw [Rule.run, hboth]
    simp [Writing.write, Lexeme.text, number]
  rw [Phrase.read, Phrase.readAfter_eq_run, grammar, attributeValueRule]
  refine (if_pos hlook).trans ?_
  rw [Rule.run_seq_of_left hliteral]
  rfl

theorem readForm?_negative {equals minus number last : Token} (he : isSign '=' equals = true)
    (hm : isSign '-' minus = true) (hn : Test.number.fits number.lexeme = true)
    (hl : isClosing .bracket last = true) :
    signAhead pathMark ([equals, minus, number] ++ [last]) = false ∧
      Attribute.readForm? ([equals, minus, number] ++ [last]) =
        some (.value (Expression.negative minus number), [last]) := by
  obtain ⟨joint, hj⟩ := exists_sign he
  obtain ⟨joint', hm⟩ := exists_sign hm
  obtain ⟨text, ht⟩ := exists_number hn
  have hclose := isClosing_iff.mp hl
  constructor
  · simp [pathMark, signAhead, hj]
  · obtain ⟨l, s⟩ := minus
    obtain rfl : l = .sign '-' joint' := hm
    obtain ⟨l, s'⟩ := number
    obtain rfl : l = .literal text := ht
    obtain ⟨l, s''⟩ := last
    obtain rfl : l = .closing .bracket := hclose
    rw [List.cons_append, Attribute.readForm?_equals hj, List.cons_append, List.singleton_append,
      attributeValue_negative hn]
    rfl

theorem Directive.ofAttribute_of_form {a : Attribute} {key : Option Expression}
    (ha : a.isNamed Directive.customName = true)
    (hf : (∃ x, a.form = .value x ∧ key = some x) ∨ (a.form = .bare ∧ key = none) ∨
      ∃ inside, a.form = .list inside ∧ customKey? inside = some key) :
    Directive.ofAttribute a = .ok (.custom a.span key) := by
  have hi := Attribute.not_isNamed ha (show Directive.customName ≠ Directive.ignoreName by decide)
  rcases hf with ⟨x, hf, rfl⟩ | ⟨hf, rfl⟩ | ⟨inside, hf, hk⟩
  · simp [ofAttribute, hi, ha, hf]
  · simp [ofAttribute, hi, ha, hf]
  · simp [ofAttribute, hi, ha, hf, hk]

/-- The first attribute for a custom key decides about a field that is not ignored. -/
theorem Field.resolve_custom {f : Field} {d : Declaration} {a : Attribute} {key : Option Expression}
    (hd : f.declaration = .ok d) (hi : ¬ f.Ignored) (ha : f.customAttribute? = some a)
    (hk : Directive.ofAttribute a = .ok (.custom a.span key)) :
    d.resolve = match key with
      | some x => .ok (.rename (.custom x))
      | none => .error (.malformedCustomKey a.span) := by
  obtain ⟨key', hk', hf⟩ := firstCustom hd ha
  obtain ⟨-, rfl⟩ := Directive.custom.inj (Except.ok.inj (hk.symm.trans hk'))
  rw [Declaration.resolve_of_not_ignored (mt (ignored_iff hd).mpr hi),
    firstCustom?_eq_some_iff.mpr hf]
  cases key <;> rfl

theorem KeyForm.read {ts form us : List Token} {x : Expression} (h : KeyForm ts form)
    (hu : KeyAttribute form us) (hx : Expression.read? ts = some (x, []))
    (hn : (signAt 0 "#").holds ts = false) :
    ∃ a, Attribute.listOfTokens? us = some [a] ∧ Token.spanOf? us = some a.span ∧
      Directive.ofAttribute a = .ok (.custom a.span (some x)) := by
  have hw : WholeExpression ts := ⟨x, hx⟩
  cases h with
  | value he hneg =>
    obtain ⟨a, hread, hspan, hname, hform⟩ := hu.read fun last hl => readForm?_value he hx hn hneg hl
    exact ⟨a, hread, hspan, Directive.ofAttribute_of_form hname (.inl ⟨x, hform, rfl⟩)⟩
  | labelled ho hl he ht hc =>
    have hlabelled := WholeExpression.labelled hl he hw
    have ⟨y, hy⟩ := hlabelled
    have hkey := customKey?_argument hy ht
    rw [labelled?_whole hl he hx, Option.some_or] at hkey
    obtain ⟨a, hread, hspan, hname, hform⟩ := hu.read fun last _ =>
      readForm?_group ho hc (ht.list hlabelled).depth [last]
    exact ⟨a, hread, hspan, Directive.ofAttribute_of_form hname (.inr (.inr ⟨_, hform, hkey⟩))⟩
  | argument ho ha ht hc =>
    have hkey := customKey?_argument hx ht
    rw [labelled?_eq_none hw hn ha, Option.none_or] at hkey
    obtain ⟨a, hread, hspan, hname, hform⟩ := hu.read fun last _ =>
      readForm?_group ho hc (ht.list hw).depth [last]
    exact ⟨a, hread, hspan, Directive.ofAttribute_of_form hname (.inr (.inr ⟨_, hform, hkey⟩))⟩

theorem IdleForm.read {form us : List Token} (h : IdleForm form) (hu : KeyAttribute form us) :
    ∃ a, Attribute.listOfTokens? us = some [a] ∧ Token.spanOf? us = some a.span ∧
      Directive.ofAttribute a = .ok (.custom a.span none) := by
  cases h with
  | bare =>
    have hbare : ∀ last, isClosing .bracket last = true → signAhead pathMark ([] ++ [last]) = false ∧
        Attribute.readForm? ([] ++ [last]) = some (.bare, [last]) := by
      intro last hl
      have hclose := isClosing_iff.mp hl
      exact ⟨by simp [pathMark, signAhead, hclose],
        Attribute.readForm?_bare (by simp [hclose]) (by simp [hclose]) []⟩
    obtain ⟨a, hread, hspan, hname, hform⟩ := hu.read hbare
    exact ⟨a, hread, hspan, Directive.ofAttribute_of_form hname (.inr (.inl ⟨hform, rfl⟩))⟩
  | @list d opening closing ho hc =>
    obtain ⟨a, hread, hspan, hname, hform⟩ := hu.read fun last _ =>
      @readForm?_group d opening closing [] ho hc rfl [last]
    exact ⟨a, hread, hspan, Directive.ofAttribute_of_form hname
      (.inr (.inr ⟨_, hform, customKey?_eq_some_none_iff.mpr rfl⟩))⟩

/-- After an equals sign, behind the label and as the first argument, an expression without
attributes is the custom key as it stands, whatever arguments follow; only as a plain argument it
must not be an assignment to the label. So as the first of a field that is not ignored these
spellings agree, while those without an expression are refused. Only a number below zero is another
token after an equals sign: it is one literal there. -/
theorem key_spellings_agree {ts : List Token} {x : Expression}
    (hx : Expression.ofTokens? ts = some x) (hn : (signAt 0 "#").holds ts = false) :
    (∀ form us, KeyForm ts form → KeyAttribute form us →
      ∃ a, Attribute.listOfTokens? us = some [a] ∧ Token.spanOf? us = some a.span ∧
        Directive.ofAttribute a = .ok (.custom a.span (some x)) ∧
        ∀ (f : Field) d, f.declaration = .ok d → ¬ f.Ignored → f.customAttribute? = some a →
          d.resolve = .ok (.rename (.custom x))) ∧
    (∀ form us, IdleForm form → KeyAttribute form us →
      ∃ a, Attribute.listOfTokens? us = some [a] ∧ Token.spanOf? us = some a.span ∧
        Directive.ofAttribute a = .ok (.custom a.span none) ∧
        ∀ (f : Field) d, f.declaration = .ok d → ¬ f.Ignored → f.customAttribute? = some a →
          d.resolve = .error (.malformedCustomKey a.span)) ∧
    ∀ minus number equals us, ts = [minus, number] → isSign '-' minus = true →
      Test.number.fits number.lexeme = true → isSign '=' equals = true →
      KeyAttribute (equals :: ts) us →
      ∃ a, Attribute.listOfTokens? us = some [a] ∧ Token.spanOf? us = some a.span ∧
        Directive.ofAttribute a = .ok (.custom a.span (some (Expression.negative minus number))) ∧
        ∀ (f : Field) d, f.declaration = .ok d → ¬ f.Ignored → f.customAttribute? = some a →
          d.resolve = .ok (.rename (.custom (Expression.negative minus number))) := by
  refine ⟨?_, ?_, ?_⟩
  · intro form us hf hu
    obtain ⟨a, hread, hspan, hkey⟩ := hf.read hu (Expression.ofTokens?_eq_some_iff.mp hx) hn
    exact ⟨a, hread, hspan, hkey, fun f d hd hi ha => Field.resolve_custom hd hi ha hkey⟩
  · intro form us hf hu
    obtain ⟨a, hread, hspan, hkey⟩ := hf.read hu
    exact ⟨a, hread, hspan, hkey, fun f d hd hi ha => Field.resolve_custom hd hi ha hkey⟩
  · rintro minus number equals us rfl hm hnumber he hu
    obtain ⟨a, hread, hspan, hname, hform⟩ := hu.read fun last hl =>
      readForm?_negative he hm hnumber hl
    have hkey := Directive.ofAttribute_of_form hname (.inl ⟨_, hform, rfl⟩)
    exact ⟨a, hread, hspan, hkey, fun f d hd hi ha => Field.resolve_custom hd hi ha hkey⟩

/-- Of two labels one is taken off. -/
theorem key_spellings_agree_label :
    let label := [Lexeme.word Directive.label, .sign '=' false].map Lexeme.token
    let ts := label ++ [(Lexeme.word "A".toList).token]
    let form := (Lexeme.opening .paren).token :: (label ++ ts ++ [(Lexeme.sign ',' false).token] ++
      [(Lexeme.closing .paren).token])
    let us := [Lexeme.sign '#' false, .opening .bracket, .word Directive.customName].map Lexeme.token ++
      (form ++ [(Lexeme.closing .bracket).token])
    ∃ x a, Expression.ofTokens? ts = some x ∧ Attribute.listOfTokens? us = some [a] ∧
      Directive.ofAttribute a = .ok (.custom a.span (some x)) := by
  intro label ts form us
  have hsome : (Expression.ofTokens? ts).isSome = true := by decide +kernel
  obtain ⟨x, hx⟩ := Option.isSome_iff_exists.mp hsome
  have hform : KeyForm ts form := .labelled rfl rfl rfl (.more rfl .nil) rfl
  have hus : KeyAttribute form us := .mk rfl rfl rfl rfl
  obtain ⟨a, hread, -, hkey, -⟩ := (key_spellings_agree hx rfl).1 form us hform hus
  exact ⟨x, a, hx, hread, hkey⟩

end FieldKeys
