import FieldKeys.Proofs.Grammar.Extent
import FieldKeys.Proofs.Grammar.Shapes

/-! Expressions and the attributes in front of them. Without those, an expression that has the shape
of a name or of a literal is one token: every rule that reads more marks what it has read with
another shape. -/

namespace FieldKeys

variable {whole : Bool}

/-- The shapes of a bare name and of a literal. -/
def Shape.isPlain : Shape → Bool
  | .name | .literal => true
  | _ => false

/-- What is known of a rule or a phrase that ends in a plain shape: that it never does, that the
shape stood before it, that it has read nothing, that it has read one token as it stands. -/
structure PlainEnd where
  never : Bool
  keeps : Bool
  quiet : Bool
  single : Bool

def PlainEnd.neverSo : PlainEnd := ⟨true, true, true, true⟩

def PlainEnd.seq (a b : PlainEnd) : PlainEnd :=
  if b.never || (a.never && b.keeps) then .neverSo
  else ⟨false, a.keeps && b.keeps, b.keeps && (a.quiet && b.quiet),
    b.keeps && ((a.quiet && b.single) || (a.single && b.quiet))⟩

def PlainEnd.either (a b : PlainEnd) : PlainEnd :=
  ⟨a.never && b.never, a.keeps && b.keeps, a.quiet && b.quiet, a.single && b.single⟩

def Phrase.plainEnd : Phrase → PlainEnd
  | .closure _ => .neverSo
  | .trailers | .operators _ _ | .pathRest _ => ⟨false, true, true, false⟩
  | .pathWord _ => ⟨false, true, false, true⟩
  | .path _ | .pathExpression _ | .atom _ => ⟨false, false, false, true⟩
  | _ => ⟨false, false, false, false⟩

/-- Tests that read one token as it stands. -/
def Test.isToken : Test → Bool
  | .sign _ | .index | .decimalIndex => false
  | _ => true

/-- Whether a rule reads one token as it stands, whatever its shape. -/
def Rule.isToken : PhraseRule → Bool
  | .take test => test.isToken
  | _ => false

def Rule.isMark : PhraseRule → Bool
  | .mark _ => true
  | _ => false

def Rule.plainEnd : PhraseRule → PlainEnd
  | .done => ⟨false, true, true, false⟩
  | .fail => .neverSo
  | .take test => ⟨false, true, false, test.isToken⟩
  | .close _ | .raw => ⟨false, true, false, false⟩
  | .mark new => if new.isPlain then ⟨false, false, true, false⟩ else .neverSo
  | .call p => p.plainEnd
  | .seq a b =>
    let both := a.plainEnd.seq b.plainEnd
    { both with single := both.single || (a.isToken && b.isMark) }
  | .choose _ a b | .probe _ a b | .onShape _ a b => a.plainEnd.either b.plainEnd
  | .braced _ => .neverSo
  | .rewrite _ _ => ⟨false, false, false, false⟩

/-- What is known of one that ends in a plain shape holds of the other too. -/
def PlainEnd.le (a b : PlainEnd) : Bool :=
  (!a.never || b.never) && (!a.keeps || b.keeps) && (!a.quiet || b.quiet) &&
    (!a.single || b.single)

theorem grammar_plainEnd (p : Phrase) : p.plainEnd.le (grammar p).plainEnd = true :=
  Phrase.of_all (f := fun p => p.plainEnd.le (grammar p).plainEnd) (by decide +kernel) p

structure PlainEnd.Holds (k : PlainEnd) (shape : Shape) (ts : List Token) (r : Reading) : Prop where
  never : k.never = false
  keeps : k.keeps = true → r.shape = shape
  quiet : k.quiet = true → r.written = [] ∧ r.rest = ts
  single : k.single = true → ∃ t, r.written = [t] ∧ ts = t :: r.rest

section

variable {a b : PlainEnd} {shape : Shape} {ts : List Token} {r : Reading}

theorem PlainEnd.Holds.mono (h : b.Holds shape ts r) (hle : a.le b = true) : a.Holds shape ts r := by
  obtain ⟨never, keeps, quiet, single⟩ := a
  simp only [le, Bool.and_eq_true, Bool.or_eq_true, Bool.not_eq_true'] at hle
  obtain ⟨⟨⟨hn, hk⟩, hq⟩, hs⟩ := hle
  constructor
  · simpa [h.never] using hn
  · exact fun ht => h.keeps (hk.resolve_left (by simpa using ht))
  · exact fun ht => h.quiet (hq.resolve_left (by simpa using ht))
  · exact fun ht => h.single (hs.resolve_left (by simpa using ht))

theorem PlainEnd.Holds.either_left (h : a.Holds shape ts r) : (a.either b).Holds shape ts r where
  never := by simp [either, h.never]
  keeps hk := h.keeps (Bool.and_eq_true_iff.mp hk).1
  quiet hq := h.quiet (Bool.and_eq_true_iff.mp hq).1
  single hs := h.single (Bool.and_eq_true_iff.mp hs).1

theorem PlainEnd.Holds.either_right (h : b.Holds shape ts r) : (a.either b).Holds shape ts r where
  never := by simp [either, h.never]
  keeps hk := h.keeps (Bool.and_eq_true_iff.mp hk).2
  quiet hq := h.quiet (Bool.and_eq_true_iff.mp hq).2
  single hs := h.single (Bool.and_eq_true_iff.mp hs).2

end

/-- If the second part keeps the shape, the first has ended in it too. -/
theorem PlainEnd.Holds.seq {a b : PlainEnd} {shape : Shape} {ts : List Token} {first second : Reading}
    (ha : first.shape.isPlain = true → a.Holds shape ts first)
    (hb : b.Holds first.shape first.rest second) (hp : second.shape.isPlain = true) :
    (a.seq b).Holds shape ts ⟨second.shape, first.written ++ second.written, second.rest⟩ := by
  have hkept : b.keeps = true → a.Holds shape ts first := fun hk => ha (hb.keeps hk ▸ hp)
  have hnever : (b.never || (a.never && b.keeps)) = false := by
    cases hk : b.keeps with
    | false => simp [hb.never]
    | true => simp [hb.never, (hkept hk).never]
  unfold PlainEnd.seq
  rw [hnever]
  refine ⟨rfl, fun h => ?_, fun h => ?_, fun h => ?_⟩
  · obtain ⟨hka, hkb⟩ := Bool.and_eq_true_iff.mp h
    exact (hb.keeps hkb).trans ((hkept hkb).keeps hka)
  · obtain ⟨hkb, hq⟩ := Bool.and_eq_true_iff.mp h
    obtain ⟨hqa, hqb⟩ := Bool.and_eq_true_iff.mp hq
    obtain ⟨hw, hrest⟩ := (hkept hkb).quiet hqa
    obtain ⟨hw', hrest'⟩ := hb.quiet hqb
    exact ⟨by simp [hw, hw'], hrest'.trans hrest⟩
  · obtain ⟨hkb, h⟩ := Bool.and_eq_true_iff.mp h
    rcases Bool.or_eq_true_iff.mp h with h | h
    · obtain ⟨hqa, hsb⟩ := Bool.and_eq_true_iff.mp h
      obtain ⟨hw, hrest⟩ := (hkept hkb).quiet hqa
      obtain ⟨t, hw', hrest'⟩ := hb.single hsb
      exact ⟨t, by simp [hw, hw'], hrest ▸ hrest'⟩
    · obtain ⟨hsa, hqb⟩ := Bool.and_eq_true_iff.mp h
      obtain ⟨t, hw, hrest⟩ := (hkept hkb).single hsa
      obtain ⟨hw', hrest'⟩ := hb.quiet hqb
      exact ⟨t, by simp [hw, hw'], hrest'.symm ▸ hrest⟩

theorem Test.written_isToken {test : Test} (h : test.isToken = true) (t : Token) :
    test.written t = [t] := by
  cases test <;> first | rfl | simp [isToken] at h

theorem Test.read_isToken {test : Test} {shape : Shape} {ts : List Token} {r : Reading}
    (h : test.read shape ts = some r) (ht : test.isToken = true) :
    ∃ t, r.written = [t] ∧ ts = t :: r.rest := by
  rcases Test.read_eq_some h with ⟨s, rfl, -, -⟩ | ⟨t, rest, rfl, -, rfl⟩
  · simp [isToken] at ht
  · exact ⟨t, test.written_isToken ht t, rfl⟩

theorem Test.read_shape {test : Test} {shape : Shape} {ts : List Token} {r : Reading}
    (h : test.read shape ts = some r) : r.shape = shape := by
  rcases Test.read_eq_some h with ⟨s, -, -, rfl⟩ | ⟨t, rest, -, -, rfl⟩ <;> rfl

theorem Rule.run_plainEnd {readers : Phrase → Reader}
    (hr : ∀ p shape ts r, readers p shape ts = some r → r.shape.isPlain = true →
      p.plainEnd.Holds shape ts r)
    (rule : PhraseRule) {shape : Shape} {ts : List Token} {r : Reading}
    (h : rule.run whole readers shape ts = some r) (hp : r.shape.isPlain = true) :
    rule.plainEnd.Holds shape ts r := by
  induction rule generalizing shape ts r with
  | done =>
    obtain rfl := Option.some.inj h
    exact ⟨rfl, fun _ => rfl, fun _ => ⟨rfl, rfl⟩, by simp [plainEnd]⟩
  | fail => simp [run] at h
  | take test =>
    exact ⟨rfl, fun _ => Test.read_shape h, by simp [plainEnd], Test.read_isToken h⟩
  | close d =>
    obtain ⟨extra, t, rest, -, -, -, rfl⟩ := readClose_eq_some h
    exact ⟨rfl, fun _ => rfl, by simp [plainEnd], by simp [plainEnd]⟩
  | raw =>
    obtain ⟨t, d, inside, a, b, rfl, -, -, rfl⟩ := readRaw_eq_some h
    exact ⟨rfl, fun _ => rfl, by simp [plainEnd], by simp [plainEnd]⟩
  | mark new =>
    obtain rfl := Option.some.inj h
    have hp : new.isPlain = true := hp
    rw [plainEnd, if_pos hp]
    exact ⟨rfl, by simp, fun _ => ⟨rfl, rfl⟩, by simp⟩
  | call p => exact hr p shape ts r h hp
  | seq a b iha ihb =>
    obtain ⟨first, second, ha, hb, rfl⟩ := run_seq h
    have hboth := PlainEnd.Holds.seq (iha ha) (ihb hb hp) hp
    refine ⟨hboth.never, hboth.keeps, hboth.quiet, fun hs => ?_⟩
    rcases Bool.or_eq_true_iff.mp hs with hs | hs
    · exact hboth.single hs
    · obtain ⟨hta, hmb⟩ := Bool.and_eq_true_iff.mp hs
      cases a <;> simp only [isToken, Bool.false_eq_true] at hta
      cases b <;> simp only [isMark, Bool.false_eq_true] at hmb
      obtain rfl := Option.some.inj hb
      obtain ⟨t, hw, hts⟩ := Test.read_isToken ha hta
      exact ⟨t, by simp [hw], hts⟩
  | choose look yes no ihy ihn | probe ahead yes no _ ihy ihn | onShape shapes yes no ihy ihn =>
    simp only [run] at h
    split at h
    · exact (ihy h hp).either_left
    · exact (ihn h hp).either_right
  | braced rule ih =>
    obtain ⟨x, hx, rfl⟩ := Option.map_eq_some_iff.mp h
    dsimp only at hp
    split at hp <;> simp [Shape.isPlain] at hp
  | rewrite writing rule ih =>
    exact ⟨rfl, by simp [plainEnd], by simp [plainEnd], by simp [plainEnd]⟩

theorem readPhrase_plainEnd (depth : Nat) : ∀ p shape ts r,
    readPhrase whole grammar depth p shape ts = some r → r.shape.isPlain = true →
      p.plainEnd.Holds shape ts r :=
  readPhrase_induction
    (motive := fun p shape ts r => r.shape.isPlain = true → p.plainEnd.Holds shape ts r)
    (fun _ hr p _ _ _ h hp =>
      ((grammar p).run_plainEnd hr h hp).mono (grammar_plainEnd p)) depth

/-- Attributes are read as far as they go. -/
theorem Phrase.attributes_rest {ts : List Token} {r : Reading}
    (h : Phrase.attributes.read ts = some r) : (signAt 0 "#").holds r.rest = false := by
  refine readPhrase_induction
    (motive := fun p _ _ r => p = .attributes → (signAt 0 "#").holds r.rest = false)
    (fun readers hr p shape ts r h hp => ?_) _ _ _ _ _ h rfl
  subst hp
  rw [grammar, attributesRule, whenAhead, Rule.run] at h
  split at h
  · obtain ⟨front, last, -, hlast, rfl⟩ := Rule.run_seq h
    exact hr .attributes _ _ last hlast rfl
  · next hno =>
    obtain rfl := Option.some.inj h
    exact Bool.eq_false_iff.mpr hno

theorem Phrase.attributes_none {ts : List Token} (h : (signAt 0 "#").holds ts = false)
    (shape : Shape) : Phrase.attributes.readAfter shape ts = some ⟨shape, [], ts⟩ := by
  rw [Phrase.readAfter_eq_run, grammar, attributesRule]
  exact if_neg (Bool.eq_false_iff.mp h)

theorem Rule.run_settled {rule : PhraseRule}
    (hl : rule.looksBack Phrase.settles Phrase.looksBack = false)
    (hs : rule.settles Phrase.settles = true) (shape shape' : Shape) (ts : List Token) :
    rule.run true Phrase.readAfter shape ts = rule.run true Phrase.readAfter shape' ts := by
  have h := @Rule.run_fromAny true Phrase.readAfter
    (fun p shape shape' us => @readPhrase_fromAny true (depthFor us.length) p shape shape' us) rule hl
    shape shape' ts
  rcases option_rel_iff.mp h with ⟨hx, hy⟩ | ⟨⟨r, w, rest⟩, ⟨r', w', rest'⟩, hx, hy, hr⟩
  · exact hx.trans hy.symm
  · obtain ⟨hshape, rfl, rfl⟩ := hr
    obtain rfl := hshape hs
    exact hx.trans hy.symm

theorem Phrase.unary_attributed {ts : List Token} {attributes : Reading}
    (ha : Phrase.attributes.read ts = some attributes) :
    (Phrase.unary true).readAfter .other ts = ((Phrase.unary true).readAfter .other attributes.rest).map
      fun r => { r with written := attributes.written ++ r.written } := by
  have ha' : (Rule.call Phrase.attributes).run true Phrase.readAfter .other ts = some attributes := ha
  have hnone : (Rule.call Phrase.attributes).run true Phrase.readAfter .other attributes.rest =
      some ⟨.other, [], attributes.rest⟩ := Phrase.attributes_none (Phrase.attributes_rest ha) _
  rw [Phrase.readAfter_eq_run, Phrase.readAfter_eq_run, grammar, unaryRule,
    Rule.run_seq_of_left ha', Rule.run_seq_of_left hnone, Option.map_map,
    Rule.run_settled ?_ ?_ attributes.shape .other]
  · rfl
  · decide +kernel
  · decide +kernel

theorem Phrase.expression_read (ts : List Token) :
    (Phrase.expression true).read ts = ((Phrase.unary true).readAfter .other ts).bind fun operand =>
      ((Phrase.operators .lowest true).readAfter operand.shape operand.rest).map fun last =>
        ⟨last.shape, operand.written ++ last.written, last.rest⟩ := by
  rw [Phrase.read, Phrase.readAfter_eq_run, grammar, expressionRule]
  cases hu : (Phrase.unary true).readAfter .other ts with
  | none =>
    show (Rule.seq (.call (Phrase.unary true)) (.call (Phrase.operators .lowest true))).run _ _ _ _ = _
    simp only [Rule.run, hu, Option.bind_none]
  | some operand => exact Rule.run_seq_of_left hu

/-- Attributes are put in front of the expression that they belong to. -/
theorem Expression.read?_attributed {ts : List Token} {attributes : Reading}
    (ha : Phrase.attributes.read ts = some attributes) :
    Expression.read? ts = (Expression.read? attributes.rest).map fun x =>
      (⟨x.1.shape, attributes.written ++ x.1.tokens⟩, x.2) := by
  rw [Expression.read?_eq, Expression.read?_eq, Phrase.expression_read, Phrase.expression_read,
    Phrase.unary_attributed ha]
  cases (Phrase.unary true).readAfter .other attributes.rest with
  | none => rfl
  | some operand =>
    cases h : (Phrase.operators .lowest true).readAfter operand.shape operand.rest <;> simp [h]

/-- An expression with the shape of a name or of a literal is one token behind its attributes. -/
theorem Expression.read?_plain {x : Expression} {ts rest : List Token}
    (h : Expression.read? ts = some (x, rest)) (hp : x.shape.isPlain = true) :
    ∃ attributes t, Phrase.attributes.read ts = some attributes ∧ attributes.rest = t :: rest ∧
      x.tokens = attributes.written ++ [t] := by
  obtain ⟨r, hr, hx⟩ := Option.map_eq_some_iff.mp h
  obtain ⟨rfl, rfl⟩ := Prod.mk.inj hx
  have hends : ∀ p shape ts r, Phrase.readAfter p shape ts = some r → r.shape.isPlain = true →
      p.plainEnd.Holds shape ts r := fun p shape ts r => readPhrase_plainEnd _ p shape ts r
  have hr : (Phrase.expression true).readAfter .other ts = some r := hr
  rw [Phrase.readAfter_eq_run, grammar, expressionRule] at hr
  obtain ⟨operand, last, ho, hlast, rfl⟩ := Rule.run_seq hr
  have hl : (Phrase.operators .lowest true).plainEnd.Holds operand.shape operand.rest last :=
    hends _ _ _ _ hlast hp
  obtain ⟨hw, hrest⟩ := hl.quiet rfl
  have hshape : operand.shape.isPlain = true := hl.keeps rfl ▸ hp
  have ho : (Phrase.unary true).readAfter .other ts = some operand := ho
  rw [Phrase.readAfter_eq_run, grammar, unaryRule] at ho
  obtain ⟨attributes, atom, ha, hatom, rfl⟩ := Rule.run_seq ho
  obtain ⟨t, hwritten, hts⟩ := (Rule.run_plainEnd hends _ hatom hshape).single rfl
  refine ⟨attributes, t, ha, ?_, ?_⟩
  · rw [hts, hrest]
  · simp [hwritten, hw]

theorem Expression.ofTokens?_eq_some_iff {ts : List Token} {x : Expression} :
    Expression.ofTokens? ts = some x ↔ Expression.read? ts = some (x, []) := by
  unfold ofTokens?
  split
  · next e h => simp [h]
  · next h =>
    exact ⟨by simp, fun hx => absurd hx (h x)⟩

/-- An expression is reported with the span of all its tokens. -/
theorem Expression.ofTokens?_span {ts : List Token} {x : Expression}
    (hx : Expression.ofTokens? ts = some x) : Token.spanOf? ts = some x.span := by
  have hread := Expression.ofTokens?_eq_some_iff.mp hx
  have hnil : Expression.read? (ts ++ []) = some (x, []) := by rw [List.append_nil, hread]
  have hspan := Expression.inFront?_span hnil
  cases ts with
  | nil =>
    have hnone : Expression.read? [] = none := rfl
    simp [hnone] at hread
  | cons t ts =>
    rw [Expression.span, hspan]
    rfl

end FieldKeys
