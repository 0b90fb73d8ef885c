import FieldKeys.Proofs.Grammar.Shapes
import FieldKeys.Proofs.Places

/-! Arguments behind the first one for a custom key. They have to be expressions, and that is all
that is asked of them. -/

namespace FieldKeys

theorem firstOf_run_of_not {readers : Phrase → Reader} {cases : List (Look × PhraseRule)}
    {otherwise : PhraseRule} {shape : Shape} {ts : List Token}
    (h : ∀ c ∈ cases, c.1.holds ts = false) :
    (firstOf cases otherwise).run true readers shape ts = otherwise.run true readers shape ts := by
  induction cases with
  | nil => rfl
  | cons c cases ih =>
    have hc : ¬ c.1.holds ts = true := Bool.eq_false_iff.mp (h c (by simp))
    exact (if_neg hc).trans (ih fun d hd => h d (by simp [hd]))

theorem signAhead_equals {s : Text} {s' : Span} {joint : Bool} {r : List Token}
    (h : signAhead s (⟨.sign '=' joint, s'⟩ :: r) = true) (hs : s ≠ []) : s.head? = some '=' := by
  rcases s with _ | ⟨c, _ | ⟨d, s⟩⟩
  · simp at hs
  · exact congrArg some (beq_iff_eq.mp h).symm
  · obtain ⟨hc, -⟩ := Bool.and_eq_true_iff.mp h
    obtain ⟨hc, -⟩ := Bool.and_eq_true_iff.mp hc
    exact congrArg some (beq_iff_eq.mp hc).symm

def assignmentRule : PhraseRule :=
  sign "=" ++ .call (.expression true) ++ .mark .other ++ .call (.operators .lowest true)

/-- After an operand an equals sign alone is an assignment. -/
theorem operators_run_equals {s' : Span} {joint : Bool} {r : List Token}
    (hlook : (signAt 0 "==" ||| signAt 0 "=>").holds (⟨.sign '=' joint, s'⟩ :: r) = false) :
    (Phrase.operators .lowest true).readAfter .name (⟨.sign '=' joint, s'⟩ :: r) =
      assignmentRule.run true Phrase.readAfter .name (⟨.sign '=' joint, s'⟩ :: r) := by
  obtain ⟨hcompare, harrow⟩ := Bool.or_eq_false_iff.mp hlook
  -- Of the operators with two operands only the comparison begins with this sign.
  have hfirst : ∀ op ∈ binaryOperators, op.1.toList = "==".toList ∨ op.1.toList.head? ≠ some '=' := by
    decide
  have hnil : ∀ op ∈ binaryOperators, op.1.toList ≠ [] := by decide
  rw [Phrase.readAfter_eq_run, grammar, operatorsRule, Rule.run, if_neg (by decide),
    firstOf_run_of_not]
  · have hassign : (signAt 0 "=" &&& ~~~signAt 0 "=>").holds (⟨.sign '=' joint, s'⟩ :: r) = true :=
      Bool.and_eq_true_iff.mpr ⟨rfl, congrArg not harrow⟩
    exact if_pos hassign
  · intro c hc
    obtain ⟨op, hop, rfl⟩ := List.mem_map.mp hc
    rw [Bool.eq_false_iff]
    intro hh
    have hh : signAhead op.1.toList (⟨.sign '=' joint, s'⟩ :: r) = true := hh
    rcases hfirst op hop with he | hne
    · rw [he] at hh
      exact Bool.eq_false_iff.mp hcompare hh
    · exact hne (signAhead_equals hh (hnil op hop))

theorem operators_equals {s' : Span} {joint : Bool} {r : List Token} {second : Reading}
    (h : (Phrase.operators .lowest true).readAfter .name (⟨.sign '=' joint, s'⟩ :: r) = some second)
    (hlook : (signAt 0 "==" ||| signAt 0 "=>").holds (⟨.sign '=' joint, s'⟩ :: r) = false) :
    ∃ x, (Phrase.expression true).readAfter .name r = some x := by
  rw [operators_run_equals hlook, assignmentRule] at h
  obtain ⟨before, -, h, -, -⟩ := Rule.run_seq h
  obtain ⟨before, -, h, -, -⟩ := Rule.run_seq h
  obtain ⟨equals, x, he, hx, -⟩ := Rule.run_seq h
  obtain rfl := Option.some.inj he
  exact ⟨x, hx⟩

theorem afterLabel?_eq_some {ts us : List Token} (h : afterLabel? ts = some us) :
    ∃ attributes s s' joint, Phrase.attributes.read ts = some attributes ∧
      attributes.rest = ⟨.word Directive.label, s⟩ :: ⟨.sign '=' joint, s'⟩ :: us ∧
      (signAt 0 "==" ||| signAt 0 "=>").holds (⟨.sign '=' joint, s'⟩ :: us) = false := by
  obtain ⟨attributes, ha, h⟩ := Option.bind_eq_some_iff.mp h
  refine ⟨attributes, ?_⟩
  split at h
  · next label equals rest hrest =>
    split at h
    · next hh =>
      obtain ⟨hl, he, hlook⟩ := hh
      obtain rfl := Option.some.inj h
      obtain ⟨l, s⟩ := label
      obtain ⟨e, s'⟩ := equals
      obtain rfl := Lexeme.isWord_iff.mp hl
      cases e with
      | sign c joint =>
        obtain rfl : c = '=' := by simpa [isSign] using he
        exact ⟨s, s', joint, ha, hrest, hlook⟩
      | _ => simp [isSign] at he
    · simp at h
  · simp at h

theorem Expression.read?_unary {ts : List Token} {x : Expression × List Token}
    (h : Expression.read? ts = some x) :
    ∃ operand second, (Phrase.unary true).readAfter .other ts = some operand ∧
      (Phrase.operators .lowest true).readAfter operand.shape operand.rest = some second := by
  obtain ⟨r, hr, -⟩ := Option.map_eq_some_iff.mp h
  rw [Phrase.inFront_eq_run, grammar, expressionRule] at hr
  obtain ⟨operand, second, ho, hs, -⟩ := Rule.run_seq hr
  exact ⟨operand, second, ho, hs⟩

/-- An operand begins with its attributes. A label before an equals sign is the whole of the rest. -/
theorem unary_attributes {ts : List Token} {operand : Reading}
    (h : (Phrase.unary true).readAfter .other ts = some operand) :
    ∃ attributes, Phrase.attributes.read ts = some attributes ∧ ∀ s s' joint us,
      attributes.rest = ⟨.word Directive.label, s⟩ :: ⟨.sign '=' joint, s'⟩ :: us →
        operand.shape = .name ∧ operand.rest = ⟨.sign '=' joint, s'⟩ :: us := by
  rw [Phrase.readAfter_eq_run, grammar, unaryRule] at h
  obtain ⟨attributes, atom, ha, hatom, rfl⟩ := Rule.run_seq h
  refine ⟨attributes, ha, fun s s' joint us hrest => ?_⟩
  rw [hrest] at hatom
  obtain rfl : (⟨.name, [⟨.word Directive.label, s⟩], ⟨.sign '=' joint, s'⟩ :: us⟩ : Reading) = atom :=
    Option.some.inj hatom
  exact ⟨rfl, rfl⟩

theorem Expression.read?_afterLabel {ts us : List Token} {x : Expression × List Token}
    (h : Expression.read? ts = some x) (ha : afterLabel? ts = some us) :
    ∃ y, Expression.read? us = some y := by
  obtain ⟨attributes, s, s', joint, hattributes, hrest, hlook⟩ := afterLabel?_eq_some ha
  obtain ⟨operand, second, ho, hs⟩ := read?_unary h
  obtain ⟨attributes', ha', hlabel⟩ := unary_attributes ho
  obtain rfl := Option.some.inj (hattributes.symm.trans ha')
  obtain ⟨hshape, hleft⟩ := hlabel s s' joint us hrest
  rw [hshape, hleft] at hs
  obtain ⟨y, hy⟩ := operators_equals hs hlook
  rw [Phrase.readAfter_eq_read rfl rfl] at hy
  exact ⟨_, congrArg (Option.map _) hy⟩

theorem atArgumentEnd_append (ts : List Token) {tail : List Token} (h : atArgumentEnd tail = true) :
    atArgumentEnd (ts ++ tail) = atArgumentEnd ts := by
  cases ts with
  | nil => exact h
  | cons t ts => rfl

theorem afterLabel?_append {ts tail : List Token} {attributes : Reading}
    (ha : Phrase.attributes.read ts = some attributes) (ht : atArgumentEnd tail = true) :
    afterLabel? (ts ++ tail) = (afterLabel? ts).map (· ++ tail) := by
  have ha' : Phrase.attributes.read (ts ++ []) = some attributes := by rw [List.append_nil, ha]
  have hread : Phrase.attributes.read (ts ++ tail) =
      some { attributes with rest := attributes.rest ++ tail } :=
    Phrase.inFront_tail rfl ha' (List.append_nil _).symm .nothing (.of_argument ht)
  unfold afterLabel?
  rw [hread, ha, Option.bind_some, Option.bind_some]
  rcases tail with _ | ⟨t, tail⟩
  · simp
  -- A comma is neither a label nor an equals sign, and no operator goes on with it.
  obtain ⟨l, s⟩ := t
  obtain ⟨joint, rfl : l = _⟩ := exists_sign ht
  rcases attributes.rest with _ | ⟨label, _ | ⟨equals, us⟩⟩
  · cases tail <;> rfl
  · simp [isSign]
  · have hlook : ∀ text : String, ',' ∉ text.toList → (signAt 0 text).holds
        (equals :: us ++ ⟨.sign ',' joint, s⟩ :: tail) = (signAt 0 text).holds (equals :: us) :=
      fun text hc => signAhead_append_end hc (.of_argument ht)
    have hboth : (signAt 0 "==" ||| signAt 0 "=>").holds
          (equals :: us ++ ⟨.sign ',' joint, s⟩ :: tail) =
        (signAt 0 "==" ||| signAt 0 "=>").holds (equals :: us) :=
      congrArg₂ or (hlook "==" (by decide)) (hlook "=>" (by decide))
    simp only [List.cons_append] at hboth ⊢
    rw [hboth]
    split <;> rfl

def WholeExpression (ts : List Token) : Prop :=
  ∃ x, Expression.read? ts = some (x, [])

theorem wholeExpression_iff {ts : List Token} :
    (Expression.read? ts).any (·.2.isEmpty) = true ↔ WholeExpression ts := by
  unfold WholeExpression
  cases Expression.read? ts with
  | none => simp
  | some x => simp [Prod.ext_iff]

instance (ts : List Token) : Decidable (WholeExpression ts) :=
  decidable_of_iff _ wholeExpression_iff

theorem Expression.read?_append {ts tail left : List Token} {x : Expression}
    (h : Expression.read? ts = some (x, left)) (ht : Ends tail) :
    Expression.read? (ts ++ tail) = some (x, left ++ tail) := by
  have h' : Expression.read? (ts ++ []) = some (x, left ++ []) := by
    rw [List.append_nil, List.append_nil, h]
  exact Expression.inFront?_tail h' .nothing ht

theorem labelled?_append {ts tail : List Token} (h : WholeExpression ts)
    (ht : atArgumentEnd tail = true) : labelled? (ts ++ tail) = labelled? ts := by
  obtain ⟨x, hx⟩ := h
  obtain ⟨operand, -, ho, -⟩ := Expression.read?_unary hx
  obtain ⟨attributes, ha, -⟩ := unary_attributes ho
  unfold labelled?
  rw [afterLabel?_append ha ht]
  cases hl : afterLabel? ts with
  | none => rfl
  | some us =>
    obtain ⟨⟨y, left⟩, hy⟩ := Expression.read?_afterLabel hx hl
    simp only [Option.map_some, Option.bind_some, hy, Expression.read?_append hy (.of_argument ht),
      atArgumentEnd_append left ht]

theorem Expression.readList?_eq {n m : Nat} {ts : List Token} (hn : ts.length ≤ n)
    (hm : ts.length ≤ m) : Expression.readList? n ts = Expression.readList? m ts := by
  induction n generalizing m ts with
  | zero =>
    obtain rfl := List.eq_nil_of_length_eq_zero (Nat.le_zero.mp hn)
    cases m <;> rfl
  | succ n ih =>
    rcases ts with _ | ⟨t, ts⟩
    · cases m <;> rfl
    obtain ⟨m, rfl⟩ : ∃ k, m = k + 1 := ⟨m - 1, by simp at hm; omega⟩
    simp only [readList?]
    split
    · rfl
    · next comma rest hr =>
      have hlt := inFront?_length hr
      simp only [List.length_cons] at hlt hn hm
      rw [ih (by omega) (by omega : rest.length ≤ m)]
    · rfl

theorem Expression.listOfTokens?_last {ts : List Token} {x : Expression}
    (h : Expression.read? ts = some (x, [])) : Expression.listOfTokens? ts = some [x] := by
  cases ts with
  | nil => exact absurd (inFront?_length h) (by simp)
  | cons t ts => simp [listOfTokens?, readList?, h]

theorem Expression.listOfTokens?_more {ts us : List Token} {comma : Token} {x : Expression}
    (h : Expression.read? ts = some (x, [])) (hc : isSign ',' comma = true) :
    Expression.listOfTokens? (ts ++ comma :: us) =
      (Expression.listOfTokens? us).map (x :: ·) := by
  have hend : Ends (comma :: us) := .comma hc
  have hread := read?_append h hend
  cases ts with
  | nil => exact absurd (inFront?_length h) (by simp)
  | cons t ts =>
    rw [List.cons_append] at hread ⊢
    rw [listOfTokens?, List.length_cons, readList?]
    simp only [hread, List.nil_append, hc, if_true]
    rw [listOfTokens?, readList?_eq (by simp; omega) (Nat.le_refl us.length)]

/-- A list of arguments before and after arguments were put in behind the first one. What is put in
between has to be whole; of lists that can be read no more is asked. The last sign of an argument
is joint with a comma or not. -/
inductive FurtherArguments : List Token → List Token → Prop
  | inserted {comma : Token} {p p' q rest : List Token} (hp : WholeExpression p) (ha : Alike p p')
      (hc : isSign ',' comma = true) (hq : WholeExpression q) (hr : atArgumentEnd rest = true) :
      FurtherArguments (p ++ rest) (p' ++ comma :: (q ++ rest))
  | later {comma comma' : Token} {p p' ts ts' : List Token} (hp : WholeExpression p)
      (ha : Alike p p') (hc : isSign ',' comma = true) (hc' : isSign ',' comma' = true)
      (h : FurtherArguments ts ts') : FurtherArguments (p ++ comma :: ts) (p' ++ comma' :: ts')
  | readable {p p' rest rest' : List Token} (hp : WholeExpression p) (ha : Alike p p')
      (hr : atArgumentEnd rest = true) (hr' : atArgumentEnd rest' = true)
      (hs : Expression.listOfTokens? (p ++ rest) ≠ none)
      (hs' : Expression.listOfTokens? (p' ++ rest') ≠ none) :
      FurtherArguments (p ++ rest) (p' ++ rest')

theorem WholeExpression.alike {ts ts' : List Token} (h : WholeExpression ts) (ha : Alike ts ts') :
    ∃ x y, Expression.read? ts = some (x, []) ∧ Expression.read? ts' = some (y, []) ∧
      x.unplaced = y.unplaced := by
  obtain ⟨x, hx⟩ := h
  rcases option_rel_iff.mp (Expression.read?_unplaced ha) with
    ⟨hn, -⟩ | ⟨x', ⟨y, left⟩, hx', hy, hxy, hl⟩
  · simp [hx] at hn
  · obtain rfl := Option.some.inj (hx.symm.trans hx')
    obtain rfl := hl.eq_nil_iff.mp rfl
    exact ⟨x, y, hx, hy, hxy⟩

theorem FurtherArguments.first {ts ts' : List Token} (h : FurtherArguments ts ts') :
    ∃ p p' rest rest', ts = p ++ rest ∧ ts' = p' ++ rest' ∧ WholeExpression p ∧ Alike p p' ∧
      atArgumentEnd rest = true ∧ atArgumentEnd rest' = true := by
  cases h with
  | inserted hp ha hc hq hr => exact ⟨_, _, _, _, rfl, rfl, hp, ha, hr, hc⟩
  | later hp ha hc hc' h => exact ⟨_, _, _, _, rfl, rfl, hp, ha, hc, hc'⟩
  | readable hp ha hr hr' => exact ⟨_, _, _, _, rfl, rfl, hp, ha, hr, hr'⟩

theorem Expression.isSome_listOfTokens?_inserted {comma : Token} {p p' q rest : List Token}
    {x y : Expression} (hp : Expression.read? p = some (x, []))
    (hp' : Expression.read? p' = some (y, [])) (hc : isSign ',' comma = true)
    (hq : WholeExpression q) (hr : atArgumentEnd rest = true) :
    (Expression.listOfTokens? (p ++ rest)).isSome =
      (Expression.listOfTokens? (p' ++ comma :: (q ++ rest))).isSome := by
  obtain ⟨z, hz⟩ := hq
  rw [listOfTokens?_more hp' hc, Option.isSome_map]
  rcases rest with _ | ⟨comma', us⟩
  · simp [listOfTokens?_last hp, listOfTokens?_last hz]
  · rw [listOfTokens?_more hp hr, listOfTokens?_more hz hr, Option.isSome_map, Option.isSome_map]

theorem FurtherArguments.isSome_eq {ts ts' : List Token} (h : FurtherArguments ts ts') :
    (Expression.listOfTokens? ts).isSome = (Expression.listOfTokens? ts').isSome := by
  induction h with
  | inserted hp ha hc hq hr =>
    obtain ⟨x, y, hx, hy, -⟩ := hp.alike ha
    exact Expression.isSome_listOfTokens?_inserted hx hy hc hq hr
  | later hp ha hc hc' _ ih =>
    obtain ⟨x, y, hx, hy, -⟩ := hp.alike ha
    rw [Expression.listOfTokens?_more hx hc, Expression.listOfTokens?_more hy hc', Option.isSome_map,
      Option.isSome_map, ih]
  | readable hp ha hr hr' hs hs' =>
    rw [Option.isSome_iff_ne_none.mpr hs, Option.isSome_iff_ne_none.mpr hs']

/-- The key among arguments of which the first is whole is that of the first. -/
theorem customKey?_whole {ts tail : List Token} {x : Expression}
    (h : Expression.read? ts = some (x, [])) (ht : atArgumentEnd tail = true) :
    customKey? (ts ++ tail) =
      (Expression.listOfTokens? (ts ++ tail)).map fun _ => (labelled? ts).or (some x) := by
  have hhead : ∀ es, Expression.listOfTokens? (ts ++ tail) = some es → es.head? = some x := by
    intro es hes
    rcases tail with _ | ⟨comma, us⟩
    · rw [List.append_nil, Expression.listOfTokens?_last h] at hes
      obtain rfl := Option.some.inj hes
      rfl
    · rw [Expression.listOfTokens?_more h ht] at hes
      obtain ⟨es, -, rfl⟩ := Option.map_eq_some_iff.mp hes
      rfl
  unfold customKey?
  rw [labelled?_append ⟨x, h⟩ ht]
  cases hl : Expression.listOfTokens? (ts ++ tail) with
  | none => rfl
  | some es => rw [Option.map_some, Option.map_some, hhead es hl]

/-- Further arguments do not matter to the key. -/
theorem FurtherArguments.customKey? {ts ts' : List Token} (h : FurtherArguments ts ts') :
    Option.Rel (fun x y => x.map Expression.unplaced = y.map Expression.unplaced)
      (FieldKeys.customKey? ts) (FieldKeys.customKey? ts') := by
  have hsome := h.isSome_eq
  obtain ⟨p, p', rest, rest', rfl, rfl, hp, ha, hr, hr'⟩ := h.first
  obtain ⟨x, y, hx, hy, hxy⟩ := hp.alike ha
  have hlabel := labelled?_alike ha
  rw [customKey?_whole hx hr, customKey?_whole hy hr']
  cases hl : Expression.listOfTokens? (p ++ rest) <;>
    cases hl' : Expression.listOfTokens? (p' ++ rest') <;> simp only [hl, hl', Option.isSome_none,
      Option.isSome_some, reduceCtorEq] at hsome
  case none.none => exact .none
  case some.some =>
    refine .some ?_
    cases hk : labelled? p <;> cases hk' : labelled? p' <;>
      simp only [hk, hk', Option.map_none, Option.map_some, reduceCtorEq] at hlabel
    case none.none => exact congrArg some hxy
    case some.some => exact hlabel

end FieldKeys
