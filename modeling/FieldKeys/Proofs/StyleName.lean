import FieldKeys.Proofs.FieldKey
import FieldKeys.Proofs.Grammar.SingleToken
import FieldKeys.Proofs.StyleFault

/-! Which expressions name a style: a single word or a string literal with one of four spellings,
whatever the attributes in front of it. -/

namespace FieldKeys

def Style.spellings : Style → List Text
  | .snake => ["snake_cased".toList, "snakeCased".toList]
  | .kebab => ["kebab_cased".toList, "kebabCased".toList]

theorem Style.ofName?_eq_some_iff {name : Text} {s : Style} :
    Style.ofName? name = some s ↔ name ∈ s.spellings := by
  constructor
  · intro h
    unfold ofName? at h
    split_ifs at h with hsnake hkebab
    · obtain rfl := Option.some.inj h
      simpa [spellings] using hsnake
    · obtain rfl := Option.some.inj h
      simpa [spellings] using hkebab
  · intro h
    revert name
    cases s <;> decide

/-- A word gives itself with its raw mark, a string literal its value. -/
inductive Token.GivesName (t : Token) (name : Text) : Prop
  | word (h : t.lexeme = .word name)
  | string (h : t.IsString name)

theorem Token.GivesName.unique {t : Token} {name name' : Text} (h : t.GivesName name)
    (h' : t.GivesName name') : name = name' := by
  cases h with
  | word h =>
    cases h' with
    | word h' => exact Lexeme.word.inj (h.symm.trans h')
    | string h' =>
      obtain ⟨text, ht, -⟩ := h'
      simp [ht] at h
  | string h =>
    obtain ⟨text, ht, hv⟩ := h
    cases h' with
    | word h' => simp [ht] at h'
    | string h' =>
      obtain ⟨text', ht', hv'⟩ := h'
      obtain rfl := Lexeme.literal.inj (ht.symm.trans ht')
      exact Option.some.inj (hv.symm.trans hv')

/-- Behind their attributes the tokens are one, and it gives a spelling of the style. -/
def SpellsStyle (ts : List Token) (s : Style) : Prop :=
  ∃ attributes t name, Phrase.attributes.read ts = some attributes ∧ attributes.rest = [t] ∧
    t.GivesName name ∧ name ∈ s.spellings

theorem Expression.read?_spelling {s : Style} {name : Text} (hn : name ∈ s.spellings)
    {t : Token} (ht : t.lexeme = .word name) : Expression.read? [t] = some (⟨.name, [t]⟩, []) := by
  obtain ⟨l, span⟩ := t
  obtain rfl : l = .word name := ht
  cases s with
  | snake =>
    rcases List.mem_pair.mp hn with rfl | rfl
    · rfl
    · rfl
  | kebab =>
    rcases List.mem_pair.mp hn with rfl | rfl
    · rfl
    · rfl

theorem SpellsStyle.namesStyle {ts : List Token} {x : Expression} {s : Style}
    (hx : Expression.ofTokens? ts = some x) (h : SpellsStyle ts s) : x.NamesStyle s := by
  obtain ⟨attributes, t, name, ha, hrest, hg, hn⟩ := h
  have hx := Expression.ofTokens?_eq_some_iff.mp hx
  rw [Expression.read?_attributed ha, hrest] at hx
  refine ⟨name, ?_, Style.ofName?_eq_some_iff.mpr hn⟩
  cases hg with
  | word ht =>
    rw [Expression.read?_spelling hn ht] at hx
    obtain ⟨rfl, -⟩ := Prod.mk.inj (Option.some.inj hx)
    left
    simp [Expression.name?, Token.word?, ht]
  | string ht =>
    obtain ⟨text, hl, hv⟩ := ht
    rw [Expression.read?_literal hl rfl] at hx
    obtain ⟨rfl, -⟩ := Prod.mk.inj (Option.some.inj hx)
    right
    simp [Expression.stringValue?, Token.literal?, hl, hv]

theorem Expression.NamesStyle.spells {ts : List Token} {x : Expression} {s : Style}
    (hx : Expression.ofTokens? ts = some x) (h : x.NamesStyle s) : SpellsStyle ts s := by
  have hx := Expression.ofTokens?_eq_some_iff.mp hx
  obtain ⟨name, hname, hs⟩ := h
  have hspelled := Style.ofName?_eq_some_iff.mp hs
  unfold Expression.name? Expression.stringValue? at hname
  rcases hname with hname | hvalue
  · split at hname
    · next hshape =>
      obtain ⟨attributes, t, ha, hrest, htokens⟩ := Expression.read?_plain hx (by rw [hshape]; rfl)
      have hw : t.word? = some name := by simpa [htokens] using hname
      have hl : t.lexeme = .word name := by
        unfold Token.word? at hw
        split at hw <;> simp_all
      exact ⟨attributes, t, name, ha, hrest, .word hl, hspelled⟩
    · simp at hname
  · split at hvalue
    · next hshape =>
      obtain ⟨attributes, t, ha, hrest, htokens⟩ := Expression.read?_plain hx (by rw [hshape]; rfl)
      obtain ⟨text, hl, hv⟩ : ∃ text, t.literal? = some text ∧ FieldKeys.stringValue? text = some name := by
        simpa [htokens, Option.bind_eq_some_iff] using hvalue
      have hl : t.lexeme = .literal text := by
        unfold Token.literal? at hl
        split at hl <;> simp_all
      exact ⟨attributes, t, name, ha, hrest, .string ⟨text, hl, hv⟩, hspelled⟩
    · simp at hvalue

theorem Style.ofExpression_ok_iff_spells {ts : List Token} {x : Expression} {s : Style}
    (hx : Expression.ofTokens? ts = some x) : Style.ofExpression x = .ok s ↔ SpellsStyle ts s :=
  ofExpression_eq_ok_iff.trans ⟨fun h => h.spells hx, fun h => h.namesStyle hx⟩

theorem spellsStyle_single {t : Token} {s : Style} {name : Text} (ht : t.GivesName name) :
    SpellsStyle [t] s ↔ name ∈ s.spellings := by
  have hnone : Phrase.attributes.read [t] = some ⟨.other, [], [t]⟩ := by
    refine Phrase.attributes_none ?_ _
    rcases ht with ht | ⟨text, ht, -⟩ <;> simp [signAt, Look.holds, Test.holds, signAhead, ht]
  constructor
  · rintro ⟨attributes, u, name', ha, hrest, hu, hn⟩
    obtain rfl := Option.some.inj (hnone.symm.trans ha)
    obtain rfl := List.cons.inj hrest |>.1
    rwa [← hu.unique ht]
  · exact fun hn => ⟨_, t, name, hnone, rfl, ht, hn⟩

/-- A style is named by the expressions that are, behind their attributes, one word or one string
literal with a spelling of it; every other expression is refused with its whole span. So a word is
accepted or refused as the string literals that have it as their value are, plain or raw ones,
whatever the suffix. -/
theorem style_of_expression {ts : List Token} {x : Expression}
    (hx : Expression.ofTokens? ts = some x) :
    (∀ s, Style.ofExpression x = .ok s ↔ SpellsStyle ts s) ∧
    (∀ f, Style.ofExpression x = .error f ↔ (∀ s, ¬ SpellsStyle ts s) ∧
      ∃ span, Token.spanOf? ts = some span ∧ f = .unrecognizedStyle span) ∧
    ∀ w name, ts = [w] → w.lexeme = .word name →
      (∀ l : Token, l.IsString name → ∃ y, Expression.ofTokens? [l] = some y ∧
        ∀ s, Style.ofExpression y = .ok s ↔ Style.ofExpression x = .ok s) ∧
      ∀ suffix : Text, stringValue? (quote name ++ suffix) = some name ∧
        ∀ hashes ≤ 255, (∀ c ∈ name, c ≠ '"' ∧ c ≠ '\r') →
          stringValue? (rawQuote hashes name ++ suffix) = some name := by
  have hok := fun s => Style.ofExpression_ok_iff_spells (s := s) hx
  refine ⟨hok, fun f => ?_, ?_⟩
  · simp only [Style.ofExpression_eq_error_iff, ← Style.ofExpression_eq_ok_iff, hok,
      Expression.ofTokens?_span hx, Option.some.injEq, exists_eq_left']
  · rintro w name rfl hw
    refine ⟨fun l hl => ?_, fun suffix => ⟨stringValue?_quote_append name suffix,
      fun hashes hn hplain => stringValue?_rawQuote hn hplain suffix⟩⟩
    have ⟨text, htext, _⟩ := hl
    have hy : Expression.ofTokens? [l] = some ⟨.literal, [l]⟩ :=
      Expression.ofTokens?_eq_some_iff.mpr (Expression.read?_literal htext rfl)
    refine ⟨_, hy, fun s => ?_⟩
    rw [hok, Style.ofExpression_ok_iff_spells hy, spellsStyle_single (.string hl),
      spellsStyle_single (.word hw)]

theorem style_of_expression_kebab :
    let w := (Lexeme.word "kebabCased".toList).token
    let l := (Lexeme.literal "r#\"kebabCased\"#x".toList).token
    Expression.ofTokens? [w] = some ⟨.name, [w]⟩ ∧ Style.ofExpression ⟨.name, [w]⟩ = .ok .kebab ∧
      ∃ y, Expression.ofTokens? [l] = some y ∧ Style.ofExpression y = .ok .kebab := by
  intro w l
  have hw : Expression.ofTokens? [w] = some ⟨.name, [w]⟩ :=
    Expression.ofTokens?_eq_some_iff.mpr (Expression.read?_spelling (s := .kebab) (by decide) rfl)
  obtain ⟨hok, -, hstring⟩ := style_of_expression hw
  have hkebab : Style.ofExpression ⟨.name, [w]⟩ = .ok .kebab :=
    (hok .kebab).mpr ((spellsStyle_single (.word rfl)).mpr (by decide))
  have hl : l.IsString "kebabCased".toList := ⟨_, rfl, by decide⟩
  obtain ⟨y, hy, hsame⟩ := (hstring w _ rfl rfl).1 l hl
  exact ⟨hw, hkebab, y, hy, (hsame .kebab).mpr hkebab⟩

/-- A raw word, a word in parentheses and a literal of bytes give no spelling. -/
example :
    let refused (ls : List Lexeme) : Bool := match Expression.ofTokens? (ls.map Lexeme.token) with
      | some x => !(Style.ofExpression x).isOk
      | none => false
    refused [.word "r#snake_cased".toList] ∧
      refused [.opening .paren, .word "snake_cased".toList, .closing .paren] ∧
      refused [.literal "b\"snake_cased\"".toList] := by
  decide +kernel

end FieldKeys
