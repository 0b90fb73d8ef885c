import FieldKeys.Proofs.Grammar.Reading

/-! The depth of nesting that a reader is given bounds nothing: phrases that call each other on the
same tokens have falling ranks, and any other call comes after a token has been read. So a phrase
is read as its rule says, with the phrases that it calls read in the same way. -/

namespace FieldKeys

variable {whole : Bool}

/-- Whether a phrase may be there without a token. -/
def Phrase.idle : Phrase → Bool
  | .attributes | .innerAttributes | .pathRest _ | .angleItems | .types | .functionInputs _
  | .callInputs | .binderItems | .bounds _ | .plusBounds | .looseBounds | .captures
  | .parameterBounds | .lifetimeBounds | .whereItems | .whereBounds | .patternCases | .patterns
  | .patternFields | .trailers | .operators _ _ | .rangeEnd _ | .expressions | .structureItems
  | .closureInputs | .arms | .statements | .visibility | .namedFieldItems | .tupleFields
  | .variants | .generics | .parameters | .whereClause | .itemBounds | .inputs _ | .items
  | .useTrees _ | .members _ => true
  | _ => false

/-- How many phrases may be called one out of the other, from this one on, before a token is
read. -/
def Phrase.rank : Phrase → Nat
  | .angleItems | .statements | .tupleFields => 7
  | .attributeValue | .angleItem | .types | .functionInputs _ | .whereItems | .expressions
  | .statement | .fieldType | .tupleField | .inputs _ => 6
  | .type _ | .patterns | .expression _ | .rangeEnd _ | .arms | .statementExpression => 5
  | .boundsWithTrait _ _ | .parameterBounds | .whereBounds | .pattern | .unary _
  | .closureInputs | .itemBounds | .items => 4
  | .bound _ | .patternCase | .atom _ | .item | .members _ => 3
  | .typePath | .boundPath _ | .patternEnd | .pathExpression _ | .parameters | .definition true
  | .member _ true => 2
  | .plainPath | .path _ | .qualifiedRest _ | .constant | .nestedPath | .binderItems
  | .patternFields | .structureItems | .closure _ | .namedFieldItems | .variants | .parameter
  | .definition false | .useTrees _ | .member _ false => 1
  | _ => 0

/-- Phrases that an expression has only in brackets. -/
def Phrase.bracketed : Phrase → Bool
  | .attributeValue | .innerAttributes | .plainPath | .plainPathWords | .nestedPath
  | .nestedPathWords | .types | .functionInputs _ | .lifetimeBounds | .whereItems | .whereBounds
  | .patterns | .patternFields | .expressions | .structureItems | .arms | .statements | .statement
  | .statementExpression | .visibility | .fieldType | .namedFields | .namedFieldItems
  | .tupleField | .tupleFields | .variants | .bounds .parameter | .boundsWithTrait .parameter _
  | .generics | .parameters | .parameter | .whereClause | .itemBounds | .signature _ | .inputs _
  | .items | .item | .definition _ | .useTree _ | .useTrees _ | .members _ | .member _ _ => true
  | _ => false

/-- Whether a rule that succeeds has read a token. -/
def Rule.reads {P : Type} (idle : P → Bool) : Rule P → Bool
  | .done | .mark _ => false
  | .fail | .close _ | .raw => true
  | .take (.sign s) => !s.isEmpty
  | .take _ => true
  | .call p => !idle p
  | .seq a b => a.reads idle || b.reads idle
  | .choose _ a b | .probe _ a b | .onShape _ a b => a.reads idle && b.reads idle
  | .braced r | .rewrite _ r => r.reads idle

/-- Whether all phrases are `good` that a rule may call before it has read a token. -/
def Rule.callsFirst {P : Type} (idle good : P → Bool) : Rule P → Bool
  | .call p => good p
  | .seq a b => a.callsFirst idle good && (a.reads idle || b.callsFirst idle good)
  | .choose _ a b | .onShape _ a b => a.callsFirst idle good && b.callsFirst idle good
  | .probe c a b =>
    c.callsFirst idle good && (a.callsFirst idle good && b.callsFirst idle good)
  | .braced r | .rewrite _ r => r.callsFirst idle good
  | _ => true

theorem Phrase.rank_le (p : Phrase) : p.rank ≤ 7 := by
  unfold rank
  split <;> decide

theorem grammar_reads (p : Phrase) : (p.idle || (grammar p).reads Phrase.idle) = true :=
  Phrase.of_all (f := fun p => p.idle || (grammar p).reads Phrase.idle) (by decide +kernel) p

theorem grammar_callsFirst (p : Phrase) :
    (grammar p).callsFirst Phrase.idle (fun q => decide (q.rank < p.rank)) = true :=
  Phrase.of_all (f := fun p => (grammar p).callsFirst Phrase.idle fun q => decide (q.rank < p.rank))
    (by decide +kernel) p

theorem Test.read_length {test : Test} {shape : Shape} {ts : List Token} {r : Reading}
    (h : test.read shape ts = some r) (hr : (Rule.take test : PhraseRule).reads Phrase.idle = true) :
    r.rest.length < ts.length := by
  rcases Test.read_eq_some h with ⟨s, rfl, ht, rfl⟩ | ⟨t, rest, rfl, -, rfl⟩
  · cases s with
    | nil => simp [Rule.reads] at hr
    | cons c s =>
      cases ts with
      | nil => simp [signAhead] at ht
      | cons t ts => simp only [List.length_drop, List.length_cons]; omega
  · simp

theorem readClose_length {d : Delimiter} {shape : Shape} {ts : List Token} {r : Reading}
    (h : readClose whole d shape ts = some r) : r.rest.length < ts.length := by
  obtain ⟨extra, t, rest, hcut, -, -, rfl⟩ := readClose_eq_some h
  rw [cutGroup_append hcut]
  simp only [List.length_append, List.length_singleton]
  omega

theorem readRaw_length {shape : Shape} {ts : List Token} {r : Reading}
    (h : readRaw shape ts = some r) : r.rest.length < ts.length := by
  obtain ⟨t, d, inside, a, b, rfl, -, hx, rfl⟩ := readRaw_eq_some h
  have hl := congrArg List.length (cutGroup_append hx)
  simp only [List.length_append] at hl
  simp only [List.length_cons]
  omega

theorem Rule.run_length {readers : Phrase → Reader}
    (hs : ∀ p shape ts r, readers p shape ts = some r → r.rest <:+ ts)
    (hr : ∀ p shape ts r, readers p shape ts = some r → p.idle = false →
      r.rest.length < ts.length)
    (rule : PhraseRule) {shape : Shape} {ts : List Token} {r : Reading}
    (h : rule.run whole readers shape ts = some r) (hi : rule.reads Phrase.idle = true) :
    r.rest.length < ts.length := by
  induction rule generalizing shape ts r with
  | done | mark new => simp [reads] at hi
  | fail => simp [run] at h
  | take test => exact Test.read_length h hi
  | close d => exact readClose_length h
  | raw => exact readRaw_length h
  | call p => exact hr p shape ts r h (by simpa [reads] using hi)
  | seq a b iha ihb =>
    obtain ⟨first, second, ha, hb, rfl⟩ := run_seq h
    have hla := (a.run_suffix hs ha).length_le
    have hlb := (b.run_suffix hs hb).length_le
    rcases Bool.or_eq_true_iff.mp hi with hi | hi
    · exact Nat.lt_of_le_of_lt hlb (iha ha hi)
    · have hlt := ihb hb hi
      exact Nat.lt_of_lt_of_le hlt hla
  | choose look yes no ihy ihn | probe ahead yes no _ ihy ihn | onShape shapes yes no ihy ihn =>
    obtain ⟨hy, hn⟩ := Bool.and_eq_true_iff.mp hi
    simp only [run] at h
    split at h
    · exact ihy h hy
    · exact ihn h hn
  | braced rule ih | rewrite writing rule ih =>
    obtain ⟨x, hx, rfl⟩ := Option.map_eq_some_iff.mp h
    have hh := ih hx hi
    exact hh

theorem readPhrase_length (depth : Nat) : ∀ p shape ts r,
    readPhrase whole grammar depth p shape ts = some r → p.idle = false →
    r.rest.length < ts.length := by
  induction depth with
  | zero => intro p shape ts r h; simp [readPhrase] at h
  | succ depth ih =>
    intro p shape ts r h hp
    have hi : (grammar p).reads Phrase.idle = true := by simpa [hp] using grammar_reads p
    exact (grammar p).run_length (readPhrase_suffix depth) ih h hi

/-- Two ways to read phrases that agree on all ends of `n` tokens, and on the `n` tokens themselves
for the phrases that may come first, agree on a rule. -/
theorem Rule.run_agree {f g : Phrase → Reader} (good : Phrase → Bool) {n : Nat}
    (hs : ∀ p shape ts r, f p shape ts = some r → r.rest <:+ ts)
    (hr : ∀ p shape ts r, f p shape ts = some r → p.idle = false → r.rest.length < ts.length)
    (hl : ∀ p shape ts, ts.length < n → f p shape ts = g p shape ts)
    (hg : ∀ p shape ts, ts.length = n → good p = true → f p shape ts = g p shape ts)
    (rule : PhraseRule) {shape : Shape} {ts : List Token} (hn : ts.length ≤ n)
    (h : ts.length < n ∨ rule.callsFirst Phrase.idle good = true) :
    rule.run whole f shape ts = rule.run whole g shape ts := by
  induction rule generalizing shape ts with
  | call p =>
    rcases h with h | h
    · exact hl p shape ts h
    · rcases Nat.lt_or_eq_of_le hn with hn | hn
      · exact hl p shape ts hn
      · exact hg p shape ts hn h
  | seq a b iha ihb =>
    have hfirst := @iha shape ts hn (h.imp_right fun h => (Bool.and_eq_true_iff.mp h).1)
    simp only [run]
    rw [← hfirst]
    cases ha : a.run whole f shape ts with
    | none => rfl
    | some first =>
      have hle := (a.run_suffix hs ha).length_le
      have hsecond : first.rest.length < n ∨ b.callsFirst Phrase.idle good = true := by
        rcases h with h | h
        · exact .inl (Nat.lt_of_le_of_lt hle h)
        · rcases Bool.or_eq_true_iff.mp (Bool.and_eq_true_iff.mp h).2 with hi | hb
          · exact .inl (Nat.lt_of_lt_of_le (a.run_length hs hr ha hi) hn)
          · exact .inr hb
      simp only
      rw [ihb (Nat.le_trans hle hn) hsecond]
  | choose look yes no ihy ihn | onShape shapes yes no ihy ihn =>
    simp only [run]
    rw [ihy hn (h.imp_right fun h => (Bool.and_eq_true_iff.mp h).1),
      ihn hn (h.imp_right fun h => (Bool.and_eq_true_iff.mp h).2)]
  | probe ahead yes no iha ihy ihn =>
    simp only [run]
    rw [iha hn (h.imp_right fun h => (Bool.and_eq_true_iff.mp h).1),
      ihy hn (h.imp_right fun h => (Bool.and_eq_true_iff.mp (Bool.and_eq_true_iff.mp h).2).1),
      ihn hn (h.imp_right fun h => (Bool.and_eq_true_iff.mp (Bool.and_eq_true_iff.mp h).2).2)]
  | braced rule ih | rewrite writing rule ih =>
    simp only [run]
    rw [ih hn h]
  | _ => rfl

/-- Depths that exceed what the tokens and the rank of the phrase ask for read the same. -/
theorem readPhrase_agree {d e : Nat} {p : Phrase} {shape : Shape} {ts : List Token}
    (hd : 16 * ts.length + p.rank < d) (he : 16 * ts.length + p.rank < e) :
    readPhrase whole grammar d p shape ts = readPhrase whole grammar e p shape ts := by
  induction d generalizing e p shape ts with
  | zero => omega
  | succ d ih =>
    obtain ⟨e, rfl⟩ : ∃ k, e = k + 1 := ⟨e - 1, by omega⟩
    refine Rule.run_agree (fun q => decide (q.rank < p.rank)) (readPhrase_suffix d)
      (readPhrase_length d) (fun q shape us hl => ?_) (fun q shape us hl hg => ?_) (grammar p)
      (Nat.le_refl _) (.inr (grammar_callsFirst p))
    · have hq := q.rank_le
      exact ih (by omega) (by omega)
    · have hq : q.rank < p.rank := of_decide_eq_true hg
      exact ih (by omega) (by omega)

theorem Phrase.inFront_eq {p : Phrase} {shape : Shape} {ts : List Token} {d : Nat}
    (h : depthFor ts.length ≤ d) :
    readPhrase whole grammar d p shape ts = p.inFront whole shape ts := by
  have hp := p.rank_le
  unfold depthFor at h
  exact readPhrase_agree (by omega) (by unfold depthFor; omega)

/-- A phrase is read as its rule says. -/
theorem Phrase.inFront_eq_run (p : Phrase) (shape : Shape) (ts : List Token) :
    p.inFront whole shape ts = (grammar p).run whole (Phrase.inFront whole) shape ts := by
  show (grammar p).run whole (readPhrase whole grammar (16 * ts.length + 15)) shape ts = _
  refine Rule.run_agree (fun q => decide (q.rank < p.rank)) (n := ts.length)
    (readPhrase_suffix _) (readPhrase_length _) (fun q shape us hl => ?_)
    (fun q shape us hl hg => ?_) (grammar p) (Nat.le_refl _) (.inr (grammar_callsFirst p))
  · have hq := q.rank_le
    exact readPhrase_agree (by omega) (by unfold depthFor; omega)
  · have hq := q.rank_le
    exact readPhrase_agree (by omega) (by unfold depthFor; omega)

theorem Phrase.readAfter_eq_run (p : Phrase) (shape : Shape) (ts : List Token) :
    p.readAfter shape ts = (grammar p).run true Phrase.readAfter shape ts :=
  p.inFront_eq_run shape ts

end FieldKeys
