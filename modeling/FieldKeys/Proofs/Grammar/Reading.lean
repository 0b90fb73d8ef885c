import FieldKeys.Grammar
import Mathlib.Data.List.Infix

/-! Reading goes forward: what a phrase leaves is an end of what it was given. -/

namespace FieldKeys

variable {whole : Bool}

/-- All phrases, so that what is to hold of the rule of each can be computed. -/
def Phrase.all : List Phrase :=
  let flags := [true, false]
  let paths := [PathPlace.expression, .type]
  let places := [BoundPlace.parameter, .object, .anonymous]
  let members := [MemberPlace.trait, .implementation, .foreign]
  let precedences := [Precedence.lowest, .assign, .range, .or, .and, .condition, .compare, .bitOr,
    .bitXor, .bitAnd, .shift, .sum, .product, .cast]
  let plain : List Phrase := [.attributes, .attribute, .attributeValue, .innerAttributes,
    .plainPath, .plainPathWords, .angle, .angleItems, .angleItem, .constant, .nestedPath,
    .nestedPathWords, .typePath, .types, .functionType, .callInputs, .binder, .binderItems,
    .plusBounds, .looseBounds, .captures, .parameterBounds, .lifetimeBounds, .whereItems,
    .whereBounds, .pattern, .patternCase, .patternCases, .patterns, .patternFields, .patternEnd,
    .trailers, .expressions, .structureItems, .closureInputs, .conditional, .arms, .block,
    .openBlock, .statements, .statement, .statementExpression, .visibility, .fieldType,
    .namedFields, .namedFieldItems, .tupleField, .tupleFields, .variants, .generics, .parameters,
    .parameter, .whereClause, .itemBounds, .items, .item]
  plain ++
    (paths.flatMap fun q => [.path q, .pathWord q, .pathRest q, .qualified q, .qualifiedRest q]) ++
    (places.flatMap fun q => [.bound q, .boundPath q, .bounds q]) ++
    (flags.flatMap fun b => [.type b, .typeParen b, .expression b, .unary b, .atom b,
      .pathExpression b, .rangeEnd b, .closure b, .functionInputs b, .signature b, .inputs b,
      .definition b, .useTree b, .useTrees b]) ++
    (members.map Phrase.members) ++
    (members.flatMap fun q => flags.map (Phrase.member q)) ++
    (places.flatMap fun q => flags.map (Phrase.boundsWithTrait q)) ++
    (precedences.flatMap fun q => flags.map (Phrase.operators q))

theorem Phrase.mem_all (p : Phrase) : p ∈ Phrase.all := by
  cases p with
  | path q | pathWord q | pathRest q | qualified q | qualifiedRest q => cases q <;> decide +kernel
  | bound q | boundPath q | bounds q => cases q <;> decide +kernel
  | members q => cases q <;> decide +kernel
  | type b | typeParen b | expression b | unary b | atom b | pathExpression b | rangeEnd b
  | closure b | functionInputs b | signature b | inputs b | definition b | useTree b
  | useTrees b => cases b <;> decide +kernel
  | boundsWithTrait q b | member q b => cases q <;> cases b <;> decide +kernel
  | operators q b => cases q <;> cases b <;> decide +kernel
  | _ => decide +kernel

theorem Phrase.of_all {f : Phrase → Bool} (h : Phrase.all.all f = true) (p : Phrase) :
    f p = true :=
  List.all_eq_true.mp h p p.mem_all

/-- What every rule of a grammar hands on from the phrases that it calls holds of all phrases. -/
theorem readPhrase_induction {P : Type} {grammar : P → Rule P}
    {motive : P → Shape → List Token → Reading → Prop}
    (step : ∀ readers : P → Reader,
      (∀ p shape ts r, readers p shape ts = some r → motive p shape ts r) →
      ∀ p shape ts r, (grammar p).run whole readers shape ts = some r → motive p shape ts r)
    (depth : Nat) : ∀ p shape ts r, readPhrase whole grammar depth p shape ts = some r →
      motive p shape ts r := by
  induction depth with
  | zero => intro p shape ts r h; simp [readPhrase] at h
  | succ depth ih => exact step _ ih

theorem cutGroup_append {depth : Nat} {ts a b : List Token} (h : cutGroup depth ts = some (a, b)) :
    ts = a ++ b := by
  fun_induction cutGroup depth ts generalizing a b with
  | case1 => simp at h
  | case2 depth t ts d hd ih =>
    obtain ⟨x, hx, hp⟩ := Option.map_eq_some_iff.mp h
    obtain ⟨rfl, rfl⟩ := Prod.mk.inj hp
    simp [ih hx]
  | case3 depth t ts d hd hle =>
    obtain ⟨rfl, rfl⟩ := Prod.mk.inj (Option.some.inj h)
    rfl
  | case4 depth t ts d hd hle ih =>
    obtain ⟨x, hx, hp⟩ := Option.map_eq_some_iff.mp h
    obtain ⟨rfl, rfl⟩ := Prod.mk.inj hp
    simp [ih hx]
  | case5 depth t ts hn1 hn2 ih =>
    obtain ⟨x, hx, hp⟩ := Option.map_eq_some_iff.mp h
    obtain ⟨rfl, rfl⟩ := Prod.mk.inj hp
    simp [ih hx]

/-- A test reads an operator, or one token that answers it. -/
theorem Test.read_eq_some {test : Test} {shape : Shape} {ts : List Token} {r : Reading}
    (h : test.read shape ts = some r) :
    (∃ s, test = .sign s ∧ signAhead s ts = true ∧
      r = ⟨shape, joined s ts, ts.drop s.length⟩) ∨
    ∃ t rest, ts = t :: rest ∧ test.fits t.lexeme = true ∧ r = ⟨shape, test.written t, rest⟩ := by
  unfold Test.read at h
  split at h
  case isFalse => simp at h
  case isTrue ht =>
    split at h
    · next s => exact .inl ⟨s, rfl, ht, (Option.some.inj h).symm⟩
    · next t rest hs =>
      refine .inr ⟨t, rest, rfl, ?_, (Option.some.inj h).symm⟩
      cases test with
      | sign s => exact absurd rfl (hs s)
      | _ => exact ht
    · simp at h

theorem readClose_eq_some {d : Delimiter} {shape : Shape} {ts : List Token} {r : Reading}
    (h : readClose whole d shape ts = some r) :
    ∃ extra t rest, cutGroup 1 ts = some (extra ++ [t], rest) ∧ t.lexeme = .closing d ∧
      (whole = true → extra = []) ∧ r = ⟨shape, [t], rest⟩ := by
  obtain ⟨⟨inside, rest⟩, hcut, h⟩ := Option.bind_eq_some_iff.mp h
  dsimp only at h
  split at h
  · next t ht =>
    obtain ⟨extra, rfl⟩ := List.getLast?_eq_some_iff.mp ht
    split at h
    · next hc =>
      refine ⟨extra, t, rest, hcut, hc.1, fun hw => ?_, (Option.some.inj h).symm⟩
      simpa using hc.2 hw
    · simp at h
  · simp at h

theorem readRaw_eq_some {shape : Shape} {ts : List Token} {r : Reading}
    (h : readRaw shape ts = some r) :
    ∃ t d inside a b, ts = t :: inside ∧ t.lexeme = .opening d ∧
      cutGroup 1 inside = some (a, b) ∧ r = ⟨shape, t :: a, b⟩ := by
  unfold readRaw at h
  split at h
  · next t inside =>
    split at h
    · next d hd =>
      obtain ⟨⟨a, b⟩, hx, rfl⟩ := Option.map_eq_some_iff.mp h
      exact ⟨t, d, inside, a, b, rfl, hd, hx, rfl⟩
    · simp at h
  · simp at h

/-- What a test has taken: the signs of an operator, or one token. -/
theorem Test.read_used {test : Test} {shape : Shape} {used : List Token} {r : Reading}
    (h : test.read shape (used ++ r.rest) = some r) :
    (∃ s, test = .sign s ∧ signAhead s (used ++ r.rest) = true ∧
      used = (used ++ r.rest).take s.length ∧ r.written = joined s (used ++ r.rest)) ∨
    ∃ t, used = [t] ∧ test.fits t.lexeme = true ∧ r.written = test.written t := by
  rcases Test.read_eq_some h with ⟨s, rfl, hs, hr⟩ | ⟨t, rest, ht, hfits, rfl⟩
  · have hrest : r.rest = (used ++ r.rest).drop s.length := congrArg Reading.rest hr
    have hparts := List.take_append_drop s.length (used ++ r.rest)
    rw [← hrest] at hparts
    exact .inl ⟨s, rfl, hs, (List.append_cancel_right hparts).symm, congrArg Reading.written hr⟩
  · exact .inr ⟨t, List.append_left_injective rest ht, hfits, rfl⟩

theorem readClose_used {d : Delimiter} {shape : Shape} {used : List Token} {r : Reading}
    (h : readClose whole d shape (used ++ r.rest) = some r) :
    ∃ extra t, used = extra ++ [t] ∧ cutGroup 1 (used ++ r.rest) = some (used, r.rest) ∧
      t.lexeme = .closing d ∧ (whole = true → extra = []) ∧ r.written = [t] := by
  obtain ⟨extra, t, rest, hcut, hclose, hextra, rfl⟩ := readClose_eq_some h
  obtain rfl : used = extra ++ [t] := List.append_left_injective rest (cutGroup_append hcut)
  exact ⟨extra, t, rfl, hcut, hclose, hextra, rfl⟩

theorem readRaw_used {shape : Shape} {used : List Token} {r : Reading}
    (h : readRaw shape (used ++ r.rest) = some r) :
    ∃ t d group, used = t :: group ∧ t.lexeme = .opening d ∧
      cutGroup 1 (group ++ r.rest) = some (group, r.rest) ∧ r.written = used := by
  obtain ⟨t, d, inside, group, rest, ht, hopen, hcut, rfl⟩ := readRaw_eq_some h
  obtain rfl := cutGroup_append hcut
  obtain rfl : used = t :: group := List.append_left_injective rest ht
  exact ⟨t, d, group, rfl, hopen, hcut, rfl⟩

theorem Test.read_suffix {test : Test} {shape : Shape} {ts : List Token} {r : Reading}
    (h : test.read shape ts = some r) : r.rest <:+ ts := by
  rcases Test.read_eq_some h with ⟨s, -, -, rfl⟩ | ⟨t, rest, rfl, -, rfl⟩
  · exact List.drop_suffix _ _
  · exact List.suffix_cons _ _

theorem readClose_suffix {d : Delimiter} {shape : Shape} {ts : List Token} {r : Reading}
    (h : readClose whole d shape ts = some r) : r.rest <:+ ts := by
  obtain ⟨extra, t, rest, hcut, -, -, rfl⟩ := readClose_eq_some h
  rw [cutGroup_append hcut]
  exact List.suffix_append _ _

theorem readRaw_suffix {shape : Shape} {ts : List Token} {r : Reading}
    (h : readRaw shape ts = some r) : r.rest <:+ ts := by
  obtain ⟨t, d, inside, a, b, rfl, -, hx, rfl⟩ := readRaw_eq_some h
  rw [cutGroup_append hx]
  exact (List.suffix_append _ _).trans (List.suffix_cons _ _)

/-- Whichever branch is taken, it gives what the branch of a choice on the same condition gives. -/
theorem ite_eq_of_imp {α β : Type} {c : Prop} [Decidable c] {a b x : α} {a' b' y : β}
    (h : (if c then a else b) = x) (ha : a = x → a' = y) (hb : b = x → b' = y) :
    (if c then a' else b') = y := by
  by_cases hc : c
  · rw [if_pos hc] at h ⊢
    exact ha h
  · rw [if_neg hc] at h ⊢
    exact hb h

theorem Rule.run_seq {P : Type} {readers : P → Reader} {a b : Rule P} {shape : Shape}
    {ts : List Token} {r : Reading} (h : (Rule.seq a b).run whole readers shape ts = some r) :
    ∃ first second, a.run whole readers shape ts = some first ∧
      b.run whole readers first.shape first.rest = some second ∧
      r = ⟨second.shape, first.written ++ second.written, second.rest⟩ := by
  simp only [run] at h
  split at h
  · simp at h
  · next first ha =>
    split at h
    · simp at h
    · next second hb => exact ⟨first, second, ha, hb, (Option.some.inj h).symm⟩

theorem Rule.run_seq_of_left {P : Type} {readers : P → Reader} {a b : Rule P} {shape : Shape}
    {ts : List Token} {first : Reading} (h : a.run whole readers shape ts = some first) :
    (a ++ b).run whole readers shape ts = (b.run whole readers first.shape first.rest).map fun second =>
      ⟨second.shape, first.written ++ second.written, second.rest⟩ := by
  show (Rule.seq a b).run whole readers shape ts = _
  simp only [run, h]
  cases b.run whole readers first.shape first.rest <;> rfl

theorem Rule.run_suffix {P : Type} {readers : P → Reader}
    (hr : ∀ p shape ts r, readers p shape ts = some r → r.rest <:+ ts) (rule : Rule P)
    {shape : Shape} {ts : List Token} {r : Reading} (h : rule.run whole readers shape ts = some r) :
    r.rest <:+ ts := by
  induction rule generalizing shape ts r with
  | done | mark new =>
    obtain rfl := Option.some.inj h
    exact List.suffix_rfl
  | fail => simp [run] at h
  | take test => exact Test.read_suffix h
  | close d => exact readClose_suffix h
  | raw => exact readRaw_suffix h
  | call p => exact hr p shape ts r h
  | seq a b iha ihb =>
    obtain ⟨first, second, ha, hb, rfl⟩ := run_seq h
    exact (ihb hb).trans (iha ha)
  | choose look yes no ihy ihn | probe ahead yes no _ ihy ihn | onShape shapes yes no ihy ihn =>
    simp only [run] at h
    split at h
    · exact ihy h
    · exact ihn h
  | braced rule ih | rewrite writing rule ih =>
    obtain ⟨x, hx, rfl⟩ := Option.map_eq_some_iff.mp h
    have hh := ih hx
    exact hh

/-- What two rules have taken one after the other parts into what each has taken. -/
theorem Rule.run_parts {P : Type} {readers : P → Reader}
    (hs : ∀ p shape ts r, readers p shape ts = some r → r.rest <:+ ts) {a b : Rule P} {shape : Shape}
    {used : List Token} {r : Reading}
    (h : (Rule.seq a b).run whole readers shape (used ++ r.rest) = some r) :
    ∃ front back first second, used = front ++ back ∧
      a.run whole readers shape (front ++ first.rest) = some first ∧ first.rest = back ++ second.rest ∧
      b.run whole readers first.shape (back ++ second.rest) = some second ∧
      r = ⟨second.shape, first.written ++ second.written, second.rest⟩ := by
  obtain ⟨first, second, ha, hb, rfl⟩ := run_seq h
  obtain ⟨front, hfront⟩ := a.run_suffix hs ha
  obtain ⟨back, hback⟩ := b.run_suffix hs hb
  refine ⟨front, back, first, second, ?_, hfront ▸ ha, hback.symm, hback ▸ hb, rfl⟩
  rw [← hback, ← List.append_assoc] at hfront
  exact (List.append_cancel_right hfront).symm

theorem readPhrase_suffix (depth : Nat) : ∀ p shape ts r,
    readPhrase whole grammar depth p shape ts = some r → r.rest <:+ ts :=
  readPhrase_induction (motive := fun _ _ ts r => r.rest <:+ ts)
    (fun _ hr p _ _ _ hh => (grammar p).run_suffix hr hh) depth

theorem Phrase.inFront_suffix {p : Phrase} {shape : Shape} {ts : List Token} {r : Reading}
    (h : p.inFront whole shape ts = some r) : r.rest <:+ ts :=
  readPhrase_suffix _ p shape ts r h

theorem Phrase.readAfter_suffix {p : Phrase} {shape : Shape} {ts : List Token} {r : Reading}
    (h : p.readAfter shape ts = some r) : r.rest <:+ ts :=
  Phrase.inFront_suffix h

theorem Phrase.read_suffix {p : Phrase} {ts : List Token} {r : Reading}
    (h : p.read ts = some r) : r.rest <:+ ts :=
  Phrase.readAfter_suffix h

end FieldKeys
