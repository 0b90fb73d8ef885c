import FieldKeys.Proofs.Edits
import FieldKeys.Proofs.FurtherArguments
import FieldKeys.Proofs.Stages

/-! What the attributes of a field ask for, one by one. Only the arguments of custom keys are read,
and there all of them, so that these alone decide whether the attributes are refused. -/

namespace FieldKeys

/-- Expressions with commas between them, of which one may end the list. -/
inductive ExpressionList : List Token → Prop
  | nil : ExpressionList []
  | last {ts : List Token} (h : WholeExpression ts) : ExpressionList ts
  | more {ts us : List Token} {comma : Token} (h : WholeExpression ts)
      (hc : isSign ',' comma = true) (hr : ExpressionList us) : ExpressionList (ts ++ comma :: us)

/-- An argument in front stands there as an expression by itself. -/
theorem Expression.read?_whole {x : Expression} {ts tail : List Token}
    (h : Expression.read? ts = some (x, tail)) (ht : atArgumentEnd tail = true) :
    ∃ us, ts = us ++ tail ∧ Expression.read? us = some (x, []) := by
  obtain ⟨r, hr, hp⟩ := Option.map_eq_some_iff.mp h
  obtain ⟨-, rfl⟩ := Prod.mk.inj hp
  obtain ⟨us, rfl⟩ := Phrase.inFront_suffix hr
  have h : Expression.read? (us ++ r.rest) = some (x, [] ++ r.rest) := h
  have hus : Expression.read? (us ++ []) = some (x, [] ++ []) :=
    Expression.inFront?_tail h (.of_argument ht) .nothing
  exact ⟨us, rfl, by simpa using hus⟩

theorem ExpressionList.isSome {ts : List Token} (h : ExpressionList ts) :
    (Expression.listOfTokens? ts).isSome = true := by
  induction h with
  | nil => rfl
  | last h =>
    obtain ⟨x, hx⟩ := h
    rw [Expression.listOfTokens?_last hx]
    rfl
  | more h hc _ ih =>
    obtain ⟨x, hx⟩ := h
    rwa [Expression.listOfTokens?_more hx hc, Option.isSome_map]

theorem Expression.listOfTokens?_cons {t : Token} {ts : List Token} {es : List Expression}
    (h : Expression.listOfTokens? (t :: ts) = some es) :
    WholeExpression (t :: ts) ∨ ∃ us comma rest, t :: ts = us ++ comma :: rest ∧
      WholeExpression us ∧ isSign ',' comma = true ∧ rest.length < (t :: ts).length ∧
      (Expression.listOfTokens? rest).isSome = true := by
  rw [listOfTokens?, List.length_cons, readList?] at h
  split at h
  · next e he => exact .inl ⟨e, he⟩
  · next e comma rest he =>
    split at h
    · next hc =>
      obtain ⟨us, hts, hus⟩ := Expression.read?_whole he hc
      have hlt := Expression.inFront?_length he
      simp only [List.length_cons] at hlt
      obtain ⟨es', hes, -⟩ := Option.map_eq_some_iff.mp h
      rw [Expression.readList?_eq (m := rest.length) (by omega) le_rfl] at hes
      exact .inr ⟨us, comma, rest, hts, ⟨e, hus⟩, hc, by simp only [List.length_cons]; omega,
        Option.isSome_of_eq_some hes⟩
    · simp at h
  · simp at h

theorem Expression.isSome_listOfTokens?_iff {ts : List Token} :
    (Expression.listOfTokens? ts).isSome = true ↔ ExpressionList ts := by
  refine ⟨fun h => ?_, ExpressionList.isSome⟩
  induction hn : ts.length using Nat.strong_induction_on generalizing ts with
  | _ n ih =>
    subst hn
    cases ts with
    | nil => exact .nil
    | cons t ts =>
      obtain ⟨es, hes⟩ := Option.isSome_iff_exists.mp h
      rcases Expression.listOfTokens?_cons hes with hw | ⟨us, comma, rest, hts, hus, hc, hlt, hr⟩
      · exact .last hw
      · rw [hts]
        exact .more hus hc (ih rest.length hlt hr rfl)

/-- The path of the attribute is one word and no more. -/
def Attribute.IsCalled (a : Attribute) (name : Text) : Prop :=
  ∃ span, a.path = [⟨.word name, span⟩]

/-- What an attribute asks for. A custom key lies where the attribute lies. -/
inductive Attribute.Directs (a : Attribute) : Directive → Prop
  | ignore (h : a.IsCalled Directive.ignoreName) : Directs a .ignore
  | custom {key : Option Expression} (h : a.IsCalled Directive.customName)
      (hk : key = none ↔ a.form = .bare ∨ a.form = .list []) : Directs a (.custom a.span key)
  | other (hi : ¬ a.IsCalled Directive.ignoreName) (hc : ¬ a.IsCalled Directive.customName) :
      Directs a .other

theorem Directive.ofAttribute_directs {a : Attribute} {d : Directive}
    (h : Directive.ofAttribute a = .ok d) : a.Directs d := by
  by_cases hi : a.isNamed Directive.ignoreName = true
  · obtain rfl := Except.ok.inj ((ofAttribute_ignore hi).symm.trans h)
    exact .ignore (Attribute.isNamed_iff.mp hi)
  by_cases hc : a.isNamed Directive.customName = true
  · obtain ⟨key, rfl⟩ := ofAttribute_custom hc h
    exact .custom (Attribute.isNamed_iff.mp hc) (ofAttribute_custom_none_iff h)
  · obtain rfl : Directive.other = d := by simpa [ofAttribute, hi, hc] using h
    exact .other (fun hh => hi (Attribute.isNamed_iff.mpr hh)) fun hh =>
      hc (Attribute.isNamed_iff.mpr hh)

theorem Directive.ofAttributes_directs {as : List Attribute} {ds : List Directive}
    (h : Directive.ofAttributes as = .ok ds) : List.Forall₂ Attribute.Directs as ds := by
  induction as generalizing ds with
  | nil =>
    obtain rfl := Except.ok.inj h
    exact .nil
  | cons a as ih =>
    obtain ⟨d, ds', hd, hs, rfl⟩ := ofAttributes_cons h
    exact .cons (ofAttribute_directs hd) (ih hs)

theorem Attribute.unreadable_iff {a : Attribute} :
    a.Unreadable ↔ a.IsCalled Directive.customName ∧
      ∃ inside, a.form = .list inside ∧ ¬ ExpressionList inside := by
  refine and_congr isNamed_iff (exists_congr fun inside => and_congr_right fun _ => ?_)
  rw [← Expression.isSome_listOfTokens?_iff, Bool.not_eq_true, Option.isSome_eq_false_iff,
    Option.isNone_iff_eq_none]

theorem Directive.isOk_ofAttributes_iff {as : List Attribute} :
    (Directive.ofAttributes as).isOk = true ↔ ∀ a ∈ as, ¬ a.Unreadable := by
  cases h : Directive.ofAttributes as with
  | error f =>
    obtain ⟨⟨a, ha, hu⟩, -⟩ := ofAttributes_eq_error_iff.mp h
    exact iff_of_false (by simp [Except.isOk, Except.toBool]) fun hn => hn a ha hu
  | ok ds =>
    refine iff_of_true rfl fun a ha hu => ?_
    simp [ofAttributes_eq_error_iff.mpr ⟨⟨a, ha, hu⟩, rfl⟩] at h

/-- Nothing but the path of an attribute of another name is looked at. -/
theorem Directive.ofAttribute_of_path {a b : Attribute} (hp : a.path = b.path)
    (hc : ¬ a.IsCalled Directive.customName) :
    Directive.ofAttribute a = Directive.ofAttribute b := by
  have hn : ∀ name, a.isNamed name = b.isNamed name := fun name => by
    unfold Attribute.isNamed
    rw [hp]
  have hca : a.isNamed Directive.customName = false :=
    Bool.eq_false_iff.mpr fun h => hc (Attribute.isNamed_iff.mp h)
  simp only [ofAttribute, ← hn, hca, Bool.false_eq_true, if_false]

theorem Directive.ofAttributes_replace {a b : Attribute} (before after : List Attribute)
    (h : Directive.ofAttribute a = Directive.ofAttribute b) :
    Directive.ofAttributes (before ++ a :: after) = Directive.ofAttributes (before ++ b :: after) := by
  induction before with
  | nil => simp only [List.nil_append, ofAttributes, h]
  | cons c before ih => simp only [List.cons_append, ofAttributes, ih]

/-- The attributes of a field are refused if and only if one for a custom key has a list that is
none of expressions. Else each of them, in order, asks for what its path says, and for a custom
key with an expression unless it is bare or its list is empty. What an attribute of another name
holds is not looked at, and without that attribute the others are refused as before. -/
theorem directives_of_attributes (as : List Attribute) :
    ((∃ f, Directive.ofAttributes as = .error f) ↔ ∃ a ∈ as, a.IsCalled Directive.customName ∧
      ∃ inside, a.form = .list inside ∧ ¬ ExpressionList inside) ∧
    (∀ ds, Directive.ofAttributes as = .ok ds → List.Forall₂ Attribute.Directs as ds) ∧
    ∀ before a after, as = before ++ a :: after → ¬ a.IsCalled Directive.customName →
      (∀ b : Attribute, b.path = a.path →
        Directive.ofAttributes (before ++ b :: after) = Directive.ofAttributes as) ∧
      (Directive.ofAttributes (before ++ after)).isOk = (Directive.ofAttributes as).isOk := by
  refine ⟨?_, fun ds => Directive.ofAttributes_directs, ?_⟩
  · simp only [Directive.ofAttributes_eq_error_iff, exists_and_left, exists_eq, and_true,
      Attribute.unreadable_iff]
  · rintro before a after rfl hc
    refine ⟨fun b hb => (Directive.ofAttributes_replace before after
      (Directive.ofAttribute_of_path hb.symm hc)).symm, ?_⟩
    have hr : ¬ a.Unreadable := fun hu => hc (Attribute.unreadable_iff.mp hu).1
    rw [Bool.eq_iff_iff, Directive.isOk_ofAttributes_iff, Directive.isOk_ofAttributes_iff]
    simp only [List.forall_mem_append, List.forall_mem_cons, hr, not_false_eq_true, true_and]

/-- The first list is no list of expressions, and the second name is a raw one. -/
theorem directives_of_attributes_four :
    ∃ a b c d ds, ((Token.scan?
        "#[serde(=>)] #[r#coding_key(=>)] #[coding_key(custom = A, (B),)] #[unsafe(coding_key)]".toList).bind
          Attribute.listOfTokens?) = some [a, b, c, d] ∧
      Directive.ofAttributes [a, b, c, d] = .ok ds ∧
      List.Forall₂ Attribute.Directs [a, b, c, d] ds ∧
      (Directive.ofAttributes [b, c, d]).isOk = true := by
  have h : ((Token.scan?
      "#[serde(=>)] #[r#coding_key(=>)] #[coding_key(custom = A, (B),)] #[unsafe(coding_key)]".toList).bind
        Attribute.listOfTokens?).map (fun as =>
          (as.length, (Directive.ofAttributes as).isOk, as.map (·.isNamed Directive.customName))) =
      some (4, true, [false, false, true, false]) := by
    decide +kernel
  obtain ⟨as, has, he⟩ := Option.map_eq_some_iff.mp h
  obtain ⟨hlen, hok, hnames⟩ : as.length = 4 ∧ (Directive.ofAttributes as).isOk = true ∧
      as.map (·.isNamed Directive.customName) = [false, false, true, false] := by
    simpa [Prod.ext_iff] using he
  obtain ⟨a, b, c, d, rfl⟩ := List.length_eq_four.mp hlen
  obtain ⟨ds, hds⟩ := exists_of_isOk hok
  obtain ⟨-, hdirects, hother⟩ := directives_of_attributes [a, b, c, d]
  have ha : ¬ a.IsCalled Directive.customName := fun hc => by
    simp [Attribute.isNamed_iff.mpr hc] at hnames
  exact ⟨a, b, c, d, ds, has, hds, hdirects ds hds, ((hother [] a [b, c, d] rfl ha).2).trans hok⟩

end FieldKeys
