import FieldKeys.Proofs.Grammar.Stub

/-! How a phrase may end. No expression ends in the number sign of an attribute or in a quote, nor so
that a number and what follows it could have been one number. -/

namespace FieldKeys

variable {whole : Bool}

/-- The ends of which it is asked whether a phrase may have them, with all their fronts. -/
def Stub.endings : List Stub :=
  [operatorStub "#", operatorStub "#!", operatorStub "'", testStub .number,
    testStub .number ++ operatorStub ".", testStub .number ++ operatorStub "." ++ [[.odd]],
    testStub .number ++ operatorStub "+", testStub .number ++ operatorStub "-"]

def Test.mayEnd : Test → Stub → Bool
  | .sign s, w => decide (w.length ≤ s.length) && maySpell (s.drop (s.length - w.length)) w
  | test, w => test.mayEat w

/-- Whether what a rule reads may end in what fits a stub, which is not empty. -/
def Rule.mayEnd {P : Type} (mayEat mayEnd : P → Stub → Bool) : Rule P → Stub → Bool
  | .done, _ | .mark _, _ | .fail, _ => false
  | .take test, w => test.mayEnd w
  | .close _, w | .raw, w => w.mayClose
  | .call p, w => mayEnd p w
  | .seq a b, w => b.mayEnd mayEat mayEnd w || (List.range w.length).any fun k =>
      b.mayEat mayEat (w.drop (k + 1)) && a.mayEnd mayEat mayEnd (w.take (k + 1))
  | .choose _ a b, w | .probe _ a b, w | .onShape _ a b, w =>
    a.mayEnd mayEat mayEnd w || b.mayEnd mayEat mayEnd w
  | .braced r, w | .rewrite _ r, w => r.mayEnd mayEat mayEnd w

theorem Stub.endings_ne_nil {w : Stub} (h : w ∈ Stub.endings) : w ≠ [] := by
  rintro rfl
  revert h
  decide +kernel

theorem Stub.front_mem {w : Stub} (h : w ∈ Stub.endings) {k : Nat} (hk : k < w.length) :
    w.take (k + 1) ∈ Stub.endings ∧ w.drop (k + 1) ∈ Stub.all := by
  have hall : ∀ w ∈ Stub.endings, ∀ k < w.length,
      w.take (k + 1) ∈ Stub.endings ∧ w.drop (k + 1) ∈ Stub.all := by
    decide +kernel
  exact hall w h k hk

theorem signAhead_drop {s : Text} {ts : List Token} (h : signAhead s ts = true) (k : Nat) :
    signAhead (s.drop k) (ts.drop k) = true := by
  induction k generalizing s ts with
  | zero => exact h
  | succ k ih =>
    cases s with
    | nil => simp [signAhead]
    | cons c s =>
      cases ts with
      | nil => simp [signAhead] at h
      | cons t ts => exact ih (signAhead_cons h).2

theorem cutGroup_closing {depth : Nat} {ts a b : List Token} (h : cutGroup depth ts = some (a, b)) :
    ∃ front t d, a = front ++ [t] ∧ t.lexeme = .closing d := by
  fun_induction cutGroup depth ts generalizing a b with
  | case1 => simp at h
  | case3 depth t ts d hd hle =>
    obtain ⟨rfl, rfl⟩ := Prod.mk.inj (Option.some.inj h)
    exact ⟨[], t, d, rfl, hd⟩
  | case2 depth t ts d hd ih | case4 depth t ts d hd hle ih | case5 depth t ts hn1 hn2 ih =>
    obtain ⟨⟨x, y⟩, hx, hp⟩ := Option.map_eq_some_iff.mp h
    obtain ⟨rfl, rfl⟩ := Prod.mk.inj hp
    obtain ⟨front, u, e, rfl, hu⟩ := ih hx
    exact ⟨t :: front, u, e, rfl, hu⟩

theorem exists_last {α : Type} {front last a : List α} {t : α} (h : front ++ last = a ++ [t])
    (hn : last ≠ []) : ∃ inner, last = inner ++ [t] ∧ front ++ inner = a := by
  rcases List.eq_nil_or_concat last with rfl | ⟨inner, u, rfl⟩
  · exact absurd rfl hn
  · rw [List.concat_eq_append, ← List.append_assoc] at h
    obtain ⟨ha, ht⟩ := List.append_inj' h rfl
    obtain rfl := List.singleton_inj.mp ht
    exact ⟨inner, List.concat_eq_append, ha⟩

theorem Stub.Fits.ne_nil {w : Stub} {ts : List Token} (hw : w.Fits ts) (hn : w ≠ []) : ts ≠ [] := by
  rintro rfl
  exact hn (List.length_eq_zero_iff.mp hw.length)

theorem Test.mayEnd_of_read {test : Test} {shape : Shape} {ts front last : List Token} {r : Reading}
    {w : Stub} (h : test.read shape ts = some r) (hu : ts = front ++ last ++ r.rest)
    (hn : w ≠ []) (hw : w.Fits last) : test.mayEnd w = true := by
  subst hu
  rcases Test.read_used h with ⟨s, rfl, ht, htake, -⟩ | ⟨t, hone, ht, -⟩
  · have hle := (signAhead_depth ht 0).1
    have hlen : front.length + last.length = s.length := by
      rw [← List.length_append, htake, List.length_take]
      omega
    have hwl := hw.length
    have hk : s.length - w.length = front.length := by omega
    have hlast : last =
        ((front ++ last ++ r.rest).drop front.length).take (s.drop front.length).length := by
      rw [List.length_drop, ← List.drop_take, ← htake, List.drop_left]
    have hle : w.length ≤ s.length := by omega
    simp only [mayEnd, hk, hle, decide_true, Bool.true_and]
    rw [hlast] at hw
    exact maySpell_of_ahead (signAhead_drop ht front.length) hw
  · have hone : front ++ last = [] ++ [t] := hone
    obtain ⟨inner, rfl, hnil⟩ := exists_last hone (hw.ne_nil hn)
    obtain ⟨-, rfl⟩ := List.append_eq_nil_iff.mp hnil
    have hm := Test.mayEat_of_fits ht hw
    cases test with
    | sign s => simp [fits] at ht
    | _ => exact hm

/-- A table of ends is right about the phrases that are read. -/
def EndsAsTold {P : Type} (mayEnd : P → Stub → Bool) (readers : P → Reader) : Prop :=
  ∀ ⦃p shape ts r front last⦄ ⦃w : Stub⦄, w ∈ Stub.endings → readers p shape ts = some r →
    ts = front ++ last ++ r.rest → w.Fits last → mayEnd p w = true

theorem Rule.mayEnd_of_run {P : Type} {mayEat mayEnd : P → Stub → Bool} {readers : P → Reader}
    (hs : ∀ p shape ts r, readers p shape ts = some r → r.rest <:+ ts)
    (he : EatsAsTold mayEat readers) (hr : EndsAsTold mayEnd readers) (rule : Rule P)
    {shape : Shape} {ts front last : List Token} {r : Reading} {w : Stub} (hw : w ∈ Stub.endings)
    (h : rule.run whole readers shape ts = some r) (hu : ts = front ++ last ++ r.rest)
    (hf : w.Fits last) : rule.mayEnd mayEat mayEnd w = true := by
  induction rule generalizing shape ts front last r w with
  | done | mark new =>
    obtain rfl := Option.some.inj h
    have hnil : front ++ last = [] := List.append_cancel_right hu.symm
    exact absurd (List.append_eq_nil_iff.mp hnil).2 (hf.ne_nil (Stub.endings_ne_nil hw))
  | fail => simp [run] at h
  | take test => exact Test.mayEnd_of_read h hu (Stub.endings_ne_nil hw) hf
  | close d =>
    subst hu
    obtain ⟨extra, t, hone, -, ht, -, -⟩ := readClose_used h
    obtain ⟨inner, rfl, -⟩ := exists_last hone (hf.ne_nil (Stub.endings_ne_nil hw))
    exact hf.mayClose ht
  | raw =>
    subst hu
    obtain ⟨t, d, group, hused, -, hcut, -⟩ := readRaw_used h
    obtain ⟨inside, u, e, rfl, hclose⟩ := cutGroup_closing hcut
    have hused : front ++ last = (t :: inside) ++ [u] := hused
    obtain ⟨inner, rfl, -⟩ := exists_last hused (hf.ne_nil (Stub.endings_ne_nil hw))
    exact hf.mayClose hclose
  | call p => exact hr hw h hu hf
  | seq a b iha ihb =>
    subst hu
    obtain ⟨before, after, first, second, hused, ha, -, hb, rfl⟩ := run_parts hs h
    simp only [Rule.mayEnd, Bool.or_eq_true]
    rcases List.append_eq_append_iff.mp hused with ⟨more, rfl, rfl⟩ | ⟨more, rfl, rfl⟩
    · -- The first part has read `more` of the end, and the second part what is after that.
      cases more with
      | nil =>
        have hts : after ++ second.rest = [] ++ ([] ++ after) ++ second.rest := rfl
        exact .inl (ihb hw hb hts hf)
      | cons t more =>
        have hlen := hf.length
        rw [List.length_append, List.length_cons] at hlen
        have hlt : more.length < w.length := by omega
        obtain ⟨hfront, hback⟩ := Stub.front_mem hw hlt
        have hma := iha hfront ha rfl hf.take_append
        have hmb := b.mayEat_of_run hs he hback hb rfl hf.drop_append
        exact .inr (List.any_eq_true.mpr
          ⟨more.length, List.mem_range.mpr hlt, by rw [hmb, hma, Bool.and_self]⟩)
    · exact .inl (ihb hw hb rfl hf)
  | choose look yes no ihy ihn | probe ahead yes no _ ihy ihn | onShape shapes yes no ihy ihn =>
    simp only [run] at h
    simp only [Rule.mayEnd]
    split at h
    · simp only [ihy hw h hu hf, Bool.true_or]
    · simp only [ihn hw h hu hf, Bool.or_true]
  | braced rule ih | rewrite writing rule ih =>
    obtain ⟨x, hx, rfl⟩ := Option.map_eq_some_iff.mp h
    have hh := ih hw hx hu hf
    exact hh

/-- Paths, types and bounds, which do not end in a number. -/
def Phrase.isType : Phrase → Bool
  | .path _ | .pathWord _ | .pathRest _ | .qualified _ | .qualifiedRest _ | .angle | .typePath
  | .callInputs | .type _ | .typeParen _ | .functionType | .bound _ | .boundPath _ | .bounds _
  | .boundsWithTrait _ _ | .plusBounds | .looseBounds | .captures | .parameterBounds => true
  | _ => false

/-- Only a number is among the ends that a phrase may have. -/
def Phrase.mayEnd (p : Phrase) (w : Stub) : Bool :=
  p.bracketed || (w == testStub .number && !p.isType)

theorem grammar_mayEnd (p : Phrase) : (p.bracketed || Stub.endings.all fun w =>
    !(grammar p).mayEnd Phrase.mayEat Phrase.mayEnd w || p.mayEnd w) = true :=
  Phrase.of_all (f := fun p => p.bracketed || Stub.endings.all fun w =>
    !(grammar p).mayEnd Phrase.mayEat Phrase.mayEnd w || p.mayEnd w) (by decide +kernel) p

theorem readPhrase_ends (depth : Nat) :
    EndsAsTold Phrase.mayEnd (readPhrase whole grammar depth) := by
  induction depth with
  | zero => intro p shape ts r front last w hw h; simp [readPhrase] at h
  | succ depth ih =>
    intro p shape ts r front last w hw h hu hf
    by_cases hb : p.bracketed = true
    · simp [Phrase.mayEnd, hb]
    · have hg := grammar_mayEnd p
      have hm := (grammar p).mayEnd_of_run (readPhrase_suffix depth) (readPhrase_eats depth) ih hw h
        hu hf
      simp only [hb, Bool.false_or] at hg
      simpa [hm] using List.all_eq_true.mp hg w hw

theorem Expression.inFront?_ends {x : Expression} {front last rest : List Token} {w : Stub}
    (h : Expression.inFront? whole (front ++ last ++ rest) = some (x, rest)) (hw : w ∈ Stub.endings)
    (hf : w.Fits last) : w = testStub .number := by
  obtain ⟨r, hr, hp⟩ := Option.map_eq_some_iff.mp h
  obtain ⟨-, rfl⟩ := Prod.mk.inj hp
  have hm := readPhrase_ends _ hw hr rfl hf
  simpa [Phrase.mayEnd, Phrase.bracketed, Phrase.isType] using hm

end FieldKeys
