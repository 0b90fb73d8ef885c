import FieldKeys.Proofs.Grammar.Alike
import FieldKeys.Proofs.Grammar.OpenRange
import FieldKeys.Proofs.Grammar.Unsettled

/-! What an expression is read from can be cut off behind it. A look may reach beyond the cut, but
where its answer depends on what stands there, the tokens left before the cut are few, and the rule
would not have read just those. The one exception is a `try` that is a path only because of the double
colon behind it, and goes no further because of the parenthesis behind that. -/

namespace FieldKeys

variable {whole : Bool}

/-- The stubs that may be left behind a phrase when what follows does not matter to it. -/
def Phrase.leaves : Phrase → List Stub
  | .attributes | .attribute | .binder => Stub.all
  | .pattern | .patternCase | .patternCases | .patternEnd | .closureInputs => []
  | .angleItem | .angleItems | .parameterBounds | .constant | .captures | .binderItems | .type true
  | .typeParen true | .bound .parameter | .boundPath .parameter =>
    [operatorStub ">", operatorStub ">>"]
  | .expression _ | .unary _ | .atom _ | .pathExpression _ | .trailers | .operators _ _
  | .rangeEnd _ | .closure _ | .conditional | .block => [[], operatorStub ".."]
  | _ => [[], operatorStub "..", operatorStub ">", operatorStub ">>", operatorStub "+"]

/-- Whether a stub may be left before a rule, by what may be left behind it. -/
def Rule.before (rule : PhraseRule) (left : Stub → Bool) (w : Stub) : Bool :=
  (List.range (w.length + 1)).any fun k =>
    rule.mayEat Phrase.mayEat (w.take k) && left (w.drop k)

def Rule.isDone {P : Type} : Rule P → Bool
  | .done => true
  | _ => false

/-- Whether a rule does nothing without a token. -/
def Rule.idles {P : Type} : Rule P → Bool
  | .done => true
  | .choose look yes no => if look.holds [] then yes.idles else no.idles
  | _ => false

/-- Whether a rule fails by its looks alone. -/
def Rule.refuses {P : Type} (ts : List Token) : Rule P → Bool
  | .fail => true
  | .choose look _ no => !look.holds ts && no.refuses ts
  | _ => false

def tryStub : Stub := wordStub "try"

def tryToken : Token := (Lexeme.word "try".toList).token

/-- Where an operand begins like a path. -/
def pathAhead : Look :=
  .ahead 0 .anyName ||| signAt 0 "::" ||| signAt 0 "<" ||| pathKeywordAhead |||
    (wordAt 0 "try" &&& (signAt 1 "!" ||| signAt 1 "::"))

def Rule.isPath : PhraseRule → Bool
  | .call (.pathExpression _) => true
  | _ => false

/-- Whether it does not matter that a look fails before a cut, which holds with what follows: the rule
chosen then would not have read what is left, or both rules read nothing, or it is that `try`. -/
def Look.gainsNothing (look : Look) (yes no : PhraseRule) (left : Stub → Bool) (w : Stub) : Bool :=
  Stub.all.contains w &&
    (!yes.before left w || (w.isEmpty && (look.holds [] || (yes.isDone && no.idles))) ||
      (w == tryStub && no.refuses [tryToken] && (look == pathAhead && yes.isPath)))

def Look.losesNothing (look : Look) (no : PhraseRule) (left : Stub → Bool) (w : Stub) : Bool :=
  Stub.all.contains w && (!no.before left w || (w.isEmpty && !look.holds []))

/-- Whether a rule is read the same without what follows, where `n` brackets are open and only these
stubs are left behind it. -/
def Rule.cuts : PhraseRule → (Stub → Bool) → Nat → Bool
  | .seq a b, left, n =>
    match a.depthAtEnd? Phrase.ending Phrase.idle .closed n with
    | some (some m) => a.cuts (b.before left) n && b.cuts left m
    | some none => true
    | none => false
  | .choose look yes no, left, n =>
    (if n = 0 then
      look.gains.all (look.gainsNothing yes no left) && look.loses.all (look.losesNothing no left)
    else look.settled .closed) && (yes.cuts left n && no.cuts left n)
  | .onShape _ a b, left, n => a.cuts left n && b.cuts left n
  | .braced r, left, n | .rewrite _ r, left, n => r.cuts left n
  | .call p, left, n =>
    n != 0 || (!p.bracketed && Stub.all.all fun w => !left w || p.leaves.contains w)
  | .probe _ _ _, _, _ => false
  | _, _, _ => true

theorem grammar_cuts (p : Phrase) :
    (p.bracketed || (grammar p).cuts p.leaves.contains 0) = true :=
  Phrase.of_all (f := fun p => p.bracketed || (grammar p).cuts p.leaves.contains 0)
    (by decide +kernel) p

/-- Of all stubs, only some of these may be what is there. -/
def Allows (left : Stub → Bool) (ts : List Token) : Prop :=
  ∀ w ∈ Stub.all, w.Fits ts → left w = true

def EndsInTry (ts : List Token) : Prop :=
  ∃ front t, ts = front ++ [t] ∧ t.lexeme = .word "try".toList

theorem EndsInTry.append {ts : List Token} (h : EndsInTry ts) (used : List Token) :
    EndsInTry (used ++ ts) := by
  obtain ⟨front, t, rfl, ht⟩ := h
  exact ⟨used ++ front, t, by simp, ht⟩

/-- A double colon with which no path goes on. -/
def inputsAhead : Look := signAt 0 "::" &&& openingAt 2 .paren

/-- What can stand behind a `try` that is a path though it goes no further. -/
def strayTryAhead : Look := signAt 0 "!=" ||| inputsAhead

/-- What was read with something behind the tokens is read of the tokens alone, or nothing is, and they
end in a `try` that is a path only because of what follows. -/
def CutOff (alone : Option Reading) (ts left tail : List Token) (r : Reading) : Prop :=
  alone = some { r with rest := left } ∨
    alone = none ∧ left = [] ∧ EndsInTry ts ∧ strayTryAhead.holds tail = true

/-- A path takes the `try` in front, and if it goes no further, neither a macro nor another word stands
behind it. -/
def StopsAtTry (readers : Phrase → Reader) : Prop :=
  ∀ ⦃braces shape t left tail r⦄, t.lexeme = .word "try".toList →
    readers (.pathExpression braces) shape (t :: tail) = some r → r.rest = left ++ tail →
    left = [] ∧ macroAhead.holds tail = false ∧
      (signAt 0 "::" &&& ~~~openingAt 2 .paren).holds tail = false

theorem StopsAtTry.strayTryAhead {readers : Phrase → Reader} (h : StopsAtTry readers)
    {rule : PhraseRule} {shape : Shape} {t : Token} {left tail : List Token} {r : Reading}
    (hp : rule.isPath = true) (ht : t.lexeme = .word "try".toList)
    (hr : rule.run whole readers shape (t :: tail) = some r) (hrest : r.rest = left ++ tail)
    (hl : pathAhead.holds (t :: tail) = true) : left = [] ∧ strayTryAhead.holds tail = true := by
  obtain ⟨braces, rfl⟩ : ∃ braces, rule = .call (.pathExpression braces) := by
    cases rule with
    | call p => cases p <;> simp [Rule.isPath] at hp ⊢
    | _ => simp [Rule.isPath] at hp
  obtain ⟨hnil, hmacro, hmore⟩ := h ht hr hrest
  have hmark : (signAt 0 "!" ||| signAt 0 "::").holds tail = true := by
    obtain ⟨l, s⟩ := t
    obtain rfl : l = .word "try".toList := ht
    exact hl
  have hmacro : (signAhead "!".toList tail && !signAhead "!=".toList tail) = false := hmacro
  have hmore : (signAhead "::".toList tail && !(openingAt 2 .paren).holds tail) = false := hmore
  have hmark : (signAhead "!".toList tail || signAhead "::".toList tail) = true := hmark
  refine ⟨hnil, ?_⟩
  show (signAhead "!=".toList tail || (signAhead "::".toList tail && (openingAt 2 .paren).holds tail)) =
    true
  grind

theorem Rule.run_of_idles {P : Type} {readers : P → Reader} {rule : Rule P} {shape : Shape}
    (h : rule.idles = true) : rule.run whole readers shape [] = some ⟨shape, [], []⟩ := by
  induction rule with
  | done => rfl
  | choose look yes no ihy ihn =>
    simp only [idles] at h
    simp only [run]
    split at h
    · next hl => rw [if_pos hl, ihy h]
    · next hl => rw [if_neg hl, ihn h]
  | _ => simp [idles] at h

theorem Rule.run_of_refuses {P : Type} {readers : P → Reader} {rule : Rule P} {shape : Shape}
    {ts ts' : List Token} (ha : Alike ts ts') (h : rule.refuses ts = true) :
    rule.run whole readers shape ts' = none := by
  induction rule with
  | fail => rfl
  | choose look yes no ihy ihn =>
    simp only [refuses, Bool.and_eq_true, Bool.not_eq_true'] at h
    have hl : ¬ look.holds ts' = true := by simp [← Look.holds_alike ha look, h.1]
    simp only [run, if_neg hl, ihn h.2]
  | _ => simp [refuses] at h

section

variable {readers : Phrase → Reader}
  (hl : ∀ p shape ts r, readers p shape ts = some r → Leaves ts 0 0 r.rest)
include hl

theorem Allows.before (he : EatsAsTold Phrase.mayEat readers) {rule : PhraseRule} {φ : Stub → Bool}
    {shape : Shape} {ts left tail : List Token} {r : Reading}
    (h : rule.run whole readers shape (ts ++ tail) = some r) (hrest : r.rest = left ++ tail)
    (ha : Allows φ left) : Allows (rule.before φ) ts := by
  have hs : ∀ p shape ts r, readers p shape ts = some r → r.rest <:+ ts :=
    fun p shape ts r h => (hl p shape ts r h).suffix
  obtain ⟨used, hu⟩ := rule.run_suffix hs h
  have hts : used ++ left = ts := by
    rw [hrest, ← List.append_assoc] at hu
    exact List.append_cancel_right hu
  intro w hw hf
  rw [← hts] at hf
  obtain ⟨htake, hdrop⟩ := Stub.parts_mem hw used.length
  have hm := rule.mayEat_of_run hs he htake h hu.symm hf.take_append
  have hleft := ha _ hdrop hf.drop_append
  have hlt : used.length ∈ List.range (w.length + 1) :=
    List.mem_range.mpr (Nat.lt_succ_of_le hf.length_le)
  exact List.any_eq_true.mpr ⟨used.length, hlt, by rw [hm, hleft, Bool.and_self]⟩

/-- With a bracket open in front, what follows the bracket does not matter. -/
theorem Rule.holds_alone {rule : PhraseRule} {look : Look} {n : Nat} {d : Option Nat} {shape : Shape}
    {ts left tail : List Token} {r : Reading}
    (h : rule.run whole readers shape (ts ++ tail) = some r)
    (hrest : r.rest = left ++ tail)
    (hd : rule.depthAtEnd? Phrase.ending Phrase.idle .closed (n + 1) = some d)
    (hm : ∀ m, d = some m → Closes m left) (hs : look.settled .closed = true) :
    look.holds (ts ++ tail) = look.holds ts := by
  obtain ⟨m, rfl, hlv⟩ := rule.run_leaves hl h hd
  rw [hrest] at hlv
  obtain ⟨used, rfl, hu⟩ := hlv.of_append
  have hc : Closes (n + 1) (used ++ left) := Closes.append hu (hm m rfl)
  exact Look.holds_append hs hc.one (.inl rfl)

end

/-- A rule is read the same of the tokens before a cut, if only such stubs are left behind it. -/
def Rule.CutsOff (whole : Bool) (readers : Phrase → Reader) (rule : PhraseRule) : Prop :=
  ∀ ⦃n : Nat⦄ ⦃d : Option Nat⦄ ⦃φ : Stub → Bool⦄ ⦃shape : Shape⦄ ⦃ts left tail : List Token⦄
    ⦃r : Reading⦄, rule.run whole readers shape (ts ++ tail) = some r →
    rule.depthAtEnd? Phrase.ending Phrase.idle .closed n = some d → rule.cuts φ n = true →
    r.rest = left ++ tail → (∀ m, d = some m → Closes m left) → Allows φ left →
    CutOff (rule.run whole readers shape ts) ts left tail r

theorem Rule.CutsOff.of_readsLocally {readers : Phrase → Reader} {rule : PhraseRule}
    (h : ReadsLocally (rule.run whole readers)) : rule.CutsOff whole readers := by
  intro n d φ shape ts left tail r hrun _ _ hrest _ _
  have hh := h.tail hrun hrest []
  rw [List.append_nil, List.append_nil] at hh
  exact .inl hh

theorem Rule.CutsOff.onShape {readers : Phrase → Reader} {shapes : List Shape} {yes no : PhraseRule}
    (hy : yes.CutsOff whole readers) (hn : no.CutsOff whole readers) :
    (Rule.onShape shapes yes no).CutsOff whole readers := by
  intro n d φ shape ts left tail r h hd hc hrest hm ha
  obtain ⟨x, y, hx, hy', hdx, hdy⟩ := agree_eq_some hd
  obtain ⟨hcy, hcn⟩ := Bool.and_eq_true_iff.mp hc
  simp only [run] at h ⊢
  split at h
  · next hshape =>
    rw [if_pos hshape]
    exact hy h hx hcy hrest (fun m hh => hm m (hdx m hh)) ha
  · next hshape =>
    rw [if_neg hshape]
    exact hn h hy' hcn hrest (fun m hh => hm m (hdy m hh)) ha

theorem CutOff.map {alone : Option Reading} {ts left tail : List Token} {r : Reading}
    {f : Reading → Reading} (h : CutOff alone ts left tail r)
    (hf : ∀ rest, f { r with rest := rest } = { f r with rest := rest }) :
    CutOff (alone.map f) ts left tail (f r) := by
  rcases h with rfl | ⟨rfl, htry⟩
  · exact .inl (congrArg some (hf left))
  · exact .inr ⟨rfl, htry⟩

theorem Rule.CutsOff.braced {readers : Phrase → Reader} {rule : PhraseRule}
    (h : rule.CutsOff whole readers) : (Rule.braced rule).CutsOff whole readers := by
  intro n d φ shape ts left tail r hrun hd hc hrest hm ha
  obtain ⟨x, hx, rfl⟩ := Option.map_eq_some_iff.mp hrun
  have hrest' : x.rest = left ++ tail := hrest
  exact (h hx hd hc hrest' hm ha).map fun _ => rfl

theorem Rule.CutsOff.rewrite {readers : Phrase → Reader} {writing : Writing} {rule : PhraseRule}
    (h : rule.CutsOff whole readers) : (Rule.rewrite writing rule).CutsOff whole readers := by
  intro n d φ shape ts left tail r hrun hd hc hrest hm ha
  obtain ⟨x, hx, rfl⟩ := Option.map_eq_some_iff.mp hrun
  have hrest' : x.rest = left ++ tail := hrest
  exact (h hx hd hc hrest' hm ha).map fun _ => rfl

section

variable {readers : Phrase → Reader}
  (hl : ∀ p shape ts r, readers p shape ts = some r → Leaves ts 0 0 r.rest)
  (he : EatsAsTold Phrase.mayEat readers)
include hl he

theorem Rule.CutsOff.seq {a b : PhraseRule} (ha : a.CutsOff whole readers)
    (hb : b.CutsOff whole readers) :
    (Rule.seq a b).CutsOff whole readers := by
  intro n d φ shape ts left tail r h hd hc hrest hm hφ
  obtain ⟨first, second, hfirst, hsecond, rfl⟩ := run_seq h
  have hrest : second.rest = left ++ tail := hrest
  simp only [depthAtEnd?, reduceCtorEq, false_and, if_false] at hd
  simp only [cuts] at hc
  split at hd
  · next m hma =>
    simp only [hma, Bool.and_eq_true] at hc
    obtain ⟨k, rfl, hlv⟩ := b.run_leaves hl hsecond hd
    obtain ⟨used, hu, hdu⟩ := hlv
    rw [hrest, ← List.append_assoc] at hu
    have hsecond' : b.run whole readers first.shape (used ++ left ++ tail) = some second :=
      hu ▸ hsecond
    have hmid : Allows (b.before φ) (used ++ left) := Allows.before hl he hsecond' hrest hφ
    have hcl : ∀ m', some m = some m' → Closes m' (used ++ left) := by
      rintro m' ⟨⟩
      exact Closes.append hdu (hm k rfl)
    rcases ha hfirst hma hc.1 hu hcl hmid with hfa | ⟨hfa, hnil, htry⟩
    · rcases hb hsecond' hd hc.2 hrest hm hφ with hfb | ⟨hfb, hnil, htry, htail⟩
      · exact .inl (by simp only [run, hfa, hfb])
      · -- What the second part fails on is the end of the tokens.
        have hts : ∃ front, ts = front ++ (used ++ left) := by
          obtain ⟨front, hfront⟩ := a.run_suffix (fun p shape ts r h => (hl p shape ts r h).suffix)
            hfirst
          rw [hu, ← List.append_assoc] at hfront
          exact ⟨front, (List.append_cancel_right hfront).symm⟩
        obtain ⟨front, rfl⟩ := hts
        exact .inr ⟨by simp only [run, hfa, hfb], hnil, htry.append front, htail⟩
    · exact .inr ⟨by simp only [run, hfa], (List.append_eq_nil_iff.mp hnil).2, htry⟩
  · next other hn =>
    obtain ⟨m, rfl, -⟩ := a.run_leaves hl hfirst hd
    exact absurd hd (hn m)

/-- Where a look holds only with what is behind the cut, nothing is to be read, or it is a `try`. -/
theorem Rule.cutOff_of_gain (ht : StopsAtTry readers) {look : Look} {yes no : PhraseRule}
    {φ : Stub → Bool} {shape : Shape} {ts left tail : List Token} {r : Reading}
    (h : yes.run whole readers shape (ts ++ tail) = some r)
    (hrest : r.rest = left ++ tail) (hφ : Allows φ left)
    (hg : look.gains.all (look.gainsNothing yes no φ) = true)
    (hfar : look.holds (ts ++ tail) = true) (hnear : look.holds ts = false) :
    CutOff (no.run whole readers shape ts) ts left tail r := by
  obtain ⟨w, hw, hf⟩ := Look.exists_stub.1 hfar hnear
  have hg := List.all_eq_true.mp hg w hw
  simp only [Look.gainsNothing, Bool.and_eq_true, Bool.or_eq_true, Bool.not_eq_true',
    List.contains_iff_mem, List.isEmpty_iff, beq_iff_eq] at hg
  obtain ⟨hall, (hg | ⟨rfl, hg | ⟨hdone, hidle⟩⟩) | ⟨⟨rfl, hrefuses⟩, rfl, hpath⟩⟩ := hg
  · have hb := Allows.before hl he h hrest hφ w hall hf
    simp [hb] at hg
  · obtain rfl : ts = [] := List.length_eq_zero_iff.mp hf.length.symm
    simp [hg] at hnear
  · obtain rfl : ts = [] := List.length_eq_zero_iff.mp hf.length.symm
    cases yes with
    | done =>
      obtain rfl := Option.some.inj h
      obtain rfl : left = [] := List.append_cancel_right hrest.symm
      exact .inl (run_of_idles hidle)
    | _ => simp [isDone] at hdone
  · cases hf with
    | @cons _ t _ _ hc hf =>
      cases hf
      have htry : t.lexeme = .word "try".toList :=
        Test.fits_word_iff.mp (hc _ (List.mem_singleton.mpr rfl))
      obtain ⟨rfl, hstray⟩ := ht.strayTryAhead hpath htry h hrest hfar
      obtain ⟨l, s⟩ := t
      obtain rfl : l = .word "try".toList := htry
      exact .inr ⟨run_of_refuses (.cons _ _ _ .nil) hrefuses, rfl, ⟨[], _, rfl, rfl⟩, hstray⟩

/-- A look that holds before the cut holds with what is behind it, if something is read where it does
not. -/
theorem Rule.holds_of_near {look : Look} {no : PhraseRule} {φ : Stub → Bool} {shape : Shape}
    {ts left tail : List Token} {r : Reading} (h : no.run whole readers shape (ts ++ tail) = some r)
    (hrest : r.rest = left ++ tail) (hφ : Allows φ left)
    (hg : look.loses.all (look.losesNothing no φ) = true) (hnear : look.holds ts = true) :
    look.holds (ts ++ tail) = true := by
  by_contra hfar
  obtain ⟨w, hw, hf⟩ := Look.exists_stub.2 (Bool.eq_false_iff.mpr hfar) hnear
  have hg := List.all_eq_true.mp hg w hw
  simp only [Look.losesNothing, Bool.and_eq_true, Bool.or_eq_true, Bool.not_eq_true',
    List.contains_iff_mem, List.isEmpty_iff] at hg
  obtain ⟨hall, hg | ⟨rfl, hg⟩⟩ := hg
  · have hb := Allows.before hl he h hrest hφ w hall hf
    simp [hb] at hg
  · obtain rfl : ts = [] := List.length_eq_zero_iff.mp hf.length.symm
    simp [hg] at hnear

theorem Rule.CutsOff.choose (ht : StopsAtTry readers) {look : Look} {yes no : PhraseRule}
    (hy : yes.CutsOff whole readers) (hn : no.CutsOff whole readers) :
    (Rule.choose look yes no).CutsOff whole readers := by
  intro n d φ shape ts left tail r h hd hc hrest hm hφ
  have hsame : ∀ k, n = k + 1 → look.holds (ts ++ tail) = look.holds ts := by
    rintro k rfl
    refine Rule.holds_alone hl h hrest hd hm ?_
    simp only [cuts, Bool.and_eq_true] at hc
    simpa using hc.1
  simp only [depthAtEnd?] at hd
  split at hd
  · obtain ⟨x, y, hx, hy', hdx, hdy⟩ := agree_eq_some hd
    simp only [cuts, Bool.and_eq_true] at hc
    obtain ⟨hlook, hcy, hcn⟩ := hc
    by_cases heq : look.holds (ts ++ tail) = look.holds ts
    · simp only [run, heq] at h ⊢
      split at h
      · next hl' =>
        rw [if_pos hl']
        exact hy h hx hcy hrest (fun m hh => hm m (hdx m hh)) hφ
      · next hl' =>
        rw [if_neg hl']
        exact hn h hy' hcn hrest (fun m hh => hm m (hdy m hh)) hφ
    · obtain rfl : n = 0 := by
        by_contra hpos
        exact heq (hsame (n - 1) (by omega))
      simp only [if_true, Bool.and_eq_true] at hlook
      simp only [run] at h ⊢
      split at h
      · next hfar =>
        have hnear : look.holds ts = false := by simpa [hfar] using heq
        rw [hnear, if_neg (by simp)]
        exact cutOff_of_gain hl he ht h hrest hφ hlook.1 hfar hnear
      · next hfar =>
        have hnear : look.holds ts = true := by simpa [hfar] using heq
        exact absurd (holds_of_near hl he h hrest hφ hlook.2 hnear) hfar
  · simp at hd

theorem Rule.cutsOff (ht : StopsAtTry readers)
    (hclosed : ∀ p shape ts left tail r, readers p shape (ts ++ tail) = some r →
      r.rest = left ++ tail → Closes 1 left → readers p shape ts = some { r with rest := left })
    (hr : ∀ p shape ts left tail r, p.bracketed = false → readers p shape (ts ++ tail) = some r →
      r.rest = left ++ tail → Allows p.leaves.contains left →
      CutOff (readers p shape ts) ts left tail r)
    (rule : PhraseRule) : rule.CutsOff whole readers := by
  induction rule with
  | seq a b iha ihb => exact iha.seq hl he ihb
  | choose look yes no ihy ihn => exact ihy.choose hl he ht ihn
  | onShape shapes yes no ihy ihn => exact ihy.onShape ihn
  | braced rule ih => exact ih.braced
  | rewrite writing rule ih => exact ih.rewrite
  | take test => exact .of_readsLocally (Test.read_locally test)
  | close d => exact .of_readsLocally (readClose_locally d)
  | raw => exact .of_readsLocally readRaw_locally
  | probe ahead yes no =>
    intro n d φ shape ts left tail r _ _ hc
    simp [cuts] at hc
  | fail =>
    intro n d φ shape ts left tail r h
    simp [run] at h
  | done | mark new =>
    intro n d φ shape ts left tail r h _ _ hrest _ _
    obtain rfl := Option.some.inj h
    obtain rfl := List.append_cancel_right hrest
    exact .inl rfl
  | call p =>
    intro n d φ shape ts left tail r h hd hc hrest hm hφ
    simp only [depthAtEnd?] at hd
    split at hd
    · obtain rfl := Option.some.inj hd
      cases n with
      | zero =>
        simp only [cuts, bne_self_eq_false, Bool.false_or, Bool.and_eq_true, Bool.not_eq_true'] at hc
        obtain ⟨hb, hleaves⟩ := hc
        refine hr p shape ts left tail r hb h hrest fun w hw hf => ?_
        simpa [hφ w hw hf] using List.all_eq_true.mp hleaves w hw
      | succ n => exact .inl (hclosed p shape ts left tail r h hrest (hm (n + 1) rfl).one)
    · simp at hd

end

theorem pathRest_stops {depth : Nat} {place : PathPlace} {shape : Shape} {ts : List Token} {r : Reading}
    (h : readPhrase whole grammar depth (.pathRest place) shape ts = some r) (hrest : r.rest = ts) :
    r.shape = shape ∧ (signAt 0 "::" &&& ~~~openingAt 2 .paren).holds ts = false := by
  cases depth with
  | zero => simp [readPhrase] at h
  | succ depth =>
    have h : (grammar (.pathRest place)).run whole (readPhrase whole grammar depth) shape ts =
      some r := h
    rw [grammar, pathRestRule, whenAhead, Rule.run] at h
    split at h
    · have hlt := Rule.run_length (readPhrase_suffix depth) (readPhrase_length depth) _ h
        (by cases place <;> rfl)
      rw [hrest] at hlt
      exact absurd hlt (Nat.lt_irrefl _)
    · next hl =>
      obtain rfl := Option.some.inj h
      exact ⟨rfl, Bool.eq_false_iff.mpr hl⟩

theorem pathWord_try {depth : Nat} {place : PathPlace} {shape : Shape} {t : Token} {tail : List Token}
    {r : Reading} (ht : t.lexeme = .word "try".toList)
    (h : readPhrase whole grammar depth (.pathWord place) shape (t :: tail) = some r) :
    r = ⟨shape, [t], tail⟩ := by
  obtain ⟨l, s⟩ := t
  obtain rfl : l = .word "try".toList := ht
  cases depth with
  | zero => simp [readPhrase] at h
  | succ depth => exact (Option.some.inj h).symm

theorem path_try {depth : Nat} {place : PathPlace} {shape : Shape} {t : Token} {tail : List Token}
    {r : Reading} (ht : t.lexeme = .word "try".toList)
    (h : readPhrase whole grammar depth (.path place) shape (t :: tail) = some r) :
    r.rest <:+ tail ∧ (r.rest = tail → r.shape = .name ∧
      (signAt 0 "::" &&& ~~~openingAt 2 .paren).holds tail = false) := by
  cases depth with
  | zero => simp [readPhrase] at h
  | succ depth =>
    have h : (grammar (.path place)).run whole (readPhrase whole grammar depth) shape (t :: tail) =
      some r := h
    have hmark : (signAt 0 "::").holds (t :: tail) = false := by
      show signAhead _ _ = _
      simp [signAhead, ht]
    rw [grammar, pathRule] at h
    obtain ⟨_, more, hfirst, hmore, rfl⟩ := Rule.run_seq h
    obtain ⟨_, word, hfront, hword, rfl⟩ := Rule.run_seq hfirst
    obtain ⟨named, rooted, hnamed, hrooted, rfl⟩ := Rule.run_seq hfront
    obtain rfl := Option.some.inj hnamed
    rw [whenAhead, Rule.run, if_neg (Bool.eq_false_iff.mp hmark)] at hrooted
    obtain rfl := Option.some.inj hrooted
    obtain rfl := pathWord_try ht hword
    have hmore : readPhrase whole grammar depth (.pathRest place) .name tail = some more := hmore
    have hsuffix := readPhrase_suffix depth _ _ _ _ hmore
    have hstops := pathRest_stops hmore
    exact ⟨hsuffix, hstops⟩

theorem readPhrase_stopsAtTry (depth : Nat) : StopsAtTry (readPhrase whole grammar depth) := by
  intro braces shape t left tail r ht h hrest
  cases depth with
  | zero => simp [readPhrase] at h
  | succ depth =>
    have hs := @readPhrase_suffix whole depth
    have hl := @readPhrase_length whole depth
    have h : (grammar (.pathExpression braces)).run whole (readPhrase whole grammar depth) shape
        (t :: tail) = some r := h
    have hless : (signAt 0 "<").holds (t :: tail) = false := by
      show signAhead _ _ = _
      simp [signAhead, ht]
    rw [grammar, pathExpressionRule, Rule.run, if_neg (Bool.eq_false_iff.mp hless)] at h
    obtain ⟨path, last, hpath, hlast, rfl⟩ := Rule.run_seq h
    have hrest : last.rest = left ++ tail := hrest
    obtain ⟨hsuffix, hstops⟩ := path_try ht hpath
    have hlen := (Rule.run_suffix hs _ hlast).length_le
    obtain rfl : left = [] := by
      have hle := hsuffix.length_le
      rw [hrest, List.length_append] at hlen
      exact List.length_eq_zero_iff.mp (by omega)
    have hpathRest : path.rest = tail := by
      rw [hrest] at hlen
      exact hsuffix.eq_of_length_le hlen
    obtain ⟨hname, hmore⟩ := hstops hpathRest
    refine ⟨rfl, ?_, hmore⟩
    rw [hname, hpathRest, Rule.run, if_pos (by decide), Rule.run] at hlast
    split at hlast
    · have hlt := Rule.run_length hs hl _ hlast (by decide)
      rw [hrest] at hlt
      exact absurd hlt (Nat.lt_irrefl _)
    · next hmacro => exact Bool.eq_false_iff.mpr hmacro

theorem readPhrase_cut (depth : Nat) : ∀ p shape ts left tail r, p.bracketed = false →
    readPhrase whole grammar depth p shape (ts ++ tail) = some r → r.rest = left ++ tail →
    Allows p.leaves.contains left →
    CutOff (readPhrase whole grammar depth p shape ts) ts left tail r := by
  induction depth with
  | zero => intro p shape ts left tail r _ h; simp [readPhrase] at h
  | succ depth ih =>
    intro p shape ts left tail r hb h hrest ha
    have hg := grammar_cuts p
    simp only [hb, Bool.false_or] at hg
    have hd := grammar_depthAtEnd? p (e := .closed) (by cases p.ending <;> simp [Ending.level])
    refine Rule.cutsOff (readPhrase_leaves depth) (readPhrase_eats depth) (readPhrase_stopsAtTry depth)
      (fun p shape ts left tail r h hrest hc => ?_) ih (grammar p) h hd hg hrest
      (by rintro m ⟨⟩; trivial) ha
    have hh := readPhrase_tail depth p .closed shape ts left tail [] r h hrest
      (by cases p.ending <;> simp [Ending.level]) hc (.inl rfl) (.inl rfl)
    rwa [List.append_nil, List.append_nil] at hh

theorem EndsInTry.not_endsOpen {ts : List Token} (h : EndsInTry ts) : ¬ EndsOpen ts := by
  obtain ⟨front, t, rfl, ht⟩ := h
  rintro ⟨front', t', joint, hts, ht'⟩
  obtain ⟨-, hlast⟩ := List.append_inj' hts rfl
  obtain rfl := List.singleton_inj.mp hlast
  simp [ht] at ht'

/-- An expression is read of its own tokens alone as well. Only if they end in a `try` before a double
colon and a parenthesis may nothing be read of them. -/
theorem Expression.inFront?_alone {x : Expression} {ts tail : List Token}
    (h : Expression.inFront? whole (ts ++ tail) = some (x, tail)) :
    Expression.inFront? whole ts = some (x, []) ∨
      Expression.inFront? whole ts = none ∧ EndsInTry ts ∧ inputsAhead.holds tail = true := by
  obtain ⟨r, hr, hp⟩ := Option.map_eq_some_iff.mp h
  obtain ⟨rfl, hrest⟩ := Prod.mk.inj hp
  have hd : readPhrase whole grammar (depthFor (ts ++ tail).length) (.expression true) .other ts =
      (Phrase.expression true).inFront whole .other ts :=
    Phrase.inFront_eq (by simp only [depthFor, List.length_append]; omega)
  have hnil : Allows (Phrase.expression true).leaves.contains [] := by
    intro w _ hf
    cases hf
    decide +kernel
  rcases readPhrase_cut _ _ _ _ [] tail r rfl hr hrest hnil with hh | ⟨hh, -, htry, hstray⟩
  · rw [hd] at hh
    exact .inl (by simp [Expression.inFront?, hh])
  · rw [hd] at hh
    refine .inr ⟨by simp [Expression.inFront?, hh], htry, ?_⟩
    rcases Bool.or_eq_true_iff.mp hstray with hunequal | hinputs
    · exact absurd (Expression.inFront?_before_inequality h hunequal) htry.not_endsOpen
    · exact hinputs

end FieldKeys
