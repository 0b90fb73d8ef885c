import FieldKeys.Proofs.Grammar.Locality
import Mathlib.Data.List.Forall2

/-! Which names stand behind a phrase does not matter to it, as long as names stand there. Most looks
ask for names only by whether they are any. Two ask for a certain word that may be a name; they are
part of what stands in brackets, or of what is followed by the end of an argument. -/

namespace FieldKeys

/-- The same token, or a name for a name. -/
inductive Token.Renamed : Token → Token → Prop
  | same (t : Token) : Token.Renamed t t
  | name {t t' : Token} (h : Test.anyName.fits t.lexeme = true)
      (h' : Test.anyName.fits t'.lexeme = true) : Token.Renamed t t'

abbrev Renamed : List Token → List Token → Prop :=
  List.Forall₂ Token.Renamed

theorem Renamed.refl (ts : List Token) : Renamed ts ts :=
  List.forall₂_same.mpr fun t _ => .same t

theorem Renamed.append {ts ts' us us' : List Token} (h : Renamed ts ts') (h' : Renamed us us') :
    Renamed (ts ++ us) (ts' ++ us') :=
  List.rel_append h h'

theorem Renamed.append_left {ts ts' : List Token} (h : Renamed ts ts') (front : List Token) :
    Renamed (front ++ ts) (front ++ ts') :=
  (Renamed.refl front).append h

/-- Whether a test tells no name from another. -/
def Test.overlooksNames : Test → Bool
  | .word w => keywords.contains w
  | _ => true

def Look.overlooksNames : Look → Bool
  | .ahead _ test => test.overlooksNames
  | .no l => l.overlooksNames
  | .both a b | .either a b => a.overlooksNames && b.overlooksNames

theorem exists_name {l : Lexeme} (h : Test.anyName.fits l = true) :
    ∃ name, l = .word name ∧ keywords.contains name = false := by
  cases l <;> simp_all [Test.fits]

theorem Test.fits_names {test : Test} (ht : test.overlooksNames = true) {l l' : Lexeme}
    (h : Test.anyName.fits l = true) (h' : Test.anyName.fits l' = true) :
    test.fits l = test.fits l' := by
  obtain ⟨name, rfl, hk⟩ := exists_name h
  obtain ⟨name', rfl, hk'⟩ := exists_name h'
  have hne : ∀ w, keywords.contains w = true → (name == w) = false ∧ (name' == w) = false := by
    intro w hw
    constructor <;> refine beq_false_of_ne ?_ <;> rintro rfl <;> simp_all
  cases test with
  | word w => simp only [fits, hne w ht]
  | anyName => exact h.trans h'.symm
  | literal =>
    have htrue := hne "true".toList (by decide)
    have hfalse := hne "false".toList (by decide)
    simp only [fits, htrue, hfalse]
  | _ => rfl

theorem Token.Renamed.fits {t t' : Token} (h : t.Renamed t') {test : Test}
    (ht : test.overlooksNames = true) : test.fits t.lexeme = test.fits t'.lexeme := by
  cases h with
  | same => rfl
  | name h h' => exact Test.fits_names ht h h'

theorem Token.Renamed.isSign {t t' : Token} (h : t.Renamed t') (c : Char) :
    FieldKeys.isSign c t = FieldKeys.isSign c t' := by
  cases h with
  | same => rfl
  | name h h' =>
    obtain ⟨name, hl, -⟩ := exists_name h
    obtain ⟨name', hl', -⟩ := exists_name h'
    simp [FieldKeys.isSign, hl, hl']

theorem Token.Renamed.isClosing {t t' : Token} (h : t.Renamed t') (d : Delimiter) :
    FieldKeys.isClosing d t = FieldKeys.isClosing d t' := by
  cases h with
  | same => rfl
  | name h h' =>
    obtain ⟨name, hl, -⟩ := exists_name h
    obtain ⟨name', hl', -⟩ := exists_name h'
    simp [FieldKeys.isClosing, hl, hl']

/-- Names are no part of an operator. -/
theorem Renamed.signAhead {ts ts' : List Token} (h : Renamed ts ts') (s : Text) :
    FieldKeys.signAhead s ts = FieldKeys.signAhead s ts' := by
  induction h generalizing s with
  | nil => rfl
  | cons ht _ ih =>
    cases ht with
    | same =>
      rcases s with _ | ⟨c, _ | ⟨d, s⟩⟩
      · rfl
      · rfl
      · simp only [FieldKeys.signAhead, ih]
    | name h h' =>
      obtain ⟨name, hl, -⟩ := exists_name h
      obtain ⟨name', hl', -⟩ := exists_name h'
      rcases s with _ | ⟨c, _ | ⟨d, s⟩⟩ <;> simp [FieldKeys.signAhead, hl, hl']

theorem Test.holds_renamed {test : Test} (ht : test.overlooksNames = true) {ts ts' : List Token}
    (h : Renamed ts ts') : test.holds ts = test.holds ts' := by
  cases test with
  | sign s => exact h.signAhead s
  | _ =>
    cases h with
    | nil => rfl
    | cons hh _ => exact hh.fits ht

theorem Look.holds_renamed {look : Look} (hl : look.overlooksNames = true) {ts ts' : List Token}
    (h : Renamed ts ts') : look.holds ts = look.holds ts' := by
  induction look with
  | ahead skip test => exact Test.holds_renamed hl (List.forall₂_drop skip h)
  | no look ih => simp only [holds, ih hl]
  | both a b iha ihb | either a b iha ihb =>
    obtain ⟨ha, hb⟩ := Bool.and_eq_true_iff.mp hl
    simp only [holds, iha ha, ihb hb]

/-- Phrases that tell no name from another behind them. An operand looks for a word that is a name,
and so does the type of a field. -/
def Phrase.overlooksNames : Phrase → Bool
  | .expression _ | .unary _ | .atom _ | .rangeEnd _ | .closure _ | .operators _ _ | .expressions
  | .structureItems | .conditional | .arms | .statements | .statement | .statementExpression
  | .fieldType | .namedFieldItems | .variants | .attributeValue | .signature _ | .inputs _ | .items
  | .item | .definition _ | .useTree _ | .useTrees _ | .members _ | .member _ _ => false
  | _ => true

/-- Whether a rule tells no name from another, where `n` brackets are open. In brackets any phrase
may be called. -/
def Rule.overlooksNames : PhraseRule → Nat → Bool
  | .seq a b, n =>
    match a.depthAtEnd? Phrase.ending Phrase.idle .closed n with
    | some (some m) => a.overlooksNames n && b.overlooksNames m
    | some none => true
    | none => false
  | .choose look yes no, n =>
    look.overlooksNames && (yes.overlooksNames n && no.overlooksNames n)
  | .onShape _ a b, n => a.overlooksNames n && b.overlooksNames n
  | .braced r, n | .rewrite _ r, n => r.overlooksNames n
  | .call p, n => n != 0 || p.overlooksNames
  | .probe _ _ _, _ => false
  | _, _ => true

theorem grammar_overlooksNames {p : Phrase} (hp : p.overlooksNames = true) :
    (grammar p).overlooksNames 0 = true := by
  have h := Phrase.of_all (f := fun p => !p.overlooksNames || (grammar p).overlooksNames 0)
    (by decide +kernel) p
  simpa [hp] using h

/-- A rule that is read up to what is left before a tail, is so whichever names stand in the tail. -/
def Rule.PassesNames (readers : Phrase → Reader) (rule : PhraseRule) : Prop :=
  ∀ ⦃n : Nat⦄ ⦃d : Option Nat⦄ ⦃shape : Shape⦄ ⦃ts left tail tail' : List Token⦄ ⦃r : Reading⦄,
    rule.run true readers shape (ts ++ tail) = some r →
    rule.depthAtEnd? Phrase.ending Phrase.idle .closed n = some d →
    rule.overlooksNames n = true → r.rest = left ++ tail → (∀ m, d = some m → Closes m left) →
    Renamed tail tail' →
    rule.run true readers shape (ts ++ tail') = some { r with rest := left ++ tail' }

theorem Rule.PassesNames.of_readsLocally {readers : Phrase → Reader} {rule : PhraseRule}
    (h : ReadsLocally (rule.run true readers)) : rule.PassesNames readers := by
  intro n d shape ts left tail tail' r hrun _ _ hrest _ _
  exact h.tail hrun hrest tail'

theorem Rule.PassesNames.seq {readers : Phrase → Reader}
    (hl : ∀ p shape ts r, readers p shape ts = some r → Leaves ts 0 0 r.rest) {a b : PhraseRule}
    (ha : a.PassesNames readers) (hb : b.PassesNames readers) :
    (Rule.seq a b).PassesNames readers := by
  intro n d shape ts left tail tail' r h hd ho hrest hm ht
  obtain ⟨first, second, hfirst, hsecond, rfl⟩ := run_seq h
  have hrest : second.rest = left ++ tail := hrest
  simp only [depthAtEnd?, reduceCtorEq, false_and, if_false] at hd
  simp only [overlooksNames] at ho
  split at hd
  · next m hma =>
    simp only [hma, Bool.and_eq_true] at ho
    obtain ⟨k, rfl, used, hu, hdu⟩ := b.run_leaves hl hsecond hd
    rw [hrest, ← List.append_assoc] at hu
    have hcl : ∀ m', some m = some m' → Closes m' (used ++ left) := by
      rintro m' ⟨⟩
      exact Closes.append hdu (hm k rfl)
    have hfa := ha hfirst hma ho.1 hu hcl ht
    rw [hu] at hsecond
    have hfb := hb hsecond hd ho.2 hrest hm ht
    simp only [run, hfa, hfb]
  · next other hn =>
    obtain ⟨m, rfl, -⟩ := a.run_leaves hl hfirst hd
    exact absurd hd (hn m)

theorem Rule.PassesNames.choose {readers : Phrase → Reader} {look : Look} {yes no : PhraseRule}
    (hy : yes.PassesNames readers) (hn : no.PassesNames readers) :
    (Rule.choose look yes no).PassesNames readers := by
  intro n d shape ts left tail tail' r h hd ho hrest hm ht
  simp only [overlooksNames, Bool.and_eq_true] at ho
  obtain ⟨hlook, hoy, hon⟩ := ho
  simp only [depthAtEnd?] at hd
  split at hd
  · obtain ⟨x, y, hx, hy', hdx, hdy⟩ := agree_eq_some hd
    simp only [run, ← Look.holds_renamed hlook (ht.append_left ts)] at h ⊢
    exact ite_eq_of_imp h (fun h => hy h hx hoy hrest (fun m hh => hm m (hdx m hh)) ht)
      fun h => hn h hy' hon hrest (fun m hh => hm m (hdy m hh)) ht
  · simp at hd

theorem Rule.PassesNames.onShape {readers : Phrase → Reader} {shapes : List Shape}
    {yes no : PhraseRule} (hy : yes.PassesNames readers) (hn : no.PassesNames readers) :
    (Rule.onShape shapes yes no).PassesNames readers := by
  intro n d shape ts left tail tail' r h hd ho hrest hm ht
  obtain ⟨hoy, hon⟩ := Bool.and_eq_true_iff.mp ho
  obtain ⟨x, y, hx, hy', hdx, hdy⟩ := agree_eq_some hd
  exact ite_eq_of_imp h (fun h => hy h hx hoy hrest (fun m hh => hm m (hdx m hh)) ht)
    fun h => hn h hy' hon hrest (fun m hh => hm m (hdy m hh)) ht

/-- A rule passes names if the phrases do that it calls outside of brackets. -/
theorem Rule.passesNames {readers : Phrase → Reader}
    (hl : ∀ p shape ts r, readers p shape ts = some r → Leaves ts 0 0 r.rest)
    (hclosed : ∀ p shape ts left tail tail' r, readers p shape (ts ++ tail) = some r →
      r.rest = left ++ tail → Closes 1 left →
      readers p shape (ts ++ tail') = some { r with rest := left ++ tail' })
    (hr : ∀ p shape ts left tail tail' r, p.overlooksNames = true →
      readers p shape (ts ++ tail) = some r → r.rest = left ++ tail → Renamed tail tail' →
      readers p shape (ts ++ tail') = some { r with rest := left ++ tail' })
    (rule : PhraseRule) : rule.PassesNames readers := by
  induction rule with
  | seq a b iha ihb => exact iha.seq hl ihb
  | choose look yes no ihy ihn => exact ihy.choose ihn
  | onShape shapes yes no ihy ihn => exact ihy.onShape ihn
  | take test => exact .of_readsLocally (Test.read_locally test)
  | close d => exact .of_readsLocally (readClose_locally d)
  | raw => exact .of_readsLocally readRaw_locally
  | braced rule ih | rewrite writing rule ih =>
    intro n d shape ts left tail tail' r h hd ho hrest hm ht
    obtain ⟨x, hx, rfl⟩ := Option.map_eq_some_iff.mp h
    have hh := ih hx hd ho hrest hm ht
    simp only [run, hh, Option.map_some]
  | probe ahead yes no =>
    intro n d shape ts left tail tail' r _ _ ho
    simp [overlooksNames] at ho
  | fail =>
    intro n d shape ts left tail tail' r h
    simp [run] at h
  | done | mark new =>
    intro n d shape ts left tail tail' r h _ _ hrest _ _
    obtain rfl := Option.some.inj h
    obtain rfl := List.append_cancel_right hrest
    rfl
  | call p =>
    intro n d shape ts left tail tail' r h hd ho hrest hm ht
    simp only [depthAtEnd?] at hd
    split at hd
    · obtain rfl := Option.some.inj hd
      cases n with
      | zero => exact hr p shape ts left tail tail' r (by simpa [overlooksNames] using ho) h hrest ht
      | succ n => exact hclosed p shape ts left tail tail' r h hrest (hm (n + 1) rfl).one
    · simp at hd

theorem readPhrase_names (depth : Nat) : ∀ p shape ts left tail tail' r, p.overlooksNames = true →
    readPhrase true grammar depth p shape (ts ++ tail) = some r → r.rest = left ++ tail →
    Renamed tail tail' →
    readPhrase true grammar depth p shape (ts ++ tail') = some { r with rest := left ++ tail' } := by
  induction depth with
  | zero => intro p shape ts left tail tail' r _ h; simp [readPhrase] at h
  | succ depth ih =>
    intro p shape ts left tail tail' r hp h hrest ht
    have hd := grammar_depthAtEnd? p (e := .closed) (by cases p.ending <;> simp [Ending.level])
    refine Rule.passesNames (readPhrase_leaves depth)
      (fun p shape ts left tail tail' r h hrest hc => ?_) ih (grammar p) h hd
      (grammar_overlooksNames hp) hrest (by rintro m ⟨⟩; trivial) ht
    exact readPhrase_tail depth p .closed shape ts left tail tail' r h hrest
      (by cases p.ending <;> simp [Ending.level]) hc (.inl rfl) (.inl rfl)

theorem Phrase.readAfter_names {p : Phrase} {shape : Shape} {ts left tail tail' : List Token}
    {r : Reading} (hp : p.overlooksNames = true) (h : p.readAfter shape (ts ++ tail) = some r)
    (hrest : r.rest = left ++ tail) (ht : Renamed tail tail') :
    p.readAfter shape (ts ++ tail') = some { r with rest := left ++ tail' } := by
  have hlen : (ts ++ tail').length = (ts ++ tail).length := by
    simp only [List.length_append, ht.length_eq]
  rw [readAfter, inFront, hlen]
  exact readPhrase_names _ p shape ts left tail tail' r hp h hrest ht

end FieldKeys
