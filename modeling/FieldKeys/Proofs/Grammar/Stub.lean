import FieldKeys.Proofs.Grammar.Locality
import Mathlib.Data.List.Forall2

/-! What a phrase may consist of, or end in, as far as it is a token or two. Such stubs are where the
end of a text is in sight, and what follows it may matter. -/

namespace FieldKeys

variable {whole : Bool}

inductive Kind where
  | word
  | lifetime
  | literal
  | sign
  | opening
  | closing
deriving DecidableEq

def Lexeme.kind : Lexeme → Kind
  | .word _ => .word
  | .lifetime _ => .lifetime
  | .literal _ => .literal
  | .sign _ _ => .sign
  | .opening _ => .opening
  | .closing _ => .closing

def Test.kinds : Test → List Kind
  | .word _ | .anyName | .anyWord => [.word]
  | .lifetime => [.lifetime]
  | .literal => [.literal, .word]
  | .string | .number | .index | .decimalIndex | .pointedIndex => [.literal]
  | .sign _ => [.sign]
  | .opening _ | .anyOpening => [.opening]
  | .finish => [.closing]

/-- Something that is known of a token: a test that it answers, the character of a sign, or that it
is a literal and no index of a field. -/
inductive Cell where
  | test (test : Test)
  | char (c : Char)
  | odd
deriving DecidableEq

def Cell.Fits : Cell → Lexeme → Prop
  | .test t, l => t.fits l = true
  | .char c, l => ∃ joint, l = .sign c joint
  | .odd, l => ∃ text, l = .literal text ∧ isIndexText text = false ∧ isDecimalIndexText text = false

def Cell.kinds : Cell → List Kind
  | .test t => t.kinds
  | .char _ => [.sign]
  | .odd => [.literal]

/-- A few tokens, of each what is known of it. -/
abbrev Stub := List (List Cell)

def Stub.Fits (w : Stub) (ts : List Token) : Prop :=
  List.Forall₂ (fun cells t => ∀ c ∈ cells, c.Fits t.lexeme) w ts

/-- Whether a token of which this is known may answer a test. -/
def Cell.meets : Cell → Test → Bool
  | .test (.word w), t => t.fits (.word w)
  | .test t, .word w => t.fits (.word w)
  | .odd, .index | .odd, .decimalIndex | .odd, .pointedIndex => false
  | c, t => c.kinds.any t.kinds.contains

def Cell.meetsChar : Cell → Char → Bool
  | .char c, d => c == d
  | _, _ => false

theorem Test.fits_kind {t : Test} {l : Lexeme} (h : t.fits l = true) : l.kind ∈ t.kinds := by
  cases t <;> cases l <;> simp_all [fits, Lexeme.kind, kinds]

theorem Cell.Fits.kind {c : Cell} {l : Lexeme} (h : c.Fits l) : l.kind ∈ c.kinds := by
  cases c with
  | test t => exact Test.fits_kind h
  | char c =>
    obtain ⟨joint, rfl⟩ := h
    simp [Lexeme.kind, kinds]
  | odd =>
    obtain ⟨text, rfl, -, -⟩ := h
    simp [Lexeme.kind, kinds]

theorem Cell.Fits.meets {c : Cell} {t : Test} {l : Lexeme} (h : c.Fits l) (ht : t.fits l = true) :
    c.meets t = true := by
  unfold Cell.meets
  split
  · obtain rfl := Test.fits_word_iff.mp h
    exact ht
  · obtain rfl := Test.fits_word_iff.mp ht
    exact h
  · obtain ⟨text, rfl, hi, -⟩ := h
    simp [Test.fits, hi] at ht
  · obtain ⟨text, rfl, -, hd⟩ := h
    simp [Test.fits, hd] at ht
  · obtain ⟨text, rfl, -, hd⟩ := h
    simp [Test.fits, hd] at ht
  · exact List.any_eq_true.mpr ⟨l.kind, h.kind, List.contains_iff_mem.mpr (Test.fits_kind ht)⟩

theorem Cell.Fits.meetsChar {c : Cell} {d : Char} {j : Bool} (h : c.Fits (.sign d j)) :
    c.meetsChar d = true := by
  cases c with
  | test t => cases t <;> simp [Fits, Test.fits] at h
  | char c =>
    obtain ⟨joint', hj⟩ := h
    simp_all [Cell.meetsChar]
  | odd => simp [Fits] at h

namespace Stub.Fits

variable {w : Stub} {ts us : List Token}

theorem length (h : w.Fits ts) : w.length = ts.length :=
  List.Forall₂.length_eq h

theorem take (h : w.Fits ts) (k : Nat) : Stub.Fits (w.take k) (ts.take k) :=
  List.forall₂_take k h

theorem drop (h : w.Fits ts) (k : Nat) : Stub.Fits (w.drop k) (ts.drop k) :=
  List.forall₂_drop k h

theorem append {v : Stub} (h : w.Fits ts) (hv : v.Fits us) : Stub.Fits (w ++ v) (ts ++ us) :=
  List.rel_append h hv

theorem take_append (h : w.Fits (ts ++ us)) : Stub.Fits (w.take ts.length) ts := by
  simpa using h.take ts.length

theorem drop_append (h : w.Fits (ts ++ us)) : Stub.Fits (w.drop ts.length) us := by
  simpa using h.drop ts.length

theorem length_le (h : w.Fits (ts ++ us)) : ts.length ≤ w.length := by
  have hl := h.length
  rw [List.length_append] at hl
  omega

end Stub.Fits

theorem signAhead_cons {c : Char} {s : Text} {t : Token} {ts : List Token}
    (h : signAhead (c :: s) (t :: ts) = true) :
    (∃ joint, t.lexeme = .sign c joint) ∧ signAhead s ts = true := by
  cases hl : t.lexeme with
  | sign d joint =>
    cases s with
    | nil =>
      obtain rfl : d = c := by simpa [signAhead, hl] using h
      exact ⟨⟨joint, rfl⟩, rfl⟩
    | cons e s =>
      simp only [signAhead, hl, Bool.and_eq_true, beq_iff_eq] at h
      obtain ⟨⟨rfl, -⟩, hs⟩ := h
      exact ⟨⟨joint, rfl⟩, hs⟩
  | _ => cases s <;> simp [signAhead, hl] at h

/-- Whether tokens in front of which a stub is known may begin with an operator. -/
def mayBegin : Text → Stub → Bool
  | [], _ | _, [] => true
  | d :: s, cells :: w => cells.all (·.meetsChar d) && mayBegin s w

def Test.mayHold : Test → Stub → Bool
  | .sign s, w => mayBegin s w
  | .finish, _ | _, [] => true
  | test, cells :: _ => cells.all (·.meets test)

def Look.mayHold : Look → Stub → Bool
  | .ahead skip test, w => test.mayHold (w.drop skip)
  | .no _, _ => true
  | .both a b, w => a.mayHold w && b.mayHold w
  | .either a b, w => a.mayHold w || b.mayHold w

/-- Whether a stub may be just an operator. -/
def maySpell : Text → Stub → Bool
  | [], [] => true
  | d :: s, cells :: w => cells.all (·.meetsChar d) && maySpell s w
  | _, _ => false

def Test.mayEat : Test → Stub → Bool
  | .sign s, w => maySpell s w
  | test, [cells] => cells.all (·.meets test)
  | _, _ => false

def Stub.mayClose (w : Stub) : Bool :=
  w.getLast?.any fun cells => cells.all (·.meets .finish)

/-- Whether a rule may read just what fits a stub. -/
def Rule.mayEat {P : Type} (mayEat : P → Stub → Bool) : Rule P → Stub → Bool
  | .done, w | .mark _, w => w.isEmpty
  | .fail, _ => false
  | .take test, w => test.mayEat w
  | .close _, w => w.mayClose
  | .raw, w => w.head?.any fun cells => cells.all (·.meets .anyOpening)
  | .call p, w => mayEat p w
  | .seq a b, w => (List.range (w.length + 1)).any fun k =>
      a.mayEat mayEat (w.take k) && b.mayEat mayEat (w.drop k)
  | .choose look a b, w => (look.mayHold w && a.mayEat mayEat w) || b.mayEat mayEat w
  | .probe _ a b, w | .onShape _ a b, w => a.mayEat mayEat w || b.mayEat mayEat w
  | .braced r, w | .rewrite _ r, w => r.mayEat mayEat w

theorem Stub.Fits.mayClose {w : Stub} {front : List Token} {t : Token} {d : Delimiter}
    (hw : w.Fits (front ++ [t])) (ht : t.lexeme = .closing d) : w.mayClose = true := by
  have hr : Stub.Fits w.reverse (t :: front.reverse) := by
    simpa [Stub.Fits] using List.forall₂_reverse_iff.mpr hw
  rw [Stub.mayClose, List.getLast?_eq_head?_reverse]
  cases hv : w.reverse with
  | nil => simp [hv, Stub.Fits] at hr
  | cons cells others =>
    rw [hv] at hr
    cases hr with
    | cons hc _ => exact List.all_eq_true.mpr fun x hx => (hc x hx).meets (by simp [ht, Test.fits])

theorem mayBegin_of_ahead {s : Text} {w : Stub} {used rest : List Token}
    (h : signAhead s (used ++ rest) = true) (hw : w.Fits used) : mayBegin s w = true := by
  induction s generalizing w used with
  | nil => simp [mayBegin]
  | cons c s ih =>
    cases hw with
    | nil => simp [mayBegin]
    | @cons cells t w used hc hw =>
      obtain ⟨⟨joint, ht⟩, hs⟩ := signAhead_cons h
      have hall : cells.all (·.meetsChar c) = true := List.all_eq_true.mpr fun x hx =>
        Cell.Fits.meetsChar (j := joint) (ht ▸ hc x hx)
      simp only [mayBegin, hall, Bool.true_and]
      exact ih hs hw

theorem maySpell_of_ahead {s : Text} {w : Stub} {ts : List Token} (h : signAhead s ts = true)
    (hw : w.Fits (ts.take s.length)) : maySpell s w = true := by
  induction s generalizing w ts with
  | nil =>
    cases hw
    rfl
  | cons c s ih =>
    cases ts with
    | nil => simp [signAhead] at h
    | cons t ts =>
      obtain ⟨⟨joint, ht⟩, hs⟩ := signAhead_cons h
      cases hw with
      | @cons cells _ w _ hc hw =>
        have hall : cells.all (·.meetsChar c) = true := List.all_eq_true.mpr fun x hx =>
          Cell.Fits.meetsChar (j := joint) (ht ▸ hc x hx)
        simp only [maySpell, hall, Bool.true_and]
        exact ih hs hw

theorem Test.mayHold_of_holds {test : Test} {w : Stub} {used rest : List Token}
    (h : test.holds (used ++ rest) = true) (hw : w.Fits used) : test.mayHold w = true := by
  cases test with
  | sign s => exact mayBegin_of_ahead h hw
  | finish => cases w <;> rfl
  | _ =>
    cases hw with
    | nil => rfl
    | cons hc hw => exact List.all_eq_true.mpr fun x hx => (hc x hx).meets h

theorem Look.mayHold_of_holds {look : Look} {w : Stub} {used rest : List Token}
    (h : look.holds (used ++ rest) = true) (hw : w.Fits used) : look.mayHold w = true := by
  induction look with
  | ahead skip test =>
    simp only [holds, List.drop_append] at h
    exact Test.mayHold_of_holds h (hw.drop skip)
  | no look ih => rfl
  | both a b iha ihb =>
    obtain ⟨ha, hb⟩ := Bool.and_eq_true_iff.mp h
    simp only [mayHold, iha ha, ihb hb, Bool.and_self]
  | either a b iha ihb =>
    rcases Bool.or_eq_true_iff.mp h with h | h
    · simp only [mayHold, iha h, Bool.true_or]
    · simp only [mayHold, ihb h, Bool.or_true]

theorem Test.mayEat_of_fits {test : Test} {t : Token} {w : Stub} (h : test.fits t.lexeme = true)
    (hw : w.Fits [t]) : test.mayEat w = true := by
  cases hw with
  | cons hc hw =>
    cases hw
    cases test with
    | sign s => simp [fits] at h
    | _ => exact List.all_eq_true.mpr fun x hx => (hc x hx).meets h

theorem Test.mayEat_of_read {test : Test} {shape : Shape} {ts used : List Token} {r : Reading}
    {w : Stub} (h : test.read shape ts = some r) (hu : ts = used ++ r.rest) (hw : w.Fits used) :
    test.mayEat w = true := by
  subst hu
  rcases Test.read_used h with ⟨s, rfl, ht, htake, -⟩ | ⟨t, rfl, ht, -⟩
  · rw [htake] at hw
    exact maySpell_of_ahead ht hw
  · exact mayEat_of_fits ht hw

def operatorStub (s : String) : Stub := s.toList.map fun c => [.char c]

def testStub (test : Test) : Stub := [[.test test]]

def wordStub (w : String) : Stub := testStub (.word w.toList)

/-- The stubs of which it is asked whether a phrase may consist of them, with all their parts. -/
def Stub.all : List Stub :=
  [[]] ++
    ([":", "::", "+", "-", "*", "/", "%", "^", "&", "|", "<", "<<", ">", ">>", "=", "!", ".",
      ".."].map operatorStub) ++
    [testStub .anyName, testStub .anyName ++ operatorStub ":", testStub .anyName ++ operatorStub ".",
      wordStub "self", wordStub "self" ++ operatorStub ":", wordStub "try",
      wordStub "try" ++ operatorStub ":", wordStub "for", wordStub "for" ++ operatorStub "<",
      wordStub "async", wordStub "async" ++ wordStub "move", wordStub "move", wordStub "const",
      wordStub "raw", wordStub "builtin", wordStub "break",
      wordStub "break" ++ testStub .lifetime, testStub .lifetime,
      operatorStub "." ++ [[.odd]], [[.odd]]]

theorem Stub.parts_mem {w : Stub} (h : w ∈ Stub.all) (k : Nat) :
    w.take k ∈ Stub.all ∧ w.drop k ∈ Stub.all := by
  have hall : ∀ w ∈ Stub.all, w.length ≤ 2 ∧ ∀ k < 2, w.take k ∈ Stub.all ∧ w.drop k ∈ Stub.all := by
    decide +kernel
  obtain ⟨hl, hk⟩ := hall w h
  by_cases hlt : k < 2
  · exact hk k hlt
  · have hle : w.length ≤ k := by omega
    rw [List.take_of_length_le hle, List.drop_eq_nil_of_le hle]
    exact ⟨h, by decide +kernel⟩

/-- A table of stubs is right about the phrases that are read. -/
def EatsAsTold {P : Type} (mayEat : P → Stub → Bool) (readers : P → Reader) : Prop :=
  ∀ ⦃p shape ts r used⦄ ⦃w : Stub⦄, w ∈ Stub.all → readers p shape ts = some r →
    ts = used ++ r.rest → w.Fits used → mayEat p w = true

theorem Rule.mayEat_of_run {P : Type} {mayEat : P → Stub → Bool} {readers : P → Reader}
    (hs : ∀ p shape ts r, readers p shape ts = some r → r.rest <:+ ts)
    (hr : EatsAsTold mayEat readers) (rule : Rule P) {shape : Shape} {ts used : List Token}
    {r : Reading} {w : Stub} (hw : w ∈ Stub.all) (h : rule.run whole readers shape ts = some r)
    (hu : ts = used ++ r.rest) (hf : w.Fits used) : rule.mayEat mayEat w = true := by
  induction rule generalizing shape ts used r w with
  | done | mark new =>
    obtain rfl := Option.some.inj h
    obtain rfl : used = [] := by simpa using hu
    cases hf
    rfl
  | fail => simp [run] at h
  | take test => exact Test.mayEat_of_read h hu hf
  | close d =>
    subst hu
    obtain ⟨extra, t, rfl, -, ht, -, -⟩ := readClose_used h
    exact hf.mayClose ht
  | raw =>
    subst hu
    obtain ⟨t, d, group, rfl, ht, -, -⟩ := readRaw_used h
    cases hf with
    | cons hc hf =>
      simp only [Rule.mayEat, List.head?_cons, Option.any_some]
      exact List.all_eq_true.mpr fun x hx => (hc x hx).meets (by simp [ht, Test.fits])
  | call p => exact hr hw h hu hf
  | seq a b iha ihb =>
    subst hu
    obtain ⟨front, back, first, second, rfl, ha, -, hb, rfl⟩ := run_parts hs h
    obtain ⟨hfront, hback⟩ := Stub.parts_mem hw front.length
    have hma := iha hfront ha rfl hf.take_append
    have hmb := ihb hback hb rfl hf.drop_append
    have hlt : front.length ∈ List.range (w.length + 1) :=
      List.mem_range.mpr (Nat.lt_succ_of_le hf.length_le)
    exact List.any_eq_true.mpr ⟨front.length, hlt, by simp only [hma, hmb, Bool.and_self]⟩
  | choose look yes no ihy ihn =>
    simp only [run] at h
    simp only [Rule.mayEat]
    split at h
    · next hl =>
      rw [hu] at hl
      simp only [ihy hw h hu hf, Look.mayHold_of_holds hl hf, Bool.and_self, Bool.true_or]
    · simp only [ihn hw h hu hf, Bool.or_true]
  | probe ahead yes no _ ihy ihn | onShape shapes yes no ihy ihn =>
    simp only [run] at h
    simp only [Rule.mayEat]
    split at h
    · simp only [ihy hw h hu hf, Bool.true_or]
    · simp only [ihn hw h hu hf, Bool.or_true]
  | braced rule ih | rewrite writing rule ih =>
    obtain ⟨x, hx, rfl⟩ := Option.map_eq_some_iff.mp h
    have hh := ih hw hx hu hf
    exact hh

/-- The stubs that a phrase may consist of. -/
def Phrase.stubs : Phrase → List Stub
  | .expression _ | .unary _ | .atom _ | .rangeEnd _ =>
    operatorStub ".." :: [[.odd]] :: wordStub "break" ::
      (wordStub "break" ++ testStub .lifetime) :: words
  | .operators .lowest _ | .operators .assign _ => [operatorStub ".."]
  | .pathExpression _ | .path _ | .pathWord _ | .qualifiedRest _ | .typePath | .boundPath _ => words
  | .pattern | .patternCase | .closureInputs => operatorStub ".." :: [[.odd]] :: words
  | .patternEnd | .constant => [[.odd]] :: words
  | .type _ => operatorStub "!" :: testStub .lifetime :: words
  | .angleItem | .angleItems =>
    operatorStub "!" :: [[.odd]] :: testStub .lifetime ::
      (testStub .anyName ++ operatorStub ":") :: (wordStub "self" ++ operatorStub ":") ::
      (wordStub "try" ++ operatorStub ":") :: words
  | .bound _ | .boundsWithTrait _ _ | .parameterBounds | .captures => testStub .lifetime :: words
  | .binderItems => [testStub .lifetime]
  | .bounds _ | .looseBounds => [operatorStub "+"]
  | _ => []
where
  words : List Stub :=
    [testStub .anyName, wordStub "self", wordStub "try", wordStub "raw", wordStub "builtin"]

def Phrase.mayEat (p : Phrase) (w : Stub) : Bool :=
  p.bracketed || (w.isEmpty && p.idle) || p.stubs.contains w

theorem grammar_mayEat (p : Phrase) :
    (p.bracketed || Stub.all.all fun w => !(grammar p).mayEat Phrase.mayEat w || p.mayEat w) = true :=
  Phrase.of_all (f := fun p => p.bracketed ||
    Stub.all.all fun w => !(grammar p).mayEat Phrase.mayEat w || p.mayEat w) (by decide +kernel) p

theorem readPhrase_eats (depth : Nat) :
    EatsAsTold Phrase.mayEat (readPhrase whole grammar depth) := by
  induction depth with
  | zero => intro p shape ts r used w hw h; simp [readPhrase] at h
  | succ depth ih =>
    intro p shape ts r used w hw h hu hf
    by_cases hb : p.bracketed = true
    · simp [Phrase.mayEat, hb]
    · have hg := grammar_mayEat p
      have hm := (grammar p).mayEat_of_run (readPhrase_suffix depth) ih hw h hu hf
      simp only [hb, Bool.false_or] at hg
      simpa [hm] using List.all_eq_true.mp hg w hw

end FieldKeys
