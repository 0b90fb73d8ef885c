import FieldKeys.Proofs.Grammar.Alike
import FieldKeys.Proofs.Grammar.Depth

/-! What a phrase makes of the shape of what stands before it. An expression makes nothing of it: it
has its own shape before anything is asked about shapes. -/

namespace FieldKeys

variable {whole : Bool}

/-- Phrases that have the same shape in the end, whatever stands before them. -/
def Phrase.settles : Phrase → Bool
  | .path _ | .qualified _ | .typePath | .typeParen _ | .type _ | .boundPath _ | .expression _
  | .unary _ | .atom _ | .pathExpression _ | .closure _ | .conditional | .statementExpression => true
  | _ => false

/-- Phrases that are read in one way or another by the shape of what stands before them. -/
def Phrase.looksBack : Phrase → Bool
  | .pathWord _ | .pathRest _ | .qualifiedRest _ | .callInputs | .trailers | .operators _ _
  | .fieldType => true
  | _ => false

def Rule.settles {P : Type} (settles : P → Bool) : Rule P → Bool
  | .mark _ | .fail | .braced _ => true
  | .call p => settles p
  | .seq a b => a.settles settles || b.settles settles
  | .choose _ a b | .probe _ a b | .onShape _ a b => a.settles settles && b.settles settles
  | .rewrite _ r => r.settles settles
  | _ => false

def Rule.looksBack {P : Type} (settles looksBack : P → Bool) : Rule P → Bool
  | .onShape _ _ _ => true
  | .call p => looksBack p
  | .seq a b =>
    a.looksBack settles looksBack || (!a.settles settles && b.looksBack settles looksBack)
  | .choose _ a b => a.looksBack settles looksBack || b.looksBack settles looksBack
  | .probe c a b =>
    c.looksBack settles looksBack ||
      (a.looksBack settles looksBack || b.looksBack settles looksBack)
  | .braced r | .rewrite _ r => r.looksBack settles looksBack
  | _ => false

theorem grammar_looksBack (p : Phrase) :
    (p.looksBack || !(grammar p).looksBack Phrase.settles Phrase.looksBack) = true :=
  Phrase.of_all (f := fun p => p.looksBack ||
    !(grammar p).looksBack Phrase.settles Phrase.looksBack) (by decide +kernel) p

theorem grammar_settles (p : Phrase) : (!p.settles || (grammar p).settles Phrase.settles) = true :=
  Phrase.of_all (f := fun p => !p.settles || (grammar p).settles Phrase.settles)
    (by decide +kernel) p

/-- Readings of the same tokens, and of the same shape if it is settled. -/
structure ReadSame (settled : Bool) (r r' : Reading) : Prop where
  shape : settled = true → r.shape = r'.shape
  written : r.written = r'.written
  rest : r.rest = r'.rest

theorem ReadSame.weaken {a b : Bool} {x y : Option Reading} (h : Option.Rel (ReadSame a) x y)
    (hab : b = true → a = true) : Option.Rel (ReadSame b) x y := by
  cases h with
  | none => exact .none
  | some h => exact .some ⟨fun hb => h.shape (hab hb), h.written, h.rest⟩

theorem Test.read_fromAny (test : Test) (shape shape' : Shape) (ts : List Token) :
    Option.Rel (ReadSame false) (test.read shape ts) (test.read shape' ts) := by
  unfold Test.read
  split
  · cases test <;> cases ts <;>
      first
      | exact .none
      | exact .some ⟨by simp, rfl, rfl⟩
  · exact .none

theorem readClose_fromAny (d : Delimiter) (shape shape' : Shape) (ts : List Token) :
    Option.Rel (ReadSame false) (readClose whole d shape ts) (readClose whole d shape' ts) := by
  unfold readClose
  cases cutGroup 1 ts with
  | none => exact .none
  | some x =>
    simp only [Option.bind_some]
    split
    · split
      · exact .some ⟨by simp, rfl, rfl⟩
      · exact .none
    · exact .none

theorem readRaw_fromAny (shape shape' : Shape) (ts : List Token) :
    Option.Rel (ReadSame false) (readRaw shape ts) (readRaw shape' ts) := by
  unfold readRaw
  split
  · next t inside =>
    split
    · cases cutGroup 1 inside with
      | none => exact .none
      | some x => exact .some ⟨by simp, rfl, rfl⟩
    · exact .none
  · exact .none

/-- If the first of two rules settles the shape, the second one is run after just that shape. Else it
must not look back itself. -/
theorem ReadSame.seq {readers : Phrase → Reader} {a b : PhraseRule} {settled settled' : Bool}
    {shape shape' : Shape} {ts : List Token}
    (ha : Option.Rel (ReadSame settled) (a.run whole readers shape ts) (a.run whole readers shape' ts))
    (hb : settled = false → ∀ shape shape' ts,
      Option.Rel (ReadSame settled') (b.run whole readers shape ts) (b.run whole readers shape' ts)) :
    Option.Rel (ReadSame (settled || settled')) ((Rule.seq a b).run whole readers shape ts)
      ((Rule.seq a b).run whole readers shape' ts) := by
  rcases option_rel_iff.mp ha with ⟨hf, hf'⟩ | ⟨first, first', hf, hf', hfirst⟩
  · simp [Rule.run, hf, hf']
  simp only [Rule.run, hf, hf', ← hfirst.rest]
  cases settled with
  | true =>
    rw [← hfirst.shape rfl]
    cases b.run whole readers first.shape first.rest with
    | none => exact .none
    | some second => exact .some ⟨fun _ => rfl, by simp [hfirst.written], rfl⟩
  | false =>
    rcases option_rel_iff.mp (hb rfl first.shape first'.shape first.rest) with
      ⟨hg, hg'⟩ | ⟨second, second', hg, hg', hsecond⟩
    · simp [hg, hg']
    · simp only [hg, hg']
      exact .some ⟨hsecond.shape, by simp [hfirst.written, hsecond.written], hsecond.rest⟩

theorem Rule.run_fromAny {readers : Phrase → Reader}
    (hr : ∀ p shape shape' ts, p.looksBack = false →
      Option.Rel (ReadSame p.settles) (readers p shape ts) (readers p shape' ts))
    (rule : PhraseRule) (h : rule.looksBack Phrase.settles Phrase.looksBack = false)
    (shape shape' : Shape) (ts : List Token) :
    Option.Rel (ReadSame (rule.settles Phrase.settles)) (rule.run whole readers shape ts)
      (rule.run whole readers shape' ts) := by
  induction rule generalizing shape shape' ts with
  | done => exact .some ⟨by simp [settles], rfl, rfl⟩
  | fail => exact .none
  | mark new => exact .some ⟨fun _ => rfl, rfl, rfl⟩
  | take test => exact Test.read_fromAny test shape shape' ts
  | close d => exact readClose_fromAny d shape shape' ts
  | raw => exact readRaw_fromAny shape shape' ts
  | call p => exact hr p shape shape' ts h
  | seq a b iha ihb =>
    obtain ⟨ha, hb⟩ := Bool.or_eq_false_iff.mp h
    exact ReadSame.seq (iha ha shape shape' ts) fun hs => ihb (by simpa [hs] using hb)
  | choose look yes no ihy ihn =>
    obtain ⟨hy, hn⟩ := Bool.or_eq_false_iff.mp h
    simp only [run]
    split
    · exact ReadSame.weaken (ihy hy shape shape' ts) fun hb => (Bool.and_eq_true_iff.mp hb).1
    · exact ReadSame.weaken (ihn hn shape shape' ts) fun hb => (Bool.and_eq_true_iff.mp hb).2
  | probe ahead yes no iha ihy ihn =>
    obtain ⟨ha, hyn⟩ := Bool.or_eq_false_iff.mp h
    obtain ⟨hy, hn⟩ := Bool.or_eq_false_iff.mp hyn
    have hsome : (ahead.run whole readers shape ts).isSome =
        (ahead.run whole readers shape' ts).isSome := by
      rcases option_rel_iff.mp (iha ha shape shape' ts) with ⟨hx, hy⟩ | ⟨x, y, hx, hy, -⟩ <;>
        simp [hx, hy]
    simp only [run, hsome]
    split
    · exact ReadSame.weaken (ihy hy shape shape' ts) fun hb => (Bool.and_eq_true_iff.mp hb).1
    · exact ReadSame.weaken (ihn hn shape shape' ts) fun hb => (Bool.and_eq_true_iff.mp hb).2
  | onShape shapes yes no => simp [looksBack] at h
  | braced rule ih =>
    exact option_rel_map (ih h shape shape' ts) fun r r' hh =>
      ⟨fun _ => by simp only [hh.written], hh.written, hh.rest⟩
  | rewrite writing rule ih =>
    exact option_rel_map (ih h shape shape' ts) fun r r' hh =>
      ⟨hh.shape, by simp only [hh.written], hh.rest⟩

theorem readPhrase_fromAny (depth : Nat) : ∀ p shape shape' ts, p.looksBack = false →
    Option.Rel (ReadSame p.settles) (readPhrase whole grammar depth p shape ts)
      (readPhrase whole grammar depth p shape' ts) := by
  induction depth with
  | zero => exact fun _ _ _ _ _ => .none
  | succ depth ih =>
    intro p shape shape' ts hp
    have hl : (grammar p).looksBack Phrase.settles Phrase.looksBack = false := by
      simpa [hp] using grammar_looksBack p
    refine ReadSame.weaken ((grammar p).run_fromAny ih hl shape shape' ts) fun hs => ?_
    simpa [hs] using grammar_settles p

/-- A phrase that does not look back and settles its shape is read after anything as by itself. -/
theorem Phrase.readAfter_eq_read {p : Phrase} (hl : p.looksBack = false) (hs : p.settles = true)
    (shape : Shape) (ts : List Token) : p.readAfter shape ts = p.read ts := by
  have h := @readPhrase_fromAny true (depthFor ts.length) p shape .other ts hl
  rw [hs] at h
  unfold read readAfter inFront
  rcases option_rel_iff.mp h with ⟨hx, hy⟩ | ⟨r, r', hx, hy, hr⟩
  · rw [hx, hy]
  · obtain ⟨shape', written, rest⟩ := r
    obtain ⟨shape'', written', rest'⟩ := r'
    obtain ⟨hshape, rfl, rfl⟩ := hr
    obtain rfl := hshape rfl
    rw [hx, hy]

end FieldKeys
