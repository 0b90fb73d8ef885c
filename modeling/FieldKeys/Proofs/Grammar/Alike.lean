import FieldKeys.Proofs.Grammar.Brackets

/-! Where tokens stand does not matter to what is read from them. -/

namespace FieldKeys

variable {whole : Bool}

/-- Tokens that differ in their places only, and for a sign at the end in whether it is joint, which
depends on what comes after. -/
inductive Alike : List Token → List Token → Prop
  | nil : Alike [] []
  | sign (c : Char) (joint joint' : Bool) (s s' : Span) :
      Alike [⟨.sign c joint, s⟩] [⟨.sign c joint', s'⟩]
  | cons (l : Lexeme) (s s' : Span) {ts ts' : List Token} (h : Alike ts ts') :
      Alike (⟨l, s⟩ :: ts) (⟨l, s'⟩ :: ts')

theorem Alike.refl (ts : List Token) : Alike ts ts := by
  induction ts with
  | nil => exact .nil
  | cons t ts ih => exact .cons t.lexeme t.span t.span ih

theorem Alike.length {ts ts' : List Token} (h : Alike ts ts') : ts.length = ts'.length := by
  induction h with
  | nil | sign => rfl
  | cons l s s' h ih => simp [ih]

theorem Alike.drop {ts ts' : List Token} (h : Alike ts ts') (n : Nat) :
    Alike (ts.drop n) (ts'.drop n) := by
  induction h generalizing n with
  | nil => simpa using Alike.nil
  | sign c joint joint' s s' =>
    cases n with
    | zero => exact .sign c joint joint' s s'
    | succ n => simpa using Alike.nil
  | cons l s s' h ih =>
    cases n with
    | zero => exact .cons l s s' h
    | succ n => exact ih n

theorem Alike.signAhead_eq {ts ts' : List Token} (h : Alike ts ts') (text : Text) :
    signAhead text ts = signAhead text ts' := by
  induction h generalizing text with
  | nil => rfl
  | sign c joint joint' s s' =>
    rcases text with _ | ⟨d, _ | ⟨e, text⟩⟩
    · rfl
    · rfl
    · simp [signAhead]
  | cons l s s' h ih =>
    rcases text with _ | ⟨d, _ | ⟨e, text⟩⟩
    · rfl
    · rfl
    · simp only [signAhead, ih]

theorem Test.holds_alike {ts ts' : List Token} (h : Alike ts ts') (test : Test) :
    test.holds ts = test.holds ts' := by
  cases test with
  | sign text => exact h.signAhead_eq text
  | _ => cases h <;> rfl

theorem Look.holds_alike {ts ts' : List Token} (h : Alike ts ts') (look : Look) :
    look.holds ts = look.holds ts' := by
  induction look with
  | ahead skip test => exact Test.holds_alike (h.drop skip) test
  | no look ih => simp only [holds, ih]
  | both a b iha ihb | either a b iha ihb => simp only [holds, iha, ihb]

theorem Test.written_alike (test : Test) (l : Lexeme) (s s' : Span) :
    (test.written ⟨l, s⟩).map (·.lexeme) = (test.written ⟨l, s'⟩).map (·.lexeme) := by
  cases l with
  | literal text =>
    cases test with
    | decimalIndex =>
      simp only [written, List.map_append]
      split <;> rfl
    | _ => rfl
  | _ => cases test <;> rfl

/-- Readings of alike tokens: the same was read, and alike tokens are left. -/
structure ReadAlike (r r' : Reading) : Prop where
  shape : r.shape = r'.shape
  written : r.written.map (·.lexeme) = r'.written.map (·.lexeme)
  rest : Alike r.rest r'.rest

theorem option_rel_iff {α β : Type} {rel : α → β → Prop} {x : Option α} {y : Option β} :
    Option.Rel rel x y ↔ (x = none ∧ y = none) ∨ ∃ a b, x = some a ∧ y = some b ∧ rel a b := by
  constructor
  · rintro (h | _)
    · exact .inr ⟨_, _, rfl, rfl, h⟩
    · exact .inl ⟨rfl, rfl⟩
  · rintro (⟨rfl, rfl⟩ | ⟨a, b, rfl, rfl, h⟩)
    · exact .none
    · exact .some h

theorem option_rel_map {α β γ δ : Type} {rel : α → β → Prop} {rel' : γ → δ → Prop} {x : Option α}
    {y : Option β} {f : α → γ} {g : β → δ} (h : Option.Rel rel x y)
    (hf : ∀ a b, rel a b → rel' (f a) (g b)) : Option.Rel rel' (x.map f) (y.map g) := by
  cases h with
  | none => exact .none
  | some h => exact .some (hf _ _ h)

theorem Test.read_alike {ts ts' : List Token} (h : Alike ts ts') (test : Test) (shape : Shape) :
    Option.Rel ReadAlike (test.read shape ts) (test.read shape ts') := by
  have hh := Test.holds_alike h test
  unfold Test.read
  rw [← hh]
  split
  case isFalse => exact .none
  case isTrue ht =>
    have hw := test.written_alike
    cases test with
    | sign text =>
      have ht' : signAhead text ts' = true := hh.symm.trans ht
      exact .some ⟨rfl, (lexemes_joined ht).trans (lexemes_joined ht').symm, h.drop _⟩
    | _ =>
      cases h with
      | nil => exact .none
      | sign c joint joint' s s' => simp [holds, fits] at ht
      | cons l s s' h => exact .some ⟨rfl, hw l s s', h⟩

theorem cutGroup_alike {ts ts' : List Token} (h : Alike ts ts') (depth : Nat) :
    Option.Rel (fun x y => x.1.map (·.lexeme) = y.1.map (·.lexeme) ∧ Alike x.2 y.2)
      (cutGroup depth ts) (cutGroup depth ts') := by
  induction h generalizing depth with
  | nil => exact .none
  | sign c joint joint' s s' => exact .none
  | cons l s s' h ih =>
    have hcons : ∀ n, Option.Rel (fun x y => x.1.map (·.lexeme) = y.1.map (·.lexeme) ∧ Alike x.2 y.2)
        ((cutGroup n _).map fun x => ((⟨l, s⟩ : Token) :: x.1, x.2))
        ((cutGroup n _).map fun y => ((⟨l, s'⟩ : Token) :: y.1, y.2)) := fun n =>
      option_rel_map (ih n) fun x y hxy => ⟨by simp [hxy.1], hxy.2⟩
    cases l with
    | closing d =>
      simp only [cutGroup]
      split
      · exact .some ⟨rfl, h⟩
      · exact hcons _
    | _ => exact hcons _

theorem readClose_alike {ts ts' : List Token} (h : Alike ts ts') (d : Delimiter) (shape : Shape) :
    Option.Rel ReadAlike (readClose whole d shape ts) (readClose whole d shape ts') := by
  rcases option_rel_iff.mp (cutGroup_alike h 1) with
    ⟨ha, hb⟩ | ⟨⟨inside, rest⟩, ⟨inside', rest'⟩, ha, hb, hin, hrest⟩
  · simp [readClose, ha, hb]
  · cases inside using List.reverseRecOn with
    | nil =>
      obtain rfl := List.map_eq_nil_iff.mp hin.symm
      simp [readClose, ha, hb]
    | append_singleton extra t =>
      rw [List.map_append] at hin
      obtain ⟨extra', last, rfl, hextra, hlast⟩ := List.map_eq_append_iff.mp hin.symm
      obtain ⟨t', rfl, ht⟩ := List.map_eq_singleton_iff.mp hlast
      have hall : extra ++ [t] = [t] ↔ extra' ++ [t'] = [t'] := by
        have hnil : extra = [] ↔ extra' = [] := by
          rw [← List.map_eq_nil_iff, ← hextra, List.map_eq_nil_iff]
        simpa only [List.append_left_eq_self] using hnil
      simp only [readClose, ha, hb, Option.bind_some, List.getLast?_concat, ← ht, hall]
      split
      · exact .some ⟨rfl, by simp [ht], hrest⟩
      · exact .none

theorem readRaw_alike {ts ts' : List Token} (h : Alike ts ts') (shape : Shape) :
    Option.Rel ReadAlike (readRaw shape ts) (readRaw shape ts') := by
  cases h with
  | nil => exact .none
  | sign c joint joint' s s' => exact .none
  | cons l s s' h =>
    cases l with
    | opening d =>
      exact option_rel_map (cutGroup_alike h 1) fun x y hxy => ⟨rfl, by simp [hxy.1], hxy.2⟩
    | _ => exact .none

theorem endsInBrace_alike {ts ts' : List Token}
    (h : ts.map (·.lexeme) = ts'.map (·.lexeme)) : endsInBrace ts = endsInBrace ts' := by
  have hlast := congrArg (fun ls => ls.getLast?.any fun l => l == .closing .brace) h
  simpa [endsInBrace, List.getLast?_map, Option.any_map, Function.comp_def] using hlast

theorem Writing.write_alike {ts ts' : List Token} (writing : Writing)
    (h : ts.map (·.lexeme) = ts'.map (·.lexeme)) :
    (writing.write ts).map (·.lexeme) = (writing.write ts').map (·.lexeme) := by
  cases ts with
  | nil =>
    obtain rfl := List.map_eq_nil_iff.mp h.symm
    rfl
  | cons t ts =>
    cases ts' with
    | nil => simp at h
    | cons t' ts' =>
      have htext := congrArg (List.flatMap Lexeme.text) h
      simp only [List.flatMap_map] at htext
      cases writing with
      | nothing => rfl
      | literal => simpa [write] using htext
      | unnamed => simpa [write] using h

theorem Rule.run_alike {P : Type} {readers : P → Reader}
    (hr : ∀ p shape ts ts', Alike ts ts' →
      Option.Rel ReadAlike (readers p shape ts) (readers p shape ts'))
    (rule : Rule P) {shape : Shape} {ts ts' : List Token} (h : Alike ts ts') :
    Option.Rel ReadAlike (rule.run whole readers shape ts) (rule.run whole readers shape ts') := by
  induction rule generalizing shape ts ts' with
  | done | mark new => exact .some ⟨rfl, rfl, h⟩
  | fail => exact .none
  | take test => exact Test.read_alike h test shape
  | close d => exact readClose_alike h d shape
  | raw => exact readRaw_alike h shape
  | call p => exact hr p shape ts ts' h
  | seq a b iha ihb =>
    rcases option_rel_iff.mp (@iha shape ts ts' h) with ⟨ha, ha'⟩ | ⟨first, first', ha, ha', hf⟩
    · simp [run, ha, ha']
    · rcases option_rel_iff.mp (@ihb first.shape _ _ hf.rest) with
        ⟨hb, hb'⟩ | ⟨second, second', hb, hb', hs⟩
      · simp [run, ha, ha', hb, ← hf.shape, hb']
      · simp only [run, ha, ha', hb, ← hf.shape, hb']
        exact .some ⟨hs.shape, by simp [hf.written, hs.written], hs.rest⟩
  | choose look yes no ihy ihn =>
    simp only [run, Look.holds_alike h look]
    split
    · exact ihy h
    · exact ihn h
  | probe ahead yes no iha ihy ihn =>
    have hsome : (ahead.run whole readers shape ts).isSome =
        (ahead.run whole readers shape ts').isSome := by
      rcases option_rel_iff.mp (@iha shape ts ts' h) with ⟨ha, ha'⟩ | ⟨x, y, ha, ha', -⟩
      · rw [ha, ha']
      · simp [ha, ha']
    simp only [run, hsome]
    split
    · exact ihy h
    · exact ihn h
  | onShape shapes yes no ihy ihn =>
    simp only [run]
    split
    · exact ihy h
    · exact ihn h
  | braced rule ih =>
    refine option_rel_map (ih h) fun r r' hh => ⟨?_, hh.written, hh.rest⟩
    simp only [endsInBrace_alike hh.written]
  | rewrite writing rule ih =>
    exact option_rel_map (ih h) fun r r' hh =>
      ⟨hh.shape, writing.write_alike hh.written, hh.rest⟩

theorem readPhrase_alike (depth : Nat) : ∀ p shape ts ts', Alike ts ts' →
    Option.Rel ReadAlike (readPhrase whole grammar depth p shape ts)
      (readPhrase whole grammar depth p shape ts') := by
  induction depth with
  | zero => exact fun _ _ _ _ _ => .none
  | succ depth ih => exact fun p shape ts ts' h => (grammar p).run_alike ih h

theorem Phrase.inFront_alike {ts ts' : List Token} (p : Phrase) (h : Alike ts ts')
    (shape : Shape) :
    Option.Rel ReadAlike (p.inFront whole shape ts) (p.inFront whole shape ts') := by
  unfold inFront
  rw [h.length]
  exact readPhrase_alike _ p _ _ _ h

theorem Phrase.read_alike {ts ts' : List Token} (h : Alike ts ts') (p : Phrase) :
    Option.Rel ReadAlike (p.read ts) (p.read ts') :=
  p.inFront_alike h .other

end FieldKeys
