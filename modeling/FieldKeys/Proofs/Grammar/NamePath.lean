import FieldKeys.Proofs.Grammar.Ending
import FieldKeys.Proofs.Grammar.Extent
import FieldKeys.StyleOption

/-! The paths that name arguments: words with double colons between them. -/

namespace FieldKeys

def pathMark : Text := "::".toList

/-- The words of a path in front, as far as it goes, and what follows it. -/
inductive WordsInFront : List Token → List Token → List Token → Prop
  | last {w : Token} {name : Text} {rest : List Token} (hw : w.lexeme = .word name)
      (hr : signAhead pathMark rest = false) : WordsInFront (w :: rest) [w] rest
  | more {w a b : Token} {name : Text} {ts words rest : List Token} (hw : w.lexeme = .word name)
      (hm : signAhead pathMark [a, b] = true) (h : WordsInFront ts words rest) :
      WordsInFront (w :: a :: b :: ts) (w :: words) rest

/-- A path in front. A rooted one has a double colon before its first word. -/
inductive PathInFront : (rooted : Bool) → List Token → List Token → List Token → Prop
  | plain {ts words rest : List Token} (h : WordsInFront ts words rest) :
      PathInFront false ts words rest
  | rooted {a b : Token} {ts words rest : List Token} (hm : signAhead pathMark [a, b] = true)
      (h : WordsInFront ts words rest) : PathInFront true (a :: b :: ts) words rest

def wordsSpan (words : List Token) : Span :=
  (Token.spanOf? words).getD ⟨.origin, .origin⟩

theorem pathMark_ahead {ts : List Token} (h : signAhead pathMark ts = true) :
    ∃ a b rest, ts = a :: b :: rest ∧ signAhead pathMark [a, b] = true := by
  have hl : pathMark.length ≤ ts.length := (signAhead_depth h 0).1
  rcases ts with _ | ⟨a, _ | ⟨b, rest⟩⟩
  · simp [pathMark] at hl
  · simp [pathMark] at hl
  · exact ⟨a, b, rest, rfl, h⟩

theorem joined_pathMark (a b : Token) :
    joined pathMark [a, b] = [⟨.sign ':' true, a.span⟩, ⟨.sign ':' false, b.span⟩] := rfl

theorem pathSpan_mark (a b : Token) (ts : List Token) :
    pathSpan (joined pathMark [a, b] ++ ts) = pathSpan ts := rfl

theorem anyWord_run {readers : Phrase → Reader} {w : Token} {name : Text}
    (hw : w.lexeme = .word name) (shape : Shape) (ts : List Token) :
    (Rule.take .anyWord : PhraseRule).run true readers shape (w :: ts) = some ⟨shape, [w], ts⟩ := by
  simp [Rule.run, Test.read, Test.holds, Test.fits, Test.written, hw]

theorem whenMark_run_of_not {readers : Phrase → Reader} {rule : PhraseRule} {ts : List Token}
    (h : signAhead pathMark ts = false) (shape : Shape) :
    (whenAhead (signAt 0 "::") rule).run true readers shape ts = some ⟨shape, [], ts⟩ :=
  if_neg (Bool.eq_false_iff.mp h)

theorem whenMark_run {readers : Phrase → Reader} {rule : PhraseRule} {a b : Token}
    (h : signAhead pathMark [a, b] = true) (shape : Shape) (ts : List Token) :
    (whenAhead (signAt 0 "::") rule).run true readers shape (a :: b :: ts) =
      rule.run true readers shape (a :: b :: ts) :=
  if_pos h

theorem mark_run {readers : Phrase → Reader} {a b : Token}
    (h : signAhead pathMark [a, b] = true) (shape : Shape) (ts : List Token) :
    (sign "::").run true readers shape (a :: b :: ts) = some ⟨shape, joined pathMark [a, b], ts⟩ :=
  if_pos h

theorem words_last {w : Token} {name : Text} {ts : List Token} (hw : w.lexeme = .word name)
    (hr : signAhead pathMark ts = false) (shape : Shape) :
    Phrase.nestedPathWords.readAfter shape (w :: ts) = some ⟨shape, [w], ts⟩ := by
  rw [Phrase.readAfter_eq_run, grammar, nestedPathWordsRule,
    Rule.run_seq_of_left (anyWord_run hw shape ts), whenMark_run_of_not hr]
  rfl

theorem words_more {w a b : Token} {name : Text} (hw : w.lexeme = .word name)
    (hm : signAhead pathMark [a, b] = true) (shape : Shape) (ts : List Token) :
    Phrase.nestedPathWords.readAfter shape (w :: a :: b :: ts) =
      (Phrase.nestedPathWords.readAfter shape ts).map fun r =>
        ⟨r.shape, w :: (joined pathMark [a, b] ++ r.written), r.rest⟩ := by
  rw [Phrase.readAfter_eq_run, grammar, nestedPathWordsRule,
    Rule.run_seq_of_left (anyWord_run hw shape _), whenMark_run hm,
    Rule.run_seq_of_left (mark_run hm shape ts), Option.map_map]
  rfl

theorem path_plain {ts : List Token} (h : signAhead pathMark ts = false) :
    Phrase.nestedPath.read ts = Phrase.nestedPathWords.readAfter .other ts := by
  have hs : (optionalSign "::").run true Phrase.readAfter .other ts = some ⟨.other, [], ts⟩ :=
    whenMark_run_of_not h _
  rw [Phrase.read, Phrase.readAfter_eq_run, grammar, nestedPathRule, Rule.run_seq_of_left hs]
  exact Option.map_id'

theorem path_rooted {a b : Token} (hm : signAhead pathMark [a, b] = true) (ts : List Token) :
    Phrase.nestedPath.read (a :: b :: ts) =
      (Phrase.nestedPathWords.readAfter .other ts).map fun r =>
        ⟨r.shape, joined pathMark [a, b] ++ r.written, r.rest⟩ := by
  have hs : (optionalSign "::").run true Phrase.readAfter .other (a :: b :: ts) =
      some ⟨.other, joined pathMark [a, b], ts⟩ :=
    (whenMark_run hm _ _).trans (mark_run hm _ _)
  rw [Phrase.read, Phrase.readAfter_eq_run, grammar, nestedPathRule, Rule.run_seq_of_left hs]
  rfl

/-- Words and how they are written: with two signs between any two of them. -/
structure WrittenWords (words written : List Token) : Prop where
  head : written.head? = words.head?
  last : written.getLast? = words.getLast?
  length : written.length + 2 = 3 * words.length

theorem WordsInFront.read {ts words rest : List Token} (h : WordsInFront ts words rest)
    (shape : Shape) : ∃ r, Phrase.nestedPathWords.readAfter shape ts = some r ∧ r.rest = rest ∧
      WrittenWords words r.written := by
  induction h with
  | last hw hr => exact ⟨_, words_last hw hr shape, rfl, rfl, rfl, rfl⟩
  | @more w a b name ts words rest hw hm h ih =>
    obtain ⟨r, hread, hrest, hwr⟩ := ih
    rw [words_more hw hm shape ts, hread]
    refine ⟨_, rfl, hrest, rfl, ?_, ?_⟩
    · have hne : words ≠ [] := by
        rintro rfl
        simpa using hwr.length
      have hz := List.getLast?_eq_getLast_of_ne_nil hne
      have hlast := hwr.last.trans hz
      simp [List.getLast?_cons, List.getLast?_append, hlast, hz]
    · have hl : (joined pathMark [a, b]).length = 2 := rfl
      have hh := hwr.length
      simp only [List.length_cons, List.length_append, hl]
      omega

theorem exists_words_of_read {shape : Shape} {ts : List Token} {r : Reading}
    (h : Phrase.nestedPathWords.readAfter shape ts = some r) :
    ∃ words rest, WordsInFront ts words rest := by
  induction hn : ts.length using Nat.strong_induction_on generalizing ts r with
  | _ n ih =>
    have hrun := h
    rw [Phrase.readAfter_eq_run] at hrun
    obtain ⟨first, second, hf, -, -⟩ := Rule.run_seq hrun
    cases ts with
    | nil => simp [Rule.run, Test.read, Test.holds] at hf
    | cons w ts =>
      obtain ⟨name, hw⟩ : ∃ name, w.lexeme = .word name := by
        cases hw : w.lexeme with
        | word name => exact ⟨name, rfl⟩
        | _ => simp [Rule.run, Test.read, Test.holds, Test.fits, hw] at hf
      cases hm : signAhead pathMark ts with
      | false => exact ⟨_, _, .last hw hm⟩
      | true =>
        obtain ⟨a, b, ts, rfl, hm⟩ := pathMark_ahead hm
        rw [words_more hw hm] at h
        obtain ⟨r', hr', -⟩ := Option.map_eq_some_iff.mp h
        obtain ⟨words, rest, hh⟩ := ih ts.length (by simp only [← hn, List.length_cons]; omega) hr' rfl
        exact ⟨_, _, .more hw hm hh⟩

theorem WordsInFront.exists_head {ts words rest : List Token} (h : WordsInFront ts words rest) :
    ∃ w name others left, w.lexeme = .word name ∧ words = w :: others ∧ ts = w :: left := by
  cases h with
  | last hw hr => exact ⟨_, _, _, _, hw, rfl, rfl⟩
  | more hw hm h => exact ⟨_, _, _, _, hw, rfl, rfl⟩

theorem WordsInFront.pathSpan_eq {ts words rest written : List Token}
    (h : WordsInFront ts words rest) (hw : WrittenWords words written) :
    pathSpan written = wordsSpan words := by
  obtain ⟨w, name, others, left, hl, rfl, -⟩ := h.exists_head
  obtain ⟨more, rfl⟩ : ∃ more, written = w :: more := List.head?_eq_some_iff.mp hw.head
  have hs : isSign ':' w = false := by simp [isSign, hl]
  have hspan : Token.spanOf? (w :: more) = Token.spanOf? (w :: others) :=
    spanOf?_congr rfl (congrArg (Option.map fun t : Token => t.span.stop) hw.last)
  rw [pathSpan, wordsSpan, List.dropWhile_cons_of_neg (by simp [hs]), hspan]

theorem WrittenWords.eq_singleton_iff {words written : List Token}
    (h : WrittenWords words written) (t : Token) : written = [t] ↔ words = [t] := by
  have hl := h.length
  constructor
  · rintro rfl
    have hw : words.length = 1 := by simp only [List.length_singleton] at hl; omega
    obtain ⟨u, rfl⟩ := List.length_eq_one_iff.mp hw
    simpa using h.head.symm
  · rintro rfl
    have hw : written.length = 1 := by simp only [List.length_singleton] at hl; omega
    obtain ⟨u, rfl⟩ := List.length_eq_one_iff.mp hw
    simpa using h.head

theorem PathInFront.read {rooted : Bool} {ts words rest : List Token}
    (h : PathInFront rooted ts words rest) : ∃ r, Phrase.nestedPath.read ts = some r ∧
      r.rest = rest ∧ pathSpan r.written = wordsSpan words ∧
      ∀ t, r.written = [t] ↔ rooted = false ∧ words = [t] := by
  cases h with
  | plain h =>
    obtain ⟨r, hr, hrest, hw⟩ := h.read .other
    obtain ⟨w, name, others, left, hl, -, rfl⟩ := h.exists_head
    have hm : signAhead pathMark (w :: left) = false := by simp [pathMark, signAhead, hl]
    exact ⟨r, (path_plain hm).trans hr, hrest, h.pathSpan_eq hw,
      fun t => by simp [hw.eq_singleton_iff t]⟩
  | rooted hm h =>
    obtain ⟨r, hr, hrest, hw⟩ := h.read .other
    rw [path_rooted hm, hr]
    refine ⟨_, rfl, hrest, (pathSpan_mark _ _ _).trans (h.pathSpan_eq hw), fun t => ?_⟩
    simp [joined_pathMark]

/-- A path is in front if and only if one is read. -/
theorem exists_path_iff {ts : List Token} :
    (∃ rooted words rest, PathInFront rooted ts words rest) ↔
      ∃ r, Phrase.nestedPath.read ts = some r := by
  constructor
  · rintro ⟨rooted, words, rest, h⟩
    obtain ⟨r, hr, -⟩ := h.read
    exact ⟨r, hr⟩
  · rintro ⟨r, hr⟩
    cases hm : signAhead pathMark ts with
    | false =>
      rw [path_plain hm] at hr
      obtain ⟨words, rest, h⟩ := exists_words_of_read hr
      exact ⟨false, words, rest, .plain h⟩
    | true =>
      obtain ⟨a, b, ts, rfl, hm⟩ := pathMark_ahead hm
      rw [path_rooted hm] at hr
      obtain ⟨r', hr', -⟩ := Option.map_eq_some_iff.mp hr
      obtain ⟨words, rest, h⟩ := exists_words_of_read hr'
      exact ⟨true, words, rest, .rooted hm h⟩

theorem PathInFront.eq_cons {w : Token} {ts rest : List Token}
    (h : PathInFront false ts [w] rest) : ts = w :: rest := by
  cases h with
  | plain h =>
    cases h with
    | last hw hr => rfl
    | more hw hm h => cases h

/-- A path that is written as one word was read from that word alone. -/
theorem nestedPath_word {ts : List Token} {r : Reading} {t : Token}
    (h : Phrase.nestedPath.read ts = some r) (hw : r.written = [t]) : ts = t :: r.rest := by
  obtain ⟨rooted, words, rest, hp⟩ := exists_path_iff.mpr ⟨r, h⟩
  obtain ⟨r', hr', rfl, -, hone⟩ := hp.read
  obtain rfl : r = r' := Option.some.inj (h.symm.trans hr')
  obtain ⟨rfl, rfl⟩ := (hone t).mp hw
  exact hp.eq_cons

end FieldKeys
