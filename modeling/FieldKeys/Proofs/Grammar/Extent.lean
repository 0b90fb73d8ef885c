import FieldKeys.Proofs.Grammar.Depth
import FieldKeys.Source.Expression

/-! What a phrase writes begins and ends where the tokens do that it has been read from, though
some tokens are written in another way and a double colon in front of inputs is not written. -/

namespace FieldKeys

variable {whole : Bool}

def SameFirst (a b : List Token) : Prop :=
  a.head?.map (·.span.start) = b.head?.map (·.span.start)

def SameLast (a b : List Token) : Prop :=
  a.getLast?.map (·.span.stop) = b.getLast?.map (·.span.stop)

theorem SameFirst.append {a a' b b' : List Token} (ha : SameFirst a a')
    (hb : a' = [] → SameFirst b b') : SameFirst (a ++ b) (a' ++ b') := by
  cases a' with
  | nil =>
    obtain rfl : a = [] := by simpa [SameFirst] using ha
    exact hb rfl
  | cons t a' =>
    cases a with
    | nil => simp [SameFirst] at ha
    | cons u a => exact ha

theorem SameLast.append {a a' b b' : List Token} (hb : SameLast b b')
    (ha : b' = [] → SameLast a a') : SameLast (a ++ b) (a' ++ b') := by
  cases b' using List.reverseRecOn with
  | nil =>
    obtain rfl : b = [] := by simpa [SameLast] using hb
    simpa using ha rfl
  | append_singleton b' t =>
    cases b using List.reverseRecOn with
    | nil => simp [SameLast] at hb
    | append_singleton b u => simpa [SameLast, ← List.append_assoc] using hb

theorem spanOf?_eq_some_iff {ts : List Token} {s : Span} : Token.spanOf? ts = some s ↔
    ts.head?.map (·.span.start) = some s.start ∧ ts.getLast?.map (·.span.stop) = some s.stop := by
  obtain ⟨start, stop⟩ := s
  cases ts with
  | nil => simp [Token.spanOf?]
  | cons t ts =>
    rw [List.getLast?_eq_some_getLast (List.cons_ne_nil t ts)]
    simp [Token.spanOf?, Span.join]

theorem spanOf?_congr {a b : List Token} (hf : SameFirst a b) (hl : SameLast a b) :
    Token.spanOf? a = Token.spanOf? b := by
  refine Option.ext fun s => ?_
  rw [spanOf?_eq_some_iff, spanOf?_eq_some_iff]
  exact and_congr (Eq.congr_left hf) (Eq.congr_left hl)

/-- Whether what a rule writes begins where the first token does that it has read. -/
def Rule.headed : PhraseRule → Bool
  | .close _ => false
  | .call p => !p.bracketed && p != .callInputs
  | .seq a b => a.headed && (b.headed || a.reads Phrase.idle)
  | .choose _ a b | .probe _ a b | .onShape _ a b => a.headed && b.headed
  | .braced r => r.headed
  | .rewrite writing r => writing != .nothing && r.headed
  | _ => true

/-- Whether what a rule writes ends where the last token does that it has read. -/
def Rule.tailed : PhraseRule → Bool
  | .call p => !p.bracketed
  | .seq a b => b.tailed && (a.tailed || b.reads Phrase.idle)
  | .choose _ a b | .probe _ a b | .onShape _ a b => a.tailed && b.tailed
  | .braced r => r.tailed
  | .rewrite writing r => writing != .nothing && r.tailed
  | _ => true

theorem grammar_headed (p : Phrase) :
    (p.bracketed || p == .callInputs || (grammar p).headed) = true :=
  Phrase.of_all (f := fun p => p.bracketed || p == .callInputs || (grammar p).headed)
    (by decide +kernel) p

theorem grammar_tailed (p : Phrase) : (p.bracketed || (grammar p).tailed) = true :=
  Phrase.of_all (f := fun p => p.bracketed || (grammar p).tailed) (by decide +kernel) p

theorem same_of_spans {a b : List Token} (h : a.map (·.span) = b.map (·.span)) :
    SameFirst a b ∧ SameLast a b := by
  have hfirst := congrArg (fun spans => spans.head?.map Span.start) h
  have hlast := congrArg (fun spans => spans.getLast?.map Span.stop) h
  simp only [List.head?_map, List.getLast?_map, Option.map_map] at hfirst hlast
  exact ⟨hfirst, hlast⟩

theorem joined_spans {s : Text} {ts : List Token} (h : signAhead s ts = true) :
    (joined s ts).map (·.span) = (ts.take s.length).map (·.span) := by
  induction s generalizing ts with
  | nil => cases ts <;> rfl
  | cons c s ih =>
    cases ts with
    | nil => simp [signAhead] at h
    | cons t ts =>
      cases s with
      | nil => simp [joined]
      | cons d s =>
        simp only [signAhead] at h
        split at h
        · have hrest := ih (Bool.and_eq_true_iff.mp h).2
          simpa [joined] using hrest
        · simp at h

theorem done_extent {shape : Shape} {used : List Token} {r : Reading}
    (h : some ⟨shape, [], used ++ r.rest⟩ = some r) : r.written = used := by
  have hr := Option.some.inj h
  have hrest : used ++ r.rest = r.rest := congrArg Reading.rest hr
  rw [List.append_left_eq_self.mp hrest]
  exact (congrArg Reading.written hr).symm

theorem Test.written_same (test : Test) (t : Token) :
    SameFirst (test.written t) [t] ∧ SameLast (test.written t) [t] := by
  unfold Test.written
  split
  · exact ⟨rfl, rfl⟩
  · refine ⟨rfl, ?_⟩
    dsimp only
    split
    · rfl
    · rfl
  · exact ⟨rfl, rfl⟩

theorem Test.read_extent {test : Test} {shape : Shape} {used : List Token} {r : Reading}
    (h : test.read shape (used ++ r.rest) = some r) :
    SameFirst r.written used ∧ SameLast r.written used := by
  rcases Test.read_used h with ⟨s, -, hs, hused, hw⟩ | ⟨t, rfl, -, hw⟩
  · have hspans := joined_spans hs
    rw [← hw, ← hused] at hspans
    exact same_of_spans hspans
  · rw [hw]
    exact test.written_same t

theorem readClose_extent {d : Delimiter} {shape : Shape} {used : List Token} {r : Reading}
    (h : readClose whole d shape (used ++ r.rest) = some r) : SameLast r.written used := by
  obtain ⟨extra, t, rfl, -, -, -, hw⟩ := readClose_used h
  simp [SameLast, hw]

theorem readRaw_extent {shape : Shape} {used : List Token} {r : Reading}
    (h : readRaw shape (used ++ r.rest) = some r) : r.written = used := by
  obtain ⟨t, d, group, -, -, -, hw⟩ := readRaw_used h
  exact hw

theorem Writing.write_first {writing : Writing} {ts used : List Token}
    (hw : (writing != .nothing) = true) (h : SameFirst ts used) :
    SameFirst (writing.write ts) used := by
  cases writing with
  | nothing => simp at hw
  | literal | unnamed =>
    cases ts with
    | nil => exact h
    | cons t ts => exact h

theorem Writing.write_last {writing : Writing} {ts used : List Token}
    (hw : (writing != .nothing) = true) (h : SameLast ts used) :
    SameLast (writing.write ts) used := by
  cases writing with
  | nothing => simp at hw
  | literal =>
    cases ts with
    | nil => exact h
    | cons t ts =>
      rw [SameLast, List.getLast?_eq_some_getLast (List.cons_ne_nil t ts)] at h
      exact h
  | unnamed =>
    cases ts with
    | nil => exact h
    | cons t ts => simpa [SameLast, write, List.getLast?_cons] using h

theorem Rule.run_nil {readers : Phrase → Reader}
    (hs : ∀ p shape ts r, readers p shape ts = some r → r.rest <:+ ts)
    (hl : ∀ p shape ts r, readers p shape ts = some r → p.idle = false →
      r.rest.length < ts.length)
    (rule : PhraseRule) {shape : Shape} {used : List Token} {r : Reading}
    (h : rule.run whole readers shape (used ++ r.rest) = some r)
    (hr : rule.reads Phrase.idle = true) :
    used ≠ [] := by
  rintro rfl
  exact Nat.lt_irrefl _ (rule.run_length hs hl h hr)

section

variable {readers : Phrase → Reader}
  (hs : ∀ p shape ts r, readers p shape ts = some r → r.rest <:+ ts)
  (hl : ∀ p shape ts r, readers p shape ts = some r → p.idle = false →
    r.rest.length < ts.length)

include hs hl

theorem Rule.run_headed
    (hr : ∀ p shape used r, p.bracketed = false → p ≠ .callInputs →
      readers p shape (used ++ r.rest) = some r → SameFirst r.written used)
    (rule : PhraseRule) {shape : Shape} {used : List Token} {r : Reading}
    (h : rule.run whole readers shape (used ++ r.rest) = some r) (hh : rule.headed = true) :
    SameFirst r.written used := by
  induction rule generalizing shape used r with
  | done | mark new => exact done_extent h ▸ rfl
  | fail => simp [run] at h
  | take test => exact (Test.read_extent h).1
  | close d => simp [headed] at hh
  | raw => exact readRaw_extent h ▸ rfl
  | call p =>
    have hp : p.bracketed = false ∧ p ≠ .callInputs := by simpa [headed] using hh
    exact hr p shape used r hp.1 hp.2 h
  | seq a b iha ihb =>
    obtain ⟨front, back, first, second, rfl, ha, -, hb, rfl⟩ := run_parts hs h
    obtain ⟨hha, hhb⟩ := Bool.and_eq_true_iff.mp hh
    refine (iha ha hha).append fun hnil => ?_
    rcases Bool.or_eq_true_iff.mp hhb with hhb | hreads
    · exact ihb hb hhb
    · exact absurd hnil (a.run_nil hs hl ha hreads)
  | choose look yes no ihy ihn | probe ahead yes no _ ihy ihn | onShape shapes yes no ihy ihn =>
    obtain ⟨hy, hn⟩ := Bool.and_eq_true_iff.mp hh
    simp only [run] at h
    split at h
    · exact ihy h hy
    · exact ihn h hn
  | braced rule ih =>
    obtain ⟨x, hx, rfl⟩ := Option.map_eq_some_iff.mp h
    have hfirst := ih (r := x) hx hh
    exact hfirst
  | rewrite writing rule ih =>
    obtain ⟨hw, hh⟩ := Bool.and_eq_true_iff.mp hh
    obtain ⟨x, hx, rfl⟩ := Option.map_eq_some_iff.mp h
    exact Writing.write_first hw (ih (r := x) hx hh)

theorem Rule.run_tailed
    (hr : ∀ p shape used r, p.bracketed = false → readers p shape (used ++ r.rest) = some r →
      SameLast r.written used)
    (rule : PhraseRule) {shape : Shape} {used : List Token} {r : Reading}
    (h : rule.run whole readers shape (used ++ r.rest) = some r) (ht : rule.tailed = true) :
    SameLast r.written used := by
  induction rule generalizing shape used r with
  | done | mark new => exact done_extent h ▸ rfl
  | fail => simp [run] at h
  | take test => exact (Test.read_extent h).2
  | close d => exact readClose_extent h
  | raw => exact readRaw_extent h ▸ rfl
  | call p => exact hr p shape used r (by simpa [tailed] using ht) h
  | seq a b iha ihb =>
    obtain ⟨front, back, first, second, rfl, ha, -, hb, rfl⟩ := run_parts hs h
    obtain ⟨htb, hta⟩ := Bool.and_eq_true_iff.mp ht
    refine (ihb hb htb).append fun hnil => ?_
    rcases Bool.or_eq_true_iff.mp hta with hta | hreads
    · exact iha ha hta
    · exact absurd hnil (b.run_nil hs hl hb hreads)
  | choose look yes no ihy ihn | probe ahead yes no _ ihy ihn | onShape shapes yes no ihy ihn =>
    obtain ⟨hy, hn⟩ := Bool.and_eq_true_iff.mp ht
    simp only [run] at h
    split at h
    · exact ihy h hy
    · exact ihn h hn
  | braced rule ih =>
    obtain ⟨x, hx, rfl⟩ := Option.map_eq_some_iff.mp h
    have hlast := ih (r := x) hx ht
    exact hlast
  | rewrite writing rule ih =>
    obtain ⟨hw, ht⟩ := Bool.and_eq_true_iff.mp ht
    obtain ⟨x, hx, rfl⟩ := Option.map_eq_some_iff.mp h
    exact Writing.write_last hw (ih (r := x) hx ht)

end

theorem readPhrase_extent (depth : Nat) : ∀ p shape used r, p.bracketed = false →
    readPhrase whole grammar depth p shape (used ++ r.rest) = some r →
    (p ≠ .callInputs → SameFirst r.written used) ∧ SameLast r.written used := by
  induction depth with
  | zero => intro p shape used r _ h; simp [readPhrase] at h
  | succ depth ih =>
    intro p shape used r hb h
    have hs := @readPhrase_suffix whole depth
    have hl := @readPhrase_length whole depth
    refine ⟨fun hp => ?_, ?_⟩
    · have hh : (grammar p).headed = true := by simpa [hb, hp] using grammar_headed p
      exact Rule.run_headed hs hl (fun p shape used r hb hp h => (ih p shape used r hb h).1 hp)
        (grammar p) h hh
    · have ht : (grammar p).tailed = true := by simpa [hb] using grammar_tailed p
      exact Rule.run_tailed hs hl (fun p shape used r hb h => (ih p shape used r hb h).2)
        (grammar p) h ht

theorem Expression.read?_eq (ts : List Token) : Expression.read? ts =
    ((Phrase.expression true).read ts).map fun r => (⟨r.shape, r.written⟩, r.rest) :=
  rfl

theorem Expression.inFront?_span {x : Expression} {ts rest : List Token}
    (h : Expression.inFront? whole (ts ++ rest) = some (x, rest)) :
    Token.spanOf? x.tokens = Token.spanOf? ts := by
  obtain ⟨r, hr, hp⟩ := Option.map_eq_some_iff.mp h
  obtain ⟨rfl, rfl⟩ := Prod.mk.inj hp
  obtain ⟨hf, hl⟩ := readPhrase_extent _ _ _ ts r rfl hr
  exact spanOf?_congr (hf (by simp)) hl

end FieldKeys
