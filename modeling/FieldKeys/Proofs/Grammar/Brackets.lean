import FieldKeys.Expansion.Code
import FieldKeys.Proofs.Grammar.Reading
import FieldKeys.Proofs.Nesting

/-! What a phrase writes closes the brackets that it opens, and an arrow stands in it only inside
brackets, the arms of a match apart. Both are read off the rules without running them. -/

namespace FieldKeys

variable {whole : Bool}

/-- What two branches have in common; a branch that cannot succeed has no say. -/
def agree : Option (Option Nat) → Option (Option Nat) → Option (Option Nat)
  | none, _ | _, none => none
  | some none, d | d, some none => d
  | some (some n), some (some m) => if n = m then some (some n) else none

/-- How many brackets are open after a rule has written, of which `n` are open before: `none` if
that cannot be told, `some none` if the rule never succeeds. With `strict` an arrow and a phrase
that may write one are refused outside all brackets. -/
def Rule.depthAfter? {P : Type} (arrows : P → Bool) (strict : Bool) :
    Rule P → Nat → Option (Option Nat)
  | .done, n | .mark _, n | .raw, n | .rewrite .nothing _, n | .rewrite .literal _, n =>
    some (some n)
  | .fail, _ => some none
  | .take (.opening _), n => some (some (n + 1))
  | .take .anyOpening, _ | .take .finish, _ | .close _, 0 => none
  | .take (.sign s), n =>
    if strict && n == 0 && !arrowless 0 (operator s) then none else some (some n)
  | .take _, n | .close _, n + 1 => some (some n)
  | .call p, n => if strict && n == 0 && arrows p then none else some (some n)
  | .seq a b, n =>
    match a.depthAfter? arrows strict n with
    | some (some m) => b.depthAfter? arrows strict m
    | other => other
  | .choose _ a b, n | .probe _ a b, n | .onShape _ a b, n =>
    agree (a.depthAfter? arrows strict n) (b.depthAfter? arrows strict n)
  | .braced r, n | .rewrite .unnamed r, n => r.depthAfter? arrows strict n

def Phrase.writesArrow (p : Phrase) : Bool := p == .arms

theorem grammar_depthAfter? (p : Phrase) :
    (grammar p).depthAfter? Phrase.writesArrow (!p.writesArrow) 0 = some (some 0) := by
  simpa using Phrase.of_all (f := fun p => (grammar p).depthAfter? Phrase.writesArrow
    (!p.writesArrow) 0 == some (some 0)) (by decide +kernel) p

theorem operator_cons_cons (c d : Char) (s : Text) :
    operator (c :: d :: s) = .sign c true :: operator (d :: s) := rfl

theorem lexemes_joined {s : Text} {ts : List Token} (h : signAhead s ts = true) :
    (joined s ts).map (·.lexeme) = operator s := by
  induction s generalizing ts with
  | nil => simp [joined, operator]
  | cons c s ih =>
    cases ts with
    | nil => simp [signAhead] at h
    | cons t ts =>
      cases s with
      | nil => rfl
      | cons d s =>
        have hh : signAhead (d :: s) ts = true := by
          simp only [signAhead] at h
          split at h
          · exact (Bool.and_eq_true_iff.mp h).2
          · simp at h
        simp [joined, operator_cons_cons, ih hh]

theorem depthAfter?_operator (n : Nat) (s : Text) : depthAfter? n (operator s) = some n := by
  induction s with
  | nil => rfl
  | cons c s ih =>
    cases s with
    | nil => rfl
    | cons d s => simpa [operator_cons_cons, depthAfter?, Lexeme.depthAfter?] using ih

theorem endsApart_operator (s : Text) : EndsApart (operator s) := by
  induction s with
  | nil => simp [EndsApart, operator]
  | cons c s ih =>
    cases s with
    | nil => simp [EndsApart, operator]
    | cons d s =>
      cases s with
      | nil => simp [EndsApart, operator]
      | cons e s => simpa [EndsApart, operator_cons_cons] using ih

theorem neat_leaf {strict : Bool} {n : Nat} {l : Lexeme} (hd : l.depthAfter? n = some n)
    (hs : ∀ c joint, l ≠ .sign c joint) : Neat strict n n [l] := by
  refine ⟨by simp [depthAfter?, hd], ?_, fun _ => ?_⟩
  · intro c hc
    exact hs c true (by simpa using hc)
  · simp [arrowless, arrowAhead]

theorem neat_literal (strict : Bool) (n : Nat) (t : Text) : Neat strict n n [.literal t] :=
  neat_leaf rfl (by simp)

/-- Only the tests for brackets and signs are answered by one. -/
theorem Test.written_neat {test : Test} {t : Token} (strict : Bool) (n : Nat)
    (hb : ∀ d, test ≠ .opening d) (ha : test ≠ .anyOpening) (hf : test ≠ .finish)
    (ht : test.fits t.lexeme = true) :
    Neat strict n n ((test.written t).map (·.lexeme)) := by
  obtain ⟨l, span⟩ := t
  cases l with
  | word name | lifetime name =>
    cases test <;> exact neat_leaf rfl (by simp)
  | sign c joint => cases test <;> simp [Test.fits] at ht
  | opening d => cases test <;> simp_all [Test.fits]
  | closing d => cases test <;> simp_all [Test.fits]
  | literal text =>
    cases test with
    | decimalIndex =>
      have hp : Neat strict n n [.sign '.' false] := by
        refine ⟨rfl, by simp [EndsApart], fun _ => ?_⟩
        simp [arrowless, arrowAhead]
      have hh := (neat_literal strict n (indexText (text.takeWhile (· != '.')))).append hp
      simp only [Test.written, List.map_append, List.map_cons, List.map_nil]
      split
      · simpa using hh
      · exact hh.append (neat_literal strict n _)
    | _ => exact neat_literal strict n _

theorem cutGroup_inside {depth : Nat} {ts a b : List Token}
    (h : cutGroup (depth + 1) ts = some (a, b)) :
    ∃ inside d, a.map (·.lexeme) = inside ++ [.closing d] ∧ depthAfter? depth inside = some 0 := by
  induction ts generalizing depth a with
  | nil => simp [cutGroup] at h
  | cons t ts ih =>
    obtain ⟨l, span⟩ := t
    cases l with
    | opening d =>
      obtain ⟨⟨x, y⟩, hx, hp⟩ := Option.map_eq_some_iff.mp h
      obtain ⟨rfl, rfl⟩ := Prod.mk.inj hp
      obtain ⟨inside, e, he, hd⟩ := ih hx
      exact ⟨.opening d :: inside, e, by simp [he], depthAfter?_of_cons rfl hd⟩
    | closing d =>
      cases depth with
      | zero =>
        obtain ⟨rfl, -⟩ : [⟨.closing d, span⟩] = a ∧ ts = b := by simpa [cutGroup] using h
        exact ⟨[], d, rfl, rfl⟩
      | succ depth =>
        obtain ⟨x, y, hx, rfl, rfl⟩ : ∃ x y, cutGroup (depth + 1) ts = some (x, y) ∧
            (⟨.closing d, span⟩ : Token) :: x = a ∧ y = b := by simpa [cutGroup] using h
        obtain ⟨inside, e, he, hd⟩ := ih hx
        exact ⟨.closing d :: inside, e, by simp [he], depthAfter?_of_cons rfl hd⟩
    | _ =>
      obtain ⟨⟨x, y⟩, hx, hp⟩ := Option.map_eq_some_iff.mp h
      obtain ⟨rfl, rfl⟩ := Prod.mk.inj hp
      obtain ⟨inside, e, he, hd⟩ := ih hx
      exact ⟨_ :: inside, e, by rw [List.map_cons, he]; rfl, depthAfter?_of_cons rfl hd⟩

/-- A group that is kept as it stands is neat, whatever is in it. -/
theorem neat_group (strict : Bool) (n : Nat) {d e : Delimiter} {inside : List Lexeme}
    (h : depthAfter? 0 inside = some 0) :
    Neat strict n n (.opening d :: (inside ++ [.closing e])) := by
  have hz : Neat strict 0 0 (.opening d :: (inside ++ [.closing e])) := by
    have hd := depthAfter?_add 1 h
    refine ⟨?_, ?_, fun _ => ?_⟩
    · rw [depthAfter?, Lexeme.depthAfter?, Option.bind_some, depthAfter?_append]
      simp [hd, depthAfter?, Lexeme.depthAfter?]
    · intro c hc
      simp [List.getLast?_cons, List.getLast?_append] at hc
    · have hh := arrowless_inside [.closing e] h
      have hf : ∀ ls, arrowAhead (.opening d :: ls) = false := by rintro (_ | _) <;> rfl
      simp [arrowless, hf, hh, Lexeme.depthAfter?]
  exact hz.lift n fun _ hs => hs

theorem Test.read_neat {arrows : Phrase → Bool} {strict : Bool} {test : Test} {shape : Shape}
    {ts : List Token} {r : Reading} {n : Nat} {d : Option Nat} (h : test.read shape ts = some r)
    (hd : (Rule.take test).depthAfter? arrows strict n = some d) :
    ∃ m, d = some m ∧ Neat strict n m (r.written.map (·.lexeme)) := by
  rcases Test.read_eq_some h with ⟨s, rfl, ht, rfl⟩ | ⟨t, rest, rfl, ht, rfl⟩
  · simp only [Rule.depthAfter?] at hd
    split at hd
    · simp at hd
    · next ha =>
      refine ⟨n, (Option.some.inj hd).symm, ?_⟩
      rw [lexemes_joined ht]
      refine ⟨depthAfter?_operator n s, endsApart_operator s, fun hs => ?_⟩
      cases n with
      | zero => simpa [hs] using ha
      | succ n => simpa [arrowless] using arrowless_inside [] (depthAfter?_operator n s)
  · cases test with
    | sign s => simp [fits] at ht
    | opening o =>
      refine ⟨n + 1, (Option.some.inj hd).symm, ?_⟩
      have hl : t.lexeme = .opening o := Test.fits_opening_iff.mp ht
      refine ⟨by simp [Test.written, depthAfter?, hl, Lexeme.depthAfter?],
        by simp [Test.written, EndsApart, hl], fun _ => ?_⟩
      simp [Test.written, arrowless, arrowAhead]
    | anyOpening | finish => simp [Rule.depthAfter?] at hd
    | _ =>
      refine ⟨n, (Option.some.inj hd).symm, ?_⟩
      exact Test.written_neat strict n (by simp) (by simp) (by simp) ht

theorem readClose_neat {strict : Bool} {c : Delimiter} {shape : Shape} {ts : List Token}
    {r : Reading} (n : Nat) (h : readClose whole c shape ts = some r) :
    Neat strict (n + 1) n (r.written.map (·.lexeme)) := by
  obtain ⟨extra, t, rest, -, hl, -, rfl⟩ := readClose_eq_some h
  refine ⟨by simp [depthAfter?, hl, Lexeme.depthAfter?], by simp [EndsApart, hl], fun _ => ?_⟩
  simp [arrowless, arrowAhead]

theorem readRaw_neat {strict : Bool} {shape : Shape} {ts : List Token} {r : Reading} (n : Nat)
    (h : readRaw shape ts = some r) : Neat strict n n (r.written.map (·.lexeme)) := by
  obtain ⟨t, d, inside, a, b, -, hl, hx, rfl⟩ := readRaw_eq_some h
  obtain ⟨ls, e, he, hd⟩ := cutGroup_inside hx
  simpa only [List.map_cons, hl, he] using neat_group strict n hd

theorem Writing.write_neat {writing : Writing} {strict : Bool} {n m : Nat} {ts : List Token}
    (h : writing = .unnamed → Neat strict n m (ts.map (·.lexeme)))
    (h' : writing ≠ .unnamed → n = m) :
    Neat strict n m ((writing.write ts).map (·.lexeme)) := by
  cases writing with
  | nothing =>
    obtain rfl := h' (by simp)
    exact .nil strict n
  | literal =>
    obtain rfl := h' (by simp)
    cases ts with
    | nil => exact .nil strict n
    | cons t ts => exact neat_literal strict n _
  | unnamed =>
    cases ts with
    | nil => exact h rfl
    | cons t ts =>
      have hname : Neat strict n n [.word ['_'], .sign ':' false] := by
        refine ⟨rfl, by simp [EndsApart], fun _ => ?_⟩
        simp [arrowless, arrowAhead, isArrow, Lexeme.depthAfter?]
      exact hname.append (h rfl)

theorem agree_eq_some {a b : Option (Option Nat)} {d : Option Nat} (h : agree a b = some d) :
    ∃ x y, a = some x ∧ b = some y ∧ (∀ m, x = some m → d = some m) ∧
      (∀ m, y = some m → d = some m) := by
  rcases a with _ | _ | n <;> rcases b with _ | _ | m <;> simp_all [agree]

theorem Rule.run_neat {readers : Phrase → Reader} {strict : Bool}
    (hr : ∀ p shape ts r, readers p shape ts = some r →
      Neat (!p.writesArrow) 0 0 (r.written.map (·.lexeme)))
    (rule : PhraseRule) {shape : Shape} {ts : List Token} {r : Reading} {n : Nat} {d : Option Nat}
    (h : rule.run whole readers shape ts = some r)
    (hd : rule.depthAfter? Phrase.writesArrow strict n = some d) :
    ∃ m, d = some m ∧ Neat strict n m (r.written.map (·.lexeme)) := by
  induction rule generalizing shape ts r n d with
  | done | mark new =>
    obtain rfl := Option.some.inj h
    exact ⟨n, (Option.some.inj hd).symm, .nil strict n⟩
  | fail => simp [run] at h
  | take test => exact Test.read_neat h hd
  | close c =>
    cases n with
    | zero => simp [depthAfter?] at hd
    | succ n => exact ⟨n, (Option.some.inj hd).symm, readClose_neat n h⟩
  | raw => exact ⟨n, (Option.some.inj hd).symm, readRaw_neat n h⟩
  | call p =>
    simp only [depthAfter?] at hd
    split at hd
    · simp at hd
    · next ha =>
      -- A phrase is neat from depth zero on; whether it writes arrows matters only if it is called
      -- outside all brackets.
      refine ⟨n, (Option.some.inj hd).symm, (hr p shape ts r h).lift n fun hn hs => ?_⟩
      simpa [hn, hs] using ha
  | seq a b iha ihb =>
    obtain ⟨first, second, ha, hb, rfl⟩ := run_seq h
    simp only [depthAfter?] at hd
    split at hd
    · next m hm =>
      obtain ⟨m', he, hna⟩ := iha ha hm
      obtain rfl := Option.some.inj he
      obtain ⟨k, rfl, hnb⟩ := ihb hb hd
      exact ⟨k, rfl, by simpa using hna.append hnb⟩
    · next other hn =>
      obtain ⟨m, rfl, -⟩ := iha ha hd
      exact absurd hd (hn m)
  | choose look yes no ihy ihn | probe ahead yes no _ ihy ihn | onShape shapes yes no ihy ihn =>
    obtain ⟨x, y, hx, hy, hdx, hdy⟩ := agree_eq_some hd
    simp only [run] at h
    split at h
    · obtain ⟨m, hm, hw⟩ := ihy h hx
      exact ⟨m, hdx m hm, hw⟩
    · obtain ⟨m, hm, hw⟩ := ihn h hy
      exact ⟨m, hdy m hm, hw⟩
  | braced rule ih =>
    obtain ⟨x, hx, rfl⟩ := Option.map_eq_some_iff.mp h
    have hh := ih hx hd
    exact hh
  | rewrite writing rule ih =>
    obtain ⟨x, hx, rfl⟩ := Option.map_eq_some_iff.mp h
    by_cases hu : writing = .unnamed
    · subst hu
      obtain ⟨m, rfl, hn⟩ := ih hx hd
      exact ⟨m, rfl, Writing.write_neat (fun _ => hn) fun hu => absurd rfl hu⟩
    · have hd : some (some n) = some d := by
        cases writing with
        | unnamed => exact absurd rfl hu
        | _ => exact hd
      obtain rfl := Option.some.inj hd
      exact ⟨n, rfl, Writing.write_neat (fun h => absurd h hu) fun _ => rfl⟩

theorem readPhrase_neat (depth : Nat) (p : Phrase) (shape : Shape) (ts : List Token) (r : Reading)
    (h : readPhrase whole grammar depth p shape ts = some r) :
    Neat (!p.writesArrow) 0 0 (r.written.map (·.lexeme)) := by
  refine readPhrase_induction
    (motive := fun p _ _ r => Neat (!p.writesArrow) 0 0 (r.written.map (·.lexeme)))
    (fun readers hr p shape ts r hh => ?_) depth p shape ts r h
  obtain ⟨m, hm, hn⟩ := (grammar p).run_neat hr hh (grammar_depthAfter? p)
  obtain rfl := Option.some.inj hm
  exact hn

theorem Phrase.inFront_neat {p : Phrase} {shape : Shape} {ts : List Token} {r : Reading}
    (h : p.inFront whole shape ts = some r) :
    Neat (!p.writesArrow) 0 0 (r.written.map (·.lexeme)) :=
  readPhrase_neat _ p shape ts r h

theorem Phrase.readAfter_neat {p : Phrase} {shape : Shape} {ts : List Token} {r : Reading}
    (h : p.readAfter shape ts = some r) :
    Neat (!p.writesArrow) 0 0 (r.written.map (·.lexeme)) :=
  Phrase.inFront_neat h

theorem Phrase.readAfter_run {p : Phrase} {shape : Shape} {ts : List Token} {r : Reading}
    (h : p.readAfter shape ts = some r) :
    ∃ depth, (grammar p).run true (readPhrase true grammar depth) shape ts = some r :=
  ⟨16 * ts.length + 15, h⟩

theorem Test.read_one {test : Test} {shape : Shape} {ts : List Token} {r : Reading}
    (hs : ∀ s, test ≠ .sign s) (h : test.read shape ts = some r) :
    ∃ t, test.fits t.lexeme = true ∧ r.written = test.written t := by
  rcases Test.read_eq_some h with ⟨s, rfl, -, -⟩ | ⟨t, rest, -, ht, rfl⟩
  · exact absurd rfl (hs s)
  · exact ⟨t, ht, rfl⟩

theorem group_written {depth : Nat} {d : Delimiter} {inside : PhraseRule} {shape : Shape}
    {ts : List Token} {r : Reading}
    (h : (group d inside).run whole (readPhrase whole grammar depth) shape ts = some r)
    (hi : inside.depthAfter? Phrase.writesArrow false 0 = some (some 0)) :
    ∃ ls, r.written.map (·.lexeme) = .opening d :: (ls ++ [.closing d]) ∧
      depthAfter? 0 ls = some 0 := by
  obtain ⟨first, second, hf, hs, rfl⟩ := Rule.run_seq h
  obtain ⟨mid, last, hm, hl, rfl⟩ := Rule.run_seq hs
  obtain ⟨t, ht, hw⟩ := Test.read_one (by simp) hf
  obtain ⟨m, he, hn⟩ := inside.run_neat (readPhrase_neat depth) hm hi
  obtain rfl := Option.some.inj he
  have hto : t.lexeme = .opening d := Test.fits_opening_iff.mp ht
  obtain ⟨extra, u, rest, -, hu, -, rfl⟩ := readClose_eq_some hl
  refine ⟨mid.written.map (·.lexeme), ?_, hn.depth⟩
  simp [hw, hto, hu, Test.written]

end FieldKeys
