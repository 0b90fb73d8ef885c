import FieldKeys.Proofs.Grammar.Extent
import FieldKeys.Proofs.Grammar.LastTokens

/-! What an expression leaves unread. Every operand but a range goes on with an inequality, so that one
is left only behind a range without an end. -/

namespace FieldKeys

variable {whole : Bool}

deriving instance DecidableEq for Rule

/-- Whether what a rule reads may have the shape of a range, by whether what stands before it may. -/
def Rule.mayRange : PhraseRule → (Phrase → Bool → Bool) → Bool → Bool
  | .fail, _, _ | .braced _, _, _ => false
  | .mark new, _, _ => new == .range
  | .call p, phrases, before => phrases p before
  | .seq a b, phrases, before => b.mayRange phrases (a.mayRange phrases before)
  | .choose _ a b, phrases, before | .probe _ a b, phrases, before
  | .onShape _ a b, phrases, before => a.mayRange phrases before || b.mayRange phrases before
  | .rewrite _ r, phrases, before => r.mayRange phrases before
  | _, _, before => before

def Phrase.mayRange : Phrase → Bool → Bool
  | .path _, _ | .pathExpression _, _ | .closure _, _ => false
  | .pathWord _, before | .pathRest _, before | .trailers, before => before
  | _, _ => true

theorem grammar_mayRange (p : Phrase) (before : Bool) :
    (!(grammar p).mayRange Phrase.mayRange before || p.mayRange before) = true := by
  have h := Phrase.of_all (f := fun p => [true, false].all fun before =>
    !(grammar p).mayRange Phrase.mayRange before || p.mayRange before) (by decide +kernel) p
  exact List.all_eq_true.mp h before (by cases before <;> decide)

theorem Rule.mayRange_of_run {readers : Phrase → Reader}
    (hr : ∀ p shape ts r, readers p shape ts = some r → ∀ before, (shape = .range → before = true) →
      r.shape = .range → p.mayRange before = true)
    (rule : PhraseRule) {shape : Shape} {ts : List Token} {r : Reading} {before : Bool}
    (h : rule.run whole readers shape ts = some r) (hb : shape = .range → before = true)
    (hshape : r.shape = .range) : rule.mayRange Phrase.mayRange before = true := by
  induction rule generalizing shape ts r before with
  | done =>
    obtain rfl := Option.some.inj h
    exact hb hshape
  | fail => simp [run] at h
  | take test =>
    rcases Test.read_eq_some h with ⟨s, -, -, rfl⟩ | ⟨t, rest, -, -, rfl⟩ <;> exact hb hshape
  | close d =>
    obtain ⟨extra, t, rest, -, -, -, rfl⟩ := readClose_eq_some h
    exact hb hshape
  | raw =>
    obtain ⟨t, d, inside, a, b, -, -, -, rfl⟩ := readRaw_eq_some h
    exact hb hshape
  | mark new =>
    obtain rfl := Option.some.inj h
    simpa [mayRange] using hshape
  | call p => exact hr p shape ts r h before hb hshape
  | seq a b iha ihb =>
    obtain ⟨first, second, ha, hsecond, rfl⟩ := run_seq h
    exact ihb hsecond (iha ha hb) hshape
  | choose look yes no ihy ihn | probe ahead yes no _ ihy ihn | onShape shapes yes no ihy ihn =>
    simp only [run] at h
    simp only [mayRange, Bool.or_eq_true]
    split at h
    · exact .inl (ihy h hb hshape)
    · exact .inr (ihn h hb hshape)
  | braced rule ih =>
    obtain ⟨x, hx, rfl⟩ := Option.map_eq_some_iff.mp h
    dsimp only at hshape
    split at hshape <;> simp at hshape
  | rewrite writing rule ih =>
    obtain ⟨x, hx, rfl⟩ := Option.map_eq_some_iff.mp h
    exact ih hx hb hshape

theorem readPhrase_mayRange (depth : Nat) : ∀ p shape ts r,
    readPhrase whole grammar depth p shape ts = some r → ∀ before, (shape = .range → before = true) →
      r.shape = .range → p.mayRange before = true :=
  readPhrase_induction (motive := fun (p : Phrase) shape _ r => ∀ before, (shape = .range → before = true) →
      r.shape = .range → p.mayRange before = true)
    (fun _ hr p _ _ _ h before hb hshape => by
      have hm := (grammar p).mayRange_of_run hr h hb hshape
      simpa [hm] using grammar_mayRange p before) depth

/-- The tokens end in the points of a range without an end. -/
def EndsOpen (ts : List Token) : Prop :=
  ∃ front t joint, ts = front ++ [t] ∧ t.lexeme = .sign '.' joint

theorem EndsOpen.append {ts : List Token} (h : EndsOpen ts) (used : List Token) :
    EndsOpen (used ++ ts) := by
  obtain ⟨front, t, joint, rfl, ht⟩ := h
  exact ⟨used ++ front, t, joint, by simp, ht⟩

def inequality : Text := "!=".toList

/-- What is known of a phrase that has been read from `used` and has left an inequality. -/
def Phrase.LeavesInequality (used : List Token) (shape : Shape) (r : Reading) : Phrase → Prop
  | .expression _ => EndsOpen used
  | .rangeEnd _ => used = [] ∨ EndsOpen used
  | .unary _ | .atom _ => r.shape = .range → EndsOpen used
  | .operators outer _ =>
    shape ≠ .range → outer.level < Precedence.compare.level → r.shape = .range ∧ EndsOpen used
  | _ => True

theorem firstOf_run {readers : Phrase → Reader} {cases : List (Look × PhraseRule)}
    {otherwise : PhraseRule} {shape : Shape} {ts : List Token} {r : Reading}
    (h : (firstOf cases otherwise).run whole readers shape ts = some r) :
    (∃ c ∈ cases, c.1.holds ts = true ∧ c.2.run whole readers shape ts = some r) ∨
      (∀ c ∈ cases, c.1.holds ts = false) ∧ otherwise.run whole readers shape ts = some r := by
  induction cases with
  | nil => exact .inr ⟨by simp, h⟩
  | cons c cases ih =>
    have h : (Rule.choose c.1 c.2 (firstOf cases otherwise)).run whole readers shape ts = some r := h
    rw [Rule.run] at h
    split at h
    · next hc => exact .inl ⟨c, by simp, hc, h⟩
    · next hc =>
      rcases ih h with ⟨d, hd, hh⟩ | ⟨hall, hh⟩
      · exact .inl ⟨d, by simp [hd], hh⟩
      · exact .inr ⟨List.forall_mem_cons.mpr ⟨Bool.eq_false_iff.mpr hc, hall⟩, hh⟩

theorem firstOf_append (cases others : List (Look × PhraseRule)) (otherwise : PhraseRule) :
    firstOf cases (firstOf others otherwise) = firstOf (cases ++ others) otherwise :=
  (List.foldr_append ..).symm

theorem Rule.run_choose {readers : Phrase → Reader} {look : Look} {yes no : PhraseRule} {shape : Shape}
    {ts : List Token} {r : Reading}
    (h : (Rule.choose look yes no).run whole readers shape ts = some r) :
    yes.run whole readers shape ts = some r ∨ no.run whole readers shape ts = some r := by
  rw [run] at h
  split at h
  · exact .inl h
  · exact .inr h

/-- The parts of what two rules have taken, before a rest that is named. -/
theorem Rule.run_split {readers : Phrase → Reader}
    (hs : ∀ p shape ts r, readers p shape ts = some r → r.rest <:+ ts) {a b : PhraseRule}
    {shape : Shape} {used rest : List Token} {r : Reading}
    (h : (a ++ b).run whole readers shape (used ++ rest) = some r) (hrest : r.rest = rest) :
    ∃ front back first second, used = front ++ back ∧ first.rest = back ++ rest ∧
      second.rest = rest ∧ second.shape = r.shape ∧
      a.run whole readers shape (front ++ (back ++ rest)) = some first ∧
      b.run whole readers first.shape (back ++ rest) = some second := by
  subst hrest
  obtain ⟨front, back, first, second, rfl, ha, hfirst, hb, rfl⟩ := run_parts hs h
  rw [hfirst] at ha
  exact ⟨front, back, first, second, rfl, hfirst, rfl, rfl, ha, hb⟩

/-- Nothing is read after a range. -/
theorem readPhrase_afterRange {depth : Nat} {p : Phrase} {ts : List Token} {r : Reading}
    (hp : ∃ rule, grammar p = .onShape [.range] .done rule)
    (h : readPhrase whole grammar depth p .range ts = some r) : r.rest = ts := by
  cases depth with
  | zero => simp [readPhrase] at h
  | succ depth =>
    obtain ⟨rule, hp⟩ := hp
    have h : (grammar p).run whole (readPhrase whole grammar depth) .range ts = some r := h
    rw [hp] at h
    obtain rfl := Option.some.inj h
    rfl

theorem endsOpen_points {readers : Phrase → Reader} {shape : Shape} {used rest : List Token}
    {r : Reading} (h : (sign "..").run whole readers shape (used ++ rest) = some r)
    (hrest : r.rest = rest) :
    EndsOpen used := by
  have h : (Test.sign "..".toList).read shape (used ++ rest) = some r := h
  rcases Test.read_eq_some h with ⟨s, hs, hahead, rfl⟩ | ⟨t, rest, -, hfits, -⟩
  · obtain rfl := Test.sign.inj hs
    rcases hts : used ++ rest with _ | ⟨a, _ | ⟨b, us⟩⟩
    · simp [hts, signAhead] at hahead
    · rw [hts] at hahead
      simpa [signAhead] using (signAhead_cons hahead).2
    · rw [hts] at hahead hrest
      obtain ⟨joint, hb⟩ := (signAhead_cons (signAhead_cons hahead).2).1
      obtain rfl : us = rest := hrest
      obtain rfl : used = [a, b] := List.append_cancel_right hts
      exact ⟨[a], b, joint, rfl, hb⟩
  · simp [Test.fits] at hfits

theorem inequality_fits {ts : List Token} (h : signAhead inequality ts = true) :
    ∃ front back, ts = front ++ back ∧ (operatorStub "!=").Fits front := by
  rcases ts with _ | ⟨a, _ | ⟨b, rest⟩⟩
  · simp [inequality, signAhead] at h
  · simpa [inequality, signAhead] using (signAhead_cons h).2
  · obtain ⟨ha, h⟩ := signAhead_cons h
    obtain ⟨hb, -⟩ := signAhead_cons h
    refine ⟨[a, b], rest, rfl, .cons ?_ (.cons ?_ .nil)⟩
    · simpa [Cell.Fits] using ha
    · simpa [Cell.Fits] using hb

section

variable {depth : Nat} (ih : ∀ p shape used rest r, signAhead inequality rest = true →
  readPhrase whole grammar depth p shape (used ++ rest) = some r → r.rest = rest →
  p.LeavesInequality used shape r)

include ih

theorem endsOpen_of_operand {braces : Bool} {outer : Precedence} {shape : Shape}
    {front back rest : List Token} {first second : Reading}
    (ho : outer.level < Precedence.compare.level) (hn : signAhead inequality rest = true)
    (hu : readPhrase whole grammar depth (.unary braces) shape (front ++ (back ++ rest)) = some first)
    (hfirst : first.rest = back ++ rest)
    (hop : readPhrase whole grammar depth (.operators outer braces) first.shape (back ++ rest) =
      some second)
    (hsecond : second.rest = rest) : EndsOpen (front ++ back) := by
  by_cases hrange : first.shape = .range
  · rw [hrange] at hop
    have hnil := (readPhrase_afterRange ⟨_, rfl⟩ hop).symm.trans hsecond
    obtain rfl : back = [] := List.append_left_eq_self.mp hnil
    rw [List.append_nil]
    exact ih _ _ _ _ _ hn hu hfirst hrange
  · exact (ih _ _ _ _ _ hn hop hsecond hrange ho).2.append front

/-- A range that ends in an operand goes on with an inequality behind that. -/
theorem endsOpen_of_range {braces : Bool} {shape : Shape} {used rest : List Token} {r : Reading}
    (hn : signAhead inequality rest = true)
    (h : (rangeRule braces).run whole (readPhrase whole grammar depth) shape (used ++ rest) = some r)
    (hrest : r.rest = rest) : r.shape = .range ∧ EndsOpen used := by
  have hs := @readPhrase_suffix whole depth
  obtain ⟨used, back, first, marked, rfl, hfirst, hmarked, hshape, hread, hmark⟩ :=
    Rule.run_split hs h hrest
  obtain rfl := Option.some.inj hmark
  refine ⟨hshape.symm, ?_⟩
  obtain rfl : back = [] := List.append_left_eq_self.mp hmarked
  rw [List.append_nil]
  rw [List.nil_append] at hread hfirst
  rcases firstOf_run hread with ⟨c, hc, -, hread⟩ | ⟨-, hread⟩
  · simp only [List.mem_cons, List.not_mem_nil, or_false] at hc
    rcases hc with rfl | rfl
    · obtain ⟨front, back, first, second, rfl, hfirst, hsecond, -, hfront, hback⟩ :=
        Rule.run_split hs hread hfirst
      obtain ⟨mark, operand, _, unary, rfl, -, hunary, hshape, -, hoperand⟩ :=
        Rule.run_split hs hfront hfirst
      rw [← hshape] at hback
      rw [List.append_assoc]
      exact (endsOpen_of_operand ih (by decide) hn hoperand hunary hback hsecond).append mark
    · simp [Rule.run] at hread
  · obtain ⟨front, back, points, ended, rfl, hpoints, hended, -, hfront, hback⟩ :=
      Rule.run_split hs hread hfirst
    rcases ih _ _ _ _ _ hn hback hended with rfl | hopen
    · rw [List.append_nil]
      exact endsOpen_points hfront hpoints
    · exact hopen.append front

/-- Whether a rule reads an operator that goes on with a range or with further operators, of which a
range is none. -/
def Rule.goesOn (outer : Precedence) (braces : Bool) : PhraseRule → Bool
  | .onShape [.comparison] .fail rule => rule.goesOn outer braces
  | .seq a (.call p) => p == .operators outer braces && !a.mayRange Phrase.mayRange true
  | rule => rule == rangeRule braces

omit ih in
/-- Every operator looser than a comparison goes on, or it is none that an inequality begins with. -/
theorem operators_cases {outer : Precedence} (braces : Bool)
    (ho : outer.level < Precedence.compare.level) : ∃ cases,
      operatorsRule outer braces = .onShape [.range] .done (firstOf cases .done) ∧
      (∀ c ∈ cases, c.2.goesOn outer braces = true ∨
        c.2 = .done ∧ c.1.mayHold (operatorStub "!=") = false) ∧
      ∃ c ∈ cases, c.1 = signAt 0 "!=" := by
  refine ⟨_, congrArg (Rule.onShape [.range] .done) (firstOf_append ..), ?_, ?_⟩
  · cases outer <;> first | exact absurd ho (by decide) | (cases braces <;> decide +kernel)
  · cases outer <;> first | exact absurd ho (by decide) | (cases braces <;> decide +kernel)

omit ih in
theorem atom_cases (braces : Bool) : ∃ cases, atomRule braces = firstOf cases .fail ∧
    ∀ c ∈ cases, c.2.mayRange Phrase.mayRange true = false ∨ c.2 = rangeRule braces := by
  refine ⟨_, rfl, ?_⟩
  cases braces <;> decide +kernel

theorem endsOpen_of_goesOn {rule : PhraseRule} {outer : Precedence} {braces : Bool} {shape : Shape}
    {used rest : List Token} {r : Reading} (ho : outer.level < Precedence.compare.level)
    (hg : rule.goesOn outer braces = true) (hn : signAhead inequality rest = true)
    (h : rule.run whole (readPhrase whole grammar depth) shape (used ++ rest) = some r)
    (hrest : r.rest = rest) :
    r.shape = .range ∧ EndsOpen used := by
  fun_induction Rule.goesOn outer braces rule with
  | case1 rule ih' =>
    rw [Rule.run] at h
    split at h
    · simp [Rule.run] at h
    · exact ih' hg h
  | case2 a p =>
    obtain ⟨hp, ha⟩ := Bool.and_eq_true_iff.mp hg
    obtain rfl := beq_iff_eq.mp hp
    obtain ⟨front, back, first, second, rfl, -, hsecond, hshape, hfront, hback⟩ :=
      Rule.run_split (readPhrase_suffix depth) h hrest
    have hfirst : first.shape ≠ .range := fun hrange => by
      have hm := Rule.mayRange_of_run (readPhrase_mayRange depth) a hfront (fun _ => rfl) hrange
      simp [hm] at ha
    obtain ⟨hrange, hopen⟩ := ih _ _ _ _ _ hn hback hsecond hfirst ho
    exact ⟨hshape ▸ hrange, hopen.append front⟩
  | case3 rule =>
    obtain rfl := beq_iff_eq.mp hg
    exact endsOpen_of_range ih hn h hrest

theorem endsOpen_of_operators {braces : Bool} {outer : Precedence} {shape : Shape}
    {used rest : List Token} {r : Reading} (ho : outer.level < Precedence.compare.level)
    (hshape : shape ≠ .range) (hn : signAhead inequality rest = true)
    (h : (operatorsRule outer braces).run whole (readPhrase whole grammar depth) shape
      (used ++ rest) = some r)
    (hrest : r.rest = rest) : r.shape = .range ∧ EndsOpen used := by
  obtain ⟨cases, hrule, hall, hsome⟩ := operators_cases braces ho
  have hnot : ¬ ([Shape.range].contains shape = true) := by simpa using hshape
  rw [hrule, Rule.run, if_neg hnot] at h
  have hdone : (Rule.done : PhraseRule).run whole (readPhrase whole grammar depth) shape
      (used ++ rest) = some r →
      used = [] := fun h => by
    obtain rfl := Option.some.inj h
    exact List.append_left_eq_self.mp hrest
  rcases firstOf_run h with ⟨c, hc, hlook, hread⟩ | ⟨hnone, hread⟩
  · rcases hall c hc with hgo | ⟨hrule, hhold⟩
    · exact endsOpen_of_goesOn ih ho hgo hn hread hrest
    · rw [hrule] at hread
      obtain rfl := hdone hread
      obtain ⟨front, back, rfl, hf⟩ := inequality_fits hn
      rw [List.nil_append] at hlook
      simp [Look.mayHold_of_holds hlook hf] at hhold
  · obtain rfl := hdone hread
    obtain ⟨c, hc, hlook⟩ := hsome
    have hfalse := hnone c hc
    rw [hlook] at hfalse
    exact absurd hn (Bool.eq_false_iff.mp hfalse)

/-- Only points make an operand a range. -/
theorem endsOpen_of_atom {braces : Bool} {shape : Shape} {used rest : List Token} {r : Reading}
    (hn : signAhead inequality rest = true)
    (h : (atomRule braces).run whole (readPhrase whole grammar depth) shape (used ++ rest) = some r)
    (hrest : r.rest = rest) (hrange : r.shape = .range) : EndsOpen used := by
  obtain ⟨cases, hrule, hall⟩ := atom_cases braces
  rw [hrule] at h
  rcases firstOf_run h with ⟨c, hc, -, hread⟩ | ⟨-, hread⟩
  · rcases hall c hc with hno | hpoints
    · have hm := Rule.mayRange_of_run (readPhrase_mayRange depth) c.2 hread (fun _ => rfl) hrange
      simp [hm] at hno
    · rw [hpoints] at hread
      exact (endsOpen_of_range ih hn hread hrest).2
  · simp [Rule.run] at hread

theorem endsOpen_of_unary {braces : Bool} {shape : Shape} {used rest : List Token} {r : Reading}
    (hn : signAhead inequality rest = true)
    (h : (unaryRule braces).run whole (readPhrase whole grammar depth) shape (used ++ rest) = some r)
    (hrest : r.rest = rest) (hrange : r.shape = .range) : EndsOpen used := by
  have hs := @readPhrase_suffix whole depth
  obtain ⟨attributes, used, _, operand, rfl, -, hoperand, hshape, -, hread⟩ := Rule.run_split hs h hrest
  rw [hrange] at hshape
  rcases firstOf_run hread with ⟨c, hc, -, hread⟩ | ⟨-, hread⟩
  · have hno : c.2.mayRange Phrase.mayRange true = false := by
      simp only [List.mem_cons, List.not_mem_nil, or_false] at hc
      rcases hc with rfl | rfl | rfl | rfl <;> rfl
    have hm := Rule.mayRange_of_run (readPhrase_mayRange depth) c.2 hread (fun _ => rfl) hshape
    simp [hm] at hno
  · obtain ⟨front, back, atom, trailers, rfl, hatom, htrailers, hend, hfront, hback⟩ :=
      Rule.run_split hs hread hoperand
    have hatomShape : atom.shape = .range := by
      by_contra hne
      have hm := readPhrase_mayRange depth _ _ _ _ hback false (fun h => absurd h hne)
        (hend.trans hshape)
      simp [Phrase.mayRange] at hm
    have hback : readPhrase whole grammar depth .trailers atom.shape (back ++ rest) =
      some trailers := hback
    rw [hatomShape] at hback
    have hnil := (readPhrase_afterRange ⟨_, rfl⟩ hback).symm.trans htrailers
    obtain rfl : back = [] := List.append_left_eq_self.mp hnil
    rw [List.append_nil]
    exact (ih _ _ _ _ _ hn hfront hatom hatomShape).append attributes

end

theorem readPhrase_leavesInequality (depth : Nat) : ∀ p shape used rest r,
    signAhead inequality rest = true → readPhrase whole grammar depth p shape (used ++ rest) = some r →
    r.rest = rest → p.LeavesInequality used shape r := by
  induction depth with
  | zero => intro p shape used rest r _ h; simp [readPhrase] at h
  | succ depth ih =>
    intro p shape used rest r hn h hrest
    have hs := @readPhrase_suffix whole depth
    have h : (grammar p).run whole (readPhrase whole grammar depth) shape (used ++ rest) = some r := h
    cases p with
    | expression braces =>
      obtain ⟨front, back, first, second, rfl, hfirst, hsecond, -, hfront, hback⟩ :=
        Rule.run_split hs h hrest
      have ho : Precedence.lowest.level < Precedence.compare.level := by decide
      exact endsOpen_of_operand ih ho hn hfront hfirst hback hsecond
    | rangeEnd braces =>
      rcases Rule.run_choose h with h | h
      · obtain rfl := Option.some.inj h
        exact .inl (List.append_left_eq_self.mp hrest)
      · obtain ⟨front, back, first, second, rfl, hfirst, hsecond, -, hfront, hback⟩ :=
          Rule.run_split hs h hrest
        exact .inr (endsOpen_of_operand ih (by decide) hn hfront hfirst hback hsecond)
    | unary braces => exact endsOpen_of_unary ih hn h hrest
    | atom braces => exact endsOpen_of_atom ih hn h hrest
    | operators outer braces => exact fun hshape ho => endsOpen_of_operators ih ho hshape hn h hrest
    | _ => trivial

/-- An expression that leaves an inequality ends in a range without an end. -/
theorem Expression.inFront?_before_inequality {x : Expression} {ts rest : List Token}
    (h : Expression.inFront? whole (ts ++ rest) = some (x, rest))
    (hn : signAhead inequality rest = true) :
    EndsOpen ts := by
  obtain ⟨r, hr, hp⟩ := Option.map_eq_some_iff.mp h
  exact readPhrase_leavesInequality _ _ _ _ _ _ hn hr (Prod.mk.inj hp).2

end FieldKeys
