import FieldKeys.Directive
import FieldKeys.Proofs.Nesting

/-! Arguments end at a comma, at the bracket that closes their list or at the end of the text. A rule
that reads one may look beyond it, but only in ways to which these ends are alike. -/

namespace FieldKeys

/-- What is known of the tokens left in an argument: nothing, that there are some, or that they
close a bracket which is open in front of them. -/
inductive Ending where
  | free
  | filled
  | closed
deriving DecidableEq

def Ending.level : Ending → Nat
  | .free => 0
  | .filled => 1
  | .closed => 2

/-- As many brackets as the number says are open in front, and all of them are closed. -/
def Closes : Nat → List Token → Prop
  | 0, _ => True
  | n + 1, ts => depthAfter? n (ts.map (·.lexeme)) = none

/-- What is known of the tokens left with `n` more brackets open in front. -/
def Ending.Holds (e : Ending) (n : Nat) (ts : List Token) : Prop :=
  match e with
  | .free => Closes n ts
  | .filled => Closes n ts ∧ ts ≠ []
  | .closed => Closes (n + 1) ts

/-- What is known with these brackets seen as the first ones. -/
def Ending.inside (e : Ending) (n : Nat) : Ending :=
  if n = 0 then e else .closed

theorem depthAfter?_eq_none_of_add {n k : Nat} {ls : List Lexeme}
    (h : depthAfter? (n + k) ls = none) : depthAfter? n ls = none := by
  cases hn : depthAfter? n ls with
  | none => rfl
  | some m => simp [depthAfter?_add k hn] at h

theorem Closes.one {n : Nat} {ts : List Token} (h : Closes (n + 1) ts) : Closes 1 ts :=
  depthAfter?_eq_none_of_add (k := n) (by rwa [Nat.zero_add])

theorem Closes.ne_nil {n : Nat} {ts : List Token} (h : Closes (n + 1) ts) : ts ≠ [] := by
  rintro rfl
  simp [Closes, depthAfter?] at h

theorem Closes.append {n m : Nat} {used ts : List Token}
    (hu : depthAfter? n (used.map (·.lexeme)) = some m) (h : Closes m ts) :
    Closes n (used ++ ts) := by
  cases n with
  | zero => trivial
  | succ n =>
    simp only [Closes, List.map_append, depthAfter?_append]
    cases hn : depthAfter? n (used.map (·.lexeme)) with
    | none => rfl
    | some k =>
      -- With one more bracket in front, one more is open after.
      obtain rfl : m = k + 1 := Option.some.inj (hu.symm.trans (depthAfter?_add 1 hn))
      exact h

theorem Ending.Holds.append {e : Ending} {n m : Nat} {used ts : List Token}
    (hu : depthAfter? n (used.map (·.lexeme)) = some m) (h : e.Holds m ts) :
    e.Holds n (used ++ ts) := by
  cases e with
  | free => exact Closes.append hu h
  | filled => exact ⟨Closes.append hu h.1, by simp [h.2]⟩
  | closed => exact Closes.append (depthAfter?_add 1 hu) h

theorem Ending.Holds.inside {e : Ending} {n : Nat} {ts : List Token} (h : e.Holds n ts) :
    (e.inside n).Holds 0 ts := by
  cases n with
  | zero => exact h
  | succ n =>
    cases e with
    | free => exact Closes.one h
    | filled => exact Closes.one h.1
    | closed => exact Closes.one h

theorem Ending.inside_closed {e : Ending} (he : e = .closed) (n : Nat) : e.inside n = .closed := by
  simp [inside, he]

/-- How many tokens answer a test. The end of a group is only looked at. -/
def Test.width : Test → Nat
  | .sign s => s.length
  | .finish => 0
  | _ => 1

def Test.opens : Test → Nat
  | .opening _ | .anyOpening => 1
  | _ => 0

/-- What stands behind an argument. -/
inductive Ends : List Token → Prop
  | nothing : Ends []
  | comma {t : Token} {ts : List Token} (h : isSign ',' t = true) : Ends (t :: ts)
  | closing {t : Token} {ts : List Token} {d : Delimiter} (h : t.lexeme = .closing d) : Ends (t :: ts)

theorem Ends.of_argument {ts : List Token} (h : atArgumentEnd ts = true) : Ends ts := by
  cases ts with
  | nil => exact .nothing
  | cons t ts => exact .comma h

/-- Whether a comma and the end of the text give a test the same answer. -/
def Test.passesEnd : Test → Bool
  | .finish => false
  | .sign s => !s.contains ','
  | _ => true

/-- Whether the answer of a test depends on no token after a comma. -/
def Test.stopsAtComma : Test → Bool
  | .sign s => s == [','] || !s.contains ','
  | _ => true

theorem signAhead_depth {s : Text} {ts : List Token} (h : signAhead s ts = true) (n : Nat) :
    s.length ≤ ts.length ∧ depthAfter? n ((ts.take s.length).map (·.lexeme)) = some n := by
  fun_induction signAhead s ts with
  | case1 => exact ⟨Nat.zero_le _, rfl⟩
  | case2 | case4 | case6 => simp at h
  | case3 c t ts d joint hl => exact ⟨by simp, by simp [depthAfter?, hl, Lexeme.depthAfter?]⟩
  | case5 c s t ts hs d joint hl ih =>
    obtain ⟨hle, hd⟩ := ih (Bool.and_eq_true_iff.mp h).2
    exact ⟨by simpa using hle, by simpa [depthAfter?, hl, Lexeme.depthAfter?] using hd⟩

theorem Test.fits_depth {test : Test} {l : Lexeme} (h : test.fits l = true) (hf : test ≠ .finish)
    (n : Nat) : depthAfter? n [l] = some (n + test.opens) := by
  cases test <;> cases l <;> simp_all [opens, fits, depthAfter?, Lexeme.depthAfter?]

theorem Test.holds_depth {test : Test} {ts : List Token} (h : test.holds ts = true) (n : Nat) :
    test.width ≤ ts.length ∧
      depthAfter? n ((ts.take test.width).map (·.lexeme)) = some (n + test.opens) := by
  cases test with
  | sign s => exact signAhead_depth h n
  | finish => exact ⟨Nat.zero_le _, rfl⟩
  | _ =>
    cases ts with
    | nil => simp [holds] at h
    | cons t ts => exact ⟨by simp [width], fits_depth h (by simp) n⟩

theorem exists_sign {c : Char} {t : Token} (h : isSign c t = true) :
    ∃ joint, t.lexeme = .sign c joint := by
  cases ht : t.lexeme with
  | sign d joint =>
    obtain rfl : d = c := by simpa [isSign, ht] using h
    exact ⟨joint, rfl⟩
  | _ => simp [isSign, ht] at h

theorem Ends.sign {t : Token} {ts : List Token} {c : Char} {joint : Bool} (h : Ends (t :: ts))
    (hl : t.lexeme = .sign c joint) : c = ',' := by
  cases h with
  | comma h => simpa [isSign, hl] using h
  | closing h => simp [hl] at h

theorem signAhead_append_end {s : Text} {ts tail : List Token} (hs : ',' ∉ s)
    (ht : Ends tail) : signAhead s (ts ++ tail) = signAhead s ts := by
  cases tail with
  | nil => rw [List.append_nil]
  | cons t tail =>
    fun_induction signAhead s ts with
    | case1 => rfl
    | case2 c s =>
      have hc : ∀ d joint, t.lexeme = .sign d joint → d ≠ c := by
        rintro d joint hl rfl
        exact hs (ht.sign hl ▸ List.mem_cons_self)
      cases s with
      | nil => cases hl : t.lexeme <;> simp_all [signAhead]
      | cons d s => cases hl : t.lexeme <;> simp_all [signAhead]
    | case5 c s u us hne e joint hu ih =>
      simp [signAhead, hu, ih fun h => hs (List.mem_cons_of_mem _ h)]
    | _ => simp_all [signAhead]

theorem Test.fits_comma {test : Test} {t : Token} (h : isSign ',' t = true) :
    test.fits t.lexeme = false := by
  obtain ⟨joint, hl⟩ := exists_sign h
  rw [hl]
  cases test <;> rfl

/-- A bracket that is closed answers a test as the end of the text does. -/
theorem Test.holds_closing (test : Test) {t : Token} {ts : List Token} {d : Delimiter}
    (h : t.lexeme = .closing d) : test.holds (t :: ts) = test.holds [] := by
  cases test with
  | sign s => rcases s with _ | ⟨c, _ | ⟨e, s⟩⟩ <;> simp [holds, signAhead, h]
  | _ => simp [holds, fits, h]

theorem Test.holds_append {test : Test} {ts tail : List Token} (hs : test.stopsAtComma = true)
    (hp : ts = [] → test.passesEnd = true) (ht : Ends tail) :
    test.holds (ts ++ tail) = test.holds ts := by
  cases ts with
  | nil =>
    cases ht with
    | nothing => rfl
    | closing h => exact test.holds_closing h
    | comma h =>
      have hp := hp rfl
      cases test with
      | finish => simp [passesEnd] at hp
      | sign s => exact @signAhead_append_end s [] _ (by simpa [passesEnd] using hp) (.comma h)
      | _ => exact fits_comma h
  | cons t ts =>
    cases test with
    | sign s =>
      rcases Bool.or_eq_true_iff.mp hs with hs | hs
      · obtain rfl := eq_of_beq hs
        rfl
      · exact signAhead_append_end (by simpa using hs) ht
    | _ => rfl

/-- How many tokens in front are known if a look succeeds. -/
def Look.reach : Look → Nat
  | .ahead skip test => skip + test.width
  | .no _ => 0
  | .both a b => max a.reach b.reach
  | .either a b => min a.reach b.reach

/-- Whether a look has the same answer if nothing follows the argument, of which `n` tokens are
known. -/
def Look.staysIn (e : Ending) : Nat → Look → Bool
  | n, .ahead skip test =>
    decide (skip ≤ n) && test.stopsAtComma &&
      (e == .closed || (e == .filled && skip == 0) || test.passesEnd)
  | n, .no l => l.staysIn e n
  | n, .both a b => a.staysIn e n && b.staysIn e (max n a.reach)
  | n, .either a b => a.staysIn e n && b.staysIn e n

/-- What is known of an argument while one looks at it: so many tokens in front, which close
no bracket that is open before them. -/
structure Ending.Front (e : Ending) (n : Nat) (ts : List Token) : Prop where
  length : n ≤ ts.length
  depth : (depthAfter? 0 ((ts.take n).map (·.lexeme))).isSome = true
  holds : e.Holds 0 ts

theorem Ending.Front.zero {e : Ending} {ts : List Token} (h : e.Holds 0 ts) : e.Front 0 ts :=
  ⟨Nat.zero_le _, rfl, h⟩

theorem Ending.Front.mono {e : Ending} {n k : Nat} {ts : List Token} (h : e.Front n ts)
    (hk : k ≤ n) : e.Front k ts := by
  refine ⟨Nat.le_trans hk h.length, ?_, h.holds⟩
  have hd := h.depth
  rw [← Nat.add_sub_cancel' hk, List.take_add, List.map_append, depthAfter?_append] at hd
  cases hn : depthAfter? 0 ((ts.take k).map (·.lexeme)) with
  | none =>
    rw [hn] at hd
    exact hd
  | some m => rfl

theorem Closes.exists_closing {n : Nat} {ts : List Token} (h : Closes (n + 1) ts) :
    ∃ t ∈ ts, ∃ d, t.lexeme = .closing d := by
  induction ts generalizing n with
  | nil => exact absurd rfl h.ne_nil
  | cons t ts ih =>
    by_cases hc : ∃ d, t.lexeme = .closing d
    · exact ⟨t, List.mem_cons_self, hc⟩
    · have hmore : ∃ k, Closes (k + 1) ts := by
        cases hl : t.lexeme with
        | closing d => exact absurd ⟨d, hl⟩ hc
        | opening d =>
          exact ⟨n + 1, by simpa [Closes, depthAfter?, hl, Lexeme.depthAfter?] using h⟩
        | _ => exact ⟨n, by simpa [Closes, depthAfter?, hl, Lexeme.depthAfter?] using h⟩
      obtain ⟨k, hk⟩ := hmore
      obtain ⟨u, hu, hd⟩ := ih hk
      exact ⟨u, List.mem_cons_of_mem _ hu, hd⟩

/-- A bracket to be closed is not closed by the tokens in front, so it is by those after them. -/
theorem Ending.Front.closes_drop {n : Nat} {ts : List Token} (h : Ending.closed.Front n ts) :
    ∃ k, Closes (k + 1) (ts.drop n) := by
  obtain ⟨m, hm⟩ := Option.isSome_iff_exists.mp h.depth
  have hn : depthAfter? 0 (ts.map (·.lexeme)) = none := h.holds
  rw [← List.take_append_drop n ts, List.map_append, depthAfter?_append, hm] at hn
  exact ⟨m, hn⟩

theorem Ending.Front.drop_ne_nil {e : Ending} {n : Nat} {ts : List Token} (h : e.Front n ts)
    (he : e = .closed ∨ e = .filled ∧ n = 0) : ts.drop n ≠ [] := by
  rcases he with rfl | ⟨rfl, rfl⟩
  · obtain ⟨k, hk⟩ := h.closes_drop
    exact hk.ne_nil
  · exact h.holds.2

/-- No operator reaches beyond a closing bracket. -/
theorem signAhead_append_closing {s : Text} {ts : List Token} (tail : List Token)
    (h : ∃ t ∈ ts, ∃ d, t.lexeme = .closing d) : signAhead s (ts ++ tail) = signAhead s ts := by
  induction s generalizing ts with
  | nil => rfl
  | cons c s ih =>
    obtain ⟨u, hu, d, hd⟩ := h
    cases ts with
    | nil => simp at hu
    | cons t ts =>
      cases s with
      | nil => rfl
      | cons e s =>
        rcases List.mem_cons.mp hu with rfl | hu
        · simp [signAhead, hd]
        · have hh := ih ⟨u, hu, d, hd⟩
          simp only [List.cons_append, signAhead, hh]

theorem Test.holds_append_closed {test : Test} {k : Nat} {ts : List Token} (tail : List Token)
    (h : Closes (k + 1) ts) : test.holds (ts ++ tail) = test.holds ts := by
  cases test with
  | sign s => exact signAhead_append_closing tail h.exists_closing
  | _ =>
    cases ts with
    | nil => exact absurd rfl h.ne_nil
    | cons t ts => rfl

theorem Look.holds_append_of_front {e : Ending} {l : Look} {n : Nat} {ts tail : List Token}
    (h : l.staysIn e n = true) (hf : e.Front n ts) (ht : e = .closed ∨ Ends tail) :
    l.holds (ts ++ tail) = l.holds ts ∧ (l.holds ts = true → e.Front l.reach ts) := by
  induction l generalizing n with
  | ahead skip test =>
    simp only [staysIn, Bool.and_eq_true, decide_eq_true_eq] at h
    obtain ⟨⟨hk, hs⟩, hp⟩ := h
    have hfk := hf.mono hk
    constructor
    · simp only [holds, List.drop_append_of_le_length hfk.length]
      rcases ht with rfl | ht
      · obtain ⟨m, hm⟩ := hfk.closes_drop
        exact Test.holds_append_closed tail hm
      · refine Test.holds_append hs (fun hn => ?_) ht
        by_contra hc
        refine hfk.drop_ne_nil ?_ hn
        simpa [hc] using hp
    · intro hl
      -- The tokens that answer the test come after those that are known.
      obtain ⟨hw, -⟩ := Test.holds_depth hl 0
      refine ⟨?_, ?_, hf.holds⟩
      · have hlen := hfk.length
        rw [List.length_drop] at hw
        simp only [reach]
        omega
      · obtain ⟨m, hm⟩ := Option.isSome_iff_exists.mp hfk.depth
        obtain ⟨-, hd⟩ := Test.holds_depth hl m
        simp only [reach, List.take_add, List.map_append, depthAfter?_append, hm,
          Option.bind_some, hd, Option.isSome_some]
  | no l ih =>
    exact ⟨by simp only [holds, (ih h hf).1], fun _ => .zero hf.holds⟩
  | both a b iha ihb =>
    obtain ⟨ha, hb⟩ := Bool.and_eq_true_iff.mp h
    obtain ⟨hea, hra⟩ := iha ha hf
    cases hva : a.holds ts with
    | false => simp [holds, hea, hva]
    | true =>
      have hmax : e.Front (max n a.reach) ts := by
        rcases Nat.le_total n a.reach with hle | hle
        · rw [Nat.max_eq_right hle]
          exact hra hva
        · rw [Nat.max_eq_left hle]
          exact hf
      obtain ⟨heb, hrb⟩ := ihb hb hmax
      refine ⟨by simp only [holds, hea, heb], fun hl => ?_⟩
      have hvb : b.holds ts = true := by simpa [holds, hva] using hl
      rcases Nat.le_total a.reach b.reach with hle | hle
      · simpa only [reach, Nat.max_eq_right hle] using hrb hvb
      · simpa only [reach, Nat.max_eq_left hle] using hra hva
  | either a b iha ihb =>
    obtain ⟨ha, hb⟩ := Bool.and_eq_true_iff.mp h
    obtain ⟨hea, hra⟩ := iha ha hf
    obtain ⟨heb, hrb⟩ := ihb hb hf
    refine ⟨by simp only [holds, hea, heb], fun hl => ?_⟩
    rcases Bool.or_eq_true_iff.mp hl with hl | hl
    · exact (hra hl).mono (Nat.min_le_left _ _)
    · exact (hrb hl).mono (Nat.min_le_right _ _)

/-- Whether a look depends on nothing after the token in front if that is a comma. -/
def Look.stopsAtComma : Look → Bool
  | .ahead skip test => skip == 0 && test.stopsAtComma
  | .no l => l.stopsAtComma
  | .both a b | .either a b => a.stopsAtComma && b.stopsAtComma

theorem Look.holds_comma {l : Look} {t : Token} {ts : List Token} (h : l.stopsAtComma = true)
    (ht : isSign ',' t = true) :
    l.holds (t :: ts) = l.holds [(Lexeme.sign ',' false).token] := by
  induction l with
  | ahead skip test =>
    obtain ⟨hk, hs⟩ := Bool.and_eq_true_iff.mp h
    obtain rfl : skip = 0 := by simpa using hk
    cases test with
    | sign s =>
      obtain ⟨joint, hl⟩ := exists_sign ht
      rcases Bool.or_eq_true_iff.mp hs with hs | hs
      · obtain rfl := eq_of_beq hs
        simp [holds, Test.holds, signAhead, hl, Lexeme.token]
      · have hh : ',' ∉ s := by simpa using hs
        have ha := @signAhead_append_end s [] (t :: ts) hh (.comma ht)
        have hb := @signAhead_append_end s [] [(Lexeme.sign ',' false).token] hh (.comma rfl)
        simpa [holds, Test.holds] using ha.trans hb.symm
    | _ => exact Test.fits_comma ht
  | no l ih => simp only [holds, ih h]
  | both a b iha ihb | either a b iha ihb =>
    obtain ⟨ha, hb⟩ := Bool.and_eq_true_iff.mp h
    simp only [holds, iha ha, ihb hb]

theorem Look.holds_closing {l : Look} {t : Token} {ts : List Token} {d : Delimiter}
    (h : l.stopsAtComma = true) (ht : t.lexeme = .closing d) : l.holds (t :: ts) = l.holds [] := by
  induction l with
  | ahead skip test =>
    obtain ⟨hk, -⟩ := Bool.and_eq_true_iff.mp h
    obtain rfl : skip = 0 := by simpa using hk
    exact test.holds_closing ht
  | no l ih => simp only [holds, ih h]
  | both a b iha ihb | either a b iha ihb =>
    obtain ⟨ha, hb⟩ := Bool.and_eq_true_iff.mp h
    simp only [holds, iha ha, ihb hb]

/-- Whether a look has the same answer if nothing follows the argument. Where nothing is known of
what is left of it, a comma and the end of the text may count as the same by being asked for both. -/
def Look.settled (e : Ending) (l : Look) : Bool :=
  l.staysIn e 0 || (e == .free && l.stopsAtComma && l.staysIn .filled 0 &&
    l.holds [] == l.holds [(Lexeme.sign ',' false).token])

theorem Look.holds_append {e : Ending} {l : Look} {ts tail : List Token}
    (h : l.settled e = true) (he : e.Holds 0 ts) (ht : e = .closed ∨ Ends tail) :
    l.holds (ts ++ tail) = l.holds ts := by
  rcases Bool.or_eq_true_iff.mp h with h | h
  · exact (holds_append_of_front h (.zero he) ht).1
  · simp only [Bool.and_eq_true, beq_iff_eq] at h
    obtain ⟨⟨⟨rfl, hc⟩, hs⟩, heq⟩ := h
    have ht : Ends tail := ht.resolve_left (by simp)
    cases ts with
    | nil =>
      cases ht with
      | nothing => rfl
      | comma h => exact (holds_comma hc h).trans heq.symm
      | closing h => exact holds_closing hc h
    | cons t ts =>
      have hf : Ending.filled.Holds 0 (t :: ts) := ⟨he, List.cons_ne_nil _ _⟩
      exact (holds_append_of_front hs (.zero hf) (.inr ht)).1

end FieldKeys
