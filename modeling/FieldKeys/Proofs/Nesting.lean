import FieldKeys.Token
import Mathlib.Data.List.Basic

/-! Brackets and arrows in lists of lexemes: how many brackets are open, and whether an arrow
stands outside all of them. Lists that end in no joint sign can be put together part by part. -/

namespace FieldKeys

/-- How many brackets are open after a lexeme, unless it closes one that is not open. -/
def Lexeme.depthAfter? : Lexeme → Nat → Option Nat
  | .opening _, n => some (n + 1)
  | .closing _, 0 => none
  | .closing _, n + 1 => some n
  | _, n => some n

def depthAfter? : Nat → List Lexeme → Option Nat
  | n, [] => some n
  | n, l :: ls => (l.depthAfter? n).bind (depthAfter? · ls)

def isArrow : Lexeme → Lexeme → Bool
  | .sign '=' true, .sign '>' _ => true
  | _, _ => false

def arrowAhead : List Lexeme → Bool
  | l :: k :: _ => isArrow l k
  | _ => false

/-- Whether no arrow stands outside all brackets, of which `n` are open in front. -/
def arrowless : Nat → List Lexeme → Bool
  | _, [] => true
  | n, l :: ls => !(n == 0 && arrowAhead (l :: ls)) && arrowless ((l.depthAfter? n).getD 0) ls

theorem depthAfter?_append (n : Nat) (a b : List Lexeme) :
    depthAfter? n (a ++ b) = (depthAfter? n a).bind (depthAfter? · b) := by
  induction a generalizing n with
  | nil => rfl
  | cons l a ih =>
    cases hl : l.depthAfter? n with
    | none => simp [depthAfter?, hl]
    | some m => simpa [depthAfter?, hl] using ih m

theorem Lexeme.depthAfter?_add {l : Lexeme} {n m : Nat} (k : Nat) (h : l.depthAfter? n = some m) :
    l.depthAfter? (n + k) = some (m + k) := by
  cases l with
  | opening d =>
    obtain rfl : n + 1 = m := by simpa [depthAfter?] using h
    simp [depthAfter?, Nat.add_right_comm]
  | closing d =>
    cases n with
    | zero => simp [depthAfter?] at h
    | succ n =>
      obtain rfl : n = m := by simpa [depthAfter?] using h
      simp [depthAfter?, Nat.add_right_comm]
  | _ =>
    obtain rfl : n = m := by simpa [depthAfter?] using h
    rfl

theorem depthAfter?_cons {n m : Nat} {l : Lexeme} {ls : List Lexeme}
    (h : depthAfter? n (l :: ls) = some m) :
    ∃ k, l.depthAfter? n = some k ∧ depthAfter? k ls = some m :=
  Option.bind_eq_some_iff.mp h

theorem depthAfter?_of_cons {n k m : Nat} {l : Lexeme} {ls : List Lexeme}
    (hl : l.depthAfter? n = some k) (h : depthAfter? k ls = some m) :
    depthAfter? n (l :: ls) = some m :=
  Option.bind_eq_some_iff.mpr ⟨k, hl, h⟩

theorem depthAfter?_add {n m : Nat} {ls : List Lexeme} (k : Nat) (h : depthAfter? n ls = some m) :
    depthAfter? (n + k) ls = some (m + k) := by
  induction ls generalizing n with
  | nil =>
    obtain rfl := Option.some.inj h
    rfl
  | cons l ls ih =>
    obtain ⟨j, hl, hh⟩ := depthAfter?_cons h
    simp [depthAfter?, Lexeme.depthAfter?_add k hl, ih hh]

/-- Inside a bracket that stays open any arrow may stand. -/
theorem arrowless_inside {n m : Nat} {ls : List Lexeme} (b : List Lexeme)
    (h : depthAfter? n ls = some m) : arrowless (n + 1) (ls ++ b) = arrowless (m + 1) b := by
  induction ls generalizing n with
  | nil =>
    obtain rfl := Option.some.inj h
    rfl
  | cons l ls ih =>
    obtain ⟨k, hl, hh⟩ := depthAfter?_cons h
    simpa [arrowless, Lexeme.depthAfter?_add 1 hl] using ih hh

/-- No joint sign stands at the end. -/
def EndsApart (ls : List Lexeme) : Prop :=
  ∀ c, ls.getLast? ≠ some (.sign c true)

theorem isArrow_apart {l : Lexeme} (h : ∀ c, l ≠ .sign c true) (k : Lexeme) :
    isArrow l k = false := by
  unfold isArrow
  split
  · exact absurd rfl (h '=')
  · rfl

theorem arrowAhead_append {l : Lexeme} {ls : List Lexeme} (b : List Lexeme)
    (h : EndsApart (l :: ls)) : arrowAhead (l :: ls ++ b) = arrowAhead (l :: ls) := by
  cases ls with
  | cons k ls => rfl
  | nil =>
    have hl : ∀ c, l ≠ .sign c true := fun c hc => h c (by simp [hc])
    cases b with
    | nil => rfl
    | cons k b => exact isArrow_apart hl k

theorem EndsApart.of_cons {l k : Lexeme} {ls : List Lexeme} (h : EndsApart (l :: k :: ls)) :
    EndsApart (k :: ls) := by
  intro c hc
  exact h c (by simpa using hc)

theorem arrowless_append {n m : Nat} {a : List Lexeme} (b : List Lexeme)
    (h : depthAfter? n a = some m) (he : EndsApart a) :
    arrowless n (a ++ b) = (arrowless n a && arrowless m b) := by
  induction a generalizing n with
  | nil =>
    obtain rfl := Option.some.inj h
    simp [arrowless]
  | cons l a ih =>
    obtain ⟨k, hl, hh⟩ := depthAfter?_cons h
    have hi : arrowless k (a ++ b) = (arrowless k a && arrowless m b) := by
      cases a with
      | nil =>
        obtain rfl := Option.some.inj hh
        simp [arrowless]
      | cons l' a => exact ih hh he.of_cons
    have ha := arrowAhead_append b he
    rw [List.cons_append] at ha ⊢
    simp only [arrowless, hl, Option.getD_some, hi, ha, Bool.and_assoc]

/-- Lexemes that lead from `n` open brackets to `m` and end in no joint sign; if `strict`, no
arrow in them stands outside all brackets. -/
structure Neat (strict : Bool) (n m : Nat) (ls : List Lexeme) : Prop where
  depth : depthAfter? n ls = some m
  apart : EndsApart ls
  arrow : strict = true → arrowless n ls = true

theorem Neat.nil (strict : Bool) (n : Nat) : Neat strict n n [] :=
  ⟨rfl, by simp [EndsApart], fun _ => rfl⟩

theorem Neat.append {strict : Bool} {n m k : Nat} {a b : List Lexeme} (ha : Neat strict n m a)
    (hb : Neat strict m k b) : Neat strict n k (a ++ b) := by
  refine ⟨?_, ?_, fun hs => ?_⟩
  · simp [depthAfter?_append, ha.depth, hb.depth]
  · intro c hc
    rw [List.getLast?_append] at hc
    cases hl : b.getLast? with
    | none =>
      rw [hl, Option.none_or] at hc
      exact ha.apart c hc
    | some l =>
      rw [hl, Option.some_or] at hc
      exact hb.apart c (hl.trans hc)
  · rw [arrowless_append b ha.depth ha.apart, ha.arrow hs, hb.arrow hs]
    rfl

/-- What is neat outside all brackets is neat at any depth. -/
theorem Neat.lift {strict strict' : Bool} {ls : List Lexeme} (h : Neat strict 0 0 ls) (n : Nat)
    (hs : n = 0 → strict' = true → strict = true) : Neat strict' n n ls := by
  refine ⟨?_, h.apart, fun hs' => ?_⟩
  · simpa using depthAfter?_add n h.depth
  · cases n with
    | zero => exact h.arrow (hs rfl hs')
    | succ n =>
      have hd := depthAfter?_add n h.depth
      have hh := arrowless_inside [] hd
      rwa [Nat.zero_add, List.append_nil] at hh

end FieldKeys
