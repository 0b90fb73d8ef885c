import FieldKeys.Proofs.Text.Seam

/-! Numbers. Whether a point or an exponent belongs to a number depends on what comes after it, so a
number may take more from a text that ends earlier. But then the text ends in that point, or in that
exponent before its digits. -/

namespace FieldKeys

theorem continuesWord_of_digit {c : Char} (h : isDigitOrUnderscore c = true) :
    continuesWord c = true := by
  unfold isDigitOrUnderscore at h
  rcases Bool.or_eq_true_iff.mp h with hd | hu
  · have hlt : c.toNat < 128 := by
      simp only [isDigit, Bool.and_eq_true, decide_eq_true_eq] at hd
      omega
    simp [continuesWord, hlt, hd]
  · obtain rfl : c = '_' := by simpa using hu
    decide

theorem startsWord_of_exponent {c : Char} (h : isExponentMark c = true) : startsWord c = true := by
  have hc : c = 'e' ∨ c = 'E' := by simpa [isExponentMark] using h
  rcases hc with rfl | rfl <;> decide

theorem digit_of_digitOrUnderscore {c : Char} (h : isDigitOrUnderscore c = true)
    (hs : startsWord c = false) : isDigit c = true := by
  unfold isDigitOrUnderscore at h
  rcases Bool.or_eq_true_iff.mp h with hd | hu
  · exact hd
  · obtain rfl : c = '_' := by simpa using hu
    simp [show startsWord '_' = true by decide] at hs

theorem dropWhile_of_head {p : Char → Bool} {u : Text} (h : u.head?.any p = false) :
    u.dropWhile p = u := by
  cases u with
  | nil => rfl
  | cons c u => exact List.dropWhile_cons_of_neg (by simpa using h)

theorem dropWhile_append_cons {p : Char → Bool} {t r : Text} {c : Char}
    (h : t.dropWhile p = c :: r) (u : Text) : (t ++ u).dropWhile p = c :: (r ++ u) := by
  simp [List.dropWhile_append, h]

theorem all_of_dropWhile_nil {p : Char → Bool} {t : Text} (h : t.dropWhile p = []) :
    ∀ c ∈ t, p c = true :=
  List.dropWhile_eq_nil_iff.mp h

theorem dropWhile_append_all {p : Char → Bool} {t u : Text} (h : t.dropWhile p = [])
    (hu : u.head?.any p = false) : (t ++ u).dropWhile p = u := by
  rw [List.dropWhile_append_of_pos (all_of_dropWhile_nil h), dropWhile_of_head hu]

theorem afterSuffix_of_head {u : Text} (h : u.head?.any continuesWord = false) :
    afterSuffix u = u := by
  have hn := afterWord?_eq_none_iff.mpr
    (any_of_not_continues h fun c hc => continuesWord_of_startsWord hc)
  simp [afterSuffix, hn]

theorem atWordEnd_iff {u : Text} : atWordEnd u = true ↔ u.head?.any continuesWord = false := by
  cases u <;> simp [atWordEnd]

theorem endNumber?_of_head {u : Text} (h : u.head?.any continuesWord = false) :
    endNumber? (some u) = some u := by
  simp [endNumber?, afterSuffix_of_head h, atWordEnd_iff.mpr h]

/-- Whether a number can end depends on the first character after it alone. -/
theorem endNumber?_append {v : Text} (h : (endNumber? (some v)).isSome = true) (hv : v ≠ [])
    (u : Text) : (endNumber? (some (v ++ u))).isSome = true := by
  obtain ⟨c, r, rfl⟩ := List.exists_cons_of_ne_nil hv
  cases hs : startsWord c with
  | true =>
    -- The suffix takes the whole word.
    have hend : atWordEnd ((r ++ u).dropWhile continuesWord) = true := by
      cases hd : (r ++ u).dropWhile continuesWord with
      | nil => rfl
      | cons d w => simp [atWordEnd, dropWhile_head hd]
    simp [endNumber?, afterSuffix, afterWord?, hs, hend]
  | false =>
    simp [endNumber?, afterSuffix, afterWord?, hs, atWordEnd] at h
    simp [endNumber?, afterSuffix, afterWord?, hs, atWordEnd, h]

def stripSign : Text → Text
  | '+' :: r | '-' :: r => r
  | t => t

/-- What follows digits in front. -/
def afterRun? : Text → Option Text
  | c :: r => if isDigit c then some ((c :: r).dropWhile isDigitOrUnderscore) else none
  | [] => none

theorem afterExponent?_eq (t : Text) :
    afterExponent? t = afterRun? ((stripSign (t.dropWhile (· == '_'))).dropWhile (· == '_')) := by
  have hrun : ∀ r : Text, afterRun? r = match r with
      | c :: _ => if isDigit c then some (r.dropWhile isDigitOrUnderscore) else none
      | [] => none := by
    intro r
    cases r <;> rfl
  have hstrip : ∀ r : Text, stripSign r = match r with
      | '+' :: r | '-' :: r => r
      | _ => r := by
    intro r
    unfold stripSign
    split <;> rfl
  rw [hrun]
  simp only [hstrip]
  rfl

theorem stripSign_append {t : Text} (h : t ≠ []) (u : Text) :
    stripSign (t ++ u) = stripSign t ++ u := by
  obtain ⟨c, r, rfl⟩ := List.exists_cons_of_ne_nil h
  unfold stripSign
  split <;> simp_all

theorem stripSign_suffix (t : Text) : stripSign t <:+ t := by
  unfold stripSign
  split
  · exact List.suffix_cons _ _
  · exact List.suffix_cons _ _
  · exact List.suffix_rfl

theorem stripSign_locally : TakesLocally fun t => some (stripSign t) := by
  intro t v h
  obtain rfl := Option.some.inj h
  unfold stripSign
  split
  · next r => exact ⟨['+'], rfl, fun y u _ => rfl⟩
  · next r => exact ⟨['-'], rfl, fun y u _ => rfl⟩
  · next hp hm =>
    refine ⟨[], rfl, fun y u hy => congrArg some ?_⟩
    rw [List.nil_append]
    split
    · next r => exact absurd hy (hp (r ++ u))
    · next r => exact absurd hy (hm (r ++ u))
    · rfl

theorem afterRun?_locally : TakesLocally afterRun? := by
  intro t v h
  unfold afterRun? at h
  split at h
  · next c r =>
    split at h
    · next hc =>
      obtain ⟨x, hx, hnear⟩ := dropWhile_locally isDigitOrUnderscore h
      cases x with
      | nil =>
        have hd : isDigitOrUnderscore c = false :=
          dropWhile_head ((Option.some.inj h).trans hx.symm)
        simp [isDigitOrUnderscore, hc] at hd
      | cons d x =>
        obtain ⟨rfl, rfl⟩ := List.cons.inj hx
        refine ⟨c :: x, rfl, fun y u hy => ?_⟩
        have hh := hnear y u hy
        simpa [afterRun?, hc] using hh
    · simp at h
  · simp at h

theorem afterExponent?_locally : TakesLocally afterExponent? := by
  have hu := dropWhile_locally (· == '_')
  rw [funext afterExponent?_eq]
  exact ((hu.bind stripSign_locally).bind hu).bind afterRun?_locally

/-- The digits of an exponent, after underscores and a sign. -/
theorem exists_run {q v : Text} (h : afterExponent? q = some v) :
    ∃ c r, (stripSign (q.dropWhile (· == '_'))).dropWhile (· == '_') = c :: r ∧ isDigit c = true ∧
      v = (c :: r).dropWhile isDigitOrUnderscore := by
  rw [afterExponent?_eq] at h
  unfold afterRun? at h
  split at h
  · next c r hr =>
    split at h
    · next hc => exact ⟨c, r, hr, hc, (Option.some.inj h).symm⟩
    · simp at h
  · simp at h

theorem run_append {q r : Text} {c : Char}
    (h : (stripSign (q.dropWhile (· == '_'))).dropWhile (· == '_') = c :: r) (u : Text) :
    (stripSign ((q ++ u).dropWhile (· == '_'))).dropWhile (· == '_') = c :: (r ++ u) := by
  cases hq : q.dropWhile (· == '_') with
  | nil => simp [hq, stripSign] at h
  | cons d w =>
    rw [hq] at h
    rw [dropWhile_append_cons hq, ← List.cons_append, stripSign_append (by simp)]
    exact dropWhile_append_cons h u

theorem afterExponent?_append {q v u : Text} (h : afterExponent? q = some v)
    (hu : v ≠ [] ∨ u.head?.any isDigitOrUnderscore = false) :
    afterExponent? (q ++ u) = some (v ++ u) := by
  obtain ⟨c, r, hr, hc, rfl⟩ := exists_run h
  rw [afterExponent?_eq, run_append hr]
  simp only [afterRun?, hc, if_true, ← List.cons_append, Option.some.injEq]
  cases hv : (c :: r).dropWhile isDigitOrUnderscore with
  | cons d w => exact dropWhile_append_cons hv u
  | nil => exact dropWhile_append_all hv (hu.resolve_left (by simp [hv]))

theorem afterExponent?_isSome_append {q : Text} (h : (afterExponent? q).isSome = true) (u : Text) :
    (afterExponent? (q ++ u)).isSome = true := by
  obtain ⟨v, hv⟩ := Option.isSome_iff_exists.mp h
  obtain ⟨c, r, hr, hc, -⟩ := exists_run hv
  rw [afterExponent?_eq, run_append hr]
  simp [afterRun?, hc]

/-- What is no exponent but begins one ends before the first digit. -/
theorem exists_openExponent {q u : Text} (h : afterExponent? q = none)
    (hf : (afterExponent? (q ++ u)).isSome = true) (hu : Seam q u) :
    ∃ w sign, q = w ++ sign ∧ (∀ c ∈ w, c = '_') ∧ (sign = [] ∨ sign = ['+'] ∨ sign = ['-']) := by
  cases hq : q.dropWhile (· == '_') with
  | nil =>
    exact ⟨q, [], by simp, fun c hc => by simpa using all_of_dropWhile_nil hq c hc, .inl rfl⟩
  | cons c r =>
    obtain ⟨v, hv⟩ := Option.isSome_iff_exists.mp hf
    obtain ⟨d, w, hd, hdigit, -⟩ := exists_run hv
    rw [dropWhile_append_cons hq, ← List.cons_append, stripSign_append (by simp)] at hd
    cases hs : (stripSign (c :: r)).dropWhile (· == '_') with
    | cons e w' =>
      -- The first digit is there already.
      rw [dropWhile_append_cons hs] at hd
      obtain ⟨rfl, -⟩ := List.cons.inj hd
      simp [afterExponent?_eq, hq, hs, afterRun?, hdigit] at h
    | nil =>
      have hall := all_of_dropWhile_nil hs
      have hsign : c = '+' ∨ c = '-' := by
        by_contra hn
        obtain ⟨hp, hm⟩ := not_or.mp hn
        have hc := dropWhile_head hq
        have hstrip : stripSign (c :: r) = c :: r := by
          unfold stripSign
          split <;> simp_all
        rw [hstrip] at hall
        simp [hall c (by simp)] at hc
      have hr : stripSign (c :: r) = r := by rcases hsign with rfl | rfl <;> rfl
      rw [hr] at hs hall hd
      have hfront : q = q.takeWhile (· == '_') ++ c :: r := by
        rw [← hq, List.takeWhile_append_dropWhile]
      rcases List.eq_nil_or_concat r with rfl | ⟨r', e, rfl⟩
      · refine ⟨q.takeWhile (· == '_'), [c], hfront, fun x hx => ?_, ?_⟩
        · simpa using List.mem_takeWhile_imp hx
        · rcases hsign with rfl | rfl <;> simp
      · -- After underscores no digit can follow.
        have he : e = '_' := by simpa using hall e (by simp)
        have hlast : q.getLast? = some e := by
          rw [hfront, List.concat_eq_append, ← List.cons_append, ← List.append_assoc,
            List.getLast?_concat]
        have hh := hu e hlast (by rw [he]; decide)
        have hnot : u.head?.any (· == '_') = false :=
          any_of_not_continues hh fun x hx => by
            obtain rfl : x = '_' := by simpa using hx
            decide
        rw [dropWhile_append_all hs hnot] at hd
        rw [hd] at hh
        have hc := continuesWord_of_digit (c := d) (by simp [isDigitOrUnderscore, hdigit])
        simp [hc] at hh

/-- What follows the exponent in front, if there is one. -/
def afterScale? : Text → Option Text
  | c :: x => if isExponentMark c then some ((afterExponent? x).getD (c :: x)) else some (c :: x)
  | [] => some []

/-- A point before such a character is none of a number. -/
def claimsPoint (c : Char) : Bool := c == '.' || startsWord c

theorem afterFloatDigits?_point {t r : Text} (h : t.dropWhile isDigitOrUnderscore = '.' :: r) :
    afterFloatDigits? t = if r.head?.any claimsPoint then none
      else afterScale? (r.dropWhile isDigitOrUnderscore) := by
  unfold afterFloatDigits?
  rw [h]
  rfl

theorem afterFloatDigits?_scale {t x : Text} {c : Char}
    (h : t.dropWhile isDigitOrUnderscore = c :: x) (hc : c ≠ '.') :
    afterFloatDigits? t = if isExponentMark c then afterExponent? x else none := by
  unfold afterFloatDigits?
  rw [h]
  split
  · next r he => exact absurd (List.cons.inj he).1 hc
  · next d y hne he =>
    obtain ⟨rfl, rfl⟩ := List.cons.inj he
    rfl
  · next he => simp at he

theorem exists_float {t v : Text} (h : afterFloatDigits? t = some v) :
    (∃ r, t.dropWhile isDigitOrUnderscore = '.' :: r ∧ r.head?.any claimsPoint = false ∧
      afterScale? (r.dropWhile isDigitOrUnderscore) = some v) ∨
    ∃ c x, t.dropWhile isDigitOrUnderscore = c :: x ∧ c ≠ '.' ∧ isExponentMark c = true ∧
      afterExponent? x = some v := by
  cases hd : t.dropWhile isDigitOrUnderscore with
  | nil => simp [afterFloatDigits?, hd] at h
  | cons c x =>
    by_cases hc : c = '.'
    · subst hc
      rw [afterFloatDigits?_point hd] at h
      split at h
      · simp at h
      · next hp => exact .inl ⟨x, rfl, by simpa using hp, h⟩
    · rw [afterFloatDigits?_scale hd hc] at h
      split at h
      · next hm => exact .inr ⟨c, x, rfl, hc, hm, h⟩
      · simp at h

theorem afterScale?_locally : TakesLocally afterScale? := by
  intro t v h
  cases t with
  | nil =>
    obtain rfl := Option.some.inj h
    refine ⟨[], rfl, fun y u hy => ?_⟩
    obtain ⟨rfl, rfl⟩ := List.append_eq_nil_iff.mp hy.symm
    rfl
  | cons c x =>
    simp only [afterScale?] at h
    split at h
    · next hm =>
      cases hx : afterExponent? x with
      | some v' =>
        obtain rfl : v' = v := by simpa [hx] using h
        obtain ⟨z, rfl, hz⟩ := afterExponent?_locally hx
        refine ⟨c :: z, rfl, fun y u hy => ?_⟩
        simp [afterScale?, hm, hz y u hy]
      | none =>
        obtain rfl : c :: x = v := by simpa [hx] using h
        refine ⟨[], rfl, fun y u hy => ?_⟩
        cases y with
        | nil => rfl
        | cons d y =>
          obtain ⟨rfl, rfl⟩ := List.cons.inj hy
          have hy : afterExponent? y = none := by
            by_contra hn
            have hs := afterExponent?_isSome_append (Option.isSome_iff_ne_none.mpr hn) u
            simp only [List.append_eq] at hx
            simp [hx] at hs
          simp [afterScale?, hm, hy]
    · next hm =>
      obtain rfl := Option.some.inj h
      refine ⟨[], rfl, fun y u hy => ?_⟩
      cases y with
      | nil => rfl
      | cons d y =>
        obtain ⟨rfl, -⟩ := List.cons.inj hy
        simp [afterScale?, hm]

theorem takeWhile_dropWhile {p : Char → Bool} {t r : Text} (h : t.dropWhile p = r) :
    ∃ x, t = x ++ r ∧ ∀ c ∈ x, p c = true :=
  ⟨t.takeWhile p, by rw [← h, List.takeWhile_append_dropWhile],
    fun _ hc => List.mem_takeWhile_imp hc⟩

theorem dropWhile_all_append {p : Char → Bool} {x r : Text} {c : Char}
    (h : ∀ d ∈ x, p d = true) (hc : p c = false) : (x ++ c :: r).dropWhile p = c :: r := by
  rw [List.dropWhile_append_of_pos h, List.dropWhile_cons_of_neg (by simp [hc])]

theorem afterFloatDigits?_locally : TakesLocally afterFloatDigits? := by
  intro t v h
  rcases exists_float h with ⟨r, hd, hp, hs⟩ | ⟨c, x, hd, hc, hm, hx⟩
  · obtain ⟨x, rfl, hx⟩ := takeWhile_dropWhile hd
    have hscale := (dropWhile_locally isDigitOrUnderscore).bind afterScale?_locally
    obtain ⟨z, rfl, hz⟩ := hscale hs
    refine ⟨x ++ '.' :: z, by simp, ?_⟩
    rintro y u rfl
    have hnear : (x ++ '.' :: z ++ y).dropWhile isDigitOrUnderscore = '.' :: (z ++ y) := by
      rw [List.append_assoc]
      exact dropWhile_all_append hx (by decide)
    have hhead : (z ++ y).head?.any claimsPoint = false := by
      cases hzy : z ++ y with
      | nil => rfl
      | cons d w => rwa [← List.append_assoc, hzy] at hp
    rw [afterFloatDigits?_point hnear, if_neg (Bool.eq_false_iff.mp hhead)]
    exact hz y u rfl
  · obtain ⟨w, rfl, hw⟩ := takeWhile_dropWhile hd
    obtain ⟨z, rfl, hz⟩ := afterExponent?_locally hx
    refine ⟨w ++ c :: z, by simp, fun y u hy => ?_⟩
    have hnear : (w ++ c :: z ++ y).dropWhile isDigitOrUnderscore = c :: (z ++ y) := by
      rw [List.append_assoc]
      exact dropWhile_all_append hw (dropWhile_head hd)
    rw [afterFloatDigits?_scale hnear hc, if_pos hm]
    exact hz y u hy

theorem takeWhile_eq_of_dropWhile {p : Char → Bool} {x y : Text}
    (h : (x ++ y).dropWhile p = y) : (x ++ y).takeWhile p = x := by
  have hh : (x ++ y).takeWhile p ++ (x ++ y).dropWhile p = x ++ y :=
    List.takeWhile_append_dropWhile
  rw [h] at hh
  exact List.append_cancel_right hh

theorem afterDigits?_locally (base : Nat) : TakesLocally (afterDigits? base) := by
  intro t v h
  simp only [afterDigits?] at h
  split at h
  · simp at h
  · next hd =>
    obtain ⟨x, rfl, hnear⟩ := dropWhile_locally _ h
    rw [takeWhile_eq_of_dropWhile (Option.some.inj h)] at hd
    refine ⟨x, rfl, fun y u hy => ?_⟩
    have hh := Option.some.inj (hnear y u hy)
    simp only [afterDigits?, takeWhile_eq_of_dropWhile hh, if_neg hd, hh]

theorem afterDigits?_front {base : Nat} {x v : Text}
    (h : afterDigits? base (x ++ v) = some v) : x ≠ [] := by
  rintro rfl
  simp only [afterDigits?, List.nil_append] at h
  split at h
  · simp at h
  · next hd =>
    have hh := takeWhile_eq_of_dropWhile (x := []) (Option.some.inj h)
    rw [List.nil_append] at hh
    simp [hh] at hd

theorem afterIntegerDigits?_decimal {t : Text} (hd : t.head?.any isDigit = true)
    (hx : ∀ r, t ≠ '0' :: 'x' :: r) (ho : ∀ r, t ≠ '0' :: 'o' :: r) (hb : ∀ r, t ≠ '0' :: 'b' :: r) :
    afterIntegerDigits? t = afterDigits? 10 t := by
  unfold afterIntegerDigits?
  split
  · exact absurd rfl (hx _)
  · exact absurd rfl (ho _)
  · exact absurd rfl (hb _)
  · rw [if_pos hd]

theorem afterIntegerDigits?_locally : TakesLocally afterIntegerDigits? := by
  intro t v h
  unfold afterIntegerDigits? at h
  split at h
  · next r =>
    obtain ⟨x, rfl, hx⟩ := afterDigits?_locally 16 h
    exact ⟨'0' :: 'x' :: x, rfl, hx⟩
  · next r =>
    obtain ⟨x, rfl, hx⟩ := afterDigits?_locally 8 h
    exact ⟨'0' :: 'o' :: x, rfl, hx⟩
  · next r =>
    obtain ⟨x, rfl, hx⟩ := afterDigits?_locally 2 h
    exact ⟨'0' :: 'b' :: x, rfl, hx⟩
  · next h16 h8 h2 =>
    split at h
    · next hd =>
      obtain ⟨x, rfl, hx⟩ := afterDigits?_locally 10 h
      refine ⟨x, rfl, ?_⟩
      rintro y u rfl
      obtain ⟨c, x, rfl⟩ := List.exists_cons_of_ne_nil (afterDigits?_front h)
      have hfar : ∀ {a : Text}, c :: x ++ y = a → c :: x ++ (y ++ u) = a ++ u := by
        rintro a rfl
        rw [List.append_assoc]
      have hd : (c :: x ++ y).head?.any isDigit = true := hd
      rw [afterIntegerDigits?_decimal hd (fun r he => h16 _ (hfar he))
        (fun r he => h8 _ (hfar he)) (fun r he => h2 _ (hfar he))]
      exact hx y u rfl
    · simp at h

/-- A text that ends here if no word goes on. -/
def ifWordEnd? (t : Text) : Option Text :=
  if atWordEnd t then some t else none

theorem ifWordEnd?_locally : TakesLocally ifWordEnd? := by
  intro t v h
  unfold ifWordEnd? at h
  split at h
  · next he =>
    obtain rfl := Option.some.inj h
    refine ⟨[], rfl, ?_⟩
    rintro y u rfl
    have hy : atWordEnd y = true := by
      cases y with
      | nil => rfl
      | cons c y => exact he
    simp [ifWordEnd?, hy]
  · simp at h

theorem endNumber?_locally {read : Text → Option Text} (h : TakesLocally read) :
    TakesLocally fun t => endNumber? (read t) :=
  (h.map afterSuffix_locally).bind ifWordEnd?_locally

/-- A text that may be part of a number where it ends: a point, or a point with digits, an exponent
and perhaps its sign. -/
def CutNumber (y : Text) : Prop :=
  ∃ w sign, y = '.' :: (w ++ sign) ∧ (w = [] ∧ sign = [] ∨
    w.head?.any isDigit = true ∧ (∀ c ∈ w, continuesWord c = true) ∧ (∃ c ∈ w, isExponentMark c = true) ∧
      (sign = [] ∨ sign = ['+'] ∨ sign = ['-']))

theorem run_suffix {q r : Text} {c : Char}
    (h : (stripSign (q.dropWhile (· == '_'))).dropWhile (· == '_') = c :: r) : c :: r <:+ q := by
  rw [← h]
  exact (List.dropWhile_suffix _).trans ((stripSign_suffix _).trans (List.dropWhile_suffix _))

/-- An exponent is read of a longer text too, and the number can end after it. -/
theorem exists_exponent {q v u : Text} (h : afterExponent? q = some v)
    (he : (endNumber? (some v)).isSome = true) (hu : Seam q u) :
    ∃ v', afterExponent? (q ++ u) = some v' ∧ (endNumber? (some v')).isSome = true := by
  cases v with
  | cons c v => exact ⟨_, afterExponent?_append h (.inl (by simp)), endNumber?_append he (by simp) u⟩
  | nil =>
    -- The text ends in a digit, so that no word goes on after it.
    obtain ⟨c, r, hr, hc, hnil⟩ := exists_run h
    have hhead := (hu.of_suffix (run_suffix hr)).of_all (by simp) fun d hd =>
      continuesWord_of_digit (all_of_dropWhile_nil hnil.symm d hd)
    have hnot := any_of_not_continues hhead fun d hd => continuesWord_of_digit hd
    refine ⟨u, afterExponent?_append h (.inr hnot), ?_⟩
    rw [endNumber?_of_head hhead]
    rfl

theorem afterScale?_of_head {u : Text} (h : u.head?.any continuesWord = false) :
    afterScale? u = some u := by
  have hnot := any_of_not_continues h (p := isExponentMark) fun c hc =>
    continuesWord_of_startsWord (startsWord_of_exponent hc)
  cases u with
  | nil => rfl
  | cons c u =>
    have hc : isExponentMark c = false := hnot
    simp [afterScale?, hc]

/-- Behind a point, an exponent whose digits stand only behind the end of the text. -/
theorem cutNumber_of_exponent {x q u : Text} {c : Char}
    (hp : (x ++ c :: q).head?.any claimsPoint = false)
    (hx : ∀ d ∈ x, isDigitOrUnderscore d = true) (hm : isExponentMark c = true)
    (hexp : afterExponent? q = none) (hfar : (afterExponent? (q ++ u)).isSome = true)
    (hq : Seam q u) : CutNumber ('.' :: (x ++ c :: q)) := by
  obtain ⟨w, sign, rfl, hw, hsign⟩ := exists_openExponent hexp hfar hq
  refine ⟨x ++ c :: w, sign, by simp, .inr ⟨?_, ?_, ⟨c, by simp, hm⟩, hsign⟩⟩
  · cases x with
    | nil => simp [claimsPoint, startsWord_of_exponent hm] at hp
    | cons d x =>
      have hd : startsWord d = false := by
        simp only [List.cons_append, List.head?_cons, Option.any_some, claimsPoint,
          Bool.or_eq_false_iff] at hp
        exact hp.2
      exact digit_of_digitOrUnderscore (hx d (by simp)) hd
  · intro d hd
    rcases List.mem_append.mp hd with hd | hd
    · exact continuesWord_of_digit (hx d hd)
    rcases List.mem_cons.mp hd with rfl | hd
    · exact continuesWord_of_startsWord (startsWord_of_exponent hm)
    · rw [hw d hd]
      decide

theorem cutNumber_of_fraction {r u v : Text} (hp : r.head?.any claimsPoint = false)
    (hs : afterScale? (r.dropWhile isDigitOrUnderscore) = some v)
    (he : (endNumber? (some v)).isSome = true)
    (hf : endNumber? (afterScale? ((r ++ u).dropWhile isDigitOrUnderscore)) = none)
    (hu : Seam r u) : CutNumber ('.' :: r) := by
  cases hr : r.dropWhile isDigitOrUnderscore with
  | nil =>
    by_cases hn : r = []
    · exact ⟨[], [], by rw [hn]; rfl, .inl ⟨rfl, rfl⟩⟩
    · have hhead := hu.of_all hn fun c hc => continuesWord_of_digit (all_of_dropWhile_nil hr c hc)
      rw [dropWhile_append_all hr (any_of_not_continues hhead fun c hc => continuesWord_of_digit hc),
        afterScale?_of_head hhead, endNumber?_of_head hhead] at hf
      simp at hf
  | cons c q =>
    have hext : (endNumber? (some (c :: q))).isSome = true →
        endNumber? (some (c :: (q ++ u))) ≠ none := fun hh =>
      Option.isSome_iff_ne_none.mp (endNumber?_append hh (by simp) u)
    rw [dropWhile_append_cons hr] at hf
    rw [hr] at hs
    simp only [afterScale?] at hs hf
    split at hs
    · next hm =>
      rw [if_pos hm] at hf
      obtain ⟨x, rfl, hx⟩ := takeWhile_dropWhile hr
      have hq : Seam q u := hu.of_suffix ((List.suffix_cons c q).trans (List.suffix_append x _))
      cases hexp : afterExponent? q with
      | some v' =>
        obtain rfl : v' = v := by simpa [hexp] using hs
        obtain ⟨w, hw, hend⟩ := exists_exponent hexp he hq
        rw [hw, Option.getD_some] at hf
        simp [hf] at hend
      | none =>
        obtain rfl : c :: q = v := by simpa [hexp] using hs
        cases hfar : afterExponent? (q ++ u) with
        | none =>
          rw [hfar, Option.getD_none] at hf
          exact absurd hf (hext he)
        | some v' => exact cutNumber_of_exponent hp hx hm hexp (by simp [hfar]) hq
    · next hm =>
      obtain rfl := Option.some.inj hs
      rw [if_neg hm] at hf
      exact absurd hf (hext he)

/-- If a number with a point or an exponent is read of a text and not of a longer one, the text ends
in what is cut. -/
theorem cutNumber_of_float {n u : Text} (hn : (endNumber? (afterFloatDigits? n)).isSome = true)
    (hf : endNumber? (afterFloatDigits? (n ++ u)) = none) (hu : Seam n u) :
    ∃ x r, n = x ++ '.' :: r ∧ (∀ c ∈ x, isDigitOrUnderscore c = true) ∧ CutNumber ('.' :: r) := by
  obtain ⟨y, hy⟩ := Option.isSome_iff_exists.mp hn
  cases hv : afterFloatDigits? n with
  | none => simp [hv, endNumber?] at hy
  | some v =>
    rw [hv] at hn
    rcases exists_float hv with ⟨r, hd, hp, hs⟩ | ⟨c, q, hd, hc, hm, hq⟩
    · obtain ⟨x, rfl, hx⟩ := takeWhile_dropWhile hd
      refine ⟨x, r, rfl, hx, ?_⟩
      have hfar : (x ++ '.' :: r ++ u).dropWhile isDigitOrUnderscore = '.' :: (r ++ u) :=
        dropWhile_append_cons hd u
      rw [afterFloatDigits?_point hfar] at hf
      split at hf
      · next hclaims =>
        -- Only where the text ends in the point can it be claimed by what follows.
        cases r with
        | nil => exact ⟨[], [], rfl, .inl ⟨rfl, rfl⟩⟩
        | cons d r => exact absurd hclaims (Bool.eq_false_iff.mp hp)
      · exact cutNumber_of_fraction hp hs hn hf
          (hu.of_suffix ((List.suffix_cons '.' r).trans (List.suffix_append x _)))
    · obtain ⟨x, rfl, hx⟩ := takeWhile_dropWhile hd
      rw [afterFloatDigits?_scale (dropWhile_append_cons hd u) hc, if_pos hm] at hf
      obtain ⟨v', hv', hend⟩ := exists_exponent hq hn
        (hu.of_suffix ((List.suffix_cons c q).trans (List.suffix_append x _)))
      rw [hv'] at hf
      simp [hf] at hend

theorem second_of_digits {x r r' : Text} {a b : Char}
    (hx : ∀ c ∈ x, isDigitOrUnderscore c = true) (h : x ++ '.' :: r = a :: b :: r') :
    a = '.' ∨ b = '.' ∨ isDigitOrUnderscore b = true := by
  rcases x with _ | ⟨c, _ | ⟨d, x⟩⟩
  · exact .inl (List.cons.inj h).1.symm
  · exact .inr (.inl (List.cons.inj (List.cons.inj h).2).1.symm)
  · obtain rfl := (List.cons.inj (List.cons.inj h).2).1
    exact .inr (.inr (hx d (by simp)))

theorem afterDigits?_point {x r v : Text} (hx : ∀ c ∈ x, isDigitOrUnderscore c = true)
    (h : afterDigits? 10 (x ++ '.' :: r) = some v) : v = '.' :: r := by
  simp only [afterDigits?] at h
  split at h
  · simp at h
  · rw [← Option.some.inj h]
    exact dropWhile_all_append (fun d hd => by simp [hx d hd]) (by decide)

/-- A whole number before a point ends there. -/
theorem afterIntegerDigits?_point {x r v : Text} (hx : ∀ c ∈ x, isDigitOrUnderscore c = true)
    (h : afterIntegerDigits? (x ++ '.' :: r) = some v) : v = '.' :: r := by
  unfold afterIntegerDigits? at h
  split at h
  case h_4 =>
    split at h
    · exact afterDigits?_point hx h
    · simp at h
  all_goals
    next heq =>
    have hsecond := second_of_digits hx heq
    revert hsecond
    exact fun hsecond => absurd hsecond (by decide)

def afterFloat? (t : Text) : Option Text := endNumber? (afterFloatDigits? t)

def afterInteger? (t : Text) : Option Text := endNumber? (afterIntegerDigits? t)

theorem afterInteger?_point {x r v : Text} (hx : ∀ c ∈ x, isDigitOrUnderscore c = true)
    (h : afterInteger? (x ++ '.' :: r) = some v) : v = '.' :: r := by
  unfold afterInteger? at h
  cases hd : afterIntegerDigits? (x ++ '.' :: r) with
  | none => simp [hd, endNumber?] at h
  | some w =>
    obtain rfl := afterIntegerDigits?_point hx hd
    have hdot : ('.' :: r).head?.any continuesWord = false := by
      show continuesWord '.' = false
      decide
    rw [hd, endNumber?_of_head hdot] at h
    exact (Option.some.inj h).symm

/-- A number is read the same if the text ends earlier, unless it is cut there. -/
theorem afterNumber?_near {x y u : Text} (h : afterNumber? (x ++ (y ++ u)) = some (y ++ u))
    (hu : Seam (x ++ y) u) : afterNumber? (x ++ y) = some y ∨ CutNumber y := by
  unfold afterNumber? at h
  split at h
  case isFalse => simp at h
  case isTrue hd =>
    have hnear : x ++ y ≠ [] →
        afterNumber? (x ++ y) = (afterFloat? (x ++ y)).or (afterInteger? (x ++ y)) := by
      intro hne
      obtain ⟨c, t, ht⟩ := List.exists_cons_of_ne_nil hne
      have hhead : (x ++ y).head?.any isDigit = true := by
        rw [← List.append_assoc, ht] at hd
        rw [ht]
        exact hd
      unfold afterNumber?
      rw [if_pos hhead]
      rfl
    have hne : ∀ {read : Text → Option Text}, read [] = none → read (x ++ y) = some y → x ++ y ≠ [] :=
      fun hnone hsome hnil => by simp [hnil, hnone] at hsome
    rcases Option.or_eq_some_iff.mp h with hfloat | ⟨hfloat, hint⟩
    · obtain ⟨z, hz, hloc⟩ := endNumber?_locally afterFloatDigits?_locally hfloat
      obtain rfl := List.append_cancel_right hz
      have hy : afterFloat? (x ++ y) = some y := hloc y u rfl
      exact .inl (by rw [hnear (hne rfl hy), hy, Option.some_or])
    · obtain ⟨z, hz, hloc⟩ := endNumber?_locally afterIntegerDigits?_locally hint
      obtain rfl := List.append_cancel_right hz
      have hy : afterInteger? (x ++ y) = some y := hloc y u rfl
      cases hf : afterFloat? (x ++ y) with
      | none => exact .inl (by rw [hnear (hne rfl hy), hf, Option.none_or, hy])
      | some v =>
        rw [← List.append_assoc] at hfloat
        obtain ⟨w, r, hw, hall, hcut⟩ := cutNumber_of_float (u := u) (by
          show (afterFloat? (x ++ y)).isSome = true
          rw [hf]
          rfl) hfloat hu
        rw [hw] at hy
        rw [afterInteger?_point hall hy]
        exact .inr hcut

end FieldKeys
