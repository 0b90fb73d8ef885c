import FieldKeys.Proofs.Text.Comment
import FieldKeys.Proofs.Text.Number
import FieldKeys.Proofs.Word

/-! The pieces of a text. A piece is read the same if the text ends earlier, but for the joint of a
sign at the end and for a number that is cut there. -/

namespace FieldKeys

theorem afterNumber?_seam {t v : Text} (h : afterNumber? t = some v) :
    ∃ x, t = x ++ v ∧ x ≠ [] ∧ Seam x v := by
  have hhead := afterNumber?_head h
  unfold afterNumber? at h
  split at h
  case isFalse => simp at h
  case isTrue hd =>
    obtain ⟨x, ht⟩ : ∃ x, t = x ++ v := by
      rcases Option.or_eq_some_iff.mp h with hf | ⟨-, hi⟩
      · obtain ⟨x, ht, -⟩ := endNumber?_locally afterFloatDigits?_locally hf
        exact ⟨x, ht⟩
      · obtain ⟨x, ht, -⟩ := endNumber?_locally afterIntegerDigits?_locally hi
        exact ⟨x, ht⟩
    refine ⟨x, ht, ?_, .of_head hhead⟩
    rintro rfl
    obtain rfl : t = v := ht
    rw [any_of_not_continues hhead fun c hc => continuesWord_of_digit (by
      simp [isDigitOrUnderscore, hc])] at hd
    simp at hd

/-- A literal in front, which ends where no word goes on. -/
theorem afterLiteral?_seam {t v : Text} (h : afterLiteral? t = some v) :
    ∃ x, t = x ++ v ∧ x ≠ [] ∧ Seam x v := by
  have hcons : ∀ {r : Text} (c : Char), (∃ x, r = x ++ v ∧ x ≠ [] ∧ Seam x v) →
      ∃ x, c :: r = x ++ v ∧ x ≠ [] ∧ Seam x v := by
    rintro r c ⟨x, rfl, hx, hs⟩
    exact ⟨c :: x, rfl, by simp, hs.cons c hx⟩
  unfold afterLiteral? at h
  split at h
  case h_1 => exact hcons _ (afterPlain?_seam h)
  case h_2 => exact hcons _ (afterCharacter?_seam h)
  case h_3 => exact hcons _ (afterRaw?_seam h)
  case h_4 | h_7 => exact hcons _ (hcons _ (afterPlain?_seam h))
  case h_5 | h_8 => exact hcons _ (hcons _ (afterRaw?_seam h))
  case h_6 => exact hcons _ (hcons _ (afterCharacter?_seam h))
  case h_9 => exact afterNumber?_seam h

theorem startsSign_continues {c : Char} {r : Text} (h : startsSign (c :: r) = true) :
    continuesWord c = false := by
  have hall : ('\'' :: signChars).all (fun d => continuesWord d == false) = true := by decide
  refine beq_iff_eq.mp (List.all_eq_true.mp hall c ?_)
  unfold startsSign at h
  split at h
  · simp at h
  · simp at h
  · next d s _ _ heq =>
    obtain ⟨rfl, rfl⟩ := List.cons.inj heq
    simpa [or_comm] using h
  · next heq => simp at heq

theorem delimiter?_continues {c : Char} {l : Lexeme} (h : delimiter? c = some l) :
    continuesWord c = false := by
  unfold delimiter? at h
  split_ifs at h <;> subst_vars <;> rfl

theorem afterName?_seam {t v : Text} (h : afterName? t = some v) :
    ∃ x, t = x ++ v ∧ x ≠ [] ∧ Seam x v := by
  obtain ⟨w, hw, ht⟩ := afterName?_word h
  refine ⟨w, ht, ?_, .of_head (afterName?_head h)⟩
  rintro rfl
  exact hw.unescape.1 rfl

theorem lifetime?_seam {t : Text} {p : Piece} (h : lifetime? t = some p) :
    ∃ x, t = x ++ p.rest ∧ x ≠ [] ∧ Seam x p.rest := by
  obtain ⟨rest, hr, h⟩ := Option.bind_eq_some_iff.mp h
  have hrest : p.rest = rest := by
    split at h
    · simp at h
    · split at h
      · rw [← Option.some.inj h, Piece.rest]
      · simp at h
    · rw [← Option.some.inj h, Piece.rest]
  rw [hrest]
  exact afterName?_seam hr

theorem quoted?_seam {t : Text} {p : Piece} (h : quoted? t = some p) :
    ∃ x, t = x ++ p.rest ∧ x ≠ [] ∧ Seam x p.rest := by
  unfold quoted? at h
  split at h
  · obtain ⟨rest, hr, rfl⟩ := Option.map_eq_some_iff.mp h
    exact afterLiteral?_seam hr
  · exact lifetime?_seam h

theorem leaf?_seam {t : Text} {p : Piece} (h : leaf? t = some p) :
    ∃ x, t = x ++ p.rest ∧ x ≠ [] ∧ Seam x p.rest := by
  unfold leaf? at h
  split at h
  · next rest hr =>
    obtain rfl := Option.some.inj h
    exact afterLiteral?_seam hr
  · split at h
    · next r =>
      obtain ⟨x, rfl, hx, hs⟩ := quoted?_seam h
      exact ⟨'\'' :: x, rfl, by simp, hs.cons _ hx⟩
    · next c r _ _ =>
      split at h
      · next hsign =>
        obtain rfl := Option.some.inj h
        exact ⟨[c], rfl, by simp, .of_last rfl (startsSign_continues hsign)⟩
      · split at h
        · simp at h
        · obtain ⟨rest, hr, rfl⟩ := Option.map_eq_some_iff.mp h
          exact afterName?_seam hr
    · simp at h

/-- Every piece takes something, and but for blanks it ends where no word goes on. -/
theorem piece?_seam {t : Text} {p : Piece} (h : piece? t = some p) :
    ∃ x, t = x ++ p.rest ∧ x ≠ [] ∧ (p.lexemes ≠ [] → Seam x p.rest) := by
  cases t with
  | nil => simp [piece?] at h
  | cons c r =>
    simp only [piece?] at h
    split at h
    · obtain rfl := Option.some.inj h
      exact ⟨[c], rfl, by simp, fun hl => absurd rfl hl⟩
    · split at h
      · obtain ⟨x, ht, hx⟩ := exists_commentCut h
        refine ⟨x, ht, ?_, hx.seam⟩
        rintro rfl
        simpa using hx.length
      · split at h
        · next l hl =>
          obtain rfl := Option.some.inj h
          exact ⟨[c], rfl, by simp, fun _ => .of_last rfl (delimiter?_continues hl)⟩
        · obtain ⟨x, ht, hx, hs⟩ := leaf?_seam h
          exact ⟨x, ht, hx, fun _ => hs⟩

theorem piece?_front {t x : Text} {piece : Piece} (h : piece? t = some piece)
    (ht : t = x ++ piece.rest) : x ≠ [] ∧ (piece.lexemes ≠ [] → Seam x piece.rest) := by
  obtain ⟨x', ht', hne, hseam⟩ := piece?_seam h
  obtain rfl := List.append_cancel_right (ht.symm.trans ht')
  exact ⟨hne, hseam⟩

theorem startsWord_of_name {c : Char} {r rest : Text} (h : afterName? (c :: r) = some rest) :
    startsWord c = true := by
  unfold afterName? at h
  split at h
  · next r' hr =>
    obtain ⟨rfl, -⟩ := List.cons.inj (Text.after?_eq_some_iff.mp hr)
    decide
  · by_contra hc
    simp [afterWord?, hc] at h

theorem startsWord_of_digit {c : Char} (h : isDigit c = true) : startsWord c = false := by
  have hbound : 48 ≤ c.toNat ∧ c.toNat ≤ 57 := by simpa [isDigit] using h
  have hlt : c.toNat < 128 := by omega
  have hletter : isLetter c = false := by
    simp only [isLetter, Bool.or_eq_false_iff, Bool.and_eq_false_iff, decide_eq_false_iff_not]
    omega
  have hne : c ≠ '_' := by
    rintro rfl
    simp at hbound
  simp [startsWord, hlt, hletter, hne]

theorem afterLiteral?_digit {c : Char} {r : Text} (h : isDigit c = true) :
    afterLiteral? (c :: r) = afterNumber? (c :: r) := by
  unfold afterLiteral?
  split
  case h_9 => rfl
  all_goals
    next heq =>
    obtain ⟨rfl, -⟩ := List.cons.inj heq
    exact absurd h (by decide)

theorem leaf?_literal {t v : Text} (h : afterLiteral? t = some v) :
    leaf? t = some (.lexeme (.literal (t.take (t.length - v.length))) v) := by
  unfold leaf?
  rw [h]

/-- A digit is the beginning of a number and of nothing else. -/
theorem afterNumber?_of_leaf {c : Char} {r : Text} {p : Piece} (hc : isDigit c = true)
    (h : leaf? (c :: r) = some p) : ∃ v, afterNumber? (c :: r) = some v := by
  cases hn : afterNumber? (c :: r) with
  | some v => exact ⟨v, rfl⟩
  | none =>
    have hl : afterLiteral? (c :: r) = none := (afterLiteral?_digit hc).trans hn
    unfold leaf? at h
    rw [hl] at h
    simp only at h
    split at h
    · next heq =>
      obtain ⟨rfl, -⟩ := List.cons.inj heq
      exact absurd hc (by decide)
    · next heq =>
      obtain ⟨rfl, rfl⟩ := List.cons.inj heq
      split at h
      · next hs =>
        have hcont := continuesWord_of_digit (c := c) (by simp [isDigitOrUnderscore, hc])
        simp [startsSign_continues hs] at hcont
      · split at h
        · simp at h
        · obtain ⟨rest, hr, -⟩ := Option.map_eq_some_iff.mp h
          have hword := startsWord_of_name hr
          simp [startsWord_of_digit hc] at hword
    · simp at h

/-- A piece, where the text ends earlier: only a sign at the end is then not joint. -/
def PieceNear (y : Text) (p p' : Piece) : Prop :=
  p' = p.before y ∨
    y = [] ∧ ∃ c joint, p.lexemes = [.sign c joint] ∧ p' = .lexeme (.sign c false) []

theorem after?_mark {x y u : Text} (h : afterName? (x ++ (y ++ u)) = some (y ++ u)) :
    Text.beginsWith (x ++ y) ['r', '#'] = Text.beginsWith (x ++ (y ++ u)) ['r', '#'] := by
  cases hfar : Text.beginsWith (x ++ (y ++ u)) ['r', '#'] with
  | true =>
    obtain ⟨r, hr⟩ := Option.isSome_iff_exists.mp hfar
    have hmark : Text.after? afterName?.rawWordMark (x ++ (y ++ u)) = some r := hr
    simp only [afterName?, hmark] at h
    obtain ⟨rest, hw, hh⟩ := Option.bind_eq_some_iff.mp h
    split at hh
    · simp at hh
    · obtain rfl := Option.some.inj hh
      obtain ⟨z, rfl, -⟩ := afterWord?_locally hw
      have hx : x ++ (y ++ u) = ['r', '#'] ++ z ++ (y ++ u) := by
        rw [List.append_assoc]
        exact Text.after?_eq_some_iff.mp hr
      rw [List.append_cancel_right hx]
      rfl
  | false =>
    cases hnear : Text.beginsWith (x ++ y) ['r', '#'] with
    | false => rfl
    | true =>
      have hh := beginsWith_append hnear u
      rw [List.append_assoc, hfar] at hh
      simp at hh

/-- A lifetime with the name `x`, if what follows it allows one. -/
def lifetimeBefore? (x rest : Text) (marked : Bool) : Option Piece :=
  match rest with
  | '\'' :: _ => none
  | '#' :: _ => if marked then some (.lexeme (.lifetime x) rest) else none
  | _ => some (.lexeme (.lifetime x) rest)

theorem lifetime?_eq {x rest : Text} (h : afterName? (x ++ rest) = some rest) :
    lifetime? (x ++ rest) = lifetimeBefore? x rest (Text.beginsWith (x ++ rest) ['r', '#']) := by
  unfold lifetime?
  rw [h, Option.bind_some, take_front]
  rfl

theorem lifetimeBefore?_eq_some {x rest : Text} {marked : Bool} {p : Piece}
    (h : lifetimeBefore? x rest marked = some p) : p = .lexeme (.lifetime x) rest := by
  unfold lifetimeBefore? at h
  split at h
  · simp at h
  · split at h
    · exact (Option.some.inj h).symm
    · simp at h
  · exact (Option.some.inj h).symm

theorem lifetimeBefore?_near {x y u : Text} {marked : Bool} {p : Piece}
    (h : lifetimeBefore? x (y ++ u) marked = some p) :
    lifetimeBefore? x y marked = some (p.before y) := by
  obtain rfl := lifetimeBefore?_eq_some h
  cases y with
  | nil => rfl
  | cons c y =>
    by_cases hq : c = '\''
    · subst hq
      simp [lifetimeBefore?] at h
    · by_cases hm : c = '#'
      · subst hm
        cases marked with
        | false => simp [lifetimeBefore?] at h
        | true => rfl
      · simp [lifetimeBefore?, hq, hm, Piece.before]

theorem lifetime?_near {x y u : Text} {p : Piece} (h : lifetime? (x ++ (y ++ u)) = some p)
    (hp : p.rest = y ++ u) : lifetime? (x ++ y) = some (p.before y) := by
  obtain ⟨rest, hr, -⟩ := Option.bind_eq_some_iff.mp h
  obtain ⟨x', hx, hnear⟩ := afterName?_locally hr
  rw [hx] at h hr
  rw [lifetime?_eq hr] at h
  obtain rfl : rest = y ++ u := by
    rw [lifetimeBefore?_eq_some h] at hp
    exact hp
  obtain rfl := List.append_cancel_right hx
  rw [lifetime?_eq (hnear y u rfl), after?_mark hr]
  exact lifetimeBefore?_near h

theorem not_begins_of_append {openings : List Text} {x y u : Text}
    (h : ¬ openings.any (Text.beginsWith (x ++ (y ++ u))) = true) :
    ¬ openings.any (Text.beginsWith (x ++ y)) = true := by
  intro hh
  obtain ⟨w, hw, hb⟩ := List.any_eq_true.mp hh
  refine h (List.any_eq_true.mpr ⟨w, hw, ?_⟩)
  rw [← List.append_assoc]
  exact beginsWith_append hb u

theorem afterPlain?_suffix {k : Content} {t v : Text} (h : afterPlain? k t = some v) : v <:+ t := by
  obtain ⟨x, rfl, -⟩ := afterPlain?_locally k h
  exact List.suffix_append x v

/-- A raw literal without number signs takes the quote that opens it. -/
theorem afterRaw?_suffix {k : Content} {t v : Text} (h : afterRaw? k ('"' :: t) = some v) :
    v <:+ t := by
  obtain ⟨⟨value, rest⟩, hr, rfl⟩ := Option.map_eq_some_iff.mp h
  have hr : unquoteRaw k 0 t = some (value, rest) := hr
  obtain ⟨x, rfl, -⟩ := unquoteRaw_only k 0 (congrArg (Option.map Prod.snd) hr)
  obtain ⟨z, hz, -⟩ := afterSuffix_locally (congrArg some (Eq.refl (afterSuffix rest)))
  exact ⟨x ++ z, by rw [List.append_assoc, ← hz]⟩

/-- A literal takes the opening that it begins with. -/
theorem afterLiteral?_opening {opening t v : Text} (ho : opening ∈ stringOpenings)
    (h : afterLiteral? (opening ++ t) = some v) : v <:+ t := by
  simp only [stringOpenings, List.mem_cons, List.not_mem_nil, or_false] at ho
  rcases ho with rfl | rfl | rfl | rfl | rfl
  · exact afterRaw?_suffix h
  · exact afterPlain?_suffix h
  · exact afterRaw?_suffix h
  · exact afterPlain?_suffix h
  · exact afterRaw?_suffix h

theorem quoted?_near {x y u : Text} {p : Piece} (h : quoted? (x ++ (y ++ u)) = some p)
    (hp : p.rest = y ++ u) : quoted? (x ++ y) = some (p.before y) := by
  unfold quoted? at h ⊢
  split at h
  · next hq =>
    obtain ⟨rest, hr, rfl⟩ := Option.map_eq_some_iff.mp h
    obtain rfl : rest = y ++ u := hp
    obtain ⟨opening, ho, hb⟩ := List.any_eq_true.mp hq
    obtain ⟨t, ht⟩ := Option.isSome_iff_exists.mp hb
    rw [Text.after?_eq_some_iff] at ht
    obtain ⟨z, rfl⟩ : y ++ u <:+ t := afterLiteral?_opening ho (ht ▸ hr)
    have hx : x ++ (y ++ u) = opening ++ z ++ (y ++ u) := by rw [ht, List.append_assoc]
    obtain rfl := List.append_cancel_right hx
    have hd : (opening ++ z ++ (y ++ u)).head?.any isDigit = false := by
      simp only [stringOpenings, List.mem_cons, List.not_mem_nil, or_false] at ho
      rcases ho with rfl | rfl | rfl | rfl | rfl <;> rfl
    obtain ⟨x, hx, hnear⟩ := afterLiteral?_near hr hd
    obtain rfl := List.append_cancel_right hx
    have hbegins : stringOpenings.any (Text.beginsWith (opening ++ z ++ y)) = true := by
      refine List.any_eq_true.mpr ⟨opening, ho, Option.isSome_iff_exists.mpr ⟨z ++ y, ?_⟩⟩
      rw [Text.after?_eq_some_iff, List.append_assoc]
    rw [if_pos hbegins, hnear y u rfl]
    simp only [Option.map_some, take_front, Piece.before]
  · next hq =>
    rw [if_neg (not_begins_of_append hq)]
    exact lifetime?_near h hp

theorem startsSign_iff {c : Char} {r : Text}
    (h : ¬ (c = '/' ∧ r.head?.any (fun d => d == '/' || d == '*') = true)) :
    startsSign (c :: r) = (signChars.contains c || c == '\'') := by
  unfold startsSign
  split
  · next heq =>
    obtain ⟨rfl, rfl⟩ := List.cons.inj heq
    simp at h
  · next heq =>
    obtain ⟨rfl, rfl⟩ := List.cons.inj heq
    simp at h
  · next heq =>
    obtain ⟨rfl, -⟩ := List.cons.inj heq
    rfl
  · next heq => simp at heq

/-- A leaf that is no literal. -/
theorem leaf?_eq {c : Char} {r : Text} (h : afterLiteral? (c :: r) = none) : leaf? (c :: r) =
    if c = '\'' then quoted? r
    else if startsSign (c :: r) then some (.lexeme (.sign c (startsSign r)) r)
    else if quoteOpenings.any (Text.beginsWith (c :: r)) then none
    else (afterName? (c :: r)).map fun rest =>
      .lexeme (.word ((c :: r).take ((c :: r).length - rest.length))) rest := by
  unfold leaf?
  rw [h]
  simp only
  split
  · next heq =>
    obtain ⟨rfl, rfl⟩ := List.cons.inj heq
    rfl
  · next hq heq =>
    obtain ⟨rfl, rfl⟩ := List.cons.inj heq
    rw [if_neg hq]
  · next heq => simp at heq

theorem head_near {a y u : Text} {p : Char → Bool} (h : ¬ (a ++ (y ++ u)).head?.any p = true) :
    ¬ (a ++ y).head?.any p = true := by
  rw [← List.append_assoc] at h
  cases hay : a ++ y with
  | nil => simp
  | cons d r => rwa [hay] at h

theorem literal_near {c : Char} {x y u : Text} {p : Piece} (hp : p.rest = y ++ u)
    {v : Text} (h : leaf? (c :: x ++ (y ++ u)) = some p)
    (hv : afterLiteral? (c :: x ++ (y ++ u)) = some v) :
    v = y ++ u ∧ p = .lexeme (.literal (c :: x)) (y ++ u) := by
  rw [leaf?_literal hv] at h
  obtain rfl := Option.some.inj h
  obtain rfl : v = y ++ u := hp
  exact ⟨rfl, by rw [take_front]⟩

theorem afterLiteral?_eq_none_of_append {c : Char} {x y u : Text} (hd : isDigit c = false)
    (h : afterLiteral? (c :: x ++ (y ++ u)) = none) : afterLiteral? (c :: x ++ y) = none := by
  by_contra hn
  have hh := afterLiteral?_append (Option.isSome_iff_ne_none.mpr hn) hd u
  rw [List.append_assoc, h] at hh
  simp at hh

theorem afterName?_near {x y u : Text} (h : afterName? (x ++ (y ++ u)) = some (y ++ u)) :
    afterName? (x ++ y) = some y := by
  obtain ⟨z, hz, hloc⟩ := afterName?_locally h
  obtain rfl := List.append_cancel_right hz
  exact hloc y u rfl

theorem leaf?_near_of_no_literal {c : Char} {x y u : Text} {p : Piece}
    (h : leaf? (c :: (x ++ (y ++ u))) = some p) (hp : p.rest = y ++ u)
    (hl : afterLiteral? (c :: (x ++ (y ++ u))) = none) (hln : afterLiteral? (c :: (x ++ y)) = none)
    (hsign : y ≠ [] → startsSign (y ++ u) = startsSign y)
    (hfar : ¬ (c = '/' ∧ (x ++ (y ++ u)).head?.any (fun d => d == '/' || d == '*') = true)) :
    ∃ p', leaf? (c :: (x ++ y)) = some p' ∧ PieceNear y p p' := by
  rw [leaf?_eq hl] at h
  rw [leaf?_eq hln]
  split at h
  · next hc =>
    rw [if_pos hc]
    exact ⟨_, quoted?_near h hp, .inl rfl⟩
  next hc =>
  rw [if_neg hc]
  have hslash : ¬ (c = '/' ∧ (x ++ y).head?.any (fun d => d == '/' || d == '*') = true) :=
    fun hh => head_near (fun hf => hfar ⟨hh.1, hf⟩) hh.2
  rw [startsSign_iff hfar] at h
  rw [startsSign_iff hslash]
  split at h
  · next hs =>
    rw [if_pos hs]
    obtain rfl := Option.some.inj h
    obtain rfl : x = [] := List.append_left_eq_self.mp hp
    refine ⟨_, rfl, ?_⟩
    by_cases hy : y = []
    · subst hy
      exact .inr ⟨rfl, c, _, rfl, rfl⟩
    · exact .inl (by rw [List.nil_append, ← hsign hy]; rfl)
  next hs =>
  rw [if_neg hs]
  split at h
  · simp at h
  next hq =>
  rw [← List.cons_append] at hq
  have hqn := not_begins_of_append hq
  rw [List.cons_append] at hqn
  rw [if_neg hqn]
  obtain ⟨rest, hr, rfl⟩ := Option.map_eq_some_iff.mp h
  obtain rfl : rest = y ++ u := hp
  rw [← List.cons_append] at hr ⊢
  rw [afterName?_near hr]
  refine ⟨_, rfl, .inl ?_⟩
  simp only [Piece.before, ← List.cons_append, take_front]

theorem leaf?_near {c : Char} {x y u : Text} {p : Piece} (h : leaf? (c :: x ++ (y ++ u)) = some p)
    (hp : p.rest = y ++ u) (hu : Seam (c :: x ++ y) u)
    (hsign : y ≠ [] → startsSign (y ++ u) = startsSign y)
    (hfar : ¬ (c = '/' ∧ (x ++ (y ++ u)).head?.any (fun d => d == '/' || d == '*') = true)) :
    (∃ p', leaf? (c :: x ++ y) = some p' ∧ PieceNear y p p') ∨
      CutNumber y ∧ isDigit c = true ∧ p.lexemes = [.literal (c :: x)] := by
  have hnear : afterLiteral? (c :: x ++ y) = some y → p = .lexeme (.literal (c :: x)) (y ++ u) →
      ∃ p', leaf? (c :: x ++ y) = some p' ∧ PieceNear y p p' := by
    rintro hy rfl
    exact ⟨_, leaf?_literal hy, .inl (by rw [take_front]; rfl)⟩
  by_cases hd : isDigit c = true
  · obtain ⟨v, hn⟩ := afterNumber?_of_leaf hd h
    have hl : afterLiteral? (c :: x ++ (y ++ u)) = some v := (afterLiteral?_digit hd).trans hn
    obtain ⟨rfl, rfl⟩ := literal_near hp h hl
    rcases afterNumber?_near hn hu with hy | hy
    · exact .inl (hnear ((afterLiteral?_digit hd).trans hy) rfl)
    · exact .inr ⟨hy, hd, rfl⟩
  · have hd' : isDigit c = false := Bool.eq_false_iff.mpr hd
    refine .inl ?_
    cases hl : afterLiteral? (c :: x ++ (y ++ u)) with
    | some v =>
      obtain ⟨rfl, rfl⟩ := literal_near hp h hl
      obtain ⟨z, hz, hloc⟩ := afterLiteral?_near hl hd'
      obtain rfl := List.append_cancel_right hz
      exact hnear (hloc y u rfl) rfl
    | none =>
      exact leaf?_near_of_no_literal h hp hl (afterLiteral?_eq_none_of_append hd' hl) hsign hfar

theorem piece?_near {x y u : Text} {p : Piece} (h : piece? (x ++ (y ++ u)) = some p)
    (hp : p.rest = y ++ u) (hu : Seam (x ++ y) u)
    (hsign : y ≠ [] → startsSign (y ++ u) = startsSign y) (hy : y ≠ ['\r']) :
    (∃ p', piece? (x ++ y) = some p' ∧ PieceNear y p p') ∨
      CutNumber y ∧ ∃ w, p.lexemes = [.literal w] ∧ w.head?.any isDigit = true := by
  obtain ⟨c, x, rfl⟩ := List.exists_cons_of_ne_nil (piece?_front h (by rw [hp])).1
  rw [List.cons_append] at h ⊢
  simp only [piece?] at h ⊢
  split at h
  · next hb =>
    obtain rfl := Option.some.inj h
    obtain rfl : x = [] := List.append_left_eq_self.mp hp
    rw [if_pos hb]
    exact .inl ⟨_, rfl, .inl rfl⟩
  next hb =>
  rw [if_neg hb]
  split at h
  · next hc =>
    obtain ⟨z, hz, hcut⟩ := exists_commentCut h
    rw [hp, ← List.cons_append] at hz
    obtain rfl := List.append_cancel_right hz
    have hnear : c = '/' ∧ (x ++ y).head?.any (fun d => d == '/' || d == '*') = true := by
      refine ⟨hc.1, ?_⟩
      have hlen := hcut.length
      cases x with
      | nil => simp at hlen
      | cons d x => exact hc.2
    rw [if_pos hnear]
    exact .inl ⟨_, hcut.near y u hp hy, .inl rfl⟩
  next hc =>
  have hnear : ¬ (c = '/' ∧ (x ++ y).head?.any (fun d => d == '/' || d == '*') = true) :=
    fun hh => head_near (fun hf => hc ⟨hh.1, hf⟩) hh.2
  rw [if_neg hnear]
  split at h
  · next l hl =>
    obtain rfl := Option.some.inj h
    obtain rfl : x = [] := List.append_left_eq_self.mp hp
    exact .inl ⟨_, rfl, .inl rfl⟩
  · rcases leaf?_near h hp hu hsign hc with hleaf | ⟨hcut, hd, hlit⟩
    · exact .inl hleaf
    · exact .inr ⟨hcut, c :: x, hlit, hd⟩

end FieldKeys
