import FieldKeys.Proofs.Grammar.Cut
import FieldKeys.Proofs.Grammar.Leaving
import FieldKeys.Proofs.Grammar.SingleToken
import FieldKeys.Proofs.ItemPlaces
import FieldKeys.Proofs.Text.Slice

/-! What stands in an item is read again from the characters that its span covers: an attribute, the
whole item, the value of an argument. -/

namespace FieldKeys

/-- The span of a whole text. -/
def Text.extent (t : Text) : Span := ⟨.origin, Position.origin.advance t⟩

def Attribute.listOfText? (t : Text) : Option (List Attribute) :=
  (Token.scan? t).bind Attribute.listOfTokens?

def Expression.ofText? (t : Text) : Option Expression :=
  (Token.scan? t).bind Expression.ofTokens?

theorem Broken.exists_last {ls : List Lexeme} (h : Broken ls) : ∃ front l, ls = front ++ [l] ∧
    ((∃ c joint, l = .sign c joint) ∨ ∃ text, l = .literal text) := by
  rcases h with joint | ⟨joint, joint'⟩ | joint | ⟨-, joint⟩ | ⟨-, -, -, joint⟩ | ⟨-, -, joint⟩
  · exact ⟨[], _, rfl, .inl ⟨_, _, rfl⟩⟩
  · exact ⟨[_], _, rfl, .inl ⟨_, _, rfl⟩⟩
  · exact ⟨[], _, rfl, .inl ⟨_, _, rfl⟩⟩
  · exact ⟨[_], _, rfl, .inl ⟨_, _, rfl⟩⟩
  · exact ⟨[_, _], _, rfl, .inr ⟨_, rfl⟩⟩
  · exact ⟨[_], _, rfl, .inl ⟨_, _, rfl⟩⟩

theorem endsWhole_closing {ts : List Token} {last : Token} {d : Delimiter}
    (h : isClosing d last = true) : EndsWhole (ts ++ [last]) := by
  have hlast := isClosing_iff.mp h
  intro front ls hts hbroken
  obtain ⟨front', l, rfl, hl⟩ := hbroken.exists_last
  rw [List.map_append, ← List.append_assoc] at hts
  obtain ⟨-, hts⟩ := List.append_inj' hts rfl
  obtain rfl := List.singleton_inj.mp hts
  rcases hl with ⟨c, joint, hl⟩ | ⟨text, hl⟩ <;> simp [hlast] at hl

theorem Stub.fits_iff {w : Stub} {ts : List Token} :
    w.Fits ts ↔ List.Forall₂ (fun cells l => ∀ c ∈ cells, c.Fits l) w (ts.map (·.lexeme)) := by
  rw [Stub.Fits, List.forall₂_map_right_iff]

/-- What is broken is one of the ends that no expression has. -/
theorem Broken.exists_stub {ls : List Lexeme} (h : Broken ls) : ∃ w ∈ Stub.endings,
    w ≠ testStub .number ∧ List.Forall₂ (fun cells l => ∀ c ∈ cells, c.Fits l) w ls := by
  have hchar : ∀ c joint, ∀ cell ∈ [Cell.char c], cell.Fits (.sign c joint) := fun c joint cell hcell =>
    List.mem_singleton.mp hcell ▸ ⟨joint, rfl⟩
  have hnumber : ∀ text : Text, text.head?.any isDigit = true →
      ∀ cell ∈ [Cell.test .number], cell.Fits (.literal text) := fun text h cell hcell =>
    List.mem_singleton.mp hcell ▸ h
  rcases h with joint | ⟨joint, joint'⟩ | joint | ⟨h, joint⟩ | ⟨h, hi, hd, joint⟩ |
    ⟨h, rfl | rfl, joint⟩
  · exact ⟨operatorStub "#", by decide, by decide, .cons (hchar _ _) .nil⟩
  · exact ⟨operatorStub "#!", by decide, by decide, .cons (hchar _ _) (.cons (hchar _ _) .nil)⟩
  · exact ⟨operatorStub "'", by decide, by decide, .cons (hchar _ _) .nil⟩
  · exact ⟨testStub .number ++ operatorStub ".", by decide, by decide,
      .cons (hnumber _ h) (.cons (hchar _ _) .nil)⟩
  · refine ⟨testStub .number ++ operatorStub "." ++ [[.odd]], by decide, by decide,
      .cons (hnumber _ h) (.cons (hchar _ _) (.cons (fun cell hcell => ?_) .nil))⟩
    exact List.mem_singleton.mp hcell ▸ ⟨_, rfl, hi, hd⟩
  · exact ⟨testStub .number ++ operatorStub "+", by decide, by decide,
      .cons (hnumber _ h) (.cons (hchar _ _) .nil)⟩
  · exact ⟨testStub .number ++ operatorStub "-", by decide, by decide,
      .cons (hnumber _ h) (.cons (hchar _ _) .nil)⟩

theorem Expression.endsWhole {whole : Bool} {x : Expression} {own rest : List Token}
    (h : Expression.inFront? whole (own ++ rest) = some (x, rest)) : EndsWhole own := by
  intro front ls hown hbroken
  obtain ⟨ts, last, rfl, rfl, rfl⟩ := List.map_eq_append_iff.mp hown
  obtain ⟨w, hw, hne, hf⟩ := hbroken.exists_stub
  exact hne (Expression.inFront?_ends h hw (Stub.fits_iff.mpr hf))

/-- Balanced brackets close all that is open. -/
theorem depthAfter?_balanced {pending : List Delimiter} {ts : List Token}
    (h : balanced pending ts = true) :
    depthAfter? pending.length (ts.map (·.lexeme)) = some 0 := by
  induction ts generalizing pending with
  | nil =>
    obtain rfl : pending = [] := by simpa [balanced] using h
    rfl
  | cons t ts ih =>
    cases ht : t.lexeme with
    | opening d =>
      simp only [balanced, ht] at h
      exact depthAfter?_of_cons (by simp [ht, Lexeme.depthAfter?]) (ih h)
    | closing d =>
      cases pending with
      | nil => simp [balanced, ht] at h
      | cons e pending =>
        simp only [balanced, ht, Bool.and_eq_true] at h
        exact depthAfter?_of_cons (by simp [ht, Lexeme.depthAfter?]) (ih h.2)
    | _ =>
      simp only [balanced, ht] at h
      exact depthAfter?_of_cons (by simp [ht, Lexeme.depthAfter?]) (ih h)

theorem spanOf?_between (first last : Token) (inside : List Token) :
    Token.spanOf? (first :: inside ++ [last]) = some (first.span.join last.span) := by
  simp [Token.spanOf?]

/-- An attribute is read again from the characters of its span, wherever it stands. -/
theorem Attribute.ReadIn.listOfText?_slice {text : Text} {ts : List Token} {a : Attribute}
    (h : a.ReadIn ts) (hts : Token.scan? text = some ts) :
    ∃ b, Attribute.listOfText? (a.span.slice text) = some [b] ∧ b.unplaced = a.unplaced ∧
      b.span = (a.span.slice text).extent := by
  obtain ⟨own, rest, ⟨front, rfl⟩, hread⟩ := h
  obtain ⟨hash, inside, last, rfl, hhash, hlast, hspan, hdepth, hown⟩ := Attribute.read?_own hread
  obtain ⟨joint, hjoint⟩ := exists_sign hhash
  have hts : Token.scan? text = some (front ++ ((hash :: inside ++ [last]) ++ rest)) := by
    rw [hts, List.append_assoc, List.singleton_append]
  have hs : Token.spanOf? (hash :: inside ++ [last]) = some a.span := by
    rw [hspan, spanOf?_between]
  obtain ⟨ts', hscan, halike, hwhole⟩ := Token.scan?_slice hts hs (not_straddles_attribute hjoint)
    (endsWhole_closing hlast) hdepth
  obtain ⟨⟨b, left⟩, hb, hsame, hleft⟩ := exists_of_option_rel (Attribute.read?_alike halike) (hown [])
  obtain rfl := hleft.eq_nil_iff.mp rfl
  refine ⟨b, by simp [listOfText?, hscan, Attribute.listOfTokens?_single hb], hsame.symm, ?_⟩
  obtain ⟨hash', inside', last', hts', -, -, hspan', -⟩ := Attribute.read?_own hb
  rw [hts', spanOf?_between] at hwhole
  exact hspan'.trans (Option.some.inj hwhole)

/-- An item that is no structure is none either when it is read again. -/
theorem Item.ofText?_slice {text : Text} {i : Item} (h : Item.ofText? text = some i)
    (hb : i.body = .noStructure) : ∃ j, Item.ofText? (i.span.slice text) = some j ∧
      j.body = .noStructure ∧ j.span = (i.span.slice text).extent := by
  obtain ⟨ts, hts, hi⟩ := Option.bind_eq_some_iff.mp h
  obtain ⟨used, last, rfl, hlast⟩ := Item.ofTokens?_closed hi hb
  obtain ⟨_, _, _, _, _, _, hp⟩ := Item.ofTokens?_eq_some_iff.mp hi
  have hs : Token.spanOf? (used ++ [last]) = some i.span := by
    cases used <;> simp [hp.span, Token.spanOf?]
  have hdepth := depthAfter?_balanced (Option.filter_eq_some_iff.mp hts).2
  have hts : Token.scan? text = some ([] ++ ((used ++ [last]) ++ [])) := by
    rw [hts, List.append_nil, List.nil_append]
  obtain ⟨ts', hscan, halike, hwhole⟩ := Token.scan?_slice hts hs (not_straddles_nil _)
    (endsWhole_closing hlast) hdepth
  obtain ⟨j, hj, hsame⟩ := exists_of_option_rel (Item.ofTokens?_alike halike) hi
  have hbody : j.body = .noStructure := by
    have hh : i.body.unplaced = j.body.unplaced := congrArg Item.body hsame
    rw [hb] at hh
    cases hj : j.body <;> simp [hj, Body.unplaced] at hh ⊢
  obtain ⟨_, _, _, _, _, _, hp'⟩ := Item.ofTokens?_eq_some_iff.mp hj
  exact ⟨j, by simp [Item.ofText?, hscan, hj], hbody, by rw [hp'.span, hwhole]; rfl⟩

/-- An expression but for what is left over in its groups: where it stands alone, it is none. -/
def Expression.LeftOver (x : Expression) (own : List Token) : Prop :=
  Expression.inFront? false own = some (x, []) ∧ Expression.read? own = none

/-- An expression that is read in front of others is one by itself, unless something is left over in its
groups or it ends in a `try` before a double colon and a parenthesis. -/
theorem Expression.read?_own {x : Expression} {own rest : List Token}
    (h : Expression.inFront? false (own ++ rest) = some (x, rest)) :
    Expression.read? own = some (x, []) ∨ Expression.read? own = none ∧
      (EndsInTry own ∧ inputsAhead.holds rest = true ∨ x.LeftOver own) := by
  rcases Expression.inFront?_alone h with hown | ⟨hown, htry, hinputs⟩
  · cases hread : Expression.read? own with
    | some y =>
      obtain rfl := Option.some.inj ((Expression.inFront?_of_whole hread).symm.trans hown)
      exact .inl rfl
    | none => exact .inr ⟨rfl, .inr ⟨hown, hread⟩⟩
  · refine .inr ⟨?_, .inl ⟨htry, hinputs⟩⟩
    by_contra hne
    obtain ⟨y, hy⟩ := Option.ne_none_iff_exists'.mp hne
    exact absurd ((Expression.inFront?_of_whole hy).symm.trans hown) (by simp)

/-- The value of an argument is read again from the characters of its span, unless it ends in a `try`
before a double colon and a parenthesis, or something is left over in its groups. -/
theorem Expression.ofText?_slice {text : Text} {front own rest back : List Token} {label equals : Token}
    {name : Text} {x : Expression}
    (hts : Token.scan? text = some (front ++ [label, equals] ++ (own ++ (rest ++ back))))
    (hl : label.lexeme = .word name) (hn : name ≠ "doc".toList) (he : isSign '=' equals = true)
    (hx : Expression.inFront? false (own ++ rest) = some (x, rest)) :
    (∃ y, Expression.ofText? (x.span.slice text) = some y ∧ y.unplaced = x.unplaced ∧
      y.span = (x.span.slice text).extent) ∨
    Expression.ofText? (x.span.slice text) = none ∧
      (EndsInTry own ∧ inputsAhead.holds rest = true ∨ x.LeftOver own) := by
  obtain ⟨joint, hjoint⟩ := exists_sign he
  obtain ⟨used, hused, hdepth⟩ := Expression.inFront?_leaves hx
  obtain rfl := List.append_cancel_right hused
  have hnil : own ≠ [] := by
    rintro rfl
    exact Nat.lt_irrefl _ (Expression.inFront?_length hx)
  have hs : Token.spanOf? own = some x.span := by
    rw [Expression.span, Expression.inFront?_span hx]
    cases own with
    | nil => exact absurd rfl hnil
    | cons t own => rfl
  obtain ⟨ts', hscan, halike, hwhole⟩ := Token.scan?_slice hts hs
    (not_straddles_argument hl hn hjoint) (Expression.endsWhole hx) hdepth
  rcases Expression.read?_own hx with hown | ⟨hown, hcause⟩
  · obtain ⟨⟨y, left⟩, hy, hsame, hleft⟩ :=
      exists_of_option_rel (Expression.read?_unplaced halike) hown
    obtain rfl := hleft.eq_nil_iff.mp rfl
    have hy := Expression.ofTokens?_eq_some_iff.mpr hy
    have hyspan := (Expression.ofTokens?_span hy).symm.trans hwhole
    exact .inl ⟨y, by simp [ofText?, hscan, hy], hsame.symm, Option.some.inj hyspan⟩
  · have hnone : Expression.ofTokens? ts' = none := by
      have hrel := Expression.read?_unplaced halike
      rw [hown] at hrel
      cases hread : Expression.read? ts' with
      | none => simp [ofTokens?, hread]
      | some y => rw [hread] at hrel; cases hrel
    exact .inr ⟨by simp [ofText?, hscan, hnone], hcause⟩

end FieldKeys
