import FieldKeys.Proofs.Text.Seam

/-! Comments in front of a text. What a line holds ends before its break, and a block comment where
the last of its openings is closed. -/

namespace FieldKeys

/-- Whether a line ends in front. -/
def atBreak : Text → Bool
  | '\n' :: _ => true
  | '\r' :: '\n' :: _ => true
  | _ => false

theorem cutLine_cons (c : Char) (r : Text) : cutLine (c :: r) =
    if atBreak (c :: r) then ([], c :: r) else (c :: (cutLine r).1, (cutLine r).2) := by
  rw [cutLine.eq_def (c :: r)]
  split
  · next h => simp at h
  · next h =>
    obtain ⟨rfl, rfl⟩ := List.cons.inj h
    rfl
  · next h =>
    obtain ⟨rfl, rfl⟩ := List.cons.inj h
    rfl
  · next d s h1 h2 h =>
    obtain ⟨rfl, rfl⟩ := List.cons.inj h
    have hn : atBreak (c :: r) = false := by
      unfold atBreak
      split
      · next s he => exact (h1 (List.cons.inj he).1).elim
      · next s he => exact (h2 s (List.cons.inj he).1 (List.cons.inj he).2).elim
      · rfl
    rw [hn]
    rfl

theorem atBreak_append {t : Text} (h : atBreak t = true) (u : Text) : atBreak (t ++ u) = true := by
  unfold atBreak at h
  split at h
  · rfl
  · rfl
  · simp at h

theorem atBreak_near {y u : Text} (h : atBreak (y ++ u) = true) (hn : y ≠ []) (hy : y ≠ ['\r']) :
    atBreak y = true := by
  rcases y with _ | ⟨c, _ | ⟨d, y⟩⟩
  · simp at hn
  · unfold atBreak at h
    split at h
    · next heq =>
      obtain ⟨rfl, -⟩ := List.cons.inj heq
      rfl
    · next heq =>
      obtain ⟨rfl, -⟩ := List.cons.inj heq
      simp at hy
    · simp at h
  · unfold atBreak at h
    split at h
    · next heq =>
      obtain ⟨rfl, -⟩ := List.cons.inj heq
      rfl
    · next heq =>
      obtain ⟨hc, htail⟩ := List.cons.inj heq
      obtain ⟨hd, -⟩ := List.cons.inj htail
      rw [hc, hd]
      rfl
    · simp at h

theorem cutLine_append (t : Text) : t = (cutLine t).1 ++ (cutLine t).2 := by
  induction t with
  | nil => rfl
  | cons c r ih =>
    rw [cutLine_cons]
    split
    · rfl
    · rw [List.cons_append, ← ih]

theorem cutLine_head (t : Text) : (cutLine t).2.head?.any continuesWord = false := by
  induction t with
  | nil => rfl
  | cons c r ih =>
    rw [cutLine_cons]
    split
    · next hb =>
      have hc : c = '\n' ∨ c = '\r' := by
        unfold atBreak at hb
        split at hb
        · next he => exact .inl (List.cons.inj he).1
        · next he => exact .inr (List.cons.inj he).1
        · simp at hb
      rcases hc with rfl | rfl <;> (show continuesWord _ = false; decide)
    · exact ih

/-- A line is the same if the text ends earlier, but not within a line break. -/
theorem cutLine_near {line y u : Text} (h : cutLine (line ++ (y ++ u)) = (line, y ++ u))
    (hy : y ≠ ['\r']) : cutLine (line ++ y) = (line, y) := by
  induction line with
  | nil =>
    rw [List.nil_append] at h ⊢
    cases y with
    | nil => rfl
    | cons c y =>
      rw [List.cons_append, cutLine_cons] at h
      split at h
      · next hb => rw [cutLine_cons, if_pos (atBreak_near hb (by simp) hy)]
      · simp at h
  | cons c line ih =>
    rw [List.cons_append, cutLine_cons] at h ⊢
    split at h
    · simp at h
    · next hb =>
      have hnear : ¬ atBreak (c :: (line ++ y)) = true := fun hh => by
        have hfar := atBreak_append hh u
        rw [List.cons_append, List.append_assoc] at hfar
        exact hb hfar
      obtain ⟨hline, hrest⟩ := Prod.mk.inj h
      have hcut := ih (Prod.ext (List.cons.inj hline).2 hrest)
      rw [if_neg hnear, hcut]

theorem afterComment?_last {depth : Nat} {t v : Text} (h : afterComment? depth t = some v) :
    ∃ x, t = x ++ v ∧ x.getLast? = some '/' := by
  fun_induction afterComment? depth t with
  | case1 => simp at h
  | case3 depth r hle =>
    obtain rfl := Option.some.inj h
    exact ⟨['*', '/'], rfl, rfl⟩
  | case2 depth r ih | case4 depth r hle ih =>
    obtain ⟨x, rfl, hx⟩ := ih h
    exact ⟨_ :: _ :: x, rfl, by rw [List.getLast?_cons, List.getLast?_cons, hx]; rfl⟩
  | case5 depth c r hopen hclose ih =>
    obtain ⟨x, rfl, hx⟩ := ih h
    exact ⟨c :: x, rfl, by rw [List.getLast?_cons, hx]; rfl⟩

/-- The same piece before another rest. -/
def Piece.before (p : Piece) (rest : Text) : Piece :=
  match p with
  | .blank _ => .blank rest
  | .doc inner body _ => .doc inner body rest
  | .lexeme l _ => .lexeme l rest
  | .quoted literal _ => .quoted literal rest

@[simp] theorem Piece.before_rest (p : Piece) (rest : Text) : (p.before rest).rest = rest := by
  cases p <;> rfl

@[simp] theorem Piece.before_lexemes (p : Piece) (rest : Text) :
    (p.before rest).lexemes = p.lexemes := by
  cases p <;> rfl

/-- A comment `x` that leaves what a piece leaves. -/
structure CommentCut (x : Text) (p : Piece) : Prop where
  length : 2 ≤ x.length
  seam : p.lexemes ≠ [] → Seam x p.rest
  near : ∀ y u, p.rest = y ++ u → y ≠ ['\r'] → comment? (x ++ y) = some (p.before y)

/-- What does not begin so does not begin so where it ends earlier. -/
theorem ne_of_append (w : Text) {r a u : Text} (hr : r = a ++ u) (h : ∀ s, r = w ++ s → False) :
    ∀ s, a = w ++ s → False := by
  rintro s rfl
  exact h (s ++ u) (by rw [hr, List.append_assoc])

/-- A comment up to the end of its line. -/
theorem exists_lineCut (opening : Text) {r : Text} {p : Piece} (hlen : 2 ≤ opening.length)
    (hrest : p.rest = (cutLine r).2)
    (hnear : ∀ y u, r = (cutLine r).1 ++ y ++ u →
      cutLine ((cutLine r).1 ++ y) = ((cutLine r).1, y) →
      comment? (opening ++ ((cutLine r).1 ++ y)) = some (p.before y)) :
    ∃ x, opening ++ r = x ++ p.rest ∧ CommentCut x p := by
  refine ⟨opening ++ (cutLine r).1, ?_, ?_, fun _ => ?_, fun y u hy hr => ?_⟩
  · rw [hrest, List.append_assoc, ← cutLine_append]
  · rw [List.length_append]
    omega
  · rw [hrest]
    exact .of_head (cutLine_head r)
  · have hfar : r = (cutLine r).1 ++ (y ++ u) := by
      rw [← hy, hrest, ← cutLine_append]
    have hcut : cutLine ((cutLine r).1 ++ (y ++ u)) = ((cutLine r).1, y ++ u) := by
      rw [← hfar, ← hy, hrest]
    rw [List.append_assoc]
    exact hnear y u (by rw [List.append_assoc, ← hfar]) (cutLine_near hcut hr)

/-- A comment up to what closes it. -/
theorem exists_blockCut (opening : Text) {r z : Text} {p : Piece} (hlen : 2 ≤ opening.length)
    (hr : r = z ++ p.rest) (hlast : z.getLast? = some '/')
    (hnear : ∀ y u, r = z ++ y ++ u → comment? (opening ++ (z ++ y)) = some (p.before y)) :
    ∃ x, opening ++ r = x ++ p.rest ∧ CommentCut x p := by
  refine ⟨opening ++ z, by rw [hr, List.append_assoc], ?_, fun _ => ?_, fun y u hy _ => ?_⟩
  · rw [List.length_append]
    omega
  · refine .of_last (c := '/') ?_ (by decide)
    rw [List.getLast?_append, hlast]
    rfl
  · rw [List.append_assoc]
    exact hnear y u (by rw [List.append_assoc, ← hy, ← hr])

theorem docPiece?_eq_some {inner : Bool} {body rest : Text} {p : Piece}
    (h : docPiece? inner body rest = some p) :
    p.rest = rest ∧ ∀ y, docPiece? inner body y = some (p.before y) := by
  unfold docPiece? at h ⊢
  split at h
  · next hw =>
    obtain rfl := Option.some.inj h
    exact ⟨rfl, fun y => by rw [if_pos hw]; rfl⟩
  · simp at h

/-- What a block comment takes, whatever follows it. -/
theorem exists_block {depth : Nat} {t v : Text} (h : afterComment? depth t = some v) :
    ∃ z, t = z ++ v ∧ z.getLast? = some '/' ∧ ∀ w, afterComment? depth (z ++ w) = some w := by
  obtain ⟨z, ht, hlast⟩ := afterComment?_last h
  obtain ⟨z', ht', -, hw⟩ := afterComment?_only depth h
  obtain rfl := List.append_cancel_right (ht.symm.trans ht')
  exact ⟨z, ht, hlast, hw⟩

theorem exists_blank {depth : Nat} {r : Text} {p : Piece}
    (h : (afterComment? depth r).map .blank = some p) :
    ∃ z, r = z ++ p.rest ∧ z.getLast? = some '/' ∧
      ∀ w, (afterComment? depth (z ++ w)).map .blank = some (p.before w) := by
  obtain ⟨v, hv, rfl⟩ := Option.map_eq_some_iff.mp h
  obtain ⟨z, hr, hlast, hw⟩ := exists_block hv
  exact ⟨z, hr, hlast, fun w => by rw [hw]; rfl⟩

theorem exists_blockDoc {inner : Bool} {r : Text} {p : Piece} (h : blockDoc? inner r = some p) :
    ∃ z, r = z ++ p.rest ∧ z.getLast? = some '/' ∧
      ∀ w, blockDoc? inner (z ++ w) = some (p.before w) := by
  obtain ⟨v, hv, hd⟩ := Option.bind_eq_some_iff.mp h
  obtain ⟨z, rfl, hlast, hw⟩ := exists_block hv
  have hbody : ∀ w : Text,
      (z ++ w).take ((z ++ w).length - w.length - 2) = z.take (z.length - 2) := fun w => by
    rw [List.length_append, Nat.add_sub_cancel]
    exact List.take_append_of_le_length (Nat.sub_le _ _)
  rw [hbody] at hd
  obtain ⟨rfl, hnear⟩ := docPiece?_eq_some hd
  refine ⟨z, rfl, hlast, fun w => ?_⟩
  simp only [blockDoc?, hw, Option.bind_some, hbody, hnear]

theorem front_of_last {z r v : Text} {c : Char} (hlast : z.getLast? = some c) (hr : r = z ++ v) :
    ∃ d z', z = d :: z' ∧ r = d :: (z' ++ v) := by
  cases z with
  | nil => simp at hlast
  | cons d z' => exact ⟨d, z', rfl, hr⟩

theorem exists_commentCut {t : Text} {p : Piece} (h : comment? t = some p) :
    ∃ x, t = x ++ p.rest ∧ CommentCut x p := by
  unfold comment? at h
  split at h
  case h_1 r =>
    obtain rfl := Option.some.inj h
    refine exists_lineCut ['/', '/', '/', '/'] (by simp) rfl fun y u hr hc => ?_
    refine (comment?.eq_1 ((cutLine r).1 ++ y)).trans ?_
    rw [hc]
    rfl
  case h_2 r hslash =>
    obtain ⟨hrest, hdoc⟩ := docPiece?_eq_some h
    refine exists_lineCut ['/', '/', '/'] (by simp) hrest fun y u hr hc => ?_
    refine (comment?.eq_2 _ (ne_of_append ['/'] hr hslash)).trans ?_
    rw [hc]
    exact hdoc y
  case h_3 r =>
    obtain ⟨hrest, hdoc⟩ := docPiece?_eq_some h
    refine exists_lineCut ['/', '/', '!'] (by simp) hrest fun y u hr hc => ?_
    refine (comment?.eq_3 ((cutLine r).1 ++ y)).trans ?_
    rw [hc]
    exact hdoc y
  case h_4 r hslashes hslash hmark =>
    obtain rfl := Option.some.inj h
    refine exists_lineCut ['/', '/'] (by simp) rfl fun y u hr hc => ?_
    refine (comment?.eq_4 _ (ne_of_append ['/', '/'] hr hslashes)
      (ne_of_append ['/'] hr hslash) (ne_of_append ['!'] hr hmark)).trans ?_
    rw [hc]
    rfl
  case h_5 r =>
    obtain rfl := Option.some.inj h
    have hr : '/' :: r = ['/'] ++ r := rfl
    exact exists_blockCut ['/', '*', '*'] (by simp) hr rfl fun y u _ => rfl
  case h_6 r =>
    -- The stars that open the comment do not close it.
    have hstar : ∀ s, afterComment? 1 ('*' :: '*' :: s) = afterComment? 1 ('*' :: s) := fun _ => rfl
    rw [hstar] at h
    obtain ⟨z, hr, hlast, hw⟩ := exists_blank h
    obtain ⟨d, z, rfl, hr'⟩ := front_of_last hlast hr
    obtain ⟨rfl, hr'⟩ := List.cons.inj hr'
    refine exists_blockCut ['/', '*', '*'] (by simp) hr hlast fun y u _ => ?_
    refine (comment?.eq_6 (z ++ y)).trans ?_
    rw [hstar]
    exact hw y
  case h_7 r hslash hstar =>
    obtain ⟨z, hr, hlast, hw⟩ := exists_blockDoc h
    refine exists_blockCut ['/', '*', '*'] (by simp) hr hlast fun y u hfar => ?_
    refine (comment?.eq_7 _ (ne_of_append ['/'] hfar hslash)
      (ne_of_append ['*'] hfar hstar)).trans ?_
    exact hw y
  case h_8 r =>
    obtain ⟨z, hr, hlast, hw⟩ := exists_blockDoc h
    refine exists_blockCut ['/', '*', '!'] (by simp) hr hlast fun y u _ => ?_
    exact (comment?.eq_8 _).trans (hw y)
  case h_9 r hclose hstars hstar hmark =>
    obtain ⟨z, hr, hlast, hw⟩ := exists_blank h
    refine exists_blockCut ['/', '*'] (by simp) hr hlast fun y u hfar => ?_
    refine (comment?.eq_9 _ (ne_of_append ['*', '/'] hfar hclose)
      (ne_of_append ['*', '*'] hfar hstars) (ne_of_append ['*'] hfar hstar)
      (ne_of_append ['!'] hfar hmark)).trans ?_
    exact hw y
  case h_10 => simp at h

end FieldKeys
