import FieldKeys.Proofs.Grammar.Extent
import FieldKeys.Proofs.Text.Cover

/-! The characters that a span covers. The tokens of a span are found again when its characters are
read alone. -/

namespace FieldKeys

def Position.before (p q : Position) : Bool :=
  decide (p.line < q.line) || (p.line == q.line && decide (p.column < q.column))

def Span.holds (s : Span) (p : Position) : Bool :=
  !p.before s.start && p.before s.stop

/-- The characters of a span, in a text that begins at a position. -/
def Span.cut (s : Span) : Position → Text → Text
  | _, [] => []
  | p, c :: r => if s.holds p then c :: s.cut (p.next c) r else s.cut (p.next c) r

def Span.slice (s : Span) (text : Text) : Text :=
  s.cut .origin text

theorem Position.before_iff {p q : Position} :
    p.before q = true ↔ p.line < q.line ∨ p.line = q.line ∧ p.column < q.column := by
  simp [before]

theorem Position.before_next (p : Position) (c : Char) : p.before (p.next c) = true := by
  rw [before_iff, next]
  split
  · exact .inl (Nat.lt_succ_self _)
  · exact .inr ⟨rfl, Nat.lt_succ_self _⟩

theorem Position.before_of_le {p q r : Position} (h : p.before q = true) (h' : ¬ r.before q = true) :
    p.before r = true := by
  rw [before_iff] at *
  omega

theorem Position.le_of_before {p q r : Position} (h : ¬ q.before p = true) (h' : q.before r = true) :
    ¬ r.before p = true := by
  rw [before_iff] at *
  omega

theorem Position.not_before_self (p : Position) : ¬ p.before p = true := by
  rw [before_iff]
  omega

theorem Position.not_advance_before (p : Position) (t : Text) : ¬ (p.advance t).before p = true := by
  induction t generalizing p with
  | nil => exact p.not_before_self
  | cons c t ih =>
    have hnext := p.before_next c
    have hrest : ¬ (p.advance (c :: t)).before (p.next c) = true := ih (p.next c)
    rw [before_iff] at *
    omega

theorem Position.before_advance (p : Position) (c : Char) (t : Text) :
    p.before (p.advance (c :: t)) = true :=
  before_of_le (p.before_next c) ((p.next c).not_advance_before t)

theorem Span.cut_append (s : Span) (p : Position) (a b : Text) :
    s.cut p (a ++ b) = s.cut p a ++ s.cut (p.advance a) b := by
  induction a generalizing p with
  | nil => rfl
  | cons c a ih =>
    have hh := ih (p.next c)
    simp only [List.cons_append, cut, hh]
    split <;> rfl

theorem Span.cut_front {s : Span} {p : Position} {a : Text}
    (h : ¬ s.start.before (p.advance a) = true) : s.cut p a = [] := by
  induction a generalizing p with
  | nil => rfl
  | cons c a ih =>
    have hp : p.before s.start = true := Position.before_of_le (p.before_advance c a) h
    simp only [cut, holds, hp, Bool.not_true, Bool.false_and, if_neg Bool.false_ne_true]
    exact ih h

theorem Span.cut_inside {s : Span} {p : Position} {a : Text} (h : ¬ p.before s.start = true)
    (h' : ¬ s.stop.before (p.advance a) = true) : s.cut p a = a := by
  induction a generalizing p with
  | nil => rfl
  | cons c a ih =>
    have hp : p.before s.stop = true := Position.before_of_le (p.before_advance c a) h'
    have hstart : p.before s.start = false := Bool.eq_false_iff.mpr h
    simp only [cut, holds, hp, hstart, Bool.not_false, Bool.and_self, if_true]
    rw [ih (Position.le_of_before h (p.before_next c)) h']

theorem Span.cut_back {s : Span} {p : Position} {u : Text} (h : ¬ p.before s.stop = true) :
    s.cut p u = [] := by
  induction u generalizing p with
  | nil => rfl
  | cons c u ih =>
    have hp : p.before s.stop = false := Bool.eq_false_iff.mpr h
    simp only [cut, holds, hp, Bool.and_false, if_neg Bool.false_ne_true]
    exact ih (Position.le_of_before h (p.before_next c))

theorem Span.slice_append (a s u : Text) :
    Span.slice ⟨Position.origin.advance a, Position.origin.advance (a ++ s)⟩ (a ++ s ++ u) = s := by
  rw [slice, cut_append, cut_append, cut_front (Position.not_before_self _),
    cut_inside (Position.not_before_self _), cut_back (Position.not_before_self _), List.nil_append,
    List.append_nil]
  rw [← Position.advance_append]
  exact Position.not_before_self _

theorem balanced_alike {ts ts' : List Token} (h : Alike ts ts') (pending : List Delimiter) :
    balanced pending ts = balanced pending ts' := by
  induction h generalizing pending with
  | nil | sign => rfl
  | cons l s s' h ih => 
    simp only [balanced, ih]

/-- Brackets that are balanced in a text are balanced in every part that closes what it opens. -/
theorem balanced_part {pending others : List Delimiter} {ts back : List Token}
    (h : balanced (pending ++ others) (ts ++ back) = true)
    (hd : depthAfter? pending.length (ts.map (·.lexeme)) = some 0) : balanced pending ts = true := by
  induction ts generalizing pending with
  | nil =>
    have hlen : pending.length = 0 := Option.some.inj hd
    rw [List.length_eq_zero_iff.mp hlen]
    rfl
  | cons t ts ih =>
    obtain ⟨k, hl, hk⟩ := depthAfter?_cons hd
    dsimp only at hl
    cases ht : t.lexeme with
    | opening d =>
      rw [ht] at hl
      obtain rfl : pending.length + 1 = k := Option.some.inj hl
      simp only [List.cons_append, balanced, ht] at h ⊢
      have h : balanced ((d :: pending) ++ others) (ts ++ back) = true := h
      exact ih h hk
    | closing d =>
      rw [ht] at hl
      cases pending with
      | nil => simp [Lexeme.depthAfter?] at hl
      | cons e pending =>
        obtain rfl : pending.length = k := Option.some.inj hl
        simp only [List.cons_append, balanced, ht, Bool.and_eq_true] at h ⊢
        exact ⟨h.1, ih h.2 hk⟩
    | _ =>
      rw [ht] at hl
      obtain rfl : pending.length = k := Option.some.inj hl
      simp only [List.cons_append, balanced, ht] at h ⊢
      exact ih h hk

theorem balanced_suffix {pending : List Delimiter} {front ts : List Token}
    (h : balanced pending (front ++ ts) = true) : ∃ others, balanced others ts = true := by
  induction front generalizing pending with
  | nil => exact ⟨pending, h⟩
  | cons t front ih =>
    rw [List.cons_append] at h
    cases ht : t.lexeme with
    | opening d =>
      simp only [balanced, ht] at h
      exact ih h
    | closing d =>
      cases pending with
      | nil => simp [balanced, ht] at h
      | cons e pending =>
        simp only [balanced, ht, Bool.and_eq_true] at h
        exact ih h.2
    | _ =>
      simp only [balanced, ht] at h
      exact ih h

/-- The mark of byte order that may stand at the very start. -/
def ByteOrderMark (mark : Text) : Prop := mark = [] ∨ mark = [byteOrderMark]

theorem Token.scans_of_scan? {text : Text} {ts : List Token} (h : Token.scan? text = some ts) :
    ∃ mark t, ByteOrderMark mark ∧ text = mark ++ t ∧ Scans (Position.origin.advance mark) t ts [] ∧
      balanced [] ts = true := by
  obtain ⟨hs, hb⟩ := Option.filter_eq_some_iff.mp h
  cases text with
  | nil =>
    obtain rfl := Option.some.inj hs
    exact ⟨[], [], .inl rfl, rfl, .nil _ _, hb⟩
  | cons c r =>
    simp only at hs
    split at hs
    · next hc =>
      subst hc
      exact ⟨[byteOrderMark], r, .inr rfl, rfl, scans_of_scanFrom hs, hb⟩
    · exact ⟨[], c :: r, .inl rfl, rfl, scans_of_scanFrom hs, hb⟩

theorem piece?_byteOrderMark (r : Text) : piece? (byteOrderMark :: r) = none := by
  have hl : afterLiteral? (byteOrderMark :: r) = none := rfl
  have hb : isBlank byteOrderMark = false := by decide +kernel
  have hs : byteOrderMark ≠ '/' := by decide +kernel
  have hd : delimiter? byteOrderMark = none := by decide +kernel
  have hleaf : leaf? (byteOrderMark :: r) = none := by
    have hq : byteOrderMark ≠ '\'' := by decide +kernel
    have hsign : startsSign (byteOrderMark :: r) = false := rfl
    have hw : startsWord byteOrderMark = false := by decide +kernel
    have hn : afterName? (byteOrderMark :: r) = none := by
      have hname : afterName? (byteOrderMark :: r) = afterWord? (byteOrderMark :: r) := rfl
      rw [hname, afterWord?, hw, if_neg Bool.false_ne_true]
    rw [leaf?_eq hl, if_neg hq, hsign, if_neg Bool.false_ne_true, hn]
    exact ite_self _
  simp [piece?, hb, hs, hd, hleaf]

theorem Token.scan?_of_covers {text : Text} {ts : List Token} (h : Covers .origin text ts [])
    (hb : balanced [] ts = true) : Token.scan? text = some ts := by
  refine Option.filter_eq_some_iff.mpr ⟨?_, hb⟩
  cases text with
  | nil =>
    obtain ⟨piece, hp⟩ := h.exists_piece
    simp [piece?] at hp
  | cons c r =>
    have hc : c ≠ byteOrderMark := by
      rintro rfl
      obtain ⟨piece, hp⟩ := h.exists_piece
      simp [piece?_byteOrderMark] at hp
    simp only [hc, if_false]
    exact scanFrom_of_scans h.scans (Nat.le_refl _)

/-- What can be cut off a piece of several tokens. -/
structure PieceFront (a b : List Lexeme) : Prop where
  rest : ∀ joint, b.head? ≠ some (.sign '#' joint)
  value : ∀ joint, a.getLast? = some (.sign '=' joint) →
    a.dropLast.getLast? = some (.word "doc".toList)
  inside : Broken a ∨ depthAfter? 0 a = some 1

theorem docFront_take {n : Nat} (inner : Bool) (body : Text) (hn : 0 < n)
    (hl : n < (Piece.doc inner body []).lexemes.length) :
    PieceFront ((Piece.doc inner body []).lexemes.take n)
      ((Piece.doc inner body []).lexemes.drop n) := by
  cases inner with
  | false =>
    change n < 6 at hl
    obtain rfl | hn : n = 1 ∨ n = 2 ∨ n = 3 ∨ n = 4 ∨ n = 5 := by omega
    · exact ⟨by simp [Piece.lexemes], by simp [Piece.lexemes], .inl (.attribute false)⟩
    rcases hn with rfl | rfl | rfl | rfl <;>
      exact ⟨by simp [Piece.lexemes], by simp [Piece.lexemes], .inr rfl⟩
  | true =>
    change n < 7 at hl
    obtain rfl | rfl | hn : n = 1 ∨ n = 2 ∨ n = 3 ∨ n = 4 ∨ n = 5 ∨ n = 6 := by omega
    · exact ⟨by simp [Piece.lexemes], by simp [Piece.lexemes], .inl (.attribute false)⟩
    · exact ⟨by simp [Piece.lexemes], by simp [Piece.lexemes], .inl (.innerAttribute false false)⟩
    rcases hn with rfl | rfl | rfl | rfl <;>
      exact ⟨by simp [Piece.lexemes], by simp [Piece.lexemes], .inr rfl⟩

theorem pieceFront {piece : Piece} {a b : List Lexeme} (h : a ++ b = piece.lexemes) (ha : a ≠ [])
    (hb : b ≠ []) : PieceFront a b := by
  have hlen := congrArg List.length h
  have hapos := List.length_pos_of_ne_nil ha
  have hbpos := List.length_pos_of_ne_nil hb
  rw [List.length_append] at hlen
  cases piece with
  | blank rest => exact absurd (List.append_eq_nil_iff.mp h).1 ha
  | lexeme l rest =>
    rw [Piece.lexemes, List.length_singleton] at hlen
    omega
  | quoted literal rest =>
    obtain ⟨sign, rfl⟩ : ∃ sign, a = [sign] := List.length_eq_one_iff.mp (by
      simp only [Piece.lexemes, List.length_cons, List.length_nil] at hlen
      omega)
    obtain ⟨rfl, rfl⟩ := List.cons.inj h
    exact ⟨by simp, by simp, .inl (.quote true)⟩
  | doc inner body rest =>
    have h : a ++ b = (Piece.doc inner body []).lexemes := h
    have hlen : a.length + b.length = (Piece.doc inner body []).lexemes.length := hlen
    have hd := docFront_take inner body hapos (by omega)
    rwa [← h, List.take_left, List.drop_left] at hd

theorem not_straddles_nil (us : List Token) : ¬ Straddles [] us := by
  rintro ⟨piece, front, back, a, b, hts, -, ha, -⟩
  exact ha (List.append_eq_nil_iff.mp hts.symm).2

theorem not_straddles_attribute {ts us : List Token} {hash : Token} {joint : Bool}
    (hh : hash.lexeme = .sign '#' joint) : ¬ Straddles ts (hash :: us) := by
  rintro ⟨piece, front, back, a, b, -, hus, ha, hb, hd⟩
  rw [List.map_append] at hd
  refine (pieceFront hd (by simpa using ha) (by simpa using hb)).rest joint ?_
  obtain ⟨t, b, rfl⟩ := List.exists_cons_of_ne_nil hb
  obtain ⟨rfl, -⟩ := List.cons.inj hus
  simp [hh]

theorem not_straddles_argument {ts us : List Token} {label equals : Token} {name : Text}
    {joint : Bool} (hl : label.lexeme = .word name) (hn : name ≠ "doc".toList)
    (he : equals.lexeme = .sign '=' joint) : ¬ Straddles (ts ++ [label, equals]) us := by
  rintro ⟨piece, front, back, a, b, hts, -, ha, hb, hd⟩
  rw [List.map_append] at hd
  have hdoc := (pieceFront hd (by simpa using ha) (by simpa using hb)).value joint
  have hlast : a.getLast? = some equals := by
    have hh := congrArg List.getLast? hts
    rw [List.getLast?_append_of_ne_nil _ ha] at hh
    simpa using hh.symm
  obtain ⟨a, rfl⟩ := List.getLast?_eq_some_iff.mp hlast
  have hword := hdoc (by simp [he])
  rw [List.map_append, List.map_singleton, List.dropLast_concat, List.getLast?_map] at hword
  obtain ⟨t, ht, hdoc⟩ := Option.map_eq_some_iff.mp hword
  have hlabel : some label = some t := by
    have hh := congrArg (fun ts => ts.dropLast.getLast?) hts
    simpa [List.dropLast_append_cons, List.getLast?_append, ht] using hh
  obtain rfl := Option.some.inj hlabel
  exact hn (Lexeme.word.inj (hl.symm.trans hdoc))

theorem EndsWhole.not_straddles {ts us : List Token} (h : EndsWhole ts)
    (hd : depthAfter? 0 (ts.map (·.lexeme)) = some 0) : ¬ Straddles ts us := by
  rintro ⟨piece, front, back, a, b, rfl, -, ha, hb, hdoc⟩
  rw [List.map_append] at hdoc hd
  rcases (pieceFront hdoc (by simpa using ha) (by simpa using hb)).inside with hbroken | hdeep
  · exact h (front.map (·.lexeme)) _ (List.map_append ..) hbroken
  · rw [depthAfter?_append] at hd
    obtain ⟨n, -, hn⟩ := Option.bind_eq_some_iff.mp hd
    have hdeep := depthAfter?_add n hdeep
    rw [Nat.zero_add, hn] at hdeep
    have hz := Option.some.inj hdeep
    omega

/-- The tokens of a span are found again when its characters are read alone. -/
theorem Token.scan?_slice {text : Text} {front ts back : List Token} {span : Span}
    (h : Token.scan? text = some (front ++ (ts ++ back))) (hs : Token.spanOf? ts = some span)
    (hf : ¬ Straddles front (ts ++ back)) (he : EndsWhole ts)
    (hd : depthAfter? 0 (ts.map (·.lexeme)) = some 0) :
    ∃ ts', Token.scan? (span.slice text) = some ts' ∧ Alike ts ts' ∧
      Token.spanOf? ts' = some ⟨.origin, Position.origin.advance (span.slice text)⟩ := by
  obtain ⟨mark, t, -, rfl, hscan, hbalanced⟩ := Token.scans_of_scan? h
  obtain ⟨s, u, rfl, -, hrest⟩ := hscan.split hf
  obtain ⟨_, _, _, hts, -⟩ := hrest.split (he.not_straddles hd)
  have hnil : ts ≠ [] := by
    rintro rfl
    simp [Token.spanOf?] at hs
  obtain ⟨v, hc⟩ := hts.exists_covers hnil
  obtain ⟨a, w, rfl, hc, hbegins⟩ := hc.trim
  obtain ⟨x, rfl, -, -, hlast⟩ := hc.front
  have hstart := hc.head hbegins
  obtain ⟨ts', hc', halike, hb'⟩ := hc.alone he .origin
  have hspan : span = ⟨Position.origin.advance (mark ++ s ++ a),
      Position.origin.advance (mark ++ s ++ a ++ x)⟩ := by
    have hh : Token.spanOf? ts = some ⟨_, _⟩ := spanOf?_eq_some_iff.mpr ⟨hstart, hlast⟩
    rw [hh] at hs
    simp only [Position.advance_append]
    exact (Option.some.inj hs).symm
  have hslice : span.slice (mark ++ (s ++ (a ++ (x ++ v)))) = x := by
    have hh := Span.slice_append (mark ++ s ++ a) x v
    rw [← hspan] at hh
    simpa only [List.append_assoc] using hh
  rw [hslice]
  refine ⟨ts', Token.scan?_of_covers hc' ?_, halike, ?_⟩
  · obtain ⟨others, ho⟩ := balanced_suffix hbalanced
    have ho : balanced ([] ++ others) (ts ++ back) = true := ho
    rw [← balanced_alike halike]
    exact balanced_part ho hd
  · obtain ⟨x', hx, -, -, hlast⟩ := hc'.front
    rw [List.append_nil] at hx
    subst hx
    exact spanOf?_eq_some_iff.mpr ⟨hc'.head (hb' hbegins), hlast⟩

end FieldKeys
