import FieldKeys.Proofs.Grammar.Alike
import FieldKeys.Proofs.Text.Piece

/-! Whole pieces in front of a text, and the tokens that they give. If the last of them is no blank,
they can be cut out of the text and read alone. -/

namespace FieldKeys

def Piece.tokens (p : Piece) (s : Span) : List Token := p.lexemes.map (⟨·, s⟩)

/-- Pieces in front of a text that begins at a position, up to what they leave. -/
inductive Scans : Position → Text → List Token → Text → Prop
  | nil (p : Position) (t : Text) : Scans p t [] t
  | cons {p : Position} {t x u : Text} {piece : Piece} {ts : List Token} (h : piece? t = some piece)
      (ht : t = x ++ piece.rest) (hs : Scans (p.advance x) piece.rest ts u) :
      Scans p t (piece.tokens ⟨p, p.advance x⟩ ++ ts) u

/-- Pieces in front of a text of which the last is no blank. -/
inductive Covers : Position → Text → List Token → Text → Prop
  | last {p : Position} {t x : Text} {piece : Piece} (h : piece? t = some piece)
      (ht : t = x ++ piece.rest) (hl : piece.lexemes ≠ []) :
      Covers p t (piece.tokens ⟨p, p.advance x⟩) piece.rest
  | more {p : Position} {t x u : Text} {piece : Piece} {ts : List Token} (h : piece? t = some piece)
      (ht : t = x ++ piece.rest) (hs : Covers (p.advance x) piece.rest ts u) :
      Covers p t (piece.tokens ⟨p, p.advance x⟩ ++ ts) u

theorem take_of_append {x v t : Text} (h : t = x ++ v) : t.take (t.length - v.length) = x := by
  rw [h]
  exact take_front x v

theorem scanFrom_succ {n : Nat} {p : Position} {t x : Text} {piece : Piece}
    (h : piece? t = some piece) (ht : t = x ++ piece.rest) : scanFrom (n + 1) p t =
      (scanFrom n (p.advance x) piece.rest).map (piece.tokens ⟨p, p.advance x⟩ ++ ·) := by
  cases t with
  | nil => simp [piece?] at h
  | cons c r =>
    simp only [scanFrom, h, Option.bind_some, take_of_append ht]
    rfl

theorem scans_of_scanFrom {n : Nat} {p : Position} {t : Text} {ts : List Token}
    (h : scanFrom n p t = some ts) : Scans p t ts [] := by
  induction n generalizing p t ts with
  | zero =>
    cases t with
    | nil =>
      obtain rfl := Option.some.inj h
      exact .nil p []
    | cons c r => simp [scanFrom] at h
  | succ n ih =>
    cases t with
    | nil =>
      obtain rfl := Option.some.inj h
      exact .nil p []
    | cons c r =>
      obtain ⟨piece, hp, -⟩ := Option.bind_eq_some_iff.mp h
      obtain ⟨x, ht, -⟩ := piece?_seam hp
      rw [scanFrom_succ hp ht] at h
      obtain ⟨others, ho, rfl⟩ := Option.map_eq_some_iff.mp h
      exact .cons hp ht (ih ho)

theorem scanFrom_of_scans {n : Nat} {p : Position} {t : Text} {ts : List Token}
    (h : Scans p t ts []) (hn : t.length ≤ n) : scanFrom n p t = some ts := by
  generalize hu : ([] : Text) = u at h
  induction h generalizing n with
  | nil p t =>
    obtain rfl := hu
    cases n <;> rfl
  | @cons p t x u piece ts h ht hs ih =>
    have hlen := congrArg List.length ht
    have hpos := List.length_pos_of_ne_nil (piece?_front h ht).1
    rw [List.length_append] at hlen
    obtain ⟨n, rfl⟩ := Nat.exists_eq_succ_of_ne_zero (show n ≠ 0 by omega)
    rw [scanFrom_succ h ht, ih (by omega) hu]
    rfl

theorem Covers.scans {p : Position} {t u : Text} {ts : List Token} (h : Covers p t ts u) :
    Scans p t ts u := by
  induction h with
  | @last p t x piece h ht hl =>
    have hh := Scans.cons h ht (.nil (p.advance x) piece.rest)
    rwa [List.append_nil] at hh
  | more h ht hs ih => exact .cons h ht ih

/-- Blanks at the end are left. -/
theorem Scans.exists_covers {p : Position} {t u : Text} {ts : List Token} (h : Scans p t ts u)
    (hts : ts ≠ []) : ∃ v, Covers p t ts v := by
  induction h with
  | nil => exact absurd rfl hts
  | @cons p t x u piece ts h ht hs ih =>
    by_cases hn : ts = []
    · subst hn
      rw [List.append_nil] at hts ⊢
      exact ⟨_, .last h ht fun hl => hts (by rw [Piece.tokens, hl]; rfl)⟩
    · obtain ⟨v, hv⟩ := ih hn
      exact ⟨v, .more h ht hv⟩

/-- A text that begins with no blank. -/
def Begins (t : Text) : Prop := ∃ piece, piece? t = some piece ∧ piece.lexemes ≠ []

theorem Piece.tokens_last {piece : Piece} {s : Span} (h : piece.lexemes ≠ []) :
    (piece.tokens s).getLast?.map (·.span.stop) = some s.stop := by
  rw [tokens, List.getLast?_map, Option.map_map]
  cases hl : piece.lexemes.getLast? with
  | none => exact absurd (List.getLast?_eq_none_iff.mp hl) h
  | some l => rfl

/-- Blanks at the start are passed over. -/
theorem Covers.trim {p : Position} {t u : Text} {ts : List Token} (h : Covers p t ts u) :
    ∃ a v, t = a ++ v ∧ Covers (p.advance a) v ts u ∧ Begins v := by
  induction h with
  | @last p t x piece h ht hl => exact ⟨[], t, rfl, .last h ht hl, piece, h, hl⟩
  | @more p t x u piece ts h ht hs ih =>
    by_cases hl : piece.lexemes = []
    · obtain ⟨a, v, hv, hc, hb⟩ := ih
      refine ⟨x ++ a, v, by rw [ht, hv, List.append_assoc], ?_, hb⟩
      rw [Position.advance_append, Piece.tokens, hl]
      exact hc
    · exact ⟨[], t, rfl, .more h ht hs, piece, h, hl⟩

theorem Covers.front {p : Position} {t u : Text} {ts : List Token} (h : Covers p t ts u) :
    ∃ s, t = s ++ u ∧ s ≠ [] ∧ ts ≠ [] ∧ ts.getLast?.map (·.span.stop) = some (p.advance s) := by
  induction h with
  | @last p t x piece h ht hl =>
    have hne := (piece?_front h ht).1
    exact ⟨x, ht, hne, by simpa [Piece.tokens] using hl, Piece.tokens_last hl⟩
  | @more p t x u piece ts h ht hs ih =>
    obtain ⟨s, hs, hne, hts, hlast⟩ := ih
    refine ⟨x ++ s, by rw [ht, hs, List.append_assoc], by simp [hne], by simp [hts], ?_⟩
    rw [Position.advance_append, ← hlast, List.getLast?_append]
    cases hl : ts.getLast? with
    | none => exact absurd (List.getLast?_eq_none_iff.mp hl) hts
    | some l => rfl

theorem Seam.append {a b u : Text} (h : Seam b u) (hb : b ≠ []) : Seam (a ++ b) u := by
  intro c hc
  refine h c ?_
  rw [List.getLast?_append] at hc
  cases hl : b.getLast? with
  | none => exact absurd (List.getLast?_eq_none_iff.mp hl) hb
  | some d => rwa [hl] at hc

theorem Covers.seam {p : Position} {s u : Text} {ts : List Token} (h : Covers p (s ++ u) ts u) :
    Seam s u := by
  generalize ht : s ++ u = t at h
  induction h generalizing s with
  | @last p t x piece h ht' hl =>
    obtain rfl := List.append_cancel_right (ht.trans ht')
    exact (piece?_front h ht').2 hl
  | @more p t x u piece ts h ht' hs ih =>
    obtain ⟨s', hs', hne, -⟩ := hs.front
    have hh : s = x ++ s' := by
      rw [ht', hs', ← List.append_assoc] at ht
      exact List.append_cancel_right ht
    rw [hh]
    exact (ih hs'.symm).append hne

theorem Covers.one {p : Position} {c : Char} {u : Text} {ts : List Token}
    (h : Covers p (c :: u) ts u) : ∃ piece, piece? (c :: u) = some piece ∧ piece.rest = u ∧
      piece.lexemes ≠ [] ∧ ts = piece.tokens ⟨p, p.next c⟩ := by
  generalize ht : c :: u = t at h
  cases h with
  | @last p t x piece h ht' hl =>
    obtain rfl : x = [c] := List.append_cancel_right (ht'.symm.trans ht.symm)
    exact ⟨piece, h, rfl, hl, rfl⟩
  | @more p t x u piece ts h ht' hs =>
    obtain ⟨s, hs', hne', -⟩ := hs.front
    have hlen := congrArg List.length (ht.trans ht')
    have hx' := List.length_pos_of_ne_nil (piece?_front h ht').1
    have hs'' := List.length_pos_of_ne_nil hne'
    rw [hs'] at hlen
    simp only [List.length_append, List.length_cons] at hlen
    omega

theorem Covers.ne_carriage {p : Position} {s u : Text} {ts : List Token}
    (h : Covers p (s ++ u) ts u) : s ≠ ['\r'] := by
  rintro rfl
  obtain ⟨piece, hp, -, hl, -⟩ := h.one
  have hblank : piece? ('\r' :: u) = some (.blank u) := rfl
  rw [← Option.some.inj (hblank.symm.trans hp)] at hl
  exact hl rfl

theorem piece?_comment {c : Char} {r : Text}
    (h : c = '/' ∧ r.head?.any (fun d => d == '/' || d == '*') = true) :
    piece? (c :: r) = comment? (c :: r) := by
  have hblank : ¬ isBlank c = true := by
    rw [h.1]
    decide
  simp only [piece?]
  rw [if_neg hblank, if_pos h]

theorem startsSign_front (c d : Char) (s u : Text) :
    startsSign (c :: d :: s ++ u) = startsSign (c :: d :: s) := by
  by_cases h : c = '/' ∧ (d == '/' || d == '*') = true
  · obtain ⟨rfl, h⟩ := h
    rcases Bool.or_eq_true_iff.mp h with hd | hd <;> rw [eq_of_beq hd] <;> rfl
  · rw [List.cons_append, startsSign_iff h, startsSign_iff h]

/-- A sign is joint to what a covered text begins with, whatever comes after that. -/
theorem Covers.startsSign_append {p : Position} {s u : Text} {ts : List Token}
    (h : Covers p (s ++ u) ts u) : startsSign (s ++ u) = startsSign s := by
  obtain ⟨s', hs', hne, -⟩ := h.front
  obtain rfl := List.append_cancel_right hs'
  rcases s with _ | ⟨c, _ | ⟨d, s⟩⟩
  · simp at hne
  · by_cases hc : c = '/' ∧ u.head?.any (fun d => d == '/' || d == '*') = true
    · -- A comment takes more than its first slash.
      obtain ⟨piece, hp, hrest, -⟩ := h.one
      obtain ⟨x, hx, hcut⟩ := exists_commentCut ((piece?_comment hc).symm.trans hp)
      have hrest : piece.rest = u := hrest
      have hlen := congrArg List.length (show c :: u = x ++ piece.rest from hx)
      have hx' := hcut.length
      rw [hrest, List.length_append, List.length_cons] at hlen
      omega
    · rw [List.cons_append, List.nil_append, startsSign_iff hc, startsSign_iff (by simp)]
  · exact startsSign_front c d s u

/-- What tokens must not end in to be told from what comes after them: parts of a number, the signs of
an attribute that a comment stands for, and the quote before a literal. -/
inductive Broken : List Lexeme → Prop
  | attribute (joint : Bool) : Broken [.sign '#' joint]
  | innerAttribute (joint joint' : Bool) : Broken [.sign '#' joint, .sign '!' joint']
  | quote (joint : Bool) : Broken [.sign '\'' joint]
  | point {text : Text} (h : text.head?.any isDigit = true) (joint : Bool) :
      Broken [.literal text, .sign '.' joint]
  | fraction {text part : Text} (h : text.head?.any isDigit = true)
      (hi : isIndexText part = false) (hd : isDecimalIndexText part = false) (joint : Bool) :
      Broken [.literal text, .sign '.' joint, .literal part]
  | exponent {text : Text} {c : Char} (h : text.head?.any isDigit = true) (hc : c = '+' ∨ c = '-')
      (joint : Bool) : Broken [.literal text, .sign c joint]

def EndsWhole (ts : List Token) : Prop :=
  ∀ front last, ts.map (·.lexeme) = front ++ last → ¬ Broken last

theorem EndsWhole.tail {ts us : List Token} (h : EndsWhole (ts ++ us)) : EndsWhole us := by
  intro front last hl
  exact h (ts.map (·.lexeme) ++ front) last (by rw [List.map_append, hl, List.append_assoc])

theorem piece?_sign {c : Char} (h : c = '.' ∨ c = '+' ∨ c = '-') (r : Text) :
    piece? (c :: r) = some (.lexeme (.sign c (startsSign r)) r) := by
  rcases h with rfl | rfl | rfl <;> rfl

/-- The first piece and what comes after it. -/
theorem Covers.first {p : Position} {t x u : Text} {piece : Piece} {ts : List Token}
    (h : Covers p t ts u) (hp : piece? t = some piece) (ht : t = x ++ piece.rest) :
    ∃ ts', ts = piece.tokens ⟨p, p.advance x⟩ ++ ts' ∧
      (piece.rest = u ∧ ts' = [] ∨ Covers (p.advance x) piece.rest ts' u) := by
  cases h with
  | @last _ _ x' piece' h ht' hl =>
    obtain rfl := Option.some.inj (hp.symm.trans h)
    obtain rfl := List.append_cancel_right (ht.symm.trans ht')
    exact ⟨[], (List.append_nil _).symm, .inl ⟨rfl, rfl⟩⟩
  | @more _ _ x' u piece' ts h ht' hs =>
    obtain rfl := Option.some.inj (hp.symm.trans h)
    obtain rfl := List.append_cancel_right (ht.symm.trans ht')
    exact ⟨ts, rfl, .inr hs⟩

theorem Covers.head {p : Position} {t u : Text} {ts : List Token} (h : Covers p t ts u)
    (hb : Begins t) : ts.head?.map (·.span.start) = some p := by
  obtain ⟨piece, hp, hl⟩ := hb
  obtain ⟨x, ht, -⟩ := piece?_seam hp
  obtain ⟨ts', rfl, -⟩ := h.first hp ht
  obtain ⟨l, ls, hl⟩ := List.exists_cons_of_ne_nil hl
  rw [Piece.tokens, hl]
  rfl

theorem Covers.sign {p : Position} {c : Char} {s u : Text} {ts : List Token}
    (h : Covers p (c :: (s ++ u)) ts u) (hc : c = '.' ∨ c = '+' ∨ c = '-') :
    ∃ joint span ts', ts = ⟨.sign c joint, span⟩ :: ts' ∧
      (s = [] ∧ ts' = [] ∨ Covers (p.next c) (s ++ u) ts' u) := by
  obtain ⟨ts', rfl, hh⟩ := h.first (x := [c]) (piece?_sign hc (s ++ u)) rfl
  refine ⟨_, _, ts', rfl, hh.imp_left fun hn => ⟨?_, hn.2⟩⟩
  exact List.append_left_eq_self.mp hn.1

theorem piece?_digit {d : Char} {r : Text} {piece : Piece} (hd : isDigit d = true)
    (h : piece? (d :: r) = some piece) : ∃ z v, d :: r = z ++ v ∧ z ≠ [] ∧
      piece = .lexeme (.literal z) v ∧ v.head?.any continuesWord = false := by
  have hbound : 48 ≤ d.toNat ∧ d.toNat ≤ 57 := by simpa [isDigit] using hd
  have hne : ∀ e : Char, (e.toNat < 48 ∨ 57 < e.toNat) → d ≠ e := by
    rintro e he rfl
    omega
  have hblank : isBlank d = false := by
    have hlt : d.toNat < 128 := by omega
    have hspace := hne ' ' (by decide)
    simp only [isBlank, hlt, if_true, Bool.or_eq_false_iff, Bool.and_eq_false_iff,
      decide_eq_false_iff_not, beq_eq_false_iff_ne]
    exact ⟨hspace, .inr (by omega)⟩
  have hdelim : delimiter? d = none := by
    unfold delimiter?
    rw [if_neg (hne _ (by decide)), if_neg (hne _ (by decide)), if_neg (hne _ (by decide)),
      if_neg (hne _ (by decide)), if_neg (hne _ (by decide)), if_neg (hne _ (by decide))]
  have hslash := hne '/' (by decide)
  simp only [piece?, hblank, hslash, hdelim, false_and, if_false, Bool.false_eq_true] at h
  obtain ⟨v, hv⟩ := afterNumber?_of_leaf hd h
  rw [leaf?_literal ((afterLiteral?_digit hd).trans hv)] at h
  obtain rfl := Option.some.inj h
  obtain ⟨z, hz, hzne, -⟩ := afterNumber?_seam hv
  exact ⟨z, v, hz, hzne, by rw [hz, take_front], afterNumber?_head hv⟩

/-- A text with an exponent is no index. -/
theorem not_index_of_exponent {w : Text} (hdot : '.' ∉ w) (he : ∃ e ∈ w, isExponentMark e = true) :
    isIndexText w = false ∧ isDecimalIndexText w = false := by
  obtain ⟨e, hmem, hmark⟩ := he
  have hindex : isIndexText w = false := by
    by_contra hn
    simp only [isIndexText, Bool.not_eq_false, Bool.and_eq_true, List.all_eq_true,
      decide_eq_true_eq] at hn
    have hd := hn.2 e hmem
    have he : e = 'e' ∨ e = 'E' := by simpa [isExponentMark] using hmark
    rcases he with rfl | rfl <;> simp at hd
  refine ⟨hindex, ?_⟩
  have hdrop : w.dropWhile (· != '.') = [] := by
    rw [List.dropWhile_eq_nil_iff]
    intro c hc
    have hne : c ≠ '.' := by
      rintro rfl
      exact hdot hc
    simpa using hne
  simp [isDecimalIndexText, hdrop]

theorem Covers.exists_piece {p : Position} {t u : Text} {ts : List Token} (h : Covers p t ts u) :
    ∃ piece, piece? t = some piece := by
  cases h with
  | last h _ _ => exact ⟨_, h⟩
  | more h _ _ => exact ⟨_, h⟩

theorem Covers.irrefl {p : Position} {u : Text} {ts : List Token} (h : Covers p u ts u) : False := by
  obtain ⟨s, hs, hne, -⟩ := h.front
  exact hne (List.append_left_eq_self.mp hs.symm)

/-- A number that begins with the digits of an exponent takes all of them. -/
theorem front_of_number {w sign z s : Text} (h : w ++ sign = z ++ s)
    (hw : ∀ c ∈ w, continuesWord c = true) (hs : s.head?.any continuesWord = false)
    (hne : s ≠ []) (hlen : sign.length ≤ 1) : z = w ∧ s = sign := by
  rcases List.append_eq_append_iff.mp h with ⟨a, rfl, rfl⟩ | ⟨a, rfl, rfl⟩
  · have hpos := List.length_pos_of_ne_nil hne
    rw [List.length_append] at hlen
    obtain rfl := List.length_eq_zero_iff.mp (show a.length = 0 by omega)
    exact ⟨List.append_nil _, rfl⟩
  · cases a with
    | nil => exact ⟨(List.append_nil _).symm, rfl⟩
    | cons c a => simp [hw c (by simp)] at hs

/-- Where a number is cut, the tokens before the cut tell. -/
theorem Covers.broken {p : Position} {y u : Text} {ts : List Token} {text : Text}
    (h : Covers p (y ++ u) ts u) (hy : CutNumber y) (ht : text.head?.any isDigit = true) :
    ∃ front last, Lexeme.literal text :: ts.map (·.lexeme) = front ++ last ∧ Broken last := by
  obtain ⟨w, sign, rfl, hw⟩ := hy
  obtain ⟨joint, span, ts', rfl, hs⟩ := h.sign (s := w ++ sign) (.inl rfl)
  rcases hw with ⟨rfl, rfl⟩ | ⟨hdigit, hcont, hmark, hsign⟩
  · rcases hs with ⟨-, rfl⟩ | hs
    · exact ⟨[], _, rfl, .point ht joint⟩
    · exact hs.irrefl.elim
  have hs := hs.resolve_left fun hnil => by
    obtain ⟨rfl, -⟩ := List.append_eq_nil_iff.mp hnil.1
    simp at hdigit
  have hdot : '.' ∉ w ++ sign := by
    intro hmem
    rcases List.mem_append.mp hmem with hmem | hmem
    · have hc := hcont '.' hmem
      revert hc
      decide
    · rcases hsign with rfl | rfl | rfl <;> simp at hmem
  obtain ⟨piece, hp⟩ := hs.exists_piece
  obtain ⟨z, v, hz, rfl, hv⟩ : ∃ z v, w ++ sign ++ u = z ++ v ∧
      piece = .lexeme (.literal z) v ∧ v.head?.any continuesWord = false := by
    obtain ⟨d, w, rfl⟩ := List.exists_cons_of_ne_nil (l := w) (by rintro rfl; simp at hdigit)
    obtain ⟨z, v, hz, -, hpiece, hv⟩ := piece?_digit hdigit hp
    exact ⟨z, v, hz, hpiece, hv⟩
  obtain ⟨ts'', rfl, ⟨rfl, rfl⟩ | hh⟩ := hs.first hp hz
  · -- The digits with the exponent are one literal.
    obtain rfl : z = w ++ sign := (List.append_cancel_right hz).symm
    obtain ⟨e, he, hmark⟩ := hmark
    obtain ⟨hi, hd⟩ := not_index_of_exponent hdot ⟨e, List.mem_append_left _ he, hmark⟩
    exact ⟨[], _, rfl, .fraction ht hi hd joint⟩
  · obtain ⟨s, rfl, hne, -⟩ : ∃ s, v = s ++ u ∧ s ≠ [] ∧ _ := hh.front
    have hhead : s.head?.any continuesWord = false := by
      obtain ⟨c, s, rfl⟩ := List.exists_cons_of_ne_nil hne
      exact hv
    have hws : w ++ sign = z ++ s := by
      rw [← List.append_assoc] at hz
      exact List.append_cancel_right hz
    obtain ⟨rfl, rfl⟩ := front_of_number hws hcont hhead hne (by
      rcases hsign with rfl | rfl | rfl <;> simp)
    obtain ⟨c, rfl, hc⟩ : ∃ c, s = [c] ∧ (c = '+' ∨ c = '-') := by
      rcases hsign with rfl | rfl | rfl
      · exact absurd rfl hne
      · exact ⟨'+', rfl, .inl rfl⟩
      · exact ⟨'-', rfl, .inr rfl⟩
    obtain ⟨joint', span', ts', rfl, ⟨-, rfl⟩ | hrest⟩ := Covers.sign (s := []) hh (.inr hc)
    · exact ⟨[.literal text, .sign '.' joint], _, rfl, .exponent hdigit hc joint'⟩
    · exact hrest.irrefl.elim

theorem alike_of_lexemes {ts ts' us us' : List Token} (h : ts.map (·.lexeme) = ts'.map (·.lexeme))
    (hu : Alike us us') : Alike (ts ++ us) (ts' ++ us') := by
  induction ts generalizing ts' with
  | nil =>
    obtain rfl := List.map_eq_nil_iff.mp h.symm
    exact hu
  | cons t ts ih =>
    cases ts' with
    | nil => simp at h
    | cons t' ts' =>
      obtain ⟨l, s⟩ := t
      obtain ⟨l', s'⟩ := t'
      obtain ⟨hl, hrest⟩ := List.cons.inj h
      obtain rfl : l = l' := hl
      exact .cons l s s' (ih hrest)

theorem Piece.tokens_lexemes (piece : Piece) (s : Span) :
    (piece.tokens s).map (·.lexeme) = piece.lexemes := by
  rw [tokens, List.map_map]
  exact List.map_id _

theorem PieceNear.alike {piece piece' : Piece} (h : PieceNear [] piece piece') (s s' : Span) :
    piece'.rest = [] ∧ Alike (piece.tokens s) (piece'.tokens s') := by
  rcases h with rfl | ⟨-, c, joint, hl, rfl⟩
  · refine ⟨piece.before_rest [], ?_⟩
    have hlexemes : (piece.tokens s).map (·.lexeme) =
        ((piece.before []).tokens s').map (·.lexeme) := by
      rw [Piece.tokens_lexemes, Piece.tokens_lexemes, Piece.before_lexemes]
    simpa only [List.append_nil] using alike_of_lexemes hlexemes .nil
  · refine ⟨rfl, ?_⟩
    rw [Piece.tokens, hl]
    exact .sign c joint false s s'

/-- A piece that is no blank is read the same when what comes after it is cut off. -/
theorem piece?_alone {s : Text} {piece : Piece} (h : piece? (s ++ piece.rest) = some piece)
    (hl : piece.lexemes ≠ []) (r r' : Span) : ∃ piece', piece? s = some piece' ∧
      piece'.rest = [] ∧ piece'.lexemes ≠ [] ∧ Alike (piece.tokens r) (piece'.tokens r') := by
  have hseam : Seam (s ++ []) piece.rest := by
    rw [List.append_nil]
    exact (piece?_front h rfl).2 hl
  rcases piece?_near (y := []) h rfl hseam (fun hn => absurd rfl hn) (by simp) with
    ⟨piece', hp', hnear⟩ | ⟨⟨w, sign, hnil, -⟩, -⟩
  · rw [List.append_nil] at hp'
    obtain ⟨hrest, halike⟩ := hnear.alike r r'
    refine ⟨piece', hp', hrest, fun hnil => hl ?_, halike⟩
    have hlen := halike.length
    simpa [Piece.tokens, hnil] using hlen
  · simp at hnil

/-- What pieces cover is read the same when it is cut out of the text. -/
theorem Covers.alone {p : Position} {s u : Text} {ts : List Token} (h : Covers p (s ++ u) ts u)
    (he : EndsWhole ts) (q : Position) :
    ∃ ts', Covers q s ts' [] ∧ Alike ts ts' ∧ (Begins (s ++ u) → Begins s) := by
  generalize ht : s ++ u = t at h
  induction h generalizing s q with
  | @last p t x piece h ht' hl =>
    obtain rfl := List.append_cancel_right (ht.trans ht')
    rw [ht'] at h
    obtain ⟨piece', hp', hrest, hl', halike⟩ :=
      piece?_alone h hl ⟨p, p.advance s⟩ ⟨q, q.advance s⟩
    have hc := Covers.last (p := q) (x := s) hp' (by rw [hrest, List.append_nil]) hl'
    rw [hrest] at hc
    exact ⟨_, hc, halike, fun _ => ⟨piece', hp', hl'⟩⟩
  | @more p t x u piece ts h ht' hs ih =>
    obtain ⟨s', hs', hne, -⟩ := hs.front
    obtain rfl : s = x ++ s' := by
      rw [ht', hs', ← List.append_assoc] at ht
      exact List.append_cancel_right ht
    obtain ⟨ts', hc, halike, -⟩ := ih he.tail (q.advance x) hs'.symm
    have hfirst := h
    rw [hs'] at hs
    rw [ht', hs'] at h
    rcases piece?_near h hs' (hs.seam.append hne) (fun _ => hs.startsSign_append) hs.ne_carriage with
      ⟨piece', hp', rfl | ⟨hnil, -⟩⟩ | ⟨hcut, w, hl, hd⟩
    · have hlexemes : (piece.tokens ⟨p, p.advance x⟩).map (·.lexeme) =
          ((piece.before s').tokens ⟨q, q.advance x⟩).map (·.lexeme) := by
        rw [Piece.tokens_lexemes, Piece.tokens_lexemes, Piece.before_lexemes]
      have hcovers : Covers q (x ++ s') _ [] := .more hp' (by rw [Piece.before_rest]) (by
        rwa [Piece.before_rest])
      refine ⟨_, hcovers, alike_of_lexemes hlexemes halike, ?_⟩
      rintro ⟨first, hf, hl⟩
      obtain rfl := Option.some.inj (hfirst.symm.trans hf)
      exact ⟨_, hp', by rwa [Piece.before_lexemes]⟩
    · exact absurd hnil hne
    · obtain ⟨front, last, hlast, hbroken⟩ := hs.broken hcut hd
      refine absurd hbroken (he front last ?_)
      rw [List.map_append, Piece.tokens_lexemes, hl]
      exact hlast

/-- Lists of tokens between which one piece stands: an attribute that a comment has been written for,
or a quote with the literal behind it. -/
def Straddles (ts us : List Token) : Prop :=
  ∃ piece front back a b, ts = front ++ a ∧ us = b ++ back ∧ a ≠ [] ∧ b ≠ [] ∧
    (a ++ b).map (·.lexeme) = Piece.lexemes piece

theorem Scans.split {p : Position} {t v : Text} {ts us : List Token} (h : Scans p t (ts ++ us) v)
    (hn : ¬ Straddles ts us) :
    ∃ s u, t = s ++ u ∧ Scans p t ts u ∧ Scans (p.advance s) u us v := by
  generalize hts : ts ++ us = all at h
  induction h generalizing ts with
  | nil p t =>
    obtain ⟨rfl, rfl⟩ := List.append_eq_nil_iff.mp hts
    exact ⟨[], t, rfl, .nil p t, .nil _ t⟩
  | @cons p t x v piece rest h ht hs ih =>
    rcases List.append_eq_append_iff.mp hts with ⟨a, hpiece, rfl⟩ | ⟨a, rfl, rfl⟩
    · by_cases htnil : ts = []
      · subst htnil
        rw [List.nil_append] at hpiece
        exact ⟨[], t, rfl, .nil p t, hpiece ▸ .cons h ht hs⟩
      by_cases hanil : a = []
      · subst hanil
        rw [List.append_nil] at hpiece
        have hc := Scans.cons h ht (.nil (p.advance x) piece.rest)
        rw [List.append_nil, hpiece] at hc
        exact ⟨x, piece.rest, ht, hc, hs⟩
      have hlexemes : (ts ++ a).map (·.lexeme) = piece.lexemes := by
        rw [← hpiece, Piece.tokens_lexemes]
      exact absurd ⟨piece, [], rest, ts, a, rfl, rfl, htnil, hanil, hlexemes⟩ hn
    · obtain ⟨s, u, hu, hfirst, hsecond⟩ := ih (fun hstraddle => hn (by
        obtain ⟨piece, front, back, b, c, rfl, rfl, hb, hc, hd⟩ := hstraddle
        exact ⟨piece, _, back, b, c, (List.append_assoc _ _ _).symm, rfl, hb, hc, hd⟩)) rfl
      refine ⟨x ++ s, u, by rw [ht, hu, List.append_assoc], .cons h ht hfirst, ?_⟩
      rwa [Position.advance_append]

end FieldKeys
