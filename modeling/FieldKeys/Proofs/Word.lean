import FieldKeys.Style
import FieldKeys.Token.Scan
import Mathlib.Data.List.TakeWhile

/-! Words of a scanned text: a raw mark at most, and then word characters only. -/

namespace FieldKeys

/-- A name as it is without a raw mark. -/
def IsName (name : Text) : Prop :=
  name ≠ [] ∧ ∀ c ∈ name, continuesWord c = true

instance (name : Text) : Decidable (IsName name) :=
  decidable_of_iff (name ≠ [] ∧ name.all continuesWord = true) (and_congr_right' List.all_eq_true)

/-- A word as a text can have it. -/
def IsWord (w : Text) : Prop :=
  ∃ name, IsName name ∧ (w = name ∨ w = rawMark ++ name)

theorem IsName.not_mem {name : Text} (h : IsName name) {c : Char} (hc : continuesWord c = false) :
    c ∉ name := by
  intro hm
  have hh := h.2 c hm
  rw [hc] at hh
  exact Bool.noConfusion hh

theorem after?_rawMark_name {name : Text} (h : IsName name) : Text.after? rawMark name = none := by
  by_contra hn
  obtain ⟨rest, hr⟩ := Option.ne_none_iff_exists'.mp hn
  have he := Text.after?_eq_some_iff.mp hr
  exact h.not_mem (show continuesWord '#' = false by decide) (by simp [he, rawMark])

theorem unescape_name {name : Text} (h : IsName name) : unescape name = name := by
  rw [unescape, after?_rawMark_name h]

theorem unescape_raw {name : Text} (h : name ≠ []) : unescape (rawMark ++ name) = name := by
  have ha : Text.after? rawMark (rawMark ++ name) = some name := Text.after?_eq_some_iff.mpr rfl
  obtain ⟨c, r, rfl⟩ := List.exists_cons_of_ne_nil h
  rw [unescape, ha]

theorem IsWord.unescape {w : Text} (h : IsWord w) : IsName (unescape w) := by
  obtain ⟨name, hn, rfl | rfl⟩ := h
  · rwa [unescape_name hn]
  · rwa [unescape_raw hn.1]

theorem IsName.ne_raw {name : Text} (h : IsName name) (rest : Text) : name ≠ rawMark ++ rest := by
  intro he
  have hh := after?_rawMark_name h
  rw [he, Text.after?_eq_some_iff.mpr rfl] at hh
  simp at hh

theorem afterWord?_name {t rest : Text} (h : afterWord? t = some rest) :
    ∃ name, IsName name ∧ t = name ++ rest := by
  cases t with
  | nil => simp [afterWord?] at h
  | cons c r =>
    simp only [afterWord?] at h
    split at h
    · next hc =>
      obtain rfl := Option.some.inj h
      refine ⟨c :: r.takeWhile continuesWord, ⟨by simp, ?_⟩, ?_⟩
      · intro d hd
        rcases List.mem_cons.mp hd with rfl | hd
        · exact continuesWord_of_startsWord hc
        · exact List.mem_takeWhile_imp hd
      · rw [List.cons_append, List.takeWhile_append_dropWhile]
    · simp at h

theorem afterName?_word {t rest : Text} (h : afterName? t = some rest) :
    ∃ w, IsWord w ∧ t = w ++ rest := by
  unfold afterName? at h
  split at h
  · next r hr =>
    obtain ⟨r', hw, hh⟩ := Option.bind_eq_some_iff.mp h
    split at hh
    · simp at hh
    · obtain rfl := Option.some.inj hh
      obtain ⟨name, hn, rfl⟩ := afterWord?_name hw
      refine ⟨rawMark ++ name, ⟨name, hn, .inr rfl⟩, ?_⟩
      rw [Text.after?_eq_some_iff.mp hr, List.append_assoc]
      rfl
  · obtain ⟨name, hn, rfl⟩ := afterWord?_name h
    exact ⟨name, ⟨name, hn, .inl rfl⟩, rfl⟩

theorem take_front (a b : Text) : (a ++ b).take ((a ++ b).length - b.length) = a := by
  simp

/-- Of the lexemes only words count here. -/
def Lexeme.WordOk (l : Lexeme) : Prop :=
  ∀ w, l = .word w → IsWord w

theorem lifetime?_wordOk {t : Text} {p : Piece} (h : lifetime? t = some p) :
    ∀ l ∈ p.lexemes, l.WordOk := by
  obtain ⟨rest, -, h⟩ := Option.bind_eq_some_iff.mp h
  split at h
  · simp at h
  · split at h
    · obtain rfl := Option.some.inj h
      simp [Piece.lexemes, Lexeme.WordOk]
    · simp at h
  · obtain rfl := Option.some.inj h
    simp [Piece.lexemes, Lexeme.WordOk]

theorem quoted?_wordOk {t : Text} {p : Piece} (h : quoted? t = some p) :
    ∀ l ∈ p.lexemes, l.WordOk := by
  unfold quoted? at h
  split at h
  · obtain ⟨rest, -, rfl⟩ := Option.map_eq_some_iff.mp h
    simp [Piece.lexemes, Lexeme.WordOk]
  · exact lifetime?_wordOk h

theorem leaf?_wordOk {t : Text} {p : Piece} (h : leaf? t = some p) : ∀ l ∈ p.lexemes, l.WordOk := by
  unfold leaf? at h
  split at h
  · obtain rfl := Option.some.inj h
    simp [Piece.lexemes, Lexeme.WordOk]
  · split at h
    · exact quoted?_wordOk h
    · split at h
      · obtain rfl := Option.some.inj h
        simp [Piece.lexemes, Lexeme.WordOk]
      · split at h
        · simp at h
        · obtain ⟨rest, hr, rfl⟩ := Option.map_eq_some_iff.mp h
          obtain ⟨w, hw, he⟩ := afterName?_word hr
          simp only [Piece.lexemes, List.mem_singleton, forall_eq]
          intro w' hw'
          rw [he, take_front] at hw'
          exact (Lexeme.word.inj hw') ▸ hw
    · simp at h

theorem docPiece?_wordOk {inner : Bool} {body rest : Text} {p : Piece}
    (h : docPiece? inner body rest = some p) : ∀ l ∈ p.lexemes, l.WordOk := by
  unfold docPiece? at h
  split at h
  · obtain rfl := Option.some.inj h
    have hc : "doc".toList.all continuesWord = true := by decide
    have hd : IsWord "doc".toList :=
      ⟨"doc".toList, ⟨by decide, List.all_eq_true.mp hc⟩, .inl rfl⟩
    intro l hl w hw
    subst hw
    cases inner <;> simp [Piece.lexemes] at hl <;> rwa [hl]
  · simp at h

theorem blockDoc?_wordOk {inner : Bool} {body : Text} {p : Piece}
    (h : blockDoc? inner body = some p) : ∀ l ∈ p.lexemes, l.WordOk := by
  obtain ⟨rest, -, hd⟩ := Option.bind_eq_some_iff.mp h
  exact docPiece?_wordOk hd

theorem comment?_wordOk {t : Text} {p : Piece} (h : comment? t = some p) :
    ∀ l ∈ p.lexemes, l.WordOk := by
  have hb : ∀ rest, ∀ l ∈ (Piece.blank rest).lexemes, l.WordOk := by simp [Piece.lexemes]
  have hm : ∀ {o : Option Text}, o.map Piece.blank = some p → ∀ l ∈ p.lexemes, l.WordOk := by
    intro o ho
    obtain ⟨rest, -, rfl⟩ := Option.map_eq_some_iff.mp ho
    exact hb rest
  unfold comment? at h
  split at h
  · exact (Option.some.inj h) ▸ hb _
  · exact docPiece?_wordOk h
  · exact docPiece?_wordOk h
  · exact (Option.some.inj h) ▸ hb _
  · exact (Option.some.inj h) ▸ hb _
  · exact hm h
  · exact blockDoc?_wordOk h
  · exact blockDoc?_wordOk h
  · exact hm h
  · simp at h

theorem delimiter?_wordOk {c : Char} {l : Lexeme} (h : delimiter? c = some l) : l.WordOk := by
  rintro w rfl
  unfold delimiter? at h
  split_ifs at h <;> simp at h

theorem piece?_wordOk {t : Text} {p : Piece} (h : piece? t = some p) :
    ∀ l ∈ p.lexemes, l.WordOk := by
  cases t with
  | nil => simp [piece?] at h
  | cons c r =>
    simp only [piece?] at h
    split at h
    · obtain rfl := Option.some.inj h
      simp [Piece.lexemes]
    · split at h
      · exact comment?_wordOk h
      · split at h
        · next l hl =>
          obtain rfl := Option.some.inj h
          simpa [Piece.lexemes] using delimiter?_wordOk hl
        · exact leaf?_wordOk h

theorem scanFrom_wordOk {n : Nat} {p : Position} {t : Text} {ts : List Token}
    (h : scanFrom n p t = some ts) : ∀ t ∈ ts, t.lexeme.WordOk := by
  induction n generalizing p t ts with
  | zero =>
    cases t with
    | nil =>
      obtain rfl := Option.some.inj h
      simp
    | cons c r => simp [scanFrom] at h
  | succ n ih =>
    cases t with
    | nil =>
      obtain rfl := Option.some.inj h
      simp
    | cons c r =>
      obtain ⟨piece, hp, h⟩ := Option.bind_eq_some_iff.mp h
      obtain ⟨others, ho, rfl⟩ := Option.map_eq_some_iff.mp h
      intro t ht
      rcases List.mem_append.mp ht with hm | hm
      · obtain ⟨l, hl, rfl⟩ := List.mem_map.mp hm
        exact piece?_wordOk hp l hl
      · exact ih ho t hm

/-- Every word of a scanned text is a name, raw or not. -/
theorem Token.scan?_word {text : Text} {ts : List Token} (h : Token.scan? text = some ts) {t : Token}
    (ht : t ∈ ts) {w : Text} (hw : t.lexeme = .word w) : IsWord w := by
  obtain ⟨hs, -⟩ := Option.filter_eq_some_iff.mp h
  split at hs
  · split at hs
    · exact scanFrom_wordOk hs t ht w hw
    · exact scanFrom_wordOk hs t ht w hw
  · obtain rfl := Option.some.inj hs
    simp at ht

end FieldKeys
