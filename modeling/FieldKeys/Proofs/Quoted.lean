import FieldKeys.Text.Quoted
import Mathlib.Algebra.Group.Nat.Defs
import Mathlib.Data.List.Basic

/-! Quoting loses nothing: the value of the literal that `quote` writes is the text itself. -/

namespace FieldKeys

theorem unquote_go {k : Content} {p q : Place} {c : Char} {value : Option Char} (r : Text)
    (h : p.turn k c = .go q value) :
    unquote k p (c :: r) = (unquote k q r).map fun (v, rest) => (value.toList ++ v, rest) := by
  rw [unquote, h]

/-- A turn without a character of its own only moves the reader. -/
theorem unquote_move {k : Content} {p q : Place} {c : Char} (r : Text)
    (h : p.turn k c = .go q none) : unquote k p (c :: r) = unquote k q r := by
  rw [unquote_go r h]
  exact Option.map_id'

/-- The number that hexadecimal digits continue. -/
def codeValue (start : Nat) (digits : Text) : Nat :=
  digits.foldl (fun v c => v * 16 + (hexValue? c).getD 0) start

theorem codeValue_digit (start : Nat) {d : Nat} (h : hexValue? (hexDigit d) = some d)
    (digits : Text) :
    codeValue start (hexDigit d :: digits) = codeValue (start * 16 + d) digits := by
  simp [codeValue, h]

def IsHexDigit (c : Char) : Prop := ∃ d < 16, c = hexDigit d

theorem hexDigit_facts : ∀ d < 16, hexValue? (hexDigit d) = some d ∧ hexDigit d ≠ '_' ∧
    hexDigit d ≠ '\x7d' := by
  decide

theorem unquote_digits (r : Text) {digits : Text} (value count : Nat)
    (hd : ∀ c ∈ digits, IsHexDigit c) (hc : count + digits.length ≤ 6) :
    unquote .chars (.code value count) (digits ++ r) =
      unquote .chars (.code (codeValue value digits) (count + digits.length)) r := by
  induction digits generalizing value count with
  | nil => rfl
  | cons c digits ih =>
    obtain ⟨d, hlt, rfl⟩ := hd c (by simp)
    obtain ⟨hv, hu, hb⟩ := hexDigit_facts d hlt
    simp only [List.length_cons] at hc
    have ht : (Place.code value count).turn .chars (hexDigit d) =
        .go (.code (value * 16 + d) (count + 1)) none := by
      have h6 : count ≠ 6 := by omega
      simp [Place.turn, codeTurn, hu, hb, hv, h6]
    have hh := ih (value * 16 + d) (count + 1) (fun x hx => hd x (by simp [hx])) (by omega)
    rw [List.cons_append, unquote_move _ ht, hh, codeValue_digit value hv, List.length_cons,
      Nat.add_assoc, Nat.add_comm 1]

theorem isHexDigit_of_mem_hexDigits {k n : Nat} {c : Char} (h : c ∈ hexDigits k n) :
    IsHexDigit c := by
  induction k generalizing n with
  | zero => simp [hexDigits] at h
  | succ k ih =>
    rcases List.mem_append.mp h with hh | hh
    · exact ih hh
    · exact ⟨n % 16, Nat.mod_lt _ (by decide), by simpa using hh⟩

@[simp] theorem length_hexDigits (k n : Nat) : (hexDigits k n).length = k := by
  induction k generalizing n with
  | zero => rfl
  | succ k ih => simp [hexDigits, ih]

theorem codeValue_hexDigits (k n : Nat) : codeValue 0 (hexDigits k n) = n % 16 ^ k := by
  induction k generalizing n with
  | zero => simp [hexDigits, codeValue, Nat.mod_one]
  | succ k ih =>
    have hd := (hexDigit_facts (n % 16) (Nat.mod_lt _ (by decide))).1
    have hh := ih (n / 16)
    rw [codeValue] at hh ⊢
    rw [hexDigits, List.foldl_append, hh, List.foldl_cons, List.foldl_nil, hd, Option.getD_some,
      Nat.pow_succ', Nat.mod_mul, Nat.mul_comm, Nat.add_comm]

theorem codeValue_dropWhile (digits : Text) :
    codeValue 0 (digits.dropWhile (· == '0')) = codeValue 0 digits := by
  induction digits with
  | nil => rfl
  | cons c digits ih =>
    by_cases hc : c = '0'
    · subst hc
      simpa [codeValue, hexValue?] using ih
    · simp [hc]

theorem codeValue_hexText (c : Char) : codeValue 0 (hexText c.toNat) = c.toNat := by
  have hc : c.toNat < 16 ^ 6 := by
    have hv : c.toNat.isValidChar := c.valid
    simp only [Nat.isValidChar] at hv
    omega
  rw [hexText, codeValue_dropWhile, codeValue_hexDigits, Nat.mod_eq_of_lt hc]

theorem charOf?_toNat (c : Char) : charOf? c.toNat = some c := by
  have hv : c.toNat.isValidChar := c.valid
  rw [charOf?, dif_pos hv]
  rfl

theorem unquote_code (c : Char) (r : Text) (h0 : c.toNat ≠ 0) :
    unquote .chars .backslash ('u' :: '\x7b' :: (hexText c.toNat ++ '\x7d' :: r)) =
      (unquote .chars .plain r).map fun (v, rest) => (c :: v, rest) := by
  have hsub : (hexText c.toNat).Sublist (hexDigits 6 c.toNat) := List.dropWhile_sublist _
  have hlen : (hexText c.toNat).length ≤ 6 := by simpa using hsub.length_le
  have hdig : ∀ d ∈ hexText c.toNat, IsHexDigit d :=
    fun d hd => isHexDigit_of_mem_hexDigits (hsub.subset hd)
  have hne : (hexText c.toNat).length ≠ 0 := by
    intro hz
    have hv := codeValue_hexText c
    rw [List.length_eq_zero_iff.mp hz] at hv
    exact h0 hv.symm
  have hu : Place.backslash.turn .chars 'u' = .go .codeStart none := rfl
  have hb : Place.codeStart.turn .chars '\x7b' = .go (.code 0 0) none := rfl
  have hend : (Place.code c.toNat (hexText c.toNat).length).turn .chars '\x7d' =
      .go .plain (some c) := by
    simp [Place.turn, codeTurn, hne, charOf?_toNat]
  rw [unquote_move _ hu, unquote_move _ hb, unquote_digits _ _ _ hdig (by omega),
    codeValue_hexText, Nat.zero_add, unquote_go _ hend]
  rfl

theorem unquote_short {c v : Char} (r : Text)
    (h : shortEscape? .chars c = some v) :
    unquote .chars .plain ('\\' :: c :: r) =
      (unquote .chars .plain r).map fun (t, rest) => (v :: t, rest) := by
  have hb : Place.plain.turn .chars '\\' = .go .backslash none := rfl
  have hc : Place.backslash.turn .chars c = .go .plain (some v) := by
    simp [Place.turn, escapeTurn, h]
  rw [unquote_move _ hb, unquote_go _ hc]
  rfl

theorem unquote_zero (r : Text) :
    unquote .chars .plain ('\\' :: 'x' :: '0' :: '0' :: r) =
      (unquote .chars .plain r).map fun (t, rest) => (Char.ofNat 0 :: t, rest) := by
  have hb : Place.plain.turn .chars '\\' = .go .backslash none := rfl
  have hx : Place.backslash.turn .chars 'x' = .go .firstHex none := rfl
  have h1 : Place.firstHex.turn .chars '0' = .go (.secondHex 0) none := rfl
  have h2 : (Place.secondHex 0).turn .chars '0' = .go .plain (some (Char.ofNat 0)) := rfl
  rw [unquote_move _ hb, unquote_move _ hx, unquote_move _ h1, unquote_go _ h2]
  rfl

theorem unquote_plain {c : Char} (r : Text) (hq : c ≠ '"') (hb : c ≠ '\\') (hr : c ≠ '\r') :
    unquote .chars .plain (c :: r) =
      (unquote .chars .plain r).map fun (t, rest) => (c :: t, rest) := by
  have hc : Place.plain.turn .chars c = .go .plain (some c) := by
    simp [Place.turn, plainTurn, hq, hb, hr, Content.admits]
  rw [unquote_go _ hc]
  rfl

theorem unquote_escapeChar (c : Char) (next : Option Char) (r : Text) :
    unquote .chars .plain (escapeChar c next ++ r) =
      (unquote .chars .plain r).map fun (t, rest) => (c :: t, rest) := by
  unfold escapeChar
  split_ifs with hq hb hn hr ht h0 ho hm
  · subst hq; exact unquote_short r rfl
  · subst hb; exact unquote_short r rfl
  · subst hn; exact unquote_short r rfl
  · subst hr; exact unquote_short r rfl
  · subst ht; exact unquote_short r rfl
  -- The two spellings of a null differ by what follows it, and have the same value.
  · have hz : c = Char.ofNat 0 := by rw [← h0, Char.ofNat_toNat]
    subst hz
    exact unquote_zero r
  · have hz : c = Char.ofNat 0 := by rw [← h0, Char.ofNat_toNat]
    subst hz
    exact unquote_short r rfl
  · have hs : Place.plain.turn .chars '\\' = .go .backslash none := rfl
    have hh := unquote_code c r h0
    simpa only [List.cons_append, List.append_assoc, List.nil_append, unquote_move _ hs] using hh
  · exact unquote_plain r hq hb hr

theorem unquote_escape (t r : Text) :
    unquote .chars .plain (escape t ++ '"' :: r) = some (t, r) := by
  induction t with
  | nil => rfl
  | cons c t ih => rw [escape, List.append_assoc, unquote_escapeChar, ih]; rfl

theorem stringValue?_quote_append (t suffix : Text) : stringValue? (quote t ++ suffix) = some t := by
  have hh := unquote_escape t suffix
  simp only [quote, List.cons_append, List.append_assoc, List.nil_append, stringValue?, hh,
    Option.map_some]

/-- The literal that quotes a text has that text as its value. -/
theorem stringValue?_quote (t : Text) : stringValue? (quote t) = some t := by
  rw [← List.append_nil (quote t), stringValue?_quote_append]

/-- A raw literal between as many number signs as are asked for. -/
def rawQuote (hashes : Nat) (t : Text) : Text :=
  'r' :: (List.replicate hashes '#' ++ '"' :: (t ++ '"' :: List.replicate hashes '#'))

theorem unquoteRaw_plain (hashes : Nat) {t : Text} (h : ∀ c ∈ t, c ≠ '"' ∧ c ≠ '\r') (r : Text) :
    unquoteRaw .chars hashes (t ++ '"' :: (List.replicate hashes '#' ++ r)) = some (t, r) := by
  induction t with
  | nil =>
    have htake : (List.replicate hashes '#' ++ r).take hashes = List.replicate hashes '#' :=
      List.take_left' List.length_replicate
    have hdrop : (List.replicate hashes '#' ++ r).drop hashes = r :=
      List.drop_left' List.length_replicate
    rw [List.nil_append, unquoteRaw, if_pos ⟨rfl, htake⟩, hdrop]
  | cons c t ih =>
    obtain ⟨hq, hr⟩ := h c (by simp)
    have hc : Content.chars.admits c = true := rfl
    rw [List.cons_append, unquoteRaw, if_neg (fun hh => hq hh.1), if_neg (fun hh => hr hh.1),
      if_pos hc, ih fun d hd => h d (by simp [hd])]
    rfl

theorem stringValue?_rawQuote {hashes : Nat} (hn : hashes ≤ 255) {t : Text}
    (h : ∀ c ∈ t, c ≠ '"' ∧ c ≠ '\r') (suffix : Text) :
    stringValue? (rawQuote hashes t ++ suffix) = some t := by
  have hcount : ∀ r, ((List.replicate hashes '#' ++ '"' :: r).takeWhile (· == '#')).length =
      hashes := by
    intro r
    rw [List.takeWhile_append_of_pos (by simp)]
    simp
  have hdrop : ∀ r, (List.replicate hashes '#' ++ '"' :: r).drop hashes = '"' :: r := fun r =>
    List.drop_left' List.length_replicate
  simp only [rawQuote, List.cons_append, List.append_assoc, stringValue?, unquoteHashed, hcount,
    hdrop, if_pos hn, unquoteRaw_plain hashes h suffix, Option.map_some]

end FieldKeys
