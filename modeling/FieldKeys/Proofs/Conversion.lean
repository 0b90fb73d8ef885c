import FieldKeys.Style
import Mathlib.Data.List.Chain
import Mathlib.Data.Set.Operations

/-! What a conversion does to a name: it lengthens the name at every uppercase character, so it
leaves alone just the names without one, and among names without a separator of their own it can
be taken back. -/

namespace FieldKeys

theorem Style.convertChar_upper (s : Style) {c : Char} (h : isUppercase c = true) :
    s.convertChar c = s.separator :: lowercase c := by
  simp [convertChar, h]

theorem Style.convertChar_other (s : Style) {c : Char} (h : isUppercase c = false) :
    s.convertChar c = [c] := by
  simp [convertChar, h]

theorem Style.length_convert_ge (s : Style) (t : Text) :
    t.length + t.countP isUppercase ≤ (s.convert t).length := by
  induction t with
  | nil => simp
  | cons c r ih =>
    cases hc : isUppercase c with
    | true =>
      have hl : 1 ≤ (lowercase c).length := List.length_pos_iff.mpr (lowercase_ne_nil c)
      rw [convert_cons, s.convertChar_upper hc, List.countP_cons_of_pos hc]
      simp only [List.length_append, List.length_cons]
      omega
    | false =>
      rw [convert_cons, s.convertChar_other hc, List.countP_cons_of_neg (by simp [hc])]
      simp only [List.length_append, List.length_cons, List.length_nil]
      omega

theorem Style.convert_of_no_uppercase (s : Style) {t : Text}
    (h : ∀ c ∈ t, isUppercase c = false) : s.convert t = t := by
  induction t with
  | nil => rfl
  | cons c r ih =>
    have hr := ih (fun d hd => h d (by simp [hd]))
    simp [s.convertChar_other (h c (by simp)), hr]

theorem Style.convert_eq_self_iff (s : Style) (t : Text) :
    s.convert t = t ↔ ∀ c ∈ t, isUppercase c = false := by
  constructor
  · intro h c hc
    have hl := s.length_convert_ge t
    rw [h] at hl
    have h0 : t.countP isUppercase = 0 := by omega
    simpa using List.countP_eq_zero.mp h0 c hc
  · exact s.convert_of_no_uppercase

theorem Style.separator_not_uppercase (s : Style) : isUppercase s.separator = false := by
  cases s <;> decide

/-- The uppercase characters of a conversion are those that the lowercase forms keep. -/
theorem Style.uppercase_mem_convert (s : Style) {t : Text} {d : Char}
    (hd : isUppercase d = true) :
    d ∈ s.convert t ↔ ∃ c ∈ t, isUppercase c = true ∧ d ∈ lowercase c := by
  rw [convert, List.mem_flatMap]
  refine exists_congr fun c => and_congr_right fun _ => ?_
  cases hc : isUppercase c with
  | true =>
    have hs : d ≠ s.separator := by
      rintro rfl
      simp [s.separator_not_uppercase] at hd
    simp [s.convertChar_upper hc, hs]
  | false =>
    have hs : d ≠ c := by
      rintro rfl
      simp [hd] at hc
    simp [s.convertChar_other hc, hs]

theorem Style.convert_convert_iff (a b : Style) (t : Text) :
    b.convert (a.convert t) = a.convert t ↔
      ∀ c ∈ t, isUppercase c = true → ∀ d ∈ lowercase c, isUppercase d = false := by
  rw [convert_eq_self_iff]
  constructor
  · intro h c hc hu d hd
    by_contra hn
    have hd' : isUppercase d = true := by simpa using hn
    exact hn (h d ((a.uppercase_mem_convert hd').mpr ⟨c, hc, hu, hd⟩))
  · intro h d hd
    by_contra hn
    have hd' : isUppercase d = true := by simpa using hn
    obtain ⟨c, hc, hu, hm⟩ := (a.uppercase_mem_convert hd').mp hd
    exact hn (h c hc hu d hm)

/-- One conversion after another. -/
def Style.convertEach (styles : List Style) (t : Text) : Text :=
  styles.foldl (fun u s => s.convert u) t

theorem Style.convertEach_append (styles : List Style) (a b : Text) :
    convertEach styles (a ++ b) = convertEach styles a ++ convertEach styles b := by
  induction styles generalizing a b with
  | nil => rfl
  | cons s r ih =>
    have hs := s.convert_append a b
    simp only [convertEach, List.foldl_cons, hs] at ih ⊢
    exact ih _ _

theorem Style.convertEach_of_no_uppercase (styles : List Style) {t : Text}
    (h : ∀ c ∈ t, isUppercase c = false) : convertEach styles t = t := by
  induction styles with
  | nil => rfl
  | cons s r ih =>
    simp only [convertEach, List.foldl_cons, s.convert_of_no_uppercase h] at ih ⊢
    exact ih

/-- A capital without a lowercase form gets one separator from each conversion. -/
theorem Style.convertEach_capital (styles : List Style) {c : Char} (hu : isUppercase c = true)
    (hl : lowercase c = [c]) : convertEach styles [c] = styles.map separator ++ [c] := by
  induction styles with
  | nil => rfl
  | cons s r ih =>
    have hs : s.convert [c] = [s.separator] ++ [c] := by simp [s.convertChar_upper hu, hl]
    have hn : ∀ d ∈ [s.separator], isUppercase d = false := by simp [s.separator_not_uppercase]
    have hc : convertEach (s :: r) [c] = convertEach r (s.convert [c]) := rfl
    rw [hc, hs, convertEach_append, convertEach_of_no_uppercase r hn, ih]
    rfl

/-- Every uppercase character is an ASCII letter. -/
def PlainUppercase (t : Text) : Prop :=
  ∀ c ∈ t, isUppercase c = true → c.toNat < 128

instance (t : Text) : Decidable (PlainUppercase t) :=
  List.decidableBAll (fun c => isUppercase c = true → c.toNat < 128) t

/-- No separator stands before an ASCII lowercase letter. -/
def Unambiguous (sep : Char) (t : Text) : Prop :=
  t.IsChain fun c d => c = sep → d.isLower = false

/-- Takes a conversion back: a separator before an ASCII lowercase letter stands for the
capital. -/
def restore (sep : Char) : Text → Text
  | [] => []
  | [c] => [c]
  | c :: d :: r =>
    if c = sep ∧ d.isLower = true then d.toUpper :: restore sep r else c :: restore sep (d :: r)

theorem restore_pair (sep : Char) {d : Char} (hd : d.isLower = true) (r : Text) :
    restore sep (sep :: d :: r) = d.toUpper :: restore sep r := by
  simp [restore, hd]

theorem restore_cons {sep c : Char} {t : Text}
    (h : ∀ d ∈ t.head?, c = sep → d.isLower = false) :
    restore sep (c :: t) = c :: restore sep t := by
  cases t with
  | nil => rfl
  | cons d r =>
    have hd : ¬ (c = sep ∧ d.isLower = true) := by
      rintro ⟨hc, hl⟩
      simp [h d rfl hc] at hl
    simp only [restore, hd, if_false]

theorem ascii_uppercase : ∀ n < 128, isUppercase (Char.ofNat n) = true →
    lowercase (Char.ofNat n) = [Char.ofNat (n + 32)] ∧
      (Char.ofNat (n + 32)).isLower = true ∧ (Char.ofNat (n + 32)).toUpper = Char.ofNat n := by
  decide

theorem lowercase_of_ascii {c : Char} (hu : isUppercase c = true) (hc : c.toNat < 128) :
    ∃ d : Char, lowercase c = [d] ∧ d.isLower = true ∧ d.toUpper = c := by
  have hh := ascii_uppercase c.toNat hc
  rw [Char.ofNat_toNat] at hh
  exact ⟨_, hh hu⟩

theorem not_uppercase_of_isLower {c : Char} (h : c.isLower = true) : isUppercase c = false := by
  unfold Char.isLower at h
  simp only [Bool.and_eq_true, decide_eq_true_eq, ge_iff_le, UInt32.le_iff_toNat_le] at h
  have ha : 'a'.val.toNat = 97 := rfl
  have hz : 'z'.val.toNat = 122 := rfl
  have hc : c.toNat = c.val.toNat := rfl
  have h0 : c.toNat < 128 := by omega
  have h1 : ¬ c.toNat ≤ 90 := by omega
  simp [isUppercase, h0, h1]

/-- A conversion leaves a text alone just if the text has no uppercase character, and a second one
leaves the first alone just if no lowercase form has one, as is so of ASCII. A capital without a
lowercase form gets a separator more each time. -/
theorem Style.conversion_settles (a b : Style) (t : Text) :
    (a.convert t = t ↔ ∀ c ∈ t, isUppercase c = false) ∧
    (b.convert (a.convert t) = a.convert t ↔
      ∀ c ∈ t, isUppercase c = true → ∀ d ∈ lowercase c, isUppercase d = false) ∧
    (PlainUppercase t → b.convert (a.convert t) = a.convert t) ∧
    ∀ (styles : List Style) (u v : Text) (c : Char), isUppercase c = true → lowercase c = [c] →
      convertEach styles (u ++ c :: v) =
        convertEach styles u ++ (styles.map separator ++ c :: convertEach styles v) := by
  refine ⟨a.convert_eq_self_iff t, a.convert_convert_iff b t, fun ht => ?_, ?_⟩
  · refine (a.convert_convert_iff b t).mpr fun c hc hu d hd => ?_
    obtain ⟨e, he, hl, -⟩ := lowercase_of_ascii hu (ht c hc hu)
    obtain rfl : d = e := by simpa [he] using hd
    exact not_uppercase_of_isLower hl
  · intro styles u v c hu hl
    have hv : u ++ c :: v = u ++ ([c] ++ v) := rfl
    rw [hv, convertEach_append, convertEach_append, convertEach_capital styles hu hl]
    simp

/-- The double-struck capital has no lowercase form, so a second conversion changes the text. -/
theorem Style.conversion_settles_doubleStruck :
    isUppercase 'ℂ' = true ∧ lowercase 'ℂ' = ['ℂ'] ∧
      Style.kebab.convert (Style.snake.convert "aℂB".toList) ≠ Style.snake.convert "aℂB".toList ∧
      convertEach [.snake, .kebab, .snake] "aℂB".toList = "a_-_ℂ_b".toList ∧
      Style.kebab.convert (Style.snake.convert "userID".toList) =
        Style.snake.convert "userID".toList := by
  have hu : isUppercase 'ℂ' = true := by decide
  have hl : lowercase 'ℂ' = ['ℂ'] := by decide
  refine ⟨hu, hl, fun h => ?_, ?_, ?_⟩
  · have hc := (conversion_settles .snake .kebab "aℂB".toList).2.1.mp h 'ℂ' (by decide) hu 'ℂ'
    simp [hl, hu] at hc
  · exact (conversion_settles .snake .kebab []).2.2.2 [.snake, .kebab, .snake] ['a'] ['B'] 'ℂ' hu hl
  · exact (conversion_settles .snake .kebab _).2.2.1 (by decide)

theorem Style.separator_not_lower (s : Style) : s.separator.isLower = false := by
  cases s <;> decide

/-- A conversion puts no lowercase letter in front of a name that has none there. -/
theorem Style.head_convert (s : Style) {c : Char} {t : Text}
    (hc : c ∈ (s.convert t).head?) : c = s.separator ∨ c ∈ t.head? := by
  cases t with
  | nil => simp at hc
  | cons d r =>
    cases hd : isUppercase d with
    | true => left; simpa [s.convertChar_upper hd, eq_comm] using hc
    | false => right; simpa [s.convertChar_other hd] using hc

theorem Style.restore_convert (s : Style) {t : Text} (hu : PlainUppercase t)
    (hs : Unambiguous s.separator t) : restore s.separator (s.convert t) = t := by
  induction t with
  | nil => rfl
  | cons c r ih =>
    have hr := ih (fun d hd => hu d (by simp [hd])) (List.IsChain.of_cons hs)
    cases hc : isUppercase c with
    | true =>
      obtain ⟨d, hl, hd, rfl⟩ := lowercase_of_ascii hc (hu c (by simp) hc)
      rw [convert_cons, s.convertChar_upper hc, hl]
      simp only [List.cons_append, List.nil_append, restore_pair _ hd, hr]
    | false =>
      -- A separator of the name's own is not taken for one that a capital has left: what follows
      -- it is no lowercase letter before the conversion, and none after it.
      have hh : ∀ d ∈ (s.convert r).head?, c = s.separator → d.isLower = false := by
        intro d hd he
        rcases s.head_convert hd with rfl | hm
        · exact s.separator_not_lower
        · exact List.IsChain.rel_head? hs hm he
      rw [convert_cons, s.convertChar_other hc]
      simp only [List.cons_append, List.nil_append, restore_cons hh, hr]

theorem Style.convert_injective (s : Style) {a b : Text} (ha : PlainUppercase a)
    (hb : PlainUppercase b) (sa : Unambiguous s.separator a) (sb : Unambiguous s.separator b)
    (h : s.convert a = s.convert b) : a = b := by
  rw [← s.restore_convert ha sa, h, s.restore_convert hb sb]

theorem unambiguous_of_not_mem {sep : Char} {t : Text} (h : sep ∉ t) : Unambiguous sep t := by
  induction t with
  | nil => exact .nil
  | cons c r ih =>
    have hr := ih (fun hm => h (by simp [hm]))
    have hc : c ≠ sep := fun he => h (by simp [he])
    exact List.isChain_cons.mpr ⟨fun _ _ he => absurd he hc, hr⟩

theorem plainUppercase_of_ascii {t : Text} (h : ∀ c ∈ t, c.toNat < 128) : PlainUppercase t :=
  fun c hc _ => h c hc

theorem lt_of_isAlphanum {c : Char} (hc : c.isAlphanum = true) : c.toNat < 128 := by
  unfold Char.isAlphanum Char.isAlpha Char.isUpper Char.isLower Char.isDigit at hc
  simp only [Bool.or_eq_true, Bool.and_eq_true, decide_eq_true_eq, ge_iff_le,
    UInt32.le_iff_toNat_le] at hc
  have hA : 'Z'.val.toNat = 90 := rfl
  have ha : 'z'.val.toNat = 122 := rfl
  have h0 : '9'.val.toNat = 57 := rfl
  change c.val.toNat < 128
  omega

/-- A conversion is taken back where every uppercase character is an ASCII letter and no separator
of the text's own stands before a lowercase one; so it confuses no two such texts. A text without
the separator is such a text, and so is every name of letters and digits. -/
theorem Style.conversion_restorable (s : Style) :
    (∀ t, PlainUppercase t → Unambiguous s.separator t →
      restore s.separator (s.convert t) = t) ∧
    Set.InjOn s.convert {t | PlainUppercase t ∧ Unambiguous s.separator t} ∧
    (∀ t, s.separator ∉ t → Unambiguous s.separator t) ∧
    ∀ t : Text, (∀ c ∈ t, c.isAlphanum = true) →
      PlainUppercase t ∧ Unambiguous s.separator t := by
  refine ⟨fun t => s.restore_convert, ?_, fun t => unambiguous_of_not_mem, fun t ht => ⟨?_, ?_⟩⟩
  · rintro a ⟨ha, sa⟩ b ⟨hb, sb⟩ h
    exact s.convert_injective ha hb sa sb h
  · exact plainUppercase_of_ascii fun c hc => lt_of_isAlphanum (ht c hc)
  · refine unambiguous_of_not_mem fun hm => ?_
    have hs : s.separator.isAlphanum = false := by cases s <;> decide
    exact absurd (ht _ hm) (by simp [hs])

/-- A separator of the text's own before an inserted one, and a run of capitals. -/
theorem Style.conversion_restorable_capitals :
    Style.snake.convert "_XmlHTTP_2".toList = "__xml_h_t_t_p_2".toList ∧
      restore '_' "__xml_h_t_t_p_2".toList = "_XmlHTTP_2".toList ∧
      ∀ t, Style.snake.convert t = "__xml_h_t_t_p_2".toList → PlainUppercase t →
        Unambiguous '_' t → t = "_XmlHTTP_2".toList := by
  have hu : PlainUppercase "_XmlHTTP_2".toList := by decide
  have hs : Unambiguous '_' "_XmlHTTP_2".toList := by
    unfold Unambiguous
    decide
  have hc : Style.snake.convert "_XmlHTTP_2".toList = "__xml_h_t_t_p_2".toList := by decide
  refine ⟨hc, ?_, fun t ht hp ha => ?_⟩
  · rw [← hc]
    exact Style.snake.conversion_restorable.1 _ hu hs
  · exact Style.snake.conversion_restorable.2.1 ⟨hp, ha⟩ ⟨hu, hs⟩ (ht.trans hc.symm)

end FieldKeys
