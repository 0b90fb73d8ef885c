import FieldKeys.Token.Scan
import Mathlib.Data.List.TakeWhile

/-! Readers of characters look at no more than what they take and what stands next to it. So they
take the same from a text that ends earlier, but not before the end of what they take. -/

namespace FieldKeys

/-- A reader that takes the same whatever follows. -/
def TakesOnly (read : Text → Option Text) : Prop :=
  ∀ ⦃t v⦄, read t = some v → ∃ x, t = x ++ v ∧ ∀ w, read (x ++ w) = some w

/-- A reader that takes the same when what follows ends earlier. -/
def TakesLocally (read : Text → Option Text) : Prop :=
  ∀ ⦃t v⦄, read t = some v → ∃ x, t = x ++ v ∧ ∀ y u, v = y ++ u → read (x ++ y) = some y

theorem TakesOnly.locally {read : Text → Option Text} (h : TakesOnly read) : TakesLocally read := by
  intro t v hv
  obtain ⟨x, ht, hw⟩ := h hv
  exact ⟨x, ht, fun y _ _ => hw y⟩

theorem TakesOnly.append {read : Text → Option Text} (h : TakesOnly read) {t v : Text}
    (hv : read t = some v) (u : Text) : read (t ++ u) = some (v ++ u) := by
  obtain ⟨x, rfl, hw⟩ := h hv
  rw [List.append_assoc]
  exact hw _

theorem TakesLocally.bind {f g : Text → Option Text} (hf : TakesLocally f) (hg : TakesLocally g) :
    TakesLocally fun t => (f t).bind g := by
  intro t w h
  obtain ⟨v, hv, hw⟩ := Option.bind_eq_some_iff.mp h
  obtain ⟨x, rfl, hx⟩ := hf hv
  obtain ⟨z, rfl, hz⟩ := hg hw
  refine ⟨x ++ z, by simp, ?_⟩
  rintro y u rfl
  have hnear := hx (z ++ y) u (by simp)
  simp only [List.append_assoc, hnear, Option.bind_some, hz y u rfl]

theorem TakesLocally.map {f : Text → Option Text} {g : Text → Text} (hf : TakesLocally f)
    (hg : TakesLocally fun t => some (g t)) : TakesLocally fun t => (f t).map g := by
  intro t w h
  obtain ⟨v, hv, hw⟩ := Option.map_eq_some_iff.mp h
  obtain ⟨x, ht, hx⟩ := hf.bind hg (Option.bind_eq_some_iff.mpr ⟨v, hv, congrArg some hw⟩)
  refine ⟨x, ht, fun y u hy => ?_⟩
  obtain ⟨v', hv', hw'⟩ := Option.bind_eq_some_iff.mp (hx y u hy)
  exact Option.map_eq_some_iff.mpr ⟨v', hv', Option.some.inj hw'⟩

theorem dropWhile_head {p : Char → Bool} {c : Char} {t r : Text} (h : t.dropWhile p = c :: r) :
    p c = false := by
  simpa [h] using List.head?_dropWhile_not p t

theorem dropWhile_locally (p : Char → Bool) : TakesLocally fun t => some (t.dropWhile p) := by
  intro t v h
  obtain rfl := Option.some.inj h
  refine ⟨t.takeWhile p, List.takeWhile_append_dropWhile.symm, fun y u hv => congrArg some ?_⟩
  rw [List.dropWhile_append_of_pos fun c hc => List.mem_takeWhile_imp hc]
  cases y with
  | nil => rfl
  | cons c y => rw [List.dropWhile_cons_of_neg (by simp [dropWhile_head hv])]

theorem afterWord?_locally : TakesLocally afterWord? := by
  intro t v h
  cases t with
  | nil => simp [afterWord?] at h
  | cons c r =>
    simp only [afterWord?] at h
    split at h
    · next hc =>
      obtain ⟨x, rfl, hx⟩ := dropWhile_locally continuesWord h
      refine ⟨c :: x, rfl, fun y u hv => ?_⟩
      simpa [afterWord?, hc] using hx y u hv
    · simp at h

theorem afterWord?_eq_none_iff {t : Text} : afterWord? t = none ↔ t.head?.any startsWord = false := by
  cases t with
  | nil => simp [afterWord?]
  | cons c r => simp [afterWord?]

theorem afterSuffix_locally : TakesLocally fun t => some (afterSuffix t) := by
  intro t v h
  obtain rfl := Option.some.inj h
  unfold afterSuffix
  cases hw : afterWord? t with
  | some v =>
    obtain ⟨x, ht, hx⟩ := afterWord?_locally hw
    exact ⟨x, ht, fun y u hv => by simp [hx y u hv]⟩
  | none =>
    refine ⟨[], rfl, fun y u hv => ?_⟩
    have hn : afterWord? y = none := by
      cases y with
      | nil => rfl
      | cons c y =>
        obtain rfl : t = c :: y ++ u := hv
        rw [afterWord?_eq_none_iff] at hw ⊢
        exact hw
    simp [hn]

theorem after?_append {start t rest : Text} (h : Text.after? start t = some rest) (u : Text) :
    Text.after? start (t ++ u) = some (rest ++ u) := by
  rw [Text.after?_eq_some_iff] at h ⊢
  rw [h, List.append_assoc]

theorem beginsWith_append {start t : Text} (h : Text.beginsWith t start = true) (u : Text) :
    Text.beginsWith (t ++ u) start = true := by
  obtain ⟨rest, hr⟩ := Option.isSome_iff_exists.mp h
  exact Option.isSome_iff_exists.mpr ⟨_, after?_append hr u⟩

theorem afterName?_locally : TakesLocally afterName? := by
  intro t v h
  unfold afterName? at h
  split at h
  · next r hr =>
    obtain rfl := Text.after?_eq_some_iff.mp hr
    obtain ⟨rest, hw, hh⟩ := Option.bind_eq_some_iff.mp h
    obtain ⟨x, rfl, hx⟩ := afterWord?_locally hw
    split at hh
    · simp at hh
    · next hm =>
      obtain rfl := Option.some.inj hh
      refine ⟨afterName?.rawWordMark ++ x, (List.append_assoc _ _ _).symm, fun y u hv => ?_⟩
      have hnear : Text.after? afterName?.rawWordMark (afterName?.rawWordMark ++ x ++ y) =
          some (x ++ y) := Text.after?_eq_some_iff.mpr (List.append_assoc _ _ _)
      have htake : (x ++ y).take ((x ++ y).length - y.length) = x := by simp
      have hsame : (x ++ rest).take ((x ++ rest).length - rest.length) = x := by simp
      rw [hsame] at hm
      simp only [afterName?, hnear, hx y u hv, Option.bind_some, htake, if_neg hm]
  · next hr =>
    obtain ⟨x, rfl, hx⟩ := afterWord?_locally h
    refine ⟨x, rfl, ?_⟩
    rintro y u rfl
    have hnear : Text.after? afterName?.rawWordMark (x ++ y) = none := by
      by_contra hn
      obtain ⟨r, hr'⟩ := Option.ne_none_iff_exists'.mp hn
      have hfar := after?_append hr' u
      rw [List.append_assoc, hr] at hfar
      simp at hfar
    simp only [afterName?, hnear, hx y u rfl]

theorem afterEscape?_only (k : Content) (p : Place) : TakesOnly (afterEscape? k p) := by
  intro t v h
  induction t generalizing p with
  | nil => simp [afterEscape?] at h
  | cons c r ih =>
    simp only [afterEscape?] at h
    split at h
    · next value ht =>
      obtain rfl := Option.some.inj h
      exact ⟨[c], rfl, fun w => by simp [afterEscape?, ht]⟩
    · simp at h
    · simp at h
    · next q value hplain hgap hcarriage ht =>
      obtain ⟨x, rfl, hx⟩ := ih q h
      refine ⟨c :: x, rfl, fun w => ?_⟩
      simp [afterEscape?, ht, hx w]
    · simp at h
    · simp at h

theorem unquote_only (k : Content) (p : Place) :
    TakesOnly fun t => (unquote k p t).map Prod.snd := by
  intro t v h
  induction t generalizing p with
  | nil => simp [unquote] at h
  | cons c r ih =>
    simp only [unquote] at h
    split at h
    · next ht =>
      obtain rfl := Option.some.inj h
      exact ⟨[c], rfl, fun w => by simp [unquote, ht]⟩
    · next q value ht =>
      rw [Option.map_map] at h
      obtain ⟨x, rfl, hx⟩ := ih q h
      refine ⟨c :: x, rfl, fun w => ?_⟩
      simpa [unquote, ht, Function.comp_def] using hx w
    · simp at h

theorem unquoteRaw_only (k : Content) (hashes : Nat) {t v : Text}
    (h : (unquoteRaw k hashes t).map Prod.snd = some v) :
    ∃ x, t = x ++ v ∧ hashes < x.length ∧
      ∀ w, (unquoteRaw k hashes (x ++ w)).map Prod.snd = some w := by
  induction t with
  | nil => simp [unquoteRaw] at h
  | cons c r ih =>
    simp only [unquoteRaw] at h
    split at h
    · next hq =>
      obtain rfl := Option.some.inj h
      obtain ⟨rfl, hr⟩ := hq
      refine ⟨'"' :: r.take hashes, by simp, by simp [hr], fun w => ?_⟩
      have hw : (List.replicate hashes '#' ++ w).take hashes = List.replicate hashes '#' :=
        List.take_left' List.length_replicate
      have hw' : (List.replicate hashes '#' ++ w).drop hashes = w :=
        List.drop_left' List.length_replicate
      simp [unquoteRaw, hr, hw, hw']
    · next hq =>
      split at h
      · simp at h
      · next hb =>
        split at h
        · next hk =>
          rw [Option.map_map] at h
          obtain ⟨x, rfl, hlen, hx⟩ := ih h
          refine ⟨c :: x, rfl, Nat.lt_succ_of_lt hlen, fun w => ?_⟩
          -- The end of the literal lies in what is taken, and so does all that is looked at.
          have htake : ∀ w, (x ++ w).take hashes = x.take hashes := fun w =>
            List.take_append_of_le_length (Nat.le_of_lt hlen)
          have hhead : ∀ w, (x ++ w).head? = x.head? := fun w => by
            cases x with
            | nil => simp at hlen
            | cons d x => rfl
          rw [htake] at hq
          rw [hhead] at hb
          simpa [unquoteRaw, htake, hhead, hq, hb, hk, Function.comp_def] using hx w
        · simp at h

theorem unquoteHashed_only (k : Content) :
    TakesOnly fun t => (unquoteHashed k t).map Prod.snd := by
  intro t v h
  simp only [unquoteHashed] at h
  split at h
  · next r hr =>
    split at h
    · next hle =>
      obtain ⟨x, rfl, -, hx⟩ := unquoteRaw_only k _ h
      generalize hn : (t.takeWhile (· == '#')).length = n at *
      have htake : t.take n = List.replicate n '#' := by
        have hh : t.take n = t.takeWhile (· == '#') := by
          rw [← hn]
          exact (List.prefix_iff_eq_take.mp (List.takeWhile_prefix _)).symm
        rw [hh, ← hn]
        exact List.eq_replicate_of_mem fun c hc => by simpa using List.mem_takeWhile_imp hc
      refine ⟨List.replicate n '#' ++ '"' :: x, ?_, fun w => ?_⟩
      · rw [← htake, List.append_assoc, List.cons_append, ← hr, List.take_append_drop]
      · have hcount : ((List.replicate n '#' ++ '"' :: x ++ w).takeWhile (· == '#')).length = n := by
          rw [List.append_assoc, List.takeWhile_append_of_pos (by simp)]
          simp
        have hdrop : (List.replicate n '#' ++ '"' :: x ++ w).drop n = '"' :: (x ++ w) := by
          rw [List.append_assoc]
          exact List.drop_left' List.length_replicate
        simp only [unquoteHashed, hcount, hdrop, if_pos hle, hx w]
    · simp at h
  · simp at h

/-- What follows the one character, escaped or not, after the quote that opens it. -/
def afterOne? (k : Content) : Text → Option Text
  | '\\' :: r => afterEscape? k .backslash r
  | c :: r => if k.admits c then some r else none
  | [] => none

def afterClosingQuote? : Text → Option Text
  | '\'' :: r => some (afterSuffix r)
  | _ => none

theorem afterCharacter?_eq (k : Content) (t : Text) :
    afterCharacter? k t = (afterOne? k t).bind afterClosingQuote? :=
  rfl

theorem afterOne?_only (k : Content) : TakesOnly (afterOne? k) := by
  intro t v h
  unfold afterOne? at h
  split at h
  · next r =>
    obtain ⟨x, rfl, hx⟩ := afterEscape?_only k .backslash h
    exact ⟨'\\' :: x, rfl, hx⟩
  · next c r hc =>
    split at h
    · next hk =>
      obtain rfl := Option.some.inj h
      refine ⟨[c], rfl, fun w => ?_⟩
      simp [afterOne?, hk]
    · simp at h
  · simp at h

theorem afterClosingQuote?_locally : TakesLocally afterClosingQuote? := by
  intro t v h
  unfold afterClosingQuote? at h
  split at h
  · next r =>
    obtain ⟨x, rfl, hx⟩ := afterSuffix_locally h
    exact ⟨'\'' :: x, rfl, hx⟩
  · simp at h

theorem afterCharacter?_locally (k : Content) : TakesLocally (afterCharacter? k) :=
  (afterOne?_only k).locally.bind afterClosingQuote?_locally

theorem afterPlain?_eq (k : Content) (t : Text) :
    afterPlain? k t = ((unquote k .plain t).map Prod.snd).map afterSuffix := by
  rw [Option.map_map]
  rfl

theorem afterRaw?_eq (k : Content) (t : Text) :
    afterRaw? k t = ((unquoteHashed k t).map Prod.snd).map afterSuffix := by
  rw [Option.map_map]
  rfl

theorem afterPlain?_locally (k : Content) : TakesLocally (afterPlain? k) := by
  rw [funext (afterPlain?_eq k)]
  exact (unquote_only k .plain).locally.map afterSuffix_locally

theorem afterRaw?_locally (k : Content) : TakesLocally (afterRaw? k) := by
  rw [funext (afterRaw?_eq k)]
  exact (unquoteHashed_only k).locally.map afterSuffix_locally

/-- A literal that is no number is read locally. -/
theorem afterLiteral?_near {t v : Text} (h : afterLiteral? t = some v)
    (hd : t.head?.any isDigit = false) :
    ∃ x, t = x ++ v ∧ ∀ y u, v = y ++ u → afterLiteral? (x ++ y) = some y := by
  unfold afterLiteral? at h
  split at h
  case h_1 r =>
    obtain ⟨x, rfl, hx⟩ := afterPlain?_locally _ h
    exact ⟨'"' :: x, rfl, hx⟩
  case h_2 r =>
    obtain ⟨x, rfl, hx⟩ := afterCharacter?_locally _ h
    exact ⟨'\'' :: x, rfl, hx⟩
  case h_3 r =>
    obtain ⟨x, rfl, hx⟩ := afterRaw?_locally _ h
    exact ⟨'r' :: x, rfl, hx⟩
  case h_4 r =>
    obtain ⟨x, rfl, hx⟩ := afterPlain?_locally _ h
    exact ⟨'b' :: '"' :: x, rfl, hx⟩
  case h_5 r =>
    obtain ⟨x, rfl, hx⟩ := afterRaw?_locally _ h
    exact ⟨'b' :: 'r' :: x, rfl, hx⟩
  case h_6 r =>
    obtain ⟨x, rfl, hx⟩ := afterCharacter?_locally _ h
    exact ⟨'b' :: '\'' :: x, rfl, hx⟩
  case h_7 r =>
    obtain ⟨x, rfl, hx⟩ := afterPlain?_locally _ h
    exact ⟨'c' :: '"' :: x, rfl, hx⟩
  case h_8 r =>
    obtain ⟨x, rfl, hx⟩ := afterRaw?_locally _ h
    exact ⟨'c' :: 'r' :: x, rfl, hx⟩
  case h_9 => simp [afterNumber?, hd] at h

theorem afterCharacter?_append {k : Content} {t : Text} (h : (afterCharacter? k t).isSome = true)
    (u : Text) : (afterCharacter? k (t ++ u)).isSome = true := by
  rw [afterCharacter?_eq] at h ⊢
  obtain ⟨v, hv⟩ := Option.isSome_iff_exists.mp h
  obtain ⟨body, hb, hc⟩ := Option.bind_eq_some_iff.mp hv
  rw [(afterOne?_only k).append hb u, Option.bind_some]
  unfold afterClosingQuote? at hc
  split at hc
  · rfl
  · simp at hc

theorem afterPlain?_append {k : Content} {t : Text} (h : (afterPlain? k t).isSome = true)
    (u : Text) : (afterPlain? k (t ++ u)).isSome = true := by
  rw [afterPlain?_eq, Option.isSome_map] at h ⊢
  obtain ⟨v, hv⟩ := Option.isSome_iff_exists.mp h
  rw [(unquote_only k .plain).append hv u]
  rfl

theorem afterRaw?_append {k : Content} {t : Text} (h : (afterRaw? k t).isSome = true)
    (u : Text) : (afterRaw? k (t ++ u)).isSome = true := by
  rw [afterRaw?_eq, Option.isSome_map] at h ⊢
  obtain ⟨v, hv⟩ := Option.isSome_iff_exists.mp h
  rw [(unquoteHashed_only k).append hv u]
  rfl

/-- Where a literal begins that is no number, one begins in every longer text. -/
theorem afterLiteral?_append {t : Text} (h : (afterLiteral? t).isSome = true)
    (hd : t.head?.any isDigit = false) (u : Text) : (afterLiteral? (t ++ u)).isSome = true := by
  unfold afterLiteral? at h
  split at h
  case h_9 => simp [afterNumber?, hd] at h
  all_goals
    first
    | exact afterPlain?_append h u
    | exact afterCharacter?_append h u
    | exact afterRaw?_append h u

theorem afterComment?_only (depth : Nat) {t v : Text} (h : afterComment? depth t = some v) :
    ∃ x, t = x ++ v ∧ x ≠ [] ∧ ∀ w, afterComment? depth (x ++ w) = some w := by
  fun_induction afterComment? depth t with
  | case1 => simp at h
  | case2 depth r ih =>
    obtain ⟨x, rfl, -, hx⟩ := ih h
    exact ⟨'/' :: '*' :: x, rfl, by simp, fun w => by simpa [afterComment?] using hx w⟩
  | case3 depth r hle =>
    obtain rfl := Option.some.inj h
    exact ⟨['*', '/'], rfl, by simp, fun w => by simp [afterComment?, hle]⟩
  | case4 depth r hle ih =>
    obtain ⟨x, rfl, -, hx⟩ := ih h
    exact ⟨'*' :: '/' :: x, rfl, by simp, fun w => by simpa [afterComment?, hle] using hx w⟩
  | case5 depth c r hopen hclose ih =>
    obtain ⟨x, rfl, hne, hx⟩ := ih h
    obtain ⟨d, x, rfl⟩ := List.exists_cons_of_ne_nil hne
    refine ⟨c :: d :: x, rfl, by simp, fun w => ?_⟩
    rw [List.cons_append, afterComment?]
    · exact hx w
    · rintro r' rfl he
      exact hopen _ rfl (by rw [List.cons_append] at he ⊢; rw [(List.cons.inj he).1])
    · rintro r' rfl he
      exact hclose _ rfl (by rw [List.cons_append] at he ⊢; rw [(List.cons.inj he).1])

end FieldKeys
