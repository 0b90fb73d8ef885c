import FieldKeys.Proofs.Text.Front

/-! Words, literals and signs end where no word goes on. -/

namespace FieldKeys

/-- No word goes on from the first text to the second. -/
def Seam (a u : Text) : Prop :=
  ∀ c, a.getLast? = some c → continuesWord c = true → u.head?.any continuesWord = false

theorem Seam.of_suffix {a b u : Text} (h : Seam a u) (hb : b <:+ a) : Seam b u := by
  intro c hc
  obtain ⟨front, rfl⟩ := hb
  refine h c ?_
  rw [List.getLast?_append, hc, Option.some_or]

theorem Seam.of_all {a u : Text} (h : Seam a u) (ha : a ≠ []) (hc : ∀ c ∈ a, continuesWord c = true) :
    u.head?.any continuesWord = false :=
  h _ (List.getLast?_eq_some_getLast ha) (hc _ (List.getLast_mem ha))

/-- A text that goes on no number, no word and no suffix. -/
theorem any_of_not_continues {u : Text} (h : u.head?.any continuesWord = false) {p : Char → Bool}
    (hp : ∀ c, p c = true → continuesWord c = true) : u.head?.any p = false := by
  cases u with
  | nil => rfl
  | cons c u =>
    cases hc : p c with
    | false => simpa using hc
    | true => simp [hp c hc] at h

theorem Seam.of_head {a u : Text} (h : u.head?.any continuesWord = false) : Seam a u :=
  fun _ _ _ => h

theorem Seam.of_last {a u : Text} {c : Char} (h : a.getLast? = some c)
    (hc : continuesWord c = false) : Seam a u := by
  intro d hd hh
  obtain rfl : c = d := Option.some.inj (h.symm.trans hd)
  simp [hc] at hh

theorem afterWord?_head {t v : Text} (h : afterWord? t = some v) :
    v.head?.any continuesWord = false := by
  cases t with
  | nil => simp [afterWord?] at h
  | cons c r =>
    simp only [afterWord?] at h
    split at h
    · cases v with
      | nil => rfl
      | cons d v => exact dropWhile_head (Option.some.inj h)
    · simp at h

theorem afterName?_head {t v : Text} (h : afterName? t = some v) :
    v.head?.any continuesWord = false := by
  unfold afterName? at h
  split at h
  · obtain ⟨rest, hw, hh⟩ := Option.bind_eq_some_iff.mp h
    split at hh
    · simp at hh
    · exact Option.some.inj hh ▸ afterWord?_head hw
  · exact afterWord?_head h

/-- After a suffix no word goes on; without one nothing more is taken. -/
theorem Seam.suffix {a v : Text} {c : Char} (h : a.getLast? = some c) (hc : continuesWord c = false) :
    ∃ z, v = z ++ afterSuffix v ∧ a ++ z ≠ [] ∧ Seam (a ++ z) (afterSuffix v) := by
  have hne : ∀ z, a ++ z ≠ [] := by
    intro z hz
    obtain ⟨rfl, -⟩ := List.append_eq_nil_iff.mp hz
    simp at h
  unfold afterSuffix
  cases hw : afterWord? v with
  | none => exact ⟨[], rfl, hne [], .of_last (by simpa using h) hc⟩
  | some w =>
    obtain ⟨z, hz, -⟩ := afterWord?_locally hw
    exact ⟨z, hz, hne z, .of_head (afterWord?_head hw)⟩

theorem Place.turn_close {k : Content} {p : Place} {c : Char} (h : p.turn k c = .close) :
    c = '"' := by
  have hplain : plainTurn k c = .close → c = '"' := by
    intro hp
    unfold plainTurn at hp
    split_ifs at hp
    assumption
  have hescape : escapeTurn k c ≠ .close := by
    unfold escapeTurn
    split
    · simp
    · split_ifs <;> simp
  have hcode : ∀ value digits, codeTurn k value digits c ≠ .close := by
    intro value digits
    unfold codeTurn
    split_ifs <;> (try split) <;> simp
  cases p with
  | plain => exact hplain h
  | backslash => exact absurd h hescape
  | code value digits => exact absurd h (hcode value digits)
  | gap =>
    simp only [turn] at h
    split_ifs at h
    exact hplain h
  | firstHex | secondHex high =>
    simp only [turn] at h
    split at h
    · split_ifs at h
    · simp at h
  | codeStart | carriage | gapCarriage =>
    simp only [turn] at h
    split_ifs at h

theorem unquote_last {k : Content} {p : Place} {t v : Text}
    (h : (unquote k p t).map Prod.snd = some v) : ∃ x, t = x ++ v ∧ x.getLast? = some '"' := by
  induction t generalizing p with
  | nil => simp [unquote] at h
  | cons c r ih =>
    simp only [unquote] at h
    split at h
    · next ht =>
      obtain rfl := Option.some.inj h
      exact ⟨[c], rfl, by rw [Place.turn_close ht]; rfl⟩
    · next q value ht =>
      rw [Option.map_map] at h
      obtain ⟨x, rfl, hx⟩ := ih h
      exact ⟨c :: x, rfl, by rw [List.getLast?_cons, hx]; rfl⟩
    · simp at h

theorem unquoteRaw_last {k : Content} {hashes : Nat} {t v : Text}
    (h : (unquoteRaw k hashes t).map Prod.snd = some v) :
    ∃ x c, t = x ++ v ∧ x.getLast? = some c ∧ continuesWord c = false := by
  induction t with
  | nil => simp [unquoteRaw] at h
  | cons c r ih =>
    simp only [unquoteRaw] at h
    split at h
    · next hq =>
      obtain rfl := Option.some.inj h
      obtain ⟨rfl, hr⟩ := hq
      cases hashes with
      | zero => exact ⟨['"'], '"', by simp, rfl, by decide⟩
      | succ n =>
        refine ⟨'"' :: r.take (n + 1), '#', by simp, ?_, by decide⟩
        rw [hr, List.getLast?_cons, List.getLast?_replicate]
        simp
    · split at h
      · simp at h
      · split at h
        · rw [Option.map_map] at h
          obtain ⟨x, d, rfl, hx, hd⟩ := ih h
          exact ⟨c :: x, d, rfl, by rw [List.getLast?_cons, hx]; rfl, hd⟩
        · simp at h

theorem unquoteHashed_last {k : Content} {t v : Text}
    (h : (unquoteHashed k t).map Prod.snd = some v) :
    ∃ x c, t = x ++ v ∧ x.getLast? = some c ∧ continuesWord c = false := by
  simp only [unquoteHashed] at h
  split at h
  · next r hr =>
    split at h
    · obtain ⟨x, c, rfl, hx, hc⟩ := unquoteRaw_last h
      refine ⟨t.take (t.takeWhile (· == '#')).length ++ '"' :: x, c, ?_, ?_, hc⟩
      · rw [List.append_assoc, List.cons_append, ← hr, List.take_append_drop]
      · rw [List.getLast?_append, List.getLast?_cons, hx]
        rfl
    · simp at h
  · simp at h

theorem afterPlain?_seam {k : Content} {t v : Text} (h : afterPlain? k t = some v) :
    ∃ x, t = x ++ v ∧ x ≠ [] ∧ Seam x v := by
  rw [afterPlain?_eq] at h
  obtain ⟨w, hw, rfl⟩ := Option.map_eq_some_iff.mp h
  obtain ⟨x, rfl, hx⟩ := unquote_last hw
  obtain ⟨z, hz, hn, hs⟩ := Seam.suffix (v := w) hx (by decide)
  exact ⟨x ++ z, by rw [List.append_assoc, ← hz], hn, hs⟩

theorem afterRaw?_seam {k : Content} {t v : Text} (h : afterRaw? k t = some v) :
    ∃ x, t = x ++ v ∧ x ≠ [] ∧ Seam x v := by
  rw [afterRaw?_eq] at h
  obtain ⟨w, hw, rfl⟩ := Option.map_eq_some_iff.mp h
  obtain ⟨x, c, rfl, hx, hc⟩ := unquoteHashed_last hw
  obtain ⟨z, hz, hn, hs⟩ := Seam.suffix (v := w) hx hc
  exact ⟨x ++ z, by rw [List.append_assoc, ← hz], hn, hs⟩

theorem afterCharacter?_seam {k : Content} {t v : Text} (h : afterCharacter? k t = some v) :
    ∃ x, t = x ++ v ∧ x ≠ [] ∧ Seam x v := by
  rw [afterCharacter?_eq] at h
  obtain ⟨w, hw, hc⟩ := Option.bind_eq_some_iff.mp h
  obtain ⟨x, rfl, -⟩ := afterOne?_only k hw
  unfold afterClosingQuote? at hc
  split at hc
  · next r =>
    obtain rfl := Option.some.inj hc
    have hlast : (x ++ ['\'']).getLast? = some '\'' := List.getLast?_concat
    obtain ⟨z, hz, hn, hs⟩ := Seam.suffix (v := r) hlast (by decide)
    exact ⟨x ++ ['\''] ++ z, by rw [List.append_assoc, ← hz]; simp, hn, hs⟩
  · simp at hc

theorem Seam.cons {x v : Text} (c : Char) (h : Seam x v) (hx : x ≠ []) : Seam (c :: x) v := by
  intro d hd
  refine h d ?_
  obtain ⟨e, x, rfl⟩ := List.exists_cons_of_ne_nil hx
  simpa using hd

theorem afterNumber?_head {t v : Text} (h : afterNumber? t = some v) :
    v.head?.any continuesWord = false := by
  have hend : ∀ {o : Option Text}, endNumber? o = some v → v.head?.any continuesWord = false := by
    intro o ho
    obtain ⟨w, -, hw⟩ := Option.bind_eq_some_iff.mp ho
    split at hw
    · next hh =>
      obtain rfl := Option.some.inj hw
      cases w with
      | nil => rfl
      | cons c w => simpa [atWordEnd] using hh
    · simp at hw
  unfold afterNumber? at h
  split at h
  · rcases Option.or_eq_some_iff.mp h with hf | ⟨-, hi⟩
    · exact hend hf
    · exact hend hi
  · simp at h

end FieldKeys
