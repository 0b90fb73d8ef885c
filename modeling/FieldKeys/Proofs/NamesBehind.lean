import FieldKeys.Proofs.Grammar.Names
import FieldKeys.Proofs.OwnTokens

/-! What stands before the fields of an item, or before the name of a field, is read the same whatever
names stand behind it. -/

namespace FieldKeys

theorem exists_between {α : Type} {left tail rest : List α} (h : left ++ tail <:+ rest) :
    ∃ more, rest = more ++ left ++ tail := by
  obtain ⟨more, rfl⟩ := h
  exact ⟨more, by rw [List.append_assoc]⟩

/-- Tokens that are left over are part of what there was to read. -/
theorem exists_front {ts left tail : List Token} (h : left ++ tail <:+ ts ++ tail) (hne : left ≠ []) :
    ∃ t us, ts = t :: us := by
  refine List.exists_cons_of_ne_nil ?_
  rintro rfl
  exact hne (List.suffix_nil.mp (List.suffix_append_self_iff.mp h))

/-- A list of members is read before another tail, if each of its members is. -/
theorem CommaList.of_tail {α : Type} {closes : Token → Bool} {marked : α → α}
    {read? : List Token → Option (α × List Token)} {tail tail' : List Token}
    (hs : ∀ ts x rest, read? ts = some (x, rest) → rest <:+ ts)
    (hread : ∀ ts x left, left ≠ [] → read? (ts ++ tail) = some (x, left ++ tail) →
      read? (ts ++ tail') = some (x, left ++ tail'))
    {n : Nat} {ts left : List Token} {xs : List α}
    (h : CommaList closes read? marked n (ts ++ tail) xs (left ++ tail)) :
    CommaList closes read? marked n (ts ++ tail') xs (left ++ tail') := by
  have hfront : ∀ {ts front mid : List Token} {t u : Token} {x : α}, front ++ tail = t :: ts →
      read? (t :: ts) = some (x, u :: (mid ++ tail)) →
      ∃ us, front = t :: us ∧ read? (t :: (us ++ tail')) = some (x, u :: (mid ++ tail')) := by
    intro ts front mid t u x hts hx
    rw [← hts, ← List.cons_append] at hx
    obtain ⟨t', us, rfl⟩ := exists_front (hs _ _ _ hx) (by simp)
    obtain ⟨rfl, -⟩ := List.cons.inj hts
    exact ⟨us, rfl, hread _ _ _ (by simp) hx⟩
  generalize hts : ts ++ tail = us at h
  generalize hrest : left ++ tail = rest at h
  induction h generalizing ts with
  | none hc =>
    subst hrest
    rw [← List.cons_append] at hts
    obtain rfl := List.append_cancel_right hts
    exact .none hc
  | last ho hx hc =>
    subst hrest
    obtain ⟨us, rfl, hx'⟩ := hfront hts hx
    exact .last ho hx' hc
  | cons ho hx hn hu h ih =>
    subst hrest
    obtain ⟨more, rfl⟩ := exists_between (h.suffix hs)
    obtain ⟨us, rfl, hx'⟩ := hfront hts hx
    exact .cons ho hx' hn hu (ih rfl rfl)

theorem Renamed.head?_any {ts ts' : List Token} (h : Renamed ts ts') {p : Token → Bool}
    (hp : ∀ t t', Token.Renamed t t' → p t = p t') : ts.head?.any p = ts'.head?.any p := by
  cases h with
  | nil => rfl
  | cons ht _ => simpa using hp _ _ ht

theorem Renamed.exists_cons {t : Token} {ts us : List Token} {d : Delimiter}
    (h : Renamed (t :: ts) us) (ht : isClosing d t = false) :
    ∃ t' ts', us = t' :: ts' ∧ isClosing d t' = false := by
  cases h with
  | cons hh _ => exact ⟨_, _, rfl, (hh.isClosing d).symm.trans ht⟩

theorem readConstantParameter?_parts {as ts rest : List Token} {p : Parameter}
    (h : readConstantParameter? as ts = some (p, rest)) :
    ∃ name colon us, ts = name :: colon :: us ∧ rest <:+ us := by
  unfold readConstantParameter? at h
  split at h
  · next name colon us =>
    split at h
    · obtain ⟨r, hr, h⟩ := Option.bind_eq_some_iff.mp h
      obtain ⟨rest', hd, hp⟩ := Option.map_eq_some_iff.mp h
      obtain ⟨-, rfl⟩ := Prod.mk.inj hp
      exact ⟨name, colon, us, rfl, (skipDefault?_suffix hd).trans (Phrase.read_suffix hr)⟩
    · simp at h
  · simp at h

section

variable {tail tail' : List Token} (ht : Renamed tail tail')

include ht

theorem Phrase.read_names {p : Phrase} {ts left : List Token} {r : Reading}
    (hp : p.overlooksNames = true) (h : p.read (ts ++ tail) = some r) (hr : r.rest = left ++ tail) :
    p.read (ts ++ tail') = some { r with rest := left ++ tail' } :=
  readAfter_names hp h hr ht

theorem Attribute.readAll?_names {n : Nat} {ts left : List Token} {as : List Attribute}
    (h : Attribute.readAll? n (ts ++ tail) = some (as, left ++ tail)) :
    Attribute.readAll? n (ts ++ tail') = some (as, left ++ tail') := by
  induction n generalizing ts as with
  | zero =>
    obtain ⟨rfl, hts⟩ := Prod.mk.inj (Option.some.inj h)
    rw [List.append_cancel_right hts]
    rfl
  | succ n ih =>
    simp only [readAll?, ← (ht.append_left ts).head?_any fun _ _ hh => hh.isSign '#'] at h ⊢
    split at h
    · next hmark =>
      rw [if_pos hmark]
      obtain ⟨⟨a, rest⟩, ha, h⟩ := Option.bind_eq_some_iff.mp h
      obtain ⟨⟨others, rest'⟩, ho, hp⟩ := Option.map_eq_some_iff.mp h
      obtain ⟨rfl, rfl⟩ := Prod.mk.inj hp
      obtain ⟨more, rfl⟩ := exists_between (readAll?_written ho).1
      obtain ⟨hash, inside, last, hts, -, -, -, -, hown⟩ := read?_own ha
      obtain rfl : ts = hash :: inside ++ last :: (more ++ left) := by
        refine @List.append_cancel_right _ _ tail _ ?_
        simpa using hts
      have ha' := hown (more ++ left ++ tail')
      have hback : hash :: inside ++ last :: (more ++ left) ++ tail' =
          hash :: inside ++ last :: (more ++ left ++ tail') := by simp
      rw [hback, ha', Option.bind_some, ih ho]
      rfl
    · next hmark =>
      rw [if_neg hmark]
      obtain ⟨rfl, hts⟩ := Prod.mk.inj (Option.some.inj h)
      rw [List.append_cancel_right hts]

theorem Attribute.inFront?_names {ts left : List Token} {as : List Attribute}
    (h : Attribute.inFront? (ts ++ tail) = some (as, left ++ tail)) :
    Attribute.inFront? (ts ++ tail') = some (as, left ++ tail') := by
  have hlen : (ts ++ tail').length = (ts ++ tail).length := (ht.append_left ts).length_eq.symm
  rw [inFront?, hlen]
  exact readAll?_names ht h

theorem readAfterColon?_names {p : Phrase} (hp : p.overlooksNames = true) {ts left written : List Token}
    (hl : left ≠ []) (h : readAfterColon? p (ts ++ tail) = some (written, left ++ tail)) :
    readAfterColon? p (ts ++ tail') = some (written, left ++ tail') := by
  obtain ⟨t, us, rfl⟩ := exists_front (readAfterColon?_suffix h) hl
  simp only [List.cons_append, readAfterColon?] at h ⊢
  split at h
  · next hc =>
    obtain ⟨r, hr, hw⟩ := Option.map_eq_some_iff.mp h
    obtain ⟨rfl, hrest⟩ := Prod.mk.inj hw
    rw [if_pos hc, Phrase.read_names ht hp hr hrest]
    rfl
  · next hc =>
    obtain ⟨rfl, hrest⟩ := Prod.mk.inj (Option.some.inj h)
    obtain rfl : t :: us = left := List.append_cancel_right hrest
    rw [if_neg hc]
    rfl

theorem skipDefault?_names {p : Phrase} (hp : p.overlooksNames = true) {ts left : List Token}
    (hl : left ≠ []) (h : skipDefault? p (ts ++ tail) = some (left ++ tail)) :
    skipDefault? p (ts ++ tail') = some (left ++ tail') := by
  obtain ⟨t, us, rfl⟩ := exists_front (skipDefault?_suffix h) hl
  simp only [List.cons_append, skipDefault?] at h ⊢
  split at h
  · next he =>
    obtain ⟨r, hr, hrest⟩ := Option.map_eq_some_iff.mp h
    rw [if_pos he, Phrase.read_names ht hp hr hrest]
    rfl
  · next he =>
    obtain rfl : t :: us = left := List.append_cancel_right (Option.some.inj h)
    rw [if_neg he]
    rfl

theorem readLifetimeParameter?_names {as ts left : List Token} {p : Parameter} (hl : left ≠ [])
    (h : readLifetimeParameter? as (ts ++ tail) = some (p, left ++ tail)) :
    readLifetimeParameter? as (ts ++ tail') = some (p, left ++ tail') := by
  obtain ⟨t, us, rfl⟩ := exists_front (readLifetimeParameter?_suffix h) hl
  simp only [List.cons_append, readLifetimeParameter?] at h ⊢
  obtain ⟨⟨bounds, rest⟩, hb, hp⟩ := Option.map_eq_some_iff.mp h
  obtain ⟨rfl, rfl⟩ := Prod.mk.inj hp
  rw [readAfterColon?_names ht rfl hl hb]
  rfl

theorem readTypeParameter?_names {as ts left : List Token} {p : Parameter} (hl : left ≠ [])
    (h : readTypeParameter? as (ts ++ tail) = some (p, left ++ tail)) :
    readTypeParameter? as (ts ++ tail') = some (p, left ++ tail') := by
  obtain ⟨t, us, rfl⟩ := exists_front (readTypeParameter?_suffix h) hl
  simp only [List.cons_append, readTypeParameter?] at h ⊢
  obtain ⟨⟨bounds, rest⟩, hb, h⟩ := Option.bind_eq_some_iff.mp h
  obtain ⟨rest', hd, hp⟩ := Option.map_eq_some_iff.mp h
  obtain ⟨rfl, rfl⟩ := Prod.mk.inj hp
  obtain ⟨more, rfl⟩ := exists_between (skipDefault?_suffix hd)
  rw [readAfterColon?_names ht rfl (by simp [hl]) hb, Option.bind_some,
    skipDefault?_names ht rfl hl hd]
  rfl

theorem readConstantParameter?_names {as ts left : List Token} {p : Parameter} (hl : left ≠ [])
    (h : readConstantParameter? as (ts ++ tail) = some (p, left ++ tail)) :
    readConstantParameter? as (ts ++ tail') = some (p, left ++ tail') := by
  obtain ⟨name, us, rfl⟩ := exists_front (readConstantParameter?_suffix h) hl
  obtain ⟨name', colon', vs, hts, hs⟩ := readConstantParameter?_parts h
  obtain ⟨-, hts⟩ := List.cons.inj hts
  obtain ⟨colon, us, rfl⟩ : ∃ colon more, us = colon :: more := by
    refine List.exists_cons_of_ne_nil ?_
    rintro rfl
    -- The colon would be of the tail, and the tail is left as a whole.
    have hle := hs.length_le
    rw [show tail = colon' :: vs from hts] at hle
    simp only [List.length_append, List.length_cons] at hle
    omega
  simp only [List.cons_append, readConstantParameter?] at h ⊢
  split at h
  · next hn =>
    obtain ⟨r, hr, h⟩ := Option.bind_eq_some_iff.mp h
    obtain ⟨rest, hd, hp⟩ := Option.map_eq_some_iff.mp h
    obtain ⟨rfl, rfl⟩ := Prod.mk.inj hp
    obtain ⟨more, hrest⟩ := exists_between (skipDefault?_suffix hd)
    rw [hrest] at hd
    rw [if_pos hn, Phrase.read_names ht rfl hr hrest, Option.bind_some,
      skipDefault?_names ht rfl hl hd]
    rfl
  · simp at h

theorem Parameter.read?_names {ts left : List Token} {p : Parameter} (hl : left ≠ [])
    (h : Parameter.read? (ts ++ tail) = some (p, left ++ tail)) :
    Parameter.read? (ts ++ tail') = some (p, left ++ tail') := by
  obtain ⟨r, hr, hs⟩ := read?_after h
  obtain ⟨more, hrest⟩ := exists_between hs
  have hr' := Phrase.read_names ht rfl hr hrest
  obtain ⟨t, us, hmore⟩ := List.exists_cons_of_ne_nil (List.append_ne_nil_of_right_ne_nil more hl)
  rw [hmore] at hrest hr'
  simp only [read?, hr, hr', hrest, Option.bind_some, List.cons_append] at h ⊢
  split at h
  · next hc =>
    rw [if_pos hc]
    rw [← List.cons_append] at h ⊢
    exact readLifetimeParameter?_names ht hl h
  next hlifetime =>
  rw [if_neg hlifetime]
  split at h
  · next hc =>
    rw [if_pos hc]
    rw [← List.cons_append] at h ⊢
    exact readTypeParameter?_names ht hl h
  next hname =>
  rw [if_neg hname]
  split at h
  · next hc =>
    rw [if_pos hc]
    obtain ⟨rfl, hrest⟩ := Prod.mk.inj (Option.some.inj h)
    rw [List.append_cancel_right hrest]
  next hwild =>
  rw [if_neg hwild]
  split at h
  · next hc =>
    rw [if_pos hc]
    exact readConstantParameter?_names ht hl h
  · simp at h

theorem Parameter.readAll?_names {n : Nat} {ts left : List Token} {ps : List Parameter}
    (h : Parameter.readAll? n (ts ++ tail) = some (ps, left ++ tail)) :
    Parameter.readAll? n (ts ++ tail') = some (ps, left ++ tail') := by
  have hh := readAll?_eq_some_iff.mp h
  exact readAll?_eq_some_iff.mpr
    (hh.of_tail (fun _ _ _ => read?_suffix) fun _ _ _ hl hx => read?_names ht hl hx)

theorem Parameter.listInFront?_names {ts left : List Token} {ps : List Parameter} (hl : left ≠ [])
    (h : Parameter.listInFront? (ts ++ tail) = some (ps, left ++ tail)) :
    Parameter.listInFront? (ts ++ tail') = some (ps, left ++ tail') := by
  obtain ⟨t, us, rfl⟩ := exists_front (listInFront?_suffix h) hl
  have hlen : (t :: (us ++ tail')).length = (t :: (us ++ tail)).length :=
    (ht.append_left (t :: us)).length_eq.symm
  simp only [List.cons_append, listInFront?] at h ⊢
  split at h
  · next hc =>
    rw [if_pos hc, hlen]
    exact readAll?_names ht h
  · next hc =>
    rw [if_neg hc]
    obtain ⟨rfl, hrest⟩ := Prod.mk.inj (Option.some.inj h)
    rw [← List.cons_append] at hrest ⊢
    rw [List.append_cancel_right hrest]

theorem readConditions?_names {ts left conditions : List Token} (hl : left ≠ [])
    (h : readConditions? (ts ++ tail) = some (conditions, left ++ tail)) :
    readConditions? (ts ++ tail') = some (conditions, left ++ tail') := by
  obtain ⟨t, us, rfl⟩ := exists_front (readConditions?_suffix h) hl
  simp only [List.cons_append, readConditions?] at h ⊢
  split at h
  · next hc =>
    have hahead : parametersAhead.overlooksNames = true := by decide
    rw [if_pos hc, ← Look.holds_renamed hahead (ht.append_left us)]
    split at h
    · simp at h
    · next hlook =>
      rw [if_neg hlook]
      obtain ⟨r, hr, hp⟩ := Option.map_eq_some_iff.mp h
      obtain ⟨rfl, hrest⟩ := Prod.mk.inj hp
      rw [Phrase.read_names ht rfl hr hrest]
      rfl
  · next hc =>
    rw [if_neg hc]
    obtain ⟨rfl, hrest⟩ := Prod.mk.inj (Option.some.inj h)
    rw [← List.cons_append] at hrest ⊢
    rw [List.append_cancel_right hrest]

end

end FieldKeys
