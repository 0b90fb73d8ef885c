import FieldKeys.Proofs.Grammar.Locality
import FieldKeys.Proofs.Places
import FieldKeys.Proofs.Source

/-! Attributes and items are read the same from their own tokens alone, wherever those stand. -/

namespace FieldKeys

theorem closes_of_closing {d : Delimiter} {used : List Token} {last : Token}
    (hu : depthAfter? 0 (used.map (·.lexeme)) = some 0) (hl : isClosing d last = true)
    (rest : List Token) : Closes 1 (used ++ last :: rest) := by
  rw [Closes, List.map_append, depthAfter?_append, hu, List.map_cons, isClosing_iff.mp hl]
  rfl

theorem Phrase.inFront_leaves {whole : Bool} {p : Phrase} {shape : Shape} {ts : List Token}
    {r : Reading} (h : p.inFront whole shape ts = some r) : Leaves ts 0 0 r.rest :=
  readPhrase_leaves _ p shape ts r h

theorem Expression.inFront?_leaves {whole : Bool} {x : Expression} {ts rest : List Token}
    (h : Expression.inFront? whole ts = some (x, rest)) : Leaves ts 0 0 rest := by
  obtain ⟨r, hr, hp⟩ := Option.map_eq_some_iff.mp h
  obtain ⟨-, rfl⟩ := Prod.mk.inj hp
  exact Phrase.inFront_leaves hr

theorem Attribute.readPath?_leaves {ts path rest : List Token}
    (h : Attribute.readPath? ts = some (path, rest)) : Leaves ts 0 0 rest := by
  cases ts with
  | nil => simp [readPath?] at h
  | cons t ts =>
    simp only [readPath?] at h
    split at h
    · next ht =>
      obtain ⟨-, rfl⟩ := Prod.mk.inj (Option.some.inj h)
      exact ⟨[t], rfl, by simp [depthAfter?, Lexeme.depthAfter?, ht]⟩
    · obtain ⟨r, hr, hp⟩ := Option.map_eq_some_iff.mp h
      obtain ⟨-, rfl⟩ := Prod.mk.inj hp
      exact Phrase.inFront_leaves hr

theorem Attribute.readPath?_closed {ts path left tail : List Token}
    (h : Attribute.readPath? (ts ++ tail) = some (path, left ++ tail)) (hc : Closes 1 left)
    (tail' : List Token) : Attribute.readPath? (ts ++ tail') = some (path, left ++ tail') := by
  cases ts with
  | nil =>
    obtain rfl := List.suffix_nil.mp (List.suffix_append_self_iff.mp (readPath?_suffix h))
    exact absurd rfl hc.ne_nil
  | cons t ts =>
    simp only [readPath?, List.cons_append] at h ⊢
    split at h
    · next ht =>
      rw [if_pos ht]
      obtain ⟨rfl, hrest⟩ := Prod.mk.inj (Option.some.inj h)
      rw [List.append_cancel_right hrest]
    · next ht =>
      rw [if_neg ht]
      obtain ⟨r, hr, hp⟩ := Option.map_eq_some_iff.mp h
      obtain ⟨rfl, hrest⟩ := Prod.mk.inj hp
      have hr : Phrase.plainPath.inFront true .other (t :: ts ++ tail) = some r := hr
      have hh : Phrase.plainPath.read (t :: (ts ++ tail')) = some _ :=
        Phrase.inFront_closed hr hrest hc tail'
      rw [hh]
      rfl

theorem Attribute.readForm?_leaves {ts rest : List Token} {form : Attribute.Form}
    (h : Attribute.readForm? ts = some (form, rest)) : Leaves ts 0 0 rest := by
  cases ts with
  | nil =>
    obtain ⟨-, rfl⟩ := Prod.mk.inj (Option.some.inj h)
    exact Leaves.refl [] 0
  | cons t ts =>
    rcases formCases t with ht | ht | ⟨ho, he⟩
    · rw [readForm?_opening ht] at h
      obtain ⟨⟨inside, r⟩, hr, hp⟩ := Option.map_eq_some_iff.mp h
      obtain ⟨-, rfl⟩ := Prod.mk.inj hp
      have hraw : readRaw .other (t :: ts) = some ⟨.other, t :: inside, r⟩ := by
        simp [readRaw, ht, hr]
      exact readRaw_leaves hraw 0
    · rw [readForm?_equals ht] at h
      obtain ⟨r, hr, hp⟩ := Option.map_eq_some_iff.mp h
      obtain ⟨-, rfl⟩ := Prod.mk.inj hp
      have hone : Leaves (t :: ts) 0 0 ts :=
        ⟨[t], rfl, by simp [depthAfter?, ht, Lexeme.depthAfter?]⟩
      exact hone.trans (Phrase.inFront_leaves hr)
    · rw [readForm?_bare ho he] at h
      obtain ⟨-, rfl⟩ := Prod.mk.inj (Option.some.inj h)
      exact Leaves.refl _ 0

theorem Attribute.readForm?_closed {ts left tail : List Token} {form : Attribute.Form}
    (h : Attribute.readForm? (ts ++ tail) = some (form, left ++ tail)) (hc : Closes 1 left)
    (tail' : List Token) : Attribute.readForm? (ts ++ tail') = some (form, left ++ tail') := by
  cases ts with
  | nil =>
    obtain rfl := List.suffix_nil.mp (List.suffix_append_self_iff.mp (readForm?_leaves h).suffix)
    exact absurd rfl hc.ne_nil
  | cons t ts =>
    rw [List.cons_append] at h ⊢
    rcases formCases t with ht | ht | ⟨ho, he⟩
    · rw [readForm?_opening ht] at h ⊢
      obtain ⟨⟨inside, r⟩, hr, hp⟩ := Option.map_eq_some_iff.mp h
      obtain ⟨rfl, rfl⟩ := Prod.mk.inj hp
      have hts := cutGroup_append hr
      rw [← List.append_assoc] at hts
      obtain rfl := List.append_cancel_right hts
      rw [List.append_assoc, cutGroup_locally hr (left ++ tail')]
      rfl
    · rw [readForm?_equals ht] at h ⊢
      obtain ⟨r, hr, hp⟩ := Option.map_eq_some_iff.mp h
      obtain ⟨rfl, hrest⟩ := Prod.mk.inj hp
      have hh : Phrase.attributeValue.read (ts ++ tail') = some _ :=
        Phrase.inFront_closed hr hrest hc tail'
      rw [hh]
      rfl
    · rw [readForm?_bare ho he] at h ⊢
      obtain ⟨rfl, hrest⟩ := Prod.mk.inj (Option.some.inj h)
      rw [← List.cons_append] at hrest ⊢
      rw [List.append_cancel_right hrest]

theorem Attribute.listOfTokens?_single {ts : List Token} {a : Attribute}
    (h : Attribute.read? ts = some (a, [])) : Attribute.listOfTokens? ts = some [a] := by
  obtain ⟨hash, bracket, inside, after, last, rfl, hp⟩ := Attribute.read?_eq_some_iff.mp h
  simp [listOfTokens?, inFront?, readAll?, hp.marked, h]

/-- An attribute is a group of its own, from its number sign to its bracket, whatever follows. -/
theorem Attribute.read?_own {ts rest : List Token} {a : Attribute}
    (h : Attribute.read? ts = some (a, rest)) :
    ∃ hash inside last, ts = hash :: inside ++ last :: rest ∧ isSign '#' hash = true ∧
      isClosing .bracket last = true ∧ a.span = hash.span.join last.span ∧
      depthAfter? 0 ((hash :: inside ++ [last]).map (·.lexeme)) = some 0 ∧
      ∀ tail, Attribute.read? (hash :: inside ++ last :: tail) = some (a, tail) := by
  obtain ⟨hash, bracket, path, form, last, rfl, hp⟩ := read?_eq_some_iff.mp h
  obtain ⟨used, rfl, hu⟩ := readPath?_leaves hp.path
  obtain ⟨used', rfl, hu'⟩ := readForm?_leaves hp.form
  have hc := closes_of_closing hu' hp.closed []
  have hlast := @closes_of_closing _ [] _ rfl hp.closed []
  refine ⟨hash, bracket :: (used ++ used'), last, by simp, hp.marked, hp.closed, hp.span, ?_,
    fun tail => ?_⟩
  · obtain ⟨joint, hhash⟩ := exists_sign hp.marked
    have hopen := isOpening_iff.mp hp.opened
    have hclose := isClosing_iff.mp hp.closed
    have hinside : depthAfter? 1 ((used ++ used').map (·.lexeme)) = some 1 := by
      rw [List.map_append, depthAfter?_append, depthAfter?_add 1 hu]
      exact depthAfter?_add 1 hu'
    have hrest : depthAfter? 1 ((used ++ used' ++ [last]).map (·.lexeme)) = some 0 := by
      rw [List.map_append, depthAfter?_append, hinside, List.map_singleton, hclose]
      rfl
    have hfirst : hash.lexeme.depthAfter? 0 = some 0 := by rw [hhash]; rfl
    have hsecond : bracket.lexeme.depthAfter? 0 = some 1 := by rw [hopen]; rfl
    exact depthAfter?_of_cons hfirst (depthAfter?_of_cons hsecond hrest)
  · refine read?_eq_some_iff.mpr ⟨hash, bracket, used ++ (used' ++ last :: tail), used' ++ last :: tail,
      last, by simp, hp.marked, hp.opened, ?_, ?_, hp.closed, hp.span⟩
    · have hpath : Attribute.readPath? (used ++ (used' ++ [last]) ++ rest) =
          some (a.path, used' ++ [last] ++ rest) := by simpa using hp.path
      simpa using readPath?_closed hpath hc tail
    · have hform : Attribute.readForm? (used' ++ [last] ++ rest) = some (a.form, [last] ++ rest) := by
        simpa using hp.form
      simpa using readForm?_closed hform hlast tail

theorem option_rel_bind {α β γ δ : Type} {rel : α → β → Prop} {rel' : γ → δ → Prop} {x : Option α}
    {y : Option β} {f : α → Option γ} {g : β → Option δ} (h : Option.Rel rel x y)
    (hf : ∀ a b, rel a b → Option.Rel rel' (f a) (g b)) : Option.Rel rel' (x.bind f) (y.bind g) := by
  cases h with
  | none => exact .none
  | some h => exact hf _ _ h

theorem exists_of_option_rel {α β : Type} {rel : α → β → Prop} {x : Option α} {y : Option β} {a : α}
    (h : Option.Rel rel x y) (hx : x = some a) : ∃ b, y = some b ∧ rel a b := by
  cases h with
  | none => simp at hx
  | some h =>
    obtain rfl := Option.some.inj hx
    exact ⟨_, rfl, h⟩

section

variable {t t' : Token} {ts ts' : List Token} (h : Alike (t :: ts) (t' :: ts'))

include h

theorem Alike.tail : Alike ts ts' := h.head.2.2

theorem Alike.isSign (c : Char) : FieldKeys.isSign c t = FieldKeys.isSign c t' := h.head.1 c

theorem Alike.isWord (w : Text) : t.lexeme.isWord w = t'.lexeme.isWord w := h.head.2.1 w

theorem Alike.fits (test : Test) : test.fits t.lexeme = test.fits t'.lexeme := by
  cases h with
  | sign => cases test <;> rfl
  | cons => rfl

theorem Alike.isOpening (d : Delimiter) : FieldKeys.isOpening d t = FieldKeys.isOpening d t' := by
  cases h <;> rfl

theorem Alike.isClosing (d : Delimiter) : FieldKeys.isClosing d t = FieldKeys.isClosing d t' := by
  cases h <;> rfl

end

theorem Phrase.read_written_alike {p : Phrase} {ts ts' : List Token} (h : Alike ts ts') :
    Option.Rel (fun x y => x.1.map Token.unplaced = y.1.map Token.unplaced ∧ Alike x.2 y.2)
      ((p.read ts).map fun r => (r.written, r.rest)) ((p.read ts').map fun r => (r.written, r.rest)) :=
  option_rel_map (Phrase.read_alike h p) fun _ _ hh =>
    ⟨Token.map_unplaced_eq_iff.mpr hh.written, hh.rest⟩

theorem Attribute.readPath?_alike {ts ts' : List Token} (h : Alike ts ts') :
    Option.Rel (fun x y => x.1.map Token.unplaced = y.1.map Token.unplaced ∧ Alike x.2 y.2)
      (Attribute.readPath? ts) (Attribute.readPath? ts') := by
  have hread := Phrase.read_written_alike (p := .plainPath) h
  cases h with
  | nil => exact .none
  | sign c joint joint' s s' => exact hread
  | cons l s s' h =>
    simp only [readPath?]
    split
    · exact .some ⟨rfl, h⟩
    · exact hread

theorem Attribute.readValue_alike {t t' : Token} {ts ts' : List Token} {joint joint' : Bool}
    (ht : t.lexeme = .sign '=' joint) (ht' : t'.lexeme = .sign '=' joint') (h : Alike ts ts') :
    Option.Rel (fun x y => x.1.unplaced = y.1.unplaced ∧ Alike x.2 y.2)
      (Attribute.readForm? (t :: ts)) (Attribute.readForm? (t' :: ts')) := by
  rw [readForm?_equals ht, readForm?_equals ht']
  refine option_rel_map (Phrase.read_alike h .attributeValue) fun r r' hh => ⟨?_, hh.rest⟩
  simp only [Form.unplaced, Expression.unplaced, hh.shape, Token.map_unplaced_eq_iff.mpr hh.written]

theorem Attribute.readForm?_alike {ts ts' : List Token} (h : Alike ts ts') :
    Option.Rel (fun x y => x.1.unplaced = y.1.unplaced ∧ Alike x.2 y.2)
      (Attribute.readForm? ts) (Attribute.readForm? ts') := by
  cases h with
  | nil => exact .some ⟨rfl, .nil⟩
  | sign c joint joint' s s' =>
    by_cases hc : c = '='
    · subst hc
      exact readValue_alike rfl rfl .nil
    · rw [readForm?_bare (by simp) (by simp [hc]), readForm?_bare (by simp) (by simp [hc])]
      exact .some ⟨rfl, .sign c joint joint' s s'⟩
  | @cons l s s' ts ts' h =>
    rcases formCases ⟨l, s⟩ with hl | hl | ⟨ho, he⟩
    · rw [readForm?_opening hl, readForm?_opening (t := ⟨l, s'⟩) hl]
      refine option_rel_map (cutGroup_alike h 1) fun x y hxy => ⟨?_, hxy.2⟩
      have hd := congrArg List.dropLast hxy.1
      rw [← List.map_dropLast, ← List.map_dropLast] at hd
      exact congrArg Attribute.Form.list (Token.map_unplaced_eq_iff.mpr hd)
    · exact readValue_alike hl hl h
    · rw [readForm?_bare ho he, readForm?_bare (t := ⟨l, s'⟩) ho he]
      exact .some ⟨rfl, .cons l s s' h⟩

theorem Attribute.read?_alike {ts ts' : List Token} (h : Alike ts ts') :
    Option.Rel (fun x y => x.1.unplaced = y.1.unplaced ∧ Alike x.2 y.2)
      (Attribute.read? ts) (Attribute.read? ts') := by
  rcases h.nil_or_cons with ⟨rfl, rfl⟩ | ⟨hash, ts, hash', ts', rfl, rfl⟩
  · exact .none
  rcases h.tail.nil_or_cons with ⟨rfl, rfl⟩ | ⟨bracket, ts, bracket', ts', rfl, rfl⟩
  · exact .none
  simp only [read?, ← h.isSign '#', ← h.tail.isOpening .bracket]
  split
  · refine option_rel_bind (readPath?_alike h.tail.tail) fun x y hxy => ?_
    refine option_rel_bind (readForm?_alike hxy.2) fun a b hab => ?_
    obtain ⟨form, ts⟩ := a
    obtain ⟨form', ts'⟩ := b
    dsimp only at hab ⊢
    rcases hab.2.nil_or_cons with ⟨rfl, rfl⟩ | ⟨last, ts, last', ts', rfl, rfl⟩
    · exact .none
    simp only [← hab.2.isClosing .bracket]
    split
    · refine .some ⟨?_, hab.2.tail⟩
      simp only [unplaced, hxy.1, hab.1]
    · exact .none
  · exact .none

theorem Attribute.readAll?_alike (n : Nat) {ts ts' : List Token} (h : Alike ts ts') :
    Option.Rel (fun x y => x.1.map Attribute.unplaced = y.1.map Attribute.unplaced ∧ Alike x.2 y.2)
      (Attribute.readAll? n ts) (Attribute.readAll? n ts') := by
  induction n generalizing ts ts' with
  | zero => exact .some ⟨rfl, h⟩
  | succ n ih =>
    have hhead : ts.head?.any (FieldKeys.isSign '#') = ts'.head?.any (FieldKeys.isSign '#') := by
      cases h <;> rfl
    simp only [readAll?, ← hhead]
    split
    · refine option_rel_bind (read?_alike h) fun x y hxy => ?_
      exact option_rel_map (ih hxy.2) fun a b hab => ⟨by simp [hxy.1, hab.1], hab.2⟩
    · exact .some ⟨rfl, h⟩

theorem Attribute.inFront?_alike {ts ts' : List Token} (h : Alike ts ts') :
    Option.Rel (fun x y => x.1.map Attribute.unplaced = y.1.map Attribute.unplaced ∧ Alike x.2 y.2)
      (Attribute.inFront? ts) (Attribute.inFront? ts') := by
  rw [inFront?, inFront?, h.length]
  exact readAll?_alike _ h

theorem Item.ofTokens?_closed {ts : List Token} {i : Item} (h : Item.ofTokens? ts = some i)
    (hb : i.body = .noStructure) : ∃ used last, ts = used ++ [last] ∧ isClosing .brace last = true := by
  obtain ⟨rest, visibility, opening, word, after, left, hp⟩ := ofTokens?_eq_some_iff.mp h
  have hbody := hp.body
  rw [hb] at hbody
  rcases readBody?_eq_some hbody with ⟨-, hs⟩ | ⟨p, ho⟩
  · rcases readStructure?_eq_some hs with hn | hn | ⟨-, left, -, hn⟩
    · simp at hn
    · simp at hn
    · obtain ⟨brace, inside, fields, -, -, -, hn⟩ := readNamed?_eq_some_iff.mp hn
      simp at hn
  · obtain ⟨-, brace, inside, r, last, hc, hr, hrest, hl⟩ := readOther?_eq_some ho
    have hlast : [last] <:+ ts := hrest ▸ (Phrase.read_suffix hr).trans ((List.suffix_cons _ _).trans
      ((readConditions?_suffix hc).trans hp.left_suffix))
    obtain ⟨used, rfl⟩ := hlast
    exact ⟨used, last, rfl, hl⟩

end FieldKeys
