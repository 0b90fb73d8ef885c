import FieldKeys.Proofs.OwnTokens

/-! Items are read the same wherever their tokens stand: alike tokens give items that differ in the
places of their tokens only. -/

namespace FieldKeys

/-- Both fail, or the same is read up to what `f` leaves out, and alike tokens are left. -/
def SameRead {α β : Type} (f : α → β) (x y : Option (α × List Token)) : Prop :=
  Option.Rel (fun a b => f a.1 = f b.1 ∧ Alike a.2 b.2) x y

theorem ReadAlike.unplaced {r r' : Reading} (h : ReadAlike r r') :
    r.written.map Token.unplaced = r'.written.map Token.unplaced :=
  Token.map_unplaced_eq_iff.mpr h.written

theorem Alike.unplaced_fits {t t' : Token} {ts ts' : List Token} {test : Test}
    (h : Alike (t :: ts) (t' :: ts')) (hf : test.fits t.lexeme = true) :
    t.unplaced = t'.unplaced := by
  cases h with
  | sign => cases test <;> simp [Test.fits] at hf
  | cons => rfl

theorem Alike.unplaced_word {t t' : Token} {ts ts' : List Token} {w : Text}
    (h : Alike (t :: ts) (t' :: ts')) (hw : t.lexeme.isWord w = true) : t.unplaced = t'.unplaced := by
  have hf : (Test.word w).fits t.lexeme = true := Test.fits_word_iff.mpr (Lexeme.isWord_iff.mp hw)
  exact h.unplaced_fits hf

theorem readAfterColon?_alike {p : Phrase} {ts ts' : List Token} (h : Alike ts ts') :
    SameRead (List.map Token.unplaced) (readAfterColon? p ts) (readAfterColon? p ts') := by
  rcases h.nil_or_cons with ⟨rfl, rfl⟩ | ⟨t, ts, t', ts', rfl, rfl⟩
  · exact .some ⟨rfl, h⟩
  · simp only [readAfterColon?, ← h.isSign ':']
    split
    · exact Phrase.read_written_alike h.tail
    · exact .some ⟨rfl, h⟩

theorem skipDefault?_alike {p : Phrase} {ts ts' : List Token} (h : Alike ts ts') :
    Option.Rel Alike (skipDefault? p ts) (skipDefault? p ts') := by
  rcases h.nil_or_cons with ⟨rfl, rfl⟩ | ⟨t, ts, t', ts', rfl, rfl⟩
  · exact .some h
  · simp only [skipDefault?, ← h.isSign '=']
    split
    · exact option_rel_map (Phrase.read_alike h.tail p) fun _ _ hh => hh.rest
    · exact .some h

section

variable {as as' ts ts' : List Token} (ha : as.map Token.unplaced = as'.map Token.unplaced)

include ha

theorem readLifetimeParameter?_alike {t t' : Token} (h : Alike (t :: ts) (t' :: ts'))
    (ht : Test.lifetime.fits t.lexeme = true) : SameRead Parameter.unplaced
      (readLifetimeParameter? as (t :: ts)) (readLifetimeParameter? as' (t' :: ts')) :=
  option_rel_map (readAfterColon?_alike h.tail) fun _ _ hxy =>
    ⟨by simp only [Parameter.unplaced, ha, h.unplaced_fits ht, hxy.1], hxy.2⟩

theorem readTypeParameter?_alike {t t' : Token} (h : Alike (t :: ts) (t' :: ts'))
    (ht : Test.anyName.fits t.lexeme = true) : SameRead Parameter.unplaced
      (readTypeParameter? as (t :: ts)) (readTypeParameter? as' (t' :: ts')) := by
  refine option_rel_bind (readAfterColon?_alike h.tail) fun x y hxy => ?_
  exact option_rel_map (skipDefault?_alike hxy.2) fun _ _ hh =>
    ⟨by simp only [Parameter.unplaced, ha, h.unplaced_fits ht, hxy.1], hh⟩

theorem readConstantParameter?_alike (h : Alike ts ts') : SameRead Parameter.unplaced
    (readConstantParameter? as ts) (readConstantParameter? as' ts') := by
  rcases h.nil_or_cons with ⟨rfl, rfl⟩ | ⟨name, ts, name', ts', rfl, rfl⟩
  · exact .none
  rcases h.tail.nil_or_cons with ⟨rfl, rfl⟩ | ⟨colon, ts, colon', ts', rfl, rfl⟩
  · exact .none
  simp only [readConstantParameter?, ← h.fits .anyName, ← h.tail.isSign ':']
  split
  · next hn =>
    refine option_rel_bind (Phrase.read_alike h.tail.tail (.type true)) fun x y hxy => ?_
    exact option_rel_map (skipDefault?_alike hxy.rest) fun _ _ hh =>
      ⟨by simp only [Parameter.unplaced, ha, h.unplaced_fits hn.1, hxy.unplaced], hh⟩
  · exact .none

end

theorem Parameter.read?_alike {ts ts' : List Token} (h : Alike ts ts') :
    SameRead Parameter.unplaced (Parameter.read? ts) (Parameter.read? ts') := by
  refine option_rel_bind (Phrase.read_alike h .attributes) fun r r' hr => ?_
  have ha := hr.unplaced
  have hrest := hr.rest
  generalize r.rest = left at hrest
  generalize r'.rest = left' at hrest
  rcases hrest.nil_or_cons with ⟨rfl, rfl⟩ | ⟨t, left, t', left', rfl, rfl⟩
  · exact .none
  · simp only [← hrest.fits .lifetime, ← hrest.fits .anyName, ← hrest.isWord]
    split
    · next ht => exact readLifetimeParameter?_alike ha hrest ht
    split
    · next ht => exact readTypeParameter?_alike ha hrest ht
    split
    · next ht =>
      exact .some ⟨by simp only [Parameter.unplaced, ha, hrest.unplaced_word ht], hrest.tail⟩
    split
    · exact readConstantParameter?_alike ha hrest.tail
    · exact .none

/-- The members of a list are the same if what reads one of them, what closes the list and the mark of
a comma do not see what `f` leaves out. -/
theorem readCommaList?_alike {α β : Type} {f : α → β} {closes : Token → Bool}
    {read? : List Token → Option (α × List Token)} {marked : α → α}
    (hc : ∀ {t t' : Token} {ts ts' : List Token}, Alike (t :: ts) (t' :: ts') → closes t = closes t')
    (hr : ∀ {ts ts' : List Token}, Alike ts ts' → SameRead f (read? ts) (read? ts'))
    (hm : ∀ {x y : α}, f x = f y → f (marked x) = f (marked y)) (n : Nat) {ts ts' : List Token}
    (h : Alike ts ts') : SameRead (List.map f) (readCommaList? closes read? marked n ts)
      (readCommaList? closes read? marked n ts') := by
  induction n generalizing ts ts' with
  | zero => cases h <;> exact .none
  | succ n ih =>
    rcases h.nil_or_cons with ⟨rfl, rfl⟩ | ⟨t, ts, t', ts', rfl, rfl⟩
    · exact .none
    · simp only [readCommaList?, ← hc h]
      split
      · exact .some ⟨rfl, h.tail⟩
      refine option_rel_bind (hr h) fun x y hxy => ?_
      obtain ⟨x, left⟩ := x
      obtain ⟨y, left'⟩ := y
      obtain ⟨hf, hleft⟩ : f x = f y ∧ Alike left left' := hxy
      rcases hleft.nil_or_cons with ⟨rfl, rfl⟩ | ⟨u, left, u', left', rfl, rfl⟩
      · exact .none
      · simp only [← hc hleft, ← hleft.isSign ',']
        split
        · exact .some ⟨by simp [hf], hleft.tail⟩
        split
        · exact option_rel_map (ih hleft.tail) fun _ _ hh => ⟨by simp [hm hf, hh.1], hh.2⟩
        · exact .none

theorem Parameter.readAll?_alike (n : Nat) {ts ts' : List Token} (h : Alike ts ts') :
    SameRead (List.map Parameter.unplaced) (Parameter.readAll? n ts) (Parameter.readAll? n ts') := by
  rw [readAll?_eq, readAll?_eq]
  exact readCommaList?_alike (fun hh => hh.isSign '>') read?_alike (congrArg withComma) n h

theorem Parameter.listInFront?_alike {ts ts' : List Token} (h : Alike ts ts') :
    SameRead (List.map Parameter.unplaced) (Parameter.listInFront? ts)
      (Parameter.listInFront? ts') := by
  rcases h.nil_or_cons with ⟨rfl, rfl⟩ | ⟨t, ts, t', ts', rfl, rfl⟩
  · exact .some ⟨rfl, h⟩
  · simp only [listInFront?, ← h.isSign '<', h.length]
    split
    · exact readAll?_alike _ h.tail
    · exact .some ⟨rfl, h⟩

theorem readConditions?_alike {ts ts' : List Token} (h : Alike ts ts') :
    SameRead (List.map Token.unplaced) (readConditions? ts) (readConditions? ts') := by
  rcases h.nil_or_cons with ⟨rfl, rfl⟩ | ⟨t, ts, t', ts', rfl, rfl⟩
  · exact .some ⟨rfl, h⟩
  · simp only [readConditions?, ← h.isWord, ← Look.holds_alike h.tail]
    split
    · next hw =>
      split
      · exact .none
      · refine option_rel_map (Phrase.read_alike h.tail .whereItems) fun r r' hr => ⟨?_, hr.rest⟩
        have hnil : r.written.isEmpty = r'.written.isEmpty := by
          simpa using congrArg List.isEmpty hr.unplaced
        dsimp only
        rw [hnil]
        split
        · rfl
        · rw [List.map_cons, List.map_cons, hr.unplaced, h.unplaced_word hw]
    · exact .some ⟨rfl, h⟩

theorem readFieldType?_alike (name : Text) {ts ts' : List Token} (h : Alike ts ts') :
    SameRead (List.map Token.unplaced) (readFieldType? name ts) (readFieldType? name ts') := by
  rcases h.nil_or_cons with ⟨rfl, rfl⟩ | ⟨t, ts, t', ts', rfl, rfl⟩
  · exact .none
  · simp only [readFieldType?, ← h.isSign ':']
    split
    · exact option_rel_map (Phrase.inFront_alike .fieldType h.tail _) fun _ _ hr =>
        ⟨hr.unplaced, hr.rest⟩
    · exact .none

theorem Field.read?_alike {ts ts' : List Token} (h : Alike ts ts') :
    SameRead Field.unplaced (Field.read? ts) (Field.read? ts') := by
  refine option_rel_bind (Attribute.inFront?_alike h) fun x y hxy => ?_
  refine option_rel_bind (Phrase.read_alike hxy.2 .visibility) fun r r' hr => ?_
  have hv := hr.unplaced
  have hrest := hr.rest
  generalize r.rest = left at hrest
  generalize r'.rest = left' at hrest
  rcases hrest.nil_or_cons with ⟨rfl, rfl⟩ | ⟨t, left, t', left', rfl, rfl⟩
  · exact .none
  · simp only [← hrest.fits .anyName, ← hrest.isWord]
    split
    · next hn =>
      have ht : t.lexeme = t'.lexeme := by
        rcases Bool.or_eq_true_iff.mp hn with hn | hn
        · exact Token.unplaced_eq_iff.mp (hrest.unplaced_fits hn)
        · exact Token.unplaced_eq_iff.mp (hrest.unplaced_word hn)
      rw [← ht]
      exact option_rel_map (readFieldType?_alike _ hrest.tail) fun _ _ hh =>
        ⟨by simp only [unplaced, hxy.1, hv, hh.1], hh.2⟩
    · exact .none

theorem Field.readAll?_alike (n : Nat) {ts ts' : List Token} (h : Alike ts ts') :
    SameRead (List.map Field.unplaced) (Field.readAll? n ts) (Field.readAll? n ts') := by
  rw [readAll?_eq, readAll?_eq]
  exact readCommaList?_alike (fun hh => hh.isClosing .brace) read?_alike id n h

theorem readNamed?_alike {ts ts' : List Token} (h : Alike ts ts') :
    SameRead Body.unplaced (readNamed? ts) (readNamed? ts') := by
  rcases h.nil_or_cons with ⟨rfl, rfl⟩ | ⟨t, ts, t', ts', rfl, rfl⟩
  · exact .none
  · simp only [readNamed?, ← h.isOpening, h.tail.length]
    split
    · exact option_rel_map (Field.readAll?_alike _ h.tail) fun _ _ hh =>
        ⟨by simp only [Body.unplaced, hh.1], hh.2⟩
    · exact .none

theorem endWith?_alike (body : Body) {ts ts' : List Token} (h : Alike ts ts') :
    SameRead Body.unplaced (endWith? body ts) (endWith? body ts') := by
  rcases h.nil_or_cons with ⟨rfl, rfl⟩ | ⟨t, ts, t', ts', rfl, rfl⟩
  · exact .none
  · simp only [endWith?, ← h.isSign ';']
    split
    · exact .some ⟨rfl, h.tail⟩
    · exact .none

/-- The conditions and the body of an item as they are up to their places. -/
def unplacedBody (x : List Token × Body) : List Token × Body :=
  (x.1.map Token.unplaced, x.2.unplaced)

/-- The same body is read, and alike tokens are left. -/
abbrev SameBody (x y : Option (List Token × Body × List Token)) : Prop :=
  Option.Rel (fun a b => unplacedBody (a.1, a.2.1) = unplacedBody (b.1, b.2.1) ∧ Alike a.2.2 b.2.2)
    x y

theorem SameRead.withConditions {conditions conditions' : List Token}
    {x y : Option (Body × List Token)} (hc : conditions.map Token.unplaced =
      conditions'.map Token.unplaced) (h : SameRead Body.unplaced x y) :
    SameBody (x.map (conditions, ·)) (y.map (conditions', ·)) :=
  option_rel_map h fun _ _ hh => ⟨by simp only [unplacedBody, hc, hh.1], hh.2⟩

theorem readStructure?_alike {ts ts' : List Token} (h : Alike ts ts') :
    SameBody (readStructure? ts) (readStructure? ts') := by
  have hhead : ts.head?.any (isOpening .paren) = ts'.head?.any (isOpening .paren) := by
    cases h <;> rfl
  simp only [readStructure?, ← hhead]
  split
  · refine option_rel_bind (Phrase.read_alike (h.drop 1) .tupleFields) fun r r' hr => ?_
    have hrest := hr.rest
    generalize r.rest = left at hrest
    generalize r'.rest = left' at hrest
    rcases hrest.nil_or_cons with ⟨rfl, rfl⟩ | ⟨t, left, t', left', rfl, rfl⟩
    · exact .none
    · simp only [← hrest.isClosing]
      split
      · refine option_rel_bind (readConditions?_alike hrest.tail) fun x y hxy => ?_
        exact (endWith?_alike .tuple hxy.2).withConditions hxy.1
      · exact .none
  · refine option_rel_bind (readConditions?_alike h) fun x y hxy => ?_
    refine SameRead.withConditions hxy.1 ?_
    rcases option_rel_iff.mp (readNamed?_alike hxy.2) with ⟨hx, hy⟩ | ⟨a, b, hx, hy, hab⟩
    · simpa only [hx, hy, Option.none_or] using endWith?_alike .unit hxy.2
    · simpa only [hx, hy, Option.some_or] using .some hab

theorem readOther?_alike {p : Phrase} {ts ts' : List Token} (h : Alike ts ts') :
    SameBody (readOther? p ts) (readOther? p ts') := by
  refine option_rel_bind (readConditions?_alike h) fun x y hxy => ?_
  obtain ⟨conditions, left⟩ := x
  obtain ⟨conditions', left'⟩ := y
  obtain ⟨hc, hxy⟩ : conditions.map Token.unplaced = conditions'.map Token.unplaced ∧
    Alike left left' := hxy
  rcases hxy.nil_or_cons with ⟨rfl, rfl⟩ | ⟨t, left, t', left', rfl, rfl⟩
  · exact .none
  · simp only [← hxy.isOpening]
    split
    · refine option_rel_bind (Phrase.read_alike hxy.tail p) fun r r' hr => ?_
      have hrest := hr.rest
      generalize r.rest = inside at hrest
      generalize r'.rest = inside' at hrest
      rcases hrest.nil_or_cons with ⟨rfl, rfl⟩ | ⟨u, inside, u', inside', rfl, rfl⟩
      · exact .none
      · simp only [← hrest.isClosing]
        split
        · exact .some ⟨by simp only [unplacedBody, hc], hrest.tail⟩
        · exact .none
    · exact .none

theorem readBody?_alike {opening opening' : Token} {ts ts' : List Token}
    (h : Alike (opening :: ts) (opening' :: ts')) {us us' : List Token} (hu : Alike us us') :
    SameBody (readBody? opening us) (readBody? opening' us') := by
  simp only [readBody?, ← h.isWord]
  split
  · exact readStructure?_alike hu
  split
  · exact readOther?_alike hu
  split
  · exact readOther?_alike hu
  · exact .none

/-- Where the tokens of an item stand decides about the places in what is read, and about nothing
else. -/
theorem Item.ofTokens?_alike {ts ts' : List Token} (h : Alike ts ts') :
    Option.Rel (fun i j => i.unplaced = j.unplaced) (Item.ofTokens? ts) (Item.ofTokens? ts') := by
  refine option_rel_bind (Attribute.inFront?_alike h) fun x y hxy => ?_
  refine option_rel_bind (Phrase.read_alike hxy.2 .visibility) fun r r' hr => ?_
  have hv := hr.unplaced
  have hrest := hr.rest
  generalize r.rest = left at hrest
  generalize r'.rest = left' at hrest
  rcases hrest.nil_or_cons with ⟨rfl, rfl⟩ | ⟨opening, left, opening', us, rfl, rfl⟩
  · exact .none
  rcases hrest.tail.nil_or_cons with ⟨rfl, rfl⟩ | ⟨name, after, name', after', rfl, rfl⟩
  · exact .none
  simp only [← hrest.tail.fits .anyName]
  split
  · next hn =>
    have hname : name.lexeme = name'.lexeme := Token.unplaced_eq_iff.mp (hrest.tail.unplaced_fits hn)
    refine option_rel_bind (Parameter.listInFront?_alike hrest.tail.tail) fun p q hpq => ?_
    rcases option_rel_iff.mp (readBody?_alike hrest hpq.2) with ⟨ha, hb⟩ |
      ⟨⟨conditions, body, rest⟩, ⟨conditions', body', rest'⟩, ha, hb, hsame, hend⟩
    · rw [ha, hb]
      exact .none
    · obtain ⟨hc, hbody⟩ := Prod.mk.inj hsame
      simp only [ha, hb]
      rcases hend.nil_or_cons with ⟨rfl, rfl⟩ | ⟨t, rest, t', rest', rfl, rfl⟩
      · refine .some ?_
        simp only [unplaced, Generics.unplaced, hxy.1, hv, hname, hpq.1, hc, hbody]
      · exact .none
  · exact .none

end FieldKeys
