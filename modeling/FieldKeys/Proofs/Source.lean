import FieldKeys.Proofs.CommaList
import FieldKeys.Proofs.Grammar.Reading
import FieldKeys.Proofs.Parts
import FieldKeys.Record

/-! What an item holds was read from its tokens: names of fields are words among them, and the
expressions in attributes are expressions of the grammar. -/

namespace FieldKeys

/-- An expression that has been read from somewhere, perhaps as the value of an attribute. -/
inductive Expression.Written : Expression → Prop
  | expression {e : Expression} {ts rest : List Token}
      (h : Expression.read? ts = some (e, rest)) : Written e
  | value {ts : List Token} {r : Reading} (h : Phrase.attributeValue.read ts = some r) :
      Written ⟨r.shape, r.written⟩

def Attribute.Written (a : Attribute) : Prop :=
  ∀ e, a.form = .value e → e.Written

/-- An attribute that has been read from an end of the tokens `ts`. -/
def Attribute.ReadIn (ts : List Token) (a : Attribute) : Prop :=
  ∃ own rest, own <:+ ts ∧ Attribute.read? own = some (a, rest)

/-- A field that has been read from the tokens `ts`. -/
structure Field.Written (ts : List Token) (f : Field) : Prop where
  name : ∃ t ∈ ts, t.lexeme = .word f.name
  attributes : ∀ a ∈ f.attributes, a.ReadIn ts

theorem Attribute.ReadIn.of_suffix {ts rest : List Token} {a : Attribute} (h : a.ReadIn rest)
    (hs : rest <:+ ts) : a.ReadIn ts := by
  obtain ⟨own, left, ho, hr⟩ := h
  exact ⟨own, left, ho.trans hs, hr⟩

theorem Field.Written.of_suffix {ts rest : List Token} {f : Field} (h : f.Written rest)
    (hs : rest <:+ ts) : f.Written ts := by
  obtain ⟨t, ht, hl⟩ := h.name
  exact ⟨⟨t, hs.subset ht, hl⟩, fun a ha => (h.attributes a ha).of_suffix hs⟩

theorem Expression.inFront?_suffix {whole : Bool} {ts rest : List Token} {e : Expression}
    (h : Expression.inFront? whole ts = some (e, rest)) : rest <:+ ts := by
  obtain ⟨r, hr, he⟩ := Option.map_eq_some_iff.mp h
  obtain ⟨-, rfl⟩ := Prod.mk.inj he
  exact Phrase.inFront_suffix hr

theorem Expression.readList?_written {n : Nat} {ts : List Token} {es : List Expression}
    (h : Expression.readList? n ts = some es) : ∀ e ∈ es, e.Written := by
  induction n generalizing ts es with
  | zero =>
    cases ts with
    | nil =>
      obtain rfl := Option.some.inj h
      simp
    | cons t ts => simp [readList?] at h
  | succ n ih =>
    cases ts with
    | nil =>
      obtain rfl := Option.some.inj h
      simp
    | cons t ts =>
      simp only [readList?] at h
      split at h
      · next e he =>
        obtain rfl := Option.some.inj h
        simpa using .expression he
      · next e comma rest he =>
        split at h
        · obtain ⟨es', hr, rfl⟩ := Option.map_eq_some_iff.mp h
          simpa using ⟨.expression he, ih hr⟩
        · simp at h
      · simp at h

theorem Attribute.readPath?_suffix {ts path rest : List Token}
    (h : Attribute.readPath? ts = some (path, rest)) : rest <:+ ts := by
  cases ts with
  | nil => simp [readPath?] at h
  | cons t ts =>
    simp only [readPath?] at h
    split at h
    · obtain ⟨-, rfl⟩ := Prod.mk.inj (Option.some.inj h)
      exact List.suffix_cons _ _
    · obtain ⟨r, hr, he⟩ := Option.map_eq_some_iff.mp h
      obtain ⟨-, rfl⟩ := Prod.mk.inj he
      exact Phrase.read_suffix hr

theorem Attribute.readForm?_written {ts rest : List Token} {form : Attribute.Form}
    (h : Attribute.readForm? ts = some (form, rest)) :
    rest <:+ ts ∧ ∀ e, form = .value e → e.Written := by
  cases ts with
  | nil =>
    obtain ⟨rfl, rfl⟩ := Prod.mk.inj (Option.some.inj h)
    exact ⟨List.suffix_rfl, by simp⟩
  | cons t ts =>
    rcases formCases t with ht | ht | ⟨ho, he⟩
    · rw [readForm?_opening ht] at h
      obtain ⟨⟨inside, left⟩, hc, hp⟩ := Option.map_eq_some_iff.mp h
      obtain ⟨rfl, rfl⟩ := Prod.mk.inj hp
      rw [cutGroup_append hc]
      exact ⟨(List.suffix_append _ _).trans (List.suffix_cons _ _), by simp⟩
    · rw [readForm?_equals ht] at h
      obtain ⟨r, hr, hp⟩ := Option.map_eq_some_iff.mp h
      obtain ⟨rfl, rfl⟩ := Prod.mk.inj hp
      refine ⟨(Phrase.read_suffix hr).trans (List.suffix_cons _ _), ?_⟩
      rintro e ⟨⟩
      exact .value hr
    · rw [readForm?_bare ho he] at h
      obtain ⟨rfl, rfl⟩ := Prod.mk.inj (Option.some.inj h)
      exact ⟨List.suffix_rfl, by simp⟩

theorem Attribute.read?_written {ts rest : List Token} {a : Attribute}
    (h : Attribute.read? ts = some (a, rest)) : rest <:+ ts ∧ a.Written := by
  obtain ⟨hash, bracket, inside, after, last, rfl, hp⟩ := read?_eq_some_iff.mp h
  obtain ⟨hs, hw⟩ := readForm?_written hp.form
  exact ⟨(List.suffix_cons _ _).trans ((hs.trans (readPath?_suffix hp.path)).trans
    ((List.suffix_cons _ _).trans (List.suffix_cons _ _))), hw⟩

theorem Attribute.ReadIn.written {ts : List Token} {a : Attribute} (h : a.ReadIn ts) : a.Written := by
  obtain ⟨own, rest, -, hr⟩ := h
  exact (read?_written hr).2

theorem Attribute.readAll?_written {n : Nat} {ts rest : List Token} {as : List Attribute}
    (h : Attribute.readAll? n ts = some (as, rest)) : rest <:+ ts ∧ ∀ a ∈ as, a.ReadIn ts := by
  induction n generalizing ts as with
  | zero =>
    obtain ⟨rfl, rfl⟩ := Prod.mk.inj (Option.some.inj h)
    exact ⟨List.suffix_rfl, by simp⟩
  | succ n ih =>
    simp only [readAll?] at h
    split at h
    · obtain ⟨⟨a, r⟩, ha, h⟩ := Option.bind_eq_some_iff.mp h
      obtain ⟨⟨as', r'⟩, hr, he⟩ := Option.map_eq_some_iff.mp h
      obtain ⟨rfl, rfl⟩ := Prod.mk.inj he
      obtain ⟨hs, -⟩ := read?_written ha
      obtain ⟨hs', hw'⟩ := ih hr
      have hw : a.ReadIn ts := ⟨ts, r, List.suffix_rfl, ha⟩
      have hothers := fun b hb => (hw' b hb).of_suffix hs
      exact ⟨hs'.trans hs, by simpa using ⟨hw, hothers⟩⟩
    · obtain ⟨rfl, rfl⟩ := Prod.mk.inj (Option.some.inj h)
      exact ⟨List.suffix_rfl, by simp⟩

theorem readFieldType?_suffix {name : Text} {ts type rest : List Token}
    (h : readFieldType? name ts = some (type, rest)) : rest <:+ ts := by
  cases ts with
  | nil => simp [readFieldType?] at h
  | cons t ts =>
    simp only [readFieldType?] at h
    split at h
    · obtain ⟨r, hr, he⟩ := Option.map_eq_some_iff.mp h
      obtain ⟨-, rfl⟩ := Prod.mk.inj he
      exact (Phrase.readAfter_suffix hr).trans (List.suffix_cons _ _)
    · simp at h

theorem Field.read?_written {ts rest : List Token} {f : Field}
    (h : Field.read? ts = some (f, rest)) : rest <:+ ts ∧ f.Written ts := by
  obtain ⟨front, visibility, word, after, hp⟩ := read?_eq_some_iff.mp h
  obtain ⟨hs, hw⟩ := Attribute.readAll?_written hp.attributes
  have hwords : word :: after <:+ ts := hp.words ▸ (Phrase.read_suffix hp.visible).trans hs
  have hlexeme : word.lexeme = .word f.name := by
    rw [hp.name]
    exact lexeme_of_fieldName hp.named
  exact ⟨(readFieldType?_suffix hp.type).trans ((List.suffix_cons _ _).trans hwords),
    ⟨word, hwords.subset (by simp), hlexeme⟩, hw⟩

theorem Field.readAll?_written {n : Nat} {ts rest : List Token} {fields : List Field}
    (h : Field.readAll? n ts = some (fields, rest)) : ∀ f ∈ fields, f.Written ts := by
  replace h := readAll?_eq_some_iff.mp h
  induction h with
  | none => simp
  | last _ hx => simpa using (read?_written hx).2
  | cons _ hx _ _ _ ih =>
    obtain ⟨hs, hw⟩ := read?_written hx
    have hothers := fun g hg => (ih g hg).of_suffix ((List.suffix_cons _ _).trans hs)
    exact List.forall_mem_cons.mpr ⟨hw, hothers⟩

theorem readAfterColon?_suffix {phrase : Phrase} {ts written rest : List Token}
    (h : readAfterColon? phrase ts = some (written, rest)) : rest <:+ ts := by
  cases ts with
  | nil =>
    obtain ⟨-, rfl⟩ := Prod.mk.inj (Option.some.inj h)
    exact List.suffix_rfl
  | cons t ts =>
    simp only [readAfterColon?] at h
    split at h
    · obtain ⟨r, hr, he⟩ := Option.map_eq_some_iff.mp h
      obtain ⟨-, rfl⟩ := Prod.mk.inj he
      exact (Phrase.read_suffix hr).trans (List.suffix_cons _ _)
    · obtain ⟨-, rfl⟩ := Prod.mk.inj (Option.some.inj h)
      exact List.suffix_rfl

theorem skipDefault?_suffix {phrase : Phrase} {ts rest : List Token}
    (h : skipDefault? phrase ts = some rest) : rest <:+ ts := by
  cases ts with
  | nil =>
    obtain rfl := Option.some.inj h
    exact List.suffix_rfl
  | cons t ts =>
    simp only [skipDefault?] at h
    split at h
    · obtain ⟨r, hr, rfl⟩ := Option.map_eq_some_iff.mp h
      exact (Phrase.read_suffix hr).trans (List.suffix_cons _ _)
    · obtain rfl := Option.some.inj h
      exact List.suffix_rfl

theorem readLifetimeParameter?_suffix {attributes ts rest : List Token} {p : Parameter}
    (h : readLifetimeParameter? attributes ts = some (p, rest)) : rest <:+ ts := by
  cases ts with
  | nil => simp [readLifetimeParameter?] at h
  | cons t ts =>
    obtain ⟨⟨bounds, r⟩, hb, he⟩ := Option.map_eq_some_iff.mp h
    obtain ⟨-, rfl⟩ := Prod.mk.inj he
    exact (readAfterColon?_suffix hb).trans (List.suffix_cons _ _)

theorem readTypeParameter?_suffix {attributes ts rest : List Token} {p : Parameter}
    (h : readTypeParameter? attributes ts = some (p, rest)) : rest <:+ ts := by
  cases ts with
  | nil => simp [readTypeParameter?] at h
  | cons t ts =>
    obtain ⟨⟨bounds, r⟩, hb, h⟩ := Option.bind_eq_some_iff.mp h
    obtain ⟨r', hd, he⟩ := Option.map_eq_some_iff.mp h
    obtain ⟨-, rfl⟩ := Prod.mk.inj he
    exact (skipDefault?_suffix hd).trans ((readAfterColon?_suffix hb).trans (List.suffix_cons _ _))

theorem readConstantParameter?_suffix {attributes ts rest : List Token} {p : Parameter}
    (h : readConstantParameter? attributes ts = some (p, rest)) : rest <:+ ts := by
  unfold readConstantParameter? at h
  split at h
  · split at h
    · obtain ⟨r, hr, h⟩ := Option.bind_eq_some_iff.mp h
      obtain ⟨r', hd, he⟩ := Option.map_eq_some_iff.mp h
      obtain ⟨-, rfl⟩ := Prod.mk.inj he
      exact (skipDefault?_suffix hd).trans ((Phrase.read_suffix hr).trans
        ((List.suffix_cons _ _).trans (List.suffix_cons _ _)))
    · simp at h
  · simp at h

/-- A parameter is read after its attributes. -/
theorem Parameter.read?_after {ts rest : List Token} {p : Parameter}
    (h : Parameter.read? ts = some (p, rest)) :
    ∃ attributes, Phrase.attributes.read ts = some attributes ∧ rest <:+ attributes.rest := by
  obtain ⟨attributes, ha, h⟩ := Option.bind_eq_some_iff.mp h
  refine ⟨attributes, ha, ?_⟩
  split at h
  · next t r hr =>
    rw [hr]
    split at h
    · exact readLifetimeParameter?_suffix h
    · split at h
      · exact readTypeParameter?_suffix h
      · split at h
        · obtain ⟨-, rfl⟩ := Prod.mk.inj (Option.some.inj h)
          exact List.suffix_cons _ _
        · split at h
          · exact (readConstantParameter?_suffix h).trans (List.suffix_cons _ _)
          · simp at h
  · simp at h

theorem Parameter.read?_suffix {ts rest : List Token} {p : Parameter}
    (h : Parameter.read? ts = some (p, rest)) : rest <:+ ts := by
  obtain ⟨attributes, ha, hs⟩ := read?_after h
  exact hs.trans (Phrase.read_suffix ha)

theorem Parameter.readAll?_suffix {n : Nat} {ts rest : List Token} {ps : List Parameter}
    (h : Parameter.readAll? n ts = some (ps, rest)) : rest <:+ ts :=
  (readAll?_eq_some_iff.mp h).suffix fun _ _ _ => read?_suffix

theorem Parameter.listInFront?_suffix {ts rest : List Token} {ps : List Parameter}
    (h : Parameter.listInFront? ts = some (ps, rest)) : rest <:+ ts := by
  cases ts with
  | nil =>
    obtain ⟨-, rfl⟩ := Prod.mk.inj (Option.some.inj h)
    exact List.suffix_rfl
  | cons t ts =>
    simp only [listInFront?] at h
    split at h
    · exact (readAll?_suffix h).trans (List.suffix_cons _ _)
    · obtain ⟨-, rfl⟩ := Prod.mk.inj (Option.some.inj h)
      exact List.suffix_rfl

theorem readConditions?_suffix {ts conditions rest : List Token}
    (h : readConditions? ts = some (conditions, rest)) : rest <:+ ts := by
  cases ts with
  | nil =>
    obtain ⟨-, rfl⟩ := Prod.mk.inj (Option.some.inj h)
    exact List.suffix_rfl
  | cons t ts =>
    simp only [readConditions?] at h
    split at h
    · split at h
      · simp at h
      · obtain ⟨r, hr, he⟩ := Option.map_eq_some_iff.mp h
        obtain ⟨-, rfl⟩ := Prod.mk.inj he
        exact (Phrase.read_suffix hr).trans (List.suffix_cons _ _)
    · obtain ⟨-, rfl⟩ := Prod.mk.inj (Option.some.inj h)
      exact List.suffix_rfl

/-- The fields of a body; a tuple and a unit have none that count. -/
def Body.Written (ts : List Token) (b : Body) : Prop :=
  ∀ fields, b.fields? = some fields → ∀ f ∈ fields, f.Written ts

theorem readNamed?_written {ts rest : List Token} {body : Body}
    (h : readNamed? ts = some (body, rest)) : body.Written ts := by
  obtain ⟨brace, inside, fields, rfl, -, hf, rfl⟩ := readNamed?_eq_some_iff.mp h
  rintro _ ⟨⟩ f hm
  exact (Field.readAll?_written hf f hm).of_suffix (List.suffix_cons _ _)

theorem readBody?_written {opening : Token} {ts conditions rest : List Token} {body : Body}
    (h : readBody? opening ts = some (conditions, body, rest)) : body.Written ts := by
  rcases readBody?_eq_some h with ⟨-, hs⟩ | ⟨p, ho⟩
  · rcases readStructure?_eq_some hs with rfl | rfl | ⟨-, left, hc, hn⟩
    · simp [Body.Written, Body.fields?]
    · simp [Body.Written, Body.fields?]
    · exact fun fields hb f hm =>
        (readNamed?_written hn fields hb f hm).of_suffix (readConditions?_suffix hc)
  · obtain ⟨rfl, -⟩ := readOther?_eq_some ho
    simp [Body.Written, Body.fields?]

/-- An item that has been read from the tokens `ts`. -/
structure Item.Written (ts : List Token) (i : Item) : Prop where
  attributes : ∀ a ∈ i.attributes, a.ReadIn ts
  visibility : ∃ front r, Phrase.visibility.read front = some r ∧ i.visibility = r.written
  body : i.body.Written ts

/-- What is left after the parameters of an item stands at the end of its tokens. -/
theorem Item.Parts.left_suffix {i : Item} {ts rest after left : List Token} {visibility : Reading}
    {opening word : Token} (h : i.Parts ts rest visibility opening word after left) : left <:+ ts := by
  have hs := (Phrase.read_suffix h.visible).trans (Attribute.readAll?_written h.attributes).1
  rw [h.words] at hs
  exact (Parameter.listInFront?_suffix h.parameters).trans
    ((List.suffix_cons _ _).trans ((List.suffix_cons _ _).trans hs))

theorem Item.ofTokens?_written {ts : List Token} {i : Item} (h : Item.ofTokens? ts = some i) :
    i.Written ts := by
  obtain ⟨rest, visibility, opening, word, after, left, hp⟩ := ofTokens?_eq_some_iff.mp h
  obtain ⟨-, hw⟩ := Attribute.readAll?_written hp.attributes
  exact ⟨hw, ⟨_, visibility, hp.visible, hp.written⟩, fun fields hf f hm =>
    (readBody?_written hp.body fields hf f hm).of_suffix hp.left_suffix⟩

end FieldKeys
