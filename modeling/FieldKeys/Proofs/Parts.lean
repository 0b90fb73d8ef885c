import FieldKeys.Source.Item

/-! What the readers of an item have found where they succeed, each said once: the parts of an attribute,
of a field, of the body of an item, and of the item. -/

namespace FieldKeys

theorem isOpening_iff {d : Delimiter} {t : Token} : isOpening d t = true ↔ t.lexeme = .opening d :=
  beq_iff_eq

theorem isClosing_iff {d : Delimiter} {t : Token} : isClosing d t = true ↔ t.lexeme = .closing d :=
  beq_iff_eq

/-- The group of a list, as it stands. -/
theorem Attribute.readForm?_opening {t : Token} {d : Delimiter} (h : t.lexeme = .opening d)
    (ts : List Token) : Attribute.readForm? (t :: ts) =
      (cutGroup 1 ts).map fun x => (.list x.1.dropLast, x.2) := by
  simp only [readForm?, h]

theorem Attribute.readForm?_equals {t : Token} {joint : Bool} (h : t.lexeme = .sign '=' joint)
    (ts : List Token) : Attribute.readForm? (t :: ts) =
      (Phrase.attributeValue.read ts).map fun r => (.value ⟨r.shape, r.written⟩, r.rest) := by
  simp only [readForm?, h]

theorem Attribute.readForm?_bare {t : Token} (ho : ∀ d, t.lexeme ≠ .opening d)
    (he : ∀ joint, t.lexeme ≠ .sign '=' joint) (ts : List Token) :
    Attribute.readForm? (t :: ts) = some (.bare, t :: ts) := by
  simp only [readForm?]

/-- The ways in which a form is read. -/
inductive Attribute.FormCases (t : Token) : Prop
  | list {d : Delimiter} (h : t.lexeme = .opening d)
  | value {joint : Bool} (h : t.lexeme = .sign '=' joint)
  | bare (ho : ∀ d, t.lexeme ≠ .opening d) (he : ∀ joint, t.lexeme ≠ .sign '=' joint)

theorem Attribute.formCases (t : Token) : FormCases t := by
  cases h : t.lexeme with
  | opening d => exact .list h
  | sign c joint =>
    by_cases hc : c = '='
    · exact .value (hc ▸ h)
    · exact .bare (by simp [h]) (by simp [h, hc])
  | _ => exact .bare (by simp [h]) (by simp [h])

/-- The parts of an attribute in front, of which `inside` begins with the path and `after` with what
comes after the path. -/
structure Attribute.Parts (a : Attribute) (hash bracket : Token) (inside after : List Token)
    (last : Token) (rest : List Token) : Prop where
  marked : isSign '#' hash = true
  opened : isOpening .bracket bracket = true
  path : Attribute.readPath? inside = some (a.path, after)
  form : Attribute.readForm? after = some (a.form, last :: rest)
  closed : isClosing .bracket last = true
  span : a.span = hash.span.join last.span

theorem Attribute.read?_eq_some_iff {ts rest : List Token} {a : Attribute} :
    Attribute.read? ts = some (a, rest) ↔ ∃ hash bracket inside after last,
      ts = hash :: bracket :: inside ∧ a.Parts hash bracket inside after last rest := by
  constructor
  · intro h
    unfold read? at h
    split at h
    · next hash bracket ts =>
      split at h
      · next hh =>
        obtain ⟨⟨path, form⟩, hp, h⟩ := Option.bind_eq_some_iff.mp h
        obtain ⟨⟨f, ts'⟩, hf, h⟩ := Option.bind_eq_some_iff.mp h
        dsimp only at h
        split at h
        · next last left =>
          split at h
          · next hl =>
            obtain ⟨rfl, rfl⟩ := Prod.mk.inj (Option.some.inj h)
            exact ⟨hash, bracket, ts, form, last, rfl, hh.1, hh.2, hp, hf, hl, rfl⟩
          · simp at h
        · simp at h
      · simp at h
    · simp at h
  · rintro ⟨hash, bracket, inside, after, last, rfl, hp⟩
    obtain ⟨path, form, span⟩ := a
    obtain rfl : span = hash.span.join last.span := hp.span
    simp [read?, hp.marked, hp.opened, hp.path, hp.form, hp.closed]

theorem lexeme_of_fieldName {t : Token}
    (h : (Test.anyName.fits t.lexeme || t.lexeme.isWord "_".toList) = true) :
    t.lexeme = .word t.lexeme.text := by
  obtain ⟨l, span⟩ := t
  cases l <;> simp_all [Test.fits, Lexeme.isWord, Lexeme.text]

/-- The parts of a field: what follows its attributes, its visibility, its name, and what follows
that. -/
structure Field.Parts (f : Field) (ts front : List Token) (visibility : Reading) (word : Token)
    (after rest : List Token) : Prop where
  attributes : Attribute.inFront? ts = some (f.attributes, front)
  visible : Phrase.visibility.read front = some visibility
  written : f.visibility = visibility.written
  words : visibility.rest = word :: after
  named : (Test.anyName.fits word.lexeme || word.lexeme.isWord "_".toList) = true
  name : f.name = word.lexeme.text
  type : readFieldType? f.name after = some (f.type, rest)

theorem Field.read?_eq_some_iff {ts rest : List Token} {f : Field} : Field.read? ts = some (f, rest) ↔
    ∃ front visibility word after, f.Parts ts front visibility word after rest := by
  constructor
  · intro h
    obtain ⟨⟨as, front⟩, ha, h⟩ := Option.bind_eq_some_iff.mp h
    obtain ⟨visibility, hv, h⟩ := Option.bind_eq_some_iff.mp h
    split at h
    · next word after hw =>
      split at h
      · next hn =>
        obtain ⟨⟨type, rest'⟩, ht, hp⟩ := Option.map_eq_some_iff.mp h
        obtain ⟨rfl, rfl⟩ := Prod.mk.inj hp
        exact ⟨front, visibility, word, after, ha, hv, rfl, hw, hn, rfl, ht⟩
      · simp at h
    · simp at h
  · rintro ⟨front, visibility, word, after, hp⟩
    obtain ⟨as, written, name, type⟩ := f
    obtain rfl : written = visibility.written := hp.written
    obtain rfl : name = word.lexeme.text := hp.name
    have htype : readFieldType? word.lexeme.text after = some (type, rest) := hp.type
    simp only [read?, hp.attributes, hp.visible, hp.words, hp.named, htype, Option.bind_some, if_true,
      Option.map_some]

theorem endWith?_body {body body' : Body} {ts rest : List Token}
    (h : endWith? body ts = some (body', rest)) : body' = body := by
  cases ts with
  | nil => simp [endWith?] at h
  | cons t ts =>
    simp only [endWith?] at h
    split at h
    · exact (Prod.mk.inj (Option.some.inj h)).1.symm
    · simp at h

theorem readNamed?_eq_some_iff {ts rest : List Token} {body : Body} :
    readNamed? ts = some (body, rest) ↔ ∃ brace inside fields, ts = brace :: inside ∧
      isOpening .brace brace = true ∧ Field.readAll? inside.length inside = some (fields, rest) ∧
      body = .named fields := by
  constructor
  · intro h
    unfold readNamed? at h
    split at h
    · next brace inside =>
      split at h
      · next hb =>
        obtain ⟨⟨fields, left⟩, hf, hp⟩ := Option.map_eq_some_iff.mp h
        obtain ⟨rfl, rfl⟩ := Prod.mk.inj hp
        exact ⟨brace, inside, fields, rfl, hb, hf, rfl⟩
      · simp at h
    · simp at h
  · rintro ⟨brace, inside, fields, rfl, hb, hf, rfl⟩
    simp [readNamed?, hb, hf]

/-- A structure has named fields behind its conditions, or it has none. -/
theorem readStructure?_eq_some {ts conditions rest : List Token} {body : Body}
    (h : readStructure? ts = some (conditions, body, rest)) : body = .tuple ∨ body = .unit ∨
      ts.head?.any (isOpening .paren) = false ∧ ∃ left,
        readConditions? ts = some (conditions, left) ∧ readNamed? left = some (body, rest) := by
  unfold readStructure? at h
  split at h
  · obtain ⟨r, -, h⟩ := Option.bind_eq_some_iff.mp h
    split at h
    · split at h
      · obtain ⟨x, -, h⟩ := Option.bind_eq_some_iff.mp h
        obtain ⟨⟨body', left⟩, he, hp⟩ := Option.map_eq_some_iff.mp h
        obtain ⟨-, hp⟩ := Prod.mk.inj hp
        obtain ⟨rfl, -⟩ := Prod.mk.inj hp
        exact .inl (endWith?_body he)
      · simp at h
    · simp at h
  · next hparen =>
    obtain ⟨⟨conditions', left⟩, hc, h⟩ := Option.bind_eq_some_iff.mp h
    obtain ⟨⟨body', left'⟩, ho, hp⟩ := Option.map_eq_some_iff.mp h
    obtain ⟨hconditions, hp⟩ := Prod.mk.inj hp
    obtain ⟨rfl, rfl⟩ := Prod.mk.inj hp
    rcases Option.or_eq_some_iff.mp ho with hn | ⟨-, he⟩
    · exact .inr (.inr ⟨Bool.eq_false_iff.mpr hparen, left, hconditions ▸ hc, hn⟩)
    · exact .inr (.inl (endWith?_body he))

/-- Behind the conditions of another item stands a group in braces. -/
theorem readOther?_eq_some {p : Phrase} {ts conditions rest : List Token} {body : Body}
    (h : readOther? p ts = some (conditions, body, rest)) : body = .noStructure ∧
      ∃ brace inside r last, readConditions? ts = some (conditions, brace :: inside) ∧
        p.read inside = some r ∧ r.rest = last :: rest ∧ isClosing .brace last = true := by
  obtain ⟨⟨conditions', left⟩, hc, h⟩ := Option.bind_eq_some_iff.mp h
  dsimp only at h
  split at h
  · next brace inside =>
    split at h
    · obtain ⟨r, hr, h⟩ := Option.bind_eq_some_iff.mp h
      split at h
      · next last left hleft =>
        split at h
        · next hlast =>
          obtain ⟨rfl, hp⟩ := Prod.mk.inj (Option.some.inj h)
          obtain ⟨rfl, rfl⟩ := Prod.mk.inj hp
          exact ⟨rfl, brace, inside, r, last, hc, hr, hleft, hlast⟩
        · simp at h
      · simp at h
    · simp at h
  · simp at h

theorem readBody?_eq_some {opening : Token} {ts conditions rest : List Token} {body : Body}
    (h : readBody? opening ts = some (conditions, body, rest)) :
    opening.lexeme.isWord "struct".toList = true ∧
        readStructure? ts = some (conditions, body, rest) ∨
      ∃ p, readOther? p ts = some (conditions, body, rest) := by
  unfold readBody? at h
  split at h
  · next hw => exact .inl ⟨hw, h⟩
  · split at h
    · exact .inr ⟨.variants, h⟩
    · split at h
      · exact .inr ⟨.namedFieldItems, h⟩
      · simp at h

/-- The parts of an item: what follows the attributes, the visibility, the word that opens it, its
name, what follows that, and what is left after the parameters. -/
structure Item.Parts (i : Item) (ts rest : List Token) (visibility : Reading) (opening word : Token)
    (after left : List Token) : Prop where
  attributes : Attribute.inFront? ts = some (i.attributes, rest)
  visible : Phrase.visibility.read rest = some visibility
  written : i.visibility = visibility.written
  words : visibility.rest = opening :: word :: after
  named : Test.anyName.fits word.lexeme = true
  name : i.name = word.lexeme.text
  parameters : Parameter.listInFront? after = some (i.generics.parameters, left)
  body : readBody? opening left = some (i.generics.conditions, i.body, [])
  span : i.span = (Token.spanOf? ts).getD ⟨.origin, .origin⟩

theorem Item.ofTokens?_eq_some_iff {ts : List Token} {i : Item} : Item.ofTokens? ts = some i ↔
    ∃ rest visibility opening word after left, i.Parts ts rest visibility opening word after left := by
  constructor
  · intro h
    obtain ⟨⟨as, rest⟩, ha, h⟩ := Option.bind_eq_some_iff.mp h
    obtain ⟨visibility, hv, h⟩ := Option.bind_eq_some_iff.mp h
    split at h
    · next opening word after hr =>
      split at h
      · next hn =>
        obtain ⟨⟨parameters, left⟩, hp, h⟩ := Option.bind_eq_some_iff.mp h
        dsimp only at h
        split at h
        · next conditions body hb =>
          obtain rfl := Option.some.inj h
          exact ⟨rest, visibility, opening, word, after, left, ha, hv, rfl, hr, hn, rfl, hp, hb, rfl⟩
        · simp at h
      · simp at h
    · simp at h
  · rintro ⟨rest, visibility, opening, word, after, left, hp⟩
    obtain ⟨as, written, name, ⟨parameters, conditions⟩, body, span⟩ := i
    have hwritten : written = visibility.written := hp.written
    have hname : name = word.lexeme.text := hp.name
    have hspan : span = _ := hp.span
    simp [ofTokens?, hp.attributes, hp.visible, hp.words, hp.named, hp.parameters, hp.body, hwritten,
      hname, hspan]

end FieldKeys
