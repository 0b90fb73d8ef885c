import FieldKeys.Proofs.NamesBehind
import FieldKeys.Proofs.Word

/-! Names written with a raw mark or without it. Where names of fields, or the name of the item, are
respelled in the tokens of an item, the same item is read with these names respelled. -/

namespace FieldKeys

/-- A name as it stands or written the other way: with a raw mark if it may have one, or without its
mark if it is no keyword then. -/
inductive Respelled : Text → Text → Prop
  | same (name : Text) : Respelled name name
  | marked {name : Text} (hn : IsName name) (hm : unmarkable.contains name = false) :
      Respelled name (rawMark ++ name)
  | unmarked {name : Text} (hn : IsName name) (hk : keywords.contains name = false) :
      Respelled (rawMark ++ name) name

theorem Respelled.unescape {w w' : Text} (h : Respelled w w') :
    FieldKeys.unescape w' = FieldKeys.unescape w := by
  cases h with
  | same => rfl
  | marked hn => rw [unescape_raw hn.1, unescape_name hn]
  | unmarked hn => rw [unescape_raw hn.1, unescape_name hn]

/-- No keyword has a raw mark. -/
theorem not_keyword_raw (name : Text) : keywords.contains (rawMark ++ name) = false := by
  have hk : ∀ k ∈ keywords, Text.after? rawMark k = none := by decide
  by_contra hc
  have hm : rawMark ++ name ∈ keywords := by simpa using hc
  have hn := hk _ hm
  rw [Text.after?_eq_some_iff.mpr rfl] at hn
  simp at hn

theorem Respelled.named {w w' : Text} (h : Respelled w w')
    (hw : Test.anyName.fits (.word w) = true) : Test.anyName.fits (.word w') = true := by
  cases h with
  | same => exact hw
  | marked => simp only [Test.fits, not_keyword_raw, Bool.not_false]
  | unmarked _ hk => simp only [Test.fits, hk, Bool.not_false]

theorem Respelled.underscore {w w' : Text} (h : Respelled w w') :
    w = "_".toList ↔ w' = "_".toList := by
  have hraw : ∀ name : Text, rawMark ++ name ≠ "_".toList := by simp [rawMark]
  cases h with
  | same => rfl
  | marked _ hm =>
    refine iff_of_false ?_ (hraw w)
    rintro rfl
    revert hm
    decide
  | unmarked _ hk =>
    refine iff_of_false (hraw w') ?_
    rintro rfl
    revert hk
    decide

/-- A word that is the name of a field, which may be an underscore alone, stays one. -/
theorem Respelled.fieldName {w w' : Text} (h : Respelled w w')
    (hw : (Test.anyName.fits (.word w) || (Lexeme.word w).isWord "_".toList) = true) :
    (Test.anyName.fits (.word w') || (Lexeme.word w').isWord "_".toList) = true ∧
      ∀ s : Span, Token.Renamed ⟨.word w, s⟩ ⟨.word w', s⟩ := by
  rcases Bool.or_eq_true_iff.mp hw with hn | hn
  · exact ⟨by simp only [h.named hn, Bool.true_or], fun s => .name hn (h.named hn)⟩
  · obtain rfl := Lexeme.word.inj (Lexeme.isWord_iff.mp hn)
    obtain rfl := h.underscore.mp rfl
    exact ⟨hw, fun s => .same _⟩

/-- Tokens that stay the same, places included, but for some words: in their order these are the first
names in the one and the second names in the other. -/
inductive Respelling : List Text → List Text → List Token → List Token → Prop
  | nil : Respelling [] [] [] []
  | keep (t : Token) {ws ws' : List Text} {ts ts' : List Token} (h : Respelling ws ws' ts ts') :
      Respelling ws ws' (t :: ts) (t :: ts')
  | word (w w' : Text) (s : Span) {ws ws' : List Text} {ts ts' : List Token}
      (h : Respelling ws ws' ts ts') :
      Respelling (w :: ws) (w' :: ws') (⟨.word w, s⟩ :: ts) (⟨.word w', s⟩ :: ts')

theorem Respelling.refl (ts : List Token) : Respelling [] [] ts ts := by
  induction ts with
  | nil => exact .nil
  | cons t ts ih => exact .keep t ih

theorem Respelling.append {ws ws' vs vs' : List Text} {ts ts' us us' : List Token}
    (h : Respelling ws ws' ts ts') (h' : Respelling vs vs' us us') :
    Respelling (ws ++ vs) (ws' ++ vs') (ts ++ us) (ts' ++ us') := by
  induction h with
  | nil => exact h'
  | keep t _ ih => exact .keep t ih
  | word w w' s _ ih => exact .word w w' s ih

theorem Respelling.spans {ws ws' : List Text} {ts ts' : List Token} (h : Respelling ws ws' ts ts') :
    ts.map Token.span = ts'.map Token.span := by
  induction h with
  | nil => rfl
  | keep _ _ ih | word _ _ _ _ ih => simp [ih]

theorem Respelling.spanOf? {ws ws' : List Text} {ts ts' : List Token} (h : Respelling ws ws' ts ts') :
    Token.spanOf? ts = Token.spanOf? ts' := by
  have hs := h.spans
  cases ts with
  | nil =>
    obtain rfl := List.map_eq_nil_iff.mp hs.symm
    rfl
  | cons t ts =>
    cases ts' with
    | nil => simp at hs
    | cons t' ts' =>
      have hlast := congrArg List.getLast? hs
      rw [List.getLast?_map, List.getLast?_map, List.getLast?_eq_some_getLast (List.cons_ne_nil t ts),
        List.getLast?_eq_some_getLast (List.cons_ne_nil t' ts')] at hlast
      have hfirst : t.span = t'.span := (List.cons.inj hs).1
      simp only [Token.spanOf?, hfirst, Option.some.inj hlast]

/-- A field with its name respelled. -/
structure Field.Respelled (f g : Field) : Prop where
  name : FieldKeys.Respelled f.name g.name
  attributes : g.attributes = f.attributes
  visibility : g.visibility = f.visibility
  type : g.type = f.type

def Body.withFields (fields : List Field) : Body → Body
  | .named _ => .named fields
  | body => body

/-- The item with another name, and with other fields where it has named ones. -/
def Item.respelled (i : Item) (name : Text) (fields : List Field) : Item :=
  { i with name := name, body := i.body.withFields fields }

theorem readFieldType?_length {name : Text} {ts type rest : List Token}
    (h : readFieldType? name ts = some (type, rest)) : rest.length < ts.length := by
  cases ts with
  | nil => simp [readFieldType?] at h
  | cons t ts =>
    simp only [readFieldType?] at h
    split at h
    · obtain ⟨r, hr, hp⟩ := Option.map_eq_some_iff.mp h
      obtain ⟨-, rfl⟩ := Prod.mk.inj hp
      exact Nat.lt_succ_of_le (Phrase.readAfter_suffix hr).length_le
    · simp at h

/-- Of the name of a field its type depends on whether it is an underscore alone. -/
theorem readFieldType?_respelled {name name' : Text} {ts type rest rest' : List Token}
    (hn : Respelled name name') (he : Ends rest) (he' : Ends rest')
    (h : readFieldType? name (ts ++ rest) = some (type, rest)) :
    readFieldType? name' (ts ++ rest') = some (type, rest') := by
  cases ts with
  | nil => exact absurd (readFieldType?_length h) (Nat.lt_irrefl _)
  | cons t ts =>
    simp only [List.cons_append, readFieldType?, ← hn.underscore] at h ⊢
    split at h
    · next hc =>
      rw [if_pos hc]
      obtain ⟨r, hr, hp⟩ := Option.map_eq_some_iff.mp h
      obtain ⟨rfl, hrest⟩ := Prod.mk.inj hp
      rw [← List.nil_append rest] at hrest
      have hread : Phrase.fieldType.readAfter _ (ts ++ rest') = some _ :=
        Phrase.inFront_tail rfl hr hrest he he'
      rw [hread]
      rfl
    · simp at h

/-- A field is read with its name respelled where just this word is, whatever names follow in other
fields. -/
theorem Field.read?_respelled {ts rest rest' : List Token} {f g : Field}
    (h : Field.read? ts = some (f, rest)) (hg : f.Respelled g) (he : Ends rest) (he' : Ends rest')
    (hr : Renamed rest rest') :
    ∃ used used', ts = used ++ rest ∧ Respelling [f.name] [g.name] used used' ∧ Renamed used used' ∧
      Field.read? (used' ++ rest') = some (g, rest') := by
  obtain ⟨front, visibility, word, after, hp⟩ := read?_eq_some_iff.mp h
  obtain ⟨type, rfl⟩ := readFieldType?_suffix hp.type
  obtain ⟨visible, rfl⟩ := Phrase.read_suffix hp.visible
  obtain ⟨attributes, rfl⟩ := (Attribute.readAll?_written hp.attributes).1
  obtain ⟨l, s⟩ := word
  obtain rfl : l = .word f.name := by
    rw [hp.name]
    exact lexeme_of_fieldName hp.named
  obtain ⟨hnamed, hword⟩ := hg.name.fieldName hp.named
  have ht : Renamed (⟨.word f.name, s⟩ :: (type ++ rest)) (⟨.word g.name, s⟩ :: (type ++ rest')) :=
    .cons (hword s) (hr.append_left type)
  have hattributes := hp.attributes
  have hvisible := hp.visible
  rw [hp.words] at hattributes hvisible
  rw [hp.words]
  rw [← List.append_assoc] at hattributes
  have hwords : visibility.rest = [] ++ ⟨.word f.name, s⟩ :: (type ++ rest) := hp.words
  refine ⟨attributes ++ visible ++ ⟨.word f.name, s⟩ :: type,
    attributes ++ visible ++ ⟨.word g.name, s⟩ :: type, by simp, ?_, ?_, ?_⟩
  · exact (Respelling.refl _).append (.word _ _ s (.refl type))
  · exact Renamed.append_left (.cons (hword s) (Renamed.refl type)) _
  · refine read?_eq_some_iff.mpr ⟨visible ++ ⟨.word g.name, s⟩ :: (type ++ rest'), _, ⟨.word g.name, s⟩,
      type ++ rest', ?_, Phrase.read_names ht rfl hvisible hwords, ?_, rfl, hnamed, rfl, ?_⟩
    · rw [hg.attributes]
      simpa using Attribute.inFront?_names ht hattributes
    · exact hg.visibility.trans hp.written
    · rw [hg.type]
      exact readFieldType?_respelled hg.name he he' hp.type

/-- Named fields are read with their names respelled where just these words are. -/
theorem Field.readAll?_respelled {n : Nat} {ts rest : List Token} {fields fields' : List Field}
    (h : Field.readAll? n ts = some (fields, rest))
    (hf : List.Forall₂ Field.Respelled fields fields') :
    ∃ used used', ts = used ++ rest ∧
      Respelling (fields.map Field.name) (fields'.map Field.name) used used' ∧ Renamed used used' ∧
      Field.readAll? n (used' ++ rest) = some (fields', rest) := by
  simp only [readAll?_eq_some_iff] at h ⊢
  induction h generalizing fields' with
  | @none n t rest hc =>
    cases hf
    exact ⟨[t], [t], rfl, .keep t .nil, Renamed.refl [t], .none hc⟩
  | @last n t u ts rest f ho hread hc =>
    obtain ⟨g, _, hg, hnil, rfl⟩ := List.forall₂_cons_left_iff.mp hf
    cases hnil
    have hends : Ends (u :: rest) := .closing (isClosing_iff.mp hc)
    have hrest := Renamed.refl (u :: rest)
    obtain ⟨used, used', hts, hs, hr, hread'⟩ := read?_respelled hread hg hends hends hrest
    have hrenamed : Renamed (t :: ts) (used' ++ u :: rest) := hts ▸ hr.append hrest
    obtain ⟨t', ts', ht', ho'⟩ := hrenamed.exists_cons ho
    refine ⟨used ++ [u], used' ++ [u], by simpa using hts, by simpa using hs.append (.refl [u]),
      hr.append (Renamed.refl [u]), ?_⟩
    rw [List.append_assoc, List.singleton_append, ht']
    exact .last ho' (ht' ▸ hread') hc
  | @cons n t u ts left rest f others ho hread hn hu h ih =>
    obtain ⟨g, others', hg, hothers, rfl⟩ := List.forall₂_cons_left_iff.mp hf
    obtain ⟨more, more', rfl, hsm, hrm, h'⟩ := ih hothers
    have hrest : Renamed (u :: (more ++ rest)) (u :: (more' ++ rest)) :=
      .cons (.same u) (hrm.append (Renamed.refl rest))
    obtain ⟨used, used', hts, hs, hr, hread'⟩ := read?_respelled hread hg (.comma hu) (.comma hu) hrest
    have hrenamed : Renamed (t :: ts) (used' ++ u :: (more' ++ rest)) := hts ▸ hr.append hrest
    obtain ⟨t', ts', ht', ho'⟩ := hrenamed.exists_cons ho
    refine ⟨used ++ u :: more, used' ++ u :: more', by simpa using hts, hs.append (.keep u hsm),
      hr.append (.cons (.same u) hrm), ?_⟩
    rw [List.append_assoc, List.cons_append, ht']
    exact .cons ho' (ht' ▸ hread') hn hu h'

/-- The ways in which a structure with named fields is read. -/
theorem readStructure?_eq_named_iff {ts conditions rest : List Token} {fields : List Field} :
    readStructure? ts = some (conditions, .named fields, rest) ↔
      ts.head?.any (isOpening .paren) = false ∧
      ∃ brace inside, readConditions? ts = some (conditions, brace :: inside) ∧
        isOpening .brace brace = true ∧
        Field.readAll? inside.length inside = some (fields, rest) := by
  constructor
  · intro h
    rcases readStructure?_eq_some h with hb | hb | ⟨hparen, left, hc, hn⟩
    · simp at hb
    · simp at hb
    · obtain ⟨brace, inside, fields', rfl, hbrace, hf, hb⟩ := readNamed?_eq_some_iff.mp hn
      obtain rfl := Body.named.inj hb
      exact ⟨hparen, brace, inside, hc, hbrace, hf⟩
  · rintro ⟨hparen, brace, inside, hc, hb, hf⟩
    have hn := readNamed?_eq_some_iff.mpr ⟨brace, inside, fields, rfl, hb, hf, rfl⟩
    rw [readStructure?, if_neg (by simp [hparen]), hc, Option.bind_some]
    simp [hn]

theorem readBody?_eq_named_iff {opening : Token} {ts conditions rest : List Token}
    {fields : List Field} : readBody? opening ts = some (conditions, .named fields, rest) ↔
      opening.lexeme.isWord "struct".toList = true ∧
        readStructure? ts = some (conditions, .named fields, rest) := by
  constructor
  · intro h
    rcases readBody?_eq_some h with hs | ⟨p, ho⟩
    · exact hs
    · have hb := (readOther?_eq_some ho).1
      simp at hb
  · rintro ⟨hw, hs⟩
    rw [readBody?, if_pos hw, hs]

/-- The body of a structure is read with the names of its fields respelled where just these words are. -/
theorem readBody?_respelled {opening : Token} {ts conditions : List Token} {fields fields' : List Field}
    (h : readBody? opening ts = some (conditions, .named fields, []))
    (hf : List.Forall₂ Field.Respelled fields fields') :
    ∃ front used used', ts = front ++ used ∧
      Respelling (fields.map Field.name) (fields'.map Field.name) used used' ∧ Renamed used used' ∧
      front ≠ [] ∧ readBody? opening (front ++ used') = some (conditions, .named fields', []) := by
  obtain ⟨hw, hstructure⟩ := readBody?_eq_named_iff.mp h
  obtain ⟨hparen, brace, inside, hc, hbrace, hall⟩ := readStructure?_eq_named_iff.mp hstructure
  obtain ⟨used, used', rfl, hs, hr, hall'⟩ := Field.readAll?_respelled hall hf
  obtain ⟨front, rfl⟩ := readConditions?_suffix hc
  rw [List.append_nil] at hc hparen hall' ⊢
  have hc : readConditions? (front ++ [brace] ++ used) = some (conditions, [brace] ++ used) := by
    simpa using hc
  have hc' := readConditions?_names hr (by simp) hc
  have hlength : used.length = used'.length := hr.length_eq
  refine ⟨front ++ [brace], used, used', by simp, hs, hr, by simp,
    readBody?_eq_named_iff.mpr ⟨hw, readStructure?_eq_named_iff.mpr ⟨?_, brace, used', hc', hbrace, ?_⟩⟩⟩
  · cases front <;> exact hparen
  · rw [← hlength]
    simpa using hall'

/-- What follows the name of an item is read with the names of fields respelled where just these words
are. -/
theorem Item.Parts.respelled {i : Item} {ts rest after left : List Token} {visibility : Reading}
    {opening word : Token} {fields : List Field}
    (h : i.Parts ts rest visibility opening word after left)
    (hf : List.Forall₂ Field.Respelled i.fields fields) :
    ∃ after' left', Respelling (i.fields.map Field.name) (fields.map Field.name) after after' ∧
      Renamed after after' ∧
      Parameter.listInFront? after' = some (i.generics.parameters, left') ∧
      readBody? opening left' = some (i.generics.conditions, i.body.withFields fields, []) := by
  have hbody := h.body
  have hparameters := h.parameters
  cases hb : i.body with
  | named named =>
    have hnamed : i.fields = named := by simp [Item.fields, hb, Body.fields?]
    rw [hb] at hbody
    rw [hnamed] at hf ⊢
    obtain ⟨front, used, used', rfl, hs, hr, hne, hbody'⟩ := readBody?_respelled hbody hf
    obtain ⟨parameters, rfl⟩ := Parameter.listInFront?_suffix hparameters
    rw [← List.append_assoc] at hparameters ⊢
    exact ⟨parameters ++ front ++ used', front ++ used', (Respelling.refl _).append hs,
      hr.append_left _, Parameter.listInFront?_names hr hne hparameters, hbody'⟩
  | _ =>
    have hfields : i.fields = [] := by simp [Item.fields, hb, Body.fields?]
    rw [hfields] at hf ⊢
    cases hf
    rw [hb] at hbody
    exact ⟨after, left, .refl after, Renamed.refl after, hparameters, hbody⟩

/-- An item is read with its name and those of its fields respelled where just these words are. -/
theorem Item.ofTokens?_respelled {ts : List Token} {i : Item} {name : Text} {fields : List Field}
    (h : Item.ofTokens? ts = some i) (hn : Respelled i.name name)
    (hf : List.Forall₂ Field.Respelled i.fields fields) :
    ∃ ts', Respelling (i.name :: i.fields.map Field.name) (name :: fields.map Field.name) ts ts' ∧
      Item.ofTokens? ts' = some (i.respelled name fields) := by
  obtain ⟨rest, visibility, opening, word, after, left, hp⟩ := ofTokens?_eq_some_iff.mp h
  obtain ⟨after', left', hs, hr, hparameters, hbody⟩ := hp.respelled hf
  obtain ⟨visible, hvisible⟩ := Phrase.read_suffix hp.visible
  obtain ⟨attributes, rfl⟩ := (Attribute.readAll?_written hp.attributes).1
  obtain ⟨l, s⟩ := word
  obtain ⟨w, rfl, -⟩ := exists_name hp.named
  obtain hw : i.name = w := hp.name
  subst hw
  have hnamed : Test.anyName.fits (.word name) = true := hn.named hp.named
  have ht : Renamed (⟨.word i.name, s⟩ :: after) (⟨.word name, s⟩ :: after') :=
    .cons (.name hp.named hnamed) hr
  have hwords : visibility.rest = [opening] ++ ⟨.word i.name, s⟩ :: after := hp.words
  rw [hwords] at hvisible
  subst hvisible
  have hattributes : Attribute.inFront? (attributes ++ (visible ++ [opening]) ++
      ⟨.word i.name, s⟩ :: after) =
        some (i.attributes, visible ++ [opening] ++ ⟨.word i.name, s⟩ :: after) := by
    simpa using hp.attributes
  have hvisible : Phrase.visibility.read (visible ++ [opening] ++ ⟨.word i.name, s⟩ :: after) =
      some visibility := by
    simpa using hp.visible
  have hrespelling : Respelling (i.name :: i.fields.map Field.name) (name :: fields.map Field.name)
      (attributes ++ (visible ++ [opening]) ++ ⟨.word i.name, s⟩ :: after)
      (attributes ++ (visible ++ [opening]) ++ ⟨.word name, s⟩ :: after') :=
    (Respelling.refl _).append (.word i.name name s hs)
  refine ⟨_, by simpa using hrespelling, ofTokens?_eq_some_iff.mpr ⟨_, _, opening, ⟨.word name, s⟩,
    after', left', Attribute.inFront?_names ht hattributes, Phrase.read_names ht rfl hvisible hwords,
    hp.written, rfl, hnamed, rfl, hparameters, hbody, ?_⟩⟩
  have hspan := hp.span
  rw [← hrespelling.spanOf?]
  simpa [Item.respelled] using hspan

end FieldKeys
