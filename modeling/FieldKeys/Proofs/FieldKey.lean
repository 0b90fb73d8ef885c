import FieldKeys.Proofs.Expansion

/-! The key of a field, said of its attributes as they stand, and the table that is generated for
an item whose fields have their keys as string literals or from their names. -/

namespace FieldKeys

def Token.IsString (t : Token) (value : Text) : Prop :=
  ∃ text, t.lexeme = .literal text ∧ stringValue? text = some value

/-- A key is written as a string literal: after an equals sign, or as the first argument of a
list, with a label or without. -/
inductive Attribute.Form.KeyLiteral (key : Text) : Attribute.Form → Prop
  | value {x : Expression} (hx : x.IsString key) : KeyLiteral key (.value x)
  | argument {t : Token} {rest : List Token} (ht : t.IsString key)
      (hr : atArgumentEnd rest = true) : KeyLiteral key (.list (t :: rest))
  | labelled {label equals t : Token} {rest : List Token}
      (hl : label.lexeme = .word Directive.label) (he : isSign '=' equals = true)
      (ht : t.IsString key) (hr : atArgumentEnd rest = true) :
      KeyLiteral key (.list (label :: equals :: t :: rest))

/-- The key of a field that is not ignored: the string literal in the first attribute that asks for
a custom key, else the converted name. -/
inductive Field.HasKey (s : Style) (f : Field) : Text → Prop
  | literal {a : Attribute} {key : Text} (ha : f.customAttribute? = some a)
      (hk : a.form.KeyLiteral key) : HasKey s f key
  | derived (ha : f.customAttribute? = none) : HasKey s f (s.convert (unescape f.name))

theorem Expression.read?_literal {t : Token} {text : Text} {rest : List Token}
    (ht : t.lexeme = .literal text) (hr : atArgumentEnd rest = true) :
    Expression.read? (t :: rest) = some (⟨.literal, [t]⟩, rest) := by
  obtain ⟨l, span⟩ := t
  obtain rfl : l = .literal text := ht
  cases rest with
  | nil => rfl
  | cons comma rest =>
    obtain ⟨l, span'⟩ := comma
    cases l with
    | sign c joint =>
      obtain rfl : c = ',' := by simpa [atArgumentEnd, isSign] using hr
      rfl
    | _ => simp [atArgumentEnd, isSign] at hr

theorem labelled?_literal {t : Token} {text : Text} (rest : List Token)
    (ht : t.lexeme = .literal text) : labelled? (t :: rest) = none := by
  obtain ⟨l, span⟩ := t
  obtain rfl : l = .literal text := ht
  cases rest <;> rfl

theorem afterLabel?_label {label equals t : Token} {text : Text} (rest : List Token)
    (hl : label.lexeme = .word Directive.label) (he : isSign '=' equals = true)
    (ht : t.lexeme = .literal text) :
    afterLabel? (label :: equals :: t :: rest) = some (t :: rest) := by
  obtain ⟨l, span⟩ := label
  obtain rfl : l = .word Directive.label := hl
  obtain ⟨l, span'⟩ := equals
  obtain ⟨l', span''⟩ := t
  obtain rfl : l' = .literal text := ht
  cases l with
  | sign c joint =>
    obtain rfl : c = '=' := by simpa [isSign] using he
    cases joint <;> rfl
  | _ => simp [isSign] at he

theorem labelled?_label {label equals t : Token} {text : Text} {rest : List Token}
    (hl : label.lexeme = .word Directive.label) (he : isSign '=' equals = true)
    (ht : t.lexeme = .literal text) (hr : atArgumentEnd rest = true) :
    labelled? (label :: equals :: t :: rest) = some ⟨.literal, [t]⟩ := by
  rw [labelled?, afterLabel?_label rest hl he ht, Option.bind_some, Expression.read?_literal ht hr]
  simp [hr]

theorem Token.IsString.isString {t : Token} {value : Text} (h : t.IsString value) :
    Expression.IsString ⟨.literal, [t]⟩ value := by
  obtain ⟨text, ht, hv⟩ := h
  refine ⟨rfl, ?_⟩
  simp [Expression.stringValue?, Token.literal?, ht, hv]

theorem head?_listOfTokens? {t : Token} {text : Text} {rest : List Token} {es : List Expression}
    (ht : t.lexeme = .literal text) (hr : atArgumentEnd rest = true)
    (h : Expression.listOfTokens? (t :: rest) = some es) : es.head? = some ⟨.literal, [t]⟩ := by
  rw [Expression.listOfTokens?, List.length_cons, Expression.readList?,
    Expression.read?_literal ht hr] at h
  cases rest with
  | nil =>
    obtain rfl := Option.some.inj h
    rfl
  | cons comma rest =>
    simp only at h
    split at h
    · obtain ⟨es', -, rfl⟩ := Option.map_eq_some_iff.mp h
      rfl
    · simp at h

/-- What an attribute with a key literal declares is that literal. -/
theorem Directive.ofAttribute_literal {a : Attribute} {span : Span} {key : Option Expression}
    {value : Text} (h : Directive.ofAttribute a = .ok (.custom span key))
    (hk : a.form.KeyLiteral value) : ∃ x, key = some x ∧ x.IsString value := by
  unfold ofAttribute at h
  split at h
  · simp at h
  · split at h
    · generalize a.form = form at h hk
      cases hk with
      | value hx =>
        obtain ⟨-, rfl⟩ := Directive.custom.inj (Except.ok.inj h)
        exact ⟨_, rfl, hx⟩
      | argument ht hr =>
        simp only at h
        split at h
        · next key' hc =>
          obtain ⟨-, rfl⟩ := Directive.custom.inj (Except.ok.inj h)
          obtain ⟨es, hes, hc⟩ := Option.map_eq_some_iff.mp hc
          have hs := ht.isString
          obtain ⟨text, hl, -⟩ := ht
          rw [labelled?_literal _ hl, Option.none_or, head?_listOfTokens? hl hr hes] at hc
          exact ⟨_, hc.symm, hs⟩
        · simp at h
      | labelled hl he ht hr =>
        simp only at h
        split at h
        · next key' hc =>
          obtain ⟨-, rfl⟩ := Directive.custom.inj (Except.ok.inj h)
          obtain ⟨es, -, hc⟩ := Option.map_eq_some_iff.mp hc
          have hs := ht.isString
          obtain ⟨text, hlit, -⟩ := ht
          rw [labelled?_label hl he hlit hr, Option.some_or] at hc
          exact ⟨_, hc.symm, hs⟩
        · simp at h
    · simp at h

theorem Field.Gives.row {s : Style} {f : Field} {e : Entry} {key : Text} (h : f.Gives s e)
    (hk : f.HasKey s key) : e.row? = some ⟨unescape f.name, key⟩ ∧ e.PlainKey := by
  obtain ⟨d, hd, hf, hg⟩ := h
  have hname := (declaration_ok hd).1
  obtain ⟨field, k⟩ := e
  obtain rfl : field = f.name := hf.trans hname
  cases hk with
  | literal ha hl =>
    obtain ⟨key', ho, hc⟩ := Field.firstCustom hd ha
    obtain ⟨x, rfl, hx⟩ := Directive.ofAttribute_literal ho hl
    cases hg with
    | custom hc' =>
      obtain rfl := Option.some.inj (hc.unique hc').2
      refine ⟨by simp [Entry.row?, Entry.keyText?, hx.2], fun y hy => ?_⟩
      obtain rfl := Key.custom.inj (Option.some.inj hy)
      exact ⟨_, hx⟩
    | same hn | derived hn => exact absurd hn hc.not_noCustom
  | derived ha =>
    have hn := Field.noCustom hd ha
    cases hg with
    | custom hc => exact absurd hn hc.not_noCustom
    | same _ hu =>
      rw [hname] at hu
      refine ⟨?_, fun y hy => by simp at hy⟩
      rw [s.convert_of_no_uppercase hu]
      rfl
    | derived =>
      refine ⟨?_, fun y hy => by simp at hy⟩
      simp [Entry.row?, Entry.keyText?, hname]

theorem KeyTable.ofEntries?_rows {es : List Entry} {t : KeyTable}
    (h : List.Forall₂ (fun e row => Entry.row? e = some row) es t) :
    KeyTable.ofEntries? es = some t := by
  induction h with
  | nil => rfl
  | cons hr _ ih => simp [ofEntries?, hr, ih]

theorem Item.mapping_kept {i : Item} {m : Mapping} (h : i.mapping.result = .ok m) :
    List.Forall₂ (Field.Gives m.record.style) i.kept (m.entries.getD []) := by
  cases he : m.entries with
  | some es => exact mapping_entries h he
  | none =>
    have hk : i.kept = [] := by
      by_contra hn
      obtain ⟨es, hs⟩ := mapping_isSome h hn
      simp [he] at hs
    rw [hk]
    exact .nil

theorem Item.entries_names {i : Item} {m : Mapping} (h : i.mapping.result = .ok m) :
    (m.entries.getD []).map Entry.field = i.kept.map Field.name := by
  refine (forall₂_map_eq_iff.mp ((mapping_kept h).imp fun f e hg => ?_)).symm
  obtain ⟨d, hd, he, -⟩ := hg
  exact (he.trans (Field.declaration_ok hd).1).symm

theorem Item.entries_plain {i : Item} {m : Mapping} {key : Field → Text} (h : i.mapping.result = .ok m)
    (hk : ∀ f ∈ i.kept, f.HasKey m.record.style (key f)) : ∀ e ∈ m.entries.getD [], e.PlainKey := by
  intro e he
  obtain ⟨f, hf, hg⟩ := forall₂_mem_right (mapping_kept h) he
  exact (hg.row (hk f hf)).2

theorem Item.ofEntries?_fields {i : Item} {m : Mapping} {key : Field → Text}
    (h : i.mapping.result = .ok m) (hk : ∀ f ∈ i.kept, f.HasKey m.record.style (key f)) :
    KeyTable.ofEntries? (m.entries.getD []) =
      some (i.kept.map fun f => ⟨unescape f.name, key f⟩) := by
  refine KeyTable.ofEntries?_rows ?_
  rw [List.forall₂_map_right_iff]
  have hh := (List.forall₂_and_left _ _).mpr ⟨hk, mapping_kept h⟩
  exact (hh.imp fun f e he => (he.2.row he.1).1).flip

theorem Item.entries_nodup {i : Item} {m : Mapping} (h : i.mapping.result = .ok m)
    (hn : (i.kept.map fun f => unescape f.name).Nodup) :
    ((m.entries.getD []).map Entry.field).Nodup := by
  rw [entries_names h]
  refine List.Nodup.of_map unescape ?_
  rwa [List.map_map]

theorem Item.codeTable?_fields {ts : List Token} {i : Item} {m : Mapping} {key : Field → Text}
    (data : Bool) (hi : Item.ofTokens? ts = some i) (h : i.mapping.result = .ok m)
    (hn : (i.kept.map fun f => unescape f.name).Nodup)
    (hk : ∀ f ∈ i.kept, f.HasKey m.record.style (key f)) :
    i.codeTable? data = some (i.kept.map fun f => ⟨unescape f.name, key f⟩) := by
  rw [codeTable?_entries data hi h (entries_nodup h hn) (entries_plain h hk)]
  exact ofEntries?_fields h hk

end FieldKeys
