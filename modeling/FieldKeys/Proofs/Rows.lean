import FieldKeys.Proofs.FieldLookup
import FieldKeys.Proofs.SameOutcome

/-! The rows of an item: one for each field that is not ignored, with the key of the field, wherever
the tokens of the item stand. -/

namespace FieldKeys

def Item.withFields (i : Item) (fields : List Field) : Item :=
  { i with body := .named fields }

@[simp] theorem Item.withFields_fields (i : Item) (fields : List Field) :
    (i.withFields fields).fields = fields := rfl

@[simp] theorem Item.withFields_kept (i : Item) (fields : List Field) :
    (i.withFields fields).kept = fields.filter fun f => ¬ f.Ignored := rfl

/-- The record `Row` with the given fields, at no particular place. -/
def rowOf (fields : List Field) : Item :=
  ⟨[], [], "Row".toList, ⟨[], []⟩, .named fields, ⟨.origin, .origin⟩⟩

def fieldOf (attributes : List Attribute) (visibility : List String) (name type : String) : Field where
  attributes := attributes
  visibility := visibility.map fun w => (Lexeme.word w.toList).token
  name := name.toList
  type := [(Lexeme.word type.toList).token]

def attributeOf (name : String) (form : Attribute.Form) : Attribute :=
  ⟨[(Lexeme.word name.toList).token], form, ⟨.origin, .origin⟩⟩

theorem Item.unplaced_withFields (i : Item) (fields : List Field) :
    (i.withFields fields).unplaced = i.unplaced.withFields (fields.map Field.unplaced) := rfl

theorem Item.body_eq_named {i : Item} (h : i.fields ≠ []) : i.body = .named i.fields := by
  unfold fields at h ⊢
  cases hb : i.body with
  | named fields => rfl
  | tuple | unit | noStructure => simp [hb, Body.fields?] at h

theorem Expression.stringValue?_unplaced (e : Expression) :
    e.unplaced.stringValue? = e.stringValue? := by
  have hh := getLast?_lexeme_congr (g := Token.literal?) (Token.map_lexeme_unplaced e.tokens)
    fun t u h => by simp [Token.literal?, h]
  unfold stringValue? unplaced
  simp only [hh]

theorem Entry.row?_unplaced (e : Entry) : e.unplaced.row? = e.row? := by
  obtain ⟨field, key⟩ := e
  cases key with
  | none => rfl
  | some key =>
    cases key with
    | custom x => simp only [row?, keyText?, unplaced, Option.map_some, Key.unplaced,
        x.stringValue?_unplaced]
    | derived name => rfl

theorem KeyTable.ofEntries?_congr {es es' : List Entry}
    (h : es.map Entry.unplaced = es'.map Entry.unplaced) :
    KeyTable.ofEntries? es = KeyTable.ofEntries? es' := by
  have hh := forall₂_map_eq_iff.mpr h
  clear h
  induction hh with
  | nil => rfl
  | @cons e e' es es' he _ ih =>
    have hr : e.row? = e'.row? := by rw [← e.row?_unplaced, he, e'.row?_unplaced]
    simp only [ofEntries?, hr, ih]

theorem Entry.PlainKey.congr {e e' : Entry} (h : e.PlainKey) (he : e.unplaced = e'.unplaced) :
    e'.PlainKey := by
  intro y hy
  have hk : e.key.map Key.unplaced = e'.key.map Key.unplaced := congrArg Entry.key he
  rw [hy] at hk
  obtain ⟨key, hx, hxy⟩ := Option.map_eq_some_iff.mp hk
  cases key with
  | derived name => simp [Key.unplaced] at hxy
  | custom x =>
    obtain ⟨value, hs, hv⟩ := h x hx
    have hu : x.unplaced = y.unplaced := Key.custom.inj hxy
    have hlength : x.tokens.length = y.tokens.length := by
      simpa using congrArg List.length (Expression.lexemes_unplaced hu)
    refine ⟨value, hlength ▸ hs, ?_⟩
    rw [← y.stringValue?_unplaced, ← hu, x.stringValue?_unplaced, hv]

theorem Field.keyLiteral_of_forms {fields : List Field} {forms : List Attribute.Form}
    (hf : fields.filterMap (fun f => f.customAttribute?.map Attribute.form) = forms)
    (h : ∀ form ∈ forms, ∃ key, form.KeyLiteral key) :
    ∀ f ∈ fields, ¬ f.Ignored → ∀ a, f.customAttribute? = some a →
      ∃ key, a.form.KeyLiteral key := by
  intro f hm _ a ha
  refine h a.form (hf ▸ List.mem_filterMap.mpr ⟨f, hm, ?_⟩)
  rw [ha, Option.map_some]

theorem Field.exists_row (s : Style) {fields : List Field}
    (hl : ∀ f ∈ fields, ¬ f.Ignored → ∀ a, f.customAttribute? = some a →
      ∃ key, a.form.KeyLiteral key) :
    ∃ row : Field → Row, ∀ f ∈ fields, ¬ f.Ignored →
      (row f).field = unescape f.name ∧ f.HasKey s (row f).key := by
  have hkeys : ∀ f, f ∈ fields → ¬ f.Ignored → ∃ key, f.HasKey s key :=
    fun f hf hi => exists_key s (hl f hf hi)
  choose! key hkey using hkeys
  exact ⟨fun f => ⟨unescape f.name, key f⟩, fun f hf hi => ⟨rfl, hkey f hf hi⟩⟩

theorem Item.ofEntries?_rows {i : Item} {m : Mapping} (h : i.mapping.result = .ok m)
    {row : Field → Row} (hrow : ∀ f ∈ i.fields, ¬ f.Ignored →
      (row f).field = unescape f.name ∧ f.HasKey m.record.style (row f).key) :
    KeyTable.ofEntries? (m.entries.getD []) = some (i.kept.map row) := by
  have hkept : ∀ f ∈ i.kept, (row f).field = unescape f.name ∧
      f.HasKey m.record.style (row f).key := fun f hf => by
    obtain ⟨hf, hi⟩ := List.mem_filter.mp hf
    exact hrow f hf (by simpa using hi)
  rw [ofEntries?_fields h fun f hf => (hkept f hf).2, Option.some.injEq]
  refine List.map_congr_left fun f hf => ?_
  rw [← (hkept f hf).1]

/-- Alike items have the same rows. -/
theorem Item.Alike.rows {i j : Item} {m : Mapping} (h : i.Alike j) (hm : i.mapping.result = .ok m) :
    ∃ m', j.mapping.result = .ok m' ∧
      m.entries.map (List.map Entry.unplaced) = m'.entries.map (List.map Entry.unplaced) ∧
      (m.entries.getD []).map Entry.unplaced = (m'.entries.getD []).map Entry.unplaced := by
  obtain ⟨m', hm', -, he⟩ := h.mapping.result.exists_ok hm
  refine ⟨m', hm', he, ?_⟩
  cases hes : m.entries <;> cases hes' : m'.entries <;> simp_all

/-- The table of the code of an item that is alike to one with the given rows. -/
theorem Item.Alike.codeTable? {ts : List Token} {i j : Item} {m : Mapping} {row : Field → Row}
    (h : i.Alike j) (data : Bool) (hj : Item.ofTokens? ts = some j) (hm : i.mapping.result = .ok m)
    (hn : (i.kept.map fun f => unescape f.name).Nodup)
    (hrow : ∀ f ∈ i.fields, ¬ f.Ignored →
      (row f).field = unescape f.name ∧ f.HasKey m.record.style (row f).key) :
    j.codeTable? data = some (i.kept.map row) := by
  obtain ⟨m', hm', -, he⟩ := h.rows hm
  have hfields : (m.entries.getD []).map Entry.field = (m'.entries.getD []).map Entry.field :=
    Entry.map_congr (fun _ => rfl) he
  have hplain : ∀ e ∈ m'.entries.getD [], e.PlainKey := by
    intro e' hm'
    obtain ⟨e, hmem, hee⟩ := forall₂_mem_right (forall₂_map_eq_iff.mpr he) hm'
    refine (@entries_plain _ _ (fun f => (row f).key) hm (fun f hf => ?_) e hmem).congr hee
    obtain ⟨hf, hi⟩ := List.mem_filter.mp hf
    exact (hrow f hf (by simpa using hi)).2
  rw [codeTable?_entries data hj hm' (hfields ▸ entries_nodup hm hn) hplain,
    ← KeyTable.ofEntries?_congr he]
  exact ofEntries?_rows hm hrow

end FieldKeys
