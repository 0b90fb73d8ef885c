import FieldKeys.Proofs.KeyCode
import FieldKeys.Proofs.Lookup
import FieldKeys.Proofs.Quoted
import FieldKeys.Proofs.Record

/-! What is generated for an item, read back: its entries stand in the enumeration, in the list of
its variants and in both matches. -/

namespace FieldKeys

/-- Lexemes that close the brackets they open and have no `w` outside of them. -/
structure Without (w : Lexeme) (ls : List Lexeme) : Prop where
  depth : depthAfter? 0 ls = some 0
  absent : past? w 0 ls = none

theorem Without.append {w : Lexeme} {a b : List Lexeme} (ha : Without w a) (hb : Without w b) :
    Without w (a ++ b) := by
  refine ⟨by simp [depthAfter?_append, ha.depth, hb.depth], ?_⟩
  rw [past?_append b ha.depth ha.absent, hb.absent]

theorem Without.group {w : Lexeme} {d e : Delimiter} {inside : List Lexeme}
    (h : depthAfter? 0 inside = some 0) (hw : w ≠ .opening d) :
    Without w (.opening d :: (inside ++ [.closing e])) := by
  refine ⟨depthAfter?_group [] h, ?_⟩
  rw [past?, if_neg (fun hh => hw hh.2.symm)]
  simp [Lexeme.depthAfter?, past?_inside [.closing e] h, past?]

/-- A visibility is nothing, a word, or that word and a group. -/
theorem visibility_without {ts : List Token} {r : Reading} (h : Phrase.visibility.read ts = some r) :
    Without (.word "enum".toList) (r.written.map (·.lexeme)) := by
  obtain ⟨depth, h⟩ := Phrase.readAfter_run h
  have hn : Without (.word "enum".toList) [] := ⟨rfl, rfl⟩
  have hg : ∀ {inside : PhraseRule} {shape : Shape} {ts : List Token} {r : Reading},
      (FieldKeys.group .paren inside).run true (readPhrase true grammar depth) shape ts = some r →
      inside.depthAfter? Phrase.writesArrow false 0 = some (some 0) →
      Without (.word "enum".toList) (r.written.map (·.lexeme)) := by
    intro inside shape ts r hr hi
    obtain ⟨ls, he, hd⟩ := group_written hr hi
    rw [he]
    exact .group hd (by simp)
  simp only [grammar, visibilityRule, whenAhead, Rule.run] at h
  split at h
  · obtain ⟨first, second, hf, hs, rfl⟩ := Rule.run_seq h
    obtain ⟨t, ht, hw⟩ := Test.read_one (by simp) hf
    have hp : t.lexeme = .word "pub".toList := Test.fits_word_iff.mp ht
    have hpub : Without (.word "enum".toList) (first.written.map (·.lexeme)) := by
      simp only [hw, Test.written, List.map_cons, List.map_nil, hp]
      exact ⟨rfl, by decide⟩
    rw [List.map_append]
    refine hpub.append ?_
    simp only [firstOf, List.foldr_cons, List.foldr_nil, Rule.run] at hs
    split at hs
    · exact hg hs (by decide +kernel)
    · split at hs
      · exact hg hs (by decide +kernel)
      · obtain rfl := Option.some.inj hs
        exact hn
  · obtain rfl := Option.some.inj h
    exact hn

theorem enumFront_without (doc : Text) : Without (.word "enum".toList)
    (op "#" ++ inBrackets (ident "doc" ++ op "=" ++ [.literal doc]) ++
      op "#" ++ inBrackets (ident "derive" ++ inParens (separated
        [ident "Debug", ident "Clone", ident "Copy", ident "PartialEq", ident "Eq", ident "Hash"])) ++
      op "#" ++ inBrackets (ident "allow" ++ inParens (ident "non_camel_case_types"))) :=
  ⟨rfl, rfl⟩

theorem keyLexemes_eq (r : Record) (es : List Entry) :
    r.keyLexemes es = ident "impl" ++ rooted ["coding_keys", "CodingKey"] ++ ident "for" ++
      [r.keysName] ++ inBraces (keyBody es) := rfl

theorem KeyCode.read?_expansion {r : Record} {es : List Entry} (data : Bool)
    (hv : Without (.word "enum".toList) (r.visibility.map (·.lexeme)))
    (hk : ∀ e ∈ es, Neat true 0 0 e.keyLexemes) :
    KeyCode.read? (r.expansion data es) = some (r.keyCode es) := by
  obtain ⟨doc, hdoc⟩ : ∃ doc, doc =
    quote ("Serialization keys of [".toList ++ backquoted r.name ++ "].".toList) := ⟨_, rfl⟩
  obtain ⟨others, hothers⟩ : ∃ others, others = r.displayLexemes ++ r.asRefLexemes ++
    r.ownerLexemes ++ if data then r.serializeLexemes ++ r.deserializeLexemes else [] := ⟨_, rfl⟩
  have hfront := (enumFront_without doc).append hv
  have hwords := depthAfter?_separated (fun _ _ => rfl : ∀ n v, depthAfter? n [.word v] = some n) 0 es
  have he : r.expansion data es =
      (op "#" ++ inBrackets (ident "doc" ++ op "=" ++ [.literal doc]) ++
        op "#" ++ inBrackets (ident "derive" ++ inParens (separated
          [ident "Debug", ident "Clone", ident "Copy", ident "PartialEq", ident "Eq", ident "Hash"])) ++
        op "#" ++ inBrackets (ident "allow" ++ inParens (ident "non_camel_case_types")) ++
        r.visibility.map (·.lexeme)) ++ .word "enum".toList :: ([.word (FieldKeys.keysName r.name)] ++
      ([] ++ .opening .brace :: (separated (es.map fun e => [.word e.field]) ++ .closing .brace ::
      (ident "impl" ++ rooted ["coding_keys", "CodingKey"] ++ ident "for" ++
        [.word (FieldKeys.keysName r.name)] ++ .opening .brace :: (keyBody es ++ .closing .brace ::
          others))))) := by
    simp only [Record.expansion, Record.enumLexemes, keyLexemes_eq, Record.keysName, hdoc, hothers,
      ident, inBraces, List.append_assoc, List.cons_append, List.nil_append]
  rw [KeyCode.read?, he, past?_append _ hfront.depth hfront.absent]
  simp only [past?, true_and, if_true, Option.bind_some, nameInFront?_append,
    readBlock?_append _ _ _ hwords, readNames?_words,
    readBlock?_append _ _ _ (depthAfter?_keyBody hk), KeyCode.readBody?_keyBody _ _ hk]
  rfl

/-- How the key of an entry is spelled: a custom key as it was written, any other as a string
literal. -/
inductive Entry.Spelled (e : Entry) : List Lexeme → Prop
  | custom {x : Expression} (h : e.key = some (.custom x)) : Spelled e (x.tokens.map (·.lexeme))
  | derived {name text : Text} (h : e.key = some (.derived name))
      (hv : stringValue? text = some name) : Spelled e [.literal text]
  | same {text : Text} (h : e.key = none) (hv : stringValue? text = some (unescape e.field)) :
      Spelled e [.literal text]

/-- An expression that is a string literal and nothing more. -/
def Expression.IsString (x : Expression) (value : Text) : Prop :=
  x.tokens.length = 1 ∧ x.stringValue? = some value

/-- A custom key, if there is one, is a string literal. -/
def Entry.PlainKey (e : Entry) : Prop :=
  ∀ x, e.key = some (.custom x) → ∃ value, x.IsString value

theorem Expression.Written.neat {x : Expression} (h : x.Written) :
    Neat true 0 0 (x.tokens.map (·.lexeme)) := by
  cases h with
  | expression h =>
    obtain ⟨r, hr, he⟩ := Option.map_eq_some_iff.mp h
    obtain ⟨rfl, -⟩ := Prod.mk.inj he
    exact Phrase.inFront_neat hr
  | value h => exact Phrase.readAfter_neat h

theorem Entry.keyLexemes_neat {e : Entry} (h : ∀ x, e.key = some (.custom x) → x.Written) :
    Neat true 0 0 e.keyLexemes := by
  obtain ⟨field, key⟩ := e
  cases key with
  | none => exact neat_literal true 0 _
  | some key =>
    cases key with
    | custom x => exact (h x rfl).neat
    | derived name => exact neat_literal true 0 _

theorem Entry.keyLexemes_spelled (e : Entry) : e.Spelled e.keyLexemes := by
  obtain ⟨field, key⟩ := e
  cases key with
  | none => exact .same rfl (stringValue?_quote _)
  | some key =>
    cases key with
    | custom x => exact .custom rfl
    | derived name => exact .derived rfl (stringValue?_quote _)

theorem Entry.literalValue?_fieldLexemes (e : Entry) :
    literalValue? e.fieldLexemes = some (unescape e.field) :=
  stringValue?_quote _

theorem Entry.literalValue?_keyLexemes {e : Entry} (h : e.PlainKey) :
    literalValue? e.keyLexemes = e.keyText? ∧ e.keyText?.isSome = true := by
  obtain ⟨field, key⟩ := e
  cases key with
  | none => exact ⟨stringValue?_quote _, rfl⟩
  | some key =>
    cases key with
    | derived name => exact ⟨stringValue?_quote _, rfl⟩
    | custom x =>
      obtain ⟨value, hl, hs⟩ := h x rfl
      obtain ⟨shape, tokens⟩ := x
      obtain ⟨⟨l, span⟩, rfl⟩ := List.length_eq_one_iff.mp hl
      refine ⟨?_, Option.isSome_iff_exists.mpr ⟨value, hs⟩⟩
      unfold Expression.stringValue? at hs
      split at hs
      · next hshape =>
        obtain rfl : shape = .literal := hshape
        cases l with
        | literal text => rfl
        | _ => simp [Token.literal?] at hs
      · simp at hs

theorem bodyOf?_map {es : List Entry} (hn : (es.map Entry.field).Nodup)
    (value : Entry → List Lexeme) {e : Entry} (he : e ∈ es) :
    bodyOf? (es.map fun e => (e.field, value e)) e.field = some (value e) := by
  have hm : ((es.map fun e => (e.field, value e)).map Prod.fst).Nodup := by
    rwa [List.map_map]
  have hh := find?_of_nodup hm (List.mem_map_of_mem (f := fun e => (e.field, value e)) he)
  rw [bodyOf?, hh]
  rfl

theorem Record.keyCode_row? (r : Record) {es : List Entry} (hn : (es.map Entry.field).Nodup)
    {e : Entry} (he : e ∈ es) (hp : e.PlainKey) : (r.keyCode es).row? e.field = e.row? := by
  rw [KeyCode.row?, keyCode, bodyOf?_map hn Entry.fieldLexemes he, bodyOf?_map hn Entry.keyLexemes he]
  simp only [Option.bind_some, Entry.literalValue?_fieldLexemes,
    (Entry.literalValue?_keyLexemes hp).1]
  rfl

theorem KeyTable.ofEntries?_isSome {es : List Entry} (hp : ∀ e ∈ es, e.PlainKey) :
    ∃ t, KeyTable.ofEntries? es = some t := by
  induction es with
  | nil => exact ⟨[], rfl⟩
  | cons e es ih =>
    obtain ⟨t, ht⟩ := ih fun x hx => hp x (by simp [hx])
    obtain ⟨key, hk⟩ := Option.isSome_iff_exists.mp
      (Entry.literalValue?_keyLexemes (hp e (by simp))).2
    exact ⟨⟨unescape e.field, key⟩ :: t, by simp [ofEntries?, ht, Entry.row?, hk]⟩

theorem Record.keyCode_table? (r : Record) {es : List Entry} (hn : (es.map Entry.field).Nodup)
    (hp : ∀ e ∈ es, e.PlainKey) : (r.keyCode es).table? = KeyTable.ofEntries? es := by
  -- Said of a part of the entries: the induction shortens the list of variants, while the arms
  -- that are looked up stay those of all entries.
  have hh : ∀ part : List Entry, (∀ e ∈ part, e ∈ es) →
      (part.map Entry.field).mapM (r.keyCode es).row? = KeyTable.ofEntries? part := by
    intro part hs
    induction part with
    | nil => rfl
    | cons e part ih =>
      have he := hs e (by simp)
      rw [List.map_cons, List.mapM_cons, r.keyCode_row? hn he (hp e he),
        ih fun x hx => hs x (by simp [hx]), KeyTable.ofEntries?]
      cases e.row? with
      | none => rfl
      | some row => cases KeyTable.ofEntries? part <;> rfl
  exact hh es fun e he => he

theorem Item.expand_ok {i : Item} {m : Mapping} {es : List Entry} (data : Bool)
    (h : i.mapping.result = .ok m) (he : m.entries = some es) :
    (i.expand data).result = .ok (m.record.expansion data es) := by
  simp [expand, h, he, Except.map]

/-- The code of an item with entries reads back as its entries. -/
theorem Item.read?_expand {ts : List Token} {i : Item} {m : Mapping} {es : List Entry} (data : Bool)
    (hi : Item.ofTokens? ts = some i) (h : i.mapping.result = .ok m) (he : m.entries = some es) :
    KeyCode.read? (m.record.expansion data es) = some (m.record.keyCode es) := by
  obtain ⟨front, r, hv, hr⟩ := (Item.ofTokens?_written hi).visibility
  obtain ⟨-, -, -, hm, -⟩ := record_ok (mapping_ok h).1
  have hw : Without (.word "enum".toList) (m.record.visibility.map (·.lexeme)) := by
    rw [hm, hr]
    exact visibility_without hv
  exact KeyCode.read?_expansion data hw fun e hm =>
    e.keyLexemes_neat fun x hx => Item.entry_written hi h he hm hx

/-- The table of the code that is generated for an item. Without a field that gets a key there is
no code, and no row. -/
def Item.codeTable? (i : Item) (data : Bool) : Option KeyTable :=
  match (i.expand data).result with
  | .error _ => none
  | .ok [] => some []
  | .ok (l :: ls) => (KeyCode.read? (l :: ls)).bind KeyCode.table?

theorem Item.codeTable?_read {i : Item} {data : Bool} {code : List Lexeme} {k : KeyCode}
    (hx : (i.expand data).result = .ok code) (hk : KeyCode.read? code = some k) :
    i.codeTable? data = k.table? := by
  cases code with
  | nil => simp [KeyCode.read?, past?] at hk
  | cons l ls => simp only [codeTable?, hx, hk, Option.bind_some]

theorem Item.codeTable?_entries {ts : List Token} {i : Item} {m : Mapping} (data : Bool)
    (hi : Item.ofTokens? ts = some i) (h : i.mapping.result = .ok m)
    (hn : ((m.entries.getD []).map Entry.field).Nodup)
    (hp : ∀ e ∈ m.entries.getD [], e.PlainKey) :
    i.codeTable? data = KeyTable.ofEntries? (m.entries.getD []) := by
  cases he : m.entries with
  | none => simp [codeTable?, expand, h, he, Except.map, KeyTable.ofEntries?]
  | some es =>
    rw [he] at hn hp
    rw [codeTable?_read (expand_ok data h he) (read?_expand data hi h he)]
    exact m.record.keyCode_table? hn hp

/-- The code of an item with entries carries them in four places, in their order: as variants, in
the list of all variants, and as arms of the matches that give keys and names of fields. Among
distinct fields the table that the code stands for is the table of the entries. -/
theorem expansion_carries_entries {ts : List Token} {i : Item} {es : List Entry} (data : Bool)
    (hi : Item.ofTokens? ts = some i) (he : i.entries? = some es) :
    ∃ code k, (i.expand data).result = .ok code ∧ KeyCode.read? code = some k ∧
      k.name = unescape i.name ++ "CodingKeys".toList ∧
      k.variants = es.map Entry.field ∧ k.all = es.map Entry.field ∧
      List.Forall₂ (fun e arm => arm.1 = e.field ∧ e.Spelled arm.2) es k.keys ∧
      List.Forall₂ (fun e arm => arm.1 = e.field ∧ ∃ text, arm.2 = [.literal text] ∧
        stringValue? text = some (unescape e.field)) es k.fieldNames ∧
      ((es.map Entry.field).Nodup →
        k.variants.Nodup ∧
        (∀ v ∈ k.variants, k.all.count v = 1 ∧ (k.keys.map Prod.fst).count v = 1 ∧
          (k.fieldNames.map Prod.fst).count v = 1) ∧
        ((∀ e ∈ es, e.PlainKey) →
          ∃ table, KeyTable.ofEntries? es = some table ∧ k.table? = some table)) := by
  obtain ⟨m, hm, hes⟩ := Item.entries?_some he
  obtain ⟨-, -, hname, -⟩ := Item.record_ok (Item.mapping_ok hm).1
  refine ⟨_, _, Item.expand_ok data hm hes, Item.read?_expand data hi hm hes, ?_, rfl, rfl, ?_, ?_,
    fun hn => ⟨hn, fun v hv => ?_, fun hp => ?_⟩⟩
  · rw [Record.keyCode, hname]
    rfl
  · rw [Record.keyCode, List.forall₂_map_right_iff, List.forall₂_same]
    exact fun e _ => ⟨rfl, e.keyLexemes_spelled⟩
  · rw [Record.keyCode, List.forall₂_map_right_iff, List.forall₂_same]
    exact fun e _ => ⟨rfl, _, rfl, stringValue?_quote _⟩
  · have hc : (es.map Entry.field).count v = 1 := List.count_eq_one_of_mem hn hv
    have hk : ∀ value : Entry → List Lexeme,
        (es.map fun e => (e.field, value e)).map Prod.fst = es.map Entry.field := by
      intro value
      rw [List.map_map]
      rfl
    simp only [Record.keyCode, hk, hc, and_self]
  · obtain ⟨t, ht⟩ := KeyTable.ofEntries?_isSome hp
    exact ⟨t, ht, by rw [m.record.keyCode_table? hn hp, ht]⟩

theorem expansion_carries_entries_row :
    ∃ i code k, Item.ofText?
        "struct Row \x7b r#type: u8, #[coding_key = \"id\"] userID: u8, lastName: u8 \x7d".toList = some i ∧
      (i.expand true).result = .ok code ∧ KeyCode.read? code = some k ∧
      k.name = "RowCodingKeys".toList ∧
      k.variants = ["r#type".toList, "userID".toList, "lastName".toList] ∧
      k.table? = some [⟨"type".toList, "type".toList⟩, ⟨"userID".toList, "id".toList⟩,
        ⟨"lastName".toList, "last_name".toList⟩] := by
  have h : (Item.ofText?
      "struct Row \x7b r#type: u8, #[coding_key = \"id\"] userID: u8, lastName: u8 \x7d".toList).bind
      (fun i => i.entries?.map (i.name, ·)) = some ("Row".toList, [⟨"r#type".toList, none⟩,
        ⟨"userID".toList, some (.custom ⟨.literal,
          [⟨.literal "\"id\"".toList, ⟨⟨1, 40⟩, ⟨1, 44⟩⟩⟩]⟩)⟩,
        ⟨"lastName".toList, some (.derived "last_name".toList)⟩]) := by
    decide +kernel
  obtain ⟨i, hi, he⟩ := Option.bind_eq_some_iff.mp h
  obtain ⟨es, he, hes⟩ := Option.map_eq_some_iff.mp he
  obtain ⟨hname, rfl⟩ := Prod.mk.inj hes
  obtain ⟨ts, -, ht⟩ := Option.bind_eq_some_iff.mp hi
  obtain ⟨code, k, hc, hk, hn, hv, -, -, -, hh⟩ := expansion_carries_entries true ht he
  obtain ⟨-, -, htable⟩ := hh (by decide)
  obtain ⟨table, ho, hk'⟩ := htable (by
    intro e hm x hx
    simp only [List.mem_cons, List.not_mem_nil, or_false] at hm
    rcases hm with rfl | rfl | rfl
    · simp at hx
    · obtain rfl := Key.custom.inj (Option.some.inj hx)
      exact ⟨"id".toList, rfl, by decide⟩
    · simp at hx)
  refine ⟨i, code, k, hi, hc, hk, ?_, hv, ?_⟩
  · rw [hn, hname]
    decide
  · rw [hk', ← ho]
    decide

end FieldKeys
