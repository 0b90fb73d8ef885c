import FieldKeys.Proofs.ItemPlaces
import FieldKeys.Proofs.RespelledCode
import FieldKeys.Proofs.Rows

/-! No key depends on raw marks: an item is accepted with any of its names respelled, and the tables
that its code stands for stay the same. -/

namespace FieldKeys

/-- The row of an entry where `value` says, for the field, what text the lexemes of a key stand for. -/
def Entry.rowBy? (value : Text → List Lexeme → Option Text) (e : Entry) : Option Row :=
  (value (unescape e.field) e.keyLexemes).map fun key => ⟨unescape e.field, key⟩

/-- The row of a variant as the two matches give it, with `value` for its key. -/
def KeyCode.rowBy? (value : Text → List Lexeme → Option Text) (k : KeyCode) (variant : Text) :
    Option Row :=
  ((bodyOf? k.fieldNames variant).bind literalValue?).bind fun field =>
    ((bodyOf? k.keys variant).bind (value field)).map fun key => ⟨field, key⟩

/-- The table that the code stands for where keys may be any expressions. -/
def KeyCode.tableBy? (value : Text → List Lexeme → Option Text) (k : KeyCode) : Option KeyTable :=
  k.all.mapM (k.rowBy? value)

theorem KeyCode.tableBy?_literal (k : KeyCode) : k.tableBy? (fun _ => literalValue?) = k.table? := rfl

theorem Record.keyCode_tableBy? (r : Record) {es : List Entry} (hn : (es.map Entry.field).Nodup)
    (value : Text → List Lexeme → Option Text) :
    (r.keyCode es).tableBy? value = es.mapM (Entry.rowBy? value) := by
  refine mapM_forall₂ (List.forall₂_map_left_iff.mpr (List.forall₂_same.mpr fun e he => ?_))
  rw [KeyCode.rowBy?, keyCode, bodyOf?_map hn Entry.fieldLexemes he, bodyOf?_map hn Entry.keyLexemes he,
    Option.bind_some, Entry.literalValue?_fieldLexemes, Option.bind_some, Option.bind_some]
  rfl

theorem KeyTable.ofEntries?_eq_mapM (es : List Entry) :
    KeyTable.ofEntries? es = es.mapM Entry.row? := by
  induction es with
  | nil => rfl
  | cons e es ih =>
    rw [ofEntries?, List.mapM_cons, ih]
    cases e.row? with
    | none => rfl
    | some row => cases es.mapM Entry.row? <;> rfl

theorem Entry.SameKey.rowBy? {e e' : Entry} (h : e.SameKey e')
    (value : Text → List Lexeme → Option Text) : e.rowBy? value = e'.rowBy? value := by
  rw [Entry.rowBy?, Entry.rowBy?, h.field, h.keyLexemes]

theorem Entry.SameKey.row? {e e' : Entry} (h : e.SameKey e') : e.row? = e'.row? := by
  rw [← e.row?_unplaced, ← e'.row?_unplaced]
  unfold Entry.row? Entry.keyText? Entry.unplaced
  rw [h.key, h.field]

/-- No field is found under a name with a raw mark. -/
def KeyTable.RawUnknown (t : KeyTable) : Prop :=
  ∀ rest, KeyTable.fromFieldName t (rawMark ++ rest) = .error (.unknownField (rawMark ++ rest)) ∧
    KeyTable.keyForField t (rawMark ++ rest) = none

theorem fields_of_rows {row : Entry → Option Row}
    (hr : ∀ e r, row e = some r → r.field = unescape e.field) {es : List Entry} {t : KeyTable}
    (h : es.mapM row = some t) :
    t.map Row.field = es.map fun e => unescape e.field := by
  induction es generalizing t with
  | nil =>
    obtain rfl := Option.some.inj h
    rfl
  | cons e es ih =>
    rw [List.mapM_cons] at h
    obtain ⟨r, he, h⟩ := Option.bind_eq_some_iff.mp h
    obtain ⟨rows, hes, h⟩ := Option.bind_eq_some_iff.mp h
    obtain rfl := Option.some.inj h
    rw [List.map_cons, List.map_cons, hr e r he, ih hes]

theorem Entry.row?_field {e : Entry} {r : Row} (h : e.row? = some r) : r.field = unescape e.field := by
  obtain ⟨key, -, rfl⟩ := Option.map_eq_some_iff.mp h
  rfl

theorem Entry.rowBy?_field (value : Text → List Lexeme → Option Text) {e : Entry} {r : Row}
    (h : e.rowBy? value = some r) : r.field = unescape e.field := by
  obtain ⟨key, -, rfl⟩ := Option.map_eq_some_iff.mp h
  rfl

/-- A table with the names of the fields of an item knows none with a raw mark. -/
theorem Item.rawUnknown {text : Text} {i : Item} {m : Mapping} (hi : Item.ofText? text = some i)
    (hm : i.mapping.result = .ok m) {row : Entry → Option Row}
    (hr : ∀ e r, row e = some r → r.field = unescape e.field) {t : KeyTable}
    (ht : (m.entries.getD []).mapM row = some t) : KeyTable.RawUnknown t := by
  have hfields : t.map Row.field = i.kept.map fun f => unescape f.name := by
    have hh := congrArg (List.map unescape) (entries_names hm)
    rw [List.map_map, List.map_map] at hh
    exact (fields_of_rows hr ht).trans hh
  intro rest
  have hraw : rawMark ++ rest ∉ t.map Row.field := hfields ▸ raw_name hi rest
  exact ⟨KeyTable.fromFieldName_unknown hraw, KeyTable.keyForField_unknown hraw⟩

/-- Items with the same style and, entry by entry, with the same keys. -/
structure Item.SameKeys (i j : Item) : Prop where
  style : ∃ s, i.HasStyle s ∧ j.HasStyle s
  entries : Option.Rel (List.Forall₂ Entry.SameKey) i.entries? j.entries?
  table : KeyTable.ofEntries? (i.entries?.getD []) = KeyTable.ofEntries? (j.entries?.getD [])
  unknown : ∀ t, KeyTable.ofEntries? (i.entries?.getD []) = some t → KeyTable.RawUnknown t

/-- Code of two items that is the same but for names: those of the fields as variants, and those of
the items. Among distinct fields it stands for the same table, whatever the keys stand for. -/
structure Item.SameCode (i j : Item) (code code' : List Lexeme) (k k' : KeyCode) : Prop where
  read : KeyCode.read? code = some k
  read' : KeyCode.read? code' = some k'
  name : k.name = unescape i.name ++ "CodingKeys".toList
  name' : k'.name = k.name
  variants : k.variants = i.kept.map Field.name
  variants' : k'.variants = j.kept.map Field.name
  respelled : ∃ rest rest', code = documentation i.name ++ rest ∧
    code' = documentation j.name ++ rest' ∧
    RespelledCode (codeNames i.name k.variants) (codeNames j.name k'.variants) rest rest'
  table : (i.kept.map fun f => unescape f.name).Nodup → ∀ value,
    k.tableBy? value = k'.tableBy? value ∧ ∀ t, k.tableBy? value = some t → KeyTable.RawUnknown t

theorem option_forall₂_getD {α β : Type} {R : α → β → Prop} {as : Option (List α)}
    {bs : Option (List β)} (h : Option.Rel (List.Forall₂ R) as bs) :
    List.Forall₂ R (as.getD []) (bs.getD []) := by
  cases h with
  | none => exact .nil
  | some h => exact h

theorem Entry.SameKey.congr {e e' e'' : Entry} (h : e.SameKey e') (hu : e'.unplaced = e''.unplaced) :
    e.SameKey e'' :=
  ⟨(congrArg (fun x => unescape x.field) hu).symm.trans h.field,
    (congrArg Entry.key hu).symm.trans h.key⟩

theorem sameKeys_unplaced {es? es'? es''? : Option (List Entry)}
    (h : Option.Rel (List.Forall₂ Entry.SameKey) es? es'?)
    (hu : es'?.map (List.map Entry.unplaced) = es''?.map (List.map Entry.unplaced)) :
    Option.Rel (List.Forall₂ Entry.SameKey) es? es''? := by
  cases h with
  | none =>
    obtain rfl := Option.map_eq_none_iff.mp hu.symm
    exact .none
  | some h =>
    obtain ⟨es'', rfl, he⟩ := Option.map_eq_some_iff.mp hu.symm
    refine .some ((forall₂_comp h (forall₂_map_eq_iff.mpr he.symm)).imp fun e e'' hh => ?_)
    obtain ⟨e', hs, hu⟩ := hh
    exact hs.congr hu

/-- An item and the same item respelled have the same keys, wherever the tokens stand. -/
theorem Item.sameKeys_respelled {text : Text} {i j : Item} {m : Mapping} {name : Text}
    {fields : List Field} (hi : Item.ofText? text = some i) (hm : i.mapping.result = .ok m)
    (hf : List.Forall₂ Field.Respelled i.fields fields) (hj : (i.respelled name fields).Alike j) :
    i.SameKeys j := by
  obtain ⟨m', hm', ⟨ds, hr⟩, hes⟩ := (@mapping_respelled i name fields hf).exists_ok hm
  obtain ⟨m'', hm'', hra, hu⟩ := hj.mapping.result.exists_ok hm'
  have hstyle : m''.record.style = m.record.style := by rw [← hra.style, hr]
  have hsame := sameKeys_unplaced hes hu
  have hs := hasStyle (record_ok (mapping_ok hm).1).2.1
  have hs' := hasStyle (record_ok (mapping_ok hm'').1).2.1
  rw [hstyle] at hs'
  refine ⟨⟨_, hs, hs'⟩, ?_, ?_, fun t ht => ?_⟩
  · rwa [entries?_of_mapping hm, entries?_of_mapping hm'']
  · rw [entries?_of_mapping hm, entries?_of_mapping hm'', KeyTable.ofEntries?_eq_mapM,
      KeyTable.ofEntries?_eq_mapM]
    exact mapM_forall₂ ((option_forall₂_getD hsame).imp fun _ _ he => he.row?)
  · rw [entries?_of_mapping hm, KeyTable.ofEntries?_eq_mapM] at ht
    exact rawUnknown hi hm (fun _ _ => Entry.row?_field) ht

/-- The code of an item with fields that get keys, and that of the same item respelled. -/
theorem Item.sameCode_respelled {text : Text} {ts us : List Token} {i : Item} {m : Mapping}
    {name : Text} {fields : List Field} {es : List Entry} (data : Bool) (hi : Item.ofText? text = some i)
    (ht : Item.ofTokens? ts = some i) (hu : Item.ofTokens? us = some (i.respelled name fields))
    (hm : i.mapping.result = .ok m) (he : m.entries = some es) (hn : unescape name = unescape i.name)
    (hf : List.Forall₂ Field.Respelled i.fields fields) :
    ∃ code' k k', ((i.respelled name fields).expand data).result = .ok code' ∧
      i.SameCode (i.respelled name fields) (m.record.expansion data es) code' k k' := by
  obtain ⟨m', hm', ⟨ds, hr⟩, hes⟩ := (@mapping_respelled i name fields hf).exists_ok hm
  rw [he] at hes
  obtain ⟨es', he', hes⟩ := exists_of_option_rel hes rfl
  obtain ⟨-, -, hname, -⟩ := record_ok (mapping_ok hm).1
  have hk : m'.record.keysName = m.record.keysName := by
    rw [Record.keysName, Record.keysName, hr, keysName, keysName, hname, hn]
  have hname' : m'.record.name = name := by rw [hr]
  have hvariants : es.map Entry.field = i.kept.map Field.name := by
    simpa only [he, Option.getD_some] using entries_names hm
  have hvariants' : es'.map Entry.field = (i.respelled name fields).kept.map Field.name := by
    simpa only [he', Option.getD_some] using entries_names hm'
  have hnames : (es.map Entry.field).map unescape = (es'.map Entry.field).map unescape := by
    rw [List.map_map, List.map_map]
    exact forall₂_map_eq_iff.mp (hes.imp fun _ _ he => he.field.symm)
  refine ⟨_, _, _, expand_ok data hm' he', read?_expand data ht hm he, read?_expand data hu hm' he',
    congrArg keysName hname, Lexeme.word.inj hk, hvariants, hvariants', ?_, fun hd value => ?_⟩
  · rw [← hname, ← show m'.record.name = (i.respelled name fields).name from hname']
    exact Record.expansion_respelled data hk (by rw [hr]) (by rw [hr]) hes
  · have hplain : ((es.map Entry.field).map unescape).Nodup := by
      rwa [hvariants, List.map_map]
    have hmarked : ((es'.map Entry.field).map unescape).Nodup := hnames ▸ hplain
    rw [m.record.keyCode_tableBy? hplain.of_map, m'.record.keyCode_tableBy? hmarked.of_map]
    refine ⟨mapM_forall₂ (hes.imp fun _ _ he => he.rowBy? value), fun t htable => ?_⟩
    have hrows : (m.entries.getD []).mapM (Entry.rowBy? value) = some t := by rwa [he]
    exact rawUnknown hi hm (fun _ _ => Entry.rowBy?_field value) hrows

/-- An item whose fields are all ignored has no code, respelled or not. -/
theorem Item.noCode_respelled {i : Item} {m : Mapping} {name : Text} {fields : List Field} (data : Bool)
    (hm : i.mapping.result = .ok m) (he : m.entries = none)
    (hf : List.Forall₂ Field.Respelled i.fields fields) :
    i.kept = [] ∧ (i.expand data).result = .ok [] ∧
      ((i.respelled name fields).expand data).result = .ok [] := by
  obtain ⟨m', hm', -, hes⟩ := (@mapping_respelled i name fields hf).exists_ok hm
  have hkept := mapping_kept hm
  rw [he] at hes hkept
  have he' : m'.entries = none := by
    cases hes' : m'.entries with
    | none => rfl
    | some es' =>
      rw [hes'] at hes
      cases hes
  refine ⟨List.forall₂_nil_right_iff.mp hkept, ?_, ?_⟩
  · simp only [expand, hm, he, Except.map]
  · simp only [expand, hm', he', Except.map]

/-- Raw marks never change a key. However the fields of an accepted item are chosen of which the names
are respelled, and whether or not its own name is, the item is accepted with the same style and the
same keys, and its code stands for the same table, in which no name with a raw mark is found. In the
code the variants alone keep the marks of the fields, the documentation and the owner of the keys
that of the item. An underscore alone is no name that could be marked. -/
theorem raw_marks_change_no_key {text : Text} {ts : List Token} {i : Item} {code : List Lexeme}
    {name : Text} {fields : List Field} (data : Bool) (hs : Token.scan? text = some ts)
    (hi : Item.ofTokens? ts = some i) (hx : (i.expand data).result = .ok code)
    (hn : Respelled i.name name) (hf : List.Forall₂ Field.Respelled i.fields fields) :
    ∃ us, Respelling (i.name :: i.fields.map Field.name) (name :: fields.map Field.name) ts us ∧
      ∀ ts', ts'.map (·.lexeme) = us.map (·.lexeme) → ∃ j code',
        Item.ofTokens? ts' = some j ∧ j.unplaced = (i.respelled name fields).unplaced ∧
        (j.expand data).result = .ok code' ∧ i.SameKeys j ∧
        (i.kept = [] ∧ code = [] ∧ code' = [] ∨
          ∃ k k', i.SameCode (i.respelled name fields) code code' k k') := by
  obtain ⟨us, hrespelling, hu⟩ := Item.ofTokens?_respelled hi hn hf
  have ht : Item.ofText? text = some i := Option.bind_eq_some_iff.mpr ⟨ts, hs, hi⟩
  obtain ⟨m, hm⟩ := Item.mapping_of_expand hx
  refine ⟨us, hrespelling, fun ts' hts => ?_⟩
  have halike := Item.ofTokens?_alike (alike_of_unplaced (Token.map_unplaced_eq_iff.mpr hts.symm))
  obtain ⟨j, hj, hplaces⟩ := exists_of_option_rel halike hu
  have hj' := Item.alike_of_unplaced hplaces
  have hkeys := Item.sameKeys_respelled ht hm hf hj'
  have hcode := (hj'.expand data).result
  cases he : m.entries with
  | none =>
    obtain ⟨hkept, hnone, hnone'⟩ := Item.noCode_respelled data hm he hf
    obtain ⟨code', hcode', rfl⟩ := hcode.exists_ok hnone'
    obtain rfl := Except.ok.inj (hnone.symm.trans hx)
    exact ⟨j, _, hj, hplaces.symm, hcode', hkeys, .inl ⟨hkept, rfl, rfl⟩⟩
  | some es =>
    obtain ⟨_, k, k', hrespelled, hsame⟩ :=
      Item.sameCode_respelled data ht hi hu hm he hn.unescape hf
    obtain ⟨code', hcode', rfl⟩ := hcode.exists_ok hrespelled
    obtain rfl := Except.ok.inj ((Item.expand_ok data hm he).symm.trans hx)
    exact ⟨j, _, hj, hplaces.symm, hcode', hkeys, .inr ⟨k, k', hsame⟩⟩

theorem raw_marks_change_no_key_row :
    ∃ ts us j code k, Token.scan? ("struct Row \x7b #[coding_key = \"id\"] userID: u8, ".toList ++
        "r#type: u8, r#maxSize: u8 \x7d".toList) = some ts ∧
      Respelling ["Row".toList, "userID".toList, "r#type".toList, "r#maxSize".toList]
        ["r#Row".toList, "r#userID".toList, "r#type".toList, "maxSize".toList] ts us ∧
      Item.ofTokens? us = some j ∧ (j.expand true).result = .ok code ∧ KeyCode.read? code = some k ∧
      k.name = "RowCodingKeys".toList ∧
      k.variants = ["r#userID".toList, "r#type".toList, "maxSize".toList] ∧
      k.table? = some [⟨"userID".toList, "id".toList⟩, ⟨"type".toList, "type".toList⟩,
        ⟨"maxSize".toList, "max_size".toList⟩] := by
  have h : ((Item.ofText? ("struct Row \x7b #[coding_key = \"id\"] userID: u8, ".toList ++
      "r#type: u8, r#maxSize: u8 \x7d".toList)).filter fun i => (i.expand true).result.isOk).map
        (fun i => (i.name, i.codeTable? true, i.fields.map fun f => (f.name, decide f.Ignored))) =
      some ("Row".toList, some [⟨"userID".toList, "id".toList⟩, ⟨"type".toList, "type".toList⟩,
        ⟨"maxSize".toList, "max_size".toList⟩],
        [("userID".toList, false), ("r#type".toList, false), ("r#maxSize".toList, false)]) := by
    decide +kernel
  obtain ⟨i, hi, he⟩ := Option.map_eq_some_iff.mp h
  obtain ⟨hi, hx⟩ := Option.filter_eq_some_iff.mp hi
  obtain ⟨ts, hs, ht⟩ := Option.bind_eq_some_iff.mp hi
  obtain ⟨code, hx⟩ := exists_of_isOk hx
  obtain ⟨hname, he⟩ := Prod.mk.inj he
  obtain ⟨htable, hfields⟩ := Prod.mk.inj he
  obtain ⟨f, _, hf, hf', hfields'⟩ := List.map_eq_cons_iff.mp hfields
  obtain ⟨g, _, rfl, hg', hfields'⟩ := List.map_eq_cons_iff.mp hfields'
  obtain ⟨x, _, rfl, hx', hfields'⟩ := List.map_eq_cons_iff.mp hfields'
  obtain rfl := List.map_eq_nil_iff.mp hfields'
  obtain ⟨hfname, hfi⟩ := Prod.mk.inj hf'
  obtain ⟨hgname, hgi⟩ := Prod.mk.inj hg'
  obtain ⟨hxname, hxi⟩ := Prod.mk.inj hx'
  have hfi := of_decide_eq_false hfi
  have hgi := of_decide_eq_false hgi
  have hxi := of_decide_eq_false hxi
  have hid : Respelled f.name "r#userID".toList := by
    rw [hfname]
    exact .marked (by decide) (by decide)
  have hsize : Respelled x.name "maxSize".toList := by
    rw [hxname]
    exact .unmarked (by decide) (by decide)
  have hrow : Respelled i.name "r#Row".toList := by
    rw [hname]
    exact .marked (by decide) (by decide)
  obtain ⟨f', hfname', hff, hfi'⟩ : ∃ f' : Field, f'.name = "r#userID".toList ∧ f.Respelled f' ∧
      ¬ f'.Ignored := ⟨{ f with name := "r#userID".toList }, rfl, ⟨hid, rfl, rfl, rfl⟩, hfi⟩
  obtain ⟨x', hxname', hxx, hxi'⟩ : ∃ x' : Field, x'.name = "maxSize".toList ∧ x.Respelled x' ∧
      ¬ x'.Ignored := ⟨{ x with name := "maxSize".toList }, rfl, ⟨hsize, rfl, rfl, rfl⟩, hxi⟩
  have hrespelled : List.Forall₂ Field.Respelled i.fields [f', g, x'] := by
    rw [hf]
    exact .cons hff (.cons ⟨.same _, rfl, rfl, rfl⟩ (.cons hxx .nil))
  have hkept : i.kept = [f, g, x] := by simp [Item.kept, hf, hfi, hgi, hxi]
  have hkept' : (i.respelled "r#Row".toList [f', g, x']).kept = [f', g, x'] := by
    rw [Item.kept, Item.fields_respelled hrespelled]
    simp [hfi', hgi, hxi']
  obtain ⟨us, hus, hall⟩ := raw_marks_change_no_key true hs ht hx hrow hrespelled
  obtain ⟨j, code', hj, -, hx', -, hcode⟩ := hall us rfl
  rcases hcode with ⟨hn, -⟩ | ⟨k, k', hsame⟩
  · simp [hkept] at hn
  have hnodup : (i.kept.map fun f => unescape f.name).Nodup := by
    simp only [hkept, List.map_cons, List.map_nil, hfname, hgname, hxname]
    decide
  refine ⟨ts, us, j, code', k', hs, ?_, hj, hx', hsame.read', ?_, ?_, ?_⟩
  · simpa only [hname, hf, List.map_cons, List.map_nil, hfname, hgname, hxname, hfname', hxname']
      using hus
  · rw [hsame.name', hsame.name, hname]
    decide
  · rw [hsame.variants', hkept']
    simp only [List.map_cons, List.map_nil, hfname', hgname, hxname']
  · rw [← k'.tableBy?_literal, ← (hsame.table hnodup _).1, k.tableBy?_literal,
      ← Item.codeTable?_read hx hsame.read, htable]

end FieldKeys
