import FieldKeys.KeyMap
import FieldKeys.Proofs.Rows
import FieldKeys.Proofs.Shadowing

/-! The order of the fields. It decides about the order of the rows and about which of several rows
with one key is found, and about nothing else. -/

namespace FieldKeys

theorem Item.Fails.reordered {i : Item} {fields fields' : List Field} {f : Fault}
    (h : i.Fails f) (hb : i.body = .named fields) (hp : fields'.Perm fields) :
    ∃ g, (i.withFields fields').Fails g ∧ f.kind = g.kind := by
  have hn : (i.withFields fields').body ≠ .noStructure := by simp [withFields]
  have hfields : i.fields = fields := by simp [Item.fields, hb, Body.fields?]
  cases h with
  | notStructure hs => simp [hb] at hs
  | style _ hs => exact ⟨f, .style hn hs, rfl⟩
  | unreadable _ hs hf ha hu =>
    exact ⟨_, .unreadable hn hs (hp.mem_iff.mpr (hfields ▸ hf)) ha hu, rfl⟩
  | @malformed s before after x span _ hs hr hi hx _ =>
    have hmem : x ∈ fields' := hp.mem_iff.mpr (by simp [← hfields, hi])
    obtain ⟨before', y, after', hsplit, ⟨span', hy⟩, ho⟩ :=
      exists_first (p := fun y => ∃ span, Field.Malformed y span) ⟨x, hmem, span, hx⟩
    refine ⟨_, .malformed hn hs (fun g hg => hr g ?_) hsplit hy
      fun g hg span hm => ho g hg ⟨span, hm⟩, rfl⟩
    rw [hfields]
    exact hp.mem_iff.mp hg

/-- The order of the fields decides neither about acceptance nor about the kind of a fault, and not
about whether there is code at all. -/
theorem Item.expand_reordered {i : Item} {fields fields' : List Field} (data : Bool)
    (hb : i.body = .named fields) (hp : fields'.Perm fields) :
    Agree (fun code code' => code = [] ↔ code' = []) (i.expand data).result
      ((i.withFields fields').expand data).result := by
  have hback : (i.withFields fields').withFields fields = i := by
    unfold withFields
    rw [← hb]
  have hfields : i.fields = fields := by simp [Item.fields, hb, Body.fields?]
  cases hi : (i.expand data).result with
  | error f =>
    obtain ⟨g, hg, hk⟩ := (expand_eq_error_iff.mp hi).reordered hb hp
    rw [expand_eq_error_iff.mpr hg]
    exact .error hk
  | ok code =>
    cases hj : ((i.withFields fields').expand data).result with
    | error g =>
      obtain ⟨f, hf, -⟩ := (expand_eq_error_iff.mp hj).reordered rfl hp.symm
      rw [hback] at hf
      simp [expand_eq_error_iff.mpr hf] at hi
    | ok code' =>
      refine .ok ?_
      rw [expand_eq_nil_iff hi, expand_eq_nil_iff hj, hfields, withFields_fields]
      exact ⟨fun h f hf => h f (hp.mem_iff.mp hf), fun h f hf => h f (hp.mem_iff.mpr hf)⟩

theorem KeyTable.First.reordered {t t' : KeyTable} {column : Row → Text} {value : Text} {v : Variant}
    (h : KeyTable.First t column value v) (hp : t'.Perm t) (hn : (t.map column).Nodup) :
    ∃ w, KeyTable.First t' column value w ∧ w.row = v.row := by
  have hv : v.row ∈ t := List.mem_of_getElem? h.1
  have hm : value ∈ t'.map column := by
    rw [← h.2.1]
    exact List.mem_map_of_mem (hp.mem_iff.mpr hv)
  obtain ⟨w, hw⟩ := exists_first_iff.mpr hm
  have hwt : w.row ∈ t := hp.mem_iff.mp (List.mem_of_getElem? hw.1)
  exact ⟨w, hw, List.inj_on_of_nodup_map hn hwt hv (hw.2.1.trans h.2.1.symm)⟩

theorem KeyTable.fromKey_reordered {t t' : KeyTable} (hp : t'.Perm t) (hn : (t.map Row.key).Nodup)
    (key : Text) :
    (KeyTable.fromKey t' key).map Variant.row = (KeyTable.fromKey t key).map Variant.row := by
  cases h : KeyTable.fromKey t key with
  | ok v =>
    obtain ⟨w, hw, he⟩ := (fromKey_eq_ok_iff.mp h).reordered hp hn
    rw [fromKey_eq_ok_iff.mpr hw]
    exact congrArg Except.ok he
  | error e =>
    obtain ⟨he, hm⟩ := fromKey_eq_error_iff.mp h
    have hm' : key ∉ KeyTable.keys t' := mt (hp.map Row.key).mem_iff.mp hm
    rw [fromKey_eq_error_iff.mpr ⟨he, hm'⟩]

theorem KeyTable.keyForField_reordered {t t' : KeyTable} (hp : t'.Perm t)
    (hn : (t.map Row.field).Nodup) (name : Text) :
    KeyTable.keyForField t' name = KeyTable.keyForField t name := by
  unfold keyForField
  cases h : KeyTable.fromFieldName t name with
  | ok v =>
    obtain ⟨w, hw, he⟩ := (fromFieldName_eq_ok_iff.mp h).reordered hp hn
    rw [fromFieldName_eq_ok_iff.mpr hw]
    exact congrArg (some ∘ Row.key) he
  | error e =>
    obtain ⟨he, hm⟩ := fromFieldName_eq_error_iff.mp h
    have hm' : name ∉ t'.map Row.field := mt (hp.map Row.field).mem_iff.mp hm
    rw [fromFieldName_eq_error_iff.mpr ⟨he, hm'⟩]

/-- A record with its fields in another order is accepted as before, or has a fault of the same kind.
Its rows are those of its fields, in the new order; every name has the same key, and among distinct
keys every string leads to the same row or to the same error. -/
theorem field_order_is_row_order {text text' : Text} {i j : Item} {fields fields' : List Field}
    (data : Bool) (hi : Item.ofText? text = some i) (hj : Item.ofText? text' = some j)
    (hb : i.body = .named fields) (hp : fields'.Perm fields)
    (hm : j.unplaced = (i.withFields fields').unplaced)
    (hn : (fields.map fun f => unescape f.name).Nodup) :
    Agree (fun code code' => code = [] ↔ code' = []) (i.expand data).result
      (j.expand data).result ∧
    ∀ code, (i.expand data).result = .ok code →
      (∀ f ∈ fields, ¬ f.Ignored → ∀ a, f.customAttribute? = some a →
        ∃ key, a.form.KeyLiteral key) →
      ∃ (s : Style) (row : Field → Row) (t t' : KeyTable), i.HasStyle s ∧
        (∀ f ∈ fields, ¬ f.Ignored → (row f).field = unescape f.name ∧ f.HasKey s (row f).key) ∧
        i.codeTable? data = some t ∧ t = (fields.filter fun f => ¬ f.Ignored).map row ∧
        j.codeTable? data = some t' ∧ t' = (fields'.filter fun f => ¬ f.Ignored).map row ∧
        (∀ name, KeyTable.keyForField t' name = KeyTable.keyForField t name) ∧
        ((KeyTable.keys t).Nodup → ∀ key,
          (KeyTable.fromKey t' key).map Variant.row = (KeyTable.fromKey t key).map Variant.row ∧
          (KeyTable.deserialize t' (.text key)).map Variant.row =
            (KeyTable.deserialize t (.text key)).map Variant.row) := by
  obtain ⟨ts, -, hti⟩ := Option.bind_eq_some_iff.mp hi
  obtain ⟨ts', -, htj⟩ := Option.bind_eq_some_iff.mp hj
  have hfields : i.fields = fields := by simp [Item.fields, hb, Body.fields?]
  have halike := Item.alike_of_unplaced hm
  have horder := Item.expand_reordered data hb hp
  refine ⟨horder.trans_eq (halike.expand data).result.symm, fun code hx hl => ?_⟩
  obtain ⟨m, hmi⟩ := Item.mapping_of_expand hx
  obtain ⟨code', hx', -⟩ := horder.exists_ok hx
  obtain ⟨m', hmk⟩ := Item.mapping_of_expand hx'
  have hs : Style.ofAttributes i.attributes = .ok m.record.style :=
    (Item.record_ok (Item.mapping_ok hmi).1).2.1
  have hs' : m'.record.style = m.record.style := Item.style_of_mapping hmk hs
  obtain ⟨row, hrow⟩ := Field.exists_row m.record.style hl
  have hn' : (fields'.map fun f => unescape f.name).Nodup := (hp.map _).nodup_iff.mpr hn
  have ht : i.codeTable? data = some ((fields.filter fun f => ¬ f.Ignored).map row) := by
    have hh := (Item.alike_of_unplaced (i := i) rfl).codeTable? data hti hmi
      (Item.kept_nodup (hfields ▸ hn)) (hfields ▸ hrow)
    rwa [Item.kept, hfields] at hh
  have ht' : j.codeTable? data = some ((fields'.filter fun f => ¬ f.Ignored).map row) :=
    (Item.alike_of_unplaced hm.symm).codeTable? data htj hmk (Item.kept_nodup hn')
      fun f hf => by
        rw [hs']
        exact hrow f (hp.mem_iff.mp hf)
  have hperm := (hp.filter fun f => ¬ f.Ignored).map row
  have hnames : (((fields.filter fun f => ¬ f.Ignored).map row).map Row.field).Nodup := by
    have hh : ((fields.filter fun f => ¬ f.Ignored).map row).map Row.field =
        (fields.filter fun f => ¬ f.Ignored).map fun f => unescape f.name := by
      rw [List.map_map]
      refine List.map_congr_left fun f hf => ?_
      obtain ⟨hf, hi⟩ := List.mem_filter.mp hf
      exact (hrow f hf (by simpa using hi)).1
    rw [hh]
    exact hn.sublist (List.filter_sublist.map _)
  refine ⟨m.record.style, row, _, _, Item.hasStyle hs, hrow, ht, rfl, ht', rfl,
    KeyTable.keyForField_reordered hperm hnames, fun hk key => ?_⟩
  have hh := KeyTable.fromKey_reordered hperm hk key
  exact ⟨hh, hh⟩

theorem field_order_is_row_order_row :
    ∃ i j t t', Item.ofText? ("struct Row \x7b #[coding_key = \"id\"] userID: u8, lastName: u8, ".toList ++
        "#[coding_key_ignored] old: u8 \x7d".toList) = some i ∧
      Item.ofText? ("struct Row \x7b #[coding_key_ignored] old: u8, lastName: u8, ".toList ++
        "#[coding_key = \"id\"] userID: u8 \x7d".toList) = some j ∧
      i.codeTable? true = some t ∧ j.codeTable? true = some t' ∧
      t.map Row.field = ["userID".toList, "lastName".toList] ∧ t' = t.reverse ∧
      ∀ name, KeyTable.keyForField t' name = KeyTable.keyForField t name := by
  let key := attributeOf "coding_key" (.value ⟨.literal, [(Lexeme.literal "\"id\"".toList).token]⟩)
  let ignored := attributeOf "coding_key_ignored" .bare
  let fields := [fieldOf [key] [] "userID" "u8", fieldOf [] [] "lastName" "u8",
    fieldOf [ignored] [] "old" "u8"]
  have h : (Item.ofText? ("struct Row \x7b #[coding_key = \"id\"] userID: u8, lastName: u8, ".toList ++
      "#[coding_key_ignored] old: u8 \x7d".toList)).map (fun i =>
        ((i.unplaced, (i.expand true).result.isOk),
          i.fields.map (fun f => (unescape f.name, decide f.Ignored)),
          i.fields.filterMap fun f => f.customAttribute?.map Attribute.form)) =
      some ((rowOf fields, true),
        [("userID".toList, false), ("lastName".toList, false), ("old".toList, true)],
        [.value ⟨.literal, [⟨.literal "\"id\"".toList, ⟨⟨1, 28⟩, ⟨1, 32⟩⟩⟩]⟩]) := by
    decide +kernel
  have h' : (Item.ofText? ("struct Row \x7b #[coding_key_ignored] old: u8, lastName: u8, ".toList ++
      "#[coding_key = \"id\"] userID: u8 \x7d".toList)).map Item.unplaced =
      some (rowOf fields.reverse) := by
    decide +kernel
  obtain ⟨i, hi, h⟩ := Option.map_eq_some_iff.mp h
  obtain ⟨j, hj, hj'⟩ := Option.map_eq_some_iff.mp h'
  obtain ⟨hchecks, h⟩ := Prod.mk.inj h
  obtain ⟨hi', hx⟩ := Prod.mk.inj hchecks
  obtain ⟨hnames, hforms⟩ := Prod.mk.inj h
  obtain ⟨code, hx⟩ := exists_of_isOk hx
  have hplaced : j.unplaced = (i.withFields i.fields.reverse).unplaced := by
    rw [Item.unplaced_withFields, List.map_reverse, ← Item.fields_unplaced, hi', hj']
    rfl
  have hb := i.body_eq_named fun hf => by simp [hf] at hnames
  have hn : (i.fields.map fun f => unescape f.name).Nodup := by
    have hh := congrArg (List.map Prod.fst) hnames
    rw [List.map_map] at hh
    exact (show (i.fields.map fun f => unescape f.name) = _ from hh) ▸ by decide
  have hl := Field.keyLiteral_of_forms hforms fun form hform => by
    obtain rfl := List.mem_singleton.mp hform
    exact ⟨"id".toList, .value ⟨rfl, by decide⟩⟩
  have hkept : (i.fields.filter fun f => ¬ f.Ignored).map (fun f => unescape f.name) =
      ["userID".toList, "lastName".toList] := by
    have hh := congrArg (fun l => (l.filter fun x => ¬ x.2).map Prod.fst) hnames
    simpa [List.filter_map, Function.comp_def] using hh
  obtain ⟨-, hh⟩ := field_order_is_row_order true hi hj hb (List.reverse_perm _)
    hplaced hn
  obtain ⟨s, row, t, t', -, hrow, ht, rfl, ht', rfl, hkey, -⟩ := hh code hx hl
  refine ⟨i, j, _, _, hi, hj, ht, ht', ?_, ?_, hkey⟩
  · rw [← hkept, List.map_map]
    refine List.map_congr_left fun f hf => ?_
    obtain ⟨hf, hi⟩ := List.mem_filter.mp hf
    exact (hrow f hf (by simpa using hi)).1
  · rw [List.filter_reverse, List.map_reverse]

end FieldKeys
