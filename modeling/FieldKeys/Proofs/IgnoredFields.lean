import FieldKeys.Proofs.SameOutcome

/-! Fields that are ignored leave no trace but a note: without them an item comes to the same
entries, code and faults. -/

namespace FieldKeys

def Note.isSkip : Note → Bool
  | .skipped _ => true
  | _ => false

/-- The item with the fields that are not ignored, as they stand. -/
def Item.withoutIgnored (i : Item) : Item :=
  match i.body with
  | .named fields => { i with body := .named (fields.filter fun f => ¬ f.Ignored) }
  | _ => i

/-- The first malformed field, what stands before it, and the place of its fault. -/
def Field.FirstMalformed (fields before : List Field) (f : Field) (span : Span) : Prop :=
  (∃ after, fields = before ++ f :: after) ∧ f.Malformed span ∧
    ∀ g ∈ before, ∀ span, ¬ g.Malformed span

theorem Item.withoutIgnored_fields? (i : Item) :
    i.withoutIgnored.body.fields? = i.body.fields?.map (List.filter fun f => ¬ f.Ignored) := by
  unfold withoutIgnored
  cases hb : i.body <;> simp [hb, Body.fields?]

theorem Item.withoutIgnored_fields (i : Item) : i.withoutIgnored.fields = i.kept := by
  rw [fields, withoutIgnored_fields?, kept, fields]
  cases i.body.fields? <;> rfl

theorem Item.withoutIgnored_others (i : Item) :
    i.withoutIgnored.attributes = i.attributes ∧ i.withoutIgnored.visibility = i.visibility ∧
      i.withoutIgnored.name = i.name ∧ i.withoutIgnored.generics = i.generics ∧
      i.withoutIgnored.span = i.span := by
  unfold withoutIgnored
  cases i.body <;> exact ⟨rfl, rfl, rfl, rfl, rfl⟩

/-- A field that is not ignored is not skipped, whatever its attributes ask for. -/
theorem Declaration.resolve_isSome (s : Style) {d : Declaration} (hi : ¬ d.Ignored)
    {disposition : Disposition} (hr : d.resolve = .ok disposition) :
    ∃ e, Entry.of s d.name disposition = some e := by
  by_cases hm : ∀ span, ¬ d.Malformed span
  · obtain ⟨disposition', e, hr', he, -⟩ := resolve_gives s hi hm
    obtain rfl := Except.ok.inj (hr.symm.trans hr')
    exact ⟨e, he⟩
  · obtain ⟨span, hm⟩ := not_forall_not.mp hm
    simp [resolve_malformed hm] at hr

theorem Style.entries_kept (s : Style) (ds : List Declaration) :
    s.entries (ds.filter fun d => ¬ d.Ignored) =
      ⟨(s.entries ds).notes.filter fun n => !n.isSkip, (s.entries ds).result⟩ := by
  induction ds with
  | nil => rfl
  | cons d ds ih =>
    by_cases hi : d.Ignored
    · rw [List.filter_cons_of_neg (by simpa using hi), ih]
      simp [entries, Declaration.resolve_ignored hi, Entry.of, Note.isSkip]
    · rw [List.filter_cons_of_pos (by simpa using hi), entries, entries]
      cases hr : d.resolve with
      | error f => rfl
      | ok disposition =>
        obtain ⟨e, he⟩ := Declaration.resolve_isSome s hi hr
        simp only [he, ih]
        rfl

theorem Field.declarations_kept {fields : List Field} {ds : List Declaration}
    (h : Field.declarations fields = .ok ds) :
    Field.declarations (fields.filter fun f => ¬ f.Ignored) =
      .ok (ds.filter fun d => ¬ d.Ignored) := by
  have hf := kept_declarations (declarations_ok h)
  generalize fields.filter (fun f => ¬ f.Ignored) = fs at hf ⊢
  generalize ds.filter (fun d => ¬ d.Ignored) = es at hf ⊢
  induction hf with
  | nil => rfl
  | cons hd _ ih =>
    simp only [declarations, hd, ih]
    rfl

def Mapping.withoutIgnored (m : Mapping) : Mapping :=
  { m with record := { m.record with fields := m.record.fields.filter fun d => ¬ d.Ignored } }

/-- Where the attributes of all fields can be read, the mapping is the same but for what the record
declares and what is noted of ignored fields. -/
theorem Item.mapping_withoutIgnored {i : Item}
    (hr : ∀ f ∈ i.fields, ∀ a ∈ f.attributes, ¬ a.Unreadable) :
    i.withoutIgnored.mapping =
      ⟨i.mapping.notes.filter fun n => !n.isSkip, i.mapping.result.map Mapping.withoutIgnored⟩ := by
  obtain ⟨ha, hv, hn, hg, hs⟩ := i.withoutIgnored_others
  have hf := i.withoutIgnored_fields?
  unfold mapping record
  rw [ha, hv, hn, hg, hs, hf]
  cases hb : i.body.fields? with
  | none => rfl
  | some fields =>
    have hfields : i.fields = fields := by simp [Item.fields, hb]
    rw [hfields] at hr
    cases hst : Style.ofAttributes i.attributes with
    | error fault => simp [Except.map]
    | ok s =>
      cases hd : Field.declarations fields with
      | error fault =>
        obtain ⟨⟨f, hf, a, ha, hu⟩, -⟩ := Field.declarations_eq_error_iff.mp hd
        exact absurd hu (hr f hf a ha)
      | ok ds =>
        have hk := Field.declarations_kept hd
        have he := s.entries_kept ds
        simp only [Option.map_some, hk, hd, Except.map, Style.mapping, he]
        cases (s.entries ds).result with
        | error fault => simp [Note.isSkip]
        | ok es => simp [Note.isSkip, Mapping.withoutIgnored]

theorem Field.FirstMalformed.kept {i : Item} {before : List Field} {f : Field} {span : Span}
    (h : Field.FirstMalformed i.fields before f span) :
    Field.FirstMalformed i.withoutIgnored.fields (before.filter fun g => ¬ g.Ignored) f span := by
  obtain ⟨⟨after, ha⟩, hf, hb⟩ := h
  refine ⟨⟨after.filter fun g => ¬ g.Ignored, ?_⟩, hf, fun g hg => hb g (List.mem_filter.mp hg).1⟩
  rw [i.withoutIgnored_fields, Item.kept, ha, List.filter_append,
    List.filter_cons_of_pos (by simpa using hf.1)]

theorem Attribute.Idle.of_unplaced {a b : Attribute} (h : a.Idle) (hab : a.unplaced = b.unplaced) :
    b.Idle := by
  have hf := Attribute.form_congr hab
  unfold Idle at h ⊢
  rcases h with h | h <;> rw [h] at hf <;> cases hb : b.form <;>
    simp_all [Attribute.Form.unplaced]

theorem Field.Malformed.of_unplaced {f g : Field} {span : Span} (h : f.Malformed span)
    (hfg : f.unplaced = g.unplaced) : ∃ span', g.Malformed span' := by
  obtain ⟨hi, a, ha, hidle, -⟩ := h
  have hattributes : f.unplaced.attributes = g.unplaced.attributes := by rw [hfg]
  have hc := forall₂_find? (p := (·.isNamed Directive.customName))
    (q := (·.isNamed Directive.customName)) (forall₂_map_eq_iff.mpr hattributes)
    fun a b hab => Attribute.isNamed_congr hab _
  rcases option_rel_iff.mp hc with ⟨hn, -⟩ | ⟨a', b, ha', hb, hab⟩
  · exact absurd (ha.symm.trans hn) (by simp)
  · obtain rfl := Option.some.inj (ha.symm.trans ha')
    exact ⟨b.span, mt (Field.alike_of_unplaced hfg).ignored.mpr hi, b, hb, hidle.of_unplaced hab, rfl⟩

/-- The first malformed field is found in the same place where the same fields stand elsewhere. -/
theorem Field.FirstMalformed.moved {fs gs before : List Field} {f : Field} {span : Span}
    (h : Field.FirstMalformed fs before f span)
    (hfg : gs.map Field.unplaced = fs.map Field.unplaced) :
    ∃ before' g span', Field.FirstMalformed gs before' g span' ∧ g.unplaced = f.unplaced ∧
      before'.length = before.length := by
  obtain ⟨⟨after, rfl⟩, hf, hb⟩ := h
  obtain ⟨before', g, after', rfl, hbs, hg, -⟩ := forall₂_split (forall₂_map_eq_iff.mpr hfg.symm)
  obtain ⟨span', hm⟩ := hf.of_unplaced hg
  refine ⟨before', g, span', ⟨⟨after', rfl⟩, hm, fun y hy span hn => ?_⟩, hg.symm, hbs.length_eq.symm⟩
  obtain ⟨x, hx, hxy⟩ := forall₂_mem_right hbs hy
  obtain ⟨span'', hn⟩ := hn.of_unplaced hxy.symm
  exact hb x hx span'' hn

/-- Where the attributes of all fields can be read, an item without its ignored fields has the same
entries and the same code, or the same fault in the same field. Its log lacks the notes of the
ignored fields and nothing else. It is the same wherever the remaining fields stand. -/
theorem ignored_fields_erased (i : Item)
    (hr : ∀ f ∈ i.fields, ∀ a ∈ f.attributes, ¬ a.Unreadable) :
    i.withoutIgnored.mapping.result.map Mapping.entries = i.mapping.result.map Mapping.entries ∧
    (∀ data, (i.withoutIgnored.expand data).result = (i.expand data).result) ∧
    i.withoutIgnored.mapping.notes = i.mapping.notes.filter (fun n => !n.isSkip) ∧
    (∀ before f span, Field.FirstMalformed i.fields before f span →
      Field.FirstMalformed i.withoutIgnored.fields (before.filter fun g => ¬ g.Ignored) f span) ∧
    ∀ j : Item, j.unplaced = i.withoutIgnored.unplaced →
      Agree (fun x y => x.map (List.map Entry.unplaced) = y.map (List.map Entry.unplaced))
        (i.mapping.result.map Mapping.entries) (j.mapping.result.map Mapping.entries) ∧
      (∀ data, Agree Eq (i.expand data).result (j.expand data).result) ∧
      j.mapping.notes.map Note.text =
        (i.mapping.notes.filter fun n => !n.isSkip).map Note.text ∧
      ∀ before f span, Field.FirstMalformed i.fields before f span →
        ∃ before' g span', Field.FirstMalformed j.fields before' g span' ∧ g.unplaced = f.unplaced ∧
          before'.length = (before.filter fun g => ¬ g.Ignored).length := by
  have hm := Item.mapping_withoutIgnored hr
  have hentries : i.withoutIgnored.mapping.result.map Mapping.entries =
      i.mapping.result.map Mapping.entries := by
    rw [hm]
    cases i.mapping.result <;> rfl
  have hcode : ∀ data, (i.withoutIgnored.expand data).result = (i.expand data).result := by
    intro data
    simp only [Item.expand, hm]
    cases i.mapping.result <;> rfl
  have hnotes : i.withoutIgnored.mapping.notes = i.mapping.notes.filter fun n => !n.isSkip := by
    rw [hm]
  refine ⟨hentries, hcode, hnotes, fun _ _ _ h => h.kept, fun j hj => ?_⟩
  have ha := Item.alike_of_unplaced hj.symm
  refine ⟨?_, fun data => ?_, ?_, fun before f span h => ?_⟩
  · rw [← hentries]
    exact ha.mapping.result.map fun _ _ h => h.2
  · rw [← hcode]
    exact (ha.expand data).result
  · rw [← hnotes]
    exact ha.mapping.notes.symm
  · refine h.kept.moved ?_
    rw [← Item.fields_unplaced, ← Item.fields_unplaced, hj]

theorem ignored_fields_erased_row :
    ∃ i j code, Item.ofText? ("struct Row \x7b #[coding_key()] #[coding_key_ignored(x)] a: u8, ".toList ++
        "#[coding_key = \"id\"] b: u8, #[coding_key_ignored] c: u8 \x7d".toList) = some i ∧
      Item.ofText? "struct Row \x7b #[coding_key = \"id\"] b: u8 \x7d".toList = some j ∧
      (i.expand true).result = .ok code ∧ (j.expand true).result = .ok code ∧ code ≠ [] := by
  have h : (Item.ofText? ("struct Row \x7b #[coding_key()] #[coding_key_ignored(x)] a: u8, ".toList ++
      "#[coding_key = \"id\"] b: u8, #[coding_key_ignored] c: u8 \x7d".toList)).bind (fun i =>
        (Item.ofText? "struct Row \x7b #[coding_key = \"id\"] b: u8 \x7d".toList).map fun j =>
          (decide (j.unplaced = i.withoutIgnored.unplaced), (Field.declarations i.fields).isOk,
            (i.expand true).result.toOption.map List.isEmpty)) = some (true, true, some false) := by
    decide +kernel
  obtain ⟨i, hi, h⟩ := Option.bind_eq_some_iff.mp h
  obtain ⟨j, hj, h⟩ := Option.map_eq_some_iff.mp h
  obtain ⟨hij, h⟩ := Prod.mk.inj h
  obtain ⟨hd, hx⟩ := Prod.mk.inj h
  obtain ⟨ds, hd⟩ := exists_of_isOk hd
  have hr : ∀ f ∈ i.fields, ∀ a ∈ f.attributes, ¬ a.Unreadable := fun f hf a ha hu => by
    simp [Field.declarations_eq_error_iff.mpr ⟨⟨f, hf, a, ha, hu⟩, rfl⟩] at hd
  obtain ⟨-, hcode, -⟩ := (ignored_fields_erased i hr).2.2.2.2 j (of_decide_eq_true hij)
  obtain ⟨code, hc, hn⟩ := exists_code hx
  obtain ⟨code', hj', rfl⟩ := (hcode true).exists_ok hc
  exact ⟨i, j, code, hi, hj, hc, hj', hn⟩

end FieldKeys
