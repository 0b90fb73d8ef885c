import FieldKeys.Proofs.IgnoredFields
import FieldKeys.Proofs.Quoted

/-! What is noted while an item is mapped. The style is noted once, then each field in its turn, up
to the field that ends the work; so the notes that give a key are the entries of the mapping. -/

namespace FieldKeys

def Note.entry? : Note → Option Entry
  | .decided e => some e
  | _ => none

def Declaration.Noted (s : Style) (d : Declaration) (n : Note) : Prop :=
  d.Ignored ∧ n = .skipped d.name ∨ ¬ d.Ignored ∧ ∃ e, d.Gives s e ∧ n = .decided e

/-- What is noted of a field that is not malformed: that it is skipped, or its entry. -/
inductive Field.Noted (s : Style) (f : Field) : Note → Prop
  | skipped (hi : f.Ignored) : Noted s f (.skipped f.name)
  | decided {e : Entry} (hi : ¬ f.Ignored) (he : f.Gives s e) : Noted s f (.decided e)

/-- The notes of an item beside what comes of it. Nothing is noted before the style is known, and
nothing of any field before the attributes of all fields have been read. -/
inductive Item.Logs (i : Item) : Except Fault Mapping → List Note → Prop
  | notStructure (hb : i.body = .noStructure) : Logs i (.error (.notStructure i.span)) []
  | style {f : Fault} (hb : i.body ≠ .noStructure)
      (hs : Style.ofAttributes i.attributes = .error f) : Logs i (.error f) []
  | unreadable {s : Style} {f : Field} {a : Attribute} (hb : i.body ≠ .noStructure)
      (hs : Style.ofAttributes i.attributes = .ok s) (hf : f ∈ i.fields) (ha : a ∈ f.attributes)
      (hu : a.Unreadable) : Logs i (.error .illFormed) [.style s]
  | malformed {s : Style} {before : List Field} {f : Field} {span : Span} {notes : List Note}
      (hb : i.body ≠ .noStructure) (hs : Style.ofAttributes i.attributes = .ok s)
      (hr : ∀ f ∈ i.fields, ∀ a ∈ f.attributes, ¬ a.Unreadable)
      (hf : Field.FirstMalformed i.fields before f span)
      (hn : List.Forall₂ (Field.Noted s) before notes) :
      Logs i (.error (.malformedCustomKey span)) (.style s :: notes)
  | mapped {s : Style} {m : Mapping} {notes : List Note} (hb : i.body ≠ .noStructure)
      (hs : Style.ofAttributes i.attributes = .ok s)
      (hr : ∀ f ∈ i.fields, ∀ a ∈ f.attributes, ¬ a.Unreadable)
      (hn : List.Forall₂ (Field.Noted s) i.fields notes)
      (he : notes.filterMap Note.entry? = m.entries.getD []) :
      Logs i (.ok m) (.style s :: notes)

theorem map_nil_append {ε α : Type} (answer : Except ε (List α)) :
    answer.map ([] ++ ·) = answer := by
  cases answer <;> rfl

/-- One field adds its note, and its entry if it has one. -/
theorem Style.entries_cons (s : Style) {d : Declaration} (hm : ∀ span, ¬ d.Malformed span)
    (ds : List Declaration) : ∃ n, d.Noted s n ∧ s.entries (d :: ds) =
      ⟨n :: (s.entries ds).notes, (s.entries ds).result.map (n.entry?.toList ++ ·)⟩ := by
  by_cases hi : d.Ignored
  · refine ⟨.skipped d.name, .inl ⟨hi, rfl⟩, ?_⟩
    simp only [entries, Declaration.resolve_ignored hi, Entry.of, Note.entry?, Option.toList_none,
      map_nil_append]
  · obtain ⟨disposition, e, hr, he, hg⟩ := Declaration.resolve_gives s hi hm
    refine ⟨.decided e, .inr ⟨hi, e, hg, rfl⟩, ?_⟩
    simp only [entries, hr, he, Note.entry?, Option.toList_some]
    rfl

/-- The fields in front add their notes and entries to those of the fields behind them. -/
theorem Style.entries_append (s : Style) {before : List Declaration}
    (hm : ∀ d ∈ before, ∀ span, ¬ d.Malformed span) (ds : List Declaration) :
    ∃ notes, List.Forall₂ (Declaration.Noted s) before notes ∧ s.entries (before ++ ds) =
      ⟨notes ++ (s.entries ds).notes,
        (s.entries ds).result.map (notes.filterMap Note.entry? ++ ·)⟩ := by
  induction before with
  | nil =>
    refine ⟨[], .nil, ?_⟩
    rw [List.nil_append, List.nil_append, List.filterMap_nil, map_nil_append]
  | cons d before ih =>
    obtain ⟨notes, hn, he⟩ := ih fun x hx => hm x (by simp [hx])
    obtain ⟨n, hd, hc⟩ := s.entries_cons (hm d (by simp)) (before ++ ds)
    refine ⟨n :: notes, .cons hd hn, ?_⟩
    rw [List.cons_append, hc, he]
    cases (s.entries ds).result <;> cases h : n.entry? <;> simp [Except.map, h]

theorem Style.notes_malformed (s : Style) {before after : List Declaration} {d : Declaration}
    {span : Span} (hb : ∀ e ∈ before, ∀ span, ¬ e.Malformed span) (hd : d.Malformed span) :
    List.Forall₂ (Declaration.Noted s) before (s.mapping (before ++ d :: after)).notes := by
  obtain ⟨notes, hn, he⟩ := s.entries_append hb (d :: after)
  simpa [mapping, he, entries, Declaration.resolve_malformed hd] using hn

theorem Style.notes_wellFormed (s : Style) {ds : List Declaration} {es : Option (List Entry)}
    (h : (s.mapping ds).result = .ok es) :
    List.Forall₂ (Declaration.Noted s) ds (s.mapping ds).notes ∧
      (s.mapping ds).notes.filterMap Note.entry? = es.getD [] := by
  obtain ⟨notes, hn, he⟩ := s.entries_append (s.not_malformed_of_mapping_ok h) []
  rw [List.append_nil] at he
  simp only [mapping, he, entries, Except.map, List.append_nil] at h ⊢
  refine ⟨hn, ?_⟩
  obtain rfl := Except.ok.inj h
  split
  · next hh => simpa using hh
  · rfl

theorem Field.noted_of_declaration {s : Style} {f : Field} {d : Declaration} {n : Note}
    (h : f.declaration = .ok d) (hn : d.Noted s n) : f.Noted s n := by
  rcases hn with ⟨hi, rfl⟩ | ⟨hi, e, hg, rfl⟩
  · rw [(declaration_ok h).1]
    exact .skipped ((ignored_iff h).mpr hi)
  · exact .decided (mt (ignored_iff h).mp hi) ⟨d, h, hg⟩

theorem Field.noted_of_declarations {s : Style} {fs : List Field} {ds : List Declaration}
    {notes : List Note} (h : List.Forall₂ (fun f d => Field.declaration f = .ok d) fs ds)
    (hn : List.Forall₂ (Declaration.Noted s) ds notes) :
    List.Forall₂ (Field.Noted s) fs notes := by
  refine (forall₂_comp h hn).imp ?_
  rintro f n ⟨d, hd, hn⟩
  exact noted_of_declaration hd hn

theorem Item.mapping_notes_of_declarations {i : Item} {s : Style} {ds : List Declaration}
    (hb : i.body ≠ .noStructure) (hs : Style.ofAttributes i.attributes = .ok s)
    (hd : Field.declarations i.fields = .ok ds) :
    i.mapping.notes = .style s :: (s.mapping ds).notes := by
  simp [mapping, record, fields?_eq_some hb, hs, hd, Except.map]

theorem Item.logs_of_declarations {i : Item} {s : Style} {ds : List Declaration}
    (hb : i.body ≠ .noStructure) (hs : Style.ofAttributes i.attributes = .ok s)
    (hd : Field.declarations i.fields = .ok ds) : i.Logs i.mapping.result i.mapping.notes := by
  have hf := Field.declarations_ok hd
  have hr : ∀ f ∈ i.fields, ∀ a ∈ f.attributes, ¬ a.Unreadable := fun f hf a ha hu => by
    simp [Field.declarations_eq_error_iff.mpr ⟨⟨f, hf, a, ha, hu⟩, rfl⟩] at hd
  rw [mapping_notes_of_declarations hb hs hd, mapping_of_declarations hb hs hd]
  cases he : (s.mapping ds).result with
  | ok es =>
    obtain ⟨hn, hes⟩ := s.notes_wellFormed he
    exact .mapped hb hs hr (Field.noted_of_declarations hf hn) hes
  | error fault =>
    obtain ⟨before, d, after, span, rfl, hm, ho, rfl⟩ := s.malformed_of_mapping_error he
    obtain ⟨before', f, after', hi, hbf, hfd, -⟩ := forall₂_split hf.flip
    have hbf := hbf.flip
    refine .malformed hb hs hr ⟨⟨after', hi⟩, (Field.malformed_iff hfd span).mp hm, ?_⟩
      (Field.noted_of_declarations hbf (s.notes_malformed ho hm))
    intro g hg span' hn
    obtain ⟨e, he, hge⟩ := forall₂_mem_left hbf hg
    exact ho e he span' ((Field.malformed_iff hge span').mpr hn)

theorem Item.logs_mapping (i : Item) : i.Logs i.mapping.result i.mapping.notes := by
  by_cases hb : i.body = .noStructure
  · have hn : i.mapping.notes = [] := by simp [mapping, record, fields?_eq_none_iff.mpr hb]
    rw [mapping_notStructure hb, hn]
    exact .notStructure hb
  cases hs : Style.ofAttributes i.attributes with
  | error g =>
    have hn : i.mapping.notes = [] := by simp [mapping, record, fields?_eq_some hb, hs]
    rw [mapping_of_style_error hb hs, hn]
    exact .style hb hs
  | ok s =>
    cases hd : Field.declarations i.fields with
    | error g =>
      have hn : i.mapping.notes = [.style s] := by
        simp [mapping, record, fields?_eq_some hb, hs, hd, Except.map]
      rw [mapping_of_declarations_error hb hs hd, hn]
      obtain ⟨⟨f, hf, a, ha, hu⟩, rfl⟩ := Field.declarations_eq_error_iff.mp hd
      exact .unreadable hb hs hf ha hu
    | ok ds => exact logs_of_declarations hb hs hd

/-- How a key is shown in the log. A derived key is shown as a string literal of that value. -/
inductive Key.Shown : Option Key → Text → Prop
  | identifier : Shown none "identifier".toList
  | custom (e : Expression) : Shown (some (.custom e)) (render (e.tokens.map (·.lexeme)))
  | derived {name literal : Text} (h : stringValue? literal = some name) :
      Shown (some (.derived name)) literal

/-- How the record of a field reads, with the name of the field as it is written. -/
inductive Field.Recorded (s : Style) (f : Field) : Text → Prop
  | skipped (hi : f.Ignored) :
      Recorded s f ("DEBUG coding key for ".toList ++ backquoted f.name ++ " skipped".toList)
  | shown {key : Option Key} {t : Text} (hi : ¬ f.Ignored) (he : f.Gives s ⟨f.name, key⟩)
      (ht : Key.Shown key t) :
      Recorded s f ("DEBUG coding key for ".toList ++ backquoted f.name ++ ": ".toList ++ t)

theorem Key.shown_derived (name : Text) :
    Key.Shown (some (.derived name)) (render (Key.derived name).lexemes) :=
  .derived (stringValue?_quote name)

theorem Field.Noted.recorded {s : Style} {f : Field} {n : Note} (h : f.Noted s n) :
    f.Recorded s n.text := by
  cases h with
  | skipped hi => exact .skipped hi
  | @decided e hi he =>
    obtain ⟨d, hd, hf, hk⟩ := he
    have hname : e.field = f.name := hf.trans (declaration_ok hd).1
    obtain ⟨field, key⟩ := e
    obtain rfl : field = f.name := hname
    refine .shown hi ⟨d, hd, hf, hk⟩ ?_
    cases key with
    | none => exact .identifier
    | some key =>
      cases key with
      | custom e => exact .custom e
      | derived name => exact Key.shown_derived name

/-- The record of a field says that it is skipped just if it is. -/
theorem Field.Recorded.skipped_iff {s : Style} {f : Field} {t : Text} (h : f.Recorded s t) :
    t = "DEBUG coding key for ".toList ++ backquoted f.name ++ " skipped".toList ↔ f.Ignored := by
  cases h with
  | skipped hi => exact iff_of_true rfl hi
  | shown hi => exact iff_of_false (fun he => by simp at he) hi

/-- The log of an item: nothing if the item is no structure or its style is at fault, else the style,
and behind it a record of each field, of all fields if the item is mapped and of those before the
first malformed one otherwise. The records that show a key are those of the entries. -/
theorem log_traces_mapping (i : Item) :
    i.Logs i.mapping.result i.mapping.notes ∧
    ∀ s : Style, (Note.style s).text = "TRACE coding keys style resolved to ".toList ++ s.label ∧
      ∀ (f : Field) (n : Note), f.Noted s n → f.Recorded s n.text ∧
        (n.text = "DEBUG coding key for ".toList ++ backquoted f.name ++ " skipped".toList ↔
          f.Ignored) :=
  ⟨i.logs_mapping, fun _ => ⟨rfl, fun _ _ h => ⟨h.recorded, h.recorded.skipped_iff⟩⟩⟩

theorem log_traces_mapping_row :
    ∃ i, Item.ofText? ("#[coding_keys(style = kebab_cased)] struct Row ".toList ++
        "\x7b #[coding_key_ignored] r#type: u8, userID: u8, #[coding_key()] c: u8, d: u8 \x7d".toList) =
          some i ∧
      i.Logs i.mapping.result i.mapping.notes ∧
      i.mapping.notes.map Note.text = ["TRACE coding keys style resolved to KebabCased".toList,
        "DEBUG coding key for `r#type` skipped".toList,
        "DEBUG coding key for `userID`: \"user-i-d\"".toList] ∧
      ∃ f ∈ i.fields, ∀ n, f.Noted .kebab n → n.text = "DEBUG coding key for `r#type` skipped".toList := by
  have h : (Item.ofText? ("#[coding_keys(style = kebab_cased)] struct Row ".toList ++
      "\x7b #[coding_key_ignored] r#type: u8, userID: u8, #[coding_key()] c: u8, d: u8 \x7d".toList)).map
        (fun i => (i.mapping.notes.map Note.text, i.fields.head?.map fun f =>
          (f.name, decide f.Ignored))) =
      some (["TRACE coding keys style resolved to KebabCased".toList,
        "DEBUG coding key for `r#type` skipped".toList,
        "DEBUG coding key for `userID`: \"user-i-d\"".toList], some ("r#type".toList, true)) := by
    decide +kernel
  obtain ⟨i, hi, he⟩ := Option.map_eq_some_iff.mp h
  obtain ⟨hn, hf⟩ := Prod.mk.inj he
  obtain ⟨f, hf, hd⟩ := Option.map_eq_some_iff.mp hf
  obtain ⟨hname, hd⟩ := Prod.mk.inj hd
  obtain ⟨hl, ht⟩ := log_traces_mapping i
  refine ⟨i, hi, hl, hn, f, List.mem_of_head? hf, fun n hnoted => ?_⟩
  have hh := ((ht .kebab).2 f n hnoted).2.mpr (of_decide_eq_true hd)
  rwa [hname] at hh

end FieldKeys
