import FieldKeys.Proofs.Places

/-! What an outcome depends on. Of a field these are its name, whether it is ignored, whether one of
its attributes cannot be read, and the key in its first attribute for one. Items that are alike in
this come to the same code, the same log, or the same fault. -/

namespace FieldKeys

def Key.unplaced : Key → Key
  | .custom e => .custom e.unplaced
  | .derived name => .derived name

def Entry.unplaced (e : Entry) : Entry :=
  ⟨e.field, e.key.map Key.unplaced⟩

structure Declaration.Alike (d d' : Declaration) : Prop where
  name : d.name = d'.name
  ignored : d.Ignored ↔ d'.Ignored
  custom : Option.Rel (fun x y => x.2.map Expression.unplaced = y.2.map Expression.unplaced)
    (firstCustom? d.directives) (firstCustom? d'.directives)

structure Attribute.Alike (a b : Attribute) : Prop where
  named : ∀ name, a.isNamed name = b.isNamed name
  directive : Agree Directive.Alike (Directive.ofAttribute a) (Directive.ofAttribute b)

structure Field.Alike (f g : Field) : Prop where
  name : f.name = g.name
  unreadable : (∃ a ∈ f.attributes, a.Unreadable) ↔ ∃ a ∈ g.attributes, a.Unreadable
  ignored : f.Ignored ↔ g.Ignored
  custom : Option.Rel Attribute.Alike f.customAttribute? g.customAttribute?

structure Record.Alike (r r' : Record) : Prop where
  name : r.name = r'.name
  visibility : r.visibility.map Token.unplaced = r'.visibility.map Token.unplaced
  generics : r.generics.unplaced = r'.generics.unplaced
  style : r.style = r'.style
  fields : List.Forall₂ Declaration.Alike r.fields r'.fields

structure Item.Alike (i j : Item) : Prop where
  name : i.name = j.name
  visibility : i.visibility.map Token.unplaced = j.visibility.map Token.unplaced
  generics : i.generics.unplaced = j.generics.unplaced
  style : Agree Eq (Style.ofAttributes i.attributes) (Style.ofAttributes j.attributes)
  fields : Option.Rel (List.Forall₂ Field.Alike) i.body.fields? j.body.fields?

/-- Outcomes with the same log, as it is written, and with answers that agree. -/
structure Outcome.Agree {α β : Type} (rel : α → β → Prop) (x : Outcome α) (y : Outcome β) : Prop where
  notes : x.notes.map Note.text = y.notes.map Note.text
  result : FieldKeys.Agree rel x.result y.result

theorem Outcome.Agree.map {α β γ δ : Type} {rel : α → β → Prop} {rel' : γ → δ → Prop} {x : Outcome α}
    {y : Outcome β} {f : α → γ} {g : β → δ} (h : Outcome.Agree rel x y)
    (hf : ∀ a b, rel a b → rel' (f a) (g b)) :
    Outcome.Agree rel' ⟨x.notes, x.result.map f⟩ ⟨y.notes, y.result.map g⟩ :=
  ⟨h.notes, h.result.map hf⟩

theorem option_rel_imp {α β : Type} {rel rel' : α → β → Prop} {x : Option α} {y : Option β}
    (h : Option.Rel rel x y) (hr : ∀ a b, rel a b → rel' a b) : Option.Rel rel' x y := by
  cases h with
  | none => exact .none
  | some h => exact .some (hr _ _ h)

theorem Outcome.Agree.imp {α β : Type} {rel rel' : α → β → Prop} {x : Outcome α} {y : Outcome β}
    (h : Outcome.Agree rel x y) (hr : ∀ a b, rel a b → rel' a b) : Outcome.Agree rel' x y :=
  ⟨h.notes, h.result.imp hr⟩

theorem Expression.lexemes_unplaced {e e' : Expression} (h : e.unplaced = e'.unplaced) :
    e.tokens.map (·.lexeme) = e'.tokens.map (·.lexeme) :=
  Token.map_unplaced_eq_iff.mp (congrArg Expression.tokens h)

theorem Key.lexemes_unplaced (key : Key) : key.unplaced.lexemes = key.lexemes := by
  cases key with
  | custom e => exact Token.map_lexeme_unplaced e.tokens
  | derived name => rfl

theorem Entry.keyLexemes_unplaced (e : Entry) : e.unplaced.keyLexemes = e.keyLexemes := by
  obtain ⟨field, key⟩ := e
  cases key with
  | none => simp only [keyLexemes, unplaced, Option.map_none]
  | some key => exact key.lexemes_unplaced

theorem Note.decided_text_unplaced (e : Entry) :
    (Note.decided e.unplaced).text = (Note.decided e).text := by
  obtain ⟨field, key⟩ := e
  unfold text Entry.unplaced
  cases key with
  | none => simp only [Option.map_none]
  | some key => simp only [Option.map_some, key.lexemes_unplaced]

theorem Entry.map_congr {α : Type} {g : Entry → α} (hg : ∀ e, g e.unplaced = g e)
    {es es' : List Entry} (h : es.map Entry.unplaced = es'.map Entry.unplaced) :
    es.map g = es'.map g := by
  have hh := congrArg (List.map g) h
  rwa [List.map_map, List.map_map, show g ∘ Entry.unplaced = g from funext hg] at hh

/-- Of a declaration only the name, the mark and the first custom key matter. -/
theorem Declaration.Alike.resolve {d d' : Declaration} (h : d.Alike d') (s : Style) :
    FieldKeys.Agree (fun x y => (Entry.of s d.name x).map Entry.unplaced =
      (Entry.of s d'.name y).map Entry.unplaced) d.resolve d'.resolve := by
  by_cases hi : d.Ignored
  · rw [resolve_ignored hi, resolve_ignored (h.ignored.mp hi)]
    exact .ok rfl
  · rw [resolve_of_not_ignored hi, resolve_of_not_ignored (mt h.ignored.mpr hi)]
    rcases option_rel_iff.mp h.custom with
      ⟨hc, hc'⟩ | ⟨⟨span, key⟩, ⟨span', key'⟩, hc, hc', hk⟩
    · rw [hc, hc', h.name]
      exact .ok rfl
    · rw [hc, hc', h.name]
      cases key <;> cases key' <;> simp only [Option.map_some, Option.map_none, reduceCtorEq,
        Option.some.injEq] at hk
      case none.none => exact .error rfl
      case some.some => exact .ok (by simp [Entry.of, Entry.unplaced, Key.unplaced, hk])

theorem Style.entries_alike (s : Style) {ds ds' : List Declaration}
    (h : List.Forall₂ Declaration.Alike ds ds') :
    Outcome.Agree (fun es es' => es.map Entry.unplaced = es'.map Entry.unplaced) (s.entries ds)
      (s.entries ds') := by
  induction h with
  | nil => exact ⟨rfl, .ok rfl⟩
  | @cons d d' ds ds' hd _ ih =>
    have hr := hd.resolve s
    simp only [entries]
    generalize d.resolve = x at hr ⊢
    generalize d'.resolve = y at hr ⊢
    cases hr with
    | error hk => exact ⟨rfl, .error hk⟩
    | @ok x y he =>
      simp only
      generalize Entry.of s d.name x = e at he ⊢
      generalize Entry.of s d'.name y = e' at he ⊢
      cases e <;> cases e' <;>
        simp only [Option.map_some, Option.map_none, reduceCtorEq, Option.some.injEq] at he
      case none.none =>
        refine ⟨?_, ih.result⟩
        simp only [List.map_cons, hd.name, ih.notes]
      case some.some e e' =>
        refine ⟨?_, ih.result.map fun es es' hes => ?_⟩
        · rw [List.map_cons, List.map_cons, ih.notes, ← Note.decided_text_unplaced e, he,
            Note.decided_text_unplaced]
        · rw [List.map_cons, List.map_cons, hes, he]

theorem Style.mapping_alike (s : Style) {ds ds' : List Declaration}
    (h : List.Forall₂ Declaration.Alike ds ds') :
    Outcome.Agree (fun x y => x.map (List.map Entry.unplaced) = y.map (List.map Entry.unplaced))
      (s.mapping ds) (s.mapping ds') :=
  (s.entries_alike h).map fun es es' hes => by
    cases es <;> cases es' <;> simp_all

theorem Attribute.Alike.unreadable {a b : Attribute} (h : a.Alike b) :
    a.Unreadable ↔ b.Unreadable := by
  have hd := h.directive
  have hiff : ∀ c : Attribute, c.Unreadable ↔ Directive.ofAttribute c = .error .illFormed :=
    fun c => by simp [Directive.ofAttribute_eq_error_iff]
  have hkind : ∀ f : Fault, f.kind = .illFormed → f = .illFormed := fun f hf => by
    cases f <;> simp [Fault.kind] at hf ⊢
  rw [hiff, hiff]
  generalize Directive.ofAttribute a = x at hd ⊢
  generalize Directive.ofAttribute b = y at hd ⊢
  cases hd with
  | @error f g hk =>
    refine ⟨fun hf => ?_, fun hg => ?_⟩
    · obtain rfl := Except.error.inj hf
      rw [hkind g hk.symm]
    · obtain rfl := Except.error.inj hg
      rw [hkind f hk]
  | ok => simp

theorem Field.Alike.declaration {f g : Field} (h : f.Alike g) :
    FieldKeys.Agree Declaration.Alike f.declaration g.declaration := by
  by_cases hu : ∃ a ∈ f.attributes, a.Unreadable
  · rw [declaration_eq_error_iff.mpr ⟨hu, rfl⟩, declaration_eq_error_iff.mpr ⟨h.unreadable.mp hu, rfl⟩]
    exact .error rfl
  cases hf : f.declaration with
  | error fault => exact absurd (declaration_eq_error_iff.mp hf).1 hu
  | ok d =>
    cases hg : g.declaration with
    | error fault => exact absurd (declaration_eq_error_iff.mp hg).1 (mt h.unreadable.mpr hu)
    | ok d' =>
      obtain ⟨hname, hds⟩ := declaration_ok hf
      obtain ⟨hname', hds'⟩ := declaration_ok hg
      refine .ok ⟨by rw [hname, hname', h.name],
        (ignored_iff hf).symm.trans (h.ignored.trans (ignored_iff hg)), ?_⟩
      have hc := Directive.firstCustom?_eq hds
      have hc' := Directive.firstCustom?_eq hds'
      rw [← customAttribute?] at hc hc'
      rcases option_rel_iff.mp h.custom with ⟨hn, hn'⟩ | ⟨a, b, ha, hb, hab⟩
      · simp only [hn, hn'] at hc hc'
        rw [hc, hc']
        exact .none
      · simp only [ha, hb] at hc hc'
        obtain ⟨key, ho, hc⟩ := hc
        obtain ⟨key', ho', hc'⟩ := hc'
        have hab := hab.directive
        rw [ho, ho'] at hab
        rw [hc, hc']
        cases hab with
        | ok hab =>
          cases hab with
          | custom hk => exact .some hk

theorem Field.declarations_agree {rel : Declaration → Declaration → Prop} {fs gs : List Field}
    (h : List.Forall₂ (fun f g => FieldKeys.Agree rel f.declaration g.declaration) fs gs) :
    FieldKeys.Agree (List.Forall₂ rel) (Field.declarations fs) (Field.declarations gs) := by
  induction h with
  | nil => exact .ok .nil
  | @cons f g fs gs hd _ ih =>
    simp only [declarations]
    generalize f.declaration = x at hd ⊢
    generalize g.declaration = y at hd ⊢
    cases hd with
    | error hk => exact .error hk
    | ok hd => exact ih.map fun _ _ hds => .cons hd hds

/-- Items whose styles agree and whose fields declare alike come to records with the same style. -/
theorem Item.record_agree {rel : Declaration → Declaration → Prop} {i j : Item}
    (hs : FieldKeys.Agree Eq (Style.ofAttributes i.attributes) (Style.ofAttributes j.attributes))
    (hf : Option.Rel (List.Forall₂ fun f g => FieldKeys.Agree rel f.declaration g.declaration)
      i.body.fields? j.body.fields?) :
    Outcome.Agree (fun r r' => ∃ s ds ds', List.Forall₂ rel ds ds' ∧
      r = ⟨i.name, i.visibility, i.generics, s, ds⟩ ∧ r' = ⟨j.name, j.visibility, j.generics, s, ds'⟩)
      i.record j.record := by
  unfold Item.record
  rcases option_rel_iff.mp hf with ⟨hn, hn'⟩ | ⟨fs, gs, hf, hg, hfg⟩
  · rw [hn, hn']
    exact ⟨rfl, .error rfl⟩
  · rw [hf, hg]
    simp only
    generalize Style.ofAttributes i.attributes = x at hs ⊢
    generalize Style.ofAttributes j.attributes = y at hs ⊢
    cases hs with
    | error hk => exact ⟨rfl, .error hk⟩
    | @ok s s' hs =>
      obtain rfl := hs
      exact ⟨rfl, (Field.declarations_agree hfg).map fun ds ds' hd => ⟨s, ds, ds', hd, rfl, rfl⟩⟩

theorem Item.Alike.record {i j : Item} (h : i.Alike j) :
    Outcome.Agree Record.Alike i.record j.record := by
  have hf : Option.Rel (List.Forall₂ fun f g => FieldKeys.Agree Declaration.Alike f.declaration
      g.declaration) i.body.fields? j.body.fields? :=
    option_rel_imp h.fields fun _ _ hfg => hfg.imp fun _ _ hh => hh.declaration
  refine (Item.record_agree h.style hf).imp fun r r' => ?_
  rintro ⟨s, ds, ds', hd, rfl, rfl⟩
  exact ⟨h.name, h.visibility, h.generics, rfl, hd⟩

theorem Item.Alike.mapping {i j : Item} (h : i.Alike j) :
    Outcome.Agree (fun m m' => m.record.Alike m'.record ∧
      m.entries.map (List.map Entry.unplaced) = m'.entries.map (List.map Entry.unplaced))
      i.mapping j.mapping := by
  have hr := h.record
  unfold Item.mapping
  generalize i.record = x at hr ⊢
  generalize j.record = y at hr ⊢
  obtain ⟨notes, x⟩ := x
  obtain ⟨notes', y⟩ := y
  obtain ⟨hnotes, hresult⟩ := hr
  simp only at hnotes hresult
  cases hresult with
  | error hk => exact ⟨hnotes, .error hk⟩
  | @ok r r' hr =>
    have hm := r.style.mapping_alike hr.fields
    refine ⟨?_, ?_⟩
    · simp only [List.map_append, hnotes, hm.notes, ← hr.style]
    · rw [hr.style] at hm
      simpa only [hr.style] using hm.result.map fun es es' hes => ⟨hr, hes⟩

theorem Parameter.declared_unplaced (p : Parameter) : p.unplaced.declared = p.declared := by
  simp only [declared, unplaced, commaLexemes, Token.map_lexeme_unplaced, List.isEmpty_map]
  rfl

theorem Parameter.used_unplaced (p : Parameter) : p.unplaced.used = p.used := rfl

theorem Generics.lexemes_unplaced (g : Generics) {write : Parameter → List Lexeme}
    (hw : ∀ p, write p.unplaced = write p) : g.unplaced.lexemes write = g.lexemes write := by
  have hf : ∀ q : Parameter → Bool, (∀ p, q p.unplaced = q p) →
      (g.parameters.map Parameter.unplaced).filter q =
        (g.parameters.filter q).map Parameter.unplaced := by
    intro q hq
    rw [List.filter_map, show q ∘ Parameter.unplaced = q from funext hq]
  have hm : ∀ ps : List Parameter, (ps.map Parameter.unplaced).flatMap write = ps.flatMap write :=
    fun ps => by rw [List.flatMap_map]; simp only [hw]
  simp only [lexemes, unplaced, hf (·.sort == .lifetime) fun _ => rfl,
    hf (·.sort != .lifetime) fun _ => rfl, hm, List.isEmpty_map, List.getLast?_map, Option.any_map]
  rfl

theorem Record.Alike.expansion {r r' : Record} (h : r.Alike r') (data : Bool) {es es' : List Entry}
    (he : es.map Entry.unplaced = es'.map Entry.unplaced) :
    r.expansion data es = r'.expansion data es' := by
  have hname : r.keysName = r'.keysName := by rw [Record.keysName, Record.keysName, h.name]
  have hvis := Token.map_unplaced_eq_iff.mp h.visibility
  have hdeclared : r.generics.lexemes Parameter.declared = r'.generics.lexemes Parameter.declared := by
    rw [← r.generics.lexemes_unplaced Parameter.declared_unplaced, h.generics,
      Generics.lexemes_unplaced _ Parameter.declared_unplaced]
  have hused : r.generics.lexemes Parameter.used = r'.generics.lexemes Parameter.used := by
    rw [← r.generics.lexemes_unplaced Parameter.used_unplaced, h.generics,
      Generics.lexemes_unplaced _ Parameter.used_unplaced]
  have hconditions := Token.map_unplaced_eq_iff.mp (congrArg Generics.conditions h.generics)
  have hvariants := Entry.map_congr (g := fun e => [Lexeme.word e.field]) (fun _ => rfl) he
  have hpaths := Entry.map_congr (g := fun e => variantPath e.field) (fun _ => rfl) he
  have hkeys := Entry.map_congr (g := fun e => arm e e.keyLexemes)
    (fun e => by rw [e.keyLexemes_unplaced]; rfl) he
  have hfields := Entry.map_congr (g := fun e => arm e e.fieldLexemes) (fun _ => rfl) he
  simp only [Record.expansion, enumLexemes, keyLexemes, displayLexemes, asRefLexemes, ownerLexemes,
    serializeLexemes, deserializeLexemes, hname, h.name, hvis, hdeclared, hused, hconditions,
    hvariants, hpaths, hkeys, hfields]

/-- Alike items come to the same code, or to faults of one kind, and to the same log. -/
theorem Item.Alike.expand {i j : Item} (h : i.Alike j) (data : Bool) :
    Outcome.Agree Eq (i.expand data) (j.expand data) := by
  refine h.mapping.map fun m m' hm => ?_
  obtain ⟨hr, he⟩ := hm
  cases hes : m.entries <;> cases hes' : m'.entries <;> simp [hes, hes'] at he
  · rfl
  · exact hr.expansion data he

theorem exists_code {x : Except Fault (List Lexeme)}
    (h : x.toOption.map List.isEmpty = some false) : ∃ code, x = .ok code ∧ code ≠ [] := by
  cases x with
  | error f => simp [Except.toOption] at h
  | ok code => exact ⟨code, rfl, fun hn => by simp [Except.toOption, hn] at h⟩

theorem Field.alike_of_attributes {f g : Field} (hn : f.name = g.name)
    (h : List.Forall₂ Attribute.Alike f.attributes g.attributes) : f.Alike g where
  name := hn
  unreadable := by
    constructor
    · rintro ⟨a, ha, hu⟩
      obtain ⟨b, hb, hab⟩ := forall₂_mem_left h ha
      exact ⟨b, hb, hab.unreadable.mp hu⟩
    · rintro ⟨b, hb, hu⟩
      obtain ⟨a, ha, hab⟩ := forall₂_mem_right h hb
      exact ⟨a, ha, hab.unreadable.mpr hu⟩
  ignored := by
    constructor
    · rintro ⟨a, ha, hi⟩
      obtain ⟨b, hb, hab⟩ := forall₂_mem_left h ha
      exact ⟨b, hb, (hab.named _).symm.trans hi⟩
    · rintro ⟨b, hb, hi⟩
      obtain ⟨a, ha, hab⟩ := forall₂_mem_right h hb
      exact ⟨a, ha, (hab.named _).trans hi⟩
  custom := forall₂_find? h fun _ _ hab => hab.named _

theorem Attribute.alike_of_unplaced {a b : Attribute} (h : a.unplaced = b.unplaced) : a.Alike b :=
  ⟨Attribute.isNamed_congr h, Directive.ofAttribute_congr h⟩

theorem Field.alike_of_unplaced {f g : Field} (h : f.unplaced = g.unplaced) : f.Alike g := by
  have hname : f.unplaced.name = g.unplaced.name := by rw [h]
  have hattributes : f.unplaced.attributes = g.unplaced.attributes := by rw [h]
  exact Field.alike_of_attributes hname
    ((forall₂_map_eq_iff.mpr hattributes).imp fun _ _ => Attribute.alike_of_unplaced)

theorem Body.fields?_unplaced (b : Body) :
    b.unplaced.fields? = b.fields?.map (List.map Field.unplaced) := by
  cases b <;> rfl

theorem Item.fields_unplaced (i : Item) : i.unplaced.fields = i.fields.map Field.unplaced := by
  rw [fields, fields]
  simp only [unplaced, Body.fields?_unplaced]
  cases i.body.fields? <;> rfl

/-- The places of the tokens do not matter. -/
theorem Item.alike_of_unplaced {i j : Item} (h : i.unplaced = j.unplaced) : i.Alike j := by
  have hname : i.unplaced.name = j.unplaced.name := by rw [h]
  have hvisibility : i.unplaced.visibility = j.unplaced.visibility := by rw [h]
  have hgenerics : i.unplaced.generics = j.unplaced.generics := by rw [h]
  have hattributes : i.unplaced.attributes = j.unplaced.attributes := by rw [h]
  have hbody : i.unplaced.body.fields? = j.unplaced.body.fields? := by rw [h]
  refine ⟨hname, hvisibility, hgenerics, Style.ofAttributes_congr hattributes, ?_⟩
  simp only [unplaced, Body.fields?_unplaced] at hbody
  cases hf : i.body.fields? <;> cases hg : j.body.fields? <;>
    simp only [hf, hg, Option.map_some, Option.map_none, reduceCtorEq, Option.some.injEq] at hbody
  case none.none => exact .none
  case some.some => exact .some ((forall₂_map_eq_iff.mpr hbody).imp fun _ _ => Field.alike_of_unplaced)

end FieldKeys
