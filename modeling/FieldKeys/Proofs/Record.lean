import FieldKeys.Proofs.Lists
import FieldKeys.Proofs.Mapping
import FieldKeys.Proofs.Source

/-! From the fields of an item to the entries of its mapping: which attribute of a field decides
about its entry. -/

namespace FieldKeys

/-- The fields that can get a key; an item that is no structure with named fields has none. -/
def Item.fields (i : Item) : List Field :=
  i.body.fields?.getD []

def Field.Ignored (f : Field) : Prop :=
  ∃ a ∈ f.attributes, a.isNamed Directive.ignoreName = true

instance (f : Field) : Decidable f.Ignored :=
  inferInstanceAs (Decidable (∃ a ∈ f.attributes, a.isNamed Directive.ignoreName = true))

/-- The first attribute of a field that asks for a custom key. -/
def Field.customAttribute? (f : Field) : Option Attribute :=
  f.attributes.find? (·.isNamed Directive.customName)

/-- The fields of an item that are not ignored. -/
def Item.kept (i : Item) : List Field :=
  i.fields.filter fun f => ¬ f.Ignored

/-- The entries of an item that is accepted and has a field with a key. -/
def Item.entries? (i : Item) : Option (List Entry) :=
  match i.mapping.result with
  | .ok m => m.entries
  | .error _ => none

/-- A field gets an entry from what its attributes declare. -/
def Field.Gives (s : Style) (f : Field) (e : Entry) : Prop :=
  ∃ d, f.declaration = .ok d ∧ d.Gives s e

theorem Attribute.not_isNamed {a : Attribute} {name name' : Text}
    (h : a.isNamed name = true) (hn : name ≠ name') : a.isNamed name' = false := by
  unfold isNamed at h ⊢
  split at h
  · simp_all
  · simp at h

theorem Directive.ofAttribute_ignore {a : Attribute}
    (h : a.isNamed Directive.ignoreName = true) : Directive.ofAttribute a = .ok .ignore := by
  simp [ofAttribute, h]

/-- An attribute of another name never asks for a key, whatever it holds. -/
theorem Directive.ofAttribute_of_not_custom {a : Attribute} {d : Directive}
    (h : a.isNamed Directive.customName = false) (ha : Directive.ofAttribute a = .ok d) :
    ∀ span key, d ≠ .custom span key := by
  rintro span key rfl
  rw [ofAttribute, h] at ha
  split at ha <;> simp at ha

theorem Directive.ofAttribute_custom {a : Attribute} {d : Directive}
    (h : a.isNamed Directive.customName = true) (ha : Directive.ofAttribute a = .ok d) :
    ∃ key, d = .custom a.span key := by
  have hi := Attribute.not_isNamed h (show Directive.customName ≠ Directive.ignoreName by decide)
  rw [ofAttribute, hi, h] at ha
  simp only [Bool.false_eq_true, if_false, if_true] at ha
  split at ha
  · exact ⟨_, (Except.ok.inj ha).symm⟩
  · exact ⟨_, (Except.ok.inj ha).symm⟩
  · split at ha
    · exact ⟨_, (Except.ok.inj ha).symm⟩
    · simp at ha

theorem Directive.ofAttribute_eq_ignore {a : Attribute} (ha : Directive.ofAttribute a = .ok .ignore) :
    a.isNamed Directive.ignoreName = true := by
  by_contra h
  cases hc : a.isNamed Directive.customName with
  | true =>
    obtain ⟨key, hk⟩ := ofAttribute_custom hc ha
    simp at hk
  | false => simp [ofAttribute, h, hc] at ha

theorem Directive.ofAttributes_cons {a : Attribute} {as : List Attribute} {ds : List Directive}
    (h : Directive.ofAttributes (a :: as) = .ok ds) :
    ∃ d ds', Directive.ofAttribute a = .ok d ∧ Directive.ofAttributes as = .ok ds' ∧
      ds = d :: ds' := by
  simp only [ofAttributes] at h
  split at h
  · simp at h
  · next d hd =>
    obtain ⟨ds', hs, rfl⟩ := exists_of_map_ok h
    exact ⟨d, ds', hd, hs, rfl⟩

theorem Directive.ignore_mem_iff {as : List Attribute} {ds : List Directive}
    (h : Directive.ofAttributes as = .ok ds) :
    Directive.ignore ∈ ds ↔ ∃ a ∈ as, a.isNamed Directive.ignoreName = true := by
  induction as generalizing ds with
  | nil =>
    obtain rfl := Except.ok.inj h
    simp
  | cons a as ih =>
    obtain ⟨d, ds, hd, hs, rfl⟩ := ofAttributes_cons h
    rw [List.mem_cons, ih hs, List.exists_mem_cons_iff]
    refine or_congr_left ⟨?_, fun hn => ?_⟩
    · rintro rfl
      exact ofAttribute_eq_ignore hd
    · rw [ofAttribute_ignore hn] at hd
      exact Except.ok.inj hd

/-- The first attribute with the name of custom keys gives the first custom key. -/
theorem Directive.firstCustom?_eq {as : List Attribute} {ds : List Directive}
    (h : Directive.ofAttributes as = .ok ds) :
    match as.find? (·.isNamed Directive.customName) with
    | none => firstCustom? ds = none
    | some a => ∃ key, Directive.ofAttribute a = .ok (.custom a.span key) ∧
        firstCustom? ds = some (a.span, key) := by
  induction as generalizing ds with
  | nil =>
    obtain rfl := Except.ok.inj h
    rfl
  | cons a as ih =>
    obtain ⟨d, ds, hd, hs, rfl⟩ := ofAttributes_cons h
    cases hc : a.isNamed Directive.customName with
    | true =>
      obtain ⟨key, rfl⟩ := ofAttribute_custom hc hd
      simpa [hc] using ⟨key, hd, rfl⟩
    | false =>
      have hn : firstCustom? (d :: ds) = firstCustom? ds := by
        have hh := ofAttribute_of_not_custom hc hd
        cases d with
        | custom span key => exact absurd rfl (hh span key)
        | ignore | other => rfl
      simpa [hc, hn] using ih hs

theorem Field.declaration_ok {f : Field} {d : Declaration} (h : f.declaration = .ok d) :
    d.name = f.name ∧ Directive.ofAttributes f.attributes = .ok d.directives := by
  obtain ⟨ds, hs, rfl⟩ := exists_of_map_ok h
  exact ⟨rfl, hs⟩

theorem Field.ignored_iff {f : Field} {d : Declaration} (h : f.declaration = .ok d) :
    f.Ignored ↔ d.Ignored :=
  (Directive.ignore_mem_iff (declaration_ok h).2).symm

theorem Field.noCustom {f : Field} {d : Declaration} (h : f.declaration = .ok d)
    (hc : f.customAttribute? = none) : NoCustom d.directives := by
  have hh := Directive.firstCustom?_eq (declaration_ok h).2
  rw [← customAttribute?, hc] at hh
  exact firstCustom?_eq_none_iff.mp hh

theorem Field.firstCustom {f : Field} {d : Declaration} {a : Attribute}
    (h : f.declaration = .ok d) (hc : f.customAttribute? = some a) :
    ∃ key, Directive.ofAttribute a = .ok (.custom a.span key) ∧
      FirstCustom d.directives a.span key := by
  have hh := Directive.firstCustom?_eq (declaration_ok h).2
  rw [← customAttribute?, hc] at hh
  obtain ⟨key, ha, hf⟩ := hh
  exact ⟨key, ha, firstCustom?_eq_some_iff.mp hf⟩

theorem Field.declarations_ok {fields : List Field} {ds : List Declaration}
    (h : Field.declarations fields = .ok ds) :
    List.Forall₂ (fun f d => f.declaration = .ok d) fields ds := by
  induction fields generalizing ds with
  | nil =>
    obtain rfl := Except.ok.inj h
    exact .nil
  | cons f fields ih =>
    simp only [declarations] at h
    split at h
    · simp at h
    · next d hd =>
      obtain ⟨ds', hs, rfl⟩ := exists_of_map_ok h
      exact .cons hd (ih hs)

theorem Field.kept_declarations {fields : List Field} {ds : List Declaration}
    (h : List.Forall₂ (fun f d => Field.declaration f = .ok d) fields ds) :
    List.Forall₂ (fun f d => Field.declaration f = .ok d) (fields.filter fun f => ¬ f.Ignored)
      (ds.filter fun d => ¬ d.Ignored) := by
  refine List.rel_filter (fun f d hd => ?_) h
  simpa using not_congr (ignored_iff hd)

theorem Item.record_ok {i : Item} {r : Record} (h : i.record.result = .ok r) :
    i.body.fields? = some i.fields ∧ Style.ofAttributes i.attributes = .ok r.style ∧
      r.name = i.name ∧ r.visibility = i.visibility ∧ r.generics = i.generics ∧
      List.Forall₂ (fun f d => Field.declaration f = .ok d) i.fields r.fields := by
  unfold record at h
  split at h
  · simp at h
  · next fields hf =>
    have hi : i.fields = fields := by simp [Item.fields, hf]
    split at h
    · simp at h
    · next s hs =>
      obtain ⟨ds, hd, rfl⟩ := exists_of_map_ok h
      rw [hi]
      exact ⟨hf, hs, rfl, rfl, rfl, Field.declarations_ok hd⟩

theorem Item.mapping_ok {i : Item} {m : Mapping} (h : i.mapping.result = .ok m) :
    i.record.result = .ok m.record ∧
      (m.record.style.mapping m.record.fields).result = .ok m.entries := by
  unfold mapping at h
  split at h
  · simp at h
  · next notes r hr =>
    obtain ⟨es, he, rfl⟩ := exists_of_map_ok h
    exact ⟨by rw [hr], he⟩

theorem Item.entries?_of_mapping {i : Item} {m : Mapping} (h : i.mapping.result = .ok m) :
    i.entries? = m.entries := by
  rw [entries?, h]

theorem Item.entries?_some {i : Item} {es : List Entry} (h : i.entries? = some es) :
    ∃ m, i.mapping.result = .ok m ∧ m.entries = some es := by
  unfold entries? at h
  split at h
  · next m hm => exact ⟨m, hm, h⟩
  · simp at h

/-- The entries of an item belong to the fields that are not ignored, in their order. -/
theorem Item.mapping_entries {i : Item} {m : Mapping} {es : List Entry}
    (h : i.mapping.result = .ok m) (he : m.entries = some es) :
    List.Forall₂ (Field.Gives m.record.style) i.kept es := by
  obtain ⟨hr, hm⟩ := mapping_ok h
  obtain ⟨-, -, -, -, -, hd⟩ := record_ok hr
  rw [he] at hm
  exact forall₂_comp (Field.kept_declarations hd) (m.record.style.mapping_gives hm)

theorem Item.mapping_isSome {i : Item} {m : Mapping} (h : i.mapping.result = .ok m)
    (hk : i.kept ≠ []) : ∃ es, m.entries = some es := by
  obtain ⟨hr, hm⟩ := mapping_ok h
  obtain ⟨-, -, -, -, -, hd⟩ := record_ok hr
  cases he : m.entries with
  | some es => exact ⟨es, rfl⟩
  | none =>
    rw [he] at hm
    have hn : m.record.fields.filter (fun d => ¬ d.Ignored) = [] := by
      simpa using m.record.style.ignored_of_mapping_none hm
    have hf := Field.kept_declarations hd
    rw [hn, List.forall₂_nil_right_iff] at hf
    exact absurd hf hk

theorem Item.kept_ne_nil {i : Item} {m : Mapping} {es : List Entry} (h : i.mapping.result = .ok m)
    (he : m.entries = some es) : i.kept ≠ [] := by
  obtain ⟨hr, hm⟩ := mapping_ok h
  obtain ⟨-, -, -, -, -, hd⟩ := record_ok hr
  rw [he] at hm
  obtain ⟨d, hmem, hi⟩ := m.record.style.exists_of_mapping_some hm
  obtain ⟨f, hf, hfd⟩ := forall₂_mem_right hd hmem
  refine List.ne_nil_of_mem (a := f) (List.mem_filter.mpr ⟨hf, ?_⟩)
  simpa using mt (Field.ignored_iff hfd).mp hi

theorem customKey?_written {ts : List Token} {e : Expression}
    (h : customKey? ts = some (some e)) : e.Written := by
  obtain ⟨arguments, ha, h⟩ := Option.map_eq_some_iff.mp h
  rcases Option.or_eq_some_iff.mp h with hl | ⟨-, hh⟩
  · obtain ⟨⟨x, rest⟩, hx, he⟩ := Option.bind_eq_some_iff.mp hl
    obtain ⟨front, -, hr⟩ := Option.bind_eq_some_iff.mp hx
    simp only at he
    split at he
    · obtain rfl := Option.some.inj he
      exact .expression hr
    · simp at he
  · exact Expression.readList?_written ha e (List.mem_of_head? hh)

theorem Directive.ofAttribute_written {a : Attribute} {span : Span} {e : Expression}
    (ha : a.Written) (h : Directive.ofAttribute a = .ok (.custom span (some e))) : e.Written := by
  unfold ofAttribute at h
  split at h
  · simp at h
  · split at h
    · split at h
      · simp at h
      · next x hx =>
        obtain ⟨-, rfl⟩ : a.span = span ∧ x = e := by simpa using h
        exact ha x hx
      · next inside hx =>
        split at h
        · next key hk =>
          obtain ⟨-, rfl⟩ : a.span = span ∧ key = some e := by simpa using h
          exact customKey?_written hk
        · simp at h
    · simp at h

/-- The custom keys of the entries have been read from the attributes of the item. -/
theorem Item.entry_written {ts : List Token} {i : Item} {m : Mapping} {es : List Entry}
    (hi : Item.ofTokens? ts = some i) (h : i.mapping.result = .ok m) (he : m.entries = some es)
    {e : Entry} (hm : e ∈ es) {x : Expression} (hx : e.key = some (.custom x)) : x.Written := by
  obtain ⟨f, hf, d, hd, hg⟩ := forall₂_mem_right (mapping_entries h he) hm
  have hk := hg.2
  rw [hx] at hk
  cases hk with
  | custom hc =>
    obtain ⟨hr, -⟩ := mapping_ok h
    have hw := (Item.ofTokens?_written hi).body i.fields (record_ok hr).1 f (List.mem_filter.mp hf).1
    cases ha : f.customAttribute? with
    | none => exact absurd (Field.noCustom hd ha) hc.not_noCustom
    | some a =>
      obtain ⟨key, ho, hc'⟩ := Field.firstCustom hd ha
      obtain rfl := (hc.unique hc').2
      exact Directive.ofAttribute_written (hw.attributes a (List.mem_of_find?_eq_some ha)).written ho

end FieldKeys
