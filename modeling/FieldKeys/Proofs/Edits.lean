import FieldKeys.Proofs.FurtherArguments
import FieldKeys.Proofs.Rows
import Mathlib.Logic.Relation

/-! Edits that have no effect: they touch what is not asked about keys. -/

namespace FieldKeys

/-- Whether an attribute of a field is looked at. -/
def Attribute.isOwned (a : Attribute) : Bool :=
  a.isNamed Directive.customName || a.isNamed Directive.ignoreName

/-- A field before and after an edit without effect. -/
inductive Field.Edit (f : Field) : Field → Prop
  | declared (visibility type : List Token) :
      Edit f { f with visibility := visibility, type := type }
  /-- Attributes of other names come, go, move and change. -/
  | others {as : List Attribute}
      (h : f.attributes.filter Attribute.isOwned = as.filter Attribute.isOwned) :
      Edit f { f with attributes := as }
  /-- A field that is ignored stays so. -/
  | ignoring {as : List Attribute} (ha : ∃ a ∈ f.attributes, a.isNamed Directive.ignoreName = true)
      (hb : ∃ b ∈ as, b.isNamed Directive.ignoreName = true)
      (h : f.attributes.filter (fun a => !a.isNamed Directive.ignoreName) =
        as.filter fun b => !b.isNamed Directive.ignoreName) :
      Edit f { f with attributes := as }
  /-- Another key comes behind the first one. -/
  | furtherKey {before after : List Attribute} {b : Attribute} (hf : f.attributes = before ++ after)
      (ha : ∃ a ∈ before, a.isNamed Directive.customName = true)
      (hb : b.isNamed Directive.customName = true) (hr : ¬ b.Unreadable) :
      Edit f { f with attributes := before ++ b :: after }
  | furtherArguments {before after : List Attribute} {a : Attribute} {ts ts' : List Token}
      (hf : f.attributes = before ++ a :: after) (ha : a.isNamed Directive.customName = true)
      (hform : a.form = .list ts) (h : FurtherArguments ts ts') :
      Edit f { f with attributes := before ++ { a with form := .list ts' } :: after }

/-- An item before and after an edit without effect. -/
inductive Item.Edit (i : Item) : Item → Prop
  | field {before after : List Field} {f g : Field} (hb : i.body = .named (before ++ f :: after))
      (h : f.Edit g) : Edit i (i.withFields (before ++ g :: after))
  | attributes {as : List Attribute}
      (h : i.attributes.filter (·.isNamed StyleOption.attributeName) =
        as.filter (·.isNamed StyleOption.attributeName)) :
      Edit i { i with attributes := as }
  | moved {j : Item} (h : i.unplaced = j.unplaced) : Edit i j

/-- What an outcome shows: its log, and its answer, of a fault the kind and the message. -/
def Outcome.shown {α : Type} (x : Outcome α) : List Text × Except (FaultKind × Text) α :=
  (x.notes.map Note.text, x.result.mapError fun f => (f.kind, f.message))

theorem Attribute.Alike.refl (a : Attribute) : a.Alike a := alike_of_unplaced rfl

theorem Field.Alike.refl (f : Field) : f.Alike f := alike_of_unplaced rfl

theorem Attribute.isNamed_iff {a : Attribute} {name : Text} :
    a.isNamed name = true ↔ ∃ s, a.path = [⟨.word name, s⟩] := by
  unfold isNamed
  constructor
  · intro h
    split at h
    · next t ht => exact ⟨t.span, by rw [ht, ← eq_of_beq h]⟩
    · simp at h
  · rintro ⟨s, hs⟩
    simp [hs]

theorem Attribute.isOwned_of_custom {a : Attribute} (h : a.isNamed Directive.customName = true) :
    a.isOwned = true := by
  rw [isOwned, h, Bool.true_or]

/-- Fields are alike if they are marked alike and the attributes that may hold a key are the same. -/
theorem Field.alike_of_filter {f g : Field} {keep : Attribute → Bool}
    (hkeep : ∀ a, a.isNamed Directive.customName = true → keep a = true) (hn : f.name = g.name)
    (hi : f.Ignored ↔ g.Ignored) (h : f.attributes.filter keep = g.attributes.filter keep) :
    f.Alike g where
  name := hn
  unreadable := by
    have hh : ∀ as : List Attribute, (∃ a ∈ as, a.Unreadable) ↔
        ∃ a ∈ as.filter keep, a.Unreadable := fun as =>
      ⟨fun ⟨a, ha, hu⟩ => ⟨a, List.mem_filter.mpr ⟨ha, hkeep a hu.1⟩, hu⟩,
        fun ⟨a, ha, hu⟩ => ⟨a, (List.mem_filter.mp ha).1, hu⟩⟩
    rw [hh f.attributes, hh g.attributes, h]
  ignored := hi
  custom := by
    have hh : ∀ as : List Attribute, as.find? (·.isNamed Directive.customName) =
        (as.filter keep).find? (·.isNamed Directive.customName) := fun as => by
      rw [List.find?_filter]
      congr 1
      funext a
      cases hc : a.isNamed Directive.customName with
      | false => simp
      | true => simp [hkeep a hc]
    unfold customAttribute?
    rw [hh f.attributes, hh g.attributes, h]
    cases (g.attributes.filter keep).find? (·.isNamed Directive.customName) with
    | none => exact .none
    | some a => exact .some (.refl a)

theorem Attribute.alike_furtherArguments {a : Attribute} {ts ts' : List Token}
    (ha : a.isNamed Directive.customName = true) (hf : a.form = .list ts)
    (h : FurtherArguments ts ts') : a.Alike { a with form := .list ts' } where
  named _ := rfl
  directive := by
    have hi : a.isNamed Directive.ignoreName = false := not_isNamed ha (by decide)
    have hi' : ({ a with form := .list ts' } : Attribute).isNamed Directive.ignoreName = false := hi
    have ha' : ({ a with form := .list ts' } : Attribute).isNamed Directive.customName = true := ha
    simp only [Directive.ofAttribute, hi, hi', ha, ha', hf, Bool.false_eq_true, if_false, if_true]
    rcases option_rel_iff.mp h.customKey? with ⟨hk, hk'⟩ | ⟨key, key', hk, hk', hkey⟩
    · rw [hk, hk']
      exact .error rfl
    · rw [hk, hk']
      exact .ok (.custom hkey)

theorem Field.Edit.alike {f g : Field} (h : f.Edit g) : f.Alike g := by
  cases h with
  | declared visibility type =>
    exact Field.alike_of_attributes rfl (List.forall₂_same.mpr fun a _ => .refl a)
  | @others as h =>
    have hi : ∀ bs : List Attribute, (∃ b ∈ bs, b.isNamed Directive.ignoreName = true) ↔
        ∃ b ∈ bs.filter Attribute.isOwned, b.isNamed Directive.ignoreName = true := fun bs =>
      ⟨fun ⟨b, hb, hn⟩ => ⟨b, List.mem_filter.mpr ⟨hb, by simp [Attribute.isOwned, hn]⟩, hn⟩,
        fun ⟨b, hb, hn⟩ => ⟨b, (List.mem_filter.mp hb).1, hn⟩⟩
    refine Field.alike_of_filter (fun a => Attribute.isOwned_of_custom) rfl ?_ h
    exact (hi f.attributes).trans (h ▸ (hi as).symm)
  | ignoring ha hb h =>
    refine Field.alike_of_filter (fun a hc => ?_) rfl ⟨fun _ => hb, fun _ => ha⟩ h
    simp [Attribute.not_isNamed hc (show Directive.customName ≠ Directive.ignoreName by decide)]
  | @furtherKey before after b hf ha hb hr =>
    -- The first key stands in front of the new one, which can be read and marks nothing.
    have hi := Attribute.not_isNamed hb (show Directive.customName ≠ Directive.ignoreName by decide)
    obtain ⟨a, hm, hn⟩ := ha
    refine ⟨rfl, ?_, ?_, ?_⟩
    · simp [hf, or_and_right, exists_or, hr]
    · simp [Field.Ignored, hf, or_and_right, exists_or, hi]
    · have hsome : (before.find? (·.isNamed Directive.customName)).isSome = true :=
        List.find?_isSome.mpr ⟨a, hm, hn⟩
      obtain ⟨c, hc⟩ := Option.isSome_iff_exists.mp hsome
      simp only [Field.customAttribute?, hf, List.find?_append, hc, Option.some_or]
      exact .some (.refl c)
  | @furtherArguments before after a ts ts' hf ha hform h =>
    have hsame : ∀ as : List Attribute, List.Forall₂ Attribute.Alike as as := fun as =>
      List.forall₂_same.mpr fun a _ => .refl a
    refine Field.alike_of_attributes rfl ?_
    rw [hf]
    exact List.rel_append (hsame before) (.cons (Attribute.alike_furtherArguments ha hform h)
      (hsame after))

theorem Item.Edit.alike {i j : Item} (h : i.Edit j) : i.Alike j := by
  have hstyle : ∀ x : Except Fault Style, FieldKeys.Agree Eq x x := fun x =>
    agree_eq_iff.mpr rfl
  have hfields : ∀ fs : List Field, List.Forall₂ Field.Alike fs fs := fun fs =>
    List.forall₂_same.mpr fun f _ => .refl f
  cases h with
  | @field before after f g hb h =>
    refine ⟨rfl, rfl, rfl, hstyle _, ?_⟩
    rw [hb]
    exact .some (List.rel_append (hfields before) (.cons h.alike (hfields after)))
  | @attributes as h =>
    refine ⟨rfl, rfl, rfl, ?_, ?_⟩
    · simp only [Style.ofAttributes, h]
      exact hstyle _
    · cases i.body.fields? with
      | none => exact .none
      | some fs => exact .some (hfields fs)
  | moved h => exact Item.alike_of_unplaced h

theorem Fault.message_congr {f g : Fault} (h : f.kind = g.kind) : f.message = g.message := by
  cases f <;> cases g <;> cases h <;> rfl

theorem Outcome.Agree.shown {α : Type} {x y : Outcome α} (h : Outcome.Agree Eq x y) :
    x.shown = y.shown := by
  obtain ⟨notes, x⟩ := x
  obtain ⟨notes', y⟩ := y
  obtain ⟨hnotes, hresult⟩ := h
  refine Prod.ext hnotes ?_
  simp only [Outcome.shown] at hresult ⊢
  cases hresult with
  | error hk => simp only [Except.mapError, hk, Fault.message_congr hk]
  | ok ha => rw [ha]

/-- Edits of what no key depends on, as many as one likes and in both directions, change neither
the code of an item, nor its log, nor what its fault is. -/
theorem edits_without_effect {i j : Item} (h : Relation.EqvGen Item.Edit i j) (data : Bool) :
    (i.expand data).shown = (j.expand data).shown := by
  induction h with
  | rel i j h => exact (h.alike.expand data).shown
  | refl i => rfl
  | symm i j _ ih => exact ih.symm
  | trans i j k _ _ ih ih' => exact ih.trans ih'

theorem Outcome.result_of_shown {α : Type} {x y : Outcome α} {a : α} (h : x.shown = y.shown)
    (hx : x.result = .ok a) : y.result = .ok a := by
  have hh := congrArg Prod.snd h
  simp only [Outcome.shown, hx, Except.mapError] at hh
  cases hy : y.result with
  | error f => simp [hy] at hh
  | ok b =>
    rw [hy] at hh
    exact congrArg _ (Except.ok.inj hh).symm

def labelledPath : List Lexeme :=
  [.word "custom".toList, .sign '=' false, .word "a".toList, .sign ':' true, .sign ':' false,
    .word "b".toList]

def onePlusOne : List Lexeme :=
  [.literal "1".toList, .sign '+' false, .literal "1".toList]

theorem edits_without_effect_row :
    ∃ i j code,
      Item.ofText? "struct Row \x7b #[coding_key(custom = a::b)] userID: u8 \x7d".toList = some i ∧
      Item.ofText? ("struct Row \x7b #[serde(=>)] #[coding_key(custom = a::b, 1 + 1)] ".toList ++
        "#[coding_key(c)] pub userID: String \x7d".toList) = some j ∧
      (i.expand true).result = .ok code ∧ (j.expand true).result = .ok code ∧ code ≠ [] := by
  let list (name : String) (inside : List Lexeme) := attributeOf name (.list (inside.map Lexeme.token))
  let first := list "coding_key" labelledPath
  let longer := list "coding_key" (labelledPath ++ .sign ',' false :: onePlusOne)
  let second := list "coding_key" [.word "c".toList]
  let other := list "serde" [.sign '=' true, .sign '>' false]
  let before (attributes : List Attribute) := fieldOf attributes [] "userID" "u8"
  let after (attributes : List Attribute) := fieldOf attributes ["pub"] "userID" "String"
  have h : (Item.ofText? "struct Row \x7b #[coding_key(custom = a::b)] userID: u8 \x7d".toList).map
      (fun i => (i.unplaced, (i.expand true).result.toOption.map List.isEmpty)) =
      some (rowOf [before [first]], some false) := by
    decide +kernel
  have h' : (Item.ofText? ("struct Row \x7b #[serde(=>)] #[coding_key(custom = a::b, 1 + 1)] ".toList ++
      "#[coding_key(c)] pub userID: String \x7d".toList)).map Item.unplaced =
      some (rowOf [after [other, longer, second]]) := by
    decide +kernel
  obtain ⟨i, hi, h⟩ := Option.map_eq_some_iff.mp h
  obtain ⟨j, hj, hj'⟩ := Option.map_eq_some_iff.mp h'
  obtain ⟨hi', hx⟩ := Prod.mk.inj h
  have hwhole : WholeExpression (labelledPath.map Lexeme.token) := by decide +kernel
  have hone : WholeExpression (onePlusOne.map Lexeme.token) := by decide +kernel
  have hread : ¬ second.Unreadable := fun hu => by
    have he : (Directive.ofAttribute second).isOk = true := by decide +kernel
    simp [Directive.ofAttribute_eq_error_iff.mpr ⟨hu, rfl⟩, Except.isOk, Except.toBool] at he
  have harguments : (before [first]).Edit (before [longer]) :=
    @Field.Edit.furtherArguments _ [] [] first _ _ rfl (by decide) rfl
      (@FurtherArguments.inserted (Lexeme.sign ',' false).token _ _ _ [] hwhole (.refl _) rfl hone rfl)
  have hkey : (before [longer]).Edit (before [longer, second]) :=
    @Field.Edit.furtherKey _ [longer] [] second rfl ⟨longer, by simp, by decide⟩ (by decide) hread
  have hother : (before [longer, second]).Edit (before [other, longer, second]) :=
    .others (by rfl)
  have hdeclared : (before [other, longer, second]).Edit (after [other, longer, second]) :=
    .declared _ _
  have hedit : ∀ {f g : Field}, f.Edit g → Relation.EqvGen Item.Edit (rowOf [f]) (rowOf [g]) :=
    fun h => .rel _ _ (@Item.Edit.field _ [] [] _ _ rfl h)
  have hs := edits_without_effect (.trans _ _ _ (.rel _ _ (.moved hi')) <|
    .trans _ _ _ (hedit harguments) <| .trans _ _ _ (hedit hkey) <| .trans _ _ _ (hedit hother) <|
    .trans _ _ _ (hedit hdeclared) (.symm _ _ (.rel _ _ (.moved hj')))) true
  obtain ⟨code, hc, hn⟩ := exists_code hx
  exact ⟨i, j, code, hi, hj, hc, Outcome.result_of_shown hs hc, hn⟩

end FieldKeys
