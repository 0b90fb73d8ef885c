import FieldKeys.Proofs.Stages
import FieldKeys.Proofs.StyleGrouping

/-! Items up to the places of their tokens. The places decide neither about the style of an item
nor about what its fields ask for. -/

namespace FieldKeys

deriving instance DecidableEq for Parameter, Generics, Body, Item

def Token.unplaced (t : Token) : Token := t.lexeme.token

def Expression.unplaced (e : Expression) : Expression :=
  ⟨e.shape, e.tokens.map Token.unplaced⟩

def Attribute.Form.unplaced : Attribute.Form → Attribute.Form
  | .bare => .bare
  | .value e => .value e.unplaced
  | .list inside => .list (inside.map Token.unplaced)

def Attribute.unplaced (a : Attribute) : Attribute :=
  ⟨a.path.map Token.unplaced, a.form.unplaced, ⟨.origin, .origin⟩⟩

def Field.unplaced (f : Field) : Field where
  attributes := f.attributes.map Attribute.unplaced
  visibility := f.visibility.map Token.unplaced
  name := f.name
  type := f.type.map Token.unplaced

def Parameter.unplaced (p : Parameter) : Parameter where
  sort := p.sort
  attributes := p.attributes.map Token.unplaced
  name := p.name.unplaced
  afterColon := p.afterColon.map Token.unplaced
  comma := p.comma

def Generics.unplaced (g : Generics) : Generics :=
  ⟨g.parameters.map Parameter.unplaced, g.conditions.map Token.unplaced⟩

def Body.unplaced : Body → Body
  | .named fields => .named (fields.map Field.unplaced)
  | .tuple => .tuple
  | .unit => .unit
  | .noStructure => .noStructure

/-- The item with all its tokens at one place. -/
def Item.unplaced (i : Item) : Item where
  attributes := i.attributes.map Attribute.unplaced
  visibility := i.visibility.map Token.unplaced
  name := i.name
  generics := i.generics.unplaced
  body := i.body.unplaced
  span := ⟨.origin, .origin⟩

theorem Token.unplaced_eq_iff {t u : Token} : t.unplaced = u.unplaced ↔ t.lexeme = u.lexeme := by
  simp [unplaced, Lexeme.token]

theorem Token.map_lexeme_unplaced (ts : List Token) :
    (ts.map Token.unplaced).map (·.lexeme) = ts.map (·.lexeme) := by
  rw [List.map_map]
  rfl

theorem Token.map_unplaced_eq_iff {ts ts' : List Token} :
    ts.map Token.unplaced = ts'.map Token.unplaced ↔
      ts.map (·.lexeme) = ts'.map (·.lexeme) := by
  have hinj : Function.Injective Lexeme.token := fun l l' h => congrArg Token.lexeme h
  have hh : ∀ us : List Token, us.map Token.unplaced = (us.map (·.lexeme)).map Lexeme.token :=
    fun us => by rw [List.map_map]; rfl
  rw [hh, hh]
  exact (List.map_injective_iff.mpr hinj).eq_iff

theorem alike_of_unplaced {ts ts' : List Token}
    (h : ts.map Token.unplaced = ts'.map Token.unplaced) : Alike ts ts' := by
  have hh := forall₂_map_eq_iff.mpr h
  clear h
  induction hh with
  | nil => exact .nil
  | @cons t u ts us ht _ ih =>
    obtain ⟨l, s⟩ := t
    obtain ⟨l', s'⟩ := u
    obtain rfl : l = l' := Token.unplaced_eq_iff.mp ht
    exact .cons l s s' ih

theorem Expression.inFront?_unplaced (whole : Bool) {ts ts' : List Token} (h : Alike ts ts') :
    Option.Rel (fun x y => x.1.unplaced = y.1.unplaced ∧ Alike x.2 y.2)
      (Expression.inFront? whole ts) (Expression.inFront? whole ts') := by
  rcases option_rel_iff.mp (Expression.inFront?_alike whole h) with
    ⟨hx, hy⟩ | ⟨x, y, hx, hy, hs, ht, hr⟩
  · rw [hx, hy]
    exact .none
  · rw [hx, hy]
    refine .some ⟨?_, hr⟩
    simp only [unplaced, hs, Token.map_unplaced_eq_iff.mpr ht]

theorem Expression.read?_unplaced {ts ts' : List Token} (h : Alike ts ts') :
    Option.Rel (fun x y => x.1.unplaced = y.1.unplaced ∧ Alike x.2 y.2)
      (Expression.read? ts) (Expression.read? ts') :=
  inFront?_unplaced true h

theorem Expression.readList?_alike (n : Nat) {ts ts' : List Token} (h : Alike ts ts') :
    Option.Rel (List.Forall₂ fun x y => x.unplaced = y.unplaced)
      (Expression.readList? n ts) (Expression.readList? n ts') := by
  induction n generalizing ts ts' with
  | zero =>
    cases h with
    | nil => exact .some .nil
    | sign | cons => exact .none
  | succ n ih =>
    rcases h.nil_or_cons with ⟨rfl, rfl⟩ | ⟨t, ts, t', ts', rfl, rfl⟩
    · exact .some .nil
    rcases option_rel_iff.mp (read?_unplaced h) with
      ⟨hx, hy⟩ | ⟨⟨x, left⟩, ⟨y, left'⟩, hx, hy, hxy, hl⟩
    · simp [readList?, hx, hy]
    · simp only at hxy hl
      simp only [readList?, hx, hy]
      rcases hl.nil_or_cons with ⟨rfl, rfl⟩ | ⟨comma, left, comma', left', rfl, rfl⟩
      · exact .some (.cons hxy .nil)
      obtain ⟨hc, -, hl⟩ := hl.head
      simp only [hc]
      split
      · exact option_rel_map (ih hl) fun _ _ hh => .cons hxy hh
      · exact .none

theorem Expression.listOfTokens?_alike {ts ts' : List Token} (h : Alike ts ts') :
    Option.Rel (List.Forall₂ fun x y => x.unplaced = y.unplaced)
      (Expression.listOfTokens? ts) (Expression.listOfTokens? ts') := by
  rw [listOfTokens?, listOfTokens?, h.length]
  exact readList?_alike _ h

theorem afterLabel?_alike {ts ts' : List Token} (h : Alike ts ts') :
    Option.Rel Alike (afterLabel? ts) (afterLabel? ts') := by
  unfold afterLabel?
  rcases option_rel_iff.mp (Phrase.read_alike h .attributes) with ⟨hr, hr'⟩ | ⟨r, r', hr, hr', hh⟩
  · simp [hr, hr']
  · have hl := hh.rest
    simp only [hr, hr', Option.bind_some]
    generalize r.rest = us at hl ⊢
    generalize r'.rest = us' at hl ⊢
    rcases hl.nil_or_cons with ⟨rfl, rfl⟩ | ⟨label, us, label', us', rfl, rfl⟩
    · exact .none
    obtain ⟨-, hw, hl⟩ := hl.head
    have hlook := Look.holds_alike hl (signAt 0 "==" ||| signAt 0 "=>")
    rcases hl.nil_or_cons with ⟨rfl, rfl⟩ | ⟨equals, us, equals', us', rfl, rfl⟩
    · exact .none
    obtain ⟨hs, -, hl⟩ := hl.head
    simp only [hw, hs, hlook]
    split
    · exact .some hl
    · exact .none

theorem atArgumentEnd_alike {ts ts' : List Token} (h : Alike ts ts') :
    atArgumentEnd ts = atArgumentEnd ts' := by
  cases h <;> rfl

theorem labelled?_alike {ts ts' : List Token} (h : Alike ts ts') :
    (labelled? ts).map Expression.unplaced = (labelled? ts').map Expression.unplaced := by
  unfold labelled?
  rcases option_rel_iff.mp (afterLabel?_alike h) with ⟨ha, ha'⟩ | ⟨us, us', ha, ha', hu⟩
  · simp [ha, ha']
  · rcases option_rel_iff.mp (Expression.read?_unplaced hu) with
      ⟨hx, hy⟩ | ⟨⟨x, left⟩, ⟨y, left'⟩, hx, hy, hxy, hl⟩
    · simp [ha, ha', hx, hy]
    · have hend : atArgumentEnd left = atArgumentEnd left' := atArgumentEnd_alike hl
      simp only [ha, ha', Option.bind_some, hx, hy, hend]
      split
      · simpa using hxy
      · rfl

theorem customKey?_alike {ts ts' : List Token} (h : Alike ts ts') :
    Option.Rel (fun x y => x.map Expression.unplaced = y.map Expression.unplaced)
      (customKey? ts) (customKey? ts') := by
  refine option_rel_map (Expression.listOfTokens?_alike h) fun es es' hes => ?_
  have hlabel := labelled?_alike h
  have hhead : es.head?.map Expression.unplaced = es'.head?.map Expression.unplaced := by
    cases hes with
    | nil => rfl
    | cons hx _ => exact congrArg some hx
  cases hl : labelled? ts <;> cases hl' : labelled? ts' <;> simp_all

/-- Directives that ask for the same, wherever they stand. -/
inductive Directive.Alike : Directive → Directive → Prop
  | ignore : Directive.Alike .ignore .ignore
  | other : Directive.Alike .other .other
  | custom {span span' : Span} {key key' : Option Expression}
      (h : key.map Expression.unplaced = key'.map Expression.unplaced) :
      Directive.Alike (.custom span key) (.custom span' key')

theorem Attribute.isNamed_congr {a b : Attribute} (h : a.unplaced = b.unplaced) (name : Text) :
    a.isNamed name = b.isNamed name := by
  have hp := congrArg Attribute.path h
  simp only [unplaced] at hp
  unfold isNamed
  generalize a.path = ts at hp ⊢
  generalize b.path = ts' at hp ⊢
  rcases forall₂_map_eq_iff.mpr hp with _ | ⟨ht, _ | _⟩
  · rfl
  · simp only [Token.unplaced_eq_iff.mp ht]
  · rfl

theorem Attribute.form_congr {a b : Attribute} (h : a.unplaced = b.unplaced) :
    a.form.unplaced = b.form.unplaced :=
  congrArg Attribute.form h

theorem Directive.ofAttribute_congr {a b : Attribute} (h : a.unplaced = b.unplaced) :
    Agree Directive.Alike (Directive.ofAttribute a) (Directive.ofAttribute b) := by
  have hf := Attribute.form_congr h
  unfold ofAttribute
  rw [Attribute.isNamed_congr h, Attribute.isNamed_congr h]
  split
  · exact .ok .ignore
  · split
    · cases ha : a.form <;> cases hb : b.form <;>
        simp only [ha, hb, Attribute.Form.unplaced, reduceCtorEq, Attribute.Form.value.injEq,
          Attribute.Form.list.injEq] at hf
      case bare.bare => exact .ok (.custom rfl)
      case value.value x y => exact .ok (.custom (congrArg some hf))
      case list.list inside inside' =>
        rcases option_rel_iff.mp (customKey?_alike (alike_of_unplaced hf)) with
          ⟨hk, hk'⟩ | ⟨key, key', hk, hk', hkey⟩
        · simp only [hk, hk']
          exact .error rfl
        · simp only [hk, hk']
          exact .ok (.custom hkey)
    · exact .ok .other

theorem StyleOption.readArguments_alike (whole : Bool) (n : Nat) {ts ts' : List Token}
    (h : Alike ts ts') :
    Agree Eq (StyleOption.readArguments whole n ts) (StyleOption.readArguments whole n ts') := by
  induction n generalizing ts ts' with
  | zero =>
    cases h with
    | nil => exact .ok rfl
    | sign | cons => exact .error rfl
  | succ n ih =>
    rcases h.nil_or_cons with ⟨rfl, rfl⟩ | ⟨t, ts, t', ts', rfl, rfl⟩
    · exact .ok rfl
    have ha := @readArgument_alike whole _ _ h
    simp only [readArguments]
    generalize readArgument whole (t :: ts) = x at ha ⊢
    generalize readArgument whole (t' :: ts') = y at ha ⊢
    cases ha with
    | error hk => exact .error hk
    | @ok a b hab =>
      obtain ⟨s, left⟩ := a
      obtain ⟨s', left'⟩ := b
      obtain ⟨rfl, hl⟩ : s = s' ∧ Alike left left' := hab
      rcases hl.nil_or_cons with ⟨rfl, rfl⟩ | ⟨comma, left, comma', left', rfl, rfl⟩
      · exact .ok rfl
      obtain ⟨hc, -, hl⟩ := hl.head
      simp only [hc]
      split
      · exact (ih hl).map fun _ _ hh => congrArg _ hh
      · exact .error rfl

theorem StyleOption.ofAttribute_congr {a b : Attribute} (h : a.unplaced = b.unplaced) :
    Agree Eq (StyleOption.ofAttribute a) (StyleOption.ofAttribute b) := by
  have hf := Attribute.form_congr h
  unfold ofAttribute
  cases ha : a.form <;> cases hb : b.form <;>
    simp only [ha, hb, Attribute.Form.unplaced, reduceCtorEq, Attribute.Form.list.injEq] at hf
  case bare.bare => exact .ok rfl
  case value.value => exact .error rfl
  case list.list inside inside' =>
    have hl := alike_of_unplaced hf
    have hloose := readArguments_alike false inside'.length hl
    simp only [hl.length]
    generalize readArguments false inside'.length inside = x at hloose ⊢
    generalize readArguments false inside'.length inside' = y at hloose ⊢
    cases hloose with
    | error hk => exact .error hk
    | ok => exact readArguments_alike true _ hl

theorem StyleOption.ofAttributes_congr {as bs : List Attribute}
    (h : List.Forall₂ (fun a b => a.unplaced = b.unplaced) as bs) :
    Agree Eq (StyleOption.ofAttributes as) (StyleOption.ofAttributes bs) := by
  induction h with
  | nil => exact .ok rfl
  | @cons a b as bs hab _ ih =>
    have ha := ofAttribute_congr hab
    simp only [ofAttributes]
    generalize ofAttribute a = x at ha ⊢
    generalize ofAttribute b = y at ha ⊢
    cases ha with
    | error hk => exact .error hk
    | ok hs =>
      obtain rfl := hs
      exact ih.map fun _ _ hh => congrArg _ hh

theorem Style.ofAttributes_congr {as bs : List Attribute}
    (h : as.map Attribute.unplaced = bs.map Attribute.unplaced) :
    Agree Eq (Style.ofAttributes as) (Style.ofAttributes bs) := by
  have hf : List.Forall₂ (fun a b => a.unplaced = b.unplaced)
      (as.filter (·.isNamed StyleOption.attributeName))
      (bs.filter (·.isNamed StyleOption.attributeName)) := by
    refine List.rel_filter (fun a b hab => ?_) (forall₂_map_eq_iff.mpr h)
    simp only [Attribute.isNamed_congr hab]
  exact (StyleOption.ofAttributes_congr hf).map fun _ _ hh => by rw [hh]

end FieldKeys
