import FieldKeys.Proofs.Grammar.Alike
import FieldKeys.Proofs.Grammar.Locality
import FieldKeys.Proofs.Lists
import FieldKeys.Proofs.StyleFault

/-! How arguments are divided among attributes does not matter: an attribute reads each of its
arguments as if it stood alone, and then the attributes read all arguments in one row. -/

namespace FieldKeys

variable {whole : Bool}

inductive FaultKind where
  | illFormed
  | notStructure
  | unrecognizedStyle
  | unknownArgument
  | malformedCustomKey
deriving DecidableEq

def Fault.kind : Fault → FaultKind
  | .illFormed => .illFormed
  | .notStructure _ => .notStructure
  | .unrecognizedStyle _ => .unrecognizedStyle
  | .unknownArgument _ => .unknownArgument
  | .malformedCustomKey _ => .malformedCustomKey

/-- Answers that are the same up to where the fault is. -/
def SameAnswer {α : Type} (x y : Except Fault α) : Prop :=
  x.mapError Fault.kind = y.mapError Fault.kind

/-- An argument that is well-formed by itself: a name, alone, with a group, or with a value. -/
inductive WholeArgument : List Token → Prop
  | name {rooted : Bool} {ts words : List Token} (h : PathInFront rooted ts words []) :
      WholeArgument ts
  | group {rooted : Bool} {ts words inside left : List Token} {opening : Token} {d : Delimiter}
      (h : PathInFront rooted ts words (opening :: inside)) (ho : opening.lexeme = .opening d)
      (hg : cutGroup 1 inside = some (left, [])) : WholeArgument ts
  | value {rooted : Bool} {ts words value : List Token} {equals : Token} {x : Expression}
      (h : PathInFront rooted ts words (equals :: value)) (he : isSign '=' equals = true)
      (hx : Expression.read? value = some (x, [])) : WholeArgument ts

/-- Arguments with single commas between them, and perhaps one at the end. -/
inductive Separated : List (List Token) → List Token → Prop
  | nil : Separated [] []
  | last (argument : List Token) : Separated [argument] argument
  | more {comma : Token} {argument ts : List Token} {arguments : List (List Token)}
      (hc : isSign ',' comma = true) (h : Separated arguments ts) :
      Separated (argument :: arguments) (argument ++ comma :: ts)

inductive Attribute.Holds (a : Attribute) : List (List Token) → Prop
  | bare (h : a.form = .bare) : Holds a []
  | list {ts : List Token} {arguments : List (List Token)} (h : a.form = .list ts)
      (hs : Separated arguments ts) : Holds a arguments

/-- Attributes that hold the same well-formed arguments in the same order, divided among them in
whatever way. -/
def Regrouped (as bs : List Attribute) : Prop :=
  ∃ pss qss, List.Forall₂ Attribute.Holds (as.filter (·.isNamed StyleOption.attributeName)) pss ∧
    List.Forall₂ Attribute.Holds (bs.filter (·.isNamed StyleOption.attributeName)) qss ∧
    (∀ p ∈ pss.flatten, WholeArgument p) ∧ List.Forall₂ Alike pss.flatten qss.flatten

def StyleOption.ofArgument (ts : List Token) : Except Fault Style :=
  (StyleOption.readArgument true ts).map Prod.fst

theorem WordsInFront.append {ts words rest tail : List Token} (h : WordsInFront ts words rest)
    (ht : atArgumentEnd tail = true) : WordsInFront (ts ++ tail) words (rest ++ tail) := by
  induction h with
  | last hw hr => exact .last hw ((signAhead_append_end (by decide) (.of_argument ht)).trans hr)
  | more hw hm _ ih => exact .more hw hm ih

theorem PathInFront.append {rooted : Bool} {ts words rest tail : List Token}
    (h : PathInFront rooted ts words rest) (ht : atArgumentEnd tail = true) :
    PathInFront rooted (ts ++ tail) words (rest ++ tail) := by
  cases h with
  | plain h => exact .plain (h.append ht)
  | rooted hm h => exact .rooted hm (h.append ht)

theorem StyleOption.readValue_of_not_sign {t : Token} {ts : List Token}
    (h : isSign '=' t = false) : StyleOption.readValue whole (t :: ts) = .error .illFormed := by
  simp [readValue, h]

theorem StyleOption.readValue_argumentEnd {tail : List Token} (ht : atArgumentEnd tail = true) :
    StyleOption.readValue whole tail = .error .illFormed := by
  cases tail with
  | nil => rfl
  | cons t tail =>
    refine readValue_of_not_sign ?_
    cases hl : t.lexeme with
    | sign c joint =>
      obtain rfl : c = ',' := by simpa [atArgumentEnd, isSign, hl] using ht
      simp [isSign, hl]
    | _ => simp [isSign, hl]

theorem PathInFront.readArgument_append {rooted : Bool} {ts words rest tail : List Token}
    (h : PathInFront rooted ts words rest) (ht : atArgumentEnd tail = true)
    (hv : StyleOption.readValue whole (rest ++ tail) =
      ((StyleOption.readValue true rest).map Prod.fst).map (·, tail)) :
    StyleOption.readArgument whole (ts ++ tail) = (StyleOption.ofArgument ts).map (·, tail) := by
  have happ := h.append ht
  unfold StyleOption.ofArgument
  by_cases hn : rooted = false ∧ words.map (·.lexeme) = [.word StyleOption.argumentName]
  · obtain ⟨rfl, hw⟩ := hn
    obtain ⟨label, rfl, hl⟩ := List.map_eq_singleton_iff.mp hw
    rw [happ.readArgument_label hl, h.readArgument_label hl, hv]
  · rw [happ.readArgument_otherName hn, h.readArgument_otherName hn]
    rfl

/-- A well-formed argument is read in front of a comma as it is read alone. -/
theorem WholeArgument.readArgument_append {ts tail : List Token} (h : WholeArgument ts)
    (ht : atArgumentEnd tail = true) :
    StyleOption.readArgument whole (ts ++ tail) = (StyleOption.ofArgument ts).map (·, tail) := by
  cases h with
  | name h =>
    refine h.readArgument_append ht ?_
    rw [List.nil_append, StyleOption.readValue_argumentEnd ht, StyleOption.readValue_argumentEnd rfl]
    rfl
  | @group rooted ts words inside left opening d h ho hg =>
    refine h.readArgument_append ht ?_
    have hs : isSign '=' opening = false := by simp [isSign, ho]
    rw [List.cons_append, StyleOption.readValue_of_not_sign hs, StyleOption.readValue_of_not_sign hs]
    rfl
  | @value rooted ts words value equals x h he hx =>
    refine h.readArgument_append ht ?_
    have hx : Expression.inFront? true value = some (x, []) := hx
    have hx' : Expression.read? (value ++ tail) = some (x, tail) :=
      @Expression.inFront?_tail true x value [] [] tail (by simpa using hx) .nothing
        (.of_argument ht)
    have hx' : Expression.inFront? whole (value ++ tail) = some (x, tail) :=
      Expression.inFront?_of_whole hx'
    simp only [List.cons_append, StyleOption.readValue, he, if_true, hx, hx']
    cases Style.ofExpression x <;> rfl

theorem PathInFront.ne_nil {rooted : Bool} {ts words rest : List Token}
    (h : PathInFront rooted ts words rest) : ts ≠ [] := by
  rintro rfl
  cases h with
  | plain h => cases h

theorem WholeArgument.ne_nil {ts : List Token} (h : WholeArgument ts) : ts ≠ [] := by
  cases h with
  | name h | group h | value h => exact h.ne_nil

theorem StyleOption.readArguments_separated {n : Nat} {arguments : List (List Token)}
    {ts : List Token} (h : Separated arguments ts) (hw : ∀ p ∈ arguments, WholeArgument p)
    (hn : ts.length ≤ n) :
    StyleOption.readArguments whole n ts = arguments.mapM StyleOption.ofArgument := by
  induction h generalizing n with
  | nil => cases n <;> rfl
  | last p =>
    have hp := hw p (by simp)
    have ha := @WholeArgument.readArgument_append whole p [] hp rfl
    obtain ⟨t, p, rfl⟩ := List.exists_cons_of_ne_nil hp.ne_nil
    obtain ⟨n, rfl⟩ := Nat.exists_eq_succ_of_ne_zero (Nat.ne_zero_of_lt hn)
    rw [List.append_nil] at ha
    simp only [readArguments, ha, List.mapM_cons, List.mapM_nil]
    cases ofArgument (t :: p) <;> rfl
  | @more comma p ts arguments hc _ ih =>
    have hp := hw p (by simp)
    have ha := @WholeArgument.readArgument_append whole p (comma :: ts) hp hc
    have hlen := hn
    obtain ⟨t, p, rfl⟩ := List.exists_cons_of_ne_nil hp.ne_nil
    obtain ⟨n, rfl⟩ := Nat.exists_eq_succ_of_ne_zero (Nat.ne_zero_of_lt hn)
    have hrest := @ih n (fun q hq => hw q (by simp [hq]))
      (by simp only [List.length_append, List.length_cons] at hlen; omega)
    rw [List.cons_append] at ha ⊢
    simp only [readArguments, ha, List.mapM_cons]
    cases ofArgument (t :: p) with
    | error f => rfl
    | ok s =>
      simp only [Except.map, hc, if_true, hrest]
      cases arguments.mapM ofArgument <;> rfl

theorem Attribute.Holds.ofAttribute_eq {a : Attribute} {arguments : List (List Token)}
    (h : a.Holds arguments) (hw : ∀ p ∈ arguments, WholeArgument p) :
    StyleOption.ofAttribute a = arguments.mapM StyleOption.ofArgument := by
  cases h with
  | bare h => simp [StyleOption.ofAttribute, h]; rfl
  | list h hs =>
    simp only [StyleOption.ofAttribute, h,
      StyleOption.readArguments_separated hs hw (Nat.le_refl _)]
    cases arguments.mapM StyleOption.ofArgument <;> rfl

theorem StyleOption.ofAttributes_append (as bs : List Attribute) :
    StyleOption.ofAttributes (as ++ bs) = (StyleOption.ofAttributes as).bind fun ss =>
      (StyleOption.ofAttributes bs).map (ss ++ ·) := by
  induction as with
  | nil => cases h : ofAttributes bs <;> simp [ofAttributes, h, Except.map, Except.bind]
  | cons a as ih =>
    simp only [List.cons_append, ofAttributes, ih]
    cases ofAttribute a with
    | error f => rfl
    | ok ss =>
      cases ofAttributes as with
      | error f => rfl
      | ok ss' => cases ofAttributes bs <;> simp [Except.map, Except.bind]

theorem StyleOption.ofAttributes_holds {as : List Attribute} {pss : List (List (List Token))}
    (h : List.Forall₂ Attribute.Holds as pss) (hw : ∀ p ∈ pss.flatten, WholeArgument p) :
    StyleOption.ofAttributes as = pss.flatten.mapM StyleOption.ofArgument := by
  induction h with
  | nil => rfl
  | @cons a ps as pss ha _ ih =>
    simp only [List.flatten_cons, List.mem_append] at hw
    have hrest := ih fun p hp => hw p (.inr hp)
    simp only [ofAttributes, ha.ofAttribute_eq fun p hp => hw p (.inl hp), hrest, List.flatten_cons,
      List.mapM_append]
    cases ps.mapM ofArgument with
    | error f => rfl
    | ok ss => cases pss.flatten.mapM ofArgument <;> rfl

theorem SameAnswer.map {α β : Type} {x y : Except Fault α} (h : SameAnswer x y) (g : α → β) :
    SameAnswer (x.map g) (y.map g) := by
  cases x <;> cases y <;> simp_all [SameAnswer, Except.mapError, Except.map]

theorem SameAnswer.bind {α β : Type} {x y : Except Fault α} (h : SameAnswer x y)
    {g g' : α → Except Fault β} (hg : ∀ a, SameAnswer (g a) (g' a)) :
    SameAnswer (x.bind g) (y.bind g') := by
  cases x <;> cases y <;> simp_all [SameAnswer, Except.mapError, Except.bind]

theorem SameAnswer.mapM {α : Type} {rel : List Token → List Token → Prop}
    {g : List Token → Except Fault α} {as bs : List (List Token)}
    (h : List.Forall₂ rel as bs) (hg : ∀ a b, rel a b → SameAnswer (g a) (g b)) :
    SameAnswer (as.mapM g) (bs.mapM g) := by
  induction h with
  | nil => rfl
  | cons hab _ ih =>
    simp only [List.mapM_cons]
    exact (hg _ _ hab).bind fun a => ih.bind fun _ => rfl

/-- Both answers are faults of one kind, or both are results and the results are related. -/
inductive Agree {α β : Type} (rel : α → β → Prop) : Except Fault α → Except Fault β → Prop
  | error {f g : Fault} (h : f.kind = g.kind) : Agree rel (.error f) (.error g)
  | ok {a : α} {b : β} (h : rel a b) : Agree rel (.ok a) (.ok b)

theorem Agree.map {α β γ δ : Type} {rel : α → β → Prop} {rel' : γ → δ → Prop}
    {x : Except Fault α} {y : Except Fault β} {f : α → γ} {g : β → δ} (h : Agree rel x y)
    (hf : ∀ a b, rel a b → rel' (f a) (g b)) : Agree rel' (x.map f) (y.map g) := by
  cases h with
  | error h => exact .error h
  | ok h => exact .ok (hf _ _ h)

theorem Agree.imp {α β : Type} {rel rel' : α → β → Prop} {x : Except Fault α} {y : Except Fault β}
    (h : Agree rel x y) (hr : ∀ a b, rel a b → rel' a b) : Agree rel' x y := by
  cases h with
  | error h => exact .error h
  | ok h => exact .ok (hr _ _ h)

theorem Agree.symm {α : Type} {x y : Except Fault α} (h : Agree Eq x y) : Agree Eq y x := by
  cases h with
  | error h => exact .error h.symm
  | ok h => exact .ok h.symm

theorem Agree.trans_eq {α β : Type} {rel : α → β → Prop} {x : Except Fault α} {y z : Except Fault β}
    (h : Agree rel x y) (h' : Agree Eq y z) : Agree rel x z := by
  cases h with
  | error h =>
    cases h' with
    | error h' => exact .error (h.trans h')
  | ok h =>
    cases h' with
    | ok h' => exact .ok (h' ▸ h)

theorem Agree.exists_ok {α β : Type} {rel : α → β → Prop} {x : Except Fault α} {y : Except Fault β}
    (h : Agree rel x y) {a : α} (hx : x = .ok a) : ∃ b, y = .ok b ∧ rel a b := by
  cases h with
  | error h => simp at hx
  | ok h =>
    obtain rfl := Except.ok.inj hx
    exact ⟨_, rfl, h⟩

theorem agree_eq_iff {α : Type} {x y : Except Fault α} : Agree Eq x y ↔ SameAnswer x y := by
  constructor
  · rintro (h | rfl)
    · simp [SameAnswer, Except.mapError, h]
    · rfl
  · intro h
    cases x with
    | error f =>
      cases y with
      | error g => exact .error (by simpa [SameAnswer, Except.mapError] using h)
      | ok b => simp [SameAnswer, Except.mapError] at h
    | ok a =>
      cases y with
      | error g => simp [SameAnswer, Except.mapError] at h
      | ok b => exact .ok (by simpa [SameAnswer, Except.mapError] using h)

theorem Alike.head {t t' : Token} {ts ts' : List Token} (h : Alike (t :: ts) (t' :: ts')) :
    (∀ c, isSign c t = isSign c t') ∧ (∀ w, t.lexeme.isWord w = t'.lexeme.isWord w) ∧
      Alike ts ts' := by
  cases h with
  | sign => exact ⟨fun _ => rfl, fun _ => rfl, .nil⟩
  | cons l s s' h => exact ⟨fun _ => rfl, fun _ => rfl, h⟩

theorem Alike.eq_nil_iff {ts ts' : List Token} (h : Alike ts ts') : ts = [] ↔ ts' = [] := by
  cases h <;> simp

/-- Alike tokens end together. -/
theorem Alike.nil_or_cons {ts ts' : List Token} (h : Alike ts ts') :
    (ts = [] ∧ ts' = []) ∨ ∃ t us t' us', ts = t :: us ∧ ts' = t' :: us' := by
  cases h with
  | nil => exact .inl ⟨rfl, rfl⟩
  | sign | cons => exact .inr ⟨_, _, _, _, rfl, rfl⟩

theorem Expression.inFront?_alike (whole : Bool) {ts ts' : List Token} (h : Alike ts ts') :
    Option.Rel (fun x y => x.1.shape = y.1.shape ∧
        x.1.tokens.map (·.lexeme) = y.1.tokens.map (·.lexeme) ∧ Alike x.2 y.2)
      (Expression.inFront? whole ts) (Expression.inFront? whole ts') :=
  option_rel_map (Phrase.inFront_alike (.expression true) h .other) fun _ _ hh =>
    ⟨hh.shape, hh.written, hh.rest⟩

theorem getLast?_lexeme_congr {α : Type} {a b : List Token} {g : Token → Option α}
    (h : a.map (·.lexeme) = b.map (·.lexeme)) (hg : ∀ t u, t.lexeme = u.lexeme → g t = g u) :
    a.getLast?.bind g = b.getLast?.bind g := by
  have hl : a.getLast?.map (·.lexeme) = b.getLast?.map (·.lexeme) := by
    simpa using congrArg List.getLast? h
  cases ha : a.getLast? with
  | none =>
    have hb : b.getLast? = none := by simpa [ha] using hl.symm
    rw [hb]
  | some t =>
    obtain ⟨u, hb, hu⟩ := Option.map_eq_some_iff.mp (hl.symm.trans (congrArg _ ha))
    rw [hb]
    exact hg t u hu.symm

theorem Style.ofExpression_alike {x y : Expression} (hs : x.shape = y.shape)
    (ht : x.tokens.map (·.lexeme) = y.tokens.map (·.lexeme)) :
    SameAnswer (Style.ofExpression x) (Style.ofExpression y) := by
  have hname : x.name? = y.name? := by
    have hh := getLast?_lexeme_congr (g := Token.word?) ht fun t u h => by simp [Token.word?, h]
    simp only [Expression.name?, hs, hh]
  have hstring : x.stringValue? = y.stringValue? := by
    have hh := getLast?_lexeme_congr (g := Token.literal?) ht fun t u h => by
      simp [Token.literal?, h]
    simp only [Expression.stringValue?, hs, hh]
  unfold ofExpression
  rw [hname, hstring]
  split <;> rfl

theorem StyleOption.readValue_alike {ts ts' : List Token} (h : Alike ts ts') :
    Agree (fun x y => x.1 = y.1 ∧ Alike x.2 y.2) (StyleOption.readValue whole ts)
      (StyleOption.readValue whole ts') := by
  rcases h.nil_or_cons with ⟨rfl, rfl⟩ | ⟨t, ts, t', ts', rfl, rfl⟩
  · exact .error rfl
  obtain ⟨hsame, -, hr⟩ := h.head
  cases he : isSign '=' t with
  | false =>
    rw [readValue_of_not_sign he, readValue_of_not_sign ((hsame '=').symm.trans he)]
    exact .error rfl
  | true =>
    have he' := (hsame '=').symm.trans he
    rcases option_rel_iff.mp (Expression.inFront?_alike whole hr) with
      ⟨hx, hy⟩ | ⟨⟨x, left⟩, ⟨y, left'⟩, hx, hy, hs, ht, hl⟩
    · simp only [readValue, he, he', if_true, hx, hy]
      exact .error rfl
    · simp only [readValue, he, he', if_true, hx, hy]
      exact (agree_eq_iff.mpr (Style.ofExpression_alike hs ht)).map fun _ _ hh => ⟨hh, hl⟩

theorem StyleOption.readArgument_alike {ts ts' : List Token} (h : Alike ts ts') :
    Agree (fun x y => x.1 = y.1 ∧ Alike x.2 y.2) (StyleOption.readArgument whole ts)
      (StyleOption.readArgument whole ts') := by
  unfold readArgument
  rcases option_rel_iff.mp (Phrase.read_alike h .nestedPath) with
    ⟨hr, hr'⟩ | ⟨r, r', hr, hr', hh⟩
  · rw [hr, hr']
    exact .error rfl
  · have hw := hh.written
    simp only [hr, hr']
    generalize r.written = w at hw ⊢
    generalize r'.written = w' at hw ⊢
    rcases w with _ | ⟨t, _ | ⟨u, us⟩⟩ <;> rcases w' with _ | ⟨t', _ | ⟨u', us'⟩⟩ <;> simp at hw
    · exact .error rfl
    · simp only [hw]
      split
      · exact readValue_alike hh.rest
      · exact .error rfl
    · exact .error rfl

theorem StyleOption.ofArgument_alike {ts ts' : List Token} (h : Alike ts ts') :
    SameAnswer (StyleOption.ofArgument ts) (StyleOption.ofArgument ts') :=
  agree_eq_iff.mp ((StyleOption.readArgument_alike h).map fun _ _ hh => hh.1)

theorem PathInFront.alike {rooted : Bool} {ts ts' words rest : List Token}
    (h : PathInFront rooted ts words rest) (ha : Alike ts ts') :
    ∃ rooted' words' rest', PathInFront rooted' ts' words' rest' ∧ Alike rest rest' := by
  obtain ⟨r, hr, rfl, -⟩ := h.read
  rcases option_rel_iff.mp (Phrase.read_alike ha .nestedPath) with
    ⟨hn, -⟩ | ⟨r', s, hr', hs, hh⟩
  · simp [hr] at hn
  · obtain rfl : r = r' := Option.some.inj (hr.symm.trans hr')
    obtain ⟨rooted', words', rest', hp⟩ := exists_path_iff.mpr ⟨s, hs⟩
    obtain ⟨s', hs', rfl, -⟩ := hp.read
    obtain rfl : s = s' := Option.some.inj (hs.symm.trans hs')
    exact ⟨rooted', words', s.rest, hp, hh.rest⟩

theorem WholeArgument.alike {ts ts' : List Token} (h : WholeArgument ts) (ha : Alike ts ts') :
    WholeArgument ts' := by
  cases h with
  | name h =>
    obtain ⟨rooted', words', rest', h', hr⟩ := h.alike ha
    cases hr with
    | nil => exact .name h'
  | group h ho hg =>
    obtain ⟨rooted', words', rest', h', hr⟩ := h.alike ha
    cases hr with
    | sign => simp at ho
    | cons l s s' hi =>
      rcases option_rel_iff.mp (cutGroup_alike hi 1) with
        ⟨hn, -⟩ | ⟨x, ⟨left', left⟩, hx, hy, -, hl⟩
      · simp [hg] at hn
      · obtain rfl := Option.some.inj (hg.symm.trans hx)
        cases hl with
        | nil => exact .group h' ho hy
  | value h he hx =>
    obtain ⟨rooted', words', rest', h', hr⟩ := h.alike ha
    cases hr with
    | sign c joint joint' s s' => exact .value h' he hx
    | cons l s s' hv =>
      rcases option_rel_iff.mp (Expression.inFront?_alike true hv) with
        ⟨hn, -⟩ | ⟨x, ⟨y, left⟩, hx', hy, -, -, hl⟩
      · exact absurd (hx.symm.trans hn) (by simp)
      · obtain rfl := Option.some.inj (hx.symm.trans hx')
        cases hl with
        | nil => exact .value h' he hy

theorem Style.ofAttributes_regrouped {as bs : List Attribute} (h : Regrouped as bs)
    (before after : List Attribute) :
    SameAnswer (Style.ofAttributes (before ++ as ++ after))
      (Style.ofAttributes (before ++ bs ++ after)) := by
  obtain ⟨pss, qss, ha, hb, hw, hpq⟩ := h
  have hwq : ∀ q ∈ qss.flatten, WholeArgument q := fun q hq => by
    obtain ⟨p, hp, hh⟩ := forall₂_mem_right hpq hq
    exact (hw p hp).alike hh
  have hmid : SameAnswer
      (StyleOption.ofAttributes (as.filter (·.isNamed StyleOption.attributeName)))
      (StyleOption.ofAttributes (bs.filter (·.isNamed StyleOption.attributeName))) := by
    rw [StyleOption.ofAttributes_holds ha hw, StyleOption.ofAttributes_holds hb hwq]
    exact SameAnswer.mapM hpq fun p q hh => StyleOption.ofArgument_alike hh
  unfold Style.ofAttributes
  simp only [List.filter_append, StyleOption.ofAttributes_append]
  refine SameAnswer.map (SameAnswer.bind (SameAnswer.bind rfl fun ss => hmid.map _) fun ss => ?_) _
  rfl

/-- An attribute with several arguments may be split into one attribute for each of them. -/
theorem regrouped_split {a : Attribute} {ts : List Token} {arguments : List (List Token)}
    {bs : List Attribute} (ha : a.isNamed StyleOption.attributeName = true)
    (hf : a.form = .list ts) (hs : Separated arguments ts) (hw : ∀ p ∈ arguments, WholeArgument p)
    (hb : List.Forall₂ (fun p b => b.isNamed StyleOption.attributeName = true ∧
      ∃ q, b.Holds [q] ∧ Alike p q) arguments bs) : Regrouped [a] bs := by
  obtain ⟨qs, hqs, hpq⟩ : ∃ qs, List.Forall₂ Attribute.Holds bs (qs.map fun q => [q]) ∧
      List.Forall₂ Alike arguments qs := by
    clear hs hw
    induction hb with
    | nil => exact ⟨[], .nil, .nil⟩
    | cons h _ ih =>
      obtain ⟨-, q, hq, hpq⟩ := h
      obtain ⟨qs, hqs, hps⟩ := ih
      exact ⟨q :: qs, .cons hq hqs, .cons hpq hps⟩
  have hnamed : bs.filter (·.isNamed StyleOption.attributeName) = bs :=
    List.filter_eq_self.mpr fun b hb' => by
      obtain ⟨p, -, hp, -⟩ := forall₂_mem_right hb hb'
      exact hp
  have hflat : (qs.map fun q => [q]).flatten = qs := by
    rw [← List.flatMap_def, List.flatMap_singleton']
  have hone : [a].filter (·.isNamed StyleOption.attributeName) = [a] :=
    List.filter_eq_self.mpr (by simpa using ha)
  refine ⟨[arguments], qs.map fun q => [q], ?_, ?_, ?_, ?_⟩
  · rw [hone]
    exact .cons (.list hf hs) .nil
  · rwa [hnamed]
  · simpa using hw
  · simpa [hflat] using hpq

/-- The style of a record: the last one that its attributes set, if all their arguments set one;
else the leftmost fault decides. How arguments are divided among attributes does not matter. -/
theorem style_of_attributes (as : List Attribute) :
    (∀ s, Style.ofAttributes as = .ok s ↔ ∃ styles,
      List.Forall₂ Attribute.Sets (as.filter (·.isNamed StyleOption.attributeName)) styles ∧
      s = styles.flatten.getLast?.getD .snake) ∧
    (∀ f, Style.ofAttributes as = .error f ↔ ∃ before a after styles,
      as.filter (·.isNamed StyleOption.attributeName) = before ++ a :: after ∧
      List.Forall₂ Attribute.Sets before styles ∧ a.StyleFault f) ∧
    (∀ bs before after, Regrouped as bs → SameAnswer (Style.ofAttributes (before ++ as ++ after))
      (Style.ofAttributes (before ++ bs ++ after))) := by
  refine ⟨fun s => ⟨fun h => ?_, ?_⟩, fun f => ?_, fun bs before after h =>
    Style.ofAttributes_regrouped h before after⟩
  · obtain ⟨ss, hs, rfl⟩ := exists_of_map_ok h
    obtain ⟨styles, hf, rfl⟩ := StyleOption.ofAttributes_eq_ok_iff.mp hs
    exact ⟨styles, hf, rfl⟩
  · rintro ⟨styles, hf, rfl⟩
    rw [Style.ofAttributes, StyleOption.ofAttributes_eq_ok_iff.mpr ⟨styles, hf, rfl⟩]
    rfl
  · rw [Style.ofAttributes, map_eq_error_iff, StyleOption.ofAttributes_eq_error_iff]

def styleArgument (name : String) : List Token :=
  [.word StyleOption.argumentName, .sign '=' false, .word name.toList].map Lexeme.token

def styleAttribute (inside : List Token) : Attribute :=
  ⟨[(Lexeme.word StyleOption.attributeName).token], .list inside, ⟨.origin, .origin⟩⟩

theorem style_of_attributes_two :
    let one := styleAttribute
      (styleArgument "kebab_cased" ++ (Lexeme.sign ',' false).token :: styleArgument "snakeCased")
    let two := [styleAttribute (styleArgument "kebab_cased"),
      styleAttribute (styleArgument "snakeCased")]
    Regrouped [one] two ∧ SameAnswer (Style.ofAttributes [one]) (Style.ofAttributes two) ∧
      Style.ofAttributes two = .ok .snake := by
  intro one two
  have hkebab : WholeArgument (styleArgument "kebab_cased") :=
    .value (x := ⟨.name, [(Lexeme.word "kebab_cased".toList).token]⟩) (pathInFront_label rfl rfl) rfl
      (by decide +kernel)
  have hsnake : WholeArgument (styleArgument "snakeCased") :=
    .value (x := ⟨.name, [(Lexeme.word "snakeCased".toList).token]⟩) (pathInFront_label rfl rfl) rfl
      (by decide +kernel)
  have hr : Regrouped [one] two :=
    regrouped_split (by decide) rfl (.more rfl (.last _)) (by simp [hkebab, hsnake])
      (.cons ⟨by decide, _, .list rfl (.last _), .refl _⟩
        (.cons ⟨by decide, _, .list rfl (.last _), .refl _⟩ .nil))
  exact ⟨hr, (style_of_attributes [one]).2.2 two [] [] hr, by decide +kernel⟩

/-- What is left over in a group does not come first: at `style = #[a b] snake_cased, other` no
expression stands behind the equals sign, which is the leftmost fault, but the other argument
decides. -/
theorem later_argument_decides :
    let value := [Lexeme.sign '#' false, .opening .bracket, .word "a".toList, .word "b".toList,
      .closing .bracket, .word "snake_cased".toList].map Lexeme.token
    let inside := [Lexeme.word StyleOption.argumentName, .sign '=' false].map Lexeme.token ++
      (value ++ [Lexeme.sign ',' false, .word "other".toList].map Lexeme.token)
    Expression.read? value = none ∧ (∀ f, ArgumentsFault true inside f ↔ f = .illFormed) ∧
      Style.ofAttributes [styleAttribute inside] =
        .error (.unknownArgument ⟨.origin, .origin⟩) := by
  intro value inside
  refine ⟨by decide +kernel, fun f => ?_, by decide +kernel⟩
  have hread : StyleOption.readArguments true inside.length inside = .error .illFormed := by
    decide +kernel
  rw [← StyleOption.readArguments_eq_error_iff (Nat.le_refl _), hread]
  exact ⟨fun h => (Except.error.inj h).symm, fun h => congrArg Except.error h.symm⟩

end FieldKeys
