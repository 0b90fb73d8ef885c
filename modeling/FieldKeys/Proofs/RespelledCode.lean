import FieldKeys.Proofs.KeyCode
import FieldKeys.Proofs.Respelling
import FieldKeys.Proofs.SameOutcome

/-! Items with respelled names have entries with the same keys, and their code is the same but for
names. -/

namespace FieldKeys

structure Declaration.Respelled (d d' : Declaration) : Prop where
  name : unescape d'.name = unescape d.name
  directives : d'.directives = d.directives

/-- Entries with the same key, of fields whose names are the same without their raw marks. -/
structure Entry.SameKey (e e' : Entry) : Prop where
  field : unescape e'.field = unescape e.field
  key : e'.key.map Key.unplaced = e.key.map Key.unplaced

theorem Field.Respelled.declaration {f g : Field} (h : f.Respelled g) :
    Agree Declaration.Respelled f.declaration g.declaration := by
  rw [Field.declaration, Field.declaration, h.attributes]
  cases Directive.ofAttributes f.attributes with
  | error fault => exact .error rfl
  | ok ds => exact .ok ⟨h.name.unescape, rfl⟩

theorem Declaration.Respelled.resolve {d d' : Declaration} (h : d.Respelled d') :
    d'.resolve = d.resolve := by
  rw [Declaration.resolve, Declaration.resolve, h.directives]

theorem Style.derived?_congr (s : Style) {name name' : Text} (h : unescape name' = unescape name) :
    s.derived? name' = s.derived? name := by
  unfold derived? normalize
  rw [h]

theorem Declaration.Respelled.entry {d d' : Declaration} (h : d.Respelled d') (s : Style)
    (disposition : Disposition) :
    Option.Rel Entry.SameKey (Entry.of s d.name disposition) (Entry.of s d'.name disposition) := by
  cases disposition with
  | skip => exact .none
  | rename key => exact .some ⟨h.name, rfl⟩
  | keep => exact .some ⟨h.name, congrArg _ (s.derived?_congr h.name)⟩

theorem Style.entries_respelled (s : Style) {ds ds' : List Declaration}
    (h : List.Forall₂ Declaration.Respelled ds ds') :
    Agree (List.Forall₂ Entry.SameKey) (s.entries ds).result (s.entries ds').result := by
  induction h with
  | nil => exact .ok .nil
  | @cons d d' ds ds' hd _ ih =>
    simp only [entries, hd.resolve]
    cases d.resolve with
    | error f => exact .error rfl
    | ok disposition =>
      rcases option_rel_iff.mp (hd.entry s disposition) with ⟨hn, hn'⟩ | ⟨e, e', he, he', hee⟩
      · simpa only [hn, hn'] using ih
      · simp only [he, he']
        exact ih.map fun _ _ hes => .cons hee hes

theorem Style.mapping_respelled (s : Style) {ds ds' : List Declaration}
    (h : List.Forall₂ Declaration.Respelled ds ds') :
    Agree (Option.Rel (List.Forall₂ Entry.SameKey)) (s.mapping ds).result (s.mapping ds').result :=
  (s.entries_respelled h).map fun es es' hes => by
    cases hes with
    | nil => exact .none
    | cons he hes => exact .some (.cons he hes)

theorem Item.fields_respelled {i : Item} {name : Text} {fields : List Field}
    (hf : List.Forall₂ Field.Respelled i.fields fields) :
    (i.respelled name fields).fields = fields := by
  unfold Item.fields at hf ⊢
  unfold Item.respelled
  cases hb : i.body with
  | named named => rfl
  | tuple | unit | noStructure =>
    rw [hb] at hf
    cases hf
    rfl

theorem Item.respelled_fields? {i : Item} {name : Text} {fields : List Field}
    (hf : List.Forall₂ Field.Respelled i.fields fields) :
    Option.Rel (List.Forall₂ Field.Respelled) i.body.fields?
      (i.respelled name fields).body.fields? := by
  unfold Item.fields at hf
  unfold Item.respelled
  cases hb : i.body with
  | named named => simpa [hb, Body.fields?, Body.withFields] using hf
  | tuple | unit => exact .some .nil
  | noStructure => exact .none

/-- An item and the same item respelled come to the same keys. -/
theorem Item.mapping_respelled {i : Item} {name : Text} {fields : List Field}
    (hf : List.Forall₂ Field.Respelled i.fields fields) :
    Agree (fun m m' => (∃ ds, m'.record = { m.record with name := name, fields := ds }) ∧
        Option.Rel (List.Forall₂ Entry.SameKey) m.entries m'.entries)
      i.mapping.result (i.respelled name fields).mapping.result := by
  have hdeclared := option_rel_imp (@respelled_fields? i name fields hf) fun _ _ hfg =>
    hfg.imp fun _ _ hh => hh.declaration
  have hstyle : Agree Eq (Style.ofAttributes i.attributes)
      (Style.ofAttributes (i.respelled name fields).attributes) := agree_eq_iff.mpr rfl
  obtain ⟨-, hr⟩ := Item.record_agree hstyle hdeclared
  unfold Item.mapping
  generalize i.record = x at hr ⊢
  generalize (i.respelled name fields).record = y at hr ⊢
  obtain ⟨notes, x⟩ := x
  obtain ⟨notes', y⟩ := y
  cases hr with
  | error hk => exact .error hk
  | ok hr =>
    obtain ⟨s, ds, ds', hd, rfl, rfl⟩ := hr
    exact (s.mapping_respelled hd).map fun es es' hes => ⟨⟨ds', rfl⟩, hes⟩

theorem Entry.SameKey.keyLexemes {e e' : Entry} (h : e.SameKey e') : e'.keyLexemes = e.keyLexemes := by
  rw [← e.keyLexemes_unplaced, ← e'.keyLexemes_unplaced]
  unfold Entry.keyLexemes Entry.unplaced
  rw [h.key, h.field]

theorem Entry.SameKey.fieldLexemes {e e' : Entry} (h : e.SameKey e') :
    e'.fieldLexemes = e.fieldLexemes := by
  rw [Entry.fieldLexemes, Entry.fieldLexemes, h.field]

/-- Lexemes that stay the same but for some words, in their order the first names in the one and the
second names in the other. -/
def RespelledCode (ws ws' : List Text) (ls ls' : List Lexeme) : Prop :=
  Respelling ws ws' (ls.map Lexeme.token) (ls'.map Lexeme.token)

theorem RespelledCode.refl (ls : List Lexeme) : RespelledCode [] [] ls ls :=
  Respelling.refl _

theorem RespelledCode.single (w w' : Text) : RespelledCode [w] [w'] [.word w] [.word w'] :=
  .word w w' _ .nil

section append

variable {ws ws' vs vs' : List Text} {a a' b b' : List Lexeme}

theorem RespelledCode.append (h : RespelledCode ws ws' a a') (h' : RespelledCode vs vs' b b') :
    RespelledCode (ws ++ vs) (ws' ++ vs') (a ++ b) (a' ++ b') := by
  unfold RespelledCode
  simpa only [List.map_append] using Respelling.append h h'

theorem RespelledCode.behind (h : RespelledCode ws ws' a a') (front : List Lexeme) :
    RespelledCode ws ws' (front ++ a) (front ++ a') :=
  (refl front).append h

theorem RespelledCode.before (h : RespelledCode ws ws' a a') (back : List Lexeme) :
    RespelledCode ws ws' (a ++ back) (a' ++ back) := by
  simpa using h.append (refl back)

theorem RespelledCode.inside (h : RespelledCode ws ws' a a') (d : Delimiter) :
    RespelledCode ws ws' (.opening d :: (a ++ [.closing d])) (.opening d :: (a' ++ [.closing d])) :=
  (h.before [.closing d]).behind [.opening d]

end append

theorem respelledCode_variantPath (v v' : Text) :
    RespelledCode [v] [v'] (variantPath v) (variantPath v') :=
  (RespelledCode.single v v').behind _

section entries

variable {es es' : List Entry}

theorem respelledCode_separated {path : Text → List Lexeme}
    (hp : ∀ v v', RespelledCode [v] [v'] (path v) (path v')) (h : List.Forall₂ Entry.SameKey es es') :
    RespelledCode (es.map Entry.field) (es'.map Entry.field)
      (separated (es.map fun e => path e.field)) (separated (es'.map fun e => path e.field)) := by
  induction h with
  | nil => exact .refl []
  | @cons e e' es es' _ hes ih =>
    have he := hp e.field e'.field
    cases hes with
    | nil => exact he
    | cons => exact (he.before (op ",")).append ih

theorem respelledCode_terminated {value : Entry → List Lexeme}
    (hv : ∀ e e', Entry.SameKey e e' → value e' = value e) (h : List.Forall₂ Entry.SameKey es es') :
    RespelledCode (es.map Entry.field) (es'.map Entry.field)
      (terminated (es.map fun e => arm e (value e)))
      (terminated (es'.map fun e => arm e (value e))) := by
  induction h with
  | nil => exact .refl []
  | @cons e e' es es' hee _ ih =>
    have harm : RespelledCode [e.field] [e'.field] (arm e (value e)) (arm e' (value e')) := by
      rw [hv e e' hee]
      exact ((respelledCode_variantPath e.field e'.field).before _).before _
    exact (harm.before (op ",")).append ih

theorem respelledCode_textFunction (function : String) {value : Entry → List Lexeme}
    (hv : ∀ e e', Entry.SameKey e e' → value e' = value e) (h : List.Forall₂ Entry.SameKey es es') :
    RespelledCode (es.map Entry.field) (es'.map Entry.field)
      (textFunction function (es.map fun e => arm e (value e)))
      (textFunction function (es'.map fun e => arm e (value e))) :=
  ((((respelledCode_terminated hv h).inside .brace).behind _).inside .brace).behind _

/-- The attribute that describes the enumeration. It names the item as it stands. -/
def documentation (record : Text) : List Lexeme :=
  op "#" ++ inBrackets (ident "doc" ++ op "=" ++
    [.literal (quote ("Serialization keys of [".toList ++ backquoted record ++ "].".toList))])

/-- The names in the code behind this attribute, in their order: the variants where they are declared,
listed and matched twice, and the owner of the keys. -/
def codeNames (record : Text) (variants : List Text) : List Text :=
  variants ++ (variants ++ variants ++ variants) ++ [record]

theorem Record.enumLexemes_respelled {r r' : Record} (hk : r'.keysName = r.keysName)
    (hv : r'.visibility = r.visibility) (h : List.Forall₂ Entry.SameKey es es') :
    ∃ rest rest', r.enumLexemes es = documentation r.name ++ rest ∧
      r'.enumLexemes es' = documentation r'.name ++ rest' ∧
      RespelledCode (es.map Entry.field) (es'.map Entry.field) rest rest' := by
  have hvariants := ((respelledCode_separated RespelledCode.single h).inside .brace).behind
    (op "#" ++ inBrackets (ident "derive" ++ inParens (separated
      [ident "Debug", ident "Clone", ident "Copy", ident "PartialEq", ident "Eq", ident "Hash"])) ++
    op "#" ++ inBrackets (ident "allow" ++ inParens (ident "non_camel_case_types")) ++
    r.visibility.map (·.lexeme) ++ ident "enum" ++ [r.keysName])
  refine ⟨_, _, ?_, ?_, hvariants⟩
  · simp only [enumLexemes, documentation, inBraces, List.append_assoc]
  · simp only [enumLexemes, documentation, inBraces, hk, hv, List.append_assoc]

theorem Record.keyLexemes_respelled {r r' : Record} (hk : r'.keysName = r.keysName)
    (h : List.Forall₂ Entry.SameKey es es') :
    RespelledCode (es.map Entry.field ++ es.map Entry.field ++ es.map Entry.field)
      (es'.map Entry.field ++ es'.map Entry.field ++ es'.map Entry.field)
      (r.keyLexemes es) (r'.keyLexemes es') := by
  have hall := ((((respelledCode_separated respelledCode_variantPath h).inside .bracket).behind
    (ident "const" ++ ident "ALL" ++ op ":" ++ op "&" ++ [.lifetime "static".toList] ++
      inBrackets (ident "Self") ++ op "=" ++ op "&")).before (op ";"))
  have hkeys := respelledCode_textFunction "as_str" (fun _ _ he => he.keyLexemes) h
  have hfields := respelledCode_textFunction "field_name" (fun _ _ he => he.fieldLexemes) h
  rw [keyLexemes, keyLexemes, hk]
  exact (((hall.append hkeys).append hfields).inside .brace).behind _

theorem Record.ownerLexemes_respelled {r r' : Record} (hk : r'.keysName = r.keysName)
    (hg : r'.generics = r.generics) :
    RespelledCode [r.name] [r'.name] r.ownerLexemes r'.ownerLexemes := by
  rw [ownerLexemes, ownerLexemes, hk, hg]
  exact ((((RespelledCode.single r.name r'.name).behind _).before _).before _).before _

/-- The code of a record in which only names have been respelled is the same but for these names. -/
theorem Record.expansion_respelled (data : Bool) {r r' : Record} (hk : r'.keysName = r.keysName)
    (hv : r'.visibility = r.visibility) (hg : r'.generics = r.generics)
    (h : List.Forall₂ Entry.SameKey es es') :
    ∃ rest rest', r.expansion data es = documentation r.name ++ rest ∧
      r'.expansion data es' = documentation r'.name ++ rest' ∧
      RespelledCode (codeNames r.name (es.map Entry.field)) (codeNames r'.name (es'.map Entry.field))
        rest rest' := by
  obtain ⟨front, front', hf, hf', hfront⟩ := enumLexemes_respelled hk hv h
  have hkeys := hfront.append (keyLexemes_respelled hk h)
  have hshown := (hkeys.before r.displayLexemes).before r.asRefLexemes
  have hall := (hshown.append (ownerLexemes_respelled hk hg)).before
    (if data then r.serializeLexemes ++ r.deserializeLexemes else [])
  refine ⟨_, _, ?_, ?_, hall⟩
  · simp only [expansion, hf, List.append_assoc]
  · simp only [expansion, hf', displayLexemes, asRefLexemes, serializeLexemes, deserializeLexemes, hk,
      List.append_assoc]

end entries

end FieldKeys
