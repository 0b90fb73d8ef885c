import FieldKeys.Expansion
import FieldKeys.KeyTable
import FieldKeys.Proofs.Grammar.Brackets

/-! Generated code read back: the enumeration, the list of its variants and its two matches, with
nothing known but how such declarations are written. -/

namespace FieldKeys

/-- What follows the first lexeme `w` outside all brackets, of which `n` are open in front. -/
def past? (w : Lexeme) : Nat → List Lexeme → Option (List Lexeme)
  | _, [] => none
  | n, l :: ls => if n = 0 ∧ l = w then some ls else (l.depthAfter? n).bind (past? w · ls)

/-- What stands before the bracket that closes a group, and what follows it. -/
def cutInside? : Nat → List Lexeme → Option (List Lexeme × List Lexeme)
  | _, [] => none
  | n, l :: ls =>
    match l.depthAfter? n with
    | none => some ([], ls)
    | some m => (cutInside? m ls).map fun (inside, rest) => (l :: inside, rest)

/-- The inside of the group after some lexemes in front, and what follows the group. -/
def readBlock? (front : List Lexeme) (d : Delimiter) (ls : List Lexeme) :
    Option (List Lexeme × List Lexeme) :=
  (front.isPrefixOf? ls).bind fun ls =>
    match ls with
    | l :: rest => if l = .opening d then cutInside? 0 rest else none
    | [] => none

def nameInFront? : List Lexeme → Option (Text × List Lexeme)
  | .word name :: ls => some (name, ls)
  | _ => none

def variantInFront? (ls : List Lexeme) : Option (Text × List Lexeme) :=
  ((ident "Self" ++ op "::").isPrefixOf? ls).bind nameInFront?

/-- The variant of the arm that begins in front, and what follows the arrow. -/
def armInFront? (ls : List Lexeme) : Option (Text × List Lexeme) :=
  (variantInFront? ls).bind fun (name, ls) => ((op "=>").isPrefixOf? ls).map (name, ·)

/-- Names with a comma between them; the number bounds them. -/
def readNames? (inFront? : List Lexeme → Option (Text × List Lexeme)) :
    Nat → List Lexeme → Option (List Text)
  | _, [] => some []
  | 0, _ :: _ => none
  | n + 1, l :: ls =>
    match inFront? (l :: ls) with
    | some (name, []) => some [name]
    | some (name, comma :: rest) =>
      if comma = .sign ',' false then (readNames? inFront? n rest).map (name :: ·) else none
    | none => none

/-- The body of an arm, which goes on to a comma at which the match ends or another arm begins. -/
def cutBody? : Nat → List Lexeme → Option (List Lexeme × List Lexeme)
  | _, [] => none
  | n, l :: ls =>
    if n = 0 ∧ l = .sign ',' false ∧ (ls = [] ∨ (armInFront? ls).isSome = true) then some ([], ls)
    else (l.depthAfter? n).bind fun m =>
      (cutBody? m ls).map fun (body, rest) => (l :: body, rest)

/-- The arms of a match on variants, each with its body; the number bounds them. -/
def readArms? : Nat → List Lexeme → Option (List (Text × List Lexeme))
  | _, [] => some []
  | 0, _ :: _ => none
  | n + 1, l :: ls =>
    (armInFront? (l :: ls)).bind fun (name, rest) =>
      (cutBody? 0 rest).bind fun (body, rest) =>
        (readArms? n rest).map ((name, body) :: ·)

/-- The arms of a function that does nothing but match on its variant, and what follows it. -/
def readFunction? (function : String) (ls : List Lexeme) :
    Option (List (Text × List Lexeme) × List Lexeme) :=
  (readBlock? (ident "fn" ++ ident function ++ inParens (op "&" ++ ident "self") ++ op "->" ++
      op "&" ++ [.lifetime "static".toList] ++ ident "str") .brace ls).bind fun (body, rest) =>
    match readBlock? (ident "match" ++ ident "self") .brace body with
    | some (arms, []) => (readArms? arms.length arms).map (·, rest)
    | _ => none

/-- What generated code says of keys: the name and the variants of the enumeration, the list of
all of them, and the arms of the matches that give their keys and the names of their fields. -/
structure KeyCode where
  name : Text
  variants : List Text
  all : List Text
  keys : List (Text × List Lexeme)
  fieldNames : List (Text × List Lexeme)

/-- The list of all variants and the two matches, from the inside of the implementation. -/
def KeyCode.readBody? (name : Text) (variants : List Text) (ls : List Lexeme) : Option KeyCode :=
  (readBlock? (ident "const" ++ ident "ALL" ++ op ":" ++ op "&" ++ [.lifetime "static".toList] ++
      inBrackets (ident "Self") ++ op "=" ++ op "&") .bracket ls).bind fun (inside, ls) =>
    (readNames? variantInFront? inside.length inside).bind fun all =>
      ((op ";").isPrefixOf? ls).bind fun ls =>
        (readFunction? "as_str" ls).bind fun (keys, ls) =>
          match readFunction? "field_name" ls with
          | some (fieldNames, []) => some ⟨name, variants, all, keys, fieldNames⟩
          | _ => none

def KeyCode.read? (ls : List Lexeme) : Option KeyCode :=
  ((past? (.word "enum".toList) 0 ls).bind nameInFront?).bind fun (name, ls) =>
    (readBlock? [] .brace ls).bind fun (inside, ls) =>
      (readNames? nameInFront? inside.length inside).bind fun variants =>
        (readBlock? (ident "impl" ++ rooted ["coding_keys", "CodingKey"] ++ ident "for" ++
            [.word name]) .brace ls).bind fun (body, _) =>
          KeyCode.readBody? name variants body

def literalValue? : List Lexeme → Option Text
  | [.literal text] => stringValue? text
  | _ => none

def bodyOf? (arms : List (Text × List Lexeme)) (variant : Text) : Option (List Lexeme) :=
  (arms.find? (·.1 == variant)).map Prod.snd

/-- The row of a variant, as the two matches give it. -/
def KeyCode.row? (k : KeyCode) (variant : Text) : Option Row :=
  ((bodyOf? k.fieldNames variant).bind literalValue?).bind fun field =>
    ((bodyOf? k.keys variant).bind literalValue?).map fun key => ⟨field, key⟩

/-- The table that the code stands for, if all bodies are string literals. -/
def KeyCode.table? (k : KeyCode) : Option KeyTable :=
  k.all.mapM k.row?

theorem depthAfter?_group {n : Nat} {d e : Delimiter} {inside : List Lexeme} (rest : List Lexeme)
    (h : depthAfter? 0 inside = some 0) :
    depthAfter? n (.opening d :: (inside ++ .closing e :: rest)) = depthAfter? n rest := by
  have hh := depthAfter?_add (n + 1) h
  simp only [Nat.zero_add] at hh
  simp [depthAfter?, Lexeme.depthAfter?, depthAfter?_append, hh]

theorem past?_append {w : Lexeme} {n m : Nat} {a : List Lexeme} (b : List Lexeme)
    (h : depthAfter? n a = some m) (hw : past? w n a = none) :
    past? w n (a ++ b) = past? w m b := by
  induction a generalizing n with
  | nil =>
    obtain rfl := Option.some.inj h
    rfl
  | cons l a ih =>
    obtain ⟨k, hl, hh⟩ := depthAfter?_cons h
    rw [past?] at hw
    split at hw
    · simp at hw
    · next hn =>
      rw [hl, Option.bind_some] at hw
      rw [List.cons_append, past?, if_neg hn, hl, Option.bind_some, ih hh hw]

theorem past?_inside {w : Lexeme} {n m : Nat} {a : List Lexeme} (b : List Lexeme)
    (h : depthAfter? n a = some m) : past? w (n + 1) (a ++ b) = past? w (m + 1) b := by
  induction a generalizing n with
  | nil =>
    obtain rfl := Option.some.inj h
    rfl
  | cons l a ih =>
    obtain ⟨k, hl, hh⟩ := depthAfter?_cons h
    have hk := Lexeme.depthAfter?_add 1 hl
    rw [List.cons_append, past?, if_neg (by simp), hk, Option.bind_some, ih hh]

theorem cutInside?_append {n : Nat} {inside : List Lexeme} (d : Delimiter) (rest : List Lexeme)
    (h : depthAfter? n inside = some 0) :
    cutInside? n (inside ++ .closing d :: rest) = some (inside, rest) := by
  induction inside generalizing n with
  | nil =>
    obtain rfl := Option.some.inj h
    rfl
  | cons l inside ih =>
    obtain ⟨m, hl, hh⟩ := depthAfter?_cons h
    simp [cutInside?, hl, ih hh]

theorem isPrefixOf?_append (a b : List Lexeme) : a.isPrefixOf? (a ++ b) = some b :=
  List.isPrefixOf?_eq_some_iff_append_eq.mpr rfl

theorem readBlock?_append (front : List Lexeme) (d : Delimiter) {inside : List Lexeme}
    (rest : List Lexeme) (h : depthAfter? 0 inside = some 0) :
    readBlock? front d (front ++ .opening d :: (inside ++ .closing d :: rest)) =
      some (inside, rest) := by
  simp [readBlock?, isPrefixOf?_append, cutInside?_append d rest h]

theorem variantInFront?_append (v : Text) (rest : List Lexeme) :
    variantInFront? (variantPath v ++ rest) = some (v, rest) := by
  rw [variantInFront?, variantPath, List.append_assoc, isPrefixOf?_append]
  rfl

theorem armInFront?_arm (e : Entry) (value rest : List Lexeme) :
    armInFront? (arm e value ++ rest) = some (e.field, value ++ rest) := by
  simp only [armInFront?, arm, List.append_assoc, variantInFront?_append, Option.bind_some,
    isPrefixOf?_append, Option.map_some]

/-- Where an arm begins an arrow follows, and no bracket or comma stands before it. -/
theorem armInFront?_isSome {ls : List Lexeme} (h : (armInFront? ls).isSome = true) :
    ∃ v rest, ls = variantPath v ++ (op "=>" ++ rest) := by
  obtain ⟨⟨v, rest⟩, h⟩ := Option.isSome_iff_exists.mp h
  obtain ⟨⟨v', r⟩, hv, h⟩ := Option.bind_eq_some_iff.mp h
  obtain ⟨r', ha, -⟩ := Option.map_eq_some_iff.mp h
  obtain ⟨r'', hp, hn⟩ := Option.bind_eq_some_iff.mp hv
  rw [List.isPrefixOf?_eq_some_iff_append_eq] at ha hp
  unfold nameInFront? at hn
  split at hn
  · next name ls' =>
    obtain ⟨rfl, rfl⟩ := Prod.mk.inj (Option.some.inj hn)
    refine ⟨name, r', ?_⟩
    rw [← hp, ha, variantPath, List.append_assoc]
    rfl
  · simp at hn

/-- In a body without an arrow no comma is taken for the end of an arm. -/
theorem armInFront?_of_arrowless {b : List Lexeme} (rest : List Lexeme)
    (h : arrowless 0 b = true) : armInFront? (b ++ .sign ',' false :: rest) = none := by
  by_contra hn
  obtain ⟨v, r, he⟩ := armInFront?_isSome (Option.isSome_iff_ne_none.mpr hn)
  -- An arm begins with six lexemes, the last two of them the arrow. If the body has fewer, the
  -- comma stands where one of the six has to be.
  rcases b with _ | ⟨l₁, _ | ⟨l₂, _ | ⟨l₃, _ | ⟨l₄, _ | ⟨l₅, _ | ⟨l₆, b⟩⟩⟩⟩⟩⟩ <;>
    simp [variantPath, ident, op, operator] at he
  obtain ⟨rfl, rfl, rfl, rfl, rfl, rfl, -⟩ := he
  simp [arrowless, Lexeme.depthAfter?, arrowAhead, isArrow] at h

theorem cutBody?_append {n : Nat} {body rest : List Lexeme} (hd : depthAfter? n body = some 0)
    (ha : arrowless n body = true) (hr : rest = [] ∨ (armInFront? rest).isSome = true) :
    cutBody? n (body ++ .sign ',' false :: rest) = some (body, rest) := by
  induction body generalizing n with
  | nil =>
    obtain rfl := Option.some.inj hd
    simp [cutBody?, hr]
  | cons l body ih =>
    obtain ⟨m, hl, hh⟩ := depthAfter?_cons hd
    simp only [arrowless, hl, Option.getD_some, Bool.and_eq_true] at ha
    have hi := ih hh ha.2
    -- A comma inside of the body ends no arm, since no arrow follows it there.
    have hno : ¬ (n = 0 ∧ l = .sign ',' false ∧ (body ++ .sign ',' false :: rest = [] ∨
        (armInFront? (body ++ .sign ',' false :: rest)).isSome = true)) := by
      rintro ⟨rfl, rfl, he | he⟩
      · simp at he
      · obtain rfl := Option.some.inj hl
        simp [armInFront?_of_arrowless rest ha.2] at he
    rw [List.cons_append, cutBody?, if_neg hno, hl, Option.bind_some, hi]
    rfl

theorem cutBody?_neat {body rest : List Lexeme} (h : Neat true 0 0 body)
    (hr : rest = [] ∨ (armInFront? rest).isSome = true) :
    cutBody? 0 (body ++ .sign ',' false :: rest) = some (body, rest) :=
  cutBody?_append h.depth (h.arrow rfl) hr

theorem terminated_cons (part : List Lexeme) (parts : List (List Lexeme)) :
    terminated (part :: parts) = part ++ .sign ',' false :: terminated parts := by
  simp [terminated, op, operator]

theorem terminated_arms_front (value : Entry → List Lexeme) (es : List Entry) :
    terminated (es.map fun e => arm e (value e)) = [] ∨
      (armInFront? (terminated (es.map fun e => arm e (value e)))).isSome = true := by
  cases es with
  | nil => exact .inl rfl
  | cons e es =>
    right
    rw [List.map_cons, terminated_cons, armInFront?_arm]
    rfl

theorem length_terminated (parts : List (List Lexeme)) :
    parts.length ≤ (terminated parts).length := by
  induction parts with
  | nil => simp
  | cons part parts ih =>
    rw [terminated_cons]
    simp only [List.length_append, List.length_cons]
    omega

theorem readArms?_terminated {value : Entry → List Lexeme} {es : List Entry} {n : Nat}
    (hv : ∀ e ∈ es, Neat true 0 0 (value e)) (hn : es.length ≤ n) :
    readArms? n (terminated (es.map fun e => arm e (value e))) =
      some (es.map fun e => (e.field, value e)) := by
  induction es generalizing n with
  | nil => cases n <;> rfl
  | cons e es ih =>
    cases n with
    | zero => simp at hn
    | succ n =>
      have hh := ih (fun x hx => hv x (by simp [hx])) (by simpa using hn)
      have hf := armInFront?_arm e (value e)
        (.sign ',' false :: terminated (es.map fun e => arm e (value e)))
      have hc := cutBody?_neat (hv e (by simp)) (terminated_arms_front value es)
      obtain ⟨l, ls, hl⟩ : ∃ l ls, arm e (value e) ++
          .sign ',' false :: terminated (es.map fun e => arm e (value e)) = l :: ls := ⟨_, _, rfl⟩
      rw [List.map_cons, terminated_cons, hl, readArms?, ← hl, hf]
      simp [hc, hh]

theorem depthAfter?_op (n : Nat) (s : String) : depthAfter? n (op s) = some n :=
  depthAfter?_operator n s.toList

theorem depthAfter?_variantPath (n : Nat) (v : Text) : depthAfter? n (variantPath v) = some n := rfl

theorem depthAfter?_arm {n : Nat} (e : Entry) {value : List Lexeme}
    (h : depthAfter? n value = some n) : depthAfter? n (arm e value) = some n := by
  simp [arm, depthAfter?_append, depthAfter?_variantPath, depthAfter?_op, h]

theorem depthAfter?_terminated {value : Entry → List Lexeme} {es : List Entry}
    (hv : ∀ e ∈ es, Neat true 0 0 (value e)) :
    depthAfter? 0 (terminated (es.map fun e => arm e (value e))) = some 0 := by
  induction es with
  | nil => rfl
  | cons e es ih =>
    have hh := ih (fun x hx => hv x (by simp [hx]))
    have hd := depthAfter?_arm e (hv e (by simp)).depth
    rw [List.map_cons, terminated_cons, depthAfter?_append, hd]
    simpa [depthAfter?, Lexeme.depthAfter?] using hh

theorem separated_cons (part : List Lexeme) {parts : List (List Lexeme)} (h : parts ≠ []) :
    separated (part :: parts) = part ++ .sign ',' false :: separated parts := by
  cases parts with
  | nil => exact absurd rfl h
  | cons next parts => simp [separated, op, operator]

theorem readNames?_separated {inFront? : List Lexeme → Option (Text × List Lexeme)}
    {path : Text → List Lexeme} (hp : ∀ v rest, inFront? (path v ++ rest) = some (v, rest))
    (hne : ∀ v, path v ≠ []) {es : List Entry} {n : Nat} (hn : es.length ≤ n) :
    readNames? inFront? n (separated (es.map fun e => path e.field)) = some (es.map Entry.field) := by
  induction es generalizing n with
  | nil => cases n <;> rfl
  | cons e es ih =>
    cases n with
    | zero => simp at hn
    | succ n =>
      have hh := ih (n := n) (by simpa using hn)
      cases es with
      | nil =>
        have hf := hp e.field []
        obtain ⟨l, ls, hl⟩ := List.exists_cons_of_ne_nil (hne e.field)
        rw [List.append_nil, hl] at hf
        simp [separated, hl, readNames?, hf]
      | cons e' es =>
        have hf := hp e.field
          (.sign ',' false :: separated ((e' :: es).map fun e => path e.field))
        obtain ⟨l, ls, hl⟩ := List.exists_cons_of_ne_nil (hne e.field)
        rw [List.map_cons, separated_cons _ (by simp), hl]
        rw [hl] at hf
        rw [List.cons_append] at hf ⊢
        simp only [readNames?, hf, hh, if_true, Option.map_some]
        rfl

theorem length_separated {path : Text → List Lexeme} (hne : ∀ v, path v ≠ []) (es : List Entry) :
    es.length ≤ (separated (es.map fun e => path e.field)).length := by
  induction es with
  | nil => simp
  | cons e es ih =>
    have hl : 0 < (path e.field).length := List.length_pos_iff.mpr (hne e.field)
    cases es with
    | nil => exact hl
    | cons e' es =>
      rw [List.map_cons, separated_cons _ (by simp)]
      simp only [List.length_append, List.length_cons] at ih ⊢
      omega

theorem depthAfter?_separated {path : Text → List Lexeme}
    (hp : ∀ n v, depthAfter? n (path v) = some n) (n : Nat) (es : List Entry) :
    depthAfter? n (separated (es.map fun e => path e.field)) = some n := by
  induction es with
  | nil => rfl
  | cons e es ih =>
    cases es with
    | nil => exact hp n e.field
    | cons e' es =>
      rw [List.map_cons, separated_cons _ (by simp), depthAfter?_append, hp, Option.bind_some]
      simpa [depthAfter?, Lexeme.depthAfter?] using ih

theorem readFunction?_textFunction {value : Entry → List Lexeme} {es : List Entry}
    (function : String) (rest : List Lexeme) (hv : ∀ e ∈ es, Neat true 0 0 (value e)) :
    readFunction? function (textFunction function (es.map fun e => arm e (value e)) ++ rest) =
      some (es.map fun e => (e.field, value e), rest) := by
  have hd := depthAfter?_terminated hv
  have hl : es.length ≤ (terminated (es.map fun e => arm e (value e))).length := by
    simpa using length_terminated (es.map fun e => arm e (value e))
  have hb := readBlock?_append (ident "match" ++ ident "self") .brace [] hd
  have hi : depthAfter? 0 (ident "match" ++ ident "self" ++
      inBraces (terminated (es.map fun e => arm e (value e)))) = some 0 := by
    simpa [ident, inBraces, depthAfter?, Lexeme.depthAfter?] using
      depthAfter?_group (n := 0) (d := .brace) (e := .brace) [] hd
  have ho := readBlock?_append (ident "fn" ++ ident function ++
    inParens (op "&" ++ ident "self") ++ op "->" ++ op "&" ++ [.lifetime "static".toList] ++
    ident "str") .brace rest hi
  have he : textFunction function (es.map fun e => arm e (value e)) ++ rest =
      ident "fn" ++ ident function ++ inParens (op "&" ++ ident "self") ++ op "->" ++ op "&" ++
        [.lifetime "static".toList] ++ ident "str" ++ .opening .brace ::
          (ident "match" ++ ident "self" ++
            inBraces (terminated (es.map fun e => arm e (value e))) ++ .closing .brace :: rest) := by
    simp [textFunction, inBraces]
  rw [readFunction?, he, ho, Option.bind_some]
  simp only [inBraces, hb, readArms?_terminated hv hl, Option.map_some]

theorem nameInFront?_append (v : Text) (rest : List Lexeme) :
    nameInFront? ([.word v] ++ rest) = some (v, rest) := rfl

theorem readNames?_words (es : List Entry) :
    readNames? nameInFront? (separated (es.map fun e => [.word e.field])).length
      (separated (es.map fun e => [.word e.field])) = some (es.map Entry.field) := by
  have hne : ∀ v, ([.word v] : List Lexeme) ≠ [] := by simp
  exact readNames?_separated nameInFront?_append hne (length_separated hne es)

theorem readNames?_variants (es : List Entry) :
    readNames? variantInFront? (separated (es.map fun e => variantPath e.field)).length
      (separated (es.map fun e => variantPath e.field)) = some (es.map Entry.field) := by
  have hne : ∀ v, variantPath v ≠ [] := by simp [variantPath, ident]
  exact readNames?_separated variantInFront?_append hne (length_separated hne es)

/-- What is read back from the code of a record with entries. -/
def Record.keyCode (r : Record) (es : List Entry) : KeyCode :=
  ⟨FieldKeys.keysName r.name, es.map Entry.field, es.map Entry.field,
    es.map fun e => (e.field, e.keyLexemes), es.map fun e => (e.field, e.fieldLexemes)⟩

def keyBody (es : List Entry) : List Lexeme :=
  ident "const" ++ ident "ALL" ++ op ":" ++ op "&" ++ [.lifetime "static".toList] ++
    inBrackets (ident "Self") ++ op "=" ++ op "&" ++
    inBrackets (separated (es.map fun e => variantPath e.field)) ++ op ";" ++
    textFunction "as_str" (es.map fun e => arm e e.keyLexemes) ++
    textFunction "field_name" (es.map fun e => arm e e.fieldLexemes)

theorem fieldLexemes_neat (e : Entry) : Neat true 0 0 e.fieldLexemes :=
  neat_literal true 0 _

theorem KeyCode.readBody?_keyBody {es : List Entry} (name : Text) (variants : List Text)
    (hk : ∀ e ∈ es, Neat true 0 0 e.keyLexemes) :
    KeyCode.readBody? name variants (keyBody es) =
      some ⟨name, variants, es.map Entry.field, es.map fun e => (e.field, e.keyLexemes),
        es.map fun e => (e.field, e.fieldLexemes)⟩ := by
  have hs := depthAfter?_separated depthAfter?_variantPath 0 es
  have ha := fun rest => readBlock?_append (ident "const" ++ ident "ALL" ++ op ":" ++ op "&" ++
    [.lifetime "static".toList] ++ inBrackets (ident "Self") ++ op "=" ++ op "&") .bracket rest hs
  have hf := readFunction?_textFunction "field_name" [] fun e (_ : e ∈ es) => fieldLexemes_neat e
  rw [List.append_nil] at hf
  have he : keyBody es = ident "const" ++ ident "ALL" ++ op ":" ++ op "&" ++
      [.lifetime "static".toList] ++ inBrackets (ident "Self") ++ op "=" ++ op "&" ++
        .opening .bracket :: (separated (es.map fun e => variantPath e.field) ++
          .closing .bracket :: (op ";" ++
            (textFunction "as_str" (es.map fun e => arm e e.keyLexemes) ++
              textFunction "field_name" (es.map fun e => arm e e.fieldLexemes)))) := by
    simp only [keyBody, inBrackets, List.append_assoc, List.cons_append, List.nil_append]
  rw [readBody?, he, ha, Option.bind_some]
  simp only [readNames?_variants, Option.bind_some, isPrefixOf?_append,
    readFunction?_textFunction "as_str" _ hk, hf]

theorem depthAfter?_textFunction {value : Entry → List Lexeme} {es : List Entry}
    (function : String) (hv : ∀ e ∈ es, Neat true 0 0 (value e)) :
    depthAfter? 0 (textFunction function (es.map fun e => arm e (value e))) = some 0 := by
  have hd := depthAfter?_terminated hv
  have hi := depthAfter?_group (n := 1) (d := .brace) (e := .brace) [.closing .brace] hd
  have hf : depthAfter? 0 (ident "fn" ++ ident function ++ inParens (op "&" ++ ident "self") ++
      op "->" ++ op "&" ++ [.lifetime "static".toList] ++ ident "str") = some 0 := rfl
  rw [textFunction, depthAfter?_append, hf, Option.bind_some]
  simpa [inBraces, ident, depthAfter?, Lexeme.depthAfter?] using hi

theorem depthAfter?_keyBody {es : List Entry} (hk : ∀ e ∈ es, Neat true 0 0 e.keyLexemes) :
    depthAfter? 0 (keyBody es) = some 0 := by
  have hs := depthAfter?_separated depthAfter?_variantPath 0 es
  have hb : depthAfter? 0 (inBrackets (separated (es.map fun e => variantPath e.field))) = some 0 :=
    depthAfter?_group [] hs
  have hf : depthAfter? 0 (ident "const" ++ ident "ALL" ++ op ":" ++ op "&" ++
      [.lifetime "static".toList] ++ inBrackets (ident "Self") ++ op "=" ++ op "&") = some 0 := rfl
  have ha := depthAfter?_textFunction "as_str" hk
  have hn := depthAfter?_textFunction "field_name" fun e (_ : e ∈ es) => fieldLexemes_neat e
  rw [keyBody, depthAfter?_append, depthAfter?_append, depthAfter?_append, depthAfter?_append, hf,
    Option.bind_some, hb, Option.bind_some, depthAfter?_op, Option.bind_some, ha, Option.bind_some, hn]

end FieldKeys
