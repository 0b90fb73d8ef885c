import FieldKeys.Token

/-! Grammars as data. A rule says how a phrase is read from the tokens in front, choosing by
the tokens ahead and never going back on a choice. What it reads it writes out again, each
operator as one unit. `Rule.run` is the one reader for all rules. -/

namespace FieldKeys

/-- What a phrase has turned out to be, as far as what may follow depends on it. The first five
are paths: a bare name, a name with arguments, several names without arguments, and several
names of which some have arguments, the last one not or too. -/
inductive Shape where
  | name
  | nameWithArguments
  | names
  | namesAfterArguments
  | namesWithArguments
  | literal
  | range
  | comparison
  | blockLike
  | bound
  | other
deriving DecidableEq, Repr

def keywords : List Text := [
  "_", "abstract", "as", "async", "await", "become", "box", "break", "const", "continue",
  "crate", "do", "dyn", "else", "enum", "extern", "false", "final", "fn", "for", "if", "impl",
  "in", "let", "loop", "macro", "match", "mod", "move", "mut", "override", "priv", "pub", "ref",
  "return", "Self", "self", "static", "struct", "super", "trait", "true", "try", "type",
  "typeof", "unsafe", "unsized", "use", "virtual", "where", "while", "yield"].map String.toList

inductive Test where
  | word (w : Text)
  | anyName
  | anyWord
  | lifetime
  | literal
  | string
  | number
  | index
  | decimalIndex
  | pointedIndex
  | sign (s : Text)
  | opening (d : Delimiter)
  | anyOpening
  | finish
deriving DecidableEq, Repr

def isIndexText (t : Text) : Bool :=
  !t.isEmpty && t.all fun c => decide (48 ≤ c.toNat) && decide (c.toNat ≤ 57)

/-- Two field indices in a row read as one number with a point, and so does one index with the
point after it. -/
def isDecimalIndexText (t : Text) : Bool :=
  let rest := t.dropWhile (· != '.')
  isIndexText (t.takeWhile (· != '.')) && rest.head? == some '.' &&
    (rest.tail.isEmpty || isIndexText rest.tail)

def Lexeme.isWord (w : Text) : Lexeme → Bool
  | .word name => name == w
  | _ => false

/-- Whether one lexeme answers a test that looks at one. -/
def Test.fits : Test → Lexeme → Bool
  | .word w, .word name => name == w
  | .anyName, .word name => !keywords.contains name
  | .anyWord, .word _ => true
  | .lifetime, .lifetime _ => true
  | .literal, .literal _ => true
  | .literal, .word name => name == "true".toList || name == "false".toList
  | .string, .literal text => text.head? == some '"' || text.head? == some 'r'
  | .number, .literal text => text.head?.any fun c => decide (48 ≤ c.toNat) && decide (c.toNat ≤ 57)
  | .index, .literal text => isIndexText text
  | .decimalIndex, .literal text => isDecimalIndexText text
  | .pointedIndex, .literal text => isDecimalIndexText text && text.getLast? == some '.'
  | .opening d, .opening e => d == e
  | .anyOpening, .opening _ => true
  | .finish, .closing _ => true
  | _, _ => false

theorem Lexeme.isWord_iff {w : Text} {l : Lexeme} : l.isWord w = true ↔ l = .word w := by
  cases l <;> simp [isWord]

theorem Test.fits_word_iff {w : Text} {l : Lexeme} :
    (Test.word w).fits l = true ↔ l = .word w := by
  cases l <;> simp [fits]

theorem Test.fits_opening_iff {d : Delimiter} {l : Lexeme} :
    (Test.opening d).fits l = true ↔ l = .opening d := by
  cases l with
  | opening e => simpa [fits] using eq_comm
  | _ => simp [fits]

/-- Whether an operator stands in front: all its characters but the last are joint. -/
def signAhead : Text → List Token → Bool
  | [], _ => true
  | _ :: _, [] => false
  | [c], t :: _ =>
    match t.lexeme with
    | .sign d _ => d == c
    | _ => false
  | c :: cs, t :: ts =>
    match t.lexeme with
    | .sign d joint => d == c && joint && signAhead cs ts
    | _ => false

def Test.holds (test : Test) (ts : List Token) : Bool :=
  match test, ts with
  | .sign s, ts => signAhead s ts
  | .finish, [] => true
  | _, [] => false
  | test, t :: _ => test.fits t.lexeme

inductive Look where
  | ahead (skip : Nat) (test : Test)
  | no (look : Look)
  | both (a b : Look)
  | either (a b : Look)
deriving DecidableEq, Repr

/-- The same look behind so many tokens. -/
def Look.after (n : Nat) : Look → Look
  | .ahead skip test => .ahead (n + skip) test
  | .no look => .no (look.after n)
  | .both a b => .both (a.after n) (b.after n)
  | .either a b => .either (a.after n) (b.after n)

def Look.holds : Look → List Token → Bool
  | .ahead skip test, ts => test.holds (ts.drop skip)
  | .no look, ts => !look.holds ts
  | .both a b, ts => a.holds ts && b.holds ts
  | .either a b, ts => a.holds ts || b.holds ts

/-- The characters of an operator as tokens of one unit, spans kept. -/
def joined : Text → List Token → List Token
  | [], _ | _, [] => []
  | [c], t :: _ => [⟨.sign c false, t.span⟩]
  | c :: cs, t :: ts => ⟨.sign c true, t.span⟩ :: joined cs ts

def indexText (t : Text) : Text :=
  match t.dropWhile (· == '0') with
  | [] => ['0']
  | t => t

/-- How a token that has answered a test is written. -/
def Test.written (test : Test) (t : Token) : List Token :=
  match test, t.lexeme with
  | .index, .literal text => [⟨.literal (indexText text), t.span⟩]
  | .decimalIndex, .literal text =>
    let second := (text.dropWhile (· != '.')).tail
    [⟨.literal (indexText (text.takeWhile (· != '.'))), t.span⟩, ⟨.sign '.' false, t.span⟩] ++
      if second.isEmpty then [] else [⟨.literal (indexText second), t.span⟩]
  | _, _ => [t]

/-- The tokens up to the bracket that closes what is open, and what follows it. -/
def cutGroup : (depth : Nat) → List Token → Option (List Token × List Token)
  | _, [] => none
  | depth, t :: ts =>
    match t.lexeme with
    | .opening _ => (cutGroup (depth + 1) ts).map fun (a, b) => (t :: a, b)
    | .closing _ =>
      if depth ≤ 1 then some ([t], ts) else (cutGroup (depth - 1) ts).map fun (a, b) => (t :: a, b)
    | _ => (cutGroup depth ts).map fun (a, b) => (t :: a, b)

/-- Another way to write what has been read: not at all, as one literal, or as the type of an
input that has no name. -/
inductive Writing where
  | nothing
  | literal
  | unnamed
deriving DecidableEq, Repr

def Writing.write : Writing → List Token → List Token
  | .nothing, _ | _, [] => []
  | .literal, t :: ts =>
    [⟨.literal ((t :: ts).flatMap (·.lexeme.text)),
      t.span.join ((t :: ts).getLast (List.cons_ne_nil t ts)).span⟩]
  | .unnamed, t :: ts => ⟨.word ['_'], t.span⟩ :: ⟨.sign ':' false, t.span⟩ :: t :: ts

def endsInBrace (ts : List Token) : Bool :=
  ts.getLast?.any fun t => t.lexeme == .closing .brace

inductive Rule (P : Type) where
  | done
  | fail
  /-- Reads what answers the test. -/
  | take (test : Test)
  /-- Leaves a group: reads its closing bracket. -/
  | close (d : Delimiter)
  /-- Reads a bracketed group as it stands, whatever is in it. -/
  | raw
  | seq (a b : Rule P)
  | call (phrase : P)
  | choose (look : Look) (yes no : Rule P)
  /-- Chooses by whether a rule can be read ahead. -/
  | probe (ahead yes no : Rule P)
  | onShape (shapes : List Shape) (yes no : Rule P)
  | mark (shape : Shape)
  /-- Takes what a rule reads for a block if a brace ends it. -/
  | braced (rule : Rule P)
  | rewrite (writing : Writing) (rule : Rule P)

instance {P : Type} : Append (Rule P) := ⟨Rule.seq⟩

/-- What has been read: its shape, the tokens that write it, and what follows. -/
structure Reading where
  shape : Shape
  written : List Token
  rest : List Token

/-- A reader starts from the shape of what stands before. -/
abbrev Reader := Shape → List Token → Option Reading

def Test.read (test : Test) : Reader := fun shape ts =>
  if test.holds ts then
    match test, ts with
    | .sign s, ts => some ⟨shape, joined s ts, ts.drop s.length⟩
    | test, t :: ts => some ⟨shape, test.written t, ts⟩
    | _, [] => none
  else none

/-- The bracket that closes the group in front. What is left over before it is refused if the group
has to be read as a `whole`, and dropped if not. -/
def readClose (whole : Bool) (d : Delimiter) : Reader := fun shape ts =>
  (cutGroup 1 ts).bind fun (inside, rest) =>
    match inside.getLast? with
    | some t =>
      if t.lexeme = .closing d ∧ (whole = true → inside = [t]) then some ⟨shape, [t], rest⟩
      else none
    | none => none

def readRaw : Reader := fun shape ts =>
  match ts with
  | t :: ts =>
    match t.lexeme with
    | .opening _ => (cutGroup 1 ts).map fun (a, b) => ⟨shape, t :: a, b⟩
    | _ => none
  | [] => none

def Rule.run {P : Type} (whole : Bool) (phrases : P → Reader) : Rule P → Reader
  | .done, shape, ts => some ⟨shape, [], ts⟩
  | .fail, _, _ => none
  | .take test, shape, ts => test.read shape ts
  | .close d, shape, ts => readClose whole d shape ts
  | .raw, shape, ts => readRaw shape ts
  | .seq a b, shape, ts =>
    match a.run whole phrases shape ts with
    | none => none
    | some first =>
      match b.run whole phrases first.shape first.rest with
      | none => none
      | some second => some ⟨second.shape, first.written ++ second.written, second.rest⟩
  | .call phrase, shape, ts => phrases phrase shape ts
  | .choose look yes no, shape, ts =>
    if look.holds ts then yes.run whole phrases shape ts else no.run whole phrases shape ts
  | .probe ahead yes no, shape, ts =>
    if (ahead.run whole phrases shape ts).isSome then yes.run whole phrases shape ts
    else no.run whole phrases shape ts
  | .onShape shapes yes no, shape, ts =>
    if shapes.contains shape then yes.run whole phrases shape ts
    else no.run whole phrases shape ts
  | .mark new, _, ts => some ⟨new, [], ts⟩
  | .braced rule, shape, ts =>
    (rule.run whole phrases shape ts).map fun r =>
      { r with shape := if endsInBrace r.written then .blockLike else .other }
  | .rewrite writing rule, shape, ts =>
    (rule.run whole phrases shape ts).map fun r => { r with written := writing.write r.written }

/-- The readers of a grammar, for phrases nested no deeper than the number says. -/
def readPhrase {P : Type} (whole : Bool) (grammar : P → Rule P) : Nat → P → Reader
  | 0, _ => fun _ _ => none
  | depth + 1, phrase => (grammar phrase).run whole (readPhrase whole grammar depth)

end FieldKeys
