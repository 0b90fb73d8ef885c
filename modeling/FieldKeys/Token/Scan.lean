import FieldKeys.Text.Quoted
import FieldKeys.Text.Word
import FieldKeys.Token

/-! From a text to its tokens. Each reader below answers what is left of the text after the
piece it has found at the front, and `Token.scan` cuts the whole text into pieces. -/

namespace FieldKeys

/-- What follows a word, which is as long as it can be. -/
def afterWord? : Text → Option Text
  | [] => none
  | c :: r => if startsWord c then some (r.dropWhile continuesWord) else none

/-- What follows the suffix of a literal, if it has one. -/
def afterSuffix (t : Text) : Text :=
  (afterWord? t).getD t

/-- A number ends where no word goes on. -/
def atWordEnd : Text → Bool
  | [] => true
  | c :: _ => !continuesWord c

def isDigitOrUnderscore (c : Char) : Bool :=
  isDigit c || c == '_'

/-- What follows the digits of an exponent, which may have one sign before them. -/
def afterExponent? (t : Text) : Option Text :=
  let t := t.dropWhile (· == '_')
  let t := match t with
    | '+' :: r | '-' :: r => r
    | _ => t
  let t := t.dropWhile (· == '_')
  match t with
  | c :: _ => if isDigit c then some (t.dropWhile isDigitOrUnderscore) else none
  | [] => none

def isExponentMark (c : Char) : Bool :=
  c == 'e' || c == 'E'

/-- What follows the digits of a number with a point or an exponent. A point before a second
point or before a word belongs to those. -/
def afterFloatDigits? (t : Text) : Option Text :=
  match t.dropWhile isDigitOrUnderscore with
  | '.' :: r =>
    if r.head?.any (fun c => c == '.' || startsWord c) then none
    else match r.dropWhile isDigitOrUnderscore with
      | c :: x => if isExponentMark c then some ((afterExponent? x).getD (c :: x)) else some (c :: x)
      | [] => some []
  | c :: x => if isExponentMark c then afterExponent? x else none
  | [] => none

/-- What follows the digits of a whole number of the given base. -/
def afterDigits? (base : Nat) (t : Text) : Option Text :=
  let isPart c := isDigitOrUnderscore c || (base == 16 && (hexValue? c).isSome)
  let digits := (t.takeWhile isPart).filter (· != '_')
  if digits.isEmpty || digits.any (fun c => isDigit c && decide (base ≤ c.toNat - 48)) then none
  else some (t.dropWhile isPart)

def afterIntegerDigits? : Text → Option Text
  | '0' :: 'x' :: r => afterDigits? 16 r
  | '0' :: 'o' :: r => afterDigits? 8 r
  | '0' :: 'b' :: r => afterDigits? 2 r
  | t => if t.head?.any isDigit then afterDigits? 10 t else none

/-- What follows a number and its suffix, given what follows its digits. -/
def endNumber? (rest : Option Text) : Option Text :=
  (rest.map afterSuffix).bind fun t => if atWordEnd t then some t else none

def afterNumber? (t : Text) : Option Text :=
  if t.head?.any isDigit then
    (endNumber? (afterFloatDigits? t)).or (endNumber? (afterIntegerDigits? t))
  else none

/-- What follows a character literal that begins after its opening quote. -/
def afterCharacter? (k : Content) (t : Text) : Option Text :=
  let body := match t with
    | '\\' :: r => afterEscape? k .backslash r
    | c :: r => if k.admits c then some r else none
    | [] => none
  body.bind fun
    | '\'' :: r => some (afterSuffix r)
    | _ => none

def afterPlain? (k : Content) (t : Text) : Option Text :=
  (unquote k .plain t).map fun (_, rest) => afterSuffix rest

def afterRaw? (k : Content) (t : Text) : Option Text :=
  (unquoteHashed k t).map fun (_, rest) => afterSuffix rest

def afterLiteral? (t : Text) : Option Text :=
  match t with
  | '"' :: r => afterPlain? .chars r
  | '\'' :: r => afterCharacter? .chars r
  | 'r' :: r => afterRaw? .chars r
  | 'b' :: '"' :: r => afterPlain? .bytes r
  | 'b' :: 'r' :: r => afterRaw? .bytes r
  | 'b' :: '\'' :: r => afterCharacter? .bytes r
  | 'c' :: '"' :: r => afterPlain? .nonzero r
  | 'c' :: 'r' :: r => afterRaw? .nonzero r
  | _ => afterNumber? t

/-- The characters that stand for themselves. -/
def signChars : Text := "~!@#$%^&*-=+|;:,<.>/?".toList

/-- The sign in front; a slash that opens a comment is none. -/
def startsSign : Text → Bool
  | '/' :: '/' :: _ | '/' :: '*' :: _ => false
  | c :: _ => signChars.contains c || c == '\''
  | [] => false

/-- Words that cannot be written with a raw mark. -/
def unmarkable : List Text :=
  ["_".toList, "super".toList, "self".toList, "Self".toList, "crate".toList]

def afterName? (t : Text) : Option Text :=
  match Text.after? rawWordMark t with
  | some r => (afterWord? r).bind fun rest =>
      if unmarkable.contains (r.take (r.length - rest.length)) then none else some rest
  | none => afterWord? t
where
  rawWordMark : Text := ['r', '#']

/-- The openings of literals that are a word and a double quote. -/
def stringOpenings : List Text :=
  ["r\"".toList, "b\"".toList, "br\"".toList, "c\"".toList, "cr\"".toList]

/-- The openings of quoted literals, which no word can have. -/
def quoteOpenings : List Text :=
  stringOpenings ++
    ["r#\"".toList, "r##".toList, "b'".toList, "br#".toList, "cr#".toList]

/-- What follows a comment, given what follows its opening and how many are open. -/
def afterComment? : (depth : Nat) → Text → Option Text
  | _, [] => none
  | depth, '/' :: '*' :: r => afterComment? (depth + 1) r
  | depth, '*' :: '/' :: r => if depth ≤ 1 then some r else afterComment? (depth - 1) r
  | depth, _ :: r => afterComment? depth r

/-- The line in front and what follows it, the line break included in neither. -/
def cutLine : Text → Text × Text
  | [] => ([], [])
  | '\n' :: r => ([], '\n' :: r)
  | '\r' :: '\n' :: r => ([], '\r' :: '\n' :: r)
  | c :: r => let (line, rest) := cutLine r; (c :: line, rest)

/-- Whether every carriage return stands before a line feed. -/
def wholeBreaks : Text → Bool
  | [] => true
  | '\r' :: '\n' :: r => wholeBreaks r
  | c :: r => c != '\r' && wholeBreaks r

/-- The blanks of the property `White_Space`, and the two marks of direction. -/
def isBlank (c : Char) : Bool :=
  if c.toNat < 128 then c == ' ' || (decide (9 ≤ c.toNat) && decide (c.toNat ≤ 13))
  else listed [⟨0x85, 0x85, 1⟩, ⟨0xA0, 0xA0, 1⟩, ⟨0x1680, 0x1680, 1⟩, ⟨0x2000, 0x200A, 1⟩,
    ⟨0x200E, 0x200F, 1⟩, ⟨0x2028, 0x2029, 1⟩, ⟨0x202F, 0x202F, 1⟩, ⟨0x205F, 0x205F, 1⟩,
    ⟨0x3000, 0x3000, 1⟩] c

/-- What stands in front of a text. Documentation comments count as attributes, and a quote before a
literal that opens with a word is a sign. -/
inductive Piece where
  | blank (rest : Text)
  | doc (inner : Bool) (body : Text) (rest : Text)
  | lexeme (lexeme : Lexeme) (rest : Text)
  | quoted (literal : Text) (rest : Text)

def Piece.rest : Piece → Text
  | .blank rest => rest
  | .doc _ _ rest => rest
  | .lexeme _ rest => rest
  | .quoted _ rest => rest

def docPiece? (inner : Bool) (body rest : Text) : Option Piece :=
  if wholeBreaks body then some (.doc inner body rest) else none

/-- The body of a block comment for documentation, whose opening has three characters. -/
def blockDoc? (inner : Bool) (body : Text) : Option Piece :=
  (afterComment? 1 body).bind fun rest =>
    docPiece? inner (body.take (body.length - rest.length - 2)) rest

/-- The comment in front of a text that begins with a slash and a slash or a star. -/
def comment? (t : Text) : Option Piece :=
  match t with
  | '/' :: '/' :: '/' :: '/' :: r => some (.blank (cutLine r).2)
  | '/' :: '/' :: '/' :: r => docPiece? false (cutLine r).1 (cutLine r).2
  | '/' :: '/' :: '!' :: r => docPiece? true (cutLine r).1 (cutLine r).2
  | '/' :: '/' :: r => some (.blank (cutLine r).2)
  | '/' :: '*' :: '*' :: '/' :: r => some (.blank r)
  | '/' :: '*' :: '*' :: '*' :: r => (afterComment? 1 ('*' :: '*' :: r)).map .blank
  | '/' :: '*' :: '*' :: r => blockDoc? false r
  | '/' :: '*' :: '!' :: r => blockDoc? true r
  | '/' :: '*' :: r => (afterComment? 1 r).map .blank
  | _ => none

def delimiter? (c : Char) : Option Lexeme :=
  if c = '(' then some (.opening .paren)
  else if c = '[' then some (.opening .bracket)
  else if c = '\x7b' then some (.opening .brace)
  else if c = ')' then some (.closing .paren)
  else if c = ']' then some (.closing .bracket)
  else if c = '\x7d' then some (.closing .brace)
  else none

def lifetime? (t : Text) : Option Piece :=
  (afterName? t).bind fun rest =>
    match rest with
    | '\'' :: _ => none
    | '#' :: _ =>
      if Text.beginsWith t ['r', '#'] then some (.lexeme (.lifetime (t.take (t.length - rest.length))) rest)
      else none
    | _ => some (.lexeme (.lifetime (t.take (t.length - rest.length))) rest)

/-- A quote in front of a name that no second quote follows makes a lifetime, unless a literal opens
with that name. -/
def quoted? (t : Text) : Option Piece :=
  if stringOpenings.any (Text.beginsWith t) then
    (afterLiteral? t).map fun rest => .quoted (t.take (t.length - rest.length)) rest
  else lifetime? t

def leaf? (t : Text) : Option Piece :=
  match afterLiteral? t with
  | some rest => some (.lexeme (.literal (t.take (t.length - rest.length))) rest)
  | none =>
    match t with
    | '\'' :: r => quoted? r
    | c :: r =>
      if startsSign t then some (.lexeme (.sign c (startsSign r)) r)
      else if quoteOpenings.any (Text.beginsWith t) then none
      else (afterName? t).map fun rest => .lexeme (.word (t.take (t.length - rest.length))) rest
    | [] => none

def piece? : Text → Option Piece
  | [] => none
  | c :: r =>
    if isBlank c then some (.blank r)
    else if c = '/' ∧ r.head?.any (fun d => d == '/' || d == '*') then comment? (c :: r)
    else match delimiter? c with
      | some l => some (.lexeme l r)
      | none => leaf? (c :: r)

def Piece.lexemes : Piece → List Lexeme
  | .blank _ => []
  | .lexeme l _ => [l]
  | .quoted literal _ => [.sign '\'' true, .literal literal]
  | .doc inner body _ =>
    (.sign '#' false :: if inner then [.sign '!' false] else []) ++
      [.opening .bracket, .word "doc".toList, .sign '=' false, .literal (quote body),
        .closing .bracket]

/-- The tokens of a text that begins at a position, before their brackets are checked. The
first number bounds the pieces. -/
def scanFrom : Nat → Position → Text → Option (List Token)
  | _, _, [] => some []
  | 0, _, _ :: _ => none
  | n + 1, p, t =>
    (piece? t).bind fun piece =>
      let q := p.advance (t.take (t.length - piece.rest.length))
      (scanFrom n q piece.rest).map (piece.lexemes.map (⟨·, ⟨p, q⟩⟩) ++ ·)

/-- A mark of byte order may stand at the very start. -/
def byteOrderMark : Char := Char.ofNat 0xFEFF

/-- The tokens of a whole text, if it can be cut into tokens and its brackets are balanced. -/
def Token.scan? (t : Text) : Option (List Token) :=
  let tokens := match t with
    | c :: r =>
      if c = byteOrderMark then scanFrom r.length (Position.origin.next c) r
      else scanFrom t.length .origin t
    | [] => some []
  tokens.filter (balanced [])

end FieldKeys
