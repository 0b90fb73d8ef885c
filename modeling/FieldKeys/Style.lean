import FieldKeys.Text
import FieldKeys.Text.Uppercase

/-! Naming styles. A style turns a field name into a key: before each uppercase character it
puts its separator, and it writes that character in lowercase. -/

namespace FieldKeys

inductive Style where
  | snake
  | kebab
deriving DecidableEq, Repr

/-- The style of a record that asks for none. -/
def Style.standard : Style := .snake

def Style.separator : Style → Char
  | .snake => '_'
  | .kebab => '-'

/-- The name under which a style is reported. -/
def Style.label : Style → Text
  | .snake => "SnakeCased".toList
  | .kebab => "KebabCased".toList

/-- The style that a name asks for; each style has two spellings. -/
def Style.ofName? (name : Text) : Option Style :=
  if name = "snake_cased".toList ∨ name = "snakeCased".toList then some .snake
  else if name = "kebab_cased".toList ∨ name = "kebabCased".toList then some .kebab
  else none

def Style.convertChar (s : Style) (c : Char) : Text :=
  if isUppercase c then s.separator :: lowercase c else [c]

def Style.convert (s : Style) (name : Text) : Text :=
  name.flatMap s.convertChar

/-- The mark in front of a name that would otherwise be a keyword. -/
def rawMark : Text := ['r', '#']

/-- A name without one raw mark; the mark alone is a name of its own. -/
def unescape (name : Text) : Text :=
  match Text.after? rawMark name with
  | some (c :: r) => c :: r
  | _ => name

def Style.normalize (s : Style) (name : Text) : Text :=
  s.convert (unescape name)

@[simp] theorem Style.convert_nil (s : Style) : s.convert [] = [] := rfl

@[simp] theorem Style.convert_cons (s : Style) (c : Char) (r : Text) :
    s.convert (c :: r) = s.convertChar c ++ s.convert r := rfl

theorem Style.convert_append (s : Style) (a b : Text) :
    s.convert (a ++ b) = s.convert a ++ s.convert b :=
  List.flatMap_append

def keysName (record : Text) : Text :=
  unescape record ++ "CodingKeys".toList

end FieldKeys
