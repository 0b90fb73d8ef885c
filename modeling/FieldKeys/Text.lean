/-! Texts as lists of characters, so that every count below is a count of characters.
The byte order of texts is the order in which the members of an object are read. -/

namespace FieldKeys

abbrev Text := List Char

/-- The bytes that write a text in UTF-8. -/
def Text.utf8 (t : Text) : List UInt8 :=
  t.flatMap String.utf8EncodeChar

/-- Whether the bytes `a` stand before or at the bytes `b` in a dictionary. -/
def bytesLE : List UInt8 → List UInt8 → Bool
  | [], _ => true
  | _ :: _, [] => false
  | a :: as, b :: bs => decide (a < b) || (a == b && bytesLE as bs)

/-- Whether the text `a` stands before or at the text `b` in byte order. -/
def Text.byteLE (a b : Text) : Bool :=
  bytesLE (Text.utf8 a) (Text.utf8 b)

/-- The text after `start`, if the text begins with it. -/
def Text.after? : (start : Text) → Text → Option Text
  | [], t => some t
  | _ :: _, [] => none
  | c :: cs, d :: ds => if c = d then Text.after? cs ds else none

theorem Text.after?_eq_some_iff {start t rest : Text} :
    Text.after? start t = some rest ↔ t = start ++ rest := by
  induction start generalizing t with
  | nil => simp [Text.after?, eq_comm]
  | cons c cs ih =>
    cases t with
    | nil => simp [Text.after?]
    | cons d ds =>
      by_cases h : c = d
      · subst h
        simp [Text.after?, ih]
      · simp [Text.after?, h, Ne.symm h]

def Text.beginsWith (t start : Text) : Bool :=
  (Text.after? start t).isSome

end FieldKeys
