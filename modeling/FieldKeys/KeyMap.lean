import FieldKeys.KeyTable

/-! Data to be read back: a variant from a text, and a map from variants to integers from an
object. -/

namespace FieldKeys

/-- Data as far as they matter here. The members of an object have distinct names, in any
order; what is not a whole number, a text or an object is none of these. -/
inductive Datum where
  | integer (n : Int)
  | text (t : Text)
  | object (members : List (Text × Datum))
  | other
deriving Inhabited

/-- The whole number that a datum is, within 64 bits. -/
def Datum.integer? : Datum → Option Int
  | .integer n => if -0x8000000000000000 ≤ n ∧ n < 0x8000000000000000 then some n else none
  | _ => none

def KeyTable.deserialize (t : KeyTable) : Datum → Except LookupError Variant
  | .text key => KeyTable.fromKey t key
  | _ => .error .invalidType

/-- Integers by variant, in the order of the rows. -/
abbrev KeyMap := List (Variant × Int)

/-- Puts a value under a variant, in place of the one that is there. -/
def KeyMap.insert (v : Variant) (n : Int) : KeyMap → KeyMap
  | [] => [(v, n)]
  | (w, m) :: rest =>
    if v.index < w.index then (v, n) :: (w, m) :: rest
    else if v.index = w.index then (v, n) :: rest
    else (w, m) :: KeyMap.insert v n rest

/-- One member of an object: its name is read before its value. -/
def KeyTable.readMember (t : KeyTable) (member : Text × Datum) :
    Except LookupError (Variant × Int) :=
  match KeyTable.fromKey t member.1 with
  | .error e => .error e
  | .ok v =>
    match member.2.integer? with
    | some n => .ok (v, n)
    | none => .error .invalidType

def KeyTable.readMembers (t : KeyTable) : KeyMap → List (Text × Datum) → Except LookupError KeyMap
  | map, [] => .ok map
  | map, member :: members =>
    match KeyTable.readMember t member with
    | .error e => .error e
    | .ok (v, n) => KeyTable.readMembers t (KeyMap.insert v n map) members

/-- The members of an object in the order in which they are read: the byte order of the names. -/
def inByteOrder (members : List (Text × Datum)) : List (Text × Datum) :=
  members.mergeSort fun a b => Text.byteLE a.1 b.1

def KeyTable.readMap (t : KeyTable) : Datum → Except LookupError KeyMap
  | .object members => KeyTable.readMembers t [] (inByteOrder members)
  | _ => .error .invalidType

def KeyMap.members (m : KeyMap) : List (Text × Int) :=
  m.map fun (v, n) => (v.serialized, n)

end FieldKeys
