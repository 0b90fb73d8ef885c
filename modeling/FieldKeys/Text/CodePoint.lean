/-! Sets of characters as runs of code points. -/

namespace FieldKeys

/-- The code points `first`, `first + step`, and so on up to `last`. -/
structure Run where
  first : Nat
  last : Nat
  step : Nat

def Run.holds (r : Run) (n : Nat) : Bool :=
  decide (r.first ≤ n) && decide (n ≤ r.last) && (n - r.first) % r.step == 0

def listed (runs : List Run) (c : Char) : Bool :=
  runs.any (·.holds c.toNat)

/-- A run whose members all move by the same distance. -/
structure Move where
  run : Run
  distance : Int

/-- The character to which the first move that covers `c` leads, or `c` itself. -/
def moved (moves : List Move) (c : Char) : Char :=
  match moves.find? (·.run.holds c.toNat) with
  | some m => Char.ofNat (c.toNat + m.distance).toNat
  | none => c

end FieldKeys
