import FieldKeys.Span

/-! What can be wrong with a record, and where. -/

namespace FieldKeys

inductive Fault where
  | illFormed
  | notStructure (span : Span)
  | unrecognizedStyle (span : Span)
  | unknownArgument (span : Span)
  | malformedCustomKey (span : Span)
deriving DecidableEq, Repr

/-- The domain of the faults that have an identifier of their own. -/
def Fault.domain : Text := "coding_keys".toList

/-- The identifier of a fault, which does not depend on its message. -/
def Fault.id? : Fault → Option Text
  | .malformedCustomKey _ => some "emptyArgument".toList
  | .unrecognizedStyle _ => some "unrecognizedStyle".toList
  | _ => none

def Fault.summary : Fault → Text
  | .illFormed => []
  | .notStructure _ => "CodingKeys can only be derived for structs".toList
  | .unrecognizedStyle _ =>
    "Unrecognized coding key style, expected `snake_cased` or `kebab_cased`".toList
  | .unknownArgument _ => "unknown coding_keys argument, expected `style`".toList
  | .malformedCustomKey _ => "Empty argument".toList

/-- The summary, followed by the domain and the identifier where there is one. -/
def Fault.message (f : Fault) : Text :=
  match f.id? with
  | some id => f.summary ++ " [".toList ++ Fault.domain ++ "::".toList ++ id ++ "]".toList
  | none => f.summary

def Fault.span? : Fault → Option Span
  | .illFormed => none
  | .notStructure span | .unrecognizedStyle span | .unknownArgument span
  | .malformedCustomKey span => some span

theorem exists_of_map_ok {ε α β : Type} {answer : Except ε α} {f : α → β} {b : β}
    (h : answer.map f = .ok b) : ∃ a, answer = .ok a ∧ f a = b := by
  cases answer with
  | error x => simp [Except.map] at h
  | ok a => exact ⟨a, rfl, Except.ok.inj h⟩

theorem map_eq_error_iff {ε α β : Type} {answer : Except ε α} {f : α → β} {x : ε} :
    answer.map f = .error x ↔ answer = .error x := by
  cases answer <;> simp [Except.map]

theorem exists_of_isOk {ε α : Type} {answer : Except ε α} (h : answer.isOk = true) :
    ∃ a, answer = .ok a := by
  cases answer with
  | error x => simp [Except.isOk, Except.toBool] at h
  | ok a => exact ⟨a, rfl⟩

end FieldKeys
