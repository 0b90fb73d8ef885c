import FieldKeys.Source.Item

/-! Lists with commas. Fields in braces and parameters in angle brackets are read in one way: member by
member, with commas between them and perhaps behind the last one, up to what closes the list. -/

namespace FieldKeys

section

variable {α : Type} (closes : Token → Bool) (read? : List Token → Option (α × List Token))
  (marked : α → α)

/-- Members up to what closes their list; the number bounds them. One before a comma is marked. -/
def readCommaList? : Nat → List Token → Option (List α × List Token)
  | _, [] => none
  | 0, _ :: _ => none
  | n + 1, t :: ts =>
    if closes t then some ([], ts)
    else
      (read? (t :: ts)).bind fun (x, rest) =>
        match rest with
        | u :: rest =>
          if closes u then some ([x], rest)
          else if isSign ',' u then
            (readCommaList? n rest).map fun (xs, rest) => (marked x :: xs, rest)
          else none
        | [] => none

/-- The ways in which such a list is read. -/
inductive CommaList : Nat → List Token → List α → List Token → Prop
  | none {n : Nat} {t : Token} {rest : List Token} (hc : closes t = true) :
      CommaList (n + 1) (t :: rest) [] rest
  | last {n : Nat} {t u : Token} {ts rest : List Token} {x : α} (ho : closes t = false)
      (hx : read? (t :: ts) = some (x, u :: rest)) (hc : closes u = true) :
      CommaList (n + 1) (t :: ts) [x] rest
  | cons {n : Nat} {t u : Token} {ts left rest : List Token} {x : α} {xs : List α}
      (ho : closes t = false) (hx : read? (t :: ts) = some (x, u :: left)) (hn : closes u = false)
      (hu : isSign ',' u = true) (h : CommaList n left xs rest) :
      CommaList (n + 1) (t :: ts) (marked x :: xs) rest

end

variable {α : Type} {closes : Token → Bool} {read? : List Token → Option (α × List Token)}
  {marked : α → α}

theorem readCommaList?_eq_some_iff {n : Nat} {ts rest : List Token} {xs : List α} :
    readCommaList? closes read? marked n ts = some (xs, rest) ↔
      CommaList closes read? marked n ts xs rest := by
  constructor
  · intro h
    induction n generalizing ts xs with
    | zero => cases ts <;> simp [readCommaList?] at h
    | succ n ih =>
      cases ts with
      | nil => simp [readCommaList?] at h
      | cons t ts =>
        simp only [readCommaList?] at h
        split at h
        · next hc =>
          obtain ⟨rfl, rfl⟩ := Prod.mk.inj (Option.some.inj h)
          exact .none hc
        next ho =>
        obtain ⟨⟨x, left⟩, hx, h⟩ := Option.bind_eq_some_iff.mp h
        dsimp only at h
        split at h
        · next u left =>
          split at h
          · next hc =>
            obtain ⟨rfl, rfl⟩ := Prod.mk.inj (Option.some.inj h)
            exact .last (Bool.eq_false_iff.mpr ho) hx hc
          next hn =>
          split at h
          · next hu =>
            obtain ⟨⟨others, rest'⟩, hothers, hp⟩ := Option.map_eq_some_iff.mp h
            obtain ⟨rfl, rfl⟩ := Prod.mk.inj hp
            exact .cons (Bool.eq_false_iff.mpr ho) hx (Bool.eq_false_iff.mpr hn) hu (ih hothers)
          · simp at h
        · simp at h
  · intro h
    induction h with
    | none hc => simp [readCommaList?, hc]
    | last ho hx hc => simp [readCommaList?, ho, hx, hc]
    | cons ho hx hn hu _ ih => simp [readCommaList?, ho, hx, hn, hu, ih]

theorem CommaList.suffix (hs : ∀ ts x rest, read? ts = some (x, rest) → rest <:+ ts) {n : Nat}
    {ts rest : List Token} {xs : List α} (h : CommaList closes read? marked n ts xs rest) :
    rest <:+ ts := by
  induction h with
  | none => exact List.suffix_cons _ _
  | last _ hx => exact (List.suffix_cons _ _).trans (hs _ _ _ hx)
  | cons _ hx _ _ _ ih => exact ih.trans ((List.suffix_cons _ _).trans (hs _ _ _ hx))

theorem Field.readAll?_eq (n : Nat) (ts : List Token) :
    Field.readAll? n ts = readCommaList? (isClosing .brace) Field.read? id n ts := by
  induction n generalizing ts with
  | zero => cases ts <;> rfl
  | succ n ih =>
    cases ts with
    | nil => rfl
    | cons t ts =>
      simp only [readAll?, readCommaList?, ih]
      rfl

theorem Field.readAll?_eq_some_iff {n : Nat} {ts rest : List Token} {fields : List Field} :
    Field.readAll? n ts = some (fields, rest) ↔
      CommaList (isClosing .brace) Field.read? id n ts fields rest := by
  rw [readAll?_eq, readCommaList?_eq_some_iff]

/-- A parameter before a comma, which has to be written with it. -/
def Parameter.withComma (p : Parameter) : Parameter := { p with comma := true }

theorem Parameter.readAll?_eq (n : Nat) (ts : List Token) :
    Parameter.readAll? n ts = readCommaList? (isSign '>') Parameter.read? withComma n ts := by
  induction n generalizing ts with
  | zero => cases ts <;> rfl
  | succ n ih =>
    cases ts with
    | nil => rfl
    | cons t ts =>
      simp only [readAll?, readCommaList?, ih]
      rfl

theorem Parameter.readAll?_eq_some_iff {n : Nat} {ts rest : List Token} {ps : List Parameter} :
    Parameter.readAll? n ts = some (ps, rest) ↔
      CommaList (isSign '>') Parameter.read? withComma n ts ps rest := by
  rw [readAll?_eq, readCommaList?_eq_some_iff]

end FieldKeys
