import FieldKeys.KeyMap
import FieldKeys.Proofs.ByteOrder
import FieldKeys.Proofs.Lists
import FieldKeys.Proofs.Shadowing

/-! Maps from variants to integers, read from an object. Distinct names lead to distinct variants
also where keys repeat, so that no member is lost; the bad member that is read first decides the
error. -/

namespace FieldKeys

/-- A member of an object that no map can hold: its name is no key, or its value no integer within
64 bits. -/
def KeyTable.Bad (t : KeyTable) (member : Text × Datum) : Prop :=
  member.1 ∉ KeyTable.keys t ∨ member.2.integer? = none

/-- The error of a bad member. An unknown name comes first. -/
def KeyTable.errorOf (t : KeyTable) (member : Text × Datum) : LookupError :=
  if member.1 ∈ KeyTable.keys t then .invalidType else .unknownKey member.1

/-- A row is the variant to which the name of a member leads, with the value of the member. -/
def KeyTable.Reads (t : KeyTable) (member : Text × Datum) (row : Variant × Int) : Prop :=
  KeyTable.fromKey t member.1 = .ok row.1 ∧ member.2.integer? = some row.2

theorem Datum.integer?_eq_some_iff {d : Datum} {n : Int} :
    d.integer? = some n ↔ d = .integer n ∧ -0x8000000000000000 ≤ n ∧ n < 0x8000000000000000 := by
  cases d with
  | integer m =>
    simp only [integer?, Option.ite_none_right_eq_some, Option.some.injEq, integer.injEq]
    constructor
    · rintro ⟨h, rfl⟩
      exact ⟨rfl, h⟩
    · rintro ⟨rfl, h⟩
      exact ⟨h, rfl⟩
  | _ => simp [integer?]

theorem KeyTable.readMember_eq_ok_iff {t : KeyTable} {member : Text × Datum}
    {row : Variant × Int} :
    KeyTable.readMember t member = .ok row ↔ KeyTable.Reads t member row := by
  obtain ⟨v, n⟩ := row
  unfold readMember Reads
  cases KeyTable.fromKey t member.1 with
  | error e => simp
  | ok w => cases member.2.integer? <;> simp

theorem KeyTable.readMember_eq_error_iff {t : KeyTable} {member : Text × Datum} {e : LookupError} :
    KeyTable.readMember t member = .error e ↔
      KeyTable.Bad t member ∧ e = KeyTable.errorOf t member := by
  unfold readMember Bad errorOf
  cases hk : KeyTable.fromKey t member.1 with
  | error e' =>
    obtain ⟨rfl, hm⟩ := fromKey_eq_error_iff.mp hk
    simp [hm, eq_comm]
  | ok w =>
    have hm : member.1 ∈ KeyTable.keys t := exists_first_iff.mp ⟨w, fromKey_eq_ok_iff.mp hk⟩
    cases member.2.integer? <;> simp [hm, eq_comm]

theorem KeyTable.bad_or_reads (t : KeyTable) (member : Text × Datum) :
    KeyTable.Bad t member ∨ ∃ row, KeyTable.Reads t member row := by
  cases h : KeyTable.readMember t member with
  | error e => exact .inl (readMember_eq_error_iff.mp h).1
  | ok row => exact .inr ⟨row, readMember_eq_ok_iff.mp h⟩

theorem KeyTable.Reads.not_bad {t : KeyTable} {member : Text × Datum} {row : Variant × Int}
    (h : KeyTable.Reads t member row) : ¬ KeyTable.Bad t member := by
  intro hb
  have he := readMember_eq_error_iff.mpr ⟨hb, rfl⟩
  rw [readMember_eq_ok_iff.mpr h] at he
  simp at he

theorem KeyTable.Reads.member_eq {t : KeyTable} {member : Text × Datum} {row : Variant × Int}
    (h : KeyTable.Reads t member row) : member = (row.1.serialized, .integer row.2) := by
  have hkey : row.1.row.key = member.1 := (fromKey_eq_ok_iff.mp h.1).2.1
  exact Prod.ext hkey.symm (Datum.integer?_eq_some_iff.mp h.2).1

theorem KeyTable.Reads.index_inj {t : KeyTable} {member member' : Text × Datum}
    {row row' : Variant × Int} (h : KeyTable.Reads t member row)
    (h' : KeyTable.Reads t member' row') (hi : row.1.index = row'.1.index) :
    member.1 = member'.1 := by
  have hf := fromKey_eq_ok_iff.mp h.1
  have hf' := fromKey_eq_ok_iff.mp h'.1
  have hrow : row.1.row = row'.1.row := Option.some.inj (hf.1.symm.trans (hi ▸ hf'.1))
  rw [← hf.2.1, ← hf'.2.1, hrow]

theorem KeyMap.insert_perm {v : Variant} {n : Int} {m : KeyMap}
    (h : v.index ∉ m.map (·.1.index)) : (KeyMap.insert v n m).Perm ((v, n) :: m) := by
  induction m with
  | nil => rfl
  | cons row m ih =>
    obtain ⟨w, k⟩ := row
    simp only [List.map_cons, List.mem_cons, not_or] at h
    simp only [insert]
    split
    · rfl
    · rw [if_neg h.1]
      exact ((ih h.2).cons _).trans (List.Perm.swap _ _ _)

theorem KeyMap.insert_sorted {v : Variant} {n : Int} {m : KeyMap}
    (h : v.index ∉ m.map (·.1.index)) (hm : m.Pairwise fun a b => a.1.index < b.1.index) :
    (KeyMap.insert v n m).Pairwise fun a b => a.1.index < b.1.index := by
  induction m with
  | nil => simp [insert]
  | cons row m ih =>
    obtain ⟨w, k⟩ := row
    obtain ⟨hw, hs⟩ := List.pairwise_cons.mp hm
    simp only [List.map_cons, List.mem_cons, not_or] at h
    simp only [insert]
    split
    · next hlt =>
      refine List.pairwise_cons.mpr ⟨fun row hrow => ?_, hm⟩
      rcases List.mem_cons.mp hrow with rfl | hrow
      · exact hlt
      · exact hlt.trans (hw row hrow)
    · next hge =>
      rw [if_neg h.1]
      refine List.pairwise_cons.mpr ⟨fun row hrow => ?_, ih h.2 hs⟩
      rcases List.mem_cons.mp ((insert_perm h.2).mem_iff.mp hrow) with rfl | hrow
      · have hne := h.1
        show w.index < v.index
        omega
      · exact hw row hrow

/-- Either every member is read, or a first one is bad and decides the error. -/
theorem KeyTable.readMembers_cases (t : KeyTable) (map : KeyMap) (members : List (Text × Datum)) :
    (∃ rows, List.Forall₂ (KeyTable.Reads t) members rows ∧
      KeyTable.readMembers t map members =
        .ok (rows.foldl (fun m row => KeyMap.insert row.1 row.2 m) map)) ∨
    ∃ before member after, members = before ++ member :: after ∧
      (∀ other ∈ before, ¬ KeyTable.Bad t other) ∧ KeyTable.Bad t member ∧
      KeyTable.readMembers t map members = .error (KeyTable.errorOf t member) := by
  induction members generalizing map with
  | nil => exact .inl ⟨[], .nil, rfl⟩
  | cons member members ih =>
    rcases bad_or_reads t member with hb | ⟨row, hr⟩
    · refine .inr ⟨[], member, members, rfl, by simp, hb, ?_⟩
      rw [readMembers, readMember_eq_error_iff.mpr ⟨hb, rfl⟩]
    · have hstep : KeyTable.readMembers t map (member :: members) =
          KeyTable.readMembers t (KeyMap.insert row.1 row.2 map) members := by
        rw [readMembers, readMember_eq_ok_iff.mpr hr]
      rcases ih (KeyMap.insert row.1 row.2 map) with ⟨rows, hf, ho⟩ |
        ⟨before, bad, after, rfl, hg, hb, he⟩
      · exact .inl ⟨row :: rows, .cons hr hf, hstep.trans ho⟩
      · exact .inr ⟨member :: before, bad, after, rfl, List.forall_mem_cons.mpr ⟨hr.not_bad, hg⟩, hb,
          hstep.trans he⟩

/-- What is put into a map under distinct variants is in it, in the order of the rows. -/
theorem KeyMap.foldl_insert {rows m : KeyMap} (hn : ((m ++ rows).map (·.1.index)).Nodup)
    (hm : m.Pairwise fun a b => a.1.index < b.1.index) :
    (rows.foldl (fun m row => KeyMap.insert row.1 row.2 m) m).Perm (m ++ rows) ∧
      (rows.foldl (fun m row => KeyMap.insert row.1 row.2 m) m).Pairwise
        fun a b => a.1.index < b.1.index := by
  induction rows generalizing m with
  | nil => simpa using hm
  | cons row rows ih =>
    have hnew : row.1.index ∉ m.map (·.1.index) := by
      rw [List.map_append, List.map_cons] at hn
      exact fun hmem => List.disjoint_of_nodup_append hn hmem (by simp)
    have hp : (KeyMap.insert row.1 row.2 m ++ rows).Perm (m ++ row :: rows) :=
      ((insert_perm hnew).append_right rows).trans List.perm_middle.symm
    obtain ⟨hperm, hsorted⟩ := ih (((hp.map _).nodup_iff).mpr hn) (insert_sorted hnew hm)
    exact ⟨hperm.trans hp, hsorted⟩

theorem KeyTable.reads_index_nodup {t : KeyTable} {members : List (Text × Datum)} {rows : KeyMap}
    (h : List.Forall₂ (KeyTable.Reads t) members rows) (hn : (members.map Prod.fst).Nodup) :
    (rows.map (·.1.index)).Nodup := by
  induction h with
  | nil => exact List.nodup_nil
  | cons hr hf ih =>
    rw [List.map_cons, List.nodup_cons] at hn ⊢
    refine ⟨fun hmem => hn.1 ?_, ih hn.2⟩
    obtain ⟨row, hrow, hi⟩ := List.mem_map.mp hmem
    obtain ⟨member, hm, hr'⟩ := forall₂_mem_right hf hrow
    rw [hr.index_inj hr' hi.symm]
    exact List.mem_map_of_mem hm

theorem KeyTable.Reads.members_eq {t : KeyTable} {members : List (Text × Datum)} {rows : KeyMap}
    (h : List.Forall₂ (KeyTable.Reads t) members rows) :
    rows.map (fun row => (row.1.serialized, Datum.integer row.2)) = members := by
  induction h with
  | nil => rfl
  | cons hr _ ih => rw [List.map_cons, ih, ← hr.member_eq]

theorem inByteOrder_sorted (members : List (Text × Datum)) :
    (inByteOrder members).Pairwise fun a b => Text.byteLE a.1 b.1 = true :=
  @List.pairwise_mergeSort _ (fun a b : Text × Datum => Text.byteLE a.1 b.1)
    (fun _ _ _ => Text.byteLE_trans) (fun _ _ => Text.byteLE_total _ _) members

theorem inByteOrder_perm (members : List (Text × Datum)) : (inByteOrder members).Perm members :=
  List.mergeSort_perm _ _

/-- The bad member of an object whose name stands before the names of all others. -/
structure KeyTable.FirstBad (t : KeyTable) (members : List (Text × Datum)) (member : Text × Datum) :
    Prop where
  mem : member ∈ members
  bad : KeyTable.Bad t member
  least : ∀ other ∈ members, KeyTable.Bad t other → Text.byteLE member.1 other.1 = true

theorem KeyTable.FirstBad.unique {t : KeyTable} {members : List (Text × Datum)}
    (hn : (members.map Prod.fst).Nodup) {member member' : Text × Datum}
    (h : KeyTable.FirstBad t members member) (h' : KeyTable.FirstBad t members member') :
    member = member' := by
  have he := Text.byteLE_antisymm (h.least _ h'.mem h'.bad) (h'.least _ h.mem h.bad)
  exact List.inj_on_of_nodup_map hn h.mem h'.mem he

theorem KeyTable.readMap_cases {t : KeyTable} {members : List (Text × Datum)}
    (hn : (members.map Prod.fst).Nodup) :
    (∃ rows m, List.Forall₂ (KeyTable.Reads t) (inByteOrder members) rows ∧
      KeyTable.readMap t (.object members) = .ok m ∧ m.Perm rows ∧
      m.Pairwise fun a b => a.1.index < b.1.index) ∨
    ∃ member, KeyTable.FirstBad t members member ∧
      KeyTable.readMap t (.object members) = .error (KeyTable.errorOf t member) := by
  have hp := inByteOrder_perm members
  rcases readMembers_cases t [] (inByteOrder members) with ⟨rows, hf, ho⟩ |
    ⟨before, member, after, hs, hg, hb, he⟩
  · have hi := reads_index_nodup hf ((hp.map Prod.fst).nodup_iff.mpr hn)
    obtain ⟨hperm, hsorted⟩ := KeyMap.foldl_insert (m := []) (by simpa using hi) .nil
    exact .inl ⟨rows, _, hf, ho, hperm, hsorted⟩
  · refine .inr ⟨member, ⟨hp.mem_iff.mp (by simp [hs]), hb, fun other hm ho => ?_⟩, he⟩
    have hsorted := inByteOrder_sorted members
    rw [← hp.mem_iff, hs] at hm
    rw [hs] at hsorted
    rcases List.mem_append.mp hm with hm | hm
    · exact absurd ho (hg other hm)
    · rcases List.mem_cons.mp hm with rfl | hm
      · exact (Bool.or_self _).symm.trans (Text.byteLE_total _ _)
      · exact (List.pairwise_cons.mp (List.pairwise_append.mp hsorted).2.1).1 other hm

theorem KeyTable.readMap_ok {t : KeyTable} {members : List (Text × Datum)}
    (hn : (members.map Prod.fst).Nodup) {m : KeyMap}
    (h : KeyTable.readMap t (.object members) = .ok m) :
    ∃ rows, List.Forall₂ (KeyTable.Reads t) (inByteOrder members) rows ∧ m.Perm rows ∧
      m.Pairwise fun a b => a.1.index < b.1.index := by
  rcases readMap_cases (t := t) hn with ⟨rows, m', hf, ho, hperm, hsorted⟩ | ⟨member, -, he⟩
  · obtain rfl : m' = m := Except.ok.inj (ho.symm.trans h)
    exact ⟨rows, hf, hperm, hsorted⟩
  · simp [he] at h

theorem KeyTable.not_bad_iff {t : KeyTable} {member : Text × Datum} :
    ¬ KeyTable.Bad t member ↔ member.1 ∈ KeyTable.keys t ∧
      ∃ n, member.2 = .integer n ∧ -0x8000000000000000 ≤ n ∧ n < 0x8000000000000000 := by
  simp only [Bad, not_or, not_not, ← Datum.integer?_eq_some_iff, ← ne_eq,
    Option.ne_none_iff_exists']

theorem KeyTable.not_bad_of_readMap {t : KeyTable} {members : List (Text × Datum)}
    (hn : (members.map Prod.fst).Nodup) {m : KeyMap}
    (h : KeyTable.readMap t (.object members) = .ok m) {member : Text × Datum}
    (hm : member ∈ members) : ¬ KeyTable.Bad t member := by
  obtain ⟨rows, hf, -⟩ := readMap_ok hn h
  obtain ⟨row, -, hr⟩ := forall₂_mem_left hf ((inByteOrder_perm members).mem_iff.mpr hm)
  exact hr.not_bad

theorem KeyTable.exists_readMap_iff {t : KeyTable} {members : List (Text × Datum)}
    (hn : (members.map Prod.fst).Nodup) :
    (∃ m, KeyTable.readMap t (.object members) = .ok m) ↔
      ∀ member ∈ members, ¬ KeyTable.Bad t member := by
  constructor
  · rintro ⟨m, h⟩ member hm
    exact not_bad_of_readMap hn h hm
  · intro hall
    rcases readMap_cases (t := t) hn with ⟨rows, m, -, h, -⟩ | ⟨member, hb, -⟩
    · exact ⟨m, h⟩
    · exact absurd hb.bad (hall member hb.mem)

theorem KeyTable.readMap_eq_error_iff {t : KeyTable} {members : List (Text × Datum)}
    (hn : (members.map Prod.fst).Nodup) {e : LookupError} :
    KeyTable.readMap t (.object members) = .error e ↔
      ∃ member, KeyTable.FirstBad t members member ∧ e = KeyTable.errorOf t member := by
  rcases readMap_cases (t := t) hn with ⟨rows, m, -, h, -⟩ | ⟨member, hb, h⟩
  · refine ⟨fun he => by simp [h] at he, ?_⟩
    rintro ⟨member, hb, -⟩
    exact absurd hb.bad (not_bad_of_readMap hn h hb.mem)
  · refine ⟨fun he => ⟨member, hb, Except.error.inj (he.symm.trans h)⟩, ?_⟩
    rintro ⟨member', hb', rfl⟩
    rw [h, hb.unique hn hb']

theorem KeyTable.mem_readMap_iff {t : KeyTable} {members : List (Text × Datum)}
    (hn : (members.map Prod.fst).Nodup) {m : KeyMap}
    (h : KeyTable.readMap t (.object members) = .ok m) {v : Variant} {n : Int} :
    (v, n) ∈ m ↔ ∃ name, (name, .integer n) ∈ members ∧ KeyTable.fromKey t name = .ok v := by
  obtain ⟨rows, hf, hperm, -⟩ := readMap_ok hn h
  have hp := inByteOrder_perm members
  constructor
  · intro hm
    obtain ⟨⟨name, value⟩, hmem, hr⟩ := forall₂_mem_right hf (hperm.mem_iff.mp hm)
    obtain rfl : value = .integer n := (Datum.integer?_eq_some_iff.mp hr.2).1
    exact ⟨name, hp.mem_iff.mp hmem, hr.1⟩
  · rintro ⟨name, hmem, hk⟩
    obtain ⟨row, hrow, hr⟩ := forall₂_mem_left hf (hp.mem_iff.mpr hmem)
    obtain rfl : row.1 = v := Except.ok.inj (hr.1.symm.trans hk)
    obtain rfl : n = row.2 := Datum.integer.inj (Datum.integer?_eq_some_iff.mp hr.2).1
    exact hperm.mem_iff.mpr hrow

/-- A map that was read from an object is written as the object, up to the order of members. -/
theorem KeyTable.members_readMap {t : KeyTable} {members : List (Text × Datum)}
    (hn : (members.map Prod.fst).Nodup) {m : KeyMap}
    (h : KeyTable.readMap t (.object members) = .ok m) :
    ((KeyMap.members m).map fun (key, n) => (key, Datum.integer n)).Perm members := by
  obtain ⟨rows, hf, hperm, -⟩ := readMap_ok hn h
  rw [KeyMap.members, List.map_map]
  calc m.map (fun row => (row.1.serialized, Datum.integer row.2))
    List.Perm _ (rows.map fun row => (row.1.serialized, Datum.integer row.2)) := hperm.map _
    List.Perm _ (inByteOrder members) := .of_eq (Reads.members_eq hf)
    List.Perm _ members := inByteOrder_perm members

/-- An object is read as a map if and only if all its names are keys and all its values integers
within 64 bits. The map then has one row for each member, in the order of the table, and is written
back as the object. Otherwise the bad member that comes first in byte order decides the error. -/
theorem map_of_object {t : KeyTable} {members : List (Text × Datum)}
    (hn : (members.map Prod.fst).Nodup) :
    ((∃ m, KeyTable.readMap t (.object members) = .ok m) ↔
      ∀ member ∈ members, member.1 ∈ KeyTable.keys t ∧
        ∃ n, member.2 = .integer n ∧ -0x8000000000000000 ≤ n ∧ n < 0x8000000000000000) ∧
    (∀ m, KeyTable.readMap t (.object members) = .ok m →
      m.length = members.length ∧
      (∀ v n, (v, n) ∈ m ↔
        ∃ name, (name, .integer n) ∈ members ∧ KeyTable.fromKey t name = .ok v) ∧
      (m.Pairwise fun a b => a.1.index < b.1.index) ∧
      ((KeyMap.members m).map fun (key, n) => (key, Datum.integer n)).Perm members) ∧
    ∀ e, KeyTable.readMap t (.object members) = .error e ↔
      ∃ member, KeyTable.FirstBad t members member ∧ e = KeyTable.errorOf t member := by
  refine ⟨?_, fun m h => ?_, fun e => KeyTable.readMap_eq_error_iff hn⟩
  · rw [KeyTable.exists_readMap_iff hn]
    exact forall₂_congr fun _ _ => KeyTable.not_bad_iff
  · have hperm := KeyTable.members_readMap hn h
    obtain ⟨-, -, -, hsorted⟩ := KeyTable.readMap_ok hn h
    refine ⟨?_, fun v n => KeyTable.mem_readMap_iff hn h, hsorted, hperm⟩
    simpa [KeyMap.members] using hperm.length_eq

theorem map_of_object_row :
    let t : KeyTable := [⟨"id".toList, "k".toList⟩, ⟨"last".toList, "k".toList⟩,
      ⟨"userID".toList, "user-i-d".toList⟩]
    (∃ m, KeyTable.readMap t
        (.object [("user-i-d".toList, .integer 3), ("k".toList, .integer (-1))]) = .ok m ∧
      m.length = 2 ∧ (⟨0, ⟨"id".toList, "k".toList⟩⟩, -1) ∈ m) ∧
    KeyTable.readMap t (.object [("id".toList, .other), ("k".toList, .text "1".toList)]) =
      .error (.unknownKey "id".toList) := by
  intro t
  have hn : ([("user-i-d".toList, Datum.integer 3), ("k".toList, .integer (-1))].map
      Prod.fst).Nodup := by decide
  have hn' : ([("id".toList, Datum.other), ("k".toList, .text "1".toList)].map Prod.fst).Nodup := by
    decide
  obtain ⟨hok, hm, -⟩ := map_of_object (t := t) hn
  obtain ⟨-, -, he⟩ := map_of_object (t := t) hn'
  obtain ⟨m, h⟩ := hok.mpr (by
    simp only [List.forall_mem_cons, List.not_mem_nil, false_implies, implies_true, and_true]
    exact ⟨⟨by decide, 3, rfl, by decide⟩, by decide, -1, rfl, by decide⟩)
  obtain ⟨hl, hmem, -⟩ := hm m h
  refine ⟨⟨m, h, hl, (hmem _ _).mpr ⟨"k".toList, by simp, by decide⟩⟩, ?_⟩
  refine (he _).mpr ⟨("id".toList, .other), ⟨by simp, .inr rfl, fun other hm _ => ?_⟩, by decide⟩
  rcases List.mem_cons.mp hm with rfl | hm
  · decide
  · obtain rfl := List.mem_singleton.mp hm
    decide

end FieldKeys
