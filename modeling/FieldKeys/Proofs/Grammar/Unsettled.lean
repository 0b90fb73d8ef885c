import FieldKeys.Proofs.Grammar.Stub

/-! The tokens that a look does not settle: if those are all that is there, the answer depends on what
follows them. They are a token or two of which something is known. -/

namespace FieldKeys

/-- More known of the token after so many. -/
def Stub.know : Nat → Cell → Stub → Stub
  | _, _, [] => []
  | 0, c, cells :: w => (if c ∈ cells then cells else c :: cells) :: w
  | n + 1, c, cells :: w => cells :: Stub.know n c w

def Stub.knowOperator : Nat → Text → Stub → Stub
  | _, [], w => w
  | n, c :: s, w => Stub.knowOperator (n + 1) s (w.know n (.char c))

/-- What is known besides of tokens for which a look holds. -/
def Look.know : Look → Stub → Stub
  | .ahead skip (.sign s), w => w.knowOperator skip s
  | .ahead _ .finish, w => w
  | .ahead skip test, w => w.know skip (.test test)
  | .both a b, w => b.know (a.know w)
  | .no _, w | .either _ _, w => w

def Stub.blank (n : Nat) : Stub := List.replicate n []

/-- The tokens in front of which it is open whether a test holds. -/
def Test.fronts : Test → List Stub
  | .sign s => (List.range s.length).map fun k => (s.take k).map fun c => [.char c]
  | _ => [[]]

mutual

/-- The tokens for which a look fails, though with others behind them it may hold. -/
def Look.gains : Look → List Stub
  | .ahead _ .finish => []
  | .ahead skip test =>
    (List.range skip).map Stub.blank ++ test.fronts.map (Stub.blank skip ++ ·)
  | .no look => look.loses
  | .both a b => a.gains.map b.know ++ b.gains.map a.know
  | .either a b => a.gains ++ b.gains

/-- The tokens for which a look holds, though with others behind them it may fail. -/
def Look.loses : Look → List Stub
  | .ahead skip .finish => (List.range (skip + 1)).map Stub.blank
  | .ahead _ _ => []
  | .no look => look.gains
  | .both a b => a.loses.map b.know ++ b.loses.map a.know
  | .either a b => a.loses ++ b.loses

end

theorem Stub.Fits.blank (ts : List Token) : Stub.Fits (Stub.blank ts.length) ts := by
  induction ts with
  | nil => exact .nil
  | cons t ts ih => exact .cons (by simp) ih

theorem Stub.Fits.know {w : Stub} {ts : List Token} {n : Nat} {c : Cell} (hw : w.Fits ts)
    (hc : ∀ t, ts[n]? = some t → c.Fits t.lexeme) : (w.know n c).Fits ts := by
  induction hw generalizing n with
  | nil => cases n <;> exact .nil
  | @cons cells t w ts hcells hw ih =>
    cases n with
    | zero =>
      refine .cons (fun x hx => ?_) hw
      split at hx
      · exact hcells x hx
      · rcases List.mem_cons.mp hx with rfl | hx
        · exact hc t rfl
        · exact hcells x hx
    | succ n => exact .cons hcells (ih fun u hu => hc u hu)

theorem signAhead_getElem? {s : Text} {ts : List Token} (h : signAhead s ts = true) {k : Nat}
    {c : Char} (hc : s[k]? = some c) : ∃ t joint, ts[k]? = some t ∧ t.lexeme = .sign c joint := by
  induction s generalizing ts k with
  | nil => simp at hc
  | cons d s ih =>
    cases ts with
    | nil => simp [signAhead] at h
    | cons t ts =>
      obtain ⟨⟨joint, ht⟩, hs⟩ := signAhead_cons h
      cases k with
      | zero =>
        obtain rfl : d = c := Option.some.inj hc
        exact ⟨t, joint, rfl, ht⟩
      | succ k => exact ih hs hc

theorem Stub.Fits.knowOperator {w : Stub} {ts : List Token} {n : Nat} {s : Text} (hw : w.Fits ts)
    (hs : ∀ k c t, s[k]? = some c → ts[n + k]? = some t → ∃ joint, t.lexeme = .sign c joint) :
    (w.knowOperator n s).Fits ts := by
  induction s generalizing w n with
  | nil => exact hw
  | cons c s ih =>
    refine ih (hw.know fun t ht => hs 0 c t rfl ht) fun k d t hd ht => hs (k + 1) d t hd ?_
    rwa [show n + (k + 1) = n + 1 + k by omega]

/-- What holds with more behind the tokens, tells of the tokens themselves. -/
theorem Look.know_fits {look : Look} {w : Stub} {ts tail : List Token} (hw : w.Fits ts)
    (h : look.holds (ts ++ tail) = true) : (look.know w).Fits ts := by
  induction look generalizing w with
  | ahead skip test =>
    have hfar : ∀ k t, ts[skip + k]? = some t → ((ts ++ tail).drop skip)[k]? = some t := by
      intro k t ht
      have hlt := (List.getElem?_eq_some_iff.mp ht).1
      rw [List.getElem?_drop, List.getElem?_append_left hlt, ht]
    cases test with
    | sign s =>
      refine hw.knowOperator fun k c t hc ht => ?_
      obtain ⟨u, joint, hu, hl⟩ := signAhead_getElem? h hc
      obtain rfl := Option.some.inj (hu.symm.trans (hfar k t ht))
      exact ⟨joint, hl⟩
    | finish => exact hw
    | _ =>
      refine hw.know fun t ht => ?_
      have hhead := hfar 0 t ht
      simp only [holds] at h
      revert h hhead
      cases (ts ++ tail).drop skip with
      | nil => simp
      | cons u us =>
        intro h hhead
        obtain rfl : u = t := by simpa using hhead
        exact h
  | no look | either a b => exact hw
  | both a b iha ihb =>
    obtain ⟨ha, hb⟩ := Bool.and_eq_true_iff.mp h
    exact ihb (iha hw ha) hb

theorem Stub.exists_blank {ts : List Token} {n : Nat} (h : ts.length < n) :
    ∃ w ∈ (List.range n).map Stub.blank, w.Fits ts :=
  ⟨_, List.mem_map_of_mem (List.mem_range.mpr h), .blank ts⟩

/-- An operator that is ahead only with what follows is there in part. -/
theorem exists_front_of_sign {s : Text} {ts tail : List Token} (h : signAhead s (ts ++ tail) = true)
    (hn : signAhead s ts = false) : ∃ w ∈ (Test.sign s).fronts, w.Fits ts := by
  have hlt : ts.length < s.length := by
    by_contra hc
    rw [signAhead_append tail (by omega), hn] at h
    simp at h
  refine ⟨_, List.mem_map_of_mem (List.mem_range.mpr hlt), ?_⟩
  clear hn
  induction ts generalizing s with
  | nil => exact .nil
  | cons t ts ih =>
    cases s with
    | nil => simp at hlt
    | cons c s =>
      obtain ⟨hc, hs⟩ := signAhead_cons h
      exact .cons (by simpa [Cell.Fits] using hc) (ih hs (by simpa using hlt))

theorem Test.exists_front {test : Test} {ts tail : List Token} (hf : test ≠ .finish)
    (h : test.holds (ts ++ tail) = true) (hn : test.holds ts = false) :
    ∃ w ∈ test.fronts, w.Fits ts := by
  cases test with
  | sign s => exact exists_front_of_sign h hn
  | finish => exact absurd rfl hf
  | _ =>
    cases ts with
    | nil => exact ⟨[], by simp [fronts], .nil⟩
    | cons t ts =>
      rw [← Bool.not_eq_true] at hn
      exact absurd h hn

/-- Only the end of a group is seen without a token. -/
theorem Test.holds_append_of_holds {test : Test} {ts : List Token} (hf : test ≠ .finish)
    (h : test.holds ts = true) (tail : List Token) : test.holds (ts ++ tail) = true := by
  cases test with
  | sign s =>
    have hle := (signAhead_depth h 0).1
    exact (signAhead_append tail hle).trans h
  | finish => exact absurd rfl hf
  | _ =>
    cases ts with
    | nil => simp [holds] at h
    | cons t ts => exact h

theorem Look.exists_of_ahead {skip : Nat} {test : Test} {ts tail : List Token} (hf : test ≠ .finish)
    (h : test.holds ((ts ++ tail).drop skip) = true) (hn : test.holds (ts.drop skip) = false) :
    ∃ w ∈ (Look.ahead skip test).gains, w.Fits ts := by
  have hg : (Look.ahead skip test).gains =
      (List.range skip).map Stub.blank ++ test.fronts.map (Stub.blank skip ++ ·) := by
    cases test <;> first | exact absurd rfl hf | rfl
  rw [hg]
  by_cases hlt : ts.length < skip
  · obtain ⟨w, hw, hfit⟩ := Stub.exists_blank hlt
    exact ⟨w, List.mem_append_left _ hw, hfit⟩
  · rw [List.drop_append_of_le_length (by omega)] at h
    obtain ⟨w, hw, hfit⟩ := test.exists_front hf h hn
    refine ⟨_, List.mem_append_right _ (List.mem_map_of_mem hw), ?_⟩
    have htake : Stub.Fits (Stub.blank skip) (ts.take skip) := by
      have hb := Stub.Fits.blank (ts.take skip)
      rwa [List.length_take, Nat.min_eq_left (by omega)] at hb
    have happ := htake.append hfit
    rwa [List.take_append_drop] at happ

theorem Test.finish_append {ts : List Token} (tail : List Token) (h : ts ≠ []) :
    Test.finish.holds (ts ++ tail) = Test.finish.holds ts := by
  cases ts with
  | nil => exact absurd rfl h
  | cons t ts => rfl

/-- A look whose answer depends on what follows has one of its stubs before it. -/
theorem Look.exists_stub {look : Look} {ts tail : List Token} :
    (look.holds (ts ++ tail) = true → look.holds ts = false → ∃ w ∈ look.gains, w.Fits ts) ∧
    (look.holds (ts ++ tail) = false → look.holds ts = true → ∃ w ∈ look.loses, w.Fits ts) := by
  induction look with
  | ahead skip test =>
    by_cases hf : test = .finish
    · subst hf
      by_cases hle : ts.length ≤ skip
      · have hd : ts.drop skip = [] := List.drop_eq_nil_of_le hle
        refine ⟨fun _ hn => ?_, fun _ _ => Stub.exists_blank (Nat.lt_succ_of_le hle)⟩
        simp [holds, hd, Test.holds] at hn
      · have hne : ts.drop skip ≠ [] := by simpa using hle
        have hh := Test.finish_append tail hne
        simp only [holds, List.drop_append_of_le_length (Nat.le_of_not_le hle), hh]
        exact ⟨fun h hn => absurd (h.symm.trans hn) (by simp),
          fun h hn => absurd (h.symm.trans hn) (by simp)⟩
    · refine ⟨Look.exists_of_ahead hf, fun h hn => ?_⟩
      have hh := Test.holds_append_of_holds hf hn (tail.drop (skip - ts.length))
      rw [holds, List.drop_append, hh] at h
      simp at h
  | no look ih =>
    simp only [holds, Bool.not_eq_true', Bool.not_eq_false', gains, loses]
    exact ⟨ih.2, ih.1⟩
  | both a b iha ihb =>
    constructor
    · intro h hn
      obtain ⟨ha, hb⟩ := Bool.and_eq_true_iff.mp h
      rcases Bool.and_eq_false_iff.mp hn with hn | hn
      · obtain ⟨w, hw, hf⟩ := iha.1 ha hn
        exact ⟨b.know w, List.mem_append_left _ (List.mem_map_of_mem hw), know_fits hf hb⟩
      · obtain ⟨w, hw, hf⟩ := ihb.1 hb hn
        exact ⟨a.know w, List.mem_append_right _ (List.mem_map_of_mem hw), know_fits hf ha⟩
    · intro h hn
      obtain ⟨ha, hb⟩ := Bool.and_eq_true_iff.mp hn
      rcases Bool.and_eq_false_iff.mp h with h | h
      · obtain ⟨w, hw, hf⟩ := iha.2 h ha
        rw [← List.append_nil ts] at hb
        exact ⟨b.know w, List.mem_append_left _ (List.mem_map_of_mem hw), know_fits hf hb⟩
      · obtain ⟨w, hw, hf⟩ := ihb.2 h hb
        rw [← List.append_nil ts] at ha
        exact ⟨a.know w, List.mem_append_right _ (List.mem_map_of_mem hw), know_fits hf ha⟩
  | either a b iha ihb =>
    constructor
    · intro h hn
      obtain ⟨hna, hnb⟩ := Bool.or_eq_false_iff.mp hn
      rcases Bool.or_eq_true_iff.mp h with h | h
      · obtain ⟨w, hw, hf⟩ := iha.1 h hna
        exact ⟨w, List.mem_append_left _ hw, hf⟩
      · obtain ⟨w, hw, hf⟩ := ihb.1 h hnb
        exact ⟨w, List.mem_append_right _ hw, hf⟩
    · intro h hn
      obtain ⟨hfa, hfb⟩ := Bool.or_eq_false_iff.mp h
      rcases Bool.or_eq_true_iff.mp hn with hn | hn
      · obtain ⟨w, hw, hf⟩ := iha.2 hfa hn
        exact ⟨w, List.mem_append_left _ hw, hf⟩
      · obtain ⟨w, hw, hf⟩ := ihb.2 hfb hn
        exact ⟨w, List.mem_append_right _ hw, hf⟩

end FieldKeys
