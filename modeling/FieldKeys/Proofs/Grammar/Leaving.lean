import FieldKeys.Proofs.Grammar.Reading
import FieldKeys.Source.Expression

/-! What can be read with its groups as a whole is read the same where something may be left over in
them. A probe that fails decides too, so nothing that is probed may enter a group. -/

namespace FieldKeys

variable {whole : Bool}

/-- Phrases that enter no group. -/
def Phrase.groupless : Phrase → Bool
  | .plainPath | .plainPathWords => true
  | _ => false

/-- Whether a rule enters no group; it may read one as it stands. -/
def Rule.groupless {P : Type} (calls : P → Bool) : Rule P → Bool
  | .close _ => false
  | .call p => calls p
  | .seq a b | .choose _ a b | .onShape _ a b => a.groupless calls && b.groupless calls
  | .probe c a b => c.groupless calls && (a.groupless calls && b.groupless calls)
  | .braced r | .rewrite _ r => r.groupless calls
  | _ => true

/-- Whether what a rule probes enters no group. -/
def Rule.probesGroupless {P : Type} (calls : P → Bool) : Rule P → Bool
  | .seq a b | .choose _ a b | .onShape _ a b => a.probesGroupless calls && b.probesGroupless calls
  | .probe c a b => c.groupless calls && (a.probesGroupless calls && b.probesGroupless calls)
  | .braced r | .rewrite _ r => r.probesGroupless calls
  | _ => true

theorem grammar_groupless (p : Phrase) :
    (!p.groupless || (grammar p).groupless Phrase.groupless) = true :=
  Phrase.of_all (f := fun p => !p.groupless || (grammar p).groupless Phrase.groupless)
    (by decide +kernel) p

theorem grammar_probesGroupless (p : Phrase) :
    (grammar p).probesGroupless Phrase.groupless = true :=
  Phrase.of_all (f := fun p => (grammar p).probesGroupless Phrase.groupless) (by decide +kernel) p

theorem Rule.run_groupless {P : Type} {f g : P → Reader} {calls : P → Bool}
    (hc : ∀ p, calls p = true → f p = g p) (rule : Rule P) (h : rule.groupless calls = true)
    (shape : Shape) (ts : List Token) : rule.run true f shape ts = rule.run false g shape ts := by
  induction rule generalizing shape ts with
  | close d => simp [groupless] at h
  | call p => exact congrFun (congrFun (hc p h) shape) ts
  | seq a b iha ihb =>
    obtain ⟨ha, hb⟩ := Bool.and_eq_true_iff.mp h
    simp only [run, iha ha, ihb hb]
  | choose look yes no ihy ihn | onShape shapes yes no ihy ihn =>
    obtain ⟨hy, hn⟩ := Bool.and_eq_true_iff.mp h
    simp only [run, ihy hy, ihn hn]
  | probe ahead yes no iha ihy ihn =>
    obtain ⟨ha, h⟩ := Bool.and_eq_true_iff.mp h
    obtain ⟨hy, hn⟩ := Bool.and_eq_true_iff.mp h
    simp only [run, iha ha, ihy hy, ihn hn]
  | braced rule ih | rewrite writing rule ih => simp only [run, ih h]
  | _ => rfl

theorem readClose_of_whole {d : Delimiter} {shape : Shape} {ts : List Token} {r : Reading}
    (h : readClose true d shape ts = some r) : readClose false d shape ts = some r := by
  obtain ⟨extra, t, rest, hcut, ht, -, rfl⟩ := readClose_eq_some h
  simp [readClose, hcut, ht]

theorem Rule.run_of_whole {P : Type} {f g : P → Reader} {calls : P → Bool}
    (hc : ∀ p, calls p = true → f p = g p)
    (hr : ∀ p shape ts r, f p shape ts = some r → g p shape ts = some r) (rule : Rule P)
    (hp : rule.probesGroupless calls = true) {shape : Shape} {ts : List Token} {r : Reading}
    (h : rule.run true f shape ts = some r) : rule.run false g shape ts = some r := by
  induction rule generalizing shape ts r with
  | close d => exact readClose_of_whole h
  | call p => exact hr p shape ts r h
  | seq a b iha ihb =>
    obtain ⟨hpa, hpb⟩ := Bool.and_eq_true_iff.mp hp
    obtain ⟨first, second, ha, hb, rfl⟩ := run_seq h
    simp only [run, iha hpa ha, ihb hpb hb]
  | choose look yes no ihy ihn | onShape shapes yes no ihy ihn =>
    obtain ⟨hpy, hpn⟩ := Bool.and_eq_true_iff.mp hp
    exact ite_eq_of_imp h (ihy hpy) (ihn hpn)
  | probe ahead yes no _ ihy ihn =>
    obtain ⟨hpa, hp⟩ := Bool.and_eq_true_iff.mp hp
    obtain ⟨hpy, hpn⟩ := Bool.and_eq_true_iff.mp hp
    simp only [run, ahead.run_groupless hc hpa] at h ⊢
    exact ite_eq_of_imp h (ihy hpy) (ihn hpn)
  | braced rule ih | rewrite writing rule ih =>
    obtain ⟨x, hx, rfl⟩ := Option.map_eq_some_iff.mp h
    simp only [run, ih hp hx, Option.map_some]
  | _ => exact h

theorem readPhrase_groupless (depth : Nat) : ∀ p : Phrase, p.groupless = true →
    readPhrase true grammar depth p = readPhrase false grammar depth p := by
  induction depth with
  | zero => exact fun p _ => rfl
  | succ depth ih =>
    intro p hp
    have hg : (grammar p).groupless Phrase.groupless = true := by
      simpa [hp] using grammar_groupless p
    exact funext fun shape => funext fun ts => (grammar p).run_groupless ih hg shape ts

theorem readPhrase_of_whole (depth : Nat) : ∀ p shape ts r,
    readPhrase true grammar depth p shape ts = some r →
    readPhrase false grammar depth p shape ts = some r := by
  induction depth with
  | zero => intro p shape ts r h; simp [readPhrase] at h
  | succ depth ih =>
    intro p shape ts r h
    exact (grammar p).run_of_whole (readPhrase_groupless depth) ih (grammar_probesGroupless p) h

theorem Expression.inFront?_of_whole {ts : List Token} {x : Expression × List Token}
    (h : Expression.read? ts = some x) : Expression.inFront? whole ts = some x := by
  cases whole with
  | true => exact h
  | false =>
    obtain ⟨r, hr, rfl⟩ := Option.map_eq_some_iff.mp h
    exact Option.map_eq_some_iff.mpr ⟨r, readPhrase_of_whole _ _ _ _ _ hr, rfl⟩

end FieldKeys
