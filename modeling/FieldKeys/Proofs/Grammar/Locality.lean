import FieldKeys.Proofs.Grammar.Brackets
import FieldKeys.Proofs.Grammar.Depth
import FieldKeys.Proofs.Grammar.Ending

/-! An argument is read the same whatever stands behind it. As with brackets,
whether the rules allow this is read off them without running them. -/

namespace FieldKeys

variable {whole : Bool}

/-- What is left of tokens after some that lead from `n` open brackets to `m`. -/
def Leaves (ts : List Token) (n m : Nat) (rest : List Token) : Prop :=
  ∃ used, ts = used ++ rest ∧ depthAfter? n (used.map (·.lexeme)) = some m

theorem Leaves.refl (ts : List Token) (n : Nat) : Leaves ts n n ts :=
  ⟨[], rfl, rfl⟩

theorem Leaves.trans {ts mid rest : List Token} {n k m : Nat} (h : Leaves ts n k mid)
    (h' : Leaves mid k m rest) : Leaves ts n m rest := by
  obtain ⟨used, rfl, hu⟩ := h
  obtain ⟨used', rfl, hu'⟩ := h'
  exact ⟨used ++ used', by simp, by simp [depthAfter?_append, hu, hu']⟩

theorem Leaves.lift {ts rest : List Token} (h : Leaves ts 0 0 rest) (n : Nat) :
    Leaves ts n n rest := by
  obtain ⟨used, rfl, hu⟩ := h
  exact ⟨used, rfl, by simpa using depthAfter?_add n hu⟩

theorem Leaves.suffix {ts rest : List Token} {n m : Nat} (h : Leaves ts n m rest) :
    rest <:+ ts := by
  obtain ⟨used, rfl, -⟩ := h
  exact List.suffix_append _ _

theorem Leaves.of_append {ts rest tail : List Token} {n m : Nat}
    (h : Leaves (ts ++ tail) n m (rest ++ tail)) : Leaves ts n m rest := by
  obtain ⟨used, hts, hu⟩ := h
  rw [← List.append_assoc] at hts
  exact ⟨used, List.append_cancel_right hts, hu⟩

theorem Leaves.holds {e : Ending} {ts rest : List Token} {n m : Nat} (h : Leaves ts n m rest)
    (he : e.Holds m rest) : e.Holds n ts := by
  obtain ⟨used, rfl, hu⟩ := h
  exact he.append hu

/-- What closes a bracket is not used up by reading that closes all it opens. -/
theorem Leaves.closed {ts tail rest : List Token} (h : Leaves (ts ++ tail) 0 0 rest)
    (hc : Ending.closed.Holds 0 ts) :
    ∃ left, rest = left ++ tail ∧ Ending.closed.Holds 0 left := by
  obtain ⟨used, hts, hu⟩ := h
  rcases List.append_eq_append_iff.mp hts with ⟨more, rfl, rfl⟩ | ⟨left, rfl, rfl⟩
  · have hn : depthAfter? 0 (ts.map (·.lexeme)) = none := hc
    simp [depthAfter?_append, hn] at hu
  · refine ⟨left, rfl, ?_⟩
    have hn : depthAfter? 0 ((used ++ left).map (·.lexeme)) = none := hc
    rw [List.map_append, depthAfter?_append, hu] at hn
    exact hn

/-- A reader that looks at no more than what it takes. -/
def ReadsLocally (read : Reader) : Prop :=
  ∀ shape ts r, read shape ts = some r →
    ∃ used, ts = used ++ r.rest ∧ ∀ tail, read shape (used ++ tail) = some { r with rest := tail }

theorem ReadsLocally.tail {read : Reader} (hr : ReadsLocally read) {shape : Shape}
    {ts left tail : List Token} {r : Reading} (h : read shape (ts ++ tail) = some r)
    (hl : r.rest = left ++ tail) (tail' : List Token) :
    read shape (ts ++ tail') = some { r with rest := left ++ tail' } := by
  obtain ⟨used, hts, hu⟩ := hr shape _ r h
  rw [hl, ← List.append_assoc] at hts
  rw [List.append_cancel_right hts, List.append_assoc]
  exact hu _

theorem signAhead_append {s : Text} {ts : List Token} (tail : List Token)
    (h : s.length ≤ ts.length) : signAhead s (ts ++ tail) = signAhead s ts := by
  fun_induction signAhead s ts with
  | case1 => rfl
  | case2 => simp at h
  | _ => simp_all [signAhead]

theorem joined_append {s : Text} {ts : List Token} (tail : List Token)
    (h : s.length ≤ ts.length) : joined s (ts ++ tail) = joined s ts := by
  fun_induction joined s ts with
  | case1 | case3 => rfl
  | _ => simp_all [joined]

theorem Test.read_locally (test : Test) : ReadsLocally test.read := by
  intro shape ts r h
  rcases Test.read_eq_some h with ⟨s, rfl, ht, rfl⟩ | ⟨t, rest, rfl, ht, rfl⟩
  · have hle := (signAhead_depth ht 0).1
    have hlen : s.length ≤ (ts.take s.length).length := by simp [hle]
    refine ⟨ts.take s.length, (List.take_append_drop _ _).symm, fun tail => ?_⟩
    have hs : signAhead s (ts.take s.length ++ tail) = true := by
      rw [signAhead_append tail hlen,
        ← signAhead_append (ts.drop s.length) hlen, List.take_append_drop]
      exact ht
    have hj : joined s (ts.take s.length ++ tail) = joined s ts := by
      rw [joined_append tail hlen,
        ← joined_append (ts.drop s.length) hlen, List.take_append_drop]
    have hd : (ts.take s.length ++ tail).drop s.length = tail :=
      List.drop_left' (by simp [hle])
    simp [Test.read, holds, hs, hj, hd]
  · refine ⟨[t], rfl, fun tail => ?_⟩
    cases test with
    | sign s => simp [fits] at ht
    | _ => simp [Test.read, holds, ht]

theorem Test.read_leaves {test : Test} {shape : Shape} {ts : List Token} {r : Reading}
    (h : test.read shape ts = some r) (hf : test ≠ .finish) (n : Nat) :
    Leaves ts n (n + test.opens) r.rest := by
  rcases Test.read_eq_some h with ⟨s, rfl, ht, rfl⟩ | ⟨t, rest, rfl, ht, rfl⟩
  · exact ⟨ts.take s.length, (List.take_append_drop _ _).symm, (signAhead_depth ht n).2⟩
  · exact ⟨[t], rfl, Test.fits_depth ht hf n⟩

theorem cutGroup_locally {depth : Nat} {ts a b : List Token} (h : cutGroup depth ts = some (a, b))
    (tail : List Token) : cutGroup depth (a ++ tail) = some (a, tail) := by
  fun_induction cutGroup depth ts generalizing a b with
  | case1 => simp at h
  | case2 depth t ts d hd ih =>
    obtain ⟨x, hx, hp⟩ := Option.map_eq_some_iff.mp h
    obtain ⟨rfl, rfl⟩ := Prod.mk.inj hp
    simp [cutGroup, hd, ih hx]
  | case3 depth t ts d hd hle =>
    obtain ⟨rfl, rfl⟩ := Prod.mk.inj (Option.some.inj h)
    simp [cutGroup, hd, hle]
  | case4 depth t ts d hd hle ih =>
    obtain ⟨x, hx, hp⟩ := Option.map_eq_some_iff.mp h
    obtain ⟨rfl, rfl⟩ := Prod.mk.inj hp
    simp [cutGroup, hd, hle, ih hx]
  | case5 depth t ts hn1 hn2 ih =>
    obtain ⟨x, hx, hp⟩ := Option.map_eq_some_iff.mp h
    obtain ⟨rfl, rfl⟩ := Prod.mk.inj hp
    simp [cutGroup, ih hx]

theorem readClose_locally (d : Delimiter) : ReadsLocally (readClose whole d) := by
  intro shape ts r h
  obtain ⟨extra, t, rest, hcut, ht, hextra, rfl⟩ := readClose_eq_some h
  refine ⟨extra ++ [t], cutGroup_append hcut, fun tail => ?_⟩
  have hall : whole = true → extra ++ [t] = [t] := fun hw => by rw [hextra hw, List.nil_append]
  simp only [readClose, cutGroup_locally hcut tail, Option.bind_some, List.getLast?_concat]
  rw [if_pos ⟨ht, hall⟩]

theorem readClose_leaves {d : Delimiter} {shape : Shape} {ts : List Token} {r : Reading}
    (h : readClose whole d shape ts = some r) (n : Nat) : Leaves ts (n + 1) n r.rest := by
  obtain ⟨extra, t, rest, hcut, ht, -, rfl⟩ := readClose_eq_some h
  obtain ⟨inside, c, hlexemes, hd⟩ := cutGroup_inside hcut
  refine ⟨extra ++ [t], cutGroup_append hcut, ?_⟩
  have hd := depthAfter?_add (n + 1) hd
  rw [Nat.zero_add] at hd
  rw [hlexemes, depthAfter?_append, hd]
  rfl

theorem readRaw_locally : ReadsLocally readRaw := by
  intro shape ts r h
  obtain ⟨t, d, inside, a, b, rfl, hd, hx, rfl⟩ := readRaw_eq_some h
  refine ⟨t :: a, by simp [cutGroup_append hx], fun tail => ?_⟩
  simp [readRaw, hd, cutGroup_locally hx tail]

theorem readRaw_leaves {shape : Shape} {ts : List Token} {r : Reading}
    (h : readRaw shape ts = some r) (n : Nat) : Leaves ts n n r.rest := by
  have hn := (@readRaw_neat false shape ts r n h).depth
  obtain ⟨t, d, inside, a, b, rfl, -, hx, rfl⟩ := readRaw_eq_some h
  exact ⟨t :: a, by simp [cutGroup_append hx], hn⟩

/-- How many brackets are open after a rule has been read, of which `n` are open before: `none` if
what follows an argument may matter to the rule, `some none` if the rule never succeeds. What is
left of the argument after it is known to end as `e` says. -/
def Rule.depthAtEnd? {P : Type} (ending : P → Ending) (idle : P → Bool) :
    Rule P → Ending → Nat → Option (Option Nat)
  | .done, _, n | .mark _, _, n | .raw, _, n => some (some n)
  | .fail, _, _ => some none
  | .take .finish, _, _ | .close _, _, 0 => none
  | .take test, _, n => some (some (n + test.opens))
  | .close _, _, n + 1 => some (some n)
  | .call p, e, n => if (ending p).level ≤ (e.inside n).level then some (some n) else none
  | .seq a b, e, n =>
    match a.depthAtEnd? ending idle (if e = .free ∧ b.reads idle then .filled else e) n with
    | some (some m) => b.depthAtEnd? ending idle e m
    | other => other
  | .choose look a b, e, n =>
    if look.settled (e.inside n) then
      agree (a.depthAtEnd? ending idle e n) (b.depthAtEnd? ending idle e n)
    else none
  | .probe ahead a b, e, n =>
    if e.inside n = .closed ∧ ahead.depthAtEnd? ending idle .closed 0 = some (some 0) then
      agree (a.depthAtEnd? ending idle e n) (b.depthAtEnd? ending idle e n)
    else none
  | .onShape _ a b, e, n => agree (a.depthAtEnd? ending idle e n) (b.depthAtEnd? ending idle e n)
  | .braced r, e, n | .rewrite _ r, e, n => r.depthAtEnd? ending idle e n

/-- What must be known after a phrase so that what follows the argument does not matter to it. Lists
with commas need to be in brackets, or to be followed by what ends them. -/
def Phrase.ending : Phrase → Ending
  | .angleItems | .angleItem | .types | .functionInputs _ | .parameterBounds | .whereItems | .patterns
  | .patternFields | .expressions | .structureItems | .arms => .filled
  | .attributeValue | .statements | .statement | .visibility | .namedFieldItems | .tupleField
  | .tupleFields | .variants | .generics | .parameters | .parameter | .whereClause | .itemBounds
  | .signature _ | .inputs _ | .items | .item | .definition _ | .useTree _ | .useTrees _
  | .members _ | .member _ _ => .closed
  | _ => .free

/-- More may be known after a phrase than must be. -/
theorem grammar_depthAtEnd? (p : Phrase) {e : Ending} (he : p.ending.level ≤ e.level) :
    (grammar p).depthAtEnd? Phrase.ending Phrase.idle e 0 = some (some 0) := by
  have h := Phrase.of_all (f := fun p => [Ending.free, .filled, .closed].all fun e =>
    !decide (p.ending.level ≤ e.level) ||
      (grammar p).depthAtEnd? Phrase.ending Phrase.idle e 0 == some (some 0)) (by decide +kernel) p
  have hm : e ∈ [Ending.free, .filled, .closed] := by cases e <;> simp
  simpa [he] using List.all_eq_true.mp h e hm

theorem Rule.run_leaves {P : Type} {readers : P → Reader} {ending : P → Ending} {idle : P → Bool}
    (hr : ∀ p shape ts r, readers p shape ts = some r → Leaves ts 0 0 r.rest)
    (rule : Rule P) {e : Ending} {n : Nat} {d : Option Nat} {shape : Shape} {ts : List Token}
    {r : Reading} (h : rule.run whole readers shape ts = some r)
    (hd : rule.depthAtEnd? ending idle e n = some d) :
    ∃ m, d = some m ∧ Leaves ts n m r.rest := by
  induction rule generalizing shape ts r e n d with
  | done | mark new =>
    obtain rfl := Option.some.inj h
    exact ⟨n, (Option.some.inj hd).symm, .refl ts n⟩
  | fail => simp [run] at h
  | take test =>
    cases test with
    | finish => simp [depthAtEnd?] at hd
    | _ => exact ⟨_, (Option.some.inj hd).symm, Test.read_leaves h (by simp) n⟩
  | close c =>
    cases n with
    | zero => simp [depthAtEnd?] at hd
    | succ n => exact ⟨n, (Option.some.inj hd).symm, readClose_leaves h n⟩
  | raw => exact ⟨n, (Option.some.inj hd).symm, readRaw_leaves h n⟩
  | call p =>
    simp only [depthAtEnd?] at hd
    split at hd
    · exact ⟨n, (Option.some.inj hd).symm, (hr p shape ts r h).lift n⟩
    · simp at hd
  | seq a b iha ihb =>
    obtain ⟨first, second, ha, hb, rfl⟩ := run_seq h
    simp only [depthAtEnd?] at hd
    split at hd
    · next m hm =>
      obtain ⟨m', he, hla⟩ := iha ha hm
      obtain rfl := Option.some.inj he
      obtain ⟨k, rfl, hlb⟩ := ihb hb hd
      exact ⟨k, rfl, hla.trans hlb⟩
    · next other hn =>
      obtain ⟨m, rfl, -⟩ := iha ha hd
      exact absurd hd (hn m)
  | choose look yes no ihy ihn | probe ahead yes no _ ihy ihn =>
    simp only [depthAtEnd?] at hd
    split at hd
    · obtain ⟨x, y, hx, hy, hdx, hdy⟩ := agree_eq_some hd
      simp only [run] at h
      split at h
      · obtain ⟨m, hm, hl⟩ := ihy h hx
        exact ⟨m, hdx m hm, hl⟩
      · obtain ⟨m, hm, hl⟩ := ihn h hy
        exact ⟨m, hdy m hm, hl⟩
    · simp at hd
  | onShape shapes yes no ihy ihn =>
    obtain ⟨x, y, hx, hy, hdx, hdy⟩ := agree_eq_some hd
    simp only [run] at h
    split at h
    · obtain ⟨m, hm, hl⟩ := ihy h hx
      exact ⟨m, hdx m hm, hl⟩
    · obtain ⟨m, hm, hl⟩ := ihn h hy
      exact ⟨m, hdy m hm, hl⟩
  | braced rule ih | rewrite writing rule ih =>
    obtain ⟨x, hx, rfl⟩ := Option.map_eq_some_iff.mp h
    have hh := ih hx hd
    exact hh

/-- A rule that is read up to what is left of an argument, is so before any other end of it. Where
what is left closes a bracket, anything may stand behind it. -/
def Rule.PassesEnds (whole : Bool) (readers : Phrase → Reader) (rule : PhraseRule) : Prop :=
  ∀ ⦃e : Ending⦄ ⦃n : Nat⦄ ⦃d : Option Nat⦄ ⦃shape : Shape⦄ ⦃ts left tail tail' : List Token⦄
    ⦃r : Reading⦄, rule.run whole readers shape (ts ++ tail) = some r →
    rule.depthAtEnd? Phrase.ending Phrase.idle e n = some d → r.rest = left ++ tail →
    (∀ m, d = some m → e.Holds m left) → (e = .closed ∨ Ends tail) → (e = .closed ∨ Ends tail') →
    rule.run whole readers shape (ts ++ tail') = some { r with rest := left ++ tail' }

section
variable {readers : Phrase → Reader}
  (hl : ∀ p shape ts r, readers p shape ts = some r → Leaves ts 0 0 r.rest)
include hl

theorem Rule.holds_before {rule : PhraseRule} {e : Ending} {n : Nat} {d : Option Nat}
    {shape : Shape} {ts left tail : List Token} {r : Reading}
    (h : rule.run whole readers shape (ts ++ tail) = some r)
    (hd : rule.depthAtEnd? Phrase.ending Phrase.idle e n = some d) (hrest : r.rest = left ++ tail)
    (he : ∀ m, d = some m → e.Holds m left) : e.Holds n ts := by
  obtain ⟨m, hm, hlv⟩ := rule.run_leaves hl h hd
  rw [hrest] at hlv
  exact hlv.of_append.holds (he m hm)

theorem Rule.PassesEnds.seq
    (hi : ∀ p shape ts r, readers p shape ts = some r → p.idle = false →
      r.rest.length < ts.length)
    {a b : PhraseRule} (ha : a.PassesEnds whole readers) (hb : b.PassesEnds whole readers) :
    (Rule.seq a b).PassesEnds whole readers := by
  intro e n d shape ts left tail tail' r h hd hrest he ht ht'
  obtain ⟨first, second, hfirst, hsecond, rfl⟩ := run_seq h
  simp only [depthAtEnd?] at hd
  split at hd
  · next m hm =>
    obtain ⟨k, rfl, used, hu, hdu⟩ := b.run_leaves hl hsecond hd
    have hrest : second.rest = left ++ tail := hrest
    rw [hrest, ← List.append_assoc] at hu
    have hk : e.Holds m (used ++ left) := (he k rfl).append hdu
    have hmid : ∀ m', some m = some m' →
        (if e = .free ∧ b.reads Phrase.idle = true then Ending.filled else e).Holds m'
          (used ++ left) := by
      rintro m' ⟨⟩
      split
      · next hf =>
        obtain ⟨rfl, hreads⟩ := hf
        refine ⟨hk, fun hn => ?_⟩
        -- The second part has read something, and not from the tail.
        have hlt := b.run_length (fun p shape ts r h => (hl p shape ts r h).suffix) hi hsecond hreads
        rw [hu, hrest, hn, List.nil_append, List.length_append] at hlt
        omega
      · exact hk
    have hmore : ∀ {t : List Token}, (e = .closed ∨ Ends t) →
        ((if e = .free ∧ b.reads Phrase.idle = true then Ending.filled else e) = .closed ∨
          Ends t) := by
      intro t ht
      refine ht.imp_left fun he => ?_
      simp [he]
    have hfa := ha hfirst hm hu hmid (hmore ht) (hmore ht')
    rw [hu] at hsecond
    have hfb := hb hsecond hd hrest he ht ht'
    simp only [run, hfa, hfb]
  · next other hn =>
    obtain ⟨m, rfl, -⟩ := a.run_leaves hl hfirst hd
    exact absurd hd (hn m)

theorem Rule.PassesEnds.choose {look : Look} {yes no : PhraseRule}
    (hy : yes.PassesEnds whole readers) (hn : no.PassesEnds whole readers) :
    (Rule.choose look yes no).PassesEnds whole readers := by
  intro e n d shape ts left tail tail' r h hd hrest he ht ht'
  have hstart := (holds_before hl h hd hrest he).inside
  simp only [depthAtEnd?] at hd
  split at hd
  · next hs =>
    obtain ⟨x, y, hx, hy', hdx, hdy⟩ := agree_eq_some hd
    simp only [run, Look.holds_append hs hstart (ht.imp_left fun he => Ending.inside_closed he n),
      Look.holds_append hs hstart (ht'.imp_left fun he => Ending.inside_closed he n)] at h ⊢
    exact ite_eq_of_imp h (fun h => hy h hx hrest (fun m hm => he m (hdx m hm)) ht ht')
      fun h => hn h hy' hrest (fun m hm => he m (hdy m hm)) ht ht'
  · simp at hd

/-- What is probed stays before a bracket to be closed, so before the end of the argument. -/
theorem Rule.PassesEnds.isSome_run {ahead : PhraseRule} (ha : ahead.PassesEnds whole readers)
    (hd : ahead.depthAtEnd? Phrase.ending Phrase.idle .closed 0 = some (some 0)) {shape : Shape}
    {ts tail tail' : List Token} (hc : Ending.closed.Holds 0 ts)
    (h : (ahead.run whole readers shape (ts ++ tail)).isSome = true) :
    (ahead.run whole readers shape (ts ++ tail')).isSome = true := by
  obtain ⟨x, hx⟩ := Option.isSome_iff_exists.mp h
  obtain ⟨m, hm, hlv⟩ := ahead.run_leaves hl hx hd
  obtain rfl := Option.some.inj hm
  obtain ⟨left, hleft, hclosed⟩ := hlv.closed hc
  have hh : ahead.run whole readers shape (ts ++ tail') = some { x with rest := left ++ tail' } :=
    ha hx hd hleft (by rintro m ⟨⟩; exact hclosed) (.inl rfl) (.inl rfl)
  simp [hh]

theorem Rule.PassesEnds.probe {ahead yes no : PhraseRule} (ha : ahead.PassesEnds whole readers)
    (hy : yes.PassesEnds whole readers) (hn : no.PassesEnds whole readers) :
    (Rule.probe ahead yes no).PassesEnds whole readers := by
  intro e n d shape ts left tail tail' r h hd hrest he ht ht'
  have hstart := (holds_before hl h hd hrest he).inside
  simp only [depthAtEnd?] at hd
  split at hd
  · next hs =>
    obtain ⟨hin, hda⟩ := hs
    rw [hin] at hstart
    obtain ⟨x, y, hx, hy', hdx, hdy⟩ := agree_eq_some hd
    simp only [run] at h ⊢
    split at h
    · next hsome =>
      rw [if_pos (ha.isSome_run hl hda hstart hsome)]
      exact hy h hx hrest (fun m hm => he m (hdx m hm)) ht ht'
    · next hnone =>
      rw [if_neg fun hsome => hnone (ha.isSome_run hl hda hstart hsome)]
      exact hn h hy' hrest (fun m hm => he m (hdy m hm)) ht ht'
  · simp at hd

end

theorem Rule.PassesEnds.onShape {readers : Phrase → Reader} {shapes : List Shape}
    {yes no : PhraseRule} (hy : yes.PassesEnds whole readers) (hn : no.PassesEnds whole readers) :
    (Rule.onShape shapes yes no).PassesEnds whole readers := by
  intro e n d shape ts left tail tail' r h hd hrest he ht ht'
  obtain ⟨x, y, hx, hy', hdx, hdy⟩ := agree_eq_some hd
  exact ite_eq_of_imp h (fun h => hy h hx hrest (fun m hm => he m (hdx m hm)) ht ht')
    fun h => hn h hy' hrest (fun m hm => he m (hdy m hm)) ht ht'

/-- A rule passes the ends of arguments if the phrases do that it calls. -/
theorem Rule.passesEnds {readers : Phrase → Reader}
    (hl : ∀ p shape ts r, readers p shape ts = some r → Leaves ts 0 0 r.rest)
    (hi : ∀ p shape ts r, readers p shape ts = some r → p.idle = false →
      r.rest.length < ts.length)
    (hr : ∀ p e shape ts left tail tail' r, readers p shape (ts ++ tail) = some r →
      r.rest = left ++ tail → p.ending.level ≤ Ending.level e → e.Holds 0 left →
      (e = .closed ∨ Ends tail) → (e = .closed ∨ Ends tail') →
      readers p shape (ts ++ tail') = some { r with rest := left ++ tail' })
    (rule : PhraseRule) : rule.PassesEnds whole readers := by
  induction rule with
  | seq a b iha ihb => exact iha.seq hl hi ihb
  | choose look yes no ihy ihn => exact ihy.choose hl ihn
  | probe ahead yes no iha ihy ihn => exact iha.probe hl ihy ihn
  | onShape shapes yes no ihy ihn => exact ihy.onShape ihn
  | call p =>
    intro e n d shape ts left tail tail' r h hd hrest he ht ht'
    simp only [depthAtEnd?] at hd
    split at hd
    · next hle =>
      have hh := (he n (Option.some.inj hd).symm).inside
      exact hr p _ shape ts left tail tail' r h hrest hle hh
        (ht.imp_left fun he => Ending.inside_closed he n) (ht'.imp_left fun he => Ending.inside_closed he n)
    · simp at hd
  | braced rule ih | rewrite writing rule ih =>
    intro e n d shape ts left tail tail' r h hd hrest he ht ht'
    obtain ⟨x, hx, rfl⟩ := Option.map_eq_some_iff.mp h
    have hh := ih hx hd hrest he ht ht'
    simp only [run, hh, Option.map_some]
  | take test =>
    intro e n d shape ts left tail tail' r h _ hrest _ _ _
    exact (Test.read_locally test).tail h hrest tail'
  | close c =>
    intro e n d shape ts left tail tail' r h _ hrest _ _ _
    exact (readClose_locally c).tail h hrest tail'
  | raw =>
    intro e n d shape ts left tail tail' r h _ hrest _ _ _
    exact readRaw_locally.tail h hrest tail'
  | done | mark new =>
    intro e n d shape ts left tail tail' r h _ hrest _ _ _
    obtain rfl := Option.some.inj h
    obtain rfl := List.append_cancel_right hrest
    rfl
  | fail =>
    intro e n d shape ts left tail tail' r h
    simp [run] at h

theorem readPhrase_leaves (depth : Nat) : ∀ p shape ts r,
    readPhrase whole grammar depth p shape ts = some r → Leaves ts 0 0 r.rest := by
  refine readPhrase_induction (motive := fun _ _ ts r => Leaves ts 0 0 r.rest)
    (fun readers hr p shape ts r h => ?_) depth
  obtain ⟨m, hm, hl⟩ := (grammar p).run_leaves hr h (grammar_depthAtEnd? p (Nat.le_refl _))
  obtain rfl := Option.some.inj hm
  exact hl

theorem readPhrase_tail (depth : Nat) : ∀ p e shape ts left tail tail' r,
    readPhrase whole grammar depth p shape (ts ++ tail) = some r → r.rest = left ++ tail →
    p.ending.level ≤ Ending.level e → e.Holds 0 left →
    (e = .closed ∨ Ends tail) → (e = .closed ∨ Ends tail') →
    readPhrase whole grammar depth p shape (ts ++ tail') = some { r with rest := left ++ tail' } := by
  induction depth with
  | zero => intro p e shape ts left tail tail' r h; simp [readPhrase] at h
  | succ depth ih =>
    intro p e shape ts left tail tail' r h hrest hle he ht ht'
    exact (grammar p).passesEnds (readPhrase_leaves depth) (readPhrase_length depth) ih h
      (grammar_depthAtEnd? p hle) hrest (by rintro m ⟨⟩; exact he) ht ht'

theorem Phrase.inFront_ends {p : Phrase} {e : Ending} {shape : Shape}
    {ts left tail tail' : List Token} {r : Reading}
    (h : p.inFront whole shape (ts ++ tail) = some r) (hrest : r.rest = left ++ tail)
    (hp : p.ending.level ≤ e.level) (he : e.Holds 0 left) (ht : e = .closed ∨ Ends tail)
    (ht' : e = .closed ∨ Ends tail') :
    p.inFront whole shape (ts ++ tail') = some { r with rest := left ++ tail' } := by
  let depth := depthFor ((ts ++ tail).length + (ts ++ tail').length)
  have hd : ∀ us : List Token, us.length ≤ (ts ++ tail).length + (ts ++ tail').length →
      readPhrase whole grammar depth p shape us = p.inFront whole shape us := fun us hle =>
    Phrase.inFront_eq (by simp only [depth, depthFor]; omega)
  rw [← hd _ (Nat.le_add_right _ _)] at h
  rw [← hd _ (Nat.le_add_left _ _)]
  exact readPhrase_tail depth p e shape ts left tail tail' r h hrest hp he ht ht'

theorem Phrase.inFront_tail {p : Phrase} {shape : Shape} {ts left tail tail' : List Token}
    {r : Reading} (hp : p.ending = .free) (h : p.inFront whole shape (ts ++ tail) = some r)
    (hrest : r.rest = left ++ tail) (ht : Ends tail) (ht' : Ends tail') :
    p.inFront whole shape (ts ++ tail') = some { r with rest := left ++ tail' } :=
  inFront_ends (e := .free) h hrest (by rw [hp]) trivial (.inr ht) (.inr ht')

/-- Where a bracket is closed that stands before the phrase, nothing else matters that comes
after. -/
theorem Phrase.inFront_closed {p : Phrase} {shape : Shape} {ts left tail : List Token}
    {r : Reading} (h : p.inFront whole shape (ts ++ tail) = some r) (hrest : r.rest = left ++ tail)
    (hc : Closes 1 left) (tail' : List Token) :
    p.inFront whole shape (ts ++ tail') = some { r with rest := left ++ tail' } :=
  inFront_ends (e := .closed) h hrest (by cases p.ending <;> simp [Ending.level]) hc (.inl rfl)
    (.inl rfl)

theorem Expression.inFront?_tail {x : Expression} {ts left tail tail' : List Token}
    (h : Expression.inFront? whole (ts ++ tail) = some (x, left ++ tail)) (ht : Ends tail)
    (ht' : Ends tail') :
    Expression.inFront? whole (ts ++ tail') = some (x, left ++ tail') := by
  obtain ⟨r, hr, hp⟩ := Option.map_eq_some_iff.mp h
  obtain ⟨rfl, hrest⟩ := Prod.mk.inj hp
  have hh := Phrase.inFront_tail rfl hr hrest ht ht'
  simp [Expression.inFront?, hh]

theorem Expression.inFront?_length {x : Expression} {ts rest : List Token}
    (h : Expression.inFront? whole ts = some (x, rest)) : rest.length < ts.length := by
  obtain ⟨r, hr, hp⟩ := Option.map_eq_some_iff.mp h
  obtain ⟨-, rfl⟩ := Prod.mk.inj hp
  exact readPhrase_length _ _ .other ts r hr rfl

end FieldKeys
