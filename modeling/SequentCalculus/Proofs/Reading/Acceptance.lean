import SequentCalculus.Proofs.Outcomes
import SequentCalculus.Proofs.Reading.Grammar

/-!
# Proofs/Reading/Acceptance — what the reader reads is a phrase

`Derives.reads` finds every phrase; here is the converse.  Whatever the reader of a level takes off
the front of the tokens is a phrase of the level (`Starts`), also where the tokens as a whole are
malformed.  The eight readers call each other, so the eight statements are proved together, by the
measure that ends the readers.

A tail of a level that groups to the left is entered with a phrase already behind it.  Its statement
is about the tokens from the start of that phrase on: reading the tail makes the phrase longer.

* `ofTokens_eq_ok_iff_derives` — the reader accepts exactly the phrases of the loosest level.
-/

namespace SequentCalculus.Formula

/-- The tokens start with a phrase of a level for the formula, in front of a rest. -/
def Starts (l : Level) (ts : List Token) (f : Formula) (rest : List Token) : Prop :=
  ∃ ps, ts = ps ++ rest ∧ Derives l ps f

namespace Starts

variable {k l m : Level} {ts mid rest : List Token} {f g h : Formula} {t : Token}

/-- A production of one phrase. -/
theorem map (hf : Starts l ts f rest) (rule : ∀ {ps}, Derives l ps f → Derives m ps g) :
    Starts m ts g rest := by
  obtain ⟨ps, hts, hps⟩ := hf
  exact ⟨ps, hts, rule hps⟩

/-- A production of a token and a phrase behind it. -/
theorem cons (hf : Starts l ts f rest) (rule : ∀ {ps}, Derives l ps f → Derives m (t :: ps) g) :
    Starts m (t :: ts) g rest := by
  obtain ⟨ps, rfl, hps⟩ := hf
  exact ⟨t :: ps, rfl, rule hps⟩

/-- A production of two phrases with a token between them. -/
theorem append (hf : Starts k ts f (t :: mid)) (hg : Starts l mid g rest)
    (rule : ∀ {ls rs}, Derives k ls f → Derives l rs g → Derives m (ls ++ t :: rs) h) :
    Starts m ts h rest := by
  obtain ⟨ls, rfl, hls⟩ := hf
  obtain ⟨rs, rfl, hrs⟩ := hg
  exact ⟨ls ++ t :: rs, by rw [List.append_assoc, List.cons_append], rule hls hrs⟩

end Starts

/-! ## Taking outcomes apart -/

/-- A reader leaves fewer tokens than its bound. -/
theorem length_lt_of_outcome {n : Nat} {r : Read n} {f : Formula} {rest : List Token}
    (h : outcome r = .ok (f, rest)) : rest.length < n := by
  rcases r with e | p
  · cases h
  · obtain ⟨-, rfl⟩ := Prod.mk.inj (Except.ok.inj h)
    exact p.short

/-- A level that groups to the right stops behind its operand, or reads its operator and itself
again. -/
theorem groupRight_eq_ok {op : BinaryConnective} {again : List Token → Outcome} {left f : Formula}
    {mid rest : List Token} (h : groupRight op again (left, mid) = .ok (f, rest)) :
    (f = left ∧ rest = mid) ∨
      ∃ t mid' right, mid = t :: mid' ∧ t.tag = .connective (.binary op) ∧
        again mid' = .ok (right, rest) ∧ f = .bin op left right := by
  rcases mid with _ | ⟨t, mid⟩
  · obtain ⟨rfl, rfl⟩ := Prod.mk.inj (Except.ok.inj h)
    exact Or.inl ⟨rfl, rfl⟩
  · rw [groupRight] at h
    split at h
    · rename_i ht
      obtain ⟨⟨right, rest'⟩, hright, hpair⟩ := exists_of_map_eq_ok h
      obtain ⟨rfl, rfl⟩ := Prod.mk.inj hpair
      exact Or.inr ⟨t, mid, right, rfl, ht, hright, rfl⟩
    · obtain ⟨rfl, rfl⟩ := Prod.mk.inj (Except.ok.inj h)
      exact Or.inl ⟨rfl, rfl⟩

theorem closeParens_eq_ok {inner f : Formula} {mid rest : List Token}
    (h : closeParens (inner, mid) = .ok (f, rest)) :
    ∃ c, c.tag = .closing ∧ mid = c :: rest ∧ f = inner := by
  rcases mid with _ | ⟨c, mid⟩
  · cases h
  · rw [closeParens] at h
    split at h
    · rename_i hc
      obtain ⟨rfl, rfl⟩ := Prod.mk.inj (Except.ok.inj h)
      exact ⟨c, hc, rfl, rfl⟩
    · cases h

theorem outcome_readNot_nil : outcome (readNot []) = .error .unexpectedEnd := by
  rw [readNot]
  rfl

/-- A primary starts with an opening parenthesis or is an atom. -/
theorem tag_of_readPrimary {t : Token} {rest : List Token} {f : Formula} {rest' : List Token}
    (h : outcome (readPrimary t rest) = .ok (f, rest')) : t.tag = .opening ∨ t.tag = .atom := by
  obtain ⟨tag, text⟩ := t
  match tag with
  | .opening => exact Or.inl rfl
  | .atom => exact Or.inr rfl
  | .closing | .comma | .turnstile | .arrow | .connective _ =>
    rw [readPrimary] at h
    cases h

/-! ## The reader reads nothing but phrases -/

mutual

theorem starts_of_readIff (ts : List Token) {f : Formula} {rest : List Token}
    (h : outcome (readIff ts) = .ok (f, rest)) : Starts .iff ts f rest := by
  rw [outcome_readIff] at h
  obtain ⟨⟨left, mid⟩, hleft, hgroup⟩ := exists_of_bind_eq_ok h
  have hlength := length_lt_of_outcome hleft
  have hstarts := starts_of_readImplies ts hleft
  rcases groupRight_eq_ok hgroup with ⟨rfl, rfl⟩ | ⟨t, mid', right, rfl, ht, hright, rfl⟩
  · exact hstarts.map .ofImplies
  · have hshorter : mid'.length < ts.length := Nat.lt_of_succ_lt hlength
    exact hstarts.append (starts_of_readIff mid' hright) (.iff · ht ·)
termination_by 8 * ts.length + 6
decreasing_by all_goals omega

theorem starts_of_readImplies (ts : List Token) {f : Formula} {rest : List Token}
    (h : outcome (readImplies ts) = .ok (f, rest)) : Starts .implies ts f rest := by
  rw [outcome_readImplies] at h
  obtain ⟨⟨left, mid⟩, hleft, hgroup⟩ := exists_of_bind_eq_ok h
  have hlength := length_lt_of_outcome hleft
  have hstarts := starts_of_readOr ts hleft
  rcases groupRight_eq_ok hgroup with ⟨rfl, rfl⟩ | ⟨t, mid', right, rfl, ht, hright, rfl⟩
  · exact hstarts.map .ofOr
  · have hshorter : mid'.length < ts.length := Nat.lt_of_succ_lt hlength
    exact hstarts.append (starts_of_readImplies mid' hright) (.implies · ht ·)
termination_by 8 * ts.length + 5
decreasing_by all_goals omega

theorem starts_of_readOr (ts : List Token) {f : Formula} {rest : List Token}
    (h : outcome (readOr ts) = .ok (f, rest)) : Starts .or ts f rest := by
  rw [outcome_readOr] at h
  obtain ⟨⟨first, mid⟩, hfirst, htail⟩ := exists_of_bind_eq_ok h
  have hlength := length_lt_of_outcome hfirst
  exact starts_of_readOrTail first mid htail ((starts_of_readAnd ts hfirst).map .ofAnd)
termination_by 8 * ts.length + 4
decreasing_by all_goals omega

/-- A tail read behind a phrase makes the phrase longer. -/
theorem starts_of_readOrTail (left : Formula) (ts : List Token) {f : Formula} {rest : List Token}
    (h : outcome (readOrTail left ts) = .ok (f, rest)) {us : List Token}
    (hus : Starts .or us left ts) : Starts .or us f rest := by
  match ts with
  | [] =>
    rw [outcome_readOrTail_nil] at h
    obtain ⟨rfl, rfl⟩ := Prod.mk.inj (Except.ok.inj h)
    exact hus
  | t :: mid =>
    rw [outcome_readOrTail_cons] at h
    split at h
    · rename_i ht
      obtain ⟨⟨right, mid'⟩, hright, htail⟩ := exists_of_bind_eq_ok h
      have hlength := length_lt_of_outcome hright
      exact starts_of_readOrTail (.bin .or left right) mid' htail
        (hus.append (starts_of_readAnd mid hright) (.or · ht ·))
    · obtain ⟨rfl, rfl⟩ := Prod.mk.inj (Except.ok.inj h)
      exact hus
termination_by 8 * ts.length
decreasing_by all_goals (simp only [List.length_cons]; omega)

theorem starts_of_readAnd (ts : List Token) {f : Formula} {rest : List Token}
    (h : outcome (readAnd ts) = .ok (f, rest)) : Starts .and ts f rest := by
  rw [outcome_readAnd] at h
  obtain ⟨⟨first, mid⟩, hfirst, htail⟩ := exists_of_bind_eq_ok h
  have hlength := length_lt_of_outcome hfirst
  exact starts_of_readAndTail first mid htail ((starts_of_readNot ts hfirst).map .ofNot)
termination_by 8 * ts.length + 3
decreasing_by all_goals omega

theorem starts_of_readAndTail (left : Formula) (ts : List Token) {f : Formula} {rest : List Token}
    (h : outcome (readAndTail left ts) = .ok (f, rest)) {us : List Token}
    (hus : Starts .and us left ts) : Starts .and us f rest := by
  match ts with
  | [] =>
    rw [outcome_readAndTail_nil] at h
    obtain ⟨rfl, rfl⟩ := Prod.mk.inj (Except.ok.inj h)
    exact hus
  | t :: mid =>
    rw [outcome_readAndTail_cons] at h
    split at h
    · rename_i ht
      obtain ⟨⟨right, mid'⟩, hright, htail⟩ := exists_of_bind_eq_ok h
      have hlength := length_lt_of_outcome hright
      exact starts_of_readAndTail (.bin .and left right) mid' htail
        (hus.append (starts_of_readNot mid hright) (.and · ht ·))
    · obtain ⟨rfl, rfl⟩ := Prod.mk.inj (Except.ok.inj h)
      exact hus
termination_by 8 * ts.length
decreasing_by all_goals (simp only [List.length_cons]; omega)

theorem starts_of_readNot (ts : List Token) {f : Formula} {rest : List Token}
    (h : outcome (readNot ts) = .ok (f, rest)) : Starts .not ts f rest := by
  match ts with
  | [] =>
    rw [outcome_readNot_nil] at h
    cases h
  | t :: mid =>
    rw [outcome_readNot_cons] at h
    split at h
    · rename_i ht
      match hinner : outcome (readNot mid) with
      | .error e =>
        rw [hinner] at h
        cases h
      | .ok (inner, rest') =>
        rw [hinner] at h
        obtain ⟨rfl, rfl⟩ := Prod.mk.inj (Except.ok.inj h)
        exact (starts_of_readNot mid hinner).cons (.neg ht ·)
    · exact (starts_of_readPrimary t mid h).map .ofPrimary
termination_by 8 * ts.length + 2
decreasing_by all_goals (simp only [List.length_cons]; omega)

theorem starts_of_readPrimary (t : Token) (ts : List Token) {f : Formula} {rest : List Token}
    (h : outcome (readPrimary t ts) = .ok (f, rest)) : Starts .primary (t :: ts) f rest := by
  rcases tag_of_readPrimary h with ht | ht
  · rw [outcome_readPrimary_opening ht] at h
    obtain ⟨⟨inner, mid⟩, hinner, hclose⟩ := exists_of_bind_eq_ok h
    obtain ⟨c, hc, rfl, rfl⟩ := closeParens_eq_ok hclose
    obtain ⟨ps, hts, hps⟩ := starts_of_readIff ts hinner
    refine ⟨t :: (ps ++ [c]), ?_, .parens ht hps hc⟩
    rw [hts, List.cons_append, List.append_assoc, List.singleton_append]
  · rw [outcome_readPrimary_atom ht] at h
    obtain ⟨rfl, rfl⟩ := Prod.mk.inj (Except.ok.inj h)
    exact ⟨[t], rfl, .atom ht⟩
termination_by 8 * ts.length + 7
decreasing_by all_goals omega

end

/-- Tokens that write a formula are a phrase for it. -/
theorem derives_of_ofTokens {ts : List Token} {f : Formula} (h : ofTokens ts = .ok f) :
    Derives .iff ts f := by
  rw [ofTokens] at h
  split at h
  · cases h
  · split at h
    · cases h
    · rename_i p hp
      split at h
      · rename_i hrest
        obtain rfl := Except.ok.inj h
        have hread : outcome (readIff ts) = .ok (p.value, []) := by
          rw [hp, ← hrest]
          rfl
        obtain ⟨ps, hts, hps⟩ := starts_of_readIff ts hread
        rw [List.append_nil] at hts
        subst hts
        exact hps
      · cases h

/-- **The tokens that write a formula are its phrases.** -/
theorem ofTokens_eq_ok_iff_derives {ts : List Token} {f : Formula} :
    ofTokens ts = .ok f ↔ Derives .iff ts f :=
  ⟨derives_of_ofTokens, ofTokens_of_derives⟩

end SequentCalculus.Formula
