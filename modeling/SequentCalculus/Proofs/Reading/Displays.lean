import SequentCalculus.Proofs.Reading.RoundTrip
import SequentCalculus.Sequent.Display

/-!
# Proofs/Reading/Displays — a sequent in logical symbols is read back

The display of a sequent does not go through a registry: it has symbols of its own and puts every
binary formula in parentheses, a negated one in two pairs.  The default registry has these symbols
too, no other symbol starts with one of them (`spells_logical`), and a formula in parentheses may stand
anywhere, so every display is a phrase (`exists_phrase_display`).

What is read back determines what was displayed; hence different sequents have different displays.
-/

namespace SequentCalculus

open Token

/-! ## Logical symbols -/

/-- The symbols of a display. -/
def logicalSymbols : List LooseText := ["¬", "∧", "∨", "→", "↔", "⊢"]

/-- **A logical symbol is one token, whatever follows.** -/
theorem spells_logical {symbol : LooseText} (h : symbol ∈ logicalSymbols) (rest : LooseText) :
    Spells .default symbol [ofSymbol .default symbol] rest := by
  have hsought : ∀ s ∈ logicalSymbols, s ∈ Registry.default.sought := by decide +kernel
  have hname : ∀ s ∈ logicalSymbols, LooseText.nameFront s = [] := by decide +kernel
  have hlongest : ∀ s ∈ logicalSymbols, ∀ q ∈ Registry.default.sought,
      ¬ (s <+: q ∧ s ≠ q) := by
    decide +kernel
  have hmem : symbol ∈ symbols .default := Registry.mem_sought.1 (hsought symbol h)
  refine spells_symbol hmem
    (Registry.startsSymbol_of_legible (kept_of_mem_symbols hmem) (hname symbol h)) ?_
  intro q hq hfits
  exact length_le_of_not_extends (hlongest symbol h q (Registry.mem_sought.2 hq)) hfits

theorem ofSymbol_default_neg : ofSymbol .default "¬" = ⟨.connective .not, "¬"⟩ := by decide +kernel

theorem ofSymbol_default_turnstile : ofSymbol .default "⊢" = ⟨.turnstile, "⊢"⟩ := by
  decide +kernel

theorem ofSymbol_default_binary (op : BinaryConnective) :
    .ofString op.symbol ∈ logicalSymbols ∧
      ofSymbol .default op.symbol = ⟨.connective (.binary op), op.symbol⟩ := by
  cases op <;> decide +kernel

/-! ## Displayed formulas -/

/-- The names are atoms in a text: each is scanned as one token, which is an atom. -/
def AreAtoms (r : Registry) (names : List String) : Prop :=
  ∀ n ∈ names, scan r n = .ok [⟨.atom, n⟩]

namespace Phrase

variable {f g : Formula} {text left right : LooseText} {ts ls rs : List Token}

/-- A displayed negation. -/
theorem display_neg (h : Phrase .default .not f text ts) :
    Phrase .default .not (.neg f) ("¬" ++ text) (⟨.connective .not, "¬"⟩ :: ts) := by
  refine h.neg rfl fun rest _ => ?_
  rw [← ofSymbol_default_neg]
  exact spells_logical (by decide) _

/-- A displayed binary formula. -/
theorem display_bin (op : BinaryConnective) (hf : Phrase .default .not f left ls)
    (hg : Phrase .default .not g right rs) :
    ∃ ts, Phrase .default .not (.bin op f g)
      ("(" ++ left ++ " " ++ op.symbol ++ " " ++ right ++ ")") ts := by
  obtain ⟨hmem, htoken⟩ := ofSymbol_default_binary op
  have hsymbol : ∀ rest, Token.Spells .default op.symbol
      [⟨.connective (.binary op), op.symbol⟩] (.char ' ' :: rest) :=
    fun rest => htoken ▸ spells_logical hmem _
  have hbin := hf.bin rfl hsymbol hg
  have htext : ("(" ++ left ++ " " ++ op.symbol ++ " " ++ right ++ ")" : LooseText) =
      "(" ++ (left ++ " " ++ op.symbol ++ " " ++ right) ++ ")" := by
    simp only [List.append_assoc]
  rw [htext]
  exact ⟨_, hbin.parens⟩

end Phrase

/-- **The display of a formula is a phrase for it.** -/
theorem exists_phrase_display (f : Formula) (h : AreAtoms .default f.atoms) :
    ∃ ts, Phrase .default .not f f.display ts := by
  induction f with
  | atom name => exact ⟨_, Phrase.atom (h name (List.mem_singleton.2 rfl))⟩
  | neg f ih =>
    obtain ⟨ts, hf⟩ := ih fun n hn => h n (mem_appendNew.2 (Or.inr hn))
    cases f with
    | atom name =>
      have htext : (Formula.neg (.atom name)).display = "¬" ++ (Formula.atom name).display := rfl
      rw [htext, LooseText.ofString_append]
      exact ⟨_, hf.display_neg⟩
    | neg f =>
      have htext : (Formula.neg (.neg f)).display = "¬" ++ (Formula.neg f).display := rfl
      rw [htext, LooseText.ofString_append]
      exact ⟨_, hf.display_neg⟩
    | bin op f g =>
      have htext : "¬(" ++ (Formula.bin op f g).display ++ ")" =
          "¬" ++ ("(" ++ (Formula.bin op f g).display ++ ")") := by
        rw [← String.append_assoc, ← String.append_assoc]
        rfl
      rw [Formula.display_neg_bin, htext, LooseText.ofString_append, LooseText.ofString_append,
        LooseText.ofString_append]
      exact ⟨_, hf.lift.parens.display_neg⟩
  | bin op f g ihf ihg =>
    obtain ⟨ls, hf⟩ := ihf fun n hn =>
      h n (mem_appendNew.2 (Or.inl (mem_appendNew.2 (Or.inr hn))))
    obtain ⟨rs, hg⟩ := ihg fun n hn => h n (mem_appendNew.2 (Or.inr hn))
    simp only [Formula.display, LooseText.ofString_append]
    exact Phrase.display_bin op hf hg

theorem exists_sidePhrase_display : ∀ fs : List Formula,
    (∀ f ∈ fs, AreAtoms .default f.atoms) →
    ∃ ts, SidePhrase .default fs (", ".intercalate (fs.map (·.display))) ts
  | [], _ => ⟨[], SidePhrase.nil⟩
  | [f], h => by
    obtain ⟨ts, hf⟩ := exists_phrase_display f (h f (List.mem_singleton.2 rfl))
    exact ⟨ts, SidePhrase.one hf.lift⟩
  | f :: g :: gs, h => by
    obtain ⟨hf, hgs⟩ := List.forall_mem_cons.1 h
    obtain ⟨ts, hf⟩ := exists_phrase_display f hf
    obtain ⟨us, hgs⟩ := exists_sidePhrase_display (g :: gs) hgs
    have hne : (g :: gs).map (·.display) ≠ [] := List.cons_ne_nil _ _
    rw [List.map_cons, String.intercalate_cons_of_ne_nil hne, LooseText.ofString_append,
      LooseText.ofString_append]
    exact ⟨_, SidePhrase.cons hf.lift hgs (List.cons_ne_nil g gs)⟩

/-! ## Displayed sequents -/

namespace Sequent

theorem areAtoms_of_mem {s : Sequent} (h : AreAtoms .default s.atoms) :
    ∀ f ∈ s.lhs ++ s.rhs, AreAtoms .default f.atoms := fun f hf n hn =>
  h n (mem_atoms.2 ⟨f, hf, hn⟩)

/-- **The display of a sequent is read back as the sequent.** -/
theorem ofText_display {s : Sequent} (h : AreAtoms .default s.atoms) :
    ofText .default s.display = .ok s := by
  obtain ⟨hlhs, hrhs⟩ := List.forall_mem_append.1 (areAtoms_of_mem h)
  obtain ⟨ls, hl⟩ := exists_sidePhrase_display s.lhs hlhs
  obtain ⟨rs, hr⟩ := exists_sidePhrase_display s.rhs hrhs
  have htext : " ⊢ " = " " ++ "⊢" ++ " " := by decide
  rw [display, ← LooseText.trim_ofString, htext, ← String.append_assoc, ← String.append_assoc]
  simp only [LooseText.ofString_append]
  exact ofText_of_sidePhrases hl (fun rest => spells_logical (by decide) _)
    (Or.inl (by rw [ofSymbol_default_turnstile])) hr

theorem eq_of_display_eq {s t : Sequent} (hs : AreAtoms .default s.atoms)
    (ht : AreAtoms .default t.atoms) (h : s.display = t.display) : s = t := by
  have hread := ofText_display hs
  rw [h, ofText_display ht] at hread
  exact (Except.ok.inj hread).symm

/-- The atoms of the sequent of one formula are those of the formula. -/
theorem areAtoms_singleton {f : Formula} (h : AreAtoms .default f.atoms) :
    AreAtoms .default (⟨[], [f]⟩ : Sequent).atoms := by
  intro n hn
  obtain ⟨g, hg, hname⟩ := mem_atoms.1 hn
  exact h n (List.mem_singleton.1 hg ▸ hname)

/-- **Displays in logical symbols can be read.**  Under the default registry a sequent of names is
read back from its display; so no two sequents of names have the same display, and no two formulas
of names. -/
theorem display_readable :
    (∀ s : Sequent, AreAtoms .default s.atoms → ofText .default s.display = .ok s) ∧
    (∀ s t : Sequent, AreAtoms .default s.atoms → AreAtoms .default t.atoms →
      s.display = t.display → s = t) ∧
    ∀ f g : Formula, AreAtoms .default f.atoms → AreAtoms .default g.atoms →
      f.display = g.display → f = g := by
  refine ⟨fun s => ofText_display, fun s t => eq_of_display_eq, fun f g hf hg h => ?_⟩
  have hsequents : (⟨[], [f]⟩ : Sequent).display = (⟨[], [g]⟩ : Sequent).display := by
    simp only [display, List.map_cons, h]
  have heq := eq_of_display_eq (areAtoms_singleton hf) (areAtoms_singleton hg) hsequents
  exact (List.cons.inj (Sequent.mk.inj heq).2).1

/-- An empty side, a negated binary formula, stacked negations and a name with primes. -/
theorem display_readable_nested :
    let f : Formula := .neg (.bin .and (.neg (.neg (.atom "p''"))) (.bin .iff (.atom "q") (.atom "r")))
    let s : Sequent := ⟨[], [f, .bin .implies f (.atom "Ω_1")]⟩
    f.display = "¬((¬¬p'' ∧ (q ↔ r)))" ∧ ofText .default s.display = .ok s := by
  intro f s
  have hatoms : ∀ n ∈ s.atoms, (scan .default n).toOption = some [⟨.atom, n⟩] := by decide +kernel
  exact ⟨by decide +kernel, display_readable.1 s fun n hn => eq_ok_of_toOption (hatoms n hn)⟩

end Sequent

end SequentCalculus
