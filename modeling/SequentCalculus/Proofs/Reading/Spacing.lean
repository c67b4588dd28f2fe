import SequentCalculus.Proofs.Reading.Scanning

/-!
# Proofs/Reading/Spacing — a scanner loses nothing but blanks, and blanks only separate

A text that can be cut is the texts of its tokens with gaps of blanks around and between them
(`exists_gaps_of_spaced`).  Conversely the texts of the tokens may be set apart by other blanks.  A
token that was cut out of a text is cut off by itself wherever a blank follows or nothing does
(`StandsAlone`):

* punctuation always is;
* a name was taken in full, and no blank continues a name;
* a symbol was the longest that fitted, and a longer one would now have to reach into the blanks.

The last point fails where a symbol has blanks inside, so the registry must have none
(`Registry.Unspaced`).
-/

namespace SequentCalculus

/-- A text of blanks. -/
def LooseText.IsBlanks (text : LooseText) : Prop := (text.all Text.Code.isBlank) = true

instance (text : LooseText) : Decidable text.IsBlanks := inferInstanceAs (Decidable (_ = true))

theorem LooseText.isBlanks_iff {text : LooseText} :
    text.IsBlanks ↔ ∀ c ∈ text, c.isBlank = true := List.all_eq_true

/-- No symbol of the registry has a blank in it. -/
def Registry.Unspaced (r : Registry) : Prop :=
  ∀ s ∈ r.table.keys, (s.all fun c => !c.isBlank) = true

instance (r : Registry) : Decidable r.Unspaced := List.decidableBAll _ _

theorem Registry.unspaced_default : Registry.default.Unspaced := by decide +kernel

namespace Token

open Text LooseText

/-- The texts of some tokens, each with a gap behind it for as long as there are gaps. -/
def withGaps : List Token → List LooseText → LooseText
  | [], _ => []
  | t :: ts, [] => t.text ++ withGaps ts []
  | t :: ts, gap :: gaps => t.text ++ (gap ++ withGaps ts gaps)

variable {r : Registry} {t : Token} {ts : List Token} {cs rest : LooseText} {gaps : List LooseText}

/-! ## Nothing is lost -/

/-- **The gaps between the tokens of a text are blanks.** -/
theorem exists_gaps_of_spaced (h : Spaced cs ts) : ∃ first gaps, gaps.length = ts.length ∧
    (∀ gap ∈ first :: gaps, IsBlanks gap) ∧ cs = first ++ withGaps ts gaps := by
  induction h with
  | nil => exact ⟨[], [], rfl, by decide, rfl⟩
  | @blank c cs ts hc _ ih =>
    obtain ⟨first, gaps, hlength, hblanks, hcs⟩ := ih
    obtain ⟨hfirst, hgaps⟩ := List.forall_mem_cons.1 hblanks
    refine ⟨c :: first, gaps, hlength, List.forall_mem_cons.2 ⟨?_, hgaps⟩, ?_⟩
    · exact isBlanks_iff.2 (List.forall_mem_cons.2 ⟨hc, isBlanks_iff.1 hfirst⟩)
    · rw [List.cons_append, ← hcs]
  | @token t cs ts _ ih =>
    obtain ⟨first, gaps, hlength, hblanks, hcs⟩ := ih
    refine ⟨[], first :: gaps, congrArg (· + 1) hlength,
      List.forall_mem_cons.2 ⟨by decide, hblanks⟩, ?_⟩
    rw [withGaps, ← hcs, List.nil_append]

/-! ## Tokens by themselves -/

/-- What follows is blank at its start, or there is nothing. -/
def BlankNext (rest : LooseText) : Prop := ∀ c, rest.head? = some c → c.isBlank = true

/-- A token is cut off by itself wherever a blank follows or nothing does. -/
def StandsAlone (r : Registry) (t : Token) : Prop :=
  ∀ rest, BlankNext rest → Spells r t.text [t] rest

theorem isBlank_of_mem_symbols (hr : r.Unspaced) {q : LooseText} (hq : q ∈ symbols r) {c : Code}
    (hc : c ∈ q) : c.isBlank = false := by
  have hall : (q.all fun c => !c.isBlank) = true := by
    rcases mem_symbols.1 hq with hq | hq | rfl
    · exact hr q (Registry.mem_operators.1 hq).1
    · have hturnstiles : ∀ q ∈ turnstiles, (q.all fun c => !c.isBlank) = true := by decide
      exact hturnstiles q hq
    · decide
  simpa using List.all_eq_true.1 hall c hc

/-- Without blanks of its own no symbol reaches behind another into blanks. -/
theorem length_le_of_blankNext {q s : LooseText} (hq : ∀ c ∈ q, c.isBlank = false)
    (hrest : BlankNext rest) (hfits : q <+: s ++ rest) : q.length ≤ s.length := by
  rcases List.prefix_or_prefix_of_prefix hfits (List.prefix_append s rest) with hle | hge
  · exact hle.length_le
  · obtain ⟨tail, htail⟩ := hge
    rw [← htail, List.prefix_append_right_inj] at hfits
    rcases tail with _ | ⟨c, tail⟩
    · rw [← htail, List.append_nil]
    · obtain ⟨rest', rfl⟩ := hfits
      have hblank := hrest c rfl
      have hc : c ∈ q := htail ▸ List.mem_append_right _ List.mem_cons_self
      rw [hq c hc] at hblank
      cases hblank

/-- **A token that was cut out of a text stands alone.** -/
theorem IsCut.standsAlone (hr : r.Unspaced) (h : IsCut r (symbols r) t) : StandsAlone r t := by
  intro rest hrest
  cases h with
  | punctuation hc =>
    rw [text_of_punctuation? hc]
    exact spells_punctuation hc
  | name hne hname =>
    have hends := endsName_of_head? hrest
    rw [text_ofName]
    exact spells_name hne hname (hends.stops _) hends.head?_ne
  | symbol hs hstart =>
    rw [text_ofSymbol]
    exact spells_symbol hs hstart fun q hq hfits =>
      length_le_of_blankNext (fun c hc => isBlank_of_mem_symbols hr hq hc) hrest hfits

/-! ## Other gaps -/

theorem spells_blanks {gap : LooseText} (h : IsBlanks gap) : Spells r gap [] rest := by
  rw [Spells, scanWith_blanks_append (isBlanks_iff.1 h)]
  exact Spells.nil

theorem blankNext_append {gap : LooseText} (hne : gap ≠ []) (h : IsBlanks gap) (rest : LooseText) :
    BlankNext (gap ++ rest) := by
  obtain ⟨c, cs, rfl⟩ := List.exists_cons_of_ne_nil hne
  intro d hd
  obtain rfl : c = d := Option.some.inj hd
  exact isBlanks_iff.1 h c List.mem_cons_self

/-- **Tokens that stand alone may be set apart by any blanks.** -/
theorem spells_withGaps (hts : ∀ t ∈ ts, StandsAlone r t)
    (hgaps : ∀ gap ∈ gaps, gap ≠ [] ∧ IsBlanks gap) (hlength : ts.length ≤ gaps.length + 1) :
    Spells r (withGaps ts gaps) ts [] := by
  induction ts generalizing gaps with
  | nil => exact Spells.nil
  | cons t ts ih =>
    obtain ⟨ht, hts⟩ := List.forall_mem_cons.1 hts
    rcases gaps with _ | ⟨gap, gaps⟩
    · -- no gap is left, so this is the last token
      obtain rfl : ts = [] := List.length_eq_zero_iff.1 (by simpa using hlength)
      rw [withGaps, withGaps, List.append_nil]
      exact ht [] fun _ hc => nomatch hc
    · obtain ⟨⟨hne, hblanks⟩, hgaps⟩ := List.forall_mem_cons.1 hgaps
      have htail := (spells_blanks hblanks).append (ih hts hgaps (Nat.le_of_succ_le_succ hlength))
      rw [withGaps]
      refine Spells.append (ht _ ?_) htail
      rw [List.append_assoc]
      exact blankNext_append hne hblanks _

/-- **Scanning loses nothing but blanks, and blanks only separate.**  A text that can be cut is the
texts of its tokens with gaps of blanks before, between and behind them.  If no symbol of the registry
has a blank in it, as none of the default one has, the same tokens are cut out of their texts set
apart by any other blanks. -/
theorem scan_withGaps {text : LooseText} (h : scan r text = .ok ts) :
    (∃ first gaps, gaps.length = ts.length ∧ (∀ gap ∈ first :: gaps, IsBlanks gap) ∧
      text = first ++ withGaps ts gaps) ∧
    (r.Unspaced → ∀ gaps : List LooseText, gaps.length = ts.length - 1 →
      (∀ gap ∈ gaps, gap ≠ [] ∧ IsBlanks gap) → scan r (withGaps ts gaps) = .ok ts) ∧
    Registry.default.Unspaced := by
  refine ⟨exists_gaps_of_spaced (spaced_of_scan h), fun hr gaps hlength hgaps => ?_,
    Registry.unspaced_default⟩
  have halone : ∀ t ∈ ts, StandsAlone r t := fun t ht => (isCut_of_mem_scan h ht).standsAlone hr
  exact (spells_withGaps halone hgaps (by omega)).scan

/-- In `p<=>~q'|-(r)` nothing sets the tokens apart; blanks of all kinds do so in the other text. -/
theorem scan_withGaps_default : ∃ ts,
    scan .default "p<=>~q'|-(r)" = .ok ts ∧
      scan .default "p <=>\t~\n\nq'  |- (\u3000r )" = .ok ts := by
  have hsome : (scan .default "p<=>~q'|-(r)").toOption = some
      [⟨.atom, "p"⟩, ⟨.connective (.binary .iff), "<=>"⟩, ⟨.connective .not, "~"⟩, ⟨.atom, "q'"⟩,
        ⟨.turnstile, "|-"⟩, ⟨.opening, "("⟩, ⟨.atom, "r"⟩, ⟨.closing, ")"⟩] := by
    decide +kernel
  have h := eq_ok_of_toOption hsome
  exact ⟨_, h, (scan_withGaps h).2.1 Registry.unspaced_default
    [" ", "\t", "\n\n", "  ", " ", "\u3000", " "] rfl (by decide +kernel)⟩

end Token

end SequentCalculus
