import SequentCalculus.Proofs.Reading.Phrases
import SequentCalculus.Registry.Writer

/-!
# Proofs/Reading/RoundTrip — what a registry writes, it reads back

A sequent written in the symbols of a registry is read back under the same registry if the symbols can
be told apart where the writer puts them.  A binary symbol and the separator stand between blanks; a
negation stands right in front of its operand, unless it is a word.  Hence two kinds of conditions:

* `ReadableSymbols` — each written symbol is one token by itself, and no other symbol takes more of the
  text: nothing extends a negation, and nothing goes on with a blank behind a binary symbol;
* `ReadableSeparator` — the same for the separator, and an arrow separates only if it writes no
  connective.

They name the connectives of the sequent only: other symbols of the registry may be unreadable.  The
default registry meets them for every sequent.
-/

namespace SequentCalculus

/-! ## What occurs in a sequent -/

/-- The connectives of a formula, one for each place where it occurs. -/
def Formula.connectives : Formula → List Connective
  | .atom _ => []
  | .neg f => .not :: connectives f
  | .bin op f g => .binary op :: (connectives f ++ connectives g)

/-- The connectives of a sequent. -/
def Sequent.connectives (s : Sequent) : List Connective :=
  (s.lhs ++ s.rhs).flatMap Formula.connectives

namespace Registry

open Token

/-! ## Readable symbols -/

/-- A symbol is one token by itself: it is a name in full, or it is looked for, is no turnstile, and no
name starts it. -/
def Legible (r : Registry) (p : LooseText) : Prop :=
  LooseText.nameFront p = p ∨
    p ∈ r.operators ∧ p ∉ turnstiles ∧ LooseText.nameFront p = []

/-- The symbols that write some connectives can be read where they are written. -/
structure ReadableSymbols (r : Registry) (cs : List Connective) : Prop where
  registered : ∀ c ∈ cs, ∃ p, r.symbolFor c = .ok p
  legible : ∀ c ∈ cs, ∀ p, r.symbolFor c = .ok p → r.Legible p
  negation : .not ∈ cs → ∀ p, r.symbolFor .not = .ok p → p.isWord = false →
    ∀ q ∈ r.sought, ¬ (p <+: q ∧ p ≠ q)
  binary : ∀ op, .binary op ∈ cs → ∀ p, r.symbolFor (.binary op) = .ok p →
    ∀ q ∈ r.sought, ¬ (p ++ " " : LooseText) <+: q

/-- A separator can be read between sides in which some connectives are written. -/
structure ReadableSeparator (r : Registry) (cs : List Connective) (separator : LooseText) : Prop where
  separates : separator ∈ turnstiles ∨
    separator = arrowText ∧ ∀ c ∈ cs, r.symbolFor c ≠ .ok arrowText
  unextended : ∀ q ∈ r.sought, ¬ (separator ++ " " : LooseText) <+: q

variable {r : Registry} {cs ds : List Connective} {c : Connective} {p : LooseText} {rest : LooseText}

theorem ReadableSymbols.mono (h : r.ReadableSymbols cs) (hsub : ds ⊆ cs) : r.ReadableSymbols ds where
  registered c hc := h.registered c (hsub hc)
  legible c hc := h.legible c (hsub hc)
  negation hc := h.negation (hsub hc)
  binary op hop := h.binary op (hsub hop)

/-- One of the connectives is written by the arrow. -/
def WritesArrow (r : Registry) (cs : List Connective) : Prop :=
  ∃ c ∈ cs, r.symbolFor c = .ok arrowText

theorem WritesArrow.mono (h : r.WritesArrow ds) (hsub : ds ⊆ cs) : r.WritesArrow cs := by
  obtain ⟨c, hc, hsymbol⟩ := h
  exact ⟨c, hsub hc, hsymbol⟩

/-- Nothing but a symbol starts where no name does. -/
theorem startsSymbol_of_legible (hkept : Symbol.Kept p) (hname : LooseText.nameFront p = []) :
    ∀ c, p.head? = some c → StartsSymbol c := by
  intro c hc
  obtain ⟨c', cs, hcs⟩ := List.exists_cons_of_ne_nil hkept.ne_nil
  rw [hcs] at hc hname
  obtain rfl := Option.some.inj hc
  refine ⟨hkept.start c' (by rw [hcs]; rfl), hkept.unpunctuated c' (by simp [hcs]), ?_⟩
  rw [← Bool.not_eq_true]
  intro hstart
  rw [LooseText.nameFront, if_pos hstart] at hname
  cases hname

/-- **A legible symbol is read as its connective** in front of what neither continues it as a name nor
makes it part of a longer symbol. -/
theorem spells_of_legible (hp : (p, c) ∈ r.entries) (hlegible : r.Legible p)
    (hword : Text.Stops Text.Code.isWordChar p rest)
    (hprime : LooseText.nameFront p = p → rest.head? ≠ some (.char '\''))
    (hlongest : p ∈ r.operators → ∀ q ∈ r.sought, q <+: p ++ rest →
      q.length ≤ p.length) :
    Spells r p [⟨.connective c, p⟩] rest := by
  have hkept : Symbol.Kept p := kept_of_mem_keys (List.mem_map_of_mem hp)
  have hlookup := lookup?_of_mem_entries hp
  rcases hlegible with hname | ⟨hoperator, hturnstile, hname⟩
  · have hspells := spells_name (r := r) hkept.ne_nil hname hword (hprime hname)
    rwa [ofName, hlookup] at hspells
  · have hspells := spells_symbol (mem_symbols.2 (Or.inl hoperator))
      (startsSymbol_of_legible hkept hname)
      (fun q hq => hlongest hoperator q (mem_sought.2 hq))
    rwa [ofSymbol, if_neg hturnstile, hlookup] at hspells

/-- A binary symbol in front of a blank. -/
theorem ReadableSymbols.spells_binary (h : r.ReadableSymbols cs) {op : BinaryConnective}
    (hop : .binary op ∈ cs) (hp : r.symbolFor (.binary op) = .ok p) (rest : LooseText) :
    Spells r p [⟨.connective (.binary op), p⟩] (.char ' ' :: rest) := by
  have hends := LooseText.endsName_blank rest
  refine spells_of_legible (mem_entries_of_symbolFor hp) (h.legible _ hop p hp) (hends.stops _)
    (fun _ => hends.head?_ne) ?_
  intro _ q hq hfits
  exact length_le_of_not_extends_blank (h.binary op hop p hp q hq) hfits

theorem exists_not_isWordChar (hne : p ≠ []) (h : p.isWord = false) :
    ∃ c ∈ p, c.isWordChar = false := by
  rw [← Bool.not_eq_true, LooseText.isWord_iff] at h
  obtain ⟨c, hc⟩ := not_forall.1 fun hall => h ⟨hne, hall⟩
  obtain ⟨hmem, hfalse⟩ := Classical.not_imp.1 hc
  exact ⟨c, hmem, Bool.eq_false_iff.2 hfalse⟩

/-- What the writer puts in front of a negated formula. -/
def negationText (p : LooseText) : LooseText := p ++ (if p.isWord then " " else "")

/-- A negation in front of its operand.  A word is closed off by a blank; any other name ends in a
prime, so that only another prime could continue it. -/
theorem ReadableSymbols.spells_negation (h : r.ReadableSymbols cs) (hnot : .not ∈ cs)
    (hp : r.symbolFor .not = .ok p) {text : LooseText}
    (hstart : text.head? = some (.char '\'') → p.head? = some (.char '\''))
    (hrest : LooseText.EndsName rest) :
    Spells r (negationText p) [⟨.connective .not, p⟩] (text ++ rest) := by
  have hlegible := h.legible _ hnot p hp
  have hentry := mem_entries_of_symbolFor hp
  have hkept := kept_of_mem_keys (mem_keys_of_symbolFor hp)
  by_cases hword : p.isWord = true
  · have hends := LooseText.endsName_blank (text ++ rest)
    have hspells : Spells r p [⟨.connective .not, p⟩] ([.char ' '] ++ (text ++ rest)) := by
      refine spells_of_legible hentry hlegible (hends.stops _) (fun _ => hends.head?_ne) ?_
      intro hoperator
      rw [(mem_operators.1 hoperator).2] at hword
      cases hword
    have hchars : negationText p = p ++ [.char ' '] := by
      rw [negationText, if_pos hword]
      rfl
    rw [hchars]
    exact hspells.append (spells_blank (by decide))
  · have hsymbol : p.isWord = false := Bool.eq_false_iff.2 hword
    have hchars : negationText p = p := by
      rw [negationText, if_neg hword]
      exact List.append_nil p
    rw [hchars]
    refine spells_of_legible hentry hlegible
      (Or.inl (exists_not_isWordChar hkept.ne_nil hsymbol)) ?_ ?_
    · intro hname hprime
      rw [List.head?_append] at hprime
      match htext : text.head? with
      | none =>
        rw [htext, Option.none_or] at hprime
        exact hrest.head?_ne hprime
      | some c =>
        rw [htext, Option.some_or] at hprime
        exact LooseText.head?_ne_prime hname (hstart (htext.trans hprime))
    · intro _ q hq hfits
      exact length_le_of_not_extends (h.negation hnot p hp hsymbol q hq) hfits

/-! ## Written formulas -/

theorem connectives_subset_bin (op : BinaryConnective) (f g : Formula) :
    f.connectives ⊆ (Formula.bin op f g).connectives ∧
      g.connectives ⊆ (Formula.bin op f g).connectives :=
  ⟨List.subset_cons_of_subset _ (List.subset_append_left _ _),
    List.subset_cons_of_subset _ (List.subset_append_right _ _)⟩

/-- A text with its tokens is what the writer makes of a formula, and can be read. -/
structure WrittenAs (r : Registry) (nested : Bool) (f : Formula) (text : LooseText) (ts : List Token) :
    Prop where
  written : r.writeFormula nested f = .ok text
  phrase : Phrase r (if nested then .not else .iff) f text ts
  start : text.head? = some (.char '\'') →
    ∃ p, r.symbolFor .not = .ok p ∧ p.head? = some (.char '\'')
  arrows : ∀ t ∈ ts, Sequent.IsArrow t → r.WritesArrow f.connectives

theorem phrase_of_not {nested : Bool} {f : Formula} {text : LooseText} {ts : List Token}
    (h : Phrase r .not f text ts) : Phrase r (if nested then .not else .iff) f text ts := by
  match nested with
  | true => exact h
  | false => exact h.lift

theorem not_isArrow_atom {name : LooseText} (h : LooseText.nameFront name = name) :
    ¬ Sequent.IsArrow ⟨.atom, name⟩ := by
  rintro ⟨rfl, -, -⟩
  exact absurd h (by decide +kernel)

theorem writtenAs_atom {nested : Bool} {name : String} (h : scan r name = .ok [⟨.atom, name⟩]) :
    r.WrittenAs nested (.atom name) name [⟨.atom, name⟩] := by
  obtain ⟨-, hname, -⟩ := of_scan_eq_atom h
  refine ⟨rfl, phrase_of_not (Phrase.atom h), fun hhead => ?_, fun t ht harrow => ?_⟩
  · exact absurd hhead (LooseText.head?_ne_prime hname)
  · obtain rfl := List.mem_singleton.1 ht
    exact absurd harrow (not_isArrow_atom hname)

theorem writtenAs_neg {nested : Bool} {f : Formula} {text : LooseText} {ts : List Token}
    (h : r.ReadableSymbols (.neg f : Formula).connectives) (hp : r.symbolFor .not = .ok p)
    (hf : r.WrittenAs true f text ts) :
    r.WrittenAs nested (.neg f) (negationText p ++ text) (⟨.connective .not, p⟩ :: ts) := by
  have hnot : .not ∈ (.neg f : Formula).connectives := List.mem_cons_self ..
  have hstart : text.head? = some (.char '\'') → p.head? = some (.char '\'') := by
    intro hhead
    obtain ⟨p', hp', hprime⟩ := hf.start hhead
    obtain rfl := Except.ok.inj (hp'.symm.trans hp)
    exact hprime
  refine ⟨?_, ?_, fun hhead => ⟨p, hp, ?_⟩, fun t ht harrow => ?_⟩
  · rw [writeFormula, hp, hf.written]
    rfl
  · exact phrase_of_not (Phrase.neg rfl
      (fun rest hrest => h.spells_negation hnot hp hstart hrest) hf.phrase)
  · obtain ⟨c, cs, hcs⟩ :=
      List.exists_cons_of_ne_nil (kept_of_mem_keys (mem_keys_of_symbolFor hp)).ne_nil
    rw [negationText, hcs] at hhead
    rw [hcs]
    exact hhead
  · rcases List.mem_cons.1 ht with rfl | ht
    · exact ⟨.not, hnot, hp.trans (congrArg Except.ok harrow.1)⟩
    · exact (hf.arrows t ht harrow).mono (List.subset_cons_self _ _)

theorem writtenAs_bin {op : BinaryConnective} {f g : Formula} {left right : LooseText}
    {ls rs : List Token} (h : r.ReadableSymbols (.bin op f g : Formula).connectives)
    (hp : r.symbolFor (.binary op) = .ok p) (hf : r.WrittenAs true f left ls)
    (hg : r.WrittenAs true g right rs) :
    r.WrittenAs false (.bin op f g) (left ++ " " ++ p ++ " " ++ right)
      (ls ++ ⟨.connective (.binary op), p⟩ :: rs) := by
  have hop : .binary op ∈ (.bin op f g : Formula).connectives := List.mem_cons_self ..
  obtain ⟨hleft, hright⟩ := connectives_subset_bin op f g
  refine ⟨?_, ?_, fun hhead => ?_, fun t ht harrow => ?_⟩
  · rw [writeFormula, hp, hf.written, hg.written]
    rfl
  · exact Phrase.bin hf.phrase rfl (h.spells_binary hop hp) hg.phrase
  · match left with
    | [] => exact absurd (Option.some.inj hhead) (by decide)
    | c :: cs => exact hf.start hhead
  · rcases List.mem_append.1 ht with ht | ht
    · exact (hf.arrows t ht harrow).mono hleft
    · rcases List.mem_cons.1 ht with rfl | ht
      · exact ⟨.binary op, hop, hp.trans (congrArg Except.ok harrow.1)⟩
      · exact (hg.arrows t ht harrow).mono hright

/-- A nested binary formula is the same formula in parentheses. -/
theorem writeFormula_nested (op : BinaryConnective) (f g : Formula) :
    r.writeFormula true (.bin op f g) =
      (r.writeFormula false (.bin op f g)).map fun text : LooseText => "(" ++ text ++ ")" := by
  rw [writeFormula, writeFormula]
  match r.symbolFor (.binary op), r.writeFormula true f, r.writeFormula true g with
  | .error _, _, _ => rfl
  | .ok _, .error _, _ => rfl
  | .ok _, .ok _, .error _ => rfl
  | .ok _, .ok _, .ok _ => rfl

theorem writtenAs_parens {op : BinaryConnective} {f g : Formula} {text : LooseText} {ts : List Token}
    (h : r.WrittenAs false (.bin op f g) text ts) :
    r.WrittenAs true (.bin op f g) ("(" ++ text ++ ")")
      (⟨.opening, "("⟩ :: (ts ++ [⟨.closing, ")"⟩])) := by
  refine ⟨?_, Phrase.parens h.phrase, fun hhead => ?_, fun t ht harrow => ?_⟩
  · rw [writeFormula_nested, h.written]
    rfl
  · exact absurd (Option.some.inj hhead) (by decide)
  · rcases List.mem_cons.1 ht with rfl | ht
    · exact absurd rfl harrow.2.1
    · rcases List.mem_append.1 ht with ht | ht
      · exact h.arrows t ht harrow
      · obtain rfl := List.mem_singleton.1 ht
        exact absurd rfl harrow.2.2

/-- **Every formula in readable symbols is written, and its text can be read.** -/
theorem exists_writtenAs (f : Formula) : ∀ nested : Bool, r.ReadableSymbols f.connectives →
    (∀ n ∈ f.atoms, scan r n = .ok [⟨.atom, n⟩]) → ∃ text ts, r.WrittenAs nested f text ts := by
  induction f with
  | atom name =>
    intro nested _ hatoms
    exact ⟨_, _, writtenAs_atom (hatoms name (List.mem_singleton.2 rfl))⟩
  | neg f ih =>
    intro nested hsymbols hatoms
    obtain ⟨p, hp⟩ := hsymbols.registered .not (List.mem_cons_self ..)
    have hf : r.ReadableSymbols f.connectives := hsymbols.mono (List.subset_cons_self _ _)
    obtain ⟨text, ts, htext⟩ := ih true hf fun n hn =>
      hatoms n (mem_appendNew.2 (Or.inr hn))
    exact ⟨_, _, writtenAs_neg hsymbols hp htext⟩
  | bin op f g ihf ihg =>
    intro nested hsymbols hatoms
    obtain ⟨p, hp⟩ := hsymbols.registered (.binary op) (List.mem_cons_self ..)
    obtain ⟨hf, hg⟩ := connectives_subset_bin op f g
    obtain ⟨left, ls, hleft⟩ := ihf true (hsymbols.mono hf) fun n hn =>
      hatoms n (mem_appendNew.2 (Or.inl (mem_appendNew.2 (Or.inr hn))))
    obtain ⟨right, rs, hright⟩ := ihg true (hsymbols.mono hg) fun n hn =>
      hatoms n (mem_appendNew.2 (Or.inr hn))
    have hbin := writtenAs_bin hsymbols hp hleft hright
    match nested with
    | false => exact ⟨_, _, hbin⟩
    | true => exact ⟨_, _, writtenAs_parens hbin⟩

/-! ## Written sides and sequents -/

theorem writeFormulas_ne_nil {f : Formula} {fs : List Formula} {texts : List LooseText}
    (h : r.writeFormulas (f :: fs) = .ok texts) : texts ≠ [] := by
  rw [writeFormulas] at h
  match hf : r.writeFormula false f, hfs : r.writeFormulas fs with
  | .error _, _ => rw [hf] at h; cases h
  | .ok _, .error _ => rw [hf, hfs] at h; cases h
  | .ok text, .ok rest =>
    rw [hf, hfs] at h
    obtain rfl := Except.ok.inj h
    exact List.cons_ne_nil text rest

theorem writeSide_singleton (f : Formula) : r.writeSide [f] = r.writeFormula false f := by
  rw [writeSide, writeFormulas, writeFormulas]
  match r.writeFormula false f with
  | .error _ => rfl
  | .ok text => exact congrArg Except.ok List.intercalate_singleton

/-- A side of two formulas or more is its first formula, a comma and the rest. -/
theorem writeSide_cons {f g : Formula} {gs : List Formula} {text texts : LooseText}
    (hf : r.writeFormula false f = .ok text) (hgs : r.writeSide (g :: gs) = .ok texts) :
    r.writeSide (f :: g :: gs) = .ok (text ++ ", " ++ texts) := by
  obtain ⟨parts, hparts, rfl⟩ := exists_of_map_eq_ok hgs
  rw [writeSide, writeFormulas, hf, hparts,
    ← List.intercalate_cons_of_ne_nil (writeFormulas_ne_nil hparts)]
  rfl

theorem exists_writeSide : ∀ fs : List Formula,
    r.ReadableSymbols (fs.flatMap Formula.connectives) →
    (∀ f ∈ fs, ∀ n ∈ f.atoms, scan r n = .ok [⟨.atom, n⟩]) →
    ∃ text ts, r.writeSide fs = .ok text ∧ SidePhrase r fs text ts ∧
      ∀ t ∈ ts, Sequent.IsArrow t → r.WritesArrow (fs.flatMap Formula.connectives)
  | [], _, _ => ⟨[], [], rfl, SidePhrase.nil, fun t ht => absurd ht List.not_mem_nil⟩
  | f :: fs, hsymbols, hatoms => by
    obtain ⟨hf, hfs⟩ := List.forall_mem_cons.1 hatoms
    rw [List.flatMap_cons] at hsymbols ⊢
    obtain ⟨text, ts, htext⟩ := exists_writtenAs f false
      (hsymbols.mono (List.subset_append_left _ _)) hf
    obtain ⟨texts, us, hside, hphrase, harrows⟩ := exists_writeSide fs
      (hsymbols.mono (List.subset_append_right _ _)) hfs
    have hfirst : ∀ t ∈ ts, Sequent.IsArrow t →
        r.WritesArrow (f.connectives ++ fs.flatMap Formula.connectives) := fun t ht harrow =>
      (htext.arrows t ht harrow).mono (List.subset_append_left _ _)
    match fs with
    | [] => exact ⟨text, ts, by rw [writeSide_singleton, htext.written],
        SidePhrase.one htext.phrase, hfirst⟩
    | g :: gs =>
      refine ⟨text ++ ", " ++ texts, ts ++ ⟨.comma, ","⟩ :: us, ?_,
        SidePhrase.cons htext.phrase hphrase (List.cons_ne_nil g gs), ?_⟩
      · exact writeSide_cons htext.written hside
      · intro t ht harrow
        rcases List.mem_append.1 ht with ht | ht
        · exact hfirst t ht harrow
        · rcases List.mem_cons.1 ht with rfl | ht
          · exact absurd harrow (by decide)
          · exact (harrows t ht harrow).mono (List.subset_append_right _ _)

/-- The separator in front of a blank. -/
theorem ReadableSeparator.spells {separator : LooseText} (h : r.ReadableSeparator cs separator)
    (rest : LooseText) : Spells r separator [ofSymbol r separator] (.char ' ' :: rest) := by
  have hmem : separator ∈ turnstiles ++ [arrowText] := by
    rw [List.mem_append, List.mem_singleton]
    exact h.separates.imp_right And.left
  have hsymbol : separator ∈ symbols r :=
    mem_sought.1 (List.mem_append_right _ hmem)
  have hall : ∀ s ∈ turnstiles ++ [arrowText], LooseText.nameFront s = [] := by decide +kernel
  refine spells_symbol hsymbol
    (startsSymbol_of_legible (kept_of_mem_symbols hsymbol) (hall separator hmem)) ?_
  intro q hq hfits
  exact length_le_of_not_extends_blank (h.unextended q (mem_sought.2 hq)) hfits

/-- The token of a separator cuts the sequent, an arrow only where no connective is written by it. -/
theorem ReadableSeparator.cuts {separator : LooseText} (h : r.ReadableSeparator cs separator)
    (ts : List Token)
    (harrows : ∀ t ∈ ts, Sequent.IsArrow t → r.WritesArrow cs) :
    (ofSymbol r separator).tag = .turnstile ∨
      Sequent.IsArrow (ofSymbol r separator) ∧ (ofSymbol r separator).tag ≠ .turnstile ∧
        ∀ t ∈ ts, ¬ Sequent.IsArrow t := by
  rcases h.separates with hturnstile | ⟨rfl, hfree⟩
  · left
    rw [ofSymbol, if_pos hturnstile]
  · right
    have hfree' : ∀ t ∈ ts, ¬ Sequent.IsArrow t := by
      intro t ht harrow
      obtain ⟨c, hc, hsymbol⟩ := harrows t ht harrow
      exact hfree c hc hsymbol
    have hne : arrowText ∉ turnstiles := by decide
    rw [ofSymbol, if_neg hne]
    split
    · exact ⟨⟨rfl, by simp, by simp⟩, by simp, hfree'⟩
    · exact ⟨⟨rfl, by simp, by simp⟩, by simp, hfree'⟩

/-- **What is written in readable symbols around a readable separator is read back.** -/
theorem exists_ofText_eq {separator : LooseText} {s : Sequent}
    (hsymbols : r.ReadableSymbols s.connectives)
    (hseparator : r.ReadableSeparator s.connectives separator)
    (hatoms : ∀ n ∈ s.atoms, scan r n = .ok [⟨.atom, n⟩]) :
    ∃ text, r.writeSequentWith separator s = .ok text ∧ Sequent.ofText r text = .ok s := by
  have hformulas : ∀ f ∈ s.lhs ++ s.rhs, ∀ n ∈ f.atoms, scan r n = .ok [⟨.atom, n⟩] :=
    fun f hf n hn => hatoms n (Sequent.mem_atoms.2 ⟨f, hf, hn⟩)
  have hsplit : s.connectives =
      s.lhs.flatMap Formula.connectives ++ s.rhs.flatMap Formula.connectives := List.flatMap_append
  rw [hsplit] at hsymbols hseparator
  obtain ⟨left, ls, hleft, hl, harrows⟩ := exists_writeSide s.lhs
    (hsymbols.mono (List.subset_append_left _ _))
    fun f hf => hformulas f (List.mem_append_left _ hf)
  obtain ⟨right, rs, hright, hr, -⟩ := exists_writeSide s.rhs
    (hsymbols.mono (List.subset_append_right _ _))
    fun f hf => hformulas f (List.mem_append_right _ hf)
  have hcuts := hseparator.cuts ls fun t ht harrow =>
    (harrows t ht harrow).mono (List.subset_append_left _ _)
  refine ⟨(left ++ " " ++ separator ++ " " ++ right : LooseText).trim, ?_,
    ofText_of_sidePhrases hl hseparator.spells hcuts hr⟩
  rw [writeSequentWith, hleft, hright]
  rfl

/-- Symbols that are known by name are readable if the named symbols are. -/
theorem readableSymbols_of_names (name : Connective → LooseText)
    (hname : ∀ c ∈ cs, r.symbolFor c = .ok (name c)) (hlegible : ∀ c ∈ cs, r.Legible (name c))
    (hnegation : (name .not).isWord = false →
      ∀ q ∈ r.sought, ¬ (name .not <+: q ∧ name .not ≠ q))
    (hbinary : ∀ op, .binary op ∈ cs →
      ∀ q ∈ r.sought, ¬ (name (.binary op) ++ " " : LooseText) <+: q) :
    r.ReadableSymbols cs where
  registered c hc := ⟨name c, hname c hc⟩
  legible c hc p hp := by
    obtain rfl := Except.ok.inj (hp.symm.trans (hname c hc))
    exact hlegible c hc
  negation hc p hp := by
    obtain rfl := Except.ok.inj (hp.symm.trans (hname .not hc))
    exact hnegation
  binary op hop p hp := by
    obtain rfl := Except.ok.inj (hp.symm.trans (hname _ hop))
    exact hbinary op hop

/-! ## The default registry -/

/-- The symbol that the default registry writes for a connective. -/
def defaultSymbol : Connective → LooseText
  | .not => "~"
  | .binary .and => "&"
  | .binary .or => "|"
  | .binary .implies => "=>"
  | .binary .iff => "<=>"

theorem symbolFor_default : ∀ c, Registry.default.symbolFor c = .ok (defaultSymbol c)
  | .not => rfl
  | .binary .and => rfl
  | .binary .or => rfl
  | .binary .implies => rfl
  | .binary .iff => rfl

instance (r : Registry) (p : LooseText) : Decidable (r.Legible p) := inferInstanceAs (Decidable (_ ∨ _))

theorem readableSymbols_default (cs : List Connective) : Registry.default.ReadableSymbols cs := by
  have hlegible : ∀ c ∈ Connective.all, Registry.default.Legible (defaultSymbol c) := by
    decide +kernel
  have hbinary : ∀ c ∈ Connective.all, ∀ q ∈ Registry.default.sought,
      ¬ (defaultSymbol c ++ " " : LooseText) <+: q := by
    decide +kernel
  refine readableSymbols_of_names defaultSymbol (fun c _ => symbolFor_default c)
    (fun c _ => hlegible c (Connective.mem_all c)) (fun _ => ?_)
    (fun op _ => hbinary _ (Connective.mem_all _))
  decide +kernel

theorem readableSeparator_default (cs : List Connective) :
    Registry.default.ReadableSeparator cs arrowText := by
  refine ⟨Or.inr ⟨rfl, fun c _ harrow => ?_⟩, by decide +kernel⟩
  have hne : ∀ c ∈ Connective.all, defaultSymbol c ≠ arrowText := by decide
  rw [symbolFor_default] at harrow
  exact hne c (Connective.mem_all c) (Except.ok.inj harrow)

/-- **Writing and reading are inverse for every readable registry**: a sequent whose connectives have
readable symbols, whose atoms are names and whose separator is readable is written, and its text is
read back as the sequent.  The default registry with an arrow is readable for every sequent. -/
theorem ofText_writeSequentWith :
    (∀ (r : Registry) (separator : LooseText) (s : Sequent), r.ReadableSymbols s.connectives →
      r.ReadableSeparator s.connectives separator →
      (∀ n ∈ s.atoms, scan r n = .ok [⟨.atom, n⟩]) →
      ∃ text, r.writeSequentWith separator s = .ok text ∧ Sequent.ofText r text = .ok s) ∧
    ∀ s : Sequent, Registry.default.ReadableSymbols s.connectives ∧
      Registry.default.ReadableSeparator s.connectives "->" :=
  ⟨fun _ _ _ hsymbols hseparator hatoms => exists_ofText_eq hsymbols hseparator hatoms,
    fun s => ⟨readableSymbols_default s.connectives, readableSeparator_default s.connectives⟩⟩

/-- A registry whose negation is a name with a prime, whose conjunction is a word and whose implication
is the arrow. -/
def primed : Registry where
  table := ⟨[("v'", .not), ("et", .binary .and), ("->", .binary .implies)], by decide⟩
  accepted := by
    have h : ∀ s ∈ (["v'", "et", "->"] : List LooseText), (Symbol.accept s).toOption = some s := by
      decide +kernel
    exact fun s hs => ⟨s, eq_ok_of_toOption (h s hs)⟩

/-- The symbol that it writes for a connective, if it has one. -/
def primedSymbol : Connective → LooseText
  | .not => "v'"
  | .binary .and => "et"
  | .binary _ => "->"

/-- A sequent in which a negation stands in front of a negation and an arrow is no separator. -/
def primedSequent : Sequent :=
  ⟨[.neg (.neg (.bin .and (.atom "A") (.atom "B")))], [.bin .implies (.atom "A") (.neg (.atom "B"))]⟩

theorem ofText_writeSequentWith_primed :
    ∃ text, primed.writeSequentWith "|-" primedSequent = .ok text ∧
      Sequent.ofText primed text = .ok primedSequent := by
  refine ofText_writeSequentWith.1 primed "|-" primedSequent ?_ ?_ ?_
  · have hbinary : ∀ c ∈ primedSequent.connectives, ∀ q ∈ primed.sought,
        ¬ (primedSymbol c ++ " " : LooseText) <+: q := by
      decide +kernel
    refine readableSymbols_of_names primedSymbol (fun c hc => ?_) (by decide +kernel)
      (fun _ => by decide +kernel) (fun op hop => hbinary _ hop)
    have hc' : c = .not ∨ c = .binary .and ∨ c = .binary .implies := by
      revert c
      decide
    rcases hc' with rfl | rfl | rfl <;> rfl
  · exact ⟨Or.inl (by decide), by decide +kernel⟩
  · have hatoms : ∀ n ∈ primedSequent.atoms, (scan primed n).toOption = some [⟨.atom, n⟩] := by
      decide +kernel
    exact fun n hn => eq_ok_of_toOption (hatoms n hn)

end Registry

end SequentCalculus
