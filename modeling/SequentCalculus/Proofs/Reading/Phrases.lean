import SequentCalculus.Proofs.Reading.Scanning
import SequentCalculus.Proofs.Reading.Sides

/-!
# Proofs/Reading/Phrases — texts that read as a given formula

A text is a *phrase* for a formula if it is cut into tokens that the grammar derives the formula from,
whatever stands behind it, as long as that cannot continue a name.  Phrases are closed under what
writers do: put a symbol in front, a symbol between, parentheses around (`Phrase.neg`, `Phrase.bin`,
`Phrase.parens`), commas between (`SidePhrase.cons`).  A writer is shown to be readable by following its
own recursion with these rules; the reader is not looked at again:

* `ofText_of_sidePhrases` — two sides around a separator are read back as the sequent.
-/

namespace SequentCalculus

open Token

/-! ## Formulas -/

/-- The text is cut into the tokens, which are a phrase of a level for the formula. -/
structure Phrase (r : Registry) (level : Formula.Level) (f : Formula) (text : LooseText)
    (ts : List Token) : Prop where
  derives : Formula.Derives level ts f
  spells : ∀ rest, LooseText.EndsName rest → Spells r text ts rest

namespace Phrase

variable {r : Registry} {f g : Formula} {text left right : LooseText} {ts ls rs : List Token}

/-- A phrase that needs no grouping may stand alone. -/
theorem lift (h : Phrase r .not f text ts) : Phrase r .iff f text ts :=
  ⟨h.derives.lift.2.2.2, h.spells⟩

/-- A name that is scanned as an atom. -/
theorem atom {name : String} (h : scan r name = .ok [⟨.atom, name⟩]) :
    Phrase r .not (.atom name) name [⟨.atom, name⟩] := by
  obtain ⟨hne, hname, hlookup⟩ := of_scan_eq_atom h
  have htoken : ofName r name = ⟨.atom, name⟩ := by rw [ofName, hlookup]
  have hatom : Formula.ofName name = .atom name := by
    rw [Formula.ofName, LooseText.strip_of_nameFront hname]
  have hderives := Formula.Derives.ofPrimary (.atom (t := ⟨.atom, name⟩) rfl)
  rw [LooseText.shown_ofString, hatom] at hderives
  refine ⟨hderives, fun rest hrest => ?_⟩
  have hspells := spells_name (r := r) hne hname (hrest.stops _) hrest.head?_ne
  rwa [htoken] at hspells

/-- Parentheses around a phrase. -/
theorem parens (h : Phrase r .iff f text ts) :
    Phrase r .not f ("(" ++ text ++ ")") (⟨.opening, "("⟩ :: (ts ++ [⟨.closing, ")"⟩])) := by
  refine ⟨.ofPrimary (.parens rfl h.derives rfl), fun rest _ => ?_⟩
  have hclosing : LooseText.EndsName (.char ')' :: rest) :=
    LooseText.endsName_cons (by decide +kernel) rest
  have hchars : ("(" ++ text ++ ")" : LooseText) = [.char '('] ++ (text ++ [.char ')']) := by
    simp only [List.append_assoc]
    rfl
  rw [hchars]
  exact (spells_punctuation rfl).append ((h.spells _ hclosing).append (spells_punctuation rfl))

/-- A connective in front of a phrase. -/
theorem neg {front : LooseText} {t : Token} (ht : t.tag = .connective .not)
    (hfront : ∀ rest, LooseText.EndsName rest → Spells r front [t] (text ++ rest))
    (h : Phrase r .not f text ts) : Phrase r .not (.neg f) (front ++ text) (t :: ts) := by
  refine ⟨.neg ht h.derives, fun rest hrest => ?_⟩
  exact (hfront rest hrest).append (h.spells rest hrest)

/-- A connective between two phrases. -/
theorem bin {op : BinaryConnective} {symbol : LooseText} {t : Token}
    (hf : Phrase r .not f left ls) (ht : t.tag = .connective (.binary op))
    (hsymbol : ∀ rest, Spells r symbol [t] (.char ' ' :: rest)) (hg : Phrase r .not g right rs) :
    Phrase r .iff (.bin op f g) (left ++ " " ++ symbol ++ " " ++ right) (ls ++ t :: rs) := by
  refine ⟨.bin hf.derives ht hg.derives, fun rest hrest => ?_⟩
  have hchars : (left ++ " " ++ symbol ++ " " ++ right : LooseText) =
      left ++ ([.char ' '] ++ (symbol ++ ([.char ' '] ++ right))) := by
    simp only [List.append_assoc]
    rfl
  have hblank : ∀ rest, Spells r [.char ' '] [] rest := fun _ => spells_blank (by decide)
  have hright := (hblank _).append (hg.spells rest hrest)
  have hbehind := (hblank _).append ((hsymbol _).append hright)
  rw [hchars]
  exact (hf.spells _ (LooseText.endsName_blank _)).append hbehind

end Phrase

/-! ## Sides -/

/-- The text is cut into the tokens, which are a side with the formulas. -/
structure SidePhrase (r : Registry) (fs : List Formula) (text : LooseText) (ts : List Token) : Prop where
  derives : Sequent.DerivesSide ts fs
  spells : ∀ rest, LooseText.EndsName rest → Spells r text ts rest

namespace SidePhrase

variable {r : Registry} {f : Formula} {fs : List Formula} {text texts : LooseText} {ts us : List Token}

theorem nil : SidePhrase r [] "" [] := ⟨Or.inl ⟨rfl, rfl⟩, fun _ _ => Spells.nil⟩

theorem one (h : Phrase r .iff f text ts) : SidePhrase r [f] text ts :=
  ⟨Or.inr (.one h.derives), h.spells⟩

/-- A comma behind the first formula of a side. -/
theorem cons (h : Phrase r .iff f text ts) (hfs : SidePhrase r fs texts us) (hne : fs ≠ []) :
    SidePhrase r (f :: fs) (text ++ ", " ++ texts) (ts ++ ⟨.comma, ","⟩ :: us) := by
  have hlist : Sequent.DerivesList us fs := hfs.derives.resolve_left fun hnil => hne hnil.2
  refine ⟨Or.inr (.cons h.derives rfl hlist), fun rest hrest => ?_⟩
  have hchars : (text ++ ", " ++ texts : LooseText) =
      text ++ ([.char ','] ++ ([.char ' '] ++ texts)) := by
    simp only [List.append_assoc]
    rfl
  have hcomma : ∀ rest, LooseText.EndsName (.char ',' :: rest) :=
    LooseText.endsName_cons (by decide +kernel)
  have hbehind := (spells_blank (r := r) (c := .char ' ') (by decide)).append (hfs.spells rest hrest)
  rw [hchars]
  exact (h.spells _ (hcomma _)).append ((spells_punctuation rfl).append hbehind)

end SidePhrase

/-! ## Sequents -/

/-- **Two sides around a separator are read back as the sequent**: at a turnstile always, at an arrow
if none stands on the left. -/
theorem ofText_of_sidePhrases {r : Registry} {L R : List Formula} {left right separator : LooseText}
    {l m : List Token} {t : Token} (hl : SidePhrase r L left l)
    (hseparator : ∀ rest, Spells r separator [t] (.char ' ' :: rest))
    (ht : t.tag = .turnstile ∨
      Sequent.IsArrow t ∧ t.tag ≠ .turnstile ∧ ∀ u ∈ l, ¬ Sequent.IsArrow u)
    (hr : SidePhrase r R right m) :
    Sequent.ofText r (left ++ " " ++ separator ++ " " ++ right : LooseText).trim = .ok ⟨L, R⟩ := by
  have hchars : (left ++ " " ++ separator ++ " " ++ right : LooseText) =
      left ++ ([.char ' '] ++ (separator ++ ([.char ' '] ++ right))) := by
    simp only [List.append_assoc]
    rfl
  have hblank : ∀ rest, Spells r [.char ' '] [] rest := fun _ => spells_blank (by decide)
  have hright := (hblank _).append (hr.spells [] LooseText.endsName_nil)
  have hbehind := (hblank _).append ((hseparator _).append hright)
  have hspells := (hl.spells _ (LooseText.endsName_blank _)).append hbehind
  rw [← hchars] at hspells
  have hscan : scan r (left ++ " " ++ separator ++ " " ++ right : LooseText).trim =
      .ok (l ++ t :: m) := by
    rw [scan_trim]
    exact hspells.scan
  have hread : Sequent.ofTokens (l ++ t :: m) = .ok ⟨L, R⟩ := by
    rcases ht with ht | ⟨harrow, hne, hfree⟩
    · exact Sequent.ofTokens_of_turnstile hl.derives ht hr.derives
    · exact Sequent.ofTokens_of_arrow hl.derives (fun u hu => hfree u (mem_of_mem_outside hu)) harrow
        hne hr.derives
  rw [Sequent.ofText, hscan]
  exact hread

end SequentCalculus
