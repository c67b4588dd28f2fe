import SequentCalculus.Proofs.Calculus.Subformulas
import SequentCalculus.Proofs.Reading.Format
import SequentCalculus.Proofs.Reading.Scanning

/-!
# Proofs/Reading/Provenance — what a sequent is made of stands in the tokens it was read from

A production of the grammar puts phrases together and adds at most one token.  So what a formula is
made of can be found again in the tokens of its phrase, and from phrases this carries over to sides
and sequents (`Sequent.stand_of_ofTokens`).  For the atoms it means that each is the name of a token
(`Formula.Derives.atoms_stand`); and a scanner makes an atom of a name only, so the atoms of a text
are names (`Sequent.nameFront_of_mem_atoms`).
-/

namespace SequentCalculus

/-! ## What stands in tokens -/

/-- Each of the items stands in one of the tokens, in a given sense. -/
def Token.Stand {α : Type} (within : Token → α → Prop) (ts : List Token) (items : List α) : Prop :=
  ∀ a ∈ items, ∃ t ∈ ts, within t a

namespace Token.Stand

variable {α : Type} {within : Token → α → Prop} {ts us : List Token} {as bs : List α}

theorem nil : Stand within ts [] := fun _ ha => nomatch ha

theorem cons {t : Token} {a : α} (ht : t ∈ ts) (ha : within t a) (h : Stand within ts as) :
    Stand within ts (a :: as) :=
  List.forall_mem_cons.2 ⟨⟨t, ht, ha⟩, h⟩

theorem append (has : Stand within ts as) (hbs : Stand within ts bs) : Stand within ts (as ++ bs) :=
  List.forall_mem_append.2 ⟨has, hbs⟩

theorem subset (h : Stand within ts as) (hsub : bs ⊆ as) : Stand within ts bs := fun b hb =>
  h b (hsub hb)

theorem mono (h : Stand within ts as) (hsub : ts ⊆ us) : Stand within us as := by
  intro a ha
  obtain ⟨t, ht, hta⟩ := h a ha
  exact ⟨t, hsub ht, hta⟩

/-- Two lists of tokens around another token. -/
theorem around (has : Stand within ts as) (t : Token) (hbs : Stand within us bs) :
    Stand within (ts ++ t :: us) (as ++ bs) :=
  (has.mono (List.subset_append_left _ _)).append
    (hbs.mono (List.subset_append_of_subset_right _ (List.subset_cons_self _ _)))

end Token.Stand

open Token

/-! ## Phrases -/

/-- The atoms of a formula are names of the tokens of its phrase. -/
theorem Formula.Derives.atoms_stand {l : Level} {ts : List Token} {f : Formula} (h : Derives l ts f) :
    Stand (fun t n => t.tag = .atom ∧ Text.strip t.text.shown = n) ts f.atoms := by
  induction h with
  | atom ht => exact .cons List.mem_cons_self ⟨ht, rfl⟩ .nil
  | parens _ _ _ ih =>
    exact ih.mono (List.subset_cons_of_subset _ (List.subset_append_left _ _))
  | neg _ _ ih => exact (ih.mono (List.subset_cons_self _ _)).subset fun n hn => mem_atoms_neg.1 hn
  | ofPrimary _ ih | ofNot _ ih | ofAnd _ ih | ofOr _ ih | ofImplies _ ih => exact ih
  | and _ _ _ ihf ihg | or _ _ _ ihf ihg | implies _ _ _ ihf ihg | iff _ _ _ ihf ihg =>
    exact (ihf.around _ ihg).subset fun n hn => List.mem_append.2 (mem_atoms_bin.1 hn)

/-! ## Sequents -/

namespace Sequent

variable {α : Type} {within : Token → α → Prop} {items : Formula → List α} {ts : List Token}
  {fs : List Formula}

theorem DerivesList.stand
    (hphrase : ∀ {l ts f}, Formula.Derives l ts f → Stand within ts (items f))
    (h : DerivesList ts fs) : Stand within ts (fs.flatMap items) := by
  induction h with
  | one hf => exact (hphrase hf).append .nil
  | cons hf _ _ ih => exact (hphrase hf).around _ ih

theorem IsSide.stand (hphrase : ∀ {l ts f}, Formula.Derives l ts f → Stand within ts (items f))
    (h : IsSide ts fs) : Stand within ts (fs.flatMap items) := by
  rcases h.derives with ⟨-, rfl⟩ | h
  · exact .nil
  · exact h.stand hphrase

/-- **What stands in the tokens of every phrase stands in the tokens of a sequent.** -/
theorem stand_of_ofTokens
    (hphrase : ∀ {l ts f}, Formula.Derives l ts f → Stand within ts (items f)) {s : Sequent}
    (h : ofTokens ts = .ok s) : Stand within ts ((s.lhs ++ s.rhs).flatMap items) := by
  obtain ⟨-, cuts, place, -, -, hsides⟩ := ofTokens_eq_ok h
  rw [List.flatMap_append]
  cases place with
  | none =>
    obtain ⟨hnil, hrhs⟩ := hsides
    rw [hnil]
    exact Stand.nil.append (hrhs.stand hphrase)
  | some place =>
    obtain ⟨hlhs, hrhs⟩ := hsides
    exact ((hlhs.stand hphrase).mono (List.take_subset _ _)).append
      ((hrhs.stand hphrase).mono (List.drop_subset _ _))

/-- An atom is cut out of a text as a name. -/
theorem exists_name_of_isCut {r : Registry} {t : Token} (h : IsCut r (symbols r) t)
    (htag : t.tag = .atom) : ∃ name : String, t.text = name ∧ LooseText.nameFront name = name := by
  cases h with
  | punctuation hc => exact absurd htag (tag_ne_atom_of_punctuation? hc)
  | @name cs _ hname =>
    obtain ⟨name, rfl⟩ := LooseText.exists_ofString_of_nameFront hname
    exact ⟨name, text_ofName _, hname⟩
  | symbol => exact absurd htag (tag_ofSymbol_ne_atom _)

/-- **The atoms of a text are names.** -/
theorem nameFront_of_mem_atoms {r : Registry} {text : LooseText} {s : Sequent}
    (h : ofText r text = .ok s) {n : String} (hn : n ∈ s.atoms) :
    LooseText.nameFront n = n := by
  obtain ⟨ts, hscan, hread⟩ := exists_of_bind_eq_ok h
  obtain ⟨f, hf, hn⟩ := mem_atoms.1 hn
  obtain ⟨t, ht, htag, rfl⟩ := stand_of_ofTokens Formula.Derives.atoms_stand hread n
    (List.mem_flatMap.2 ⟨f, hf, hn⟩)
  obtain ⟨name, htext, hname⟩ := exists_name_of_isCut (isCut_of_mem_scan hscan ht) htag
  rwa [htext, LooseText.shown_ofString, LooseText.strip_of_nameFront hname]

end Sequent

end SequentCalculus
