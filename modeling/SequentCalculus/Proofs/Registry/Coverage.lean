import SequentCalculus.Proofs.Reading.Provenance
import SequentCalculus.Proofs.Reading.RoundTrip

/-!
# Proofs/Registry/Coverage — what a registry reads, it writes

A registry need not have a symbol for every connective, and a sequent with a connective that has none
cannot be written.  A text brings in a connective by a symbol of the registry only, so the sequent
that is read is *covered* (`covers_of_ofText`), and so is all that lies within it.  Hence the whole
derivation can be written (`exists_writeSequentWith_of_mem_nodes`).
-/

namespace SequentCalculus

theorem Formula.Subformula.connectives_subset {f g : Formula} (h : f.Subformula g) :
    f.connectives ⊆ g.connectives := by
  induction h with
  | refl f => exact List.Subset.refl _
  | neg _ ih => exact List.subset_cons_of_subset _ ih
  | left _ ih => exact List.Subset.trans ih (Registry.connectives_subset_bin _ _ _).1
  | right _ ih => exact List.Subset.trans ih (Registry.connectives_subset_bin _ _ _).2

theorem Sequent.IsWithin.connectives_subset {t s : Sequent} (h : t.IsWithin s) :
    t.connectives ⊆ s.connectives := by
  intro c hc
  obtain ⟨f, hf, hcf⟩ := List.mem_flatMap.1 hc
  obtain ⟨g, hg, hfg⟩ := h f hf
  exact List.mem_flatMap.2 ⟨g, hg, hfg.connectives_subset hcf⟩

/-! ## Connectives come from tokens -/

open Token

/-- The connectives of a formula are tags of the tokens of its phrase. -/
theorem Formula.Derives.connectives_stand {l : Level} {ts : List Token} {f : Formula}
    (h : Derives l ts f) : Stand (fun t c => t.tag = .connective c) ts f.connectives := by
  induction h with
  | atom _ => exact .nil
  | parens _ _ _ ih =>
    exact ih.mono (List.subset_cons_of_subset _ (List.subset_append_left _ _))
  | neg ht _ ih => exact .cons List.mem_cons_self ht (ih.mono (List.subset_cons_self _ _))
  | ofPrimary _ ih | ofNot _ ih | ofAnd _ ih | ofOr _ ih | ofImplies _ ih => exact ih
  | and _ ht _ ihf ihg | or _ ht _ ihf ihg | implies _ ht _ ihf ihg | iff _ ht _ ihf ihg =>
    exact .cons (List.mem_append_right _ List.mem_cons_self) ht (ihf.around _ ihg)

/-! ## Covered connectives -/

namespace Registry

variable {r : Registry} {cs ds : List Connective}

/-- The registry has a symbol for each of the connectives. -/
def Covers (r : Registry) (cs : List Connective) : Prop :=
  ∀ c ∈ cs, ∃ p, r.symbolFor c = .ok p

theorem Covers.mono (h : r.Covers cs) (hsub : ds ⊆ cs) : r.Covers ds := fun c hc => h c (hsub hc)

/-- **What is read from a text is covered.** -/
theorem covers_of_ofText {text : LooseText} {s : Sequent} (h : Sequent.ofText r text = .ok s) :
    r.Covers s.connectives := by
  obtain ⟨ts, hscan, hread⟩ := exists_of_bind_eq_ok h
  intro c hc
  obtain ⟨t, ht, htag⟩ :=
    Sequent.stand_of_ofTokens Formula.Derives.connectives_stand hread c hc
  exact exists_symbolFor_of_lookup? (Token.lookup?_of_scan hscan ht htag)

/-! ## What is covered can be written -/

theorem exists_writeFormula {f : Formula} (h : r.Covers f.connectives) (nested : Bool) :
    ∃ text, r.writeFormula nested f = .ok text := by
  induction f generalizing nested with
  | atom name => exact ⟨name, rfl⟩
  | neg f ih =>
    obtain ⟨p, hp⟩ := h .not List.mem_cons_self
    obtain ⟨inner, hinner⟩ := ih (h.mono (List.subset_cons_self _ _)) true
    rw [writeFormula, hp, hinner]
    exact ⟨_, rfl⟩
  | bin op f g ihf ihg =>
    obtain ⟨hf, hg⟩ := connectives_subset_bin op f g
    obtain ⟨p, hp⟩ := h (.binary op) List.mem_cons_self
    obtain ⟨left, hleft⟩ := ihf (h.mono hf) true
    obtain ⟨right, hright⟩ := ihg (h.mono hg) true
    rw [writeFormula, hp, hleft, hright]
    exact ⟨_, rfl⟩

theorem exists_writeFormulas {fs : List Formula} (h : r.Covers (fs.flatMap Formula.connectives)) :
    ∃ texts, r.writeFormulas fs = .ok texts := by
  induction fs with
  | nil => exact ⟨[], rfl⟩
  | cons f fs ih =>
    obtain ⟨text, htext⟩ := exists_writeFormula (h.mono (List.subset_append_left _ _)) false
    obtain ⟨texts, htexts⟩ := ih (h.mono (List.subset_append_right _ _))
    rw [writeFormulas, htext, htexts]
    exact ⟨_, rfl⟩

theorem exists_writeSequentWith {s : Sequent} (h : r.Covers s.connectives) (separator : LooseText) :
    ∃ text, r.writeSequentWith separator s = .ok text := by
  rw [Sequent.connectives, List.flatMap_append] at h
  obtain ⟨lhs, hlhs⟩ := exists_writeFormulas (h.mono (List.subset_append_left _ _))
  obtain ⟨rhs, hrhs⟩ := exists_writeFormulas (h.mono (List.subset_append_right _ _))
  rw [writeSequentWith, writeSide, writeSide, hlhs, hrhs]
  exact ⟨_, rfl⟩

/-- **Every node of the derivation of a sequent that was read can be written**, with any separator. -/
theorem exists_writeSequentWith_of_mem_nodes {text : LooseText} {s : Sequent}
    (h : Sequent.ofText r text = .ok s) {n : Derivation} (hn : n ∈ s.prove.nodes)
    (separator : LooseText) : ∃ written, r.writeSequentWith separator n.sequent = .ok written :=
  exists_writeSequentWith
    ((covers_of_ofText h).mono (Sequent.isWithin_of_mem_nodes hn).connectives_subset) separator

theorem exists_writeSequent_of_mem_nodes {text : LooseText} {s : Sequent}
    (h : Sequent.ofText r text = .ok s) {n : Derivation} (hn : n ∈ s.prove.nodes) :
    ∃ written, r.writeSequent n.sequent = .ok written :=
  exists_writeSequentWith_of_mem_nodes h hn "->"

end Registry

end SequentCalculus
