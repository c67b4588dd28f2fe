import SequentCalculus.Proofs.Calculus.Countermodels
import SequentCalculus.Proofs.Calculus.StackSearch

/-!
# Proofs/Calculus/EarlyClosing — closing on compound axioms loses no counter-example

Proof search stops at an axiom, whatever is compound in it.  The *expansion* of a sequent does not:
it takes every sequent apart until only atoms are left, and only there is it asked which leaves are
axioms.  An expansion can be much larger than the derivation, since below every axiom that the search
closes on it has a whole subtree more.

No leaf of such a subtree is open.  An open leaf has only atoms and is no axiom, so a valuation
refutes it; the rules carry the valuation down to the axiom (`refutedBy_iff_frontier`), which nothing
refutes.  So both trees have the same open leaves, in the same order (`openFrontier_eq`).
-/

namespace SequentCalculus.Sequent

/-- The expansion of a sequent: a sequent of atoms is a leaf, and any other stands on the expansions
of its premises. -/
def expansion (s : Sequent) : Derivation :=
  match _h : s.decompose? with
  | none => .leaf s
  | some (label, premises) =>
    .node s (some label) (premises.attach.map fun p => expansion p.1)
termination_by s.complexity
decreasing_by exact complexity_lt_of_mem_premises _h p.2

theorem expansion_of_decompose?_none {s : Sequent} (h : s.decompose? = none) :
    s.expansion = .leaf s := by
  rw [expansion]
  split
  · rfl
  · rename_i hsome
    rw [h] at hsome
    cases hsome

theorem expansion_of_decompose? {s : Sequent} {label : String} {premises : List Sequent}
    (h : s.decompose? = some (label, premises)) :
    s.expansion = .node s (some label) (premises.map expansion) := by
  rw [expansion]
  split
  · rename_i hnone
    rw [h] at hnone
    cases hnone
  · rename_i hsome
    rw [h] at hsome
    obtain ⟨rfl, rfl⟩ := Prod.mk.inj (Option.some.inj hsome)
    rw [List.attach_map_val]

/-! ## The frontier -/

/-- The sequents at the leaves of the expansion, from left to right. -/
def frontier (s : Sequent) : List Sequent := s.expansion.leaves.map Derivation.sequent

theorem frontier_of_decompose?_none {s : Sequent} (h : s.decompose? = none) :
    s.frontier = [s] := by
  rw [frontier, expansion_of_decompose?_none h, Derivation.leaves_leaf]
  rfl

theorem frontier_of_decompose? {s : Sequent} {label : String} {premises : List Sequent}
    (h : s.decompose? = some (label, premises)) : s.frontier = premises.flatMap frontier := by
  rw [frontier, expansion_of_decompose? h,
    Derivation.leaves_node s _ (map_premises_ne_nil h expansion), List.flatMap_map,
    List.map_flatMap]
  rfl

/-- The expansion ends in atoms. -/
theorem isAtomic_of_mem_frontier {s w : Sequent} (h : w ∈ s.frontier) : w.isAtomic = true := by
  induction s using decompositionInduction with
  | atomic s hd =>
    rw [frontier_of_decompose?_none hd, List.mem_singleton] at h
    exact h ▸ decompose?_eq_none_iff.1 hd
  | compound s label premises hd ih =>
    rw [frontier_of_decompose? hd] at h
    obtain ⟨t, ht, hw⟩ := List.mem_flatMap.1 h
    exact ih t ht hw

/-- **A valuation refutes a sequent exactly when it refutes some sequent of its frontier.** -/
theorem refutedBy_iff_frontier (v : Valuation) (s : Sequent) :
    s.RefutedBy v ↔ ∃ w ∈ s.frontier, w.RefutedBy v := by
  induction s using decompositionInduction with
  | atomic s hd => simp [frontier_of_decompose?_none hd]
  | compound s label premises hd ih =>
    rw [refutedBy_iff_premises hd, frontier_of_decompose? hd]
    constructor
    · rintro ⟨t, ht, htv⟩
      obtain ⟨w, hw, hwv⟩ := (ih t ht).1 htv
      exact ⟨w, List.mem_flatMap.2 ⟨t, ht, hw⟩, hwv⟩
    · rintro ⟨w, hw, hwv⟩
      obtain ⟨t, ht, hw⟩ := List.mem_flatMap.1 hw
      exact ⟨t, ht, (ih t ht).2 ⟨w, hw, hwv⟩⟩

/-- **The frontier of an axiom has only axioms**, though the formula that stands on both sides of it
may be long gone there. -/
theorem isAxiom_of_mem_frontier {s w : Sequent} (hax : s.isAxiom = true) (hw : w ∈ s.frontier) :
    w.isAxiom = true := by
  by_contra hopen
  have hirr : w.isIrreducible = true := by
    rw [Bool.not_eq_true] at hopen
    simp [isIrreducible, isAtomic_of_mem_frontier hw, hopen]
  -- what refutes a sequent of the frontier refutes the axiom below it
  have hbelow := (refutedBy_iff_frontier _ s).2 ⟨w, hw, refutedBy_refutation hirr⟩
  exact not_refutedBy_of_isAxiom hax _ hbelow

/-! ## Open leaves -/

/-- The sequents of the frontier that are no axioms. -/
def openFrontier (s : Sequent) : List Sequent := s.frontier.filter fun w => !w.isAxiom

/-- **The expansion is open where the derivation has a counter-example.** -/
theorem openFrontier_eq (s : Sequent) : s.openFrontier = s.counterExamples := by
  induction s using searchInduction with
  | axiomatic s hax =>
    rw [counterExamples_of_isAxiom hax, openFrontier, List.filter_eq_nil_iff]
    intro w hw
    simp [isAxiom_of_mem_frontier hax hw]
  | irreducible s hax hd =>
    rw [counterExamples_of_decompose?_none hax hd, openFrontier, frontier_of_decompose?_none hd]
    simp [hax]
  | reducible s label premises hax hd ih =>
    rw [counterExamples_of_decompose? hax hd, openFrontier, frontier_of_decompose? hd,
      List.filter_flatMap]
    exact List.flatMap_congr ih

/-- **Closing on compound axioms loses nothing.**  The expansion has only atoms at its leaves; and
those of the leaves that are no axioms are, in order and with all repetitions, the counter-examples
that the search finds, which closes on every axiom it meets. -/
theorem openLeaves_expansion_eq_counterExamples (s : Sequent) :
    (∀ l ∈ s.expansion.leaves, l.sequent.isAtomic = true) ∧
    (s.expansion.leaves.map Derivation.sequent).filter (fun w => !w.isAxiom) =
      s.prove.counterExamples.map Derivation.sequent :=
  ⟨fun _ hl => isAtomic_of_mem_frontier (List.mem_map_of_mem hl), s.openFrontier_eq⟩

/-- In the derivation of `(p ∧ q) ∨ r ⊢ p ∧ q` the first branch is closed at once; the expansion takes
it apart, into two axioms.  The open leaves are those of the other branch. -/
theorem openLeaves_expansion_eq_counterExamples_of_branches :
    let p : Formula := .atom "p"
    let q : Formula := .atom "q"
    let r : Formula := .atom "r"
    let s : Sequent := ⟨[.bin .or (.bin .and p q) r], [.bin .and p q]⟩
    Derivation.leaf ⟨[p, q], [q]⟩ ∈ s.expansion.leaves ∧ Sequent.isAtomic ⟨[p, q], [q]⟩ = true ∧
      s.prove.size < s.expansion.size ∧
      s.prove.counterExamples.map Derivation.sequent = [⟨[r], [p]⟩, ⟨[r], [q]⟩] := by
  intro p q r s
  have hleaf : Derivation.leaf ⟨[p, q], [q]⟩ ∈ s.expansion.leaves := by decide +kernel
  obtain ⟨hatomic, hopen⟩ := openLeaves_expansion_eq_counterExamples s
  refine ⟨hleaf, hatomic _ hleaf, by decide +kernel, ?_⟩
  rw [← hopen]
  decide +kernel

end SequentCalculus.Sequent
