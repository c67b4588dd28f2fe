import SequentCalculus.Proofs.Calculus.Countermodels

/-!
# Proofs/Calculus/Validity — the proof search is sound and complete, at every node

A derivation is closed exactly when nothing refutes its sequent: the rules neither lose nor gain a
refuting valuation, an axiom has none, and an irreducible leaf has the one of its own table.  Since
every node of a derivation is the derivation of its own sequent, the statement about roots is one
about all nodes.

A valuation here is a total function on names.  A finite table with every other atom false is a
valuation too, and tables suffice: a sequent that some valuation refutes is refuted by the table of a
witness.
-/

namespace SequentCalculus

namespace Sequent

/-- **The search closes exactly the sequents that nothing refutes.** -/
theorem isClosed_prove_iff (s : Sequent) :
    s.prove.isClosed = true ↔ ∀ v : Valuation, ¬ s.RefutedBy v := by
  induction s using searchInduction with
  | axiomatic s hax =>
    rw [prove_of_isAxiom hax, Derivation.isClosed_leaf_iff]
    exact iff_of_true (status_of_isAxiom hax) (not_refutedBy_of_isAxiom hax)
  | irreducible s hax hd =>
    have hirr := isIrreducible_of_decompose?_none hax hd
    rw [prove_of_decompose?_none hd, Derivation.isClosed_leaf_iff, status_of_isIrreducible hirr]
    exact iff_of_false (by simp) fun hnone => hnone _ (refutedBy_refutation hirr)
  | reducible s label premises hax hd ih =>
    rw [prove_of_decompose? hax hd,
      Derivation.isClosed_node_iff s _ (map_premises_ne_nil hd prove), List.forall_mem_map]
    constructor
    · intro h v hv
      obtain ⟨t, ht, htv⟩ := (refutedBy_iff_premises hd v).1 hv
      exact (ih t ht).1 (h t ht) v htv
    · intro h t ht
      exact (ih t ht).2 fun v htv => h v ((refutedBy_iff_premises hd v).2 ⟨t, ht, htv⟩)

/-- A sequent that a valuation refutes is refuted by a table, all other atoms false. -/
theorem exists_refutedBy_ofTable {s : Sequent} {v : Valuation} (h : s.RefutedBy v) :
    ∃ t : Table String Bool, s.RefutedBy (Valuation.ofTable t) := by
  obtain ⟨w, hw, -⟩ := (refutedBy_iff_witnesses v s).1 h
  have hrefuted := refutedBy_refutation (isIrreducible_of_mem_witnessesOf hw)
  exact ⟨w.refutation, (refutedBy_iff_witnesses _ s).2 ⟨w, hw, hrefuted⟩⟩

theorem isClosed_prove_iff_forall_eval (s : Sequent) :
    s.prove.isClosed = true ↔ ∀ v : Valuation, s.eval v = true := by
  simp only [isClosed_prove_iff, eval_eq_true_iff]

theorem isClosed_prove_iff_forall_table (s : Sequent) :
    s.prove.isClosed = true ↔ ∀ t : Table String Bool, s.eval (Valuation.ofTable t) = true := by
  simp only [isClosed_prove_iff, eval_eq_true_iff]
  constructor
  · exact fun h t => h (Valuation.ofTable t)
  · intro h v hv
    obtain ⟨t, ht⟩ := exists_refutedBy_ofTable hv
    exact h t ht

/-- **A sequent has no witness against it exactly when it is valid.** -/
theorem isEmpty_witnesses (s : Sequent) : s.witnesses.isEmpty = s.isValid := by
  rw [Bool.eq_iff_iff, isValid, isClosed_prove_iff, List.isEmpty_iff]
  constructor
  · intro hnil v hv
    obtain ⟨w, hw, -⟩ := (refutedBy_iff_witnesses v s).1 hv
    rw [hnil] at hw
    cases hw
  · intro hnone
    refine List.eq_nil_iff_forall_not_mem.2 fun w hw => hnone (Valuation.ofTable w.refutation) ?_
    have hrefuted := refutedBy_refutation (isIrreducible_of_mem_witnessesOf hw)
    exact (refutedBy_iff_witnesses _ s).2 ⟨w, hw, hrefuted⟩

theorem isValid_eq_false_iff (s : Sequent) :
    s.isValid = false ↔ ∃ v : Valuation, s.eval v = false := by
  rw [← Bool.not_eq_true, isValid, isClosed_prove_iff_forall_eval, not_forall]
  simp only [Bool.not_eq_true]

end Sequent

namespace Derivation

/-- **A node of a derivation is closed if and only if its sequent holds under every valuation**,
be it any function on the names or a finite table with the missing atoms false.  In particular a
sequent is found valid if and only if no valuation makes every antecedent true and every succedent
false. -/
theorem isClosed_iff_forall_eval_of_mem_walk (s : Sequent) :
    (∀ n depth, (n, depth) ∈ s.prove.walk →
      (n.isClosed = true ↔ ∀ v : Valuation, n.sequent.eval v = true) ∧
      (n.isClosed = true ↔
        ∀ t : Table String Bool, n.sequent.eval (Valuation.ofTable t) = true)) ∧
    (s.isValid = true ↔
      ¬ ∃ v : Valuation, (∀ f ∈ s.lhs, f.eval v = true) ∧ ∀ f ∈ s.rhs, f.eval v = false) := by
  constructor
  · intro n depth hn
    have hprove : n = n.sequent.prove :=
      Sequent.eq_prove_of_mem_nodes (mem_nodes_iff.2 ⟨depth, hn⟩)
    have hclosed : n.isClosed = n.sequent.prove.isClosed := congrArg isClosed hprove
    rw [hclosed]
    exact ⟨Sequent.isClosed_prove_iff_forall_eval _, Sequent.isClosed_prove_iff_forall_table _⟩
  · rw [Sequent.isValid, Sequent.isClosed_prove_iff, not_exists]
    rfl

/-- In the derivation of `p ∨ q ⊢ p ∧ r` the branch `p ⊢ p` is closed and holds everywhere, though
the root is open and fails. -/
theorem isClosed_iff_forall_eval_of_branch :
    let s : Sequent := ⟨[.bin .or (.atom "p") (.atom "q")], [.bin .and (.atom "p") (.atom "r")]⟩
    let n : Derivation := leaf ⟨[.atom "p"], [.atom "p"]⟩
    (n, 2) ∈ s.prove.walk ∧ (∀ v : Valuation, n.sequent.eval v = true) ∧ s.isValid = false ∧
      ∃ v : Valuation, (∀ f ∈ s.lhs, f.eval v = true) ∧ ∀ f ∈ s.rhs, f.eval v = false := by
  intro s n
  have hn : (n, 2) ∈ s.prove.walk := by decide +kernel
  have hinvalid : s.isValid = false := by decide +kernel
  obtain ⟨hnodes, hvalid⟩ := isClosed_iff_forall_eval_of_mem_walk s
  refine ⟨hn, (hnodes n 2 hn).1.1 (by decide +kernel), hinvalid, ?_⟩
  exact not_not.1 fun hnone => by
    rw [hvalid.2 hnone] at hinvalid
    cases hinvalid

end Derivation

end SequentCalculus
