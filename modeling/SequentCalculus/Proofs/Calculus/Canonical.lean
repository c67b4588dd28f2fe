import SequentCalculus.Proofs.Calculus.Interleaving

/-!
# Proofs/Calculus/Canonical — a derivation can be told node by node

A tree of sequents may be written down by hand: a leaf may carry a rule, an axiom may have children,
a node may have too few.  Whether the tree is what the search builds for its root is a question about
one node at a time (`IsCanonical`).  A tree that passes at every node is partial in the sense of
`IsPartial`, and has no pending leaf; and of such trees there is one for each sequent.
-/

namespace SequentCalculus.Derivation

/-- A node is as the search leaves it.  Without children it has no rule, and nothing is to be done
for its sequent; with children it is pending, and its rule and the sequents of its children are those
of its decomposition. -/
def IsCanonical (n : Derivation) : Prop :=
  (n.children = [] → n.rule = none ∧ n.status ≠ .pending) ∧
  (n.children ≠ [] → n.status = .pending ∧
    n.sequent.decompose?.map (fun p => (some p.1, p.2)) = some (n.rule, n.children.map sequent))

instance (n : Derivation) : Decidable n.IsCanonical := inferInstanceAs (Decidable (_ ∧ _))

theorem isCanonical_childless_iff {s : Sequent} {r : Option String} :
    (node s r []).IsCanonical ↔ r = none ∧ s.status ≠ .pending :=
  ⟨fun hn => hn.1 rfl, fun hn => ⟨fun _ => hn, fun hne => absurd rfl hne⟩⟩

theorem isCanonical_node_iff {s : Sequent} {r : Option String} {cs : List Derivation}
    (h : cs ≠ []) :
    (node s r cs).IsCanonical ↔ s.status = .pending ∧
      ∃ label, r = some label ∧ s.decompose? = some (label, cs.map sequent) := by
  have hrule : s.decompose?.map (fun p => (some p.1, p.2)) = some (r, cs.map sequent) ↔
      ∃ label, r = some label ∧ s.decompose? = some (label, cs.map sequent) := by
    rw [Option.map_eq_some_iff]
    constructor
    · rintro ⟨⟨label, premises⟩, hd, hpair⟩
      obtain ⟨rfl, rfl⟩ := Prod.mk.inj hpair
      exact ⟨label, rfl, hd⟩
    · rintro ⟨label, rfl, hd⟩
      exact ⟨_, hd, rfl⟩
  rw [← hrule]
  exact ⟨fun hn => hn.2 h, fun hn => ⟨fun hnil => absurd hnil h, fun _ => hn⟩⟩

/-- The search leaves its root so, and by `Sequent.eq_prove_of_mem_nodes` every other node. -/
theorem isCanonical_prove (s : Sequent) : s.prove.IsCanonical := by
  obtain ⟨hdone, hprove⟩ | ⟨label, premises, hpending, hd, hprove⟩ := s.prove_cases
  · rw [hprove]
    exact isCanonical_childless_iff.2 ⟨rfl, hdone⟩
  · rw [hprove, isCanonical_node_iff (Sequent.map_premises_ne_nil hd Sequent.prove),
      Sequent.map_sequent_prove]
    exact ⟨hpending, label, rfl, hd⟩

/-- A tree that is canonical at every node is a partial derivation. -/
theorem isPartial_of_isCanonical {t : Derivation} (h : ∀ n ∈ t.nodes, n.IsCanonical) :
    IsPartial t := by
  induction t using nodeInduction with
  | node s r cs ih =>
    obtain ⟨hroot, hbelow⟩ := forall_mem_nodes_node.1 h
    by_cases hcs : cs = []
    · subst hcs
      obtain ⟨rfl, -⟩ := isCanonical_childless_iff.1 hroot
      exact .leaf s
    · obtain ⟨hpending, label, rfl, hd⟩ := (isCanonical_node_iff hcs).1 hroot
      exact .node (Sequent.isAxiom_of_status_pending hpending) hd fun c hc =>
        ih c hc (hbelow c hc)

/-- **The search builds the one canonical derivation of a sequent.**  A tree is the derivation of the
sequent at its root if and only if it is canonical at every node. -/
theorem eq_prove_iff_forall_isCanonical (t : Derivation) :
    t = t.sequent.prove ↔ ∀ n ∈ t.nodes, n.IsCanonical := by
  constructor
  · intro h n hn
    rw [h] at hn
    rw [Sequent.eq_prove_of_mem_nodes hn]
    exact isCanonical_prove _
  · intro h
    refine (isPartial_of_isCanonical h).eq_prove fun l hl => ?_
    obtain ⟨hn, hleaf⟩ := List.mem_filter.1 hl
    exact ((h l hn).1 (List.isEmpty_iff.1 hleaf)).2

/-- Three trees by hand.  One over `p ∧ q ⊢ p` is its derivation; a leaf that carries a rule is no
derivation, nor is an axiom that has been taken apart by its proper rule. -/
theorem eq_prove_iff_forall_isCanonical_by_hand :
    let p : Formula := .atom "p"
    let q : Formula := .atom "q"
    let pq : Formula := .bin .and p q
    let derived : Derivation := node ⟨[pq], [p]⟩ (some "∧L") [leaf ⟨[p, q], [p]⟩]
    let labelled : Derivation := node ⟨[p], [p]⟩ (some "id") []
    let reopened : Derivation := node ⟨[pq], [pq]⟩ (some "∧L") [(Sequent.mk [p, q] [pq]).prove]
    derived = derived.sequent.prove ∧ labelled ≠ labelled.sequent.prove ∧
      reopened ≠ reopened.sequent.prove := by
  intro p q pq derived labelled reopened
  refine ⟨(eq_prove_iff_forall_isCanonical derived).2 (by decide +kernel), fun h => ?_, fun h => ?_⟩
  · exact absurd ((eq_prove_iff_forall_isCanonical labelled).1 h) (by decide +kernel)
  · exact absurd ((eq_prove_iff_forall_isCanonical reopened).1 h) (by decide +kernel)

end SequentCalculus.Derivation
