import SequentCalculus.Derivation.Search
import SequentCalculus.Proofs.Calculus.Rules

/-!
# Proofs/Calculus/Trees — what is read off a tree, by recursion on the tree

Leaves, counter-examples and closedness are defined on the walk, with its depths.  Here they are
turned into equations over the children (`walk_node`, `leaves_node`, `counterExamples_node`,
`isClosed_node_iff`), which is the form in which an induction on a tree meets them
(`nodeInduction`).

The derivations that the search builds have one induction of their own, `Sequent.searchInduction`:
an axiom, a sequent of atoms, or a sequent whose premises are done.  By it every node of a derivation
is the derivation of its own sequent (`eq_prove_of_mem_nodes`), so a statement about the root of
`s.prove` for all `s` is one about every node; and a root is one of two things
(`Sequent.prove_cases`).
-/

namespace SequentCalculus

namespace Derivation

/-- The nodes of a tree in the order of the walk. -/
def nodes (t : Derivation) : List Derivation := t.walk.map Prod.fst

theorem mem_nodes_iff {t n : Derivation} : n ∈ t.nodes ↔ ∃ depth, (n, depth) ∈ t.walk := by
  simp [nodes]

/-- **Induction on a tree**, with the statement at hand for all children. -/
@[elab_as_elim]
theorem nodeInduction {motive : Derivation → Prop}
    (node : ∀ (s : Sequent) (r : Option String) (cs : List Derivation),
      (∀ c ∈ cs, motive c) → motive (node s r cs)) : ∀ t, motive t
  | .node s r cs => node s r cs fun c _ => nodeInduction node c

/-! ## The walk, child by child -/

theorem walkForest_eq_flatMap (depth : Nat) (ts : List Derivation) :
    walkForest depth ts = ts.flatMap (walkFrom depth) := by
  induction ts with
  | nil => rfl
  | cons t ts ih => rw [walkForest, ih, List.flatMap_cons]

/-- A walk that starts from a depth meets the same nodes, each that much deeper. -/
theorem walkFrom_eq_map (depth : Nat) (t : Derivation) :
    walkFrom depth t = t.walk.map fun p => (p.1, depth + p.2) := by
  induction t using nodeInduction generalizing depth with
  | node s r cs ih =>
    have hbelow : ∀ c ∈ cs, walkFrom (depth + 1) c =
        (walkFrom (0 + 1) c).map fun p => (p.1, depth + p.2) := by
      intro c hc
      rw [ih c hc, ih c hc, List.map_map]
      simp only [Function.comp_def, Nat.zero_add, Nat.add_assoc]
    rw [walk, walkFrom, walkFrom, walkForest_eq_flatMap, walkForest_eq_flatMap, List.map_cons,
      List.map_flatMap, List.flatMap_congr hbelow]
    rfl

/-- The walk of a node: the node itself, then the walks of its children, one deeper. -/
theorem walk_node (s : Sequent) (r : Option String) (cs : List Derivation) :
    (node s r cs).walk =
      (node s r cs, 0) :: cs.flatMap fun c => c.walk.map fun p => (p.1, 1 + p.2) := by
  rw [walk, walkFrom, walkForest_eq_flatMap]
  exact congrArg (_ :: List.flatMap · cs) (funext (walkFrom_eq_map (0 + 1)))

theorem nodes_node (s : Sequent) (r : Option String) (cs : List Derivation) :
    (node s r cs).nodes = node s r cs :: cs.flatMap nodes := by
  rw [nodes, walk_node, List.map_cons, List.map_flatMap]
  simp only [List.map_map, Function.comp_def]
  rfl

/-- What holds of all nodes of a tree holds of its root and of all nodes of its children. -/
theorem forall_mem_nodes_node {P : Derivation → Prop} {s : Sequent} {r : Option String}
    {cs : List Derivation} :
    (∀ n ∈ (node s r cs).nodes, P n) ↔ P (node s r cs) ∧ ∀ c ∈ cs, ∀ n ∈ c.nodes, P n := by
  rw [nodes_node, List.forall_mem_cons, List.forall_mem_flatMap]

theorem self_mem_nodes (t : Derivation) : t ∈ t.nodes := by
  cases t
  rw [nodes_node]
  exact List.mem_cons_self

@[simp] theorem sequent_leaf (s : Sequent) : (leaf s).sequent = s := rfl

@[simp] theorem nodes_leaf (s : Sequent) : (leaf s).nodes = [leaf s] := nodes_node s none []

/-! ## Leaves -/

/-- A tree of one node has itself for a leaf, also if it carries a rule. -/
theorem leaves_childless (s : Sequent) (r : Option String) :
    (node s r []).leaves = [node s r []] := by
  show ((node s r []).nodes.filter (·.isLeaf)) = [node s r []]
  rw [nodes_node]
  rfl

@[simp] theorem leaves_leaf (s : Sequent) : (leaf s).leaves = [leaf s] := leaves_childless s none

/-- **The leaves of an inner node are those of its children, from left to right.** -/
theorem leaves_node (s : Sequent) (r : Option String) {cs : List Derivation} (h : cs ≠ []) :
    (node s r cs).leaves = cs.flatMap leaves := by
  have hinner : (node s r cs).isLeaf = false := by
    simpa [isLeaf, children] using h
  show ((node s r cs).nodes.filter (·.isLeaf)) = _
  rw [nodes_node, List.filter_cons_of_neg (by simp [hinner]), List.filter_flatMap]
  rfl

theorem counterExamples_leaf (s : Sequent) :
    (leaf s).counterExamples = if s.status = .refuted then [leaf s] else [] := by
  rw [counterExamples, leaves_leaf]
  by_cases h : s.status = .refuted <;> simp [status, h]

theorem counterExamples_node (s : Sequent) (r : Option String) {cs : List Derivation}
    (h : cs ≠ []) : (node s r cs).counterExamples = cs.flatMap counterExamples := by
  rw [counterExamples, leaves_node s r h, List.filter_flatMap]
  rfl

theorem isClosed_leaf_iff (s : Sequent) : (leaf s).isClosed = true ↔ s.status = .closed := by
  rw [isClosed, leaves_leaf, List.all_cons, List.all_nil, Bool.and_true]
  exact decide_eq_true_iff

/-- An inner node is closed exactly when its children are. -/
theorem isClosed_node_iff (s : Sequent) (r : Option String) {cs : List Derivation} (h : cs ≠ []) :
    (node s r cs).isClosed = true ↔ ∀ t ∈ cs, t.isClosed = true := by
  simp only [isClosed, leaves_node s r h, List.all_eq_true, List.mem_flatMap]
  exact ⟨fun hall t ht leaf hleaf => hall leaf ⟨t, ht, hleaf⟩,
    fun hall leaf ⟨t, ht, hleaf⟩ => hall t ht leaf hleaf⟩

end Derivation

namespace Sequent

/-! ## The status of a sequent -/

theorem status_of_isAxiom {s : Sequent} (h : s.isAxiom = true) : s.status = .closed :=
  if_pos h

theorem status_of_isIrreducible {s : Sequent} (h : s.isIrreducible = true) :
    s.status = .refuted := by
  obtain ⟨hatomic, hax⟩ : s.isAtomic = true ∧ s.isAxiom = false := by
    simpa [isIrreducible] using h
  simp [status, hatomic, hax]

/-- A sequent that is no axiom and cannot be decomposed is irreducible. -/
theorem isIrreducible_of_decompose?_none {s : Sequent} (hax : s.isAxiom = false)
    (h : s.decompose? = none) : s.isIrreducible = true := by
  simp [isIrreducible, hax, decompose?_eq_none_iff.1 h]

theorem status_of_decompose? {s : Sequent} {label : String} {premises : List Sequent}
    (hax : s.isAxiom = false) (h : s.decompose? = some (label, premises)) :
    s.status = .pending := by
  have hcompound : s.isAtomic = false := by
    rw [← Bool.not_eq_true, ← decompose?_eq_none_iff, h]
    exact Option.some_ne_none _
  simp [status, hax, hcompound]

/-! ## Induction along the search -/

/-- Induction on decompositions: a sequent has only atoms, or has premises for which the statement
holds already. -/
@[elab_as_elim]
theorem decompositionInduction {motive : Sequent → Prop}
    (atomic : ∀ s : Sequent, s.decompose? = none → motive s)
    (compound : ∀ (s : Sequent) (label : String) (premises : List Sequent),
      s.decompose? = some (label, premises) → (∀ t ∈ premises, motive t) → motive s)
    (s : Sequent) : motive s := by
  induction hn : s.complexity using Nat.strongRecOn generalizing s with
  | ind n ih =>
    subst hn
    cases hd : s.decompose? with
    | none => exact atomic s hd
    | some p =>
      obtain ⟨label, premises⟩ := p
      exact compound s label premises hd fun t ht =>
        ih t.complexity (complexity_lt_of_mem_premises hd ht) t rfl

/-- **Induction along the search**: a sequent is an axiom, is irreducible, or has premises for which
the statement holds already. -/
@[elab_as_elim]
theorem searchInduction {motive : Sequent → Prop}
    (axiomatic : ∀ s : Sequent, s.isAxiom = true → motive s)
    (irreducible : ∀ s : Sequent, s.isAxiom = false → s.decompose? = none → motive s)
    (reducible : ∀ (s : Sequent) (label : String) (premises : List Sequent),
      s.isAxiom = false → s.decompose? = some (label, premises) →
      (∀ t ∈ premises, motive t) → motive s)
    (s : Sequent) : motive s := by
  induction s using decompositionInduction with
  | atomic s hd =>
    cases hax : s.isAxiom with
    | true => exact axiomatic s hax
    | false => exact irreducible s hax hd
  | compound s label premises hd ih =>
    cases hax : s.isAxiom with
    | true => exact axiomatic s hax
    | false => exact reducible s label premises hax hd ih

/-- **What the search builds**: a leaf, unless the sequent is pending; then a node with the rule of
the sequent, over the derivations of its premises. -/
theorem prove_cases (s : Sequent) :
    (s.status ≠ .pending ∧ s.prove = .leaf s) ∨
    ∃ label premises, s.status = .pending ∧ s.decompose? = some (label, premises) ∧
      s.prove = .node s (some label) (premises.map prove) := by
  cases hax : s.isAxiom with
  | true => exact .inl ⟨by simp [status_of_isAxiom hax], prove_of_isAxiom hax⟩
  | false =>
    cases hd : s.decompose? with
    | none =>
      have hirr := isIrreducible_of_decompose?_none hax hd
      exact .inl ⟨by simp [status_of_isIrreducible hirr], prove_of_decompose?_none hd⟩
    | some p =>
      obtain ⟨label, premises⟩ := p
      exact .inr ⟨label, premises, status_of_decompose? hax hd, rfl, prove_of_decompose? hax hd⟩

@[simp] theorem sequent_prove (s : Sequent) : s.prove.sequent = s := by
  obtain ⟨-, hprove⟩ | ⟨label, premises, -, -, hprove⟩ := s.prove_cases <;> rw [hprove] <;> rfl

theorem map_sequent_prove (ss : List Sequent) :
    (ss.map prove).map Derivation.sequent = ss := by
  simp [Function.comp_def]

/-- A rule has a premise, so a node over trees for the premises has a child. -/
theorem map_premises_ne_nil {s : Sequent} {label : String} {premises : List Sequent}
    (h : s.decompose? = some (label, premises)) (build : Sequent → Derivation) :
    premises.map build ≠ [] := fun hnil =>
  premises_ne_nil h (List.map_eq_nil_iff.1 hnil)

/-- **Every node of a derivation is the derivation of its own sequent.** -/
theorem eq_prove_of_mem_nodes {s : Sequent} {n : Derivation} (h : n ∈ s.prove.nodes) :
    n = n.sequent.prove := by
  induction s using searchInduction with
  | axiomatic s ha =>
    rw [prove_of_isAxiom ha, Derivation.nodes_leaf, List.mem_singleton] at h
    rw [h, Derivation.sequent_leaf, prove_of_isAxiom ha]
  | irreducible s _ hd =>
    rw [prove_of_decompose?_none hd, Derivation.nodes_leaf, List.mem_singleton] at h
    rw [h, Derivation.sequent_leaf, prove_of_decompose?_none hd]
  | reducible s label premises ha hd ih =>
    rw [prove_of_decompose? ha hd, Derivation.nodes_node] at h
    rcases List.mem_cons.1 h with rfl | h
    · exact (prove_of_decompose? ha hd).symm
    · obtain ⟨t, ht, hn⟩ := List.mem_flatMap.1 h
      obtain ⟨p, hp, rfl⟩ := List.mem_map.1 ht
      exact ih p hp hn

end Sequent

end SequentCalculus
