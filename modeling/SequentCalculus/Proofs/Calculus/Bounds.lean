import Mathlib.Algebra.Order.Ring.Nat
import SequentCalculus.Sequent.Decomposition
import SequentCalculus.Proofs.Calculus.Trees
import SequentCalculus.Proofs.Outcomes

/-!
# Proofs/Calculus/Bounds — a derivation is bounded by the complexity of its sequent

A rule has at most two premises, and each is less complex than the conclusion.  The rest is a fact
about trees: one whose nodes have at most two children is smaller than two to the power of its height
(`Derivation.size_lt_two_pow`), and one whose sequents get less complex from a node to its children
is no deeper than its root is complex (`Derivation.depth_le_complexity`).

The recursion of the search follows the derivation.  `Sequent.proveWithin` is that recursion with a
limit on how deep it goes and with the guard on every decomposition; from a limit above the
complexity on, neither is ever felt (`Sequent.proveWithin_eq_ok`).
-/

namespace SequentCalculus

theorem foldl_max_le_iff {xs : List Nat} {a m : Nat} :
    xs.foldl max a ≤ m ↔ a ≤ m ∧ ∀ x ∈ xs, x ≤ m := by
  induction xs generalizing a with
  | nil => simp
  | cons x xs ih => rw [List.foldl_cons, ih, List.forall_mem_cons, max_le_iff, and_assoc]

/-- Lists of bounded length, one after the other. -/
theorem length_flatMap_le {α β : Type} {f : α → List β} {xs : List α} {m : Nat}
    (h : ∀ x ∈ xs, (f x).length ≤ m) : (xs.flatMap f).length ≤ xs.length * m := by
  induction xs with
  | nil => exact Nat.zero_le _
  | cons x xs ih =>
    obtain ⟨hx, hxs⟩ := List.forall_mem_cons.1 h
    rw [List.flatMap_cons, List.length_append, List.length_cons, Nat.succ_mul, Nat.add_comm]
    exact Nat.add_le_add (ih hxs) hx

namespace Derivation

/-! ## Depth and size, child by child -/

theorem depth_le_iff {t : Derivation} {m : Nat} : t.depth ≤ m ↔ ∀ p ∈ t.walk, p.2 ≤ m := by
  rw [depth, foldl_max_le_iff, List.forall_mem_map]
  exact and_iff_right (Nat.zero_le m)

theorem depth_lt_iff {t : Derivation} {m : Nat} : t.depth < m ↔ ∀ p ∈ t.walk, p.2 < m := by
  cases m with
  | zero =>
    -- the root is met at depth zero
    have hroot : (t, 0) ∈ t.walk := by
      cases t
      rw [walk_node]
      exact List.mem_cons_self
    exact iff_of_false (Nat.not_lt_zero _) fun h => Nat.not_lt_zero _ (h _ hroot)
  | succ m => simp only [Nat.lt_succ_iff, depth_le_iff]

/-- **A node is as deep as its deepest child, and one more.** -/
theorem depth_node_le_iff {s : Sequent} {r : Option String} {cs : List Derivation} {m : Nat} :
    (node s r cs).depth ≤ m ↔ ∀ c ∈ cs, c.depth < m := by
  rw [depth_le_iff, walk_node, List.forall_mem_cons, and_iff_right (Nat.zero_le m)]
  simp only [List.forall_mem_flatMap, List.forall_mem_map, depth_lt_iff, Nat.one_add_le_iff]

theorem size_node (s : Sequent) (r : Option String) (cs : List Derivation) :
    (node s r cs).size = (cs.flatMap walk).length + 1 := by
  rw [size, walk_node, List.length_cons, List.length_flatMap, List.length_flatMap]
  simp only [List.length_map]

/-- **A tree of at most two children a node is smaller than two to the power of its height.** -/
theorem size_lt_two_pow {t : Derivation} (h : ∀ n ∈ t.nodes, n.children.length ≤ 2) :
    t.size < 2 ^ (t.depth + 1) := by
  induction t using nodeInduction with
  | node s r cs ih =>
    obtain ⟨hlength, hbelow⟩ := forall_mem_nodes_node.1 h
    have hchild : ∀ c ∈ cs, c.walk.length ≤ 2 ^ (node s r cs).depth - 1 := by
      intro c hc
      have hdepth : c.depth < (node s r cs).depth := depth_node_le_iff.1 (Nat.le_refl _) c hc
      have hpow : 2 ^ (c.depth + 1) ≤ 2 ^ (node s r cs).depth :=
        Nat.pow_le_pow_right Nat.two_pos hdepth
      exact Nat.le_sub_one_of_lt (Nat.lt_of_lt_of_le (ih c hc (hbelow c hc)) hpow)
    have htwo : cs.length * (2 ^ (node s r cs).depth - 1) ≤ 2 * (2 ^ (node s r cs).depth - 1) :=
      Nat.mul_le_mul_right _ hlength
    have hforest := length_flatMap_le hchild
    have hpos : 0 < 2 ^ (node s r cs).depth := Nat.two_pow_pos _
    rw [size_node, Nat.pow_succ]
    omega

/-- **A tree in which children are less complex is no deeper than its root is complex.** -/
theorem depth_le_complexity {t : Derivation}
    (h : ∀ n ∈ t.nodes, ∀ c ∈ n.children, c.sequent.complexity < n.sequent.complexity) :
    t.depth ≤ t.sequent.complexity := by
  induction t using nodeInduction with
  | node s r cs ih =>
    obtain ⟨hroot, hbelow⟩ := forall_mem_nodes_node.1 h
    rw [depth_node_le_iff]
    exact fun c hc => Nat.lt_of_le_of_lt (ih c hc (hbelow c hc)) (hroot c hc)

end Derivation

namespace Sequent

/-! ## The derivation of a sequent -/

/-- A node of a derivation has at most two children, each less complex than itself. -/
theorem children_bounded_of_mem_nodes {s : Sequent} {n : Derivation} (h : n ∈ s.prove.nodes) :
    n.children.length ≤ 2 ∧
      ∀ c ∈ n.children, c.sequent.complexity < n.sequent.complexity := by
  rw [eq_prove_of_mem_nodes h, sequent_prove]
  obtain ⟨-, hprove⟩ | ⟨label, premises, -, hd, hprove⟩ := n.sequent.prove_cases
  · rw [hprove]
    exact ⟨Nat.zero_le 2, fun c hc => nomatch hc⟩
  · rw [hprove, Derivation.children, List.length_map]
    refine ⟨length_premises_le hd, List.forall_mem_map.2 fun p hp => ?_⟩
    rw [sequent_prove]
    exact complexity_lt_of_mem_premises hd hp

theorem depth_prove_le (s : Sequent) : s.prove.depth ≤ s.complexity := by
  have h := Derivation.depth_le_complexity fun n hn => (children_bounded_of_mem_nodes (s := s) hn).2
  rwa [sequent_prove] at h

theorem size_prove_lt (s : Sequent) : s.prove.size < 2 ^ (s.complexity + 1) :=
  Nat.lt_of_lt_of_le
    (Derivation.size_lt_two_pow fun _ hn => (children_bounded_of_mem_nodes hn).1)
    (Nat.pow_le_pow_right Nat.two_pos (Nat.succ_le_succ s.depth_prove_le))

/-! ## The recursion of the search -/

/-- Why a search with a limit ends without a derivation. -/
inductive SearchError where
  | tooDeep
  | growth (e : GrowthError)
  deriving DecidableEq, Repr

/-- The search as it recurs, from a sequent to its premises.  It goes no deeper than the limit and
has every decomposition guarded. -/
def proveWithin : Nat → Sequent → Except SearchError Derivation
  | 0, _ => .error .tooDeep
  | limit + 1, s =>
    if s.isAxiom then .ok (.leaf s)
    else
      match s.decompose with
      | .error e => .error (.growth e)
      | .ok none => .ok (.leaf s)
      | .ok (some (label, premises)) =>
        (premises.mapM (proveWithin limit)).map (.node s (some label))

/-- **The search ends, and no guard stops it**: it needs no deeper a recursion than the sequent has
connectives, and one more. -/
theorem proveWithin_eq_ok {s : Sequent} {limit : Nat} (h : s.complexity < limit) :
    s.proveWithin limit = .ok s.prove := by
  induction limit generalizing s with
  | zero => exact absurd h (Nat.not_lt_zero _)
  | succ limit ih =>
    cases hax : s.isAxiom with
    | true => rw [proveWithin, if_pos hax, prove_of_isAxiom hax]
    | false =>
      rw [proveWithin, if_neg (by simp [hax]), decompose_eq_ok]
      cases hd : s.decompose? with
      | none => rw [prove_of_decompose?_none hd]
      | some p =>
        obtain ⟨label, premises⟩ := p
        have hpremises : premises.mapM (proveWithin limit) = .ok (premises.map prove) :=
          mapM_eq_ok fun t ht =>
            ih (Nat.lt_of_lt_of_le (complexity_lt_of_mem_premises hd ht) (Nat.le_of_lt_succ h))
        rw [prove_of_decompose? hax hd]
        simp only [hpremises]
        rfl

/-- **Derivations are bounded by complexity.**  Every node has at most two children, and each child is
less complex than the node; the depth is at most the complexity of the sequent, and the size is less
than two to the power of one more.  So the recursion of the search comes to an end within any limit
above the complexity, and the guard of a decomposition never fires. -/
theorem prove_bounded_by_complexity (s : Sequent) :
    (∀ n ∈ s.prove.nodes, n.children.length ≤ 2 ∧
      ∀ c ∈ n.children, c.sequent.complexity < n.sequent.complexity) ∧
    s.prove.depth ≤ s.complexity ∧
    s.prove.size ≤ 2 ^ (s.complexity + 1) - 1 ∧
    (∀ limit, s.complexity < limit → s.proveWithin limit = .ok s.prove) ∧
    s.decompose = .ok s.decompose? :=
  ⟨fun _ hn => children_bounded_of_mem_nodes hn, s.depth_prove_le,
    Nat.le_sub_one_of_lt s.size_prove_lt, fun _ hlimit => proveWithin_eq_ok hlimit,
    s.decompose_eq_ok⟩

/-- The derivation of `p ↔ q ⊢ r` attains the bounds on depth and size, and a recursion that may not
go past the root does not complete it. -/
theorem prove_bounded_by_complexity_attained :
    let s : Sequent := ⟨[.bin .iff (.atom "p") (.atom "q")], [.atom "r"]⟩
    let c : Derivation := .leaf ⟨[], [.atom "r", .atom "p", .atom "q"]⟩
    s.prove ∈ s.prove.nodes ∧ c ∈ s.prove.children ∧
      c.sequent.complexity < s.prove.sequent.complexity ∧
      s.prove.depth = s.complexity ∧ s.prove.size = 2 ^ (s.complexity + 1) - 1 ∧
      s.proveWithin 2 = .ok s.prove ∧ s.proveWithin 1 = .error .tooDeep := by
  intro s c
  have hroot : s.prove ∈ s.prove.nodes := s.prove.self_mem_nodes
  have hchild : c ∈ s.prove.children := by decide +kernel
  obtain ⟨hnodes, hdepth, hsize, hlimit, -⟩ := prove_bounded_by_complexity s
  refine ⟨hroot, hchild, (hnodes _ hroot).2 c hchild, Nat.le_antisymm hdepth (by decide +kernel),
    Nat.le_antisymm hsize (by decide +kernel), hlimit 2 (by decide +kernel), ?_⟩
  exact eq_error_of_error? (by decide +kernel)

end Sequent

end SequentCalculus
