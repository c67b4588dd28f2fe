import Mathlib.Data.List.Basic
import SequentCalculus.Proofs.Calculus.Trees

/-!
# Proofs/Calculus/Interleaving — stepping and searching in any order end in the same derivation

A derivation can be grown from a single sequent by steps and searches at any of its nodes, in any
order.  Every tree on the way is *partial* (`IsPartial`): its inner nodes carry the rule and the
premises that the calculus prescribes, its leaves are sequents still to be looked at.  A step and a
search each turn a partial tree into one with the same sequent at the root, and so does putting such
a tree in the place of a node (`IsPartial.replaceAt`); hence a move does, and any run of moves.

A partial tree is determined by its sequent up to how far it has been grown.  Completing it gives
the derivation of the sequent (`IsPartial.search_eq`), and where nothing is left to complete it is
that derivation already (`IsPartial.eq_prove`).
-/

namespace SequentCalculus

theorem Sequent.isAxiom_of_status_pending {s : Sequent} (h : s.status = .pending) :
    s.isAxiom = false := by
  rw [← Bool.not_eq_true]
  intro hax
  rw [status_of_isAxiom hax] at h
  cases h

/-- A sequent that is not pending is its own derivation. -/
theorem Sequent.prove_of_status_ne_pending {s : Sequent} (h : s.status ≠ .pending) :
    s.prove = .leaf s := by
  obtain ⟨-, hprove⟩ | ⟨_, _, hpending, -⟩ := s.prove_cases
  · exact hprove
  · exact absurd hpending h

namespace Derivation

/-! ## Moves -/

/-- A move on a tree, at the node that a path leads to. -/
inductive Move where
  | step (path : List Int)
  | search (path : List Int)
  deriving DecidableEq, Repr

/-- The tree after a move; the nodes above the path keep their sequents and rules.  A path that leads
to no node and a step that is refused leave the tree as it was. -/
def move (t : Derivation) : Move → Derivation
  | .step path =>
    match t.at? path with
    | none => t
    | some n =>
      match n.step with
      | .ok n' => t.replaceAt path n'
      | .error _ => t
  | .search path =>
    match t.at? path with
    | none => t
    | some n => t.replaceAt path n.search

/-- The tree after some moves, one after the other. -/
def moves (t : Derivation) (ms : List Move) : Derivation := ms.foldl move t

/-! ## Searching, node by node -/

theorem searchForest_eq_map (ts : List Derivation) : searchForest ts = ts.map search := by
  induction ts with
  | nil => rfl
  | cons t ts ih => rw [searchForest, ih, List.map_cons]

@[simp] theorem search_leaf (s : Sequent) : (leaf s).search = s.prove := by
  rw [leaf, search]

theorem search_node (s : Sequent) (r : Option String) {cs : List Derivation} (h : cs ≠ []) :
    (node s r cs).search = node s r (cs.map search) := by
  obtain ⟨c, cs, rfl⟩ := List.exists_cons_of_ne_nil h
  rw [search, searchForest_eq_map, List.map_cons]

/-! ## Partial derivations -/

/-- Every inner node has the rule and the premises of its sequent, which is no axiom. -/
inductive IsPartial : Derivation → Prop
  | leaf (s : Sequent) : IsPartial (leaf s)
  | node {s : Sequent} {label : String} {ts : List Derivation} :
      s.isAxiom = false → s.decompose? = some (label, ts.map sequent) →
      (∀ t ∈ ts, IsPartial t) → IsPartial (node s (some label) ts)

/-- A rule has a premise, so an inner node has a child. -/
theorem ne_nil_of_decompose? {s : Sequent} {label : String} {ts : List Derivation}
    (h : s.decompose? = some (label, ts.map sequent)) : ts ≠ [] := fun hnil =>
  Sequent.premises_ne_nil h (by rw [hnil, List.map_nil])

/-- The derivation of a sequent is partial. -/
theorem isPartial_prove (s : Sequent) : IsPartial s.prove := by
  induction s using Sequent.searchInduction with
  | axiomatic s hax => rw [Sequent.prove_of_isAxiom hax]; exact .leaf s
  | irreducible s _ hd => rw [Sequent.prove_of_decompose?_none hd]; exact .leaf s
  | reducible s label premises hax hd ih =>
    rw [Sequent.prove_of_decompose? hax hd]
    exact .node hax (by rw [Sequent.map_sequent_prove, hd]) (List.forall_mem_map.2 ih)

namespace IsPartial

variable {t u n : Derivation}

/-- **Completing a partial derivation gives the derivation of its sequent.** -/
theorem search_eq (h : IsPartial t) : t.search = t.sequent.prove := by
  induction h with
  | leaf s => rw [search_leaf, sequent_leaf]
  | @node s label ts hax hd _ ih =>
    rw [search_node s _ (ne_nil_of_decompose? hd), sequent, Sequent.prove_of_decompose? hax hd,
      List.map_map]
    exact congrArg (Derivation.node s (some label)) (List.map_congr_left ih)

/-- **A partial derivation without a pending leaf is the derivation of its sequent.** -/
theorem eq_prove (h : IsPartial t) (hdone : ∀ l ∈ t.leaves, l.status ≠ .pending) :
    t = t.sequent.prove := by
  induction h with
  | leaf s =>
    rw [leaves_leaf] at hdone
    exact (Sequent.prove_of_status_ne_pending (hdone _ (List.mem_singleton.2 rfl))).symm
  | @node s label ts hax hd _ ih =>
    rw [leaves_node s _ (ne_nil_of_decompose? hd)] at hdone
    have hchildren : ∀ t ∈ ts, t = t.sequent.prove := fun t ht =>
      ih t ht fun l hl => hdone l (List.mem_flatMap.2 ⟨t, ht, hl⟩)
    rw [sequent, Sequent.prove_of_decompose? hax hd, List.map_map]
    refine congrArg (Derivation.node s (some label)) ?_
    conv_lhs => rw [← List.map_id ts]
    exact List.map_congr_left hchildren

/-- A search keeps a derivation partial, with the sequent it had. -/
theorem search (h : IsPartial t) : IsPartial t.search ∧ t.search.sequent = t.sequent := by
  rw [h.search_eq, Sequent.sequent_prove]
  exact ⟨isPartial_prove _, rfl⟩

/-- A step keeps a derivation partial, with the sequent it had. -/
theorem step (h : IsPartial t) (hstep : t.step = .ok u) :
    IsPartial u ∧ u.sequent = t.sequent := by
  rw [Derivation.step] at hstep
  split at hstep
  · split at hstep
    · rename_i hpending
      split at hstep
      · obtain rfl := Except.ok.inj hstep
        exact ⟨h, rfl⟩
      · rename_i label premises hd
        obtain rfl := Except.ok.inj hstep
        have hsequents : (premises.map Derivation.leaf).map sequent = premises := by
          simp [Function.comp_def]
        refine ⟨.node (Sequent.isAxiom_of_status_pending hpending) (by rw [hsequents, hd]) ?_, rfl⟩
        exact List.forall_mem_map.2 fun p _ => .leaf p
    · obtain rfl := Except.ok.inj hstep
      exact ⟨h, rfl⟩
  · cases hstep

/-- The children of a partial derivation are partial. -/
theorem of_mem_children (h : IsPartial t) (hu : u ∈ t.children) : IsPartial u := by
  cases h with
  | leaf s => cases hu
  | node _ _ hts => exact hts u hu

/-- Putting a tree with the same sequent in the place of a child. -/
theorem set (h : IsPartial t) {i : Nat} {c : Derivation} (hc : t.children[i]? = some c)
    (hu : IsPartial u) (hsequent : u.sequent = c.sequent) :
    IsPartial (Derivation.node t.sequent t.rule (t.children.set i u)) := by
  cases h with
  | leaf s => exact absurd (List.mem_of_getElem? hc) List.not_mem_nil
  | @node s label ts hax hd hts =>
    have hget : (ts.map sequent)[i]? = some u.sequent := by
      rw [List.getElem?_map, hsequent]
      exact congrArg (Option.map sequent) hc
    have hsequents : (ts.set i u).map sequent = ts.map sequent := by
      obtain ⟨hi, hself⟩ := List.getElem?_eq_some_iff.1 hget
      rw [List.map_set, ← hself, List.set_getElem_self]
    refine .node hax (by rw [sequent, children, hsequents, hd]) fun v hv => ?_
    rcases List.mem_or_eq_of_mem_set hv with hv | rfl
    · exact hts v hv
    · exact hu

end IsPartial

/-! ## Paths -/

/-- A path that leads to a node goes through a child. -/
theorem at?_cons_eq_some {place : Int} {path : List Int} {t n : Derivation}
    (h : at? (place :: path) t = some n) :
    ∃ i c, indexOf? t.children.length place = some i ∧ t.children[i]? = some c ∧
      at? path c = some n := by
  rw [at?] at h
  split at h
  · cases h
  · rename_i i hi
    obtain ⟨c, hc, hn⟩ := Option.bind_eq_some_iff.1 h
    exact ⟨i, c, hi, hc, hn⟩

/-- Below a child, another subtree is put into the child. -/
theorem replaceAt_cons {place : Int} {path : List Int} {t c : Derivation} {i : Nat}
    (hi : indexOf? t.children.length place = some i) (hc : t.children[i]? = some c)
    (u : Derivation) :
    t.replaceAt (place :: path) u =
      node t.sequent t.rule (t.children.set i (replaceAt path c u)) := by
  have : Inhabited Derivation := ⟨c⟩
  rw [replaceAt, hi]
  simp only [List.modify_eq_set, hc, Option.getD_some]

/-- Every node of a partial derivation is partial. -/
theorem IsPartial.at? {t n : Derivation} {path : List Int} (h : IsPartial t)
    (hn : at? path t = some n) : IsPartial n := by
  induction path generalizing t with
  | nil => exact Option.some.inj hn ▸ h
  | cons place path ih =>
    obtain ⟨i, c, -, hc, hn⟩ := at?_cons_eq_some hn
    exact ih (h.of_mem_children (List.mem_of_getElem? hc)) hn

/-- **A partial derivation stays partial when a node makes room for a partial derivation of the same
sequent.** -/
theorem IsPartial.replaceAt {t n u : Derivation} {path : List Int} (h : IsPartial t)
    (hn : Derivation.at? path t = some n) (hu : IsPartial u) (hsequent : u.sequent = n.sequent) :
    IsPartial (Derivation.replaceAt path t u) ∧
      (Derivation.replaceAt path t u).sequent = t.sequent := by
  induction path generalizing t with
  | nil =>
    obtain rfl := Option.some.inj hn
    exact ⟨hu, hsequent⟩
  | cons place path ih =>
    obtain ⟨i, c, hi, hc, hn⟩ := at?_cons_eq_some hn
    obtain ⟨hchild, hchildSequent⟩ := ih (h.of_mem_children (List.mem_of_getElem? hc)) hn
    rw [replaceAt_cons hi hc]
    exact ⟨h.set hc hchild hchildSequent, rfl⟩

/-! ## Runs of moves -/

/-- **What one move keeps**: the tree is partial and has the same sequent at the root. -/
theorem IsPartial.move {t : Derivation} (h : IsPartial t) (m : Move) :
    IsPartial (t.move m) ∧ (t.move m).sequent = t.sequent := by
  match m with
  | .step path =>
    rw [Derivation.move]
    split
    · exact ⟨h, rfl⟩
    · rename_i n hn
      split
      · rename_i n' hstep
        obtain ⟨hpartial, hsequent⟩ := (h.at? hn).step hstep
        exact h.replaceAt hn hpartial hsequent
      · exact ⟨h, rfl⟩
  | .search path =>
    rw [Derivation.move]
    split
    · exact ⟨h, rfl⟩
    · rename_i n hn
      obtain ⟨hpartial, hsequent⟩ := (h.at? hn).search
      exact h.replaceAt hn hpartial hsequent

/-- **What a run of moves keeps.** -/
theorem IsPartial.moves {t : Derivation} (h : IsPartial t) (ms : List Move) :
    IsPartial (t.moves ms) ∧ (t.moves ms).sequent = t.sequent := by
  induction ms generalizing t with
  | nil => exact ⟨h, rfl⟩
  | cons m ms ih =>
    obtain ⟨hmove, hsequent⟩ := h.move m
    obtain ⟨hmoves, hsequents⟩ := ih hmove
    exact ⟨hmoves, hsequents.trans hsequent⟩

/-- A step at a node that has children is refused. -/
theorem step_of_isLeaf_false {n : Derivation} (h : n.isLeaf = false) :
    n.step = .error ⟨n.sequent⟩ := by
  rw [step, if_neg (by simp [h])]

/-- **Stepping and searching are confluent.**  Whatever moves are made from a single sequent, a search
of the tree that they lead to gives the derivation of the sequent; and if no leaf of the tree is
pending, the tree is that derivation.  A step at a node that has children is refused and changes
nothing. -/
theorem search_moves_eq_prove (s : Sequent) (ms : List Move) :
    ((leaf s).moves ms).search = s.prove ∧
    ((∀ l ∈ ((leaf s).moves ms).leaves, l.status ≠ .pending) → (leaf s).moves ms = s.prove) ∧
    ∀ path n, ((leaf s).moves ms).at? path = some n → n.isLeaf = false →
      n.step = .error ⟨n.sequent⟩ ∧
        ((leaf s).moves ms).move (.step path) = (leaf s).moves ms := by
  obtain ⟨hpartial, hsequent⟩ := (IsPartial.leaf s).moves ms
  rw [sequent_leaf] at hsequent
  refine ⟨?_, fun hdone => ?_, fun path n hn hinner => ?_⟩
  · rw [hpartial.search_eq, hsequent]
  · rw [hpartial.eq_prove hdone, hsequent]
  · have hrefused := step_of_isLeaf_false hinner
    refine ⟨hrefused, ?_⟩
    simp only [move, hn, hrefused]

/-- `p ∨ q ⊢ p ∧ r` is stepped at the root, searched in its last branch and stepped in its first; in
between a step at the root is refused.  Nothing is pending then. -/
theorem search_moves_eq_prove_of_branches :
    let s : Sequent := ⟨[.bin .or (.atom "p") (.atom "q")], [.bin .and (.atom "p") (.atom "r")]⟩
    let ms : List Move := [.step [], .search [-1], .step [], .step [0]]
    (∀ l ∈ ((leaf s).moves ms).leaves, l.status ≠ .pending) ∧ (leaf s).moves ms = s.prove ∧
      ((leaf s).moves ms).move (.step [1]) = (leaf s).moves ms := by
  intro s ms
  have hdone : ∀ l ∈ ((leaf s).moves ms).leaves, l.status ≠ .pending := by decide +kernel
  obtain ⟨-, hprove, hrefused⟩ := search_moves_eq_prove s ms
  have hn : ((leaf s).moves ms).at? [1] =
      some (Sequent.prove ⟨[.atom "q"], [.bin .and (.atom "p") (.atom "r")]⟩) := by
    decide +kernel
  exact ⟨hdone, hprove hdone, (hrefused [1] _ hn (by decide +kernel)).2⟩

end Derivation

end SequentCalculus
