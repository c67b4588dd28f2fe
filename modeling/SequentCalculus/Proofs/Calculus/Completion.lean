import SequentCalculus.Proofs.Calculus.Canonical

/-!
# Proofs/Calculus/Completion — a search completes any tree and keeps what is there

A tree of sequents may be written down by hand, with rules and children that no rule of the calculus
gives.  A search does not check it: it goes down to the leaves and puts the derivation of its sequent
in the place of each.  So the subtree at a path, searched by itself, is the subtree at that path of
the searched tree (`at?_search`), and everything else about the searched tree is read off from there
or from its leaves (`leaves_search`).

Completing a tree twice is completing it once, because a derivation has nothing left to complete
(`search_prove`).
-/

namespace SequentCalculus.Derivation

variable {t n : Derivation}

/-- A leaf is completed by its sequent alone; a rule that it carries is lost. -/
theorem search_of_isLeaf (h : t.isLeaf = true) : t.search = t.sequent.prove := by
  obtain ⟨s, r, cs⟩ := t
  obtain rfl : cs = [] := List.isEmpty_iff.1 h
  rw [search, sequent]

/-- An inner node keeps its sequent and its rule, and its children are completed. -/
theorem search_of_isLeaf_false (h : t.isLeaf = false) :
    t.search = node t.sequent t.rule (t.children.map search) := by
  obtain ⟨s, r, cs⟩ := t
  have hcs : cs ≠ [] := fun hnil => by simp [isLeaf, children, hnil] at h
  exact search_node s r hcs

/-! ## Paths -/

theorem at?_cons {place : Int} {path : List Int} {i : Nat} {c : Derivation}
    (hi : indexOf? t.children.length place = some i) (hc : t.children[i]? = some c) :
    t.at? (place :: path) = c.at? path := by
  rw [at?, hi]
  simp only [hc, Option.bind_some]

theorem isLeaf_false_of_getElem? {i : Nat} {c : Derivation} (h : t.children[i]? = some c) :
    t.isLeaf = false := by
  rw [isLeaf, List.isEmpty_eq_false_iff]
  exact List.ne_nil_of_mem (List.mem_of_getElem? h)

/-- **What stands at a path is completed by itself.** -/
theorem at?_search {path : List Int} (h : t.at? path = some n) :
    t.search.at? path = some n.search := by
  induction path generalizing t with
  | nil =>
    obtain rfl := Option.some.inj h
    rfl
  | cons place path ih =>
    obtain ⟨i, c, hi, hc, hn⟩ := at?_cons_eq_some h
    have hchildren : t.search.children = t.children.map search := by
      rw [search_of_isLeaf_false (isLeaf_false_of_getElem? hc), children]
    have hi' : indexOf? t.search.children.length place = some i := by
      rw [hchildren, List.length_map, hi]
    have hc' : t.search.children[i]? = some c.search := by
      rw [hchildren, List.getElem?_map, hc, Option.map_some]
    rw [at?_cons hi' hc', ih hn]

/-! ## Leaves -/

/-- **The leaves of a completed tree are those of the derivations that stand for its leaves.** -/
theorem leaves_search (t : Derivation) :
    t.search.leaves = t.leaves.flatMap fun l => l.sequent.prove.leaves := by
  induction t using nodeInduction with
  | node s r cs ih =>
    by_cases hcs : cs = []
    · subst hcs
      rw [search, leaves_childless, List.flatMap_singleton, sequent]
    · have hmap : cs.map search ≠ [] := List.map_eq_nil_iff.not.2 hcs
      rw [search_node s r hcs, leaves_node s r hmap, leaves_node s r hcs, List.flatMap_map,
        List.flatMap_assoc]
      exact List.flatMap_congr ih

/-- A derivation has no pending leaf. -/
theorem status_ne_pending_of_mem_leaves {s : Sequent} {l : Derivation} (h : l ∈ s.prove.leaves) :
    l.status ≠ .pending := by
  obtain ⟨hn, hleaf⟩ := List.mem_filter.1 h
  have hcanonical : l.IsCanonical := by
    rw [Sequent.eq_prove_of_mem_nodes hn]
    exact isCanonical_prove _
  exact (hcanonical.1 (List.isEmpty_iff.1 hleaf)).2

/-! ## Completing twice -/

theorem search_prove (s : Sequent) : s.prove.search = s.prove := by
  rw [(isPartial_prove s).search_eq, Sequent.sequent_prove]

theorem search_search (t : Derivation) : t.search.search = t.search := by
  induction t using nodeInduction with
  | node s r cs ih =>
    by_cases hcs : cs = []
    · subst hcs
      rw [search, search_prove]
    · have hmap : cs.map search ≠ [] := List.map_eq_nil_iff.not.2 hcs
      rw [search_node s r hcs, search_node s r hmap, List.map_map]
      exact congrArg (node s r) (List.map_congr_left ih)

/-- **A search completes any tree and keeps what is there.**  Wherever the tree has an inner node, the
completed tree has one with the same sequent, rule and number of children; wherever it has a leaf,
the completed tree has the derivation of the leaf's sequent.  No leaf is pending then, and a further
search changes nothing. -/
theorem search_completes (t : Derivation) :
    (∀ path n, t.at? path = some n → n.isLeaf = false →
      ∃ m, t.search.at? path = some m ∧ m.sequent = n.sequent ∧ m.rule = n.rule ∧
        m.children.length = n.children.length) ∧
    (∀ path l, t.at? path = some l → l.isLeaf = true →
      t.search.at? path = some l.sequent.prove) ∧
    (∀ l ∈ t.search.leaves, l.status ≠ .pending) ∧
    t.search.search = t.search := by
  refine ⟨fun path n hn hinner => ?_, fun path l hl hleaf => ?_, fun l hl => ?_, search_search t⟩
  · refine ⟨n.search, at?_search hn, ?_⟩
    rw [search_of_isLeaf_false hinner]
    exact ⟨rfl, rfl, List.length_map _⟩
  · rw [at?_search hl, search_of_isLeaf hleaf]
  · rw [leaves_search] at hl
    obtain ⟨k, -, hk⟩ := List.mem_flatMap.1 hl
    exact status_ne_pending_of_mem_leaves hk

/-- A tree that is no derivation: an axiom stands on two children, the first a leaf that carries a
rule, the second an inner node without one. -/
def misbuilt : Derivation :=
  let p : Formula := .atom "p"
  let q : Formula := .atom "q"
  node ⟨[p], [p]⟩ (some "cut")
    [node ⟨[], [.bin .or p (.neg p)]⟩ (some "∧L") [],
      node ⟨[q], []⟩ none [leaf ⟨[.bin .and p q], [q]⟩]]

/-- The axiom keeps its rule and both children, the leaf with the wrong rule becomes a derivation with
the right one, and so does the leaf under the node without a rule, found by its path from the end. -/
theorem search_completes_misbuilt :
    (∃ m, misbuilt.search.at? [] = some m ∧ m.rule = some "cut" ∧ m.children.length = 2) ∧
    (∃ m, misbuilt.search.at? [1] = some m ∧ m.rule = none ∧ m.children.length = 1) ∧
    misbuilt.search.at? [0] = some (Sequent.prove ⟨[], [.bin .or (.atom "p") (.neg (.atom "p"))]⟩) ∧
    misbuilt.search.at? [-1, -1] =
      some (Sequent.prove ⟨[.bin .and (.atom "p") (.atom "q")], [.atom "q"]⟩) ∧
    (leaf ⟨[.atom "p"], [.atom "p"]⟩).status ≠ .pending := by
  obtain ⟨hinner, hleaf, hdone, -⟩ := search_completes misbuilt
  have hclosed : leaf ⟨[.atom "p"], [.atom "p"]⟩ ∈ misbuilt.search.leaves := by decide +kernel
  refine ⟨?_, ?_, hleaf [0] (node _ (some "∧L") []) rfl rfl, hleaf [-1, -1] (leaf _) rfl rfl,
    hdone _ hclosed⟩
  · obtain ⟨m, hm, -, hrule, hlength⟩ := hinner [] _ rfl rfl
    exact ⟨m, hm, hrule, hlength⟩
  · obtain ⟨m, hm, -, hrule, hlength⟩ := hinner [1] _ rfl rfl
    exact ⟨m, hm, hrule, hlength⟩

end SequentCalculus.Derivation
