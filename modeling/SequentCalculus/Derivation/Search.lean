import SequentCalculus.Derivation.Basic

/-!
# Derivation/Search — the proof search

`prove` takes a sequent apart until every branch ends in an axiom or in atoms alone.  It stops at an
axiom even if compound formulas are left.  `search` completes a tree that is already there: inner
nodes stay as they are, and each leaf becomes the derivation of its sequent.  `step` applies one rule
to one leaf.
-/

namespace SequentCalculus

/-- The derivation of a sequent: an axiom is a leaf, a sequent of atoms is a leaf, and any other
sequent stands on the derivations of its premises. -/
def Sequent.prove (s : Sequent) : Derivation :=
  if s.isAxiom then .leaf s
  else
    match _h : s.decompose? with
    | none => .leaf s
    | some (label, premises) =>
      .node s (some label) (premises.attach.map fun p => prove p.1)
termination_by s.complexity
decreasing_by exact Sequent.complexity_lt_of_mem_premises _h p.2

/-- Whether a sequent is valid, by proof search. -/
def Sequent.isValid (s : Sequent) : Bool := s.prove.isClosed

theorem Sequent.prove_of_isAxiom {s : Sequent} (h : s.isAxiom = true) : s.prove = .leaf s := by
  rw [Sequent.prove, if_pos h]

theorem Sequent.prove_of_decompose?_none {s : Sequent} (h : s.decompose? = none) :
    s.prove = .leaf s := by
  rw [Sequent.prove]
  split
  · rfl
  · split
    · rfl
    · rename_i hsome
      rw [h] at hsome
      cases hsome

/-- **A sequent that is no axiom stands on the derivations of its premises.** -/
theorem Sequent.prove_of_decompose? {s : Sequent} {label : String} {premises : List Sequent}
    (ha : s.isAxiom = false) (h : s.decompose? = some (label, premises)) :
    s.prove = .node s (some label) (premises.map Sequent.prove) := by
  rw [Sequent.prove, if_neg (by simp [ha])]
  split
  · rename_i hnone
    rw [h] at hnone
    cases hnone
  · rename_i label' premises' hsome
    rw [h] at hsome
    obtain ⟨rfl, rfl⟩ := Prod.mk.inj (Option.some.inj hsome)
    rw [List.attach_map_val]

namespace Derivation

mutual

/-- The tree with every leaf replaced by the derivation of its sequent. -/
def search : Derivation → Derivation
  | node s _ [] => s.prove
  | node s r (t :: ts) => node s r (search t :: searchForest ts)

/-- The trees with every leaf replaced by the derivation of its sequent. -/
def searchForest : List Derivation → List Derivation
  | [] => []
  | t :: ts => search t :: searchForest ts

end

/-- A rule was to be applied to a node that already has children. -/
structure StepError where
  sequent : Sequent
  deriving DecidableEq, Repr

/-- The text of the error. -/
def StepError.message (e : StepError) : String :=
  e.sequent.display ++ " has already been decomposed"

/-- The tree after one rule at its root, which must be a leaf.  An axiom and a sequent of atoms stay
as they are. -/
def step (t : Derivation) : Except StepError Derivation :=
  if t.isLeaf then
    if t.status = .pending then
      match t.sequent.decompose? with
      | none => .ok t
      | some (label, premises) => .ok (node t.sequent (some label) (premises.map leaf))
    else .ok t
  else .error ⟨t.sequent⟩

/-- What the proof search reports while it builds a tree, one message per node in the order of the
walk. -/
def searchLog (t : Derivation) : List String :=
  t.walk.map fun (n, _) =>
    match n.rule with
    | some label => s!"{n.sequent.display}: {label} yields {n.children.length} child(ren)"
    | none =>
      if n.sequent.isAxiom then "axiom: " ++ n.sequent.display
      else "counter-example: " ++ n.sequent.display

end Derivation

end SequentCalculus
