import SequentCalculus.Countermodel
import SequentCalculus.Proofs.Calculus.Trees

/-!
# Proofs/Calculus/StackSearch — the stack search walks the derivation

The search for witnesses keeps a stack of sequents and builds no tree; proof search builds the tree
and reads the counter-examples off its leaves.  They visit the same sequents in the same order: what
a stack leads to is, sequent by sequent from the top, what the derivations of its sequents hold
(`witnessesOf_eq_flatMap`).

`StackSearch` is the loop itself, a turn at a time, on a stack whose top is the *last* entry.  A turn
takes one sequent off and may put two on, so the stack can grow; it is the derivation above the stack
that shrinks, by one node a turn.  So the loop ends, after as many turns as the derivation has nodes
(`ends_iff`).
-/

namespace SequentCalculus

namespace Sequent

/-- The counter-examples of a sequent, read off its derivation. -/
def counterExamples (s : Sequent) : List Sequent :=
  s.prove.counterExamples.map Derivation.sequent

theorem counterExamples_of_isAxiom {s : Sequent} (h : s.isAxiom = true) :
    s.counterExamples = [] := by
  rw [counterExamples, prove_of_isAxiom h, Derivation.counterExamples_leaf, status_of_isAxiom h]
  rfl

theorem counterExamples_of_decompose?_none {s : Sequent} (hax : s.isAxiom = false)
    (h : s.decompose? = none) : s.counterExamples = [s] := by
  have hstatus := status_of_isIrreducible (isIrreducible_of_decompose?_none hax h)
  rw [counterExamples, prove_of_decompose?_none h, Derivation.counterExamples_leaf, hstatus]
  rfl

theorem counterExamples_of_decompose? {s : Sequent} {label : String} {premises : List Sequent}
    (hax : s.isAxiom = false) (h : s.decompose? = some (label, premises)) :
    s.counterExamples = premises.flatMap counterExamples := by
  rw [counterExamples, prove_of_decompose? hax h,
    Derivation.counterExamples_node s _ (map_premises_ne_nil h prove), List.flatMap_map,
    List.map_flatMap]
  rfl

/-- **A stack leads to the counter-examples of its sequents, from the top on.** -/
theorem witnessesOf_eq_flatMap (pending : List Sequent) :
    witnessesOf pending = pending.flatMap counterExamples := by
  fun_induction witnessesOf pending with
  | case1 => rfl
  | case2 s pending hax ih =>
    rw [List.flatMap_cons, counterExamples_of_isAxiom hax, ih, List.nil_append]
  | case3 s pending hax hd ih =>
    rw [List.flatMap_cons, counterExamples_of_decompose?_none (by simpa using hax) hd, ih,
      List.singleton_append]
  | case4 s pending hax label premises hd ih =>
    rw [List.flatMap_cons, counterExamples_of_decompose? (by simpa using hax) hd, ih,
      List.flatMap_append]

/-- The number of nodes in the derivations of some sequents. -/
def derivationSize (pending : List Sequent) : Nat := (pending.flatMap (·.prove.nodes)).length

theorem derivationSize_cons_of_leaf {s : Sequent} (h : s.prove = .leaf s) (pending : List Sequent) :
    derivationSize (s :: pending) = derivationSize pending + 1 := by
  rw [derivationSize, List.flatMap_cons, h, Derivation.nodes_leaf]
  rfl

theorem derivationSize_cons_of_decompose? {s : Sequent} {label : String} {premises : List Sequent}
    (hax : s.isAxiom = false) (h : s.decompose? = some (label, premises))
    (pending : List Sequent) :
    derivationSize (s :: pending) = derivationSize (premises ++ pending) + 1 := by
  rw [derivationSize, List.flatMap_cons, prove_of_decompose? hax h, Derivation.nodes_node,
    List.flatMap_map, derivationSize, List.flatMap_append]
  rfl

end Sequent

/-! ## The loop, a turn at a time -/

/-- The search between two turns of its loop: the sequents still pending, the next one last, and the
witnesses found so far. -/
structure StackSearch where
  pending : List Sequent
  found : List Sequent

namespace StackSearch

/-- One turn, if a sequent is pending.  It is taken off the end; an axiom is dropped, a sequent of
atoms is found, and any other is replaced by its premises, the first of them last. -/
def turn (q : StackSearch) : Option StackSearch :=
  match q.pending.getLast? with
  | none => none
  | some s =>
    let rest := q.pending.dropLast
    if s.isAxiom then some ⟨rest, q.found⟩
    else
      match s.decompose? with
      | none => some ⟨rest, q.found ++ [s]⟩
      | some (_, premises) => some ⟨rest ++ premises.reverse, q.found⟩

/-- The loop comes to an end after a number of turns, with these witnesses. -/
inductive Ends : StackSearch → Nat → List Sequent → Prop
  | done {q : StackSearch} : q.turn = none → Ends q 0 q.found
  | more {q q' : StackSearch} {turns : Nat} {out : List Sequent} :
      q.turn = some q' → Ends q' turns out → Ends q (turns + 1) out

theorem turn_nil (found : List Sequent) : turn ⟨[], found⟩ = none := rfl

theorem turn_of_isAxiom {s : Sequent} (h : s.isAxiom = true) (rest found : List Sequent) :
    turn ⟨rest ++ [s], found⟩ = some ⟨rest, found⟩ := by
  simp [turn, h]

theorem turn_of_decompose?_none {s : Sequent} (hax : s.isAxiom = false)
    (h : s.decompose? = none) (rest found : List Sequent) :
    turn ⟨rest ++ [s], found⟩ = some ⟨rest, found ++ [s]⟩ := by
  simp [turn, hax, h]

theorem turn_of_decompose? {s : Sequent} {label : String} {premises : List Sequent}
    (hax : s.isAxiom = false) (h : s.decompose? = some (label, premises))
    (rest found : List Sequent) :
    turn ⟨rest ++ [s], found⟩ = some ⟨rest ++ premises.reverse, found⟩ := by
  simp [turn, hax, h]

/-- The loop is a function of where it starts. -/
theorem Ends.unique {q : StackSearch} {m n : Nat} {out out' : List Sequent} (h : Ends q m out)
    (h' : Ends q n out') : m = n ∧ out = out' := by
  induction h generalizing n out' with
  | done hq =>
    cases h' with
    | done _ => exact ⟨rfl, rfl⟩
    | more hq' _ =>
      rw [hq] at hq'
      cases hq'
  | more hq _ ih =>
    cases h' with
    | done hq' =>
      rw [hq] at hq'
      cases hq'
    | more hq' h' =>
      rw [hq] at hq'
      obtain rfl := Option.some.inj hq'
      obtain ⟨rfl, rfl⟩ := ih h'
      exact ⟨rfl, rfl⟩

/-- **The loop ends from every stack.**  Each turn uses up one node of the derivations of the
pending sequents; what it finds is added behind what was found before. -/
theorem ends_of_pending (pending found : List Sequent) :
    Ends ⟨pending.reverse, found⟩ (Sequent.derivationSize pending)
      (found ++ Sequent.witnessesOf pending) := by
  fun_induction Sequent.witnessesOf pending generalizing found with
  | case1 =>
    rw [List.append_nil]
    exact Ends.done (turn_nil found)
  | case2 s pending hax ih =>
    rw [List.reverse_cons,
      Sequent.derivationSize_cons_of_leaf (Sequent.prove_of_isAxiom hax) pending]
    exact Ends.more (turn_of_isAxiom hax _ _) (ih found)
  | case3 s pending hax hd ih =>
    have hax : s.isAxiom = false := by simpa using hax
    have ih := ih (found ++ [s])
    rw [List.append_assoc, List.singleton_append] at ih
    rw [List.reverse_cons,
      Sequent.derivationSize_cons_of_leaf (Sequent.prove_of_decompose?_none hd) pending]
    exact Ends.more (turn_of_decompose?_none hax hd _ _) ih
  | case4 s pending hax label premises hd ih =>
    have hax : s.isAxiom = false := by simpa using hax
    have ih := ih found
    rw [List.reverse_append] at ih
    rw [List.reverse_cons, Sequent.derivationSize_cons_of_decompose? hax hd pending]
    exact Ends.more (turn_of_decompose? hax hd _ _) ih

/-- From a single sequent the loop takes one turn for each node of the derivation. -/
theorem ends_iff (s : Sequent) (turns : Nat) (out : List Sequent) :
    Ends ⟨[s], []⟩ turns out ↔ turns = s.prove.size ∧ out = s.witnesses := by
  have hends : Ends ⟨[s], []⟩ s.prove.size s.witnesses := by
    have h := ends_of_pending [s] []
    have hsize : Sequent.derivationSize [s] = s.prove.size := by
      simp [Sequent.derivationSize, Derivation.nodes, Derivation.size]
    rw [hsize] at h
    exact h
  constructor
  · exact fun h => h.unique hends
  · rintro ⟨rfl, rfl⟩
    exact hends

end StackSearch

/-- **The two searches agree.**  The loop on the stack ends, after as many turns as the derivation
has nodes and with nothing but the witnesses; and these are, in order and with all repetitions, the
sequents of the counter-examples of the derivation. -/
theorem Sequent.witnesses_eq_counterExamples (s : Sequent) :
    (∀ turns out, StackSearch.Ends ⟨[s], []⟩ turns out ↔
      turns = s.prove.size ∧ out = s.witnesses) ∧
    s.witnesses = s.prove.counterExamples.map Derivation.sequent := by
  refine ⟨StackSearch.ends_iff s, ?_⟩
  rw [witnesses, witnessesOf_eq_flatMap, List.flatMap_singleton]
  rfl

end SequentCalculus
