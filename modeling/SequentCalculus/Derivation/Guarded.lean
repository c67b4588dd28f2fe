import SequentCalculus.Countermodel
import SequentCalculus.Derivation.Search
import SequentCalculus.Sequent.Decomposition

/-!
# Derivation/Guarded — the searches with the checks that they make as they go

A search ends because every premise is less complex than its conclusion, and a leaf describes a
countermodel because it is irreducible.  The searches here check the one at every decomposition and
the other at every leaf, and end in an error where a check fails.
-/

namespace SequentCalculus.Sequent

/-- The derivation of a sequent, as by `prove`, with every decomposition guarded. -/
def proveGuarded (s : Sequent) : Except GrowthError Derivation :=
  if s.isAxiom then .ok (.leaf s)
  else
    match _h : s.decompose with
    | .error e => .error e
    | .ok none => .ok (.leaf s)
    | .ok (some (label, premises)) =>
      (premises.attach.mapM fun p => proveGuarded p.1).map (.node s (some label))
termination_by s.complexity
decreasing_by
  rw [decompose_eq_ok] at _h
  exact complexity_lt_of_mem_premises (Except.ok.inj _h) p.2

/-- The sequents of atoms that a stack of sequents leads to, as by `witnessesOf`, with every
decomposition guarded. -/
def witnessesOfGuarded : List Sequent → Except GrowthError (List Sequent)
  | [] => .ok []
  | s :: pending =>
    if s.isAxiom then witnessesOfGuarded pending
    else
      match _h : s.decompose with
      | .error e => .error e
      | .ok none => (witnessesOfGuarded pending).map (s :: ·)
      | .ok (some (_, premises)) => witnessesOfGuarded (premises ++ pending)
termination_by pending => stackMeasure pending
decreasing_by
  · exact stackMeasure_lt_cons s pending
  · exact stackMeasure_lt_cons s pending
  · rw [decompose_eq_ok] at _h
    exact stackMeasure_premises_append_lt (Except.ok.inj _h) pending

/-- The sequents of atoms that falsify a sequent, with every decomposition guarded. -/
def witnessesGuarded (s : Sequent) : Except GrowthError (List Sequent) := witnessesOfGuarded [s]

/-- What some leaves say of the atoms, each observation once.  A leaf that is reducible is an
error. -/
def observe (leaves : List Sequent) : Except ReducibleError (List (String × Bool)) :=
  leaves.foldlM (fun seen leaf => leaf.refutation?.map (mergeObservations seen)) []

end SequentCalculus.Sequent
