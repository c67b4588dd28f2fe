import SequentCalculus.Derivation.Guarded
import SequentCalculus.Proofs.Calculus.Observations
import SequentCalculus.Proofs.Calculus.StackSearch

/-!
# Proofs/Calculus/Guards — the checks of the searches never fail

Every premise is less complex than its conclusion, so no decomposition is stopped: the guarded searches
come to what the searches without guards come to (`proveGuarded_eq_ok`, `witnessesGuarded_eq_ok`).
The witnesses are irreducible, so all of them can be observed (`observe_witnesses`).
-/

namespace SequentCalculus.Sequent

/-- **No guard stops the proof search.** -/
theorem proveGuarded_eq_ok (s : Sequent) : s.proveGuarded = .ok s.prove := by
  fun_induction proveGuarded s with
  | case1 s hax => rw [prove_of_isAxiom hax]
  | case2 s _ e he =>
    rw [decompose_eq_ok] at he
    cases he
  | case3 s _ hd =>
    rw [decompose_eq_ok] at hd
    rw [prove_of_decompose?_none (Except.ok.inj hd)]
  | case4 s hax label premises hd ih =>
    rw [decompose_eq_ok] at hd
    rw [prove_of_decompose? (by simpa using hax) (Except.ok.inj hd),
      mapM_eq_ok (g := fun p => p.1.prove) fun p _ => ih p, List.attach_map_val]
    rfl

/-- **No guard stops the search for witnesses**: a stack leads to the counter-examples of its sequents,
from the top on. -/
theorem witnessesOfGuarded_eq_ok (pending : List Sequent) :
    witnessesOfGuarded pending = .ok (witnessesOf pending) := by
  rw [witnessesOf_eq_flatMap]
  fun_induction witnessesOfGuarded pending with
  | case1 => rfl
  | case2 s pending hax ih =>
    rw [ih, List.flatMap_cons, counterExamples_of_isAxiom hax, List.nil_append]
  | case3 s pending _ e he =>
    rw [decompose_eq_ok] at he
    cases he
  | case4 s pending hax hd ih =>
    rw [decompose_eq_ok] at hd
    rw [ih, List.flatMap_cons,
      counterExamples_of_decompose?_none (by simpa using hax) (Except.ok.inj hd)]
    rfl
  | case5 s pending hax label premises hd ih =>
    rw [decompose_eq_ok] at hd
    rw [ih, List.flatMap_cons, List.flatMap_append,
      counterExamples_of_decompose? (by simpa using hax) (Except.ok.inj hd)]

theorem witnessesGuarded_eq_ok (s : Sequent) : s.witnessesGuarded = .ok s.witnesses :=
  witnessesOfGuarded_eq_ok [s]

/-- **The witnesses can be observed**, and what they say are the observations. -/
theorem observe_witnesses (s : Sequent) : observe s.witnesses = .ok s.observations :=
  s.foldlM_refutation?_witnesses

end SequentCalculus.Sequent
