import SequentCalculus.Sequent.Display

/-!
# Sequent/Decomposition — decomposition with a guard against premises that do not shrink

A search that takes sequents apart comes to an end because every premise is less complex than the
sequent it comes from.  `decompose` compares the two before it hands the premises out, and fails on
the first that is not less complex.  There is none: what it hands out is `decompose?`.
-/

namespace SequentCalculus.Sequent

/-- A premise is not less complex than the sequent it comes from. -/
structure GrowthError where
  principal : Formula
  conclusion : Sequent
  premise : Sequent
  deriving DecidableEq, Repr

/-- The text of the error. -/
def GrowthError.message (e : GrowthError) : String :=
  s!"decomposition of {e.principal.display} did not shrink {e.conclusion.display} "
    ++ s!"(child {e.premise.display})"

/-- The rule for the principal formula, as by `decompose?`, with every premise compared to the
sequent. -/
def decompose (s : Sequent) : Except GrowthError (Option (String × List Sequent)) :=
  match s.principal? with
  | none => .ok none
  | some (side, i, f) =>
    let premises := (f.deltas side).map (s.replace side i)
    match premises.find? fun p => s.complexity ≤ p.complexity with
    | some p => .error ⟨f, s, p⟩
    | none => .ok (f.connective?.map fun c => (c.ruleLabel side, premises))

/-- **No premise fails to shrink.** -/
theorem decompose_eq_ok (s : Sequent) : s.decompose = .ok s.decompose? := by
  cases hp : s.principal? with
  | none => simp only [decompose, decompose?, hp]
  | some p =>
    obtain ⟨side, i, f⟩ := p
    have hnone : ((f.deltas side).map (s.replace side i)).find?
        (fun p => s.complexity ≤ p.complexity) = none := by
      rw [List.find?_eq_none]
      intro p hpremise
      obtain ⟨d, hd, rfl⟩ := List.mem_map.1 hpremise
      simpa using complexity_replace_lt (getElem?_of_principal? hp) hd
    simp only [decompose, decompose?, hp, hnone]

end SequentCalculus.Sequent
