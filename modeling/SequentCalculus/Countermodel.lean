import SequentCalculus.Sequent.Display
import SequentCalculus.Table

/-!
# Countermodel — valuations that falsify a sequent

The search here needs no proof tree.  It keeps a stack of sequents, drops the axioms, takes the
others apart and collects those that have only atoms.  Each of these describes countermodels: its
antecedents are true in them and its succedents false.
-/

namespace SequentCalculus

/-- The valuation that a table of atoms gives; an atom outside the table is false. -/
def Valuation.ofTable (t : Table String Bool) : Valuation := fun name => (t.get? name).getD false

namespace Sequent

/-- A measure of a stack of sequents that every step of the search makes smaller: taking a sequent
apart gives at most two, each of lower complexity, and three to the power of a complexity is more than
twice a lower power. -/
def stackMeasure : List Sequent → Nat
  | [] => 0
  | s :: pending => Nat.pow 3 s.complexity + stackMeasure pending

theorem stackMeasure_append (ss pending : List Sequent) :
    stackMeasure (ss ++ pending) = stackMeasure ss + stackMeasure pending := by
  induction ss with
  | nil => simp [stackMeasure]
  | cons s ss ih =>
    simp only [List.cons_append, stackMeasure, ih]
    omega

/-- The premises of a sequent weigh less on the stack than the sequent. -/
theorem stackMeasure_premises_lt {s : Sequent} {label : String} {premises : List Sequent}
    (h : s.decompose? = some (label, premises)) : stackMeasure premises < Nat.pow 3 s.complexity := by
  have hlen := length_premises_le h
  have hpow : ∀ t ∈ premises, Nat.pow 3 t.complexity * 3 ≤ Nat.pow 3 s.complexity := fun t ht =>
    Nat.pow_le_pow_right (Nat.succ_pos 2) (complexity_lt_of_mem_premises h ht)
  have hpos : 0 < Nat.pow 3 s.complexity := Nat.pow_pos (by decide)
  match premises, hlen, hpow with
  | [], _, _ => exact hpos
  | [t], _, hpow =>
    have := hpow t (by simp)
    simp only [stackMeasure]
    omega
  | [t, u], _, hpow =>
    have ht := hpow t (by simp)
    have hu := hpow u (by simp)
    simp only [stackMeasure]
    omega

/-- A sequent taken off the stack makes it weigh less. -/
theorem stackMeasure_lt_cons (s : Sequent) (pending : List Sequent) :
    stackMeasure pending < stackMeasure (s :: pending) := by
  have : 0 < Nat.pow 3 s.complexity := Nat.pow_pos (by decide)
  simp only [stackMeasure]
  omega

/-- A sequent replaced by its premises makes the stack weigh less. -/
theorem stackMeasure_premises_append_lt {s : Sequent} {label : String} {premises : List Sequent}
    (h : s.decompose? = some (label, premises)) (pending : List Sequent) :
    stackMeasure (premises ++ pending) < stackMeasure (s :: pending) := by
  have := stackMeasure_premises_lt h
  rw [stackMeasure_append]
  simp only [stackMeasure]
  omega

/-- The sequents of atoms that a stack of sequents leads to, from the top of the stack on. -/
def witnessesOf : List Sequent → List Sequent
  | [] => []
  | s :: pending =>
    if s.isAxiom then witnessesOf pending
    else
      match _h : s.decompose? with
      | none => s :: witnessesOf pending
      | some (_, premises) => witnessesOf (premises ++ pending)
termination_by pending => stackMeasure pending
decreasing_by
  · exact stackMeasure_lt_cons s pending
  · exact stackMeasure_lt_cons s pending
  · exact stackMeasure_premises_append_lt _h pending

/-- The sequents of atoms that falsify a sequent, from left to right. -/
def witnesses (s : Sequent) : List Sequent := witnessesOf [s]

/-- The valuation of the atoms of a sequent that makes its antecedents true and its succedents
false, in order of first occurrence. -/
def refutation (s : Sequent) : Table String Bool :=
  (Table.ofList ((s.lhs.filterMap Formula.name?).map (·, true))).putAll
    ((s.rhs.filterMap Formula.name?).map (·, false))

/-- The sequent is an axiom or has a compound formula. -/
structure ReducibleError where
  sequent : Sequent
  deriving DecidableEq, Repr

/-- The text of the error. -/
def ReducibleError.message (e : ReducibleError) : String :=
  e.sequent.display ++ " is not an atomic-irreducible sequent"

/-- The refutation of a sequent, which must have only atoms and be no axiom. -/
def refutation? (s : Sequent) : Except ReducibleError (Table String Bool) :=
  if s.isIrreducible then .ok s.refutation else .error ⟨s⟩

/-- One countermodel for each witness: none of the witnesses is reducible. -/
def countermodels (s : Sequent) : List (Table String Bool) := s.witnesses.map refutation

end Sequent

/-- The observations with those of a further valuation that are new.  Opposite values of one atom
stand side by side. -/
def mergeObservations (seen : List (String × Bool)) (v : Table String Bool) :
    List (String × Bool) :=
  appendNew seen v.entries

/-- The observations of all countermodels, each once. -/
def Sequent.observations (s : Sequent) : List (String × Bool) :=
  s.countermodels.foldl mergeObservations []

/-- An observation with its number. -/
def observationText (index : Nat) (observation : String × Bool) : String :=
  let value := if observation.2 then "True" else "False"
  s!"Valuation #{index}: {observation.1} -> {value}"

end SequentCalculus
