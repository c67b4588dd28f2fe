import SequentCalculus.Connective
import SequentCalculus.Distinct
import SequentCalculus.Text.Blank

/-!
# Formula/Basic — propositional formulas and their truth

A formula is an atom, a negation or a binary connective applied to two formulas.  Its truth under a
valuation of the atoms follows the truth tables; its weight counts the connectives and is what every
rule of the calculus makes smaller.
-/

namespace SequentCalculus

/-- A propositional formula. -/
inductive Formula where
  | atom (name : String)
  | neg (inner : Formula)
  | bin (op : BinaryConnective) (left right : Formula)
  deriving DecidableEq, Repr

/-- A valuation says which atoms are true. -/
abbrev Valuation := String → Bool

namespace Formula

/-- The atom of a name, blanks around the name aside. -/
def ofName (name : String) : Formula := atom (Text.strip name)

/-- The main connective, `none` for an atom. -/
def connective? : Formula → Option Connective
  | atom _ => none
  | neg _ => some .not
  | bin op _ _ => some (.binary op)

/-- The name of an atom. -/
def name? : Formula → Option String
  | atom name => some name
  | _ => none

/-- Whether a formula is an atom. -/
def isAtomic : Formula → Bool
  | atom _ => true
  | _ => false

/-- The truth of a formula under a valuation. -/
def eval (v : Valuation) : Formula → Bool
  | atom name => v name
  | neg f => !eval v f
  | bin op f g => op.eval (eval v f) (eval v g)

/-- The number of connectives in a formula. -/
def weight : Formula → Nat
  | atom _ => 0
  | neg f => 1 + weight f
  | bin _ f g => 1 + (weight f + weight g)

/-- The number of connectives in some formulas. -/
def totalWeight : List Formula → Nat
  | [] => 0
  | f :: fs => weight f + totalWeight fs

@[simp] theorem totalWeight_append (fs gs : List Formula) :
    totalWeight (fs ++ gs) = totalWeight fs + totalWeight gs := by
  induction fs with
  | nil => simp [totalWeight]
  | cons f fs ih =>
    simp only [List.cons_append, totalWeight, ih]
    omega

/-- The names of the atoms, each at its first occurrence from the left. -/
def atoms : Formula → List String
  | atom name => [name]
  | neg f => appendNew [] (atoms f)
  | bin _ f g => appendNew (appendNew [] (atoms f)) (atoms g)

end Formula

/-- The formula with a given main connective and operands. -/
def Connective.build : Connective → List Formula → Except ArityError Formula
  | .not, [f] => .ok (.neg f)
  | .binary op, [f, g] => .ok (.bin op f g)
  | c, fs => .error ⟨c, fs.length⟩

end SequentCalculus
