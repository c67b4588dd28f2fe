import SequentCalculus.Text.LowerCase

/-!
# Connective — the five propositional connectives

Negation takes one operand, the four binary connectives two.  Each has a label by which
configuration files name it, a symbol for display and a LaTeX command, and a truth table.
-/

namespace SequentCalculus

/-- The connectives of two operands. -/
inductive BinaryConnective where
  | and
  | or
  | implies
  | iff
  deriving DecidableEq, Repr

/-- A propositional connective. -/
inductive Connective where
  | not
  | binary (op : BinaryConnective)
  deriving DecidableEq, Repr

namespace BinaryConnective

/-- The truth table of a binary connective. -/
def eval : BinaryConnective → Bool → Bool → Bool
  | and, p, q => p && q
  | or, p, q => p || q
  | implies, p, q => !p || q
  | iff, p, q => p == q

/-- The name in configuration files. -/
def label : BinaryConnective → String
  | and => "and"
  | or => "or"
  | implies => "implies"
  | iff => "iff"

/-- The symbol for display. -/
def symbol : BinaryConnective → String
  | and => "∧"
  | or => "∨"
  | implies => "→"
  | iff => "↔"

/-- The LaTeX command of the symbol. -/
def latex : BinaryConnective → String
  | and => "\\land"
  | or => "\\lor"
  | implies => "\\to"
  | iff => "\\leftrightarrow"

end BinaryConnective

namespace Connective

/-- All connectives, in the order in which labels are looked up. -/
def all : List Connective :=
  [not, binary .and, binary .or, binary .implies, binary .iff]

/-- The number of operands. -/
def arity : Connective → Nat
  | not => 1
  | binary _ => 2

/-- The name in configuration files. -/
def label : Connective → String
  | not => "not"
  | binary op => op.label

/-- The symbol for display. -/
def symbol : Connective → String
  | not => "¬"
  | binary op => op.symbol

/-- The connective a label names, letter case aside. -/
def ofLabel? (label : String) : Option Connective :=
  all.find? fun c => c.label = Text.lowercase label

theorem mem_all (c : Connective) : c ∈ all := by
  cases c with
  | not => simp [all]
  | binary op => cases op <;> simp [all]

/-- **A connective is the one its own label names.** -/
theorem ofLabel?_label (c : Connective) : ofLabel? c.label = some c := by
  cases c with
  | not => decide
  | binary op => cases op <;> decide

end Connective

/-- A connective was given another number of operands than it takes. -/
structure ArityError where
  connective : Connective
  given : Nat
  deriving DecidableEq, Repr

namespace ArityError

/-- The text of the error. -/
def message (e : ArityError) : String :=
  s!"{e.connective.label} takes {e.connective.arity} operand(s), got {e.given}"

end ArityError

/-- The truth table of a connective on a list of operands. -/
def Connective.eval : Connective → List Bool → Except ArityError Bool
  | .not, [p] => .ok !p
  | .binary op, [p, q] => .ok (op.eval p q)
  | c, ps => .error ⟨c, ps.length⟩

end SequentCalculus
