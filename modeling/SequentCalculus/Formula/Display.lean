import SequentCalculus.Formula.Basic

/-!
# Formula/Display — formulas in logical symbols and in LaTeX

In logical symbols every binary formula stands in parentheses, and a negation adds a pair of its own
around a binary formula: `¬((A ∧ B))`.  In LaTeX a negation adds none.
-/

namespace SequentCalculus.Formula

/-- A formula in logical symbols. -/
def display : Formula → String
  | atom name => name
  | neg (bin op f g) =>
    "¬((" ++ display f ++ " " ++ op.symbol ++ " " ++ display g ++ "))"
  | neg f => "¬" ++ display f
  | bin op f g => "(" ++ display f ++ " " ++ op.symbol ++ " " ++ display g ++ ")"

/-- A formula in LaTeX. -/
def latex : Formula → String
  | atom name => name
  | neg f => "\\lnot " ++ latex f
  | bin op f g => "(" ++ latex f ++ " " ++ op.latex ++ " " ++ latex g ++ ")"

/-- A negated binary formula is parenthesised twice. -/
theorem display_neg_bin (op : BinaryConnective) (f g : Formula) :
    display (neg (bin op f g)) = "¬(" ++ display (bin op f g) ++ ")" := by
  simp only [display, String.append_assoc]
  rfl

end SequentCalculus.Formula
