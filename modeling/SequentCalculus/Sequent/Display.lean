import SequentCalculus.Sequent.Basic
import SequentCalculus.Formula.Display
import SequentCalculus.Text.Blank
import SequentCalculus.Text.Quoted

/-!
# Sequent/Display — sequents in logical symbols and in LaTeX

Both sides are lists with commas around a turnstile.  An empty side is left out in logical symbols
and shown as a centred dot in LaTeX.
-/

namespace SequentCalculus.Sequent

/-- A sequent in logical symbols. -/
def display (s : Sequent) : String :=
  Text.strip (", ".intercalate (s.lhs.map (·.display)) ++ " ⊢ "
    ++ ", ".intercalate (s.rhs.map (·.display)))

/-- A sequent as a constructor applied to its quoted display. -/
def describe (s : Sequent) : String := "Sequent(" ++ Text.quoted s.display ++ ")"

/-- A side in LaTeX, with a dot for an empty text. -/
def latexSide (fs : List Formula) : String :=
  let text := ", ".intercalate (fs.map (·.latex))
  if text.isEmpty then "\\cdot" else text

/-- A sequent in LaTeX. -/
def latex (s : Sequent) : String := latexSide s.lhs ++ " \\vdash " ++ latexSide s.rhs

end SequentCalculus.Sequent
