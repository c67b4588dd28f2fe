import SequentCalculus.Registry.Basic
import SequentCalculus.Sequent.Basic

/-!
# Registry/Writer — formulas and sequents in the symbols of a registry

Each connective is written by its first symbol.  Operands that are binary formulas stand in
parentheses, so the grouping can be read back without the binding strengths.
-/

namespace SequentCalculus.Registry

/-- A formula in the symbols of a registry; a binary formula stands in parentheses if it is
`nested`. -/
def writeFormula (r : Registry) (nested : Bool) : Formula → Except UnknownConnective LooseText
  | .atom name => .ok name
  | .neg f => do
    let symbol ← r.symbolFor .not
    let inner ← writeFormula r true f
    pure (symbol ++ (if symbol.isWord then " " else "") ++ inner)
  | .bin op f g => do
    let symbol ← r.symbolFor (.binary op)
    let left ← writeFormula r true f
    let right ← writeFormula r true g
    let text := left ++ " " ++ symbol ++ " " ++ right
    pure (if nested then "(" ++ text ++ ")" else text)

/-- The texts of some formulas. -/
def writeFormulas (r : Registry) : List Formula → Except UnknownConnective (List LooseText)
  | [] => .ok []
  | f :: fs => do
    let text ← r.writeFormula false f
    let texts ← writeFormulas r fs
    pure (text :: texts)

/-- A side of a sequent, with commas. -/
def writeSide (r : Registry) (fs : List Formula) : Except UnknownConnective LooseText :=
  (r.writeFormulas fs).map (List.intercalate ", ")

/-- A sequent with a given separator of its sides. -/
def writeSequentWith (r : Registry) (separator : LooseText) (s : Sequent) :
    Except UnknownConnective LooseText := do
  let lhs ← r.writeSide s.lhs
  let rhs ← r.writeSide s.rhs
  pure (lhs ++ " " ++ separator ++ " " ++ rhs).trim

/-- A sequent with an arrow between its sides. -/
def writeSequent (r : Registry) (s : Sequent) : Except UnknownConnective LooseText :=
  r.writeSequentWith "->" s

end SequentCalculus.Registry
