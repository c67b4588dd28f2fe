import SequentCalculus.Derivation.Basic

/-!
# Derivation/Latex — proof trees as LaTeX inference rules

A node is a macro with the label of its rule in brackets, then its sequent and its premises, each in
a brace group.  An axiom is an inference by identity without premises; any other leaf is an open
deduction, marked by a question mark.
-/

namespace SequentCalculus.Derivation

/-- The LaTeX of the logical symbols in a rule label. -/
def latexSymbol (c : Char) : String :=
  match c with
  | '∧' => "\\land "
  | '∨' => "\\lor "
  | '→' => "\\to "
  | '¬' => "\\lnot "
  | '↔' => "\\leftrightarrow "
  | c => String.singleton c

/-- A rule label in LaTeX; a missing or empty label is a question mark. -/
def latexRule (rule : Option String) : String :=
  match rule with
  | none => "?"
  | some label => if label.isEmpty then "?" else String.join (label.toList.map latexSymbol)

/-- The indentation of a depth. -/
def latexIndent (depth : Nat) : String := String.ofList (List.replicate (2 * depth) ' ')

/-- The head of a macro: its name, a label, and the sequent in a brace group. -/
def latexHead (indent name label : String) (s : Sequent) : String :=
  indent ++ name ++ "[" ++ label ++ "]\n" ++ indent ++ "  \x7b" ++ s.latex ++ "\x7d\n"

mutual

/-- The macros of a tree from a given depth on. -/
def latexFrom : Nat → Derivation → String
  | depth, node s _ [] =>
    let indent := latexIndent depth
    let head :=
      if s.isAxiom then latexHead indent "\\infer" "\\ms\x7bid\x7d" s
      else latexHead indent "\\deduce" "?" s
    head ++ indent ++ "  \x7b\x7d"
  | depth, node s rule (t :: ts) =>
    let indent := latexIndent depth
    latexHead indent "\\infer" (latexRule rule) s ++ indent ++ "  \x7b\n"
      ++ latexFrom (depth + 1) t ++ latexPremises indent (depth + 1) ts
      ++ "\n" ++ indent ++ "  \x7d"

/-- The macros of the premises after the first, each behind an ampersand. -/
def latexPremises : String → Nat → List Derivation → String
  | _, _, [] => ""
  | indent, depth, t :: ts =>
    "\n" ++ indent ++ "  &\n" ++ latexFrom depth t ++ latexPremises indent depth ts

end

/-- A tree in the environment for inference rules. -/
def latex (t : Derivation) : String :=
  "\\begin\x7brules\x7d\n" ++ latexFrom 0 t ++ "\n\\end\x7brules\x7d"

end SequentCalculus.Derivation
