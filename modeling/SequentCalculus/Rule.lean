import SequentCalculus.Formula.Basic
import SequentCalculus.Text.Quoted

/-!
# Rule — the two-sided rules of the sequent calculus

A rule takes the main connective of a *principal* formula apart.  Read upwards it replaces the
principal formula by its operands, in one premise or two; a `Delta` says what one premise gains on
either side of the turnstile.  With `Γ` and `Δ` for the formulas that stay:

    ¬L   Γ, ¬F ⊢ Δ       Γ ⊢ F, Δ
    ¬R   Γ ⊢ ¬F, Δ       Γ, F ⊢ Δ
    ∧L   Γ, F ∧ G ⊢ Δ    Γ, F, G ⊢ Δ
    ∧R   Γ ⊢ F ∧ G, Δ    Γ ⊢ F, Δ      and   Γ ⊢ G, Δ
    ∨L   Γ, F ∨ G ⊢ Δ    Γ, F ⊢ Δ      and   Γ, G ⊢ Δ
    ∨R   Γ ⊢ F ∨ G, Δ    Γ ⊢ F, G, Δ
    →L   Γ, F → G ⊢ Δ    Γ ⊢ F, Δ      and   Γ, G ⊢ Δ
    →R   Γ ⊢ F → G, Δ    Γ, F ⊢ G, Δ
    ↔L   Γ, F ↔ G ⊢ Δ    Γ, F, G ⊢ Δ   and   Γ ⊢ F, G, Δ
    ↔R   Γ ⊢ F ↔ G, Δ    Γ, F ⊢ G, Δ   and   Γ, G ⊢ F, Δ
-/

namespace SequentCalculus

/-- A side of a sequent. -/
inductive Side where
  | left
  | right
  deriving DecidableEq, Repr

namespace Side

/-- The name of a side. -/
def name : Side → String
  | left => "lhs"
  | right => "rhs"

/-- The side of a name. -/
def ofName? (name : String) : Option Side :=
  if name = "lhs" then some left else if name = "rhs" then some right else none

/-- The letter that ends the label of a rule. -/
def suffix : Side → String
  | left => "L"
  | right => "R"

end Side

/-- What a premise gains on either side. -/
structure Delta where
  lhs : List Formula
  rhs : List Formula
  deriving DecidableEq, Repr

/-- The premises of a rule for a binary connective, one delta each. -/
def BinaryConnective.deltas : BinaryConnective → Side → Formula → Formula → List Delta
  | .and, .left, f, g => [⟨[f, g], []⟩]
  | .and, .right, f, g => [⟨[], [f]⟩, ⟨[], [g]⟩]
  | .or, .left, f, g => [⟨[f], []⟩, ⟨[g], []⟩]
  | .or, .right, f, g => [⟨[], [f, g]⟩]
  | .implies, .left, f, g => [⟨[], [f]⟩, ⟨[g], []⟩]
  | .implies, .right, f, g => [⟨[f], [g]⟩]
  | .iff, .left, f, g => [⟨[f, g], []⟩, ⟨[], [f, g]⟩]
  | .iff, .right, f, g => [⟨[f], [g]⟩, ⟨[g], [f]⟩]

/-- The premises of the rule for a principal formula; an atom has none. -/
def Formula.deltas (side : Side) : Formula → List Delta
  | .atom _ => []
  | .neg f =>
    match side with
    | .left => [⟨[], [f]⟩]
    | .right => [⟨[f], []⟩]
  | .bin op f g => op.deltas side f g

/-- The label of a rule: the symbol of its connective and the letter of its side. -/
def Connective.ruleLabel (c : Connective) (side : Side) : String := c.symbol ++ side.suffix

/-- Why a rule cannot be applied. -/
inductive RuleError where
  | unknownSide (name : String)
  | arity (c : Connective)
  deriving DecidableEq, Repr

/-- The text of the error. -/
def RuleError.message : RuleError → String
  | unknownSide name => s!"unknown side {Text.quoted name}"
  | arity c => s!"{c.label} takes {c.arity} operand(s)"

/-- The rule of a connective on a named side, with its label, for a left operand and, if the
connective has two, a right one. -/
def Connective.rule (c : Connective) (sideName : String) (left : Formula)
    (right : Option Formula) : Except RuleError (String × List Delta) :=
  match Side.ofName? sideName with
  | none => .error (.unknownSide sideName)
  | some side =>
    match c, right with
    | .not, none => .ok (c.ruleLabel side, (Formula.neg left).deltas side)
    | .binary op, some g => .ok (c.ruleLabel side, (Formula.bin op left g).deltas side)
    | c, _ => .error (.arity c)

/-- The weight a delta adds. -/
def Delta.weight (d : Delta) : Nat :=
  Formula.totalWeight d.lhs + Formula.totalWeight d.rhs

/-- **Every premise is lighter than the principal formula it replaces.** -/
theorem Delta.weight_lt {side : Side} {f : Formula} {d : Delta} (h : d ∈ f.deltas side) :
    d.weight < f.weight := by
  cases f with
  | atom name => cases h
  | neg f =>
    cases side <;>
      simp only [Formula.deltas, List.mem_singleton] at h <;> subst h <;>
      simp [Delta.weight, Formula.totalWeight, Formula.weight]
  | bin op f g =>
    cases op <;> cases side <;>
      simp only [Formula.deltas, BinaryConnective.deltas, List.mem_cons, List.not_mem_nil,
        or_false] at h <;>
      first
        | subst h
        | rcases h with rfl | rfl
    all_goals
      simp only [Delta.weight, Formula.totalWeight, Formula.weight]
      omega

/-- A rule has at most two premises. -/
theorem Formula.length_deltas_le (side : Side) (f : Formula) : (f.deltas side).length ≤ 2 := by
  cases f with
  | atom name => simp [Formula.deltas]
  | neg f => cases side <;> simp [Formula.deltas]
  | bin op f g => cases op <;> cases side <;> simp [Formula.deltas, BinaryConnective.deltas]

end SequentCalculus
