import SequentCalculus.Formula.Reader
import SequentCalculus.Sequent.Basic

/-!
# Sequent/Reader — sequents from texts

The sides of a sequent are separated by a turnstile or, if there is none, by the first arrow outside
parentheses; a text with neither is a list of succedents.  The formulas of a side are separated by
commas outside parentheses, and a side may be empty.
-/

namespace SequentCalculus.Sequent

/-- Puts a token in front of the first piece. -/
def consToken (t : Token) : List (List Token) → List (List Token)
  | [] => [[t]]
  | piece :: pieces => (t :: piece) :: pieces

/-- The pieces between the commas outside parentheses, from a given depth of parentheses on. -/
def pieces : Int → List Token → List (List Token)
  | _, [] => [[]]
  | depth, t :: ts =>
    let inner := t.depthAfter depth
    if t.tag = .comma ∧ inner = 0 then [] :: pieces inner ts else consToken t (pieces inner ts)

/-- The formulas of some pieces. -/
def formulasOf : List (List Token) → Except SyntaxError (List Formula)
  | [] => .ok []
  | piece :: rest => do
    let f ← Formula.ofTokens piece
    let fs ← formulasOf rest
    pure (f :: fs)

/-- The formulas of a side; no tokens make an empty side. -/
def sideOfTokens (ts : List Token) : Except SyntaxError (List Formula) :=
  if ts.isEmpty then .ok [] else formulasOf (pieces 0 ts)

/-- Where a sequent may be cut: the places of the turnstiles, and of the first arrow outside
parentheses. -/
structure Cuts where
  turnstiles : List Nat
  arrow : Option Nat
  deriving DecidableEq, Repr

/-- The cuts of the tokens from a given place and depth of parentheses on.  A turnstile inside
parentheses is an error. -/
def cuts : Nat → Int → List Token → Except SyntaxError Cuts
  | _, _, [] => .ok ⟨[], none⟩
  | place, depth, t :: ts =>
    match t.tag with
    | .opening => cuts (place + 1) (depth + 1) ts
    | .closing => cuts (place + 1) (depth - 1) ts
    | .turnstile =>
      if depth = 0 then
        (cuts (place + 1) depth ts).map fun c => ⟨place :: c.turnstiles, c.arrow⟩
      else .error (.turnstileInside t.text)
    | _ =>
      (cuts (place + 1) depth ts).map fun c =>
        if t.text = Token.arrowText ∧ depth = 0 then ⟨c.turnstiles, some place⟩ else c

/-- The place at which a sequent is cut. -/
def cutPlace (c : Cuts) : Except SyntaxError (Option Nat) :=
  match c.turnstiles with
  | [] => .ok c.arrow
  | [place] => .ok (some place)
  | _ => .error .manyTurnstiles

/-- The sequent that tokens write. -/
def ofTokens (ts : List Token) : Except SyntaxError Sequent := do
  if ts.isEmpty then throw .emptySequent
  match ← cutPlace (← cuts 0 0 ts) with
  | none => pure ⟨[], ← sideOfTokens ts⟩
  | some place =>
    let lhs ← sideOfTokens (ts.take place)
    let rhs ← sideOfTokens (ts.drop (place + 1))
    pure ⟨lhs, rhs⟩

/-- The sequent that a text writes. -/
def ofText (r : Registry) (text : LooseText) : Except SyntaxError Sequent := do
  ofTokens (← Token.scan r text)

/-- The sequent that a text writes, `none` if it writes none. -/
def ofText? (r : Registry) (text : LooseText) : Option Sequent := (ofText r text).toOption

end SequentCalculus.Sequent
