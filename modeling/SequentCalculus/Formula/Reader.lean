import SequentCalculus.Formula.Basic
import SequentCalculus.Progress
import SequentCalculus.Token

/-!
# Formula/Reader — formulas from tokens

The connectives bind from loose to tight: `iff`, `implies`, `or`, `and`, `not`.  The first two group
to the right and the next two to the left:

    Iff ::= Imp | Imp iff Iff          And ::= Not | And and Not
    Imp ::= Or  | Or implies Imp       Not ::= not Not | Prim
    Or  ::= And | Or or And            Prim ::= atom | ( Iff )

There is one reader per level.  The levels that group to the left read an operand and then a *tail*
of operators and operands, with the formula so far as an argument.
-/

namespace SequentCalculus

namespace Formula

/-- A formula read off the front of tokens, with fewer than `n` tokens left. -/
abbrev Read (n : Nat) := Except SyntaxError (Progress Token Formula n)

mutual

/-- A formula of the loosest level. -/
def readIff (ts : List Token) : Read ts.length := do
  let left ← readImplies ts
  have hleft := left.short
  match _h : left.rest with
  | [] => pure left
  | t :: rest =>
    have hlen : rest.length + 1 = left.rest.length := by rw [_h]; rfl
    if t.tag = .connective (.binary .iff) then do
      let right ← readIff rest
      pure ⟨.bin .iff left.value right.value, right.rest, by have := right.short; omega⟩
    else pure left
termination_by 8 * ts.length + 6
decreasing_by all_goals omega

/-- A formula without an outer `iff`. -/
def readImplies (ts : List Token) : Read ts.length := do
  let left ← readOr ts
  have hleft := left.short
  match _h : left.rest with
  | [] => pure left
  | t :: rest =>
    have hlen : rest.length + 1 = left.rest.length := by rw [_h]; rfl
    if t.tag = .connective (.binary .implies) then do
      let right ← readImplies rest
      pure ⟨.bin .implies left.value right.value, right.rest, by have := right.short; omega⟩
    else pure left
termination_by 8 * ts.length + 5
decreasing_by all_goals omega

/-- A formula without an outer `iff` or `implies`. -/
def readOr (ts : List Token) : Read ts.length := do
  let first ← readAnd ts
  have hfirst := first.short
  let all ← readOrTail first.value first.rest
  pure (all.weaken (by omega))
termination_by 8 * ts.length + 4
decreasing_by all_goals omega

/-- Further disjuncts behind a formula. -/
def readOrTail (left : Formula) (ts : List Token) : Read (ts.length + 1) :=
  match ts with
  | [] => pure ⟨left, [], by simp⟩
  | t :: rest =>
    if t.tag = .connective (.binary .or) then do
      let right ← readAnd rest
      have hright := right.short
      let all ← readOrTail (.bin .or left right.value) right.rest
      pure (all.weaken (by simp only [List.length_cons]; omega))
    else pure ⟨left, t :: rest, by simp⟩
termination_by 8 * ts.length
decreasing_by all_goals (simp only [List.length_cons]; omega)

/-- A formula of conjuncts. -/
def readAnd (ts : List Token) : Read ts.length := do
  let first ← readNot ts
  have hfirst := first.short
  let all ← readAndTail first.value first.rest
  pure (all.weaken (by omega))
termination_by 8 * ts.length + 3
decreasing_by all_goals omega

/-- Further conjuncts behind a formula. -/
def readAndTail (left : Formula) (ts : List Token) : Read (ts.length + 1) :=
  match ts with
  | [] => pure ⟨left, [], by simp⟩
  | t :: rest =>
    if t.tag = .connective (.binary .and) then do
      let right ← readNot rest
      have hright := right.short
      let all ← readAndTail (.bin .and left right.value) right.rest
      pure (all.weaken (by simp only [List.length_cons]; omega))
    else pure ⟨left, t :: rest, by simp⟩
termination_by 8 * ts.length
decreasing_by all_goals (simp only [List.length_cons]; omega)

/-- Negations of an atom or a formula in parentheses. -/
def readNot (ts : List Token) : Read ts.length :=
  match ts with
  | [] => .error .unexpectedEnd
  | t :: rest =>
    if t.tag = .connective .not then do
      let inner ← readNot rest
      pure ((inner.map .neg).weaken (by simp))
    else readPrimary t rest
termination_by 8 * ts.length + 2
decreasing_by all_goals (simp only [List.length_cons]; omega)

/-- An atom or a formula in parentheses. -/
def readPrimary (t : Token) (rest : List Token) : Read (rest.length + 1) :=
  match t.tag with
  | .opening => do
    let inner ← readIff rest
    have hinner := inner.short
    match _h : inner.rest with
    | [] => .error (.expectedClosing none)
    | u :: rest' =>
      have hlen : rest'.length + 1 = inner.rest.length := by rw [_h]; rfl
      if u.tag = .closing then pure ⟨inner.value, rest', by omega⟩
      else .error (.expectedClosing (some u.text))
  | .atom => pure ⟨.ofName t.text.shown, rest, by omega⟩
  | _ => .error (.unexpected t.text)
termination_by 8 * rest.length + 7
decreasing_by all_goals omega

end

/-- The formula that all the tokens write. -/
def ofTokens (ts : List Token) : Except SyntaxError Formula :=
  if ts.isEmpty then .error .emptyFormula
  else
    match readIff ts with
    | .error e => .error e
    | .ok p =>
      match p.rest with
      | [] => .ok p.value
      | t :: _ => .error (.unexpected t.text)

/-- The formula that a text writes. -/
def ofText (r : Registry) (text : LooseText) : Except SyntaxError Formula := do
  ofTokens (← Token.scan r text)

end Formula

end SequentCalculus
