/-!
# Progress — one step of a reader

A reader takes a value off the front of a list of characters or tokens and leaves a shorter rest.
`Progress τ α n` is such a step below a bound `n` on the length of the rest; the bound is what makes
a reader that calls itself on the rest end.
-/

namespace SequentCalculus

/-- A value read off a list, and a rest of fewer than `n` elements. -/
structure Progress (τ α : Type) (n : Nat) where
  value : α
  rest : List τ
  short : rest.length < n

namespace Progress

variable {τ α β : Type} {m n : Nat}

/-- The same step below a larger bound. -/
def weaken (p : Progress τ α m) (h : m ≤ n) : Progress τ α n :=
  ⟨p.value, p.rest, Nat.lt_of_lt_of_le p.short h⟩

/-- The step with its value sent through a function. -/
def map (f : α → β) (p : Progress τ α n) : Progress τ β n := ⟨f p.value, p.rest, p.short⟩

end Progress

end SequentCalculus
