/-!
# Text/CodeRange — a set of characters as sorted runs of code points

A character class is a list of runs `(lo, hi)`, both ends included, in increasing order.  `covers`
walks the runs from the left and stops at the first one that starts above the code point, so the
answer for a low code point needs only the first few runs.
-/

namespace SequentCalculus.Text

/-- Runs of consecutive code points, in increasing order. -/
abbrev CodeRanges := List (Nat × Nat)

namespace CodeRanges

/-- Whether a code point lies in one of the runs. -/
def covers : CodeRanges → Nat → Bool
  | [], _ => false
  | (lo, hi) :: runs, n => if n < lo then false else if n ≤ hi then true else covers runs n

/-- Each run is in order, and lies wholly above the code points below `from`. -/
def sortedFrom : Nat → CodeRanges → Bool
  | _, [] => true
  | n, (lo, hi) :: runs => n ≤ lo && lo ≤ hi && sortedFrom (hi + 1) runs

theorem covers_eq_false_of_lt {runs : CodeRanges} {m n : Nat} (hs : sortedFrom m runs = true)
    (hn : n < m) : covers runs n = false := by
  cases runs with
  | nil => rfl
  | cons run runs =>
    obtain ⟨lo, hi⟩ := run
    simp only [sortedFrom, Bool.and_eq_true, decide_eq_true_eq] at hs
    simp only [covers, if_pos (Nat.lt_of_lt_of_le hn hs.1.1)]

/-- **On sorted runs the early stop loses nothing**: a code point is covered exactly when some run
holds it. -/
theorem covers_iff {m : Nat} : ∀ {runs : CodeRanges} {n : Nat}, sortedFrom m runs = true →
    (covers runs n = true ↔ ∃ run ∈ runs, run.1 ≤ n ∧ n ≤ run.2) := by
  intro runs
  induction runs generalizing m with
  | nil => intro n _; simp [covers]
  | cons run runs ih =>
    obtain ⟨lo, hi⟩ := run
    intro n hs
    simp only [sortedFrom, Bool.and_eq_true, decide_eq_true_eq] at hs
    obtain ⟨⟨_, hlohi⟩, hrest⟩ := hs
    have ih' := ih (n := n) hrest
    rw [show (∃ run ∈ (lo, hi) :: runs, run.1 ≤ n ∧ n ≤ run.2) ↔
        ((lo ≤ n ∧ n ≤ hi) ∨ ∃ run ∈ runs, run.1 ≤ n ∧ n ≤ run.2) by
      simp only [List.mem_cons, exists_eq_or_imp]]
    by_cases hlo : n < lo
    · have hnone : covers runs n = false := covers_eq_false_of_lt hrest (by omega)
      simp only [covers, if_pos hlo, ← ih', hnone]
      simp
      omega
    · by_cases hhi : n ≤ hi
      · simp only [covers, if_neg hlo, if_pos hhi, true_iff]
        exact Or.inl ⟨by omega, hhi⟩
      · simp only [covers, if_neg hlo, if_neg hhi, ih']
        exact ⟨Or.inr, fun h => h.resolve_left fun h => hhi h.2⟩

end CodeRanges

end SequentCalculus.Text
