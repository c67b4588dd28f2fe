/-!
# Distinct — collecting without repetition, in order of first occurrence

`appendNew acc xs` adds to `acc` the members of `xs` that are not there yet, one after the other, so
that repetitions inside `xs` are dropped as well.  What `acc` already held is left as it was.
-/

namespace SequentCalculus

variable {α : Type} [DecidableEq α]

/-- `acc` followed by the members of `xs` that are new, each once. -/
def appendNew (acc xs : List α) : List α :=
  xs.foldl (fun acc x => if x ∈ acc then acc else acc ++ [x]) acc

/-- The members of a list, each at its first occurrence. -/
def distinct (xs : List α) : List α := appendNew [] xs

@[simp] theorem appendNew_nil (acc : List α) : appendNew acc [] = acc := rfl

@[simp] theorem appendNew_cons (acc : List α) (x : α) (xs : List α) :
    appendNew acc (x :: xs) = appendNew (if x ∈ acc then acc else acc ++ [x]) xs := rfl

theorem appendNew_append (acc xs ys : List α) :
    appendNew acc (xs ++ ys) = appendNew (appendNew acc xs) ys :=
  List.foldl_append

/-- Adding one list after the other adds all of them at once. -/
theorem foldl_appendNew {β : Type} (f : β → List α) (xs : List β) (acc : List α) :
    xs.foldl (fun acc x => appendNew acc (f x)) acc = appendNew acc (xs.flatMap f) := by
  induction xs generalizing acc with
  | nil => rfl
  | cons x xs ih => rw [List.foldl_cons, ih, List.flatMap_cons, appendNew_append]

/-- **Nothing is lost and nothing is made up.** -/
theorem mem_appendNew {acc xs : List α} {a : α} :
    a ∈ appendNew acc xs ↔ a ∈ acc ∨ a ∈ xs := by
  induction xs generalizing acc with
  | nil => simp
  | cons x xs ih =>
    rw [appendNew_cons, ih, List.mem_cons]
    by_cases hx : x ∈ acc
    · rw [if_pos hx]
      exact ⟨fun h => h.imp_right Or.inr, fun h => by
        rcases h with h | rfl | h
        · exact Or.inl h
        · exact Or.inl hx
        · exact Or.inr h⟩
    · rw [if_neg hx, List.mem_append, List.mem_singleton]
      exact or_assoc

/-- **No repetition is introduced.** -/
theorem nodup_appendNew {acc xs : List α} (h : acc.Nodup) : (appendNew acc xs).Nodup := by
  induction xs generalizing acc with
  | nil => exact h
  | cons x xs ih =>
    rw [appendNew_cons]
    by_cases hx : x ∈ acc
    · rw [if_pos hx]
      exact ih h
    · rw [if_neg hx]
      refine ih (List.nodup_append.mpr ⟨h, by simp, fun a ha b hb hab => hx ?_⟩)
      obtain rfl : b = x := by simpa using hb
      rwa [← hab]

end SequentCalculus
