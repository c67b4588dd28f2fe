import Mathlib.Algebra.Order.Ring.Nat
import SequentCalculus.Proofs.Calculus.Subformulas
import SequentCalculus.Proofs.Calculus.Validity

/-!
# Proofs/Calculus/TruthTables — the atoms of a sequent are what its truth depends on

Atoms are collected without repetition at every operand, every formula and over both sides.  Collecting
what was collected drops nothing further (`appendNew_appendNew`), so all of these together list the
occurrences from left to right and keep the first of each name (`Sequent.atoms_eq_eraseDups`).

Valuations that agree on these names give the sequent the same truth value (`Sequent.eval_congr`).  Hence
the finitely many ways to fill in the atoms stand for all valuations, and the truth table decides what
the proof search decides (`Sequent.all_assignments_eq_isValid`).
-/

namespace SequentCalculus

/-! ## Occurrences -/

/-- The names of the atoms of a formula from left to right, as often as they occur. -/
def Formula.occurrences : Formula → List String
  | .atom name => [name]
  | .neg f => occurrences f
  | .bin _ f g => occurrences f ++ occurrences g

/-- The names of the atoms of a sequent from left to right, antecedents first, as often as they
occur. -/
def Sequent.occurrences (s : Sequent) : List String :=
  s.lhs.flatMap Formula.occurrences ++ s.rhs.flatMap Formula.occurrences

theorem Formula.atoms_eq_distinct (f : Formula) : f.atoms = distinct f.occurrences := by
  induction f with
  | atom name => rfl
  | neg f ih => rw [atoms, ih, distinct, appendNew_appendNew, appendNew_nil, occurrences, distinct]
  | bin op f g ihf ihg =>
    rw [atoms, ihf, ihg, distinct, distinct, appendNew_appendNew, appendNew_appendNew, appendNew_nil,
      appendNew_nil, occurrences, distinct, appendNew_append]

/-- Adding the atoms of a formula is adding its occurrences. -/
theorem Formula.appendNew_atoms (names : List String) (f : Formula) :
    appendNew names f.atoms = appendNew names f.occurrences := by
  rw [atoms_eq_distinct, distinct, appendNew_appendNew, appendNew_nil]

namespace Sequent

/-- **The atoms of a sequent are its occurrences, each name where it occurs first.** -/
theorem atoms_eq_eraseDups (s : Sequent) : s.atoms = s.occurrences.eraseDups := by
  rw [atoms, atomsOf]
  simp only [Formula.appendNew_atoms]
  rw [foldl_appendNew, List.flatMap_append, ← distinct_eq_eraseDups]
  rfl

theorem nodup_atoms (s : Sequent) : s.atoms.Nodup := by
  rw [atoms_eq_eraseDups, ← distinct_eq_eraseDups]
  exact nodup_appendNew List.nodup_nil

end Sequent

/-! ## What truth depends on -/

/-- A formula has one truth value under all valuations that agree on its atoms. -/
theorem Formula.eval_congr {f : Formula} {v w : Valuation} (h : ∀ name ∈ f.atoms, v name = w name) :
    f.eval v = f.eval w := by
  induction f with
  | atom name => exact h name (List.mem_singleton.2 rfl)
  | neg f ih => rw [eval, eval, ih fun name hname => h name (mem_atoms_neg.2 hname)]
  | bin op f g ihf ihg =>
    rw [eval, eval, ihf fun name hname => h name (mem_atoms_bin.2 (.inl hname)),
      ihg fun name hname => h name (mem_atoms_bin.2 (.inr hname))]

namespace Sequent

/-- **A sequent has one truth value under all valuations that agree on its atoms.** -/
theorem eval_congr {s : Sequent} {v w : Valuation} (h : ∀ name ∈ s.atoms, v name = w name) :
    s.eval v = s.eval w := by
  have hformula : ∀ f ∈ s.lhs ++ s.rhs, f.eval v = f.eval w := fun f hf =>
    Formula.eval_congr fun name hname => h name (mem_atoms.2 ⟨f, hf, hname⟩)
  obtain ⟨hlhs, hrhs⟩ := List.forall_mem_append.1 hformula
  rw [Bool.eq_iff_iff, eval_eq_true_iff, eval_eq_true_iff, RefutedBy, RefutedBy]
  refine not_congr (and_congr ?_ ?_)
  · exact forall₂_congr fun f hf => by rw [hlhs f hf]
  · exact forall₂_congr fun f hf => by rw [hrhs f hf]

/-! ## The truth table -/

/-- The rows of a truth table for a number of atoms, the last atom changing fastest. -/
def truthRows : Nat → List (List Bool)
  | 0 => [[]]
  | n + 1 => [false, true].flatMap fun b => (truthRows n).map (b :: ·)

theorem length_truthRows (n : Nat) : (truthRows n).length = 2 ^ n := by
  induction n with
  | zero => rfl
  | succ n ih =>
    rw [truthRows, List.flatMap_cons, List.flatMap_singleton, List.length_append, List.length_map,
      List.length_map, ih, Nat.pow_succ, Nat.mul_two]

/-- **Every row of values is in the truth table.** -/
theorem mem_truthRows {n : Nat} {values : List Bool} :
    values ∈ truthRows n ↔ values.length = n := by
  induction n generalizing values with
  | zero => rw [truthRows, List.mem_singleton, List.length_eq_zero_iff]
  | succ n ih =>
    cases values with
    | nil => simp [truthRows]
    | cons b values => cases b <;> simp [truthRows, ih]

/-- The ways to fill in the atoms of a sequent. -/
def assignments (s : Sequent) : List (Table String Bool) :=
  (truthRows s.atoms.length).map fun values => Table.ofList (s.atoms.zip values)

theorem length_assignments (s : Sequent) : s.assignments.length = 2 ^ s.atoms.length := by
  rw [assignments, List.length_map, length_truthRows]

/-- An assignment fills in the atoms of the sequent, in their order and no others. -/
theorem keys_of_mem_assignments {s : Sequent} {t : Table String Bool} (h : t ∈ s.assignments) :
    t.keys = s.atoms := by
  obtain ⟨values, hvalues, rfl⟩ := List.mem_map.1 h
  have hfst : (s.atoms.zip values).map Prod.fst = s.atoms :=
    List.map_fst_zip (Nat.le_of_eq (mem_truthRows.1 hvalues).symm)
  rw [Table.keys, Table.entries_ofList_of_nodup (by rw [hfst]; exact s.nodup_atoms), hfst]

/-- **Every valuation is an assignment as far as the atoms go.** -/
theorem exists_mem_assignments (s : Sequent) (v : Valuation) :
    ∃ t ∈ s.assignments, ∀ name ∈ s.atoms, t.get? name = some (v name) := by
  have hrow : s.atoms.map v ∈ truthRows s.atoms.length := mem_truthRows.2 (List.length_map v)
  have hzip : s.atoms.zip (s.atoms.map v) = s.atoms.map fun name => (name, v name) :=
    List.map_prod_left_eq_zip.symm
  have hnodup : ((s.atoms.map fun name => (name, v name)).map Prod.fst).Nodup := by
    rw [List.map_map]
    exact (List.map_id s.atoms).symm ▸ s.nodup_atoms
  refine ⟨_, List.mem_map_of_mem hrow, fun name hname => Table.get?_of_mem_entries ?_⟩
  rw [hzip, Table.entries_ofList_of_nodup hnodup]
  exact List.mem_map_of_mem hname

/-- **The truth table decides validity as the proof search does.** -/
theorem all_assignments_eq_isValid (s : Sequent) :
    (s.assignments.all fun t => s.eval (Valuation.ofTable t)) = s.isValid := by
  rw [Bool.eq_iff_iff, isValid, isClosed_prove_iff_forall_eval, List.all_eq_true]
  refine ⟨fun hall v => ?_, fun hall t _ => hall (Valuation.ofTable t)⟩
  obtain ⟨t, ht, hvalues⟩ := s.exists_mem_assignments v
  rw [← hall t ht]
  refine eval_congr fun name hname => ?_
  rw [Valuation.ofTable, hvalues name hname, Option.getD_some]

/-- **The atoms of a sequent are what its truth depends on.**  They are its occurrences from left to
right, antecedents first, each name where it occurs first.  Two valuations that agree on them give the
sequent the same truth value; a finite table is a valuation too, with the missing atoms false.  Hence the
truth table, with one assignment for each of the `2 ^ n` ways to fill in the `n` atoms, holds throughout
if and only if the proof search finds the sequent valid. -/
theorem atoms_determine_truth (s : Sequent) :
    s.atoms = s.occurrences.eraseDups ∧
    (∀ v w : Valuation, (∀ name ∈ s.atoms, v name = w name) → s.eval v = s.eval w) ∧
    (s.assignments.length = 2 ^ s.atoms.length ∧ (∀ t ∈ s.assignments, t.keys = s.atoms) ∧
      ∀ v : Valuation, ∃ t ∈ s.assignments, ∀ name ∈ s.atoms, t.get? name = some (v name)) ∧
    ((s.assignments.all fun t => s.eval (Valuation.ofTable t)) = true ↔ s.isValid = true) :=
  ⟨s.atoms_eq_eraseDups, fun _ _ h => eval_congr h,
    ⟨s.length_assignments, fun _ ht => keys_of_mem_assignments ht, s.exists_mem_assignments⟩,
    Bool.eq_iff_iff.1 s.all_assignments_eq_isValid⟩

/-- In `p ∨ q, ¬q ⊢ q ∧ p` the name `q` occurs three times and is listed once.  Whether `z` is true
does not matter, and one of the four assignments is a countermodel. -/
theorem atoms_determine_truth_of_repeated :
    let p : Formula := .atom "p"
    let q : Formula := .atom "q"
    let s : Sequent := ⟨[.bin .or p q, .neg q], [.bin .and q p]⟩
    let v : Valuation := fun name => name = "p"
    let w : Valuation := fun name => name = "p" || name = "z"
    s.occurrences = ["p", "q", "q", "q", "p"] ∧ s.atoms = ["p", "q"] ∧ v "z" ≠ w "z" ∧
      s.eval v = s.eval w ∧ s.assignments.length = 4 ∧
      (∃ t ∈ s.assignments, t.keys = ["p", "q"] ∧ t.get? "p" = some true) ∧ s.isValid = false := by
  intro p q s v w
  have hatoms : s.atoms = ["p", "q"] := by decide +kernel
  obtain ⟨-, hagree, ⟨hlength, hkeys, hcovers⟩, htable⟩ := atoms_determine_truth s
  rw [hatoms] at hagree hlength hkeys hcovers
  obtain ⟨t, ht, hvalues⟩ := hcovers v
  refine ⟨by decide +kernel, hatoms, by decide, hagree v w (by decide), hlength,
    ⟨t, ht, hkeys t ht, hvalues "p" List.mem_cons_self⟩, ?_⟩
  rw [← Bool.not_eq_true, ← htable]
  decide +kernel

end Sequent

end SequentCalculus
