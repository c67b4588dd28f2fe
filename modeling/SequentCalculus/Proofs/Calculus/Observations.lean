import SequentCalculus.Proofs.Calculus.Countermodels
import SequentCalculus.Proofs.Tables

/-!
# Proofs/Calculus/Observations — the observations are the ordered union of the countermodels

The observations are collected in a loop: one witness after the other is asked for its valuation, and
of its entries those are added that are not there yet.  Seen from the end, this is one list of all
entries of all countermodels from which whatever repeats an earlier entry is erased
(`Sequent.observations_eq_eraseDups`).  An entry is an atom with a value, so opposite values of one atom
do not repeat each other and both stay.
-/

namespace SequentCalculus

/-- **Merging keeps what is there and adds the new entries behind it, in their order.**  A table does not
repeat its entries, so only what is there already has to be left out. -/
theorem mergeObservations_eq (seen : List (String × Bool)) (m : Table String Bool) :
    mergeObservations seen m = seen ++ m.entries.filter (· ∉ seen) :=
  appendNew_eq_append_filter m.nodup_entries

namespace Sequent

theorem nodup_observations (s : Sequent) : s.observations.Nodup := by
  rw [observations_eq]
  exact nodup_appendNew List.nodup_nil

theorem observations_eq_eraseDups (s : Sequent) :
    s.observations = (s.countermodels.flatMap Table.entries).eraseDups := by
  rw [observations_eq]
  exact distinct_eq_eraseDups _

/-- An atom is observed with a value exactly when some countermodel gives it this value. -/
theorem mem_observations_iff {s : Sequent} {name : String} {b : Bool} :
    (name, b) ∈ s.observations ↔ ∃ m ∈ s.countermodels, m.get? name = some b := by
  rw [observations_eq_eraseDups, List.mem_eraseDups, List.mem_flatMap]
  simp only [Table.get?_eq_some_iff]

/-- The loop over the witnesses, each asked for its valuation, comes to its end. -/
theorem foldlM_refutation?_witnesses (s : Sequent) :
    s.witnesses.foldlM (fun seen w => w.refutation?.map (mergeObservations seen)) [] =
      .ok s.observations := by
  have hround : ∀ w ∈ s.witnesses, ∀ seen, w.refutation?.map (mergeObservations seen) =
      .ok (mergeObservations seen w.refutation) := fun w hw seen => by
    rw [refutation?_of_mem_witnesses hw]
    rfl
  rw [foldlM_eq_ok hround, observations, countermodels, List.foldl_map]

/-- **The observations are the ordered union of the countermodels.**  The loop that merges the valuation
of one witness after the other never fails, and gives the entries of all countermodels, one table after
the other, each at its first occurrence and none twice.  An entry is kept whatever else is said of its
atom, so opposite values stand side by side.  Merging a valuation into any list, with repetitions or
without, leaves the list as it is and adds behind it the entries that it lacks, in their order and each
once. -/
theorem observations_ordered_union (s : Sequent) :
    s.witnesses.foldlM (fun seen w => w.refutation?.map (mergeObservations seen)) [] =
      .ok s.observations ∧
    s.observations.Nodup ∧
    s.observations = (s.countermodels.flatMap Table.entries).eraseDups ∧
    (∀ name b, (name, b) ∈ s.observations ↔ ∃ m ∈ s.countermodels, m.get? name = some b) ∧
    ∀ (seen : List (String × Bool)) (m : Table String Bool),
      mergeObservations seen m = seen ++ m.entries.filter (· ∉ seen) ∧
      (m.entries.filter (· ∉ seen)).Nodup :=
  ⟨s.foldlM_refutation?_witnesses, s.nodup_observations, s.observations_eq_eraseDups,
    fun _ _ => mem_observations_iff,
    fun seen m => ⟨mergeObservations_eq seen m, m.nodup_entries.filter _⟩⟩

/-- Of `⊢ p ∧ ¬p` one branch wants `p` false and the other wants it true. -/
example : Sequent.observations ⟨[], [.bin .and (.atom "p") (.neg (.atom "p"))]⟩ =
    [("p", false), ("p", true)] := by
  decide +kernel

end Sequent

end SequentCalculus
