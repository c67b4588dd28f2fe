import SequentCalculus.Countermodel
import SequentCalculus.Proofs.Calculus.Trees
import SequentCalculus.Proofs.Outcomes

/-!
# Proofs/Calculus/Countermodels — the witnesses describe exactly the countermodels

A witness is an irreducible sequent: atoms only, none on both sides.  A valuation refutes it exactly
when it extends the witness's own table (`Sequent.extends_refutation_iff`), so a witness stands for a
whole family of countermodels, one for every way to fill in the atoms that the table leaves out.

The stack search only ever replaces a sequent by its premises or drops an axiom, and both keep the
refuting valuations; hence what refutes some sequent of the stack is what refutes some witness
(`Sequent.refutedBy_iff_witnessesOf`).
-/

namespace SequentCalculus

/-! ## Tables written with one value -/

/-- Writing one value under many keys changes what is read at these keys only. -/
theorem Table.get?_putAll_const {ν : Type} (v : ν) (names : List String) (t : Table String ν)
    (q : String) :
    (t.putAll (names.map (·, v))).get? q = if q ∈ names then some v else t.get? q := by
  induction names generalizing t with
  | nil => simp [putAll]
  | cons name names ih =>
    have hstep : t.putAll ((name :: names).map (·, v)) =
        (t.put name v).putAll (names.map (·, v)) := rfl
    rw [hstep, ih, get?_put]
    by_cases hq : q ∈ names
    · simp [hq]
    · simp [hq]

/-- A valuation takes the values of a table wherever the table has one. -/
def Valuation.Extends (v : Valuation) (t : Table String Bool) : Prop :=
  ∀ name b, t.get? name = some b → v name = b

theorem Valuation.extends_ofTable (t : Table String Bool) : (ofTable t).Extends t := by
  intro name b h
  simp [ofTable, h]

namespace Sequent

/-! ## The table of an irreducible sequent -/

theorem mem_filterMap_name? {fs : List Formula} {name : String} :
    name ∈ fs.filterMap Formula.name? ↔ .atom name ∈ fs := by
  rw [List.mem_filterMap]
  constructor
  · rintro ⟨f, hf, hname⟩
    cases f with
    | atom n =>
      obtain rfl : n = name := Option.some.inj hname
      exact hf
    | neg f => cases hname
    | bin op f g => cases hname
  · exact fun h => ⟨_, h, rfl⟩

/-- What the refutation of a sequent says about an atom; a succedent has the last word. -/
theorem get?_refutation (s : Sequent) (name : String) :
    s.refutation.get? name =
      if .atom name ∈ s.rhs then some false
      else if .atom name ∈ s.lhs then some true else none := by
  have hempty : (Table.empty : Table String Bool).get? name = none := rfl
  rw [refutation, Table.get?_putAll_const, Table.ofList, Table.get?_putAll_const, hempty]
  simp only [mem_filterMap_name?]

/-- A formula of a sequent of atoms is an atom. -/
theorem exists_atom_of_isAtomic {f : Formula} (h : f.isAtomic = true) :
    ∃ name, f = .atom name := by
  cases f with
  | atom name => exact ⟨name, rfl⟩
  | neg f => cases h
  | bin op f g => cases h

/-- Refuting a sequent of atoms is a condition on the atoms by themselves. -/
theorem refutedBy_iff_of_isAtomic {s : Sequent} (h : s.isAtomic = true) (v : Valuation) :
    s.RefutedBy v ↔
      (∀ name, .atom name ∈ s.lhs → v name = true) ∧
        ∀ name, .atom name ∈ s.rhs → v name = false := by
  obtain ⟨hl, hr⟩ : (∀ f ∈ s.lhs, f.isAtomic = true) ∧ ∀ f ∈ s.rhs, f.isAtomic = true := by
    simpa [isAtomic] using h
  constructor
  · rintro ⟨hlv, hrv⟩
    exact ⟨fun name hname => hlv _ hname, fun name hname => hrv _ hname⟩
  · rintro ⟨hlv, hrv⟩
    refine ⟨fun f hf => ?_, fun f hf => ?_⟩
    · obtain ⟨name, rfl⟩ := exists_atom_of_isAtomic (hl f hf)
      exact hlv name hf
    · obtain ⟨name, rfl⟩ := exists_atom_of_isAtomic (hr f hf)
      exact hrv name hf

/-- **The valuations that refute an irreducible sequent are those that extend its table.**  The
table is coherent because no atom stands on both sides. -/
theorem extends_refutation_iff {s : Sequent} (h : s.isIrreducible = true) (v : Valuation) :
    v.Extends s.refutation ↔ s.RefutedBy v := by
  obtain ⟨hatomic, hax⟩ : s.isAtomic = true ∧ s.isAxiom = false := by
    simpa [isIrreducible] using h
  rw [refutedBy_iff_of_isAtomic hatomic]
  constructor
  · intro hv
    refine ⟨fun name hl => hv name true ?_, fun name hr => hv name false ?_⟩
    · have hr : .atom name ∉ s.rhs := by
        have hdisjoint : ∀ f ∈ s.lhs, f ∉ s.rhs := by simpa [isAxiom] using hax
        exact hdisjoint _ hl
      rw [get?_refutation, if_neg hr, if_pos hl]
    · rw [get?_refutation, if_pos hr]
  · rintro ⟨hl, hr⟩ name b hb
    rw [get?_refutation] at hb
    split at hb
    · rename_i hmem
      rw [hr name hmem, ← Option.some.inj hb]
    · split at hb
      · rename_i hmem
        rw [hl name hmem, ← Option.some.inj hb]
      · cases hb

/-- The table of an irreducible sequent, with all other atoms false, refutes it. -/
theorem refutedBy_refutation {s : Sequent} (h : s.isIrreducible = true) :
    s.RefutedBy (Valuation.ofTable s.refutation) :=
  (extends_refutation_iff h _).1 (Valuation.extends_ofTable _)

/-! ## The stack search keeps the refuting valuations -/

/-- **A valuation refutes some sequent of the stack exactly when it refutes some witness.** -/
theorem refutedBy_iff_witnessesOf (v : Valuation) (pending : List Sequent) :
    (∃ s ∈ pending, s.RefutedBy v) ↔ ∃ w ∈ witnessesOf pending, w.RefutedBy v := by
  fun_induction witnessesOf pending with
  | case1 => simp
  | case2 s pending hax ih =>
    -- an axiom on top of the stack is refuted by nothing
    rw [← ih, List.exists_mem_cons_iff]
    exact or_iff_right (not_refutedBy_of_isAxiom hax v)
  | case3 s pending hax hd ih => rw [List.exists_mem_cons_iff, List.exists_mem_cons_iff, ih]
  | case4 s pending hax label premises hd ih =>
    rw [← ih, List.exists_mem_cons_iff, refutedBy_iff_premises hd]
    simp only [List.mem_append, or_and_right, exists_or]

/-- Every witness is irreducible. -/
theorem isIrreducible_of_mem_witnessesOf {pending : List Sequent} {w : Sequent}
    (h : w ∈ witnessesOf pending) : w.isIrreducible = true := by
  fun_induction witnessesOf pending with
  | case1 => cases h
  | case2 s pending hax ih => exact ih h
  | case3 s pending hax hd ih =>
    rcases List.mem_cons.1 h with rfl | h
    · exact isIrreducible_of_decompose?_none (by simpa using hax) hd
    · exact ih h
  | case4 s pending hax label premises hd ih => exact ih h

theorem refutedBy_iff_witnesses (v : Valuation) (s : Sequent) :
    s.RefutedBy v ↔ ∃ w ∈ s.witnesses, w.RefutedBy v := by
  rw [witnesses, ← refutedBy_iff_witnessesOf]
  simp

/-- A witness has a refutation. -/
theorem refutation?_of_mem_witnesses {s w : Sequent} (h : w ∈ s.witnesses) :
    w.refutation? = .ok w.refutation :=
  if_pos (isIrreducible_of_mem_witnessesOf h)

/-- Asking every witness for its refutation never fails, and gives the countermodels. -/
theorem mapM_refutation?_witnesses (s : Sequent) :
    s.witnesses.mapM refutation? = .ok s.countermodels :=
  mapM_eq_ok fun _ hw => refutation?_of_mem_witnesses hw

/-- The observations are the entries of all countermodels, one table after the other. -/
theorem observations_eq (s : Sequent) :
    s.observations = appendNew [] (s.countermodels.flatMap Table.entries) :=
  foldl_appendNew Table.entries s.countermodels []

/-- **The witnesses of a sequent describe exactly its countermodels.**  A valuation falsifies the
sequent if and only if some witness has its antecedents true and its succedents false under it; every
witness is irreducible, so asking it for its valuation cannot fail; and each of these valuations
falsifies the sequent whatever it is told about the atoms it leaves out. -/
theorem countermodels_exact (s : Sequent) :
    (∀ v : Valuation, s.eval v = false ↔
      ∃ w ∈ s.witnesses, (∀ name, .atom name ∈ w.lhs → v name = true) ∧
        ∀ name, .atom name ∈ w.rhs → v name = false) ∧
    (∀ w ∈ s.witnesses, w.isIrreducible = true ∧ w.refutation? = .ok w.refutation) ∧
    s.witnesses.mapM refutation? = .ok s.countermodels ∧
    ∀ t ∈ s.countermodels, ∀ v : Valuation,
      (∀ name b, t.get? name = some b → v name = b) → s.eval v = false := by
  have hatomic : ∀ w ∈ s.witnesses, w.isAtomic = true := fun w hw => by
    have hw := isIrreducible_of_mem_witnessesOf hw
    simp only [isIrreducible, Bool.and_eq_true] at hw
    exact hw.1
  refine ⟨fun v => ?_, fun w hw => ?_, mapM_refutation?_witnesses s, fun t ht v hv => ?_⟩
  · rw [eval_eq_false_iff, refutedBy_iff_witnesses]
    exact exists_congr fun w => and_congr_right fun hw => refutedBy_iff_of_isAtomic (hatomic w hw) v
  · exact ⟨isIrreducible_of_mem_witnessesOf hw, refutation?_of_mem_witnesses hw⟩
  · obtain ⟨w, hw, rfl⟩ := List.mem_map.1 ht
    rw [eval_eq_false_iff, refutedBy_iff_witnesses]
    exact ⟨w, hw, (extends_refutation_iff (isIrreducible_of_mem_witnessesOf hw) v).1 hv⟩

/-- Of `p ∨ q ⊢ p ∧ r` the branch `q ⊢ r` is a witness.  It says nothing about `p`, and the sequent
is false however `p` is filled in. -/
theorem countermodels_exact_of_branch :
    let s : Sequent := ⟨[.bin .or (.atom "p") (.atom "q")], [.bin .and (.atom "p") (.atom "r")]⟩
    let w : Sequent := ⟨[.atom "q"], [.atom "r"]⟩
    w ∈ s.witnesses ∧ w.refutation? = .ok w.refutation ∧
      s.eval (fun name => name = "q") = false ∧
      s.eval (fun name => name = "q" || name = "p") = false := by
  intro s w
  have hw : w ∈ s.witnesses := by decide +kernel
  have hexact := countermodels_exact s
  have hmem : w.refutation ∈ s.countermodels := List.mem_map_of_mem hw
  have hget : ∀ name b, w.refutation.get? name = some b →
      (name = "q" ∧ b = true) ∨ (name = "r" ∧ b = false) := by
    intro name b hb
    rw [get?_refutation] at hb
    simp only [w, List.mem_singleton, Formula.atom.injEq] at hb
    split at hb
    · exact Or.inr ⟨‹_›, (Option.some.inj hb).symm⟩
    · split at hb
      · exact Or.inl ⟨‹_›, (Option.some.inj hb).symm⟩
      · cases hb
  refine ⟨hw, (hexact.2.1 w hw).2, hexact.2.2.2 _ hmem _ ?_, hexact.2.2.2 _ hmem _ ?_⟩
  · intro name b hb
    rcases hget name b hb with ⟨rfl, rfl⟩ | ⟨rfl, rfl⟩ <;> decide
  · intro name b hb
    rcases hget name b hb with ⟨rfl, rfl⟩ | ⟨rfl, rfl⟩ <;> decide

end Sequent

end SequentCalculus
