import Mathlib.Data.List.Perm.Basic
import SequentCalculus.Sequent.Basic

/-!
# Proofs/Calculus/Rules — every rule is sound and invertible under each valuation by itself

A valuation *refutes* a sequent if it makes every antecedent true and every succedent false, so the
two sides of a sequent differ only in the truth value they ask for (`Side.demand`).  A rule splits
the demand on its principal formula into the demands of its premises (`Formula.meets_iff_deltas`),
and the context of the principal formula plays no part in that.  Hence

* `Sequent.refutedBy_iff_replace` — a compound formula anywhere in a sequent may be taken apart
  without losing or gaining a refuting valuation;
* `Sequent.eval_iff_replace` — so the sequent is as true as its premises are together;
* `Sequent.refutedBy_iff_premises` — the same for the premises of the principal formula.
-/

namespace SequentCalculus

/-- The truth value that refuting a sequent asks of the formulas of a side. -/
def Side.demand : Side → Bool
  | left => true
  | right => false

/-- A valuation gives every formula of the delta the value its side asks for. -/
def Delta.RefutedBy (v : Valuation) (d : Delta) : Prop :=
  (∀ f ∈ d.lhs, f.eval v = true) ∧ ∀ f ∈ d.rhs, f.eval v = false

/-- A valuation makes every antecedent true and every succedent false. -/
def Sequent.RefutedBy (v : Valuation) (s : Sequent) : Prop :=
  (∀ f ∈ s.lhs, f.eval v = true) ∧ ∀ f ∈ s.rhs, f.eval v = false

/-! ## The rules, one formula at a time -/

/-- A binary formula meets the demand of its side exactly when some premise of its rule does. -/
theorem BinaryConnective.meets_iff_deltas (v : Valuation) (side : Side) (op : BinaryConnective)
    (f g : Formula) :
    op.eval (f.eval v) (g.eval v) = side.demand ↔
      ∃ d ∈ op.deltas side f g, d.RefutedBy v := by
  cases op <;> cases side <;> cases hf : f.eval v <;> cases hg : g.eval v <;>
    simp [BinaryConnective.eval, BinaryConnective.deltas, Side.demand, Delta.RefutedBy, hf, hg]

/-- **A compound formula meets the demand of its side exactly when some premise of its rule
does.** -/
theorem Formula.meets_iff_deltas (v : Valuation) (side : Side) {f : Formula}
    (hf : f.isAtomic = false) :
    f.eval v = side.demand ↔ ∃ d ∈ f.deltas side, d.RefutedBy v := by
  cases f with
  | atom name => cases hf
  | neg f =>
    cases side <;>
      simp [Formula.eval, Formula.deltas, Side.demand, Delta.RefutedBy]
  | bin op f g => exact op.meets_iff_deltas v side f g

/-! ## Rules by name -/

/-- The operands of a formula, from left to right; an atom has none. -/
def Formula.operands : Formula → List Formula
  | .atom _ => []
  | .neg f => [f]
  | .bin _ f g => [f, g]

theorem Side.ofName?_name (side : Side) : ofName? side.name = some side := by
  cases side <;> decide

/-- **The rule that a compound formula names by its connective and operands is its own.** -/
theorem Formula.exists_rule (side : Side) {f : Formula} (hf : f.isAtomic = false) :
    ∃ c left right, f.connective? = some c ∧ f.operands = left :: right.toList ∧
      c.rule side.name left right = .ok (c.ruleLabel side, f.deltas side) := by
  cases f with
  | atom name => cases hf
  | neg f => exact ⟨.not, f, none, rfl, rfl, by rw [Connective.rule, side.ofName?_name]⟩
  | bin op f g =>
    exact ⟨.binary op, f, some g, rfl, rfl, by rw [Connective.rule, side.ofName?_name]⟩

namespace Sequent

/-! ## Refuting a sequent -/

/-- A sequent is false under exactly the valuations that refute it. -/
theorem eval_eq_false_iff (v : Valuation) (s : Sequent) : s.eval v = false ↔ s.RefutedBy v := by
  simp [eval, RefutedBy]

theorem eval_eq_true_iff (v : Valuation) (s : Sequent) : s.eval v = true ↔ ¬ s.RefutedBy v := by
  rw [← eval_eq_false_iff, Bool.not_eq_false]

/-- An axiom cannot be refuted: the shared formula would have both values. -/
theorem not_refutedBy_of_isAxiom {s : Sequent} (h : s.isAxiom = true) (v : Valuation) :
    ¬ s.RefutedBy v := by
  rintro ⟨hl, hr⟩
  obtain ⟨f, hf, hmem⟩ := List.any_eq_true.1 h
  have htrue := hl f hf
  have hfalse := hr f (of_decide_eq_true hmem)
  rw [htrue] at hfalse
  cases hfalse

/-- A property of all formulas of a list is one of the formula at an index and of the others. -/
theorem forall_mem_iff_eraseIdx {fs : List Formula} {i : Nat} {f : Formula} (h : fs[i]? = some f)
    (P : Formula → Prop) : (∀ g ∈ fs, P g) ↔ P f ∧ ∀ g ∈ fs.eraseIdx i, P g := by
  obtain ⟨hi, rfl⟩ := List.getElem?_eq_some_iff.1 h
  have hperm : (fs[i] :: fs.eraseIdx i).Perm fs := List.getElem_cons_eraseIdx_perm hi
  rw [← List.forall_mem_cons]
  exact forall_congr' fun g => by rw [hperm.mem_iff]

/-- The sequent that is left when the formula at an index of a side is taken away. -/
def without (s : Sequent) (side : Side) (i : Nat) : Sequent := s.replace side i ⟨[], []⟩

/-- Refuting a sequent is meeting the demand on one formula and refuting what is left. -/
theorem refutedBy_iff_without {s : Sequent} {side : Side} {i : Nat} {f : Formula}
    (h : (s.side side)[i]? = some f) (v : Valuation) :
    s.RefutedBy v ↔ f.eval v = side.demand ∧ (s.without side i).RefutedBy v := by
  cases side with
  | left =>
    have hlhs : s.lhs[i]? = some f := h
    simp only [RefutedBy, without, replace, List.append_nil, Side.demand]
    rw [forall_mem_iff_eraseIdx hlhs, and_assoc]
  | right =>
    have hrhs : s.rhs[i]? = some f := h
    simp only [RefutedBy, without, replace, List.append_nil, Side.demand]
    rw [forall_mem_iff_eraseIdx hrhs]
    exact and_left_comm

/-- Refuting a sequent after a replacement is refuting the delta and what was left. -/
theorem refutedBy_replace (v : Valuation) (s : Sequent) (side : Side) (i : Nat) (d : Delta) :
    (s.replace side i d).RefutedBy v ↔ d.RefutedBy v ∧ (s.without side i).RefutedBy v := by
  cases side with
  | left =>
    simp only [RefutedBy, Delta.RefutedBy, without, replace, List.append_nil,
      List.forall_mem_append]
    exact ⟨fun h => ⟨⟨h.1.2, h.2.2⟩, h.1.1, h.2.1⟩, fun h => ⟨⟨h.2.1, h.1.1⟩, h.2.2, h.1.2⟩⟩
  | right =>
    simp only [RefutedBy, Delta.RefutedBy, without, replace, List.append_nil,
      List.forall_mem_append]
    exact ⟨fun h => ⟨⟨h.1.2, h.2.2⟩, h.1.1, h.2.1⟩, fun h => ⟨⟨h.2.1, h.1.1⟩, h.2.2, h.1.2⟩⟩

/-- **Taking a compound formula apart, at whatever place, keeps the refuting valuations**: one
refutes the sequent exactly when it refutes some premise. -/
theorem refutedBy_iff_replace {s : Sequent} {side : Side} {i : Nat} {f : Formula}
    (h : (s.side side)[i]? = some f) (hf : f.isAtomic = false) (v : Valuation) :
    s.RefutedBy v ↔ ∃ d ∈ f.deltas side, (s.replace side i d).RefutedBy v := by
  simp only [refutedBy_iff_without h, Formula.meets_iff_deltas v side hf, refutedBy_replace]
  constructor
  · rintro ⟨⟨d, hd, hdv⟩, hrest⟩
    exact ⟨d, hd, hdv, hrest⟩
  · rintro ⟨d, hd, hdv, hrest⟩
    exact ⟨⟨d, hd, hdv⟩, hrest⟩

/-- A sequent holds under a valuation exactly when all premises do that stand for one of its compound
formulas. -/
theorem eval_iff_replace {s : Sequent} {side : Side} {i : Nat} {f : Formula}
    (h : (s.side side)[i]? = some f) (hf : f.isAtomic = false) (v : Valuation) :
    s.eval v = true ↔ ∀ d ∈ f.deltas side, (s.replace side i d).eval v = true := by
  simp only [eval_eq_true_iff, refutedBy_iff_replace h hf, not_exists, not_and]

theorem replace?_of_indexOf? {s : Sequent} {side : Side} {place : Int} {i : Nat}
    (h : indexOf? (s.side side).length place = some i) (d : Delta) :
    s.replace? side place d = some (s.replace side i d) := by
  rw [replace?, h, Option.map_some]

/-- **Every rule is sound and invertible at every place, under each valuation by itself.**  Take any
compound formula of a sequent, its place counted from either end.  Its connective and operands name a
rule for its side, and the sequent holds under a valuation if and only if all the sequents do in
which a premise of the rule stands for the formula. -/
theorem eval_iff_forall_replace {s : Sequent} {side : Side} {place : Int} {i : Nat} {f : Formula}
    (hplace : indexOf? (s.side side).length place = some i) (hi : (s.side side)[i]? = some f)
    (hf : f.isAtomic = false) :
    ∃ c left right deltas, f.connective? = some c ∧ f.operands = left :: right.toList ∧
      c.rule side.name left right = .ok (c.ruleLabel side, deltas) ∧
      ∀ v : Valuation, s.eval v = true ↔
        ∀ d ∈ deltas, ∃ t, s.replace? side place d = some t ∧ t.eval v = true := by
  obtain ⟨c, left, right, hc, hoperands, hrule⟩ := f.exists_rule side hf
  refine ⟨c, left, right, f.deltas side, hc, hoperands, hrule, fun v => ?_⟩
  simp only [eval_iff_replace hi hf v, replace?_of_indexOf? hplace, Option.some.injEq,
    exists_eq_left']

/-- In `p ∧ q, p ↔ q ⊢ r` the last antecedent is not the principal formula, and can be taken apart
all the same. -/
theorem eval_iff_forall_replace_last :
    let p : Formula := .atom "p"
    let q : Formula := .atom "q"
    let r : Formula := .atom "r"
    let s : Sequent := ⟨[.bin .and p q, .bin .iff p q], [r]⟩
    s.principal? = some (.left, 0, .bin .and p q) ∧
    ∀ v : Valuation, s.eval v = true ↔
      Sequent.eval v ⟨[.bin .and p q, p, q], [r]⟩ = true ∧
      Sequent.eval v ⟨[.bin .and p q], [r, p, q]⟩ = true := by
  intro p q r s
  refine ⟨rfl, fun v => ?_⟩
  have hplace : indexOf? (s.side .left).length (-1) = some 1 := rfl
  obtain ⟨c, left, right, deltas, hc, hoperands, hrule, hiff⟩ :=
    eval_iff_forall_replace (f := .bin .iff p q) hplace rfl rfl
  obtain rfl : Connective.binary .iff = c := Option.some.inj hc
  obtain ⟨rfl, hright⟩ := List.cons.inj hoperands
  obtain rfl : right = some q := by simpa using hright.symm
  obtain ⟨-, rfl⟩ := Prod.mk.inj (Except.ok.inj hrule)
  rw [hiff v]
  simp [Formula.deltas, BinaryConnective.deltas, replace?_of_indexOf? hplace, replace, s]

/-! ## The principal formula -/

theorem firstCompound?_eq_none_iff {fs : List Formula} :
    firstCompound? fs = none ↔ fs.all (·.isAtomic) = true := by
  induction fs with
  | nil => simp [firstCompound?]
  | cons f fs ih =>
    cases hf : f.isAtomic with
    | true => simp [firstCompound?, hf, ih]
    | false => simp [firstCompound?, hf]

theorem isAtomic_of_firstCompound? {fs : List Formula} {i : Nat} {f : Formula}
    (h : firstCompound? fs = some (i, f)) : f.isAtomic = false := by
  induction fs generalizing i with
  | nil => cases h
  | cons g fs ih =>
    unfold firstCompound? at h
    split at h
    · obtain ⟨⟨j, g'⟩, hj, hpair⟩ := Option.map_eq_some_iff.1 h
      obtain ⟨rfl, rfl⟩ := Prod.mk.inj hpair
      exact ih hj
    · rename_i hg
      obtain ⟨rfl, rfl⟩ := Prod.mk.inj (Option.some.inj h)
      simpa using hg

/-- The principal formula is compound. -/
theorem isAtomic_of_principal? {s : Sequent} {side : Side} {i : Nat} {f : Formula}
    (h : s.principal? = some (side, i, f)) : f.isAtomic = false := by
  unfold principal? at h
  split at h
  · rename_i j g hg
    obtain ⟨-, hpair⟩ := Prod.mk.inj (Option.some.inj h)
    obtain ⟨rfl, rfl⟩ := Prod.mk.inj hpair
    exact isAtomic_of_firstCompound? hg
  · obtain ⟨⟨j, g⟩, hj, htriple⟩ := Option.map_eq_some_iff.1 h
    obtain ⟨-, hpair⟩ := Prod.mk.inj htriple
    obtain ⟨rfl, rfl⟩ := Prod.mk.inj hpair
    exact isAtomic_of_firstCompound? hj

/-- A sequent has no principal formula exactly when it has only atoms. -/
theorem principal?_eq_none_iff {s : Sequent} : s.principal? = none ↔ s.isAtomic = true := by
  unfold principal? isAtomic
  rw [Bool.and_eq_true, ← firstCompound?_eq_none_iff, ← firstCompound?_eq_none_iff]
  cases hl : firstCompound? s.lhs with
  | none => simp
  | some p => simp

theorem connective?_eq_none_iff {f : Formula} : f.connective? = none ↔ f.isAtomic = true := by
  cases f <;> simp [Formula.connective?, Formula.isAtomic]

/-- **What a decomposition is**: the premises of a compound formula of the sequent, under the label
of its rule. -/
theorem decompose?_eq_some {s : Sequent} {label : String} {premises : List Sequent}
    (h : s.decompose? = some (label, premises)) :
    ∃ side i f c, s.principal? = some (side, i, f) ∧ (s.side side)[i]? = some f ∧
      f.connective? = some c ∧ label = c.ruleLabel side ∧
      premises = (f.deltas side).map (s.replace side i) := by
  unfold decompose? at h
  split at h
  · cases h
  · rename_i side i f hp
    obtain ⟨c, hc, hpair⟩ := Option.map_eq_some_iff.1 h
    obtain ⟨rfl, rfl⟩ := Prod.mk.inj hpair
    exact ⟨side, i, f, c, hp, getElem?_of_principal? hp, hc, rfl, rfl⟩

/-- A sequent cannot be decomposed exactly when it has only atoms. -/
theorem decompose?_eq_none_iff {s : Sequent} : s.decompose? = none ↔ s.isAtomic = true := by
  rw [← principal?_eq_none_iff]
  unfold decompose?
  cases hp : s.principal? with
  | none => simp
  | some p =>
    obtain ⟨side, i, f⟩ := p
    have hf := isAtomic_of_principal? hp
    simp [connective?_eq_none_iff, hf]

/-- **A valuation refutes a sequent exactly when it refutes some premise.** -/
theorem refutedBy_iff_premises {s : Sequent} {label : String} {premises : List Sequent}
    (h : s.decompose? = some (label, premises)) (v : Valuation) :
    s.RefutedBy v ↔ ∃ t ∈ premises, t.RefutedBy v := by
  obtain ⟨side, i, f, c, hp, hf, -, -, rfl⟩ := decompose?_eq_some h
  rw [refutedBy_iff_replace hf (isAtomic_of_principal? hp) v]
  simp only [List.mem_map, exists_exists_and_eq_and]

/-- A rule has a premise: every compound formula can meet its demand in some way. -/
theorem premises_ne_nil {s : Sequent} {label : String} {premises : List Sequent}
    (h : s.decompose? = some (label, premises)) : premises ≠ [] := by
  obtain ⟨side, i, f, c, hp, -, -, -, rfl⟩ := decompose?_eq_some h
  have hf := isAtomic_of_principal? hp
  cases f with
  | atom name => cases hf
  | neg f => cases side <;> simp [Formula.deltas]
  | bin op f g => cases op <;> cases side <;> simp [Formula.deltas, BinaryConnective.deltas]

end Sequent

end SequentCalculus
