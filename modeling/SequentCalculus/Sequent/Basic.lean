import SequentCalculus.Rule
import SequentCalculus.Position

/-!
# Sequent/Basic — sequents, their truth, and the decomposition of a principal formula

A sequent holds under a valuation if some succedent is true whenever every antecedent is.  The
principal formula of a sequent is its first compound formula, antecedents before succedents; taking
it apart by its rule makes every premise less complex (`complexity_lt_of_mem_premises`).
-/

namespace SequentCalculus

/-- Antecedents and succedents. -/
structure Sequent where
  lhs : List Formula
  rhs : List Formula
  deriving DecidableEq, Repr

namespace Sequent

/-- The formulas of a side. -/
def side (s : Sequent) : Side → List Formula
  | .left => s.lhs
  | .right => s.rhs

/-- The truth of a sequent under a valuation. -/
def eval (v : Valuation) (s : Sequent) : Bool :=
  !s.lhs.all (·.eval v) || s.rhs.any (·.eval v)

/-- Some formula stands on both sides. -/
def isAxiom (s : Sequent) : Bool := s.lhs.any fun f => decide (f ∈ s.rhs)

/-- All formulas are atoms. -/
def isAtomic (s : Sequent) : Bool := s.lhs.all (·.isAtomic) && s.rhs.all (·.isAtomic)

/-- All formulas are atoms, and none stands on both sides. -/
def isIrreducible (s : Sequent) : Bool := s.isAtomic && !s.isAxiom

/-- The number of connectives in a sequent. -/
def complexity (s : Sequent) : Nat :=
  Formula.totalWeight s.lhs + Formula.totalWeight s.rhs

/-- The names of the atoms of some formulas, each at its first occurrence. -/
def atomsOf (fs : List Formula) : List String :=
  fs.foldl (fun names f => appendNew names f.atoms) []

/-- The names of the atoms of a sequent, each at its first occurrence. -/
def atoms (s : Sequent) : List String := atomsOf (s.lhs ++ s.rhs)

/-- The atoms of a sequent are the atoms of its formulas. -/
theorem mem_atoms {s : Sequent} {n : String} :
    n ∈ s.atoms ↔ ∃ f ∈ s.lhs ++ s.rhs, n ∈ f.atoms := by
  rw [atoms, atomsOf, foldl_appendNew, mem_appendNew, List.mem_flatMap]
  exact or_iff_right List.not_mem_nil

/-- The first compound formula of a list, with its index. -/
def firstCompound? : List Formula → Option (Nat × Formula)
  | [] => none
  | f :: fs =>
    if f.isAtomic then (firstCompound? fs).map fun (i, g) => (i + 1, g) else some (0, f)

/-- The principal formula: the first compound antecedent or else the first compound succedent, with
its place. -/
def principal? (s : Sequent) : Option (Side × Nat × Formula) :=
  match firstCompound? s.lhs with
  | some (i, f) => some (.left, i, f)
  | none => (firstCompound? s.rhs).map fun (i, f) => (.right, i, f)

/-- The sequent without the formula at an index of a side, and with a delta added at the ends. -/
def replace (s : Sequent) (side : Side) (i : Nat) (d : Delta) : Sequent :=
  match side with
  | .left => ⟨s.lhs.eraseIdx i ++ d.lhs, s.rhs ++ d.rhs⟩
  | .right => ⟨s.lhs ++ d.lhs, s.rhs.eraseIdx i ++ d.rhs⟩

/-- `replace` at a place counted from either end, `none` if the place is outside. -/
def replace? (s : Sequent) (side : Side) (place : Int) (d : Delta) : Option Sequent :=
  (indexOf? (s.side side).length place).map fun i => s.replace side i d

/-- The rule for the principal formula: its label and the premises; `none` if all formulas are
atoms. -/
def decompose? (s : Sequent) : Option (String × List Sequent) :=
  match s.principal? with
  | none => none
  | some (side, i, f) =>
    f.connective?.map fun c => (c.ruleLabel side, (f.deltas side).map (s.replace side i))

/-! ## Decomposition makes sequents less complex -/

theorem getElem?_of_firstCompound? {fs : List Formula} {i : Nat} {f : Formula}
    (h : firstCompound? fs = some (i, f)) : fs[i]? = some f := by
  induction fs generalizing i with
  | nil => cases h
  | cons g fs ih =>
    unfold firstCompound? at h
    split at h
    · obtain ⟨⟨j, g'⟩, hj, hpair⟩ := Option.map_eq_some_iff.1 h
      obtain ⟨rfl, rfl⟩ := Prod.mk.inj hpair
      simpa using ih hj
    · obtain ⟨rfl, rfl⟩ := Prod.mk.inj (Option.some.inj h)
      rfl

/-- The principal formula stands where it is said to. -/
theorem getElem?_of_principal? {s : Sequent} {d : Side} {i : Nat} {f : Formula}
    (h : s.principal? = some (d, i, f)) : (s.side d)[i]? = some f := by
  unfold principal? at h
  split at h
  · rename_i j g hg
    obtain ⟨rfl, hpair⟩ := Prod.mk.inj (Option.some.inj h)
    obtain ⟨rfl, rfl⟩ := Prod.mk.inj hpair
    exact getElem?_of_firstCompound? hg
  · obtain ⟨⟨j, g⟩, hj, htriple⟩ := Option.map_eq_some_iff.1 h
    obtain ⟨rfl, hpair⟩ := Prod.mk.inj htriple
    obtain ⟨rfl, rfl⟩ := Prod.mk.inj hpair
    exact getElem?_of_firstCompound? hj

/-- Erasing a formula takes its weight out of the sum. -/
theorem totalWeight_eraseIdx {fs : List Formula} {i : Nat} {f : Formula} (h : fs[i]? = some f) :
    Formula.totalWeight (fs.eraseIdx i) + f.weight = Formula.totalWeight fs := by
  induction fs generalizing i with
  | nil => cases h
  | cons g fs ih =>
    cases i with
    | zero =>
      obtain rfl : g = f := by simpa using h
      simp only [List.eraseIdx_cons_zero, Formula.totalWeight]
      omega
    | succ i =>
      have := ih (i := i) (by simpa using h)
      simp only [List.eraseIdx_cons_succ, Formula.totalWeight]
      omega

/-- The complexity after a replacement. -/
theorem complexity_replace {s : Sequent} {side : Side} {i : Nat} {f : Formula}
    (h : (s.side side)[i]? = some f) (d : Delta) :
    (s.replace side i d).complexity + f.weight = s.complexity + d.weight := by
  cases side with
  | left =>
    have := totalWeight_eraseIdx h
    simp only [side] at this
    simp only [replace, complexity, Delta.weight, Formula.totalWeight_append]
    omega
  | right =>
    have := totalWeight_eraseIdx h
    simp only [side] at this
    simp only [replace, complexity, Delta.weight, Formula.totalWeight_append]
    omega

/-- Taking a formula apart, at whatever place, makes a sequent less complex. -/
theorem complexity_replace_lt {s : Sequent} {side : Side} {i : Nat} {f : Formula} {d : Delta}
    (h : (s.side side)[i]? = some f) (hd : d ∈ f.deltas side) :
    (s.replace side i d).complexity < s.complexity := by
  have hr := complexity_replace h d
  have hw := Delta.weight_lt hd
  omega

/-- **Every premise is less complex than the sequent.** -/
theorem complexity_lt_of_mem_premises {s t : Sequent} {label : String} {premises : List Sequent}
    (h : s.decompose? = some (label, premises)) (ht : t ∈ premises) :
    t.complexity < s.complexity := by
  unfold decompose? at h
  split at h
  · cases h
  · rename_i side i f hp
    obtain ⟨c, -, hpair⟩ := Option.map_eq_some_iff.1 h
    obtain ⟨-, rfl⟩ := Prod.mk.inj hpair
    obtain ⟨d, hd, rfl⟩ := List.mem_map.1 ht
    exact complexity_replace_lt (getElem?_of_principal? hp) hd

/-- A sequent has at most two premises. -/
theorem length_premises_le {s : Sequent} {label : String} {premises : List Sequent}
    (h : s.decompose? = some (label, premises)) : premises.length ≤ 2 := by
  unfold decompose? at h
  split at h
  · cases h
  · rename_i side i f hp
    obtain ⟨c, -, hpair⟩ := Option.map_eq_some_iff.1 h
    obtain ⟨-, rfl⟩ := Prod.mk.inj hpair
    rw [List.length_map]
    exact Formula.length_deltas_le side f

end Sequent

end SequentCalculus
