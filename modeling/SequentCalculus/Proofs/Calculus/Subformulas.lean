import SequentCalculus.Proofs.Calculus.Countermodels
import SequentCalculus.Proofs.Tables

/-!
# Proofs/Calculus/Subformulas — the search adds nothing to what stands in the sequent

A rule replaces its principal formula by operands of it (`Formula.subformula_of_mem_deltas`), and the
context is copied.  So every premise lies *within* its conclusion, and every node of a derivation
lies within the root (`Sequent.isWithin_of_mem_nodes`).  The stack search takes the same steps on a
stack: each witness lies within a sequent that was on it (`Sequent.isWithin_of_mem_witnessesOf`).

What lies within a sequent has no atoms but those of the sequent.  Hence neither search brings up a
name that does not occur in what it was asked about.
-/

namespace SequentCalculus

/-- A formula occurs in another, which may be itself. -/
inductive Formula.Subformula : Formula → Formula → Prop
  | refl (f : Formula) : Subformula f f
  | neg {f g : Formula} : Subformula f g → Subformula f (.neg g)
  | left {op : BinaryConnective} {f g h : Formula} : Subformula f g → Subformula f (.bin op g h)
  | right {op : BinaryConnective} {f g h : Formula} : Subformula f h → Subformula f (.bin op g h)

namespace Formula

theorem Subformula.trans {f g h : Formula} (hfg : f.Subformula g) (hgh : g.Subformula h) :
    f.Subformula h := by
  induction hgh with
  | refl => exact hfg
  | neg _ ih => exact .neg (ih hfg)
  | left _ ih => exact .left (ih hfg)
  | right _ ih => exact .right (ih hfg)

/-- The premises of a binary formula gain its two operands and nothing else. -/
theorem eq_operand_of_mem_deltas {op : BinaryConnective} {side : Side} {f g h : Formula} {d : Delta}
    (hd : d ∈ op.deltas side f g) (hh : h ∈ d.lhs ++ d.rhs) : h = f ∨ h = g := by
  cases op <;> cases side <;> simp only [BinaryConnective.deltas, List.mem_cons, List.not_mem_nil,
    or_false] at hd <;> grind

/-- **What a premise gains occurs in the principal formula.** -/
theorem subformula_of_mem_deltas {side : Side} {f g : Formula} {d : Delta}
    (hd : d ∈ f.deltas side) (hg : g ∈ d.lhs ++ d.rhs) : g.Subformula f := by
  cases f with
  | atom name => cases hd
  | neg f =>
    obtain rfl : g = f := by cases side <;> simp only [deltas, List.mem_singleton] at hd <;> grind
    exact .neg (.refl g)
  | bin op f h =>
    rcases eq_operand_of_mem_deltas hd hg with rfl | rfl
    · exact .left (.refl g)
    · exact .right (.refl g)

end Formula

namespace Sequent

/-- Every formula of the sequent occurs in a formula of the other. -/
def IsWithin (t s : Sequent) : Prop :=
  ∀ f ∈ t.lhs ++ t.rhs, ∃ g ∈ s.lhs ++ s.rhs, f.Subformula g

theorem IsWithin.refl (s : Sequent) : s.IsWithin s := fun f hf => ⟨f, hf, .refl f⟩

theorem IsWithin.trans {t u s : Sequent} (htu : t.IsWithin u) (hus : u.IsWithin s) :
    t.IsWithin s := by
  intro f hf
  obtain ⟨g, hg, hfg⟩ := htu f hf
  obtain ⟨h, hh, hgh⟩ := hus g hg
  exact ⟨h, hh, hfg.trans hgh⟩

theorem mem_of_mem_side {s : Sequent} {side : Side} {f : Formula} (h : f ∈ s.side side) :
    f ∈ s.lhs ++ s.rhs := by
  cases side with
  | left => exact List.mem_append_left _ h
  | right => exact List.mem_append_right _ h

/-- After a replacement, a formula was there before or comes from the delta. -/
theorem mem_of_mem_replace {s : Sequent} {side : Side} {i : Nat} {d : Delta} {f : Formula}
    (h : f ∈ (s.replace side i d).lhs ++ (s.replace side i d).rhs) :
    f ∈ s.lhs ++ s.rhs ∨ f ∈ d.lhs ++ d.rhs := by
  have herase : ∀ fs : List Formula, f ∈ fs.eraseIdx i → f ∈ fs := fun fs =>
    List.mem_of_mem_eraseIdx
  cases side <;> simp only [replace, List.mem_append] at h ⊢ <;> grind

/-- **Every premise lies within its conclusion.** -/
theorem isWithin_of_mem_premises {s t : Sequent} {label : String} {premises : List Sequent}
    (h : s.decompose? = some (label, premises)) (ht : t ∈ premises) : t.IsWithin s := by
  obtain ⟨side, i, f, c, -, hf, -, -, rfl⟩ := decompose?_eq_some h
  obtain ⟨d, hd, rfl⟩ := List.mem_map.1 ht
  intro g hg
  rcases mem_of_mem_replace hg with hg | hg
  · exact ⟨g, hg, .refl g⟩
  · exact ⟨f, mem_of_mem_side (List.mem_of_getElem? hf), Formula.subformula_of_mem_deltas hd hg⟩

/-- **Every node of a derivation lies within the root.** -/
theorem isWithin_of_mem_nodes {s : Sequent} {n : Derivation} (h : n ∈ s.prove.nodes) :
    n.sequent.IsWithin s := by
  induction s using searchInduction with
  | axiomatic s ha =>
    rw [prove_of_isAxiom ha, Derivation.nodes_leaf, List.mem_singleton] at h
    exact h ▸ IsWithin.refl s
  | irreducible s _ hd =>
    rw [prove_of_decompose?_none hd, Derivation.nodes_leaf, List.mem_singleton] at h
    exact h ▸ IsWithin.refl s
  | reducible s label premises ha hd ih =>
    rw [prove_of_decompose? ha hd, Derivation.nodes_node] at h
    rcases List.mem_cons.1 h with rfl | h
    · exact IsWithin.refl s
    · obtain ⟨t, ht, hn⟩ := List.mem_flatMap.1 h
      obtain ⟨p, hp, rfl⟩ := List.mem_map.1 ht
      exact (ih p hp hn).trans (isWithin_of_mem_premises hd hp)

/-- **Every witness lies within a sequent of the stack.** -/
theorem isWithin_of_mem_witnessesOf {pending : List Sequent} {w : Sequent}
    (h : w ∈ witnessesOf pending) : ∃ s ∈ pending, w.IsWithin s := by
  fun_induction witnessesOf pending with
  | case1 => cases h
  | case2 s pending _ ih =>
    obtain ⟨t, ht, hwt⟩ := ih h
    exact ⟨t, List.mem_cons_of_mem _ ht, hwt⟩
  | case3 s pending _ _ ih =>
    rcases List.mem_cons.1 h with rfl | h
    · exact ⟨w, List.mem_cons_self, IsWithin.refl w⟩
    · obtain ⟨t, ht, hwt⟩ := ih h
      exact ⟨t, List.mem_cons_of_mem _ ht, hwt⟩
  | case4 s pending _ label premises hd ih =>
    -- what lies within a premise lies within the sequent that the premises replace
    obtain ⟨t, ht, hwt⟩ := ih h
    rcases List.mem_append.1 ht with ht | ht
    · exact ⟨s, List.mem_cons_self, hwt.trans (isWithin_of_mem_premises hd ht)⟩
    · exact ⟨t, List.mem_cons_of_mem _ ht, hwt⟩

theorem isWithin_of_mem_witnesses {s w : Sequent} (h : w ∈ s.witnesses) : w.IsWithin s := by
  obtain ⟨t, ht, hwt⟩ := isWithin_of_mem_witnessesOf h
  rwa [List.mem_singleton.1 ht] at hwt

end Sequent

/-! ## Atoms -/

theorem Formula.mem_atoms_neg {f : Formula} {name : String} :
    name ∈ (Formula.neg f).atoms ↔ name ∈ f.atoms := by
  rw [atoms, mem_appendNew]
  exact or_iff_right List.not_mem_nil

theorem Formula.mem_atoms_bin {op : BinaryConnective} {f g : Formula} {name : String} :
    name ∈ (Formula.bin op f g).atoms ↔ name ∈ f.atoms ∨ name ∈ g.atoms := by
  rw [atoms, mem_appendNew, mem_appendNew]
  exact or_congr_left (or_iff_right List.not_mem_nil)

theorem Formula.Subformula.atoms_subset {f g : Formula} (h : f.Subformula g) :
    f.atoms ⊆ g.atoms := by
  induction h with
  | refl f => exact List.Subset.refl _
  | neg _ ih => exact fun name hname => mem_atoms_neg.2 (ih hname)
  | left _ ih => exact fun name hname => mem_atoms_bin.2 (.inl (ih hname))
  | right _ ih => exact fun name hname => mem_atoms_bin.2 (.inr (ih hname))

namespace Sequent

/-- What lies within a sequent has no further atoms. -/
theorem IsWithin.atoms_subset {t s : Sequent} (h : t.IsWithin s) : t.atoms ⊆ s.atoms := by
  intro name hname
  obtain ⟨f, hf, hnamef⟩ := mem_atoms.1 hname
  obtain ⟨g, hg, hfg⟩ := h f hf
  exact mem_atoms.2 ⟨g, hg, hfg.atoms_subset hnamef⟩

/-- The refutation of a sequent speaks of its atoms. -/
theorem keys_refutation_subset (w : Sequent) : w.refutation.keys ⊆ w.atoms := by
  intro name hname
  obtain ⟨b, hb⟩ := Table.exists_get?_of_mem_keys hname
  have hatom : .atom name ∈ w.lhs ++ w.rhs := by
    rw [get?_refutation] at hb
    split at hb
    · exact List.mem_append_right _ ‹_›
    · split at hb
      · exact List.mem_append_left _ ‹_›
      · cases hb
  exact mem_atoms.2 ⟨_, hatom, List.mem_singleton.2 rfl⟩

theorem keys_subset_of_mem_countermodels {s : Sequent} {m : Table String Bool}
    (h : m ∈ s.countermodels) : m.keys ⊆ s.atoms := by
  obtain ⟨w, hw, rfl⟩ := List.mem_map.1 h
  exact List.Subset.trans (keys_refutation_subset w) (isWithin_of_mem_witnesses hw).atoms_subset

theorem mem_atoms_of_mem_observations {s : Sequent} {o : String × Bool} (h : o ∈ s.observations) :
    o.1 ∈ s.atoms := by
  rw [observations_eq, mem_appendNew, List.mem_flatMap] at h
  obtain ⟨m, hm, ho⟩ := h.resolve_left List.not_mem_nil
  exact keys_subset_of_mem_countermodels hm (List.mem_map_of_mem ho)

/-- **The subformula property.**  Every formula on either side of every node of the derivation of a
sequent occurs in a formula of the sequent.  Hence the atoms of the nodes, the names in the
countermodels and those in the observations are all atoms of the sequent. -/
theorem subformula_property (s : Sequent) :
    (∀ n ∈ s.prove.nodes, ∀ side, ∀ f ∈ n.sequent.side side,
      ∃ g ∈ s.lhs ++ s.rhs, f.Subformula g) ∧
    (∀ n ∈ s.prove.nodes, n.sequent.atoms ⊆ s.atoms) ∧
    (∀ m ∈ s.countermodels, m.keys ⊆ s.atoms) ∧
    ∀ o ∈ s.observations, o.1 ∈ s.atoms :=
  ⟨fun _ hn _ f hf => isWithin_of_mem_nodes hn f (mem_of_mem_side hf),
    fun _ hn => (isWithin_of_mem_nodes hn).atoms_subset,
    fun _ hm => keys_subset_of_mem_countermodels hm, fun _ ho => mem_atoms_of_mem_observations ho⟩

/-- `r ⊢ q, p` is a leaf of the derivation of `p ∨ ¬q ⊢ p ↔ r`.  Its `q` stood under a negation on the
other side; its countermodel and what is observed speak of no further atoms. -/
theorem subformula_property_of_leaf :
    let p : Formula := .atom "p"
    let q : Formula := .atom "q"
    let r : Formula := .atom "r"
    let s : Sequent := ⟨[.bin .or p (.neg q)], [.bin .iff p r]⟩
    let w : Sequent := ⟨[r], [q, p]⟩
    .leaf w ∈ s.prove.nodes ∧ (∃ g ∈ s.lhs ++ s.rhs, q.Subformula g) ∧ w.atoms ⊆ s.atoms ∧
      w.refutation ∈ s.countermodels ∧ w.refutation.keys ⊆ s.atoms ∧
      ("q", false) ∈ s.observations ∧ "q" ∈ s.atoms := by
  intro p q r s w
  have hnode : .leaf w ∈ s.prove.nodes := by decide +kernel
  have hwitness : w ∈ s.witnesses := by decide +kernel
  have hmodel : w.refutation ∈ s.countermodels := List.mem_map_of_mem hwitness
  have hobserved : ("q", false) ∈ s.observations := by decide +kernel
  obtain ⟨hformulas, hatoms, hkeys, hnames⟩ := subformula_property s
  exact ⟨hnode, hformulas _ hnode .right q List.mem_cons_self, hatoms _ hnode, hmodel,
    hkeys _ hmodel, hobserved, hnames _ hobserved⟩

end Sequent

end SequentCalculus
