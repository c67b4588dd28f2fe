import SequentCalculus.Console.Report
import SequentCalculus.Proofs.Calculus.Guards
import SequentCalculus.Proofs.Calculus.Interleaving
import SequentCalculus.Proofs.Registry.Coverage

/-!
# Proofs/Console/Reports — what the reports give back

A report may stop at a connective that cannot be written, at a guard of the search and at a leaf that
cannot be observed.  The first never happens to a sequent that was read with the same registry, and
the guards never fail.  The nodes that a proof report picks out are leaves, for a sequent of atoms has
no rule (`isLeaf_of_status_refuted`); so they are the witnesses of the stack search
(`refutedSequents_prove`), and these can be observed.

So every report comes to its end, and what it gives back depends on the sequent alone:

* `Console.result_prove` — the derivation of the sequent;
* `Console.result_falsify` — its witnesses;

and `none` for a text that is no sequent.
-/

namespace SequentCalculus

namespace Console

/-! ## Results of runs -/

namespace Run

variable {α β : Type}

instance : LawfulMonad Run := LawfulMonad.mk' Run
  (fun ⟨events, result⟩ => by
    cases result <;> simp [Functor.map, andThen])
  (fun a f => by
    rw [bind_of_ok (result_pure a), events_pure, List.nil_append])
  (fun r f g => by
    cases hr : r.result with
    | error e => rw [bind_of_error hr, bind_of_error rfl, bind_of_error hr]
    | ok a =>
      rw [bind_of_ok hr, bind_of_ok hr]
      cases hf : (f a).result with
      | error e => rw [bind_of_error hf, bind_of_error rfl]
      | ok b => rw [bind_of_ok hf, bind_of_ok rfl, List.append_assoc])

theorem result_bind_of_ok {r : Run α} {a : α} (h : r.result = .ok a) (f : α → Run β) :
    (r >>= f).result = (f a).result := by
  rw [bind_of_ok h]

theorem result_map_of_ok {r : Run α} {a : α} (h : r.result = .ok a) (f : α → β) :
    (f <$> r).result = .ok (f a) := by
  rw [map_eq_pure_bind, result_bind_of_ok h, result_pure]

@[simp] theorem result_write (lines : List Line) : (write lines).result = .ok () := rfl

@[simp] theorem result_log (level : Level) (channel : Channel) (messages : List LooseText) :
    (log level channel messages).result = .ok () := rfl

theorem result_ofExcept {ε : Type} {x : Except ε α} {a : α} (failure : ε → Failure) (h : x = .ok a) :
    (ofExcept failure x).result = .ok a := by
  rw [h]
  rfl

/-- **A command that succeeds on each of some texts succeeds on all of them in turn.** -/
theorem result_mapM {f : α → Run β} {g : α → β} {xs : List α}
    (h : ∀ x ∈ xs, (f x).result = .ok (g x)) : (xs.mapM f).result = .ok (xs.map g) := by
  induction xs with
  | nil => rfl
  | cons x xs ih =>
    have hx := h x List.mem_cons_self
    have hxs := ih fun y hy => h y (List.mem_cons_of_mem _ hy)
    rw [List.mapM_cons, result_bind_of_ok hx, result_bind_of_ok hxs, result_pure, List.map_cons]

end Run

end Console

/-! ## The outline of a derivation -/

namespace Derivation

mutual

/-- The outline meets the nodes that the walk meets, in the same order. -/
theorem map_fst_outlineFrom (d e : Nat) :
    ∀ t : Derivation, (outlineFrom d t).map Prod.fst = (walkFrom e t).map Prod.fst
  | node s r cs => by
    simp only [outlineFrom, walkFrom, List.map_cons, map_fst_outlineForest _ (e + 1) cs]

theorem map_fst_outlineForest (d e : Nat) :
    ∀ ts : List Derivation, (outlineForest d ts).map Prod.fst = (walkForest e ts).map Prod.fst
  | [] => rfl
  | t :: ts => by
    simp only [outlineForest, walkForest, List.map_append, map_fst_outlineFrom d e t,
      map_fst_outlineForest d e ts]

end

theorem map_fst_outline (t : Derivation) : t.outline.map Prod.fst = t.nodes :=
  map_fst_outlineFrom 0 0 t

theorem mem_nodes_of_mem_outline {t : Derivation} {p : Derivation × Nat} (h : p ∈ t.outline) :
    p.1 ∈ t.nodes :=
  map_fst_outline t ▸ List.mem_map_of_mem h

/-! ## The nodes that refute -/

/-- In a derivation only a leaf can refute. -/
theorem isLeaf_of_status_refuted {s : Sequent} {n : Derivation} (hn : n ∈ s.prove.nodes)
    (h : n.status = .refuted) : n.isLeaf = true := by
  have hstatus : n.sequent.status ≠ .pending := by
    rw [show n.sequent.status = .refuted from h]
    decide
  rw [Sequent.eq_prove_of_mem_nodes hn, Sequent.prove_of_status_ne_pending hstatus]
  rfl

theorem counterExamples_eq_filter_nodes (t : Derivation) :
    t.counterExamples = t.nodes.filter fun n => n.status = .refuted ∧ n.isLeaf := by
  rw [counterExamples, leaves, ← nodes, List.filter_filter]
  exact List.filter_congr fun n _ => by simp

end Derivation

theorem Sequent.witnesses_eq (s : Sequent) : s.witnesses = s.counterExamples := by
  rw [witnesses, witnessesOf_eq_flatMap, List.flatMap_singleton]

namespace Console

theorem refutedSequents_eq (t : Derivation) :
    refutedSequents t = (t.nodes.filter fun n => n.status = .refuted).map Derivation.sequent := by
  rw [← Derivation.map_fst_outline, List.filter_map, List.map_map]
  rfl

/-- **The nodes that a proof report picks out are the witnesses of the stack search.** -/
theorem refutedSequents_prove (s : Sequent) : refutedSequents s.prove = s.witnesses := by
  have hfilter : (s.prove.nodes.filter fun n => n.status = .refuted) = s.prove.counterExamples := by
    rw [Derivation.counterExamples_eq_filter_nodes]
    refine List.filter_congr fun n hn => decide_eq_decide.2 ?_
    exact ⟨fun h => ⟨h, Derivation.isLeaf_of_status_refuted hn h⟩, And.left⟩
  rw [refutedSequents_eq, hfilter, Sequent.witnesses_eq, Sequent.counterExamples]

/-! ## Reports on a sequent that was read -/

variable {r : Registry} {text : LooseText} {s : Sequent}

theorem exists_treeLines (h : Sequent.ofText r text = .ok s) :
    ∃ lines, treeLines r s.prove = .ok lines := by
  have hnodes : ∀ p ∈ s.prove.outline, ∃ lines, nodeLines r p.1 p.2 = .ok lines := by
    intro p hp
    obtain ⟨written, hwritten⟩ :=
      Registry.exists_writeSequent_of_mem_nodes h (Derivation.mem_nodes_of_mem_outline hp)
    rw [nodeLines, hwritten]
    exact ⟨_, rfl⟩
  obtain ⟨lines, hlines⟩ := exists_mapM_eq_ok hnodes
  refine ⟨lines.flatten, ?_⟩
  rw [treeLines, hlines]
  rfl

/-- **The witnesses against a sequent that was read can be written.** -/
theorem exists_mapM_writeSequent (h : Sequent.ofText r text = .ok s) :
    ∃ texts, s.witnesses.mapM r.writeSequent = .ok texts := by
  refine exists_mapM_eq_ok fun u hu => ?_
  rw [← refutedSequents_prove, refutedSequents_eq] at hu
  obtain ⟨n, hn, rfl⟩ := List.mem_map.1 hu
  exact Registry.exists_writeSequent_of_mem_nodes h (List.mem_filter.1 hn).1

/-- **What stands behind the tree**: the verdict if there is no witness, or else that there is none,
the witnesses and the observations. -/
theorem verdictLines_prove {texts : List LooseText}
    (htexts : s.witnesses.mapM r.writeSequent = .ok texts) :
    verdictLines r s.prove = .ok (if s.witnesses.isEmpty then [Line.plain .valid] else
      [Line.plain .notValid, Line.plain (.words "+ Counter-examples:")]
        ++ texts.map (fun text => ⟨"  .. ", .counterExample text⟩)
        ++ [Line.blank, Line.plain (.words "+ Falsifying valuations:")]
        ++ Line.ofObservations "  .. " s.observations
        ++ [Line.blank]) := by
  rw [verdictLines, refutedSequents_prove, htexts, Sequent.observe_witnesses]
  split <;> rfl

/-- **A falsification report**: the verdict if there is no witness, and the observations. -/
theorem falsifyLines_witnesses (indent : String) (s : Sequent) :
    falsifyLines indent s.witnesses = .ok ((if s.witnesses.isEmpty then [⟨indent, .valid⟩] else [])
      ++ Line.ofObservations indent s.observations ++ [Line.blank]) := by
  rw [falsifyLines, Sequent.observe_witnesses]
  rfl

theorem result_read (c : Console) (indent : String) (text : LooseText) :
    (c.read indent text).result = .ok (Sequent.ofText? c.registry text) := by
  rw [read, Sequent.ofText?]
  rcases Sequent.ofText c.registry text with e | s
  · cases e <;> rfl
  · rfl

/-- **A proof report gives back the derivation of the sequent.** -/
theorem result_prove (c : Console) (latex : Bool) (text : LooseText) :
    (c.prove latex text).result = .ok ((Sequent.ofText? c.registry text).map Sequent.prove) := by
  rw [prove, Run.result_bind_of_ok (Run.result_write _),
    Run.result_bind_of_ok (c.result_read "" text), Sequent.ofText?]
  match h : Sequent.ofText c.registry text with
  | .error e => rfl
  | .ok s =>
    obtain ⟨tree, htree⟩ := exists_treeLines h
    obtain ⟨texts, htexts⟩ := exists_mapM_writeSequent h
    change Run.result (Run.ofExcept _ _ >>= _) = _
    rw [Run.result_bind_of_ok (Run.result_ofExcept _ s.proveGuarded_eq_ok),
      Run.result_bind_of_ok (Run.result_log _ _ _), Run.result_bind_of_ok (Run.result_ofExcept _ htree),
      Run.result_bind_of_ok (Run.result_write _),
      Run.result_bind_of_ok (Run.result_ofExcept _ (verdictLines_prove htexts))]
    rfl

/-- **A falsification report gives back the witnesses against the sequent.** -/
theorem result_falsify (c : Console) (indent : String) (text : LooseText) :
    (c.falsify indent text).result =
      .ok ((Sequent.ofText? c.registry text).map Sequent.witnesses) := by
  rw [falsify, Run.result_bind_of_ok (Run.result_write _),
    Run.result_bind_of_ok (c.result_read indent text)]
  cases Sequent.ofText? c.registry text with
  | none => rfl
  | some s =>
    change Run.result (Run.ofExcept _ _ >>= _) = _
    rw [Run.result_bind_of_ok (Run.result_ofExcept _ s.witnessesGuarded_eq_ok),
      Run.result_bind_of_ok (Run.result_ofExcept _ (falsifyLines_witnesses indent s))]
    rfl

/-! ## Files -/

/-- A command on a file runs on each line of its text. -/
theorem onFile_of_toUTF8 {α : Type} {c : Console} {path content : String}
    (h : c.files path = .ok content.toUTF8) (command : String → Run α) :
    c.onFile command path = some <$> (Text.fileLines content).mapM command := by
  have hdecode : decodeText content.toUTF8 = .ok content := decodeText_eq_ok_iff.2 rfl
  rw [onFile, fileTexts, h]
  simp only [hdecode, pure_bind]

end Console

end SequentCalculus
