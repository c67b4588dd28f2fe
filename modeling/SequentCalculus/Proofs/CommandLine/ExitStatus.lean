import SequentCalculus.CommandLine.Program
import SequentCalculus.Proofs.Calculus.Validity
import SequentCalculus.Proofs.Console.Reports
import SequentCalculus.Proofs.Text.Lines

/-!
# Proofs/CommandLine/ExitStatus — the status of the program tells the truth

The two modes judge a sequent by different searches: one asks whether the tree is closed, the other
whether the stack search has found a witness.  Both come to the same verdict (`isEmpty_witnesses`),
and the verdict on a text depends on the registry and the text alone (`result_verdict`).  The status
sums up the verdicts, so it says in either mode whether all texts are sequents and all sequents are
valid (`status_tellsTruth`).
-/

namespace SequentCalculus

namespace Program

open SequentCalculus.Console

/-! ## The verdict on one text -/

/-- The verdict on a text: whether its sequent is valid, `none` if it is no sequent. -/
def verdictOn (r : Registry) (text : String) : Option Bool :=
  (Sequent.ofText? r text).map Sequent.isValid

/-- **Both modes give the same verdict.** -/
theorem result_verdict (c : Console) (o : Options) (text : String) :
    (verdict c o text).result = .ok (verdictOn c.registry text) := by
  rw [verdict]
  split
  · rw [falsifyVerdict, Run.result_bind_of_ok (c.result_falsify "" text), Run.result_pure,
      Option.map_map, verdictOn]
    exact congrArg (fun f => Except.ok (Option.map f _)) (funext Sequent.isEmpty_witnesses)
  · rw [proveVerdict, Run.result_bind_of_ok (c.result_prove o.latex text), Run.result_pure,
      Option.map_map]
    rfl

variable {r : Registry} {text : String}

theorem verdictOn_eq_none_iff :
    verdictOn r text = none ↔ ∃ e, Sequent.ofText r text = .error e := by
  rw [verdictOn, Sequent.ofText?]
  rcases Sequent.ofText r text with e | s <;> simp [Except.toOption]

theorem verdictOn_eq_some_iff {valid : Bool} :
    verdictOn r text = some valid ↔ ∃ s, Sequent.ofText r text = .ok s ∧ s.isValid = valid := by
  rw [verdictOn, Sequent.ofText?]
  rcases Sequent.ofText r text with e | s <;> simp [Except.toOption]

/-! ## The status for all verdicts -/

theorem forall_eq_some_true_iff {verdicts : List (Option Bool)} :
    (∀ verdict ∈ verdicts, verdict = some true) ↔ none ∉ verdicts ∧ some false ∉ verdicts := by
  constructor
  · intro hall
    exact ⟨fun hnone => by simpa using hall _ hnone, fun hfalse => by simpa using hall _ hfalse⟩
  · rintro ⟨hnone, hfalse⟩ (_ | _ | _) hmem
    · exact absurd hmem hnone
    · exact absurd hmem hfalse
    · rfl

/-- The gravest verdict counts. -/
theorem statusOf_eq (verdicts : List (Option Bool)) :
    statusOf verdicts =
      if none ∈ verdicts then 2 else if some false ∈ verdicts then 1 else 0 := by
  have hany : verdicts.any (·.isNone) = true ↔ none ∈ verdicts := by simp
  have hall : verdicts.all (· = some true) = true ↔ none ∉ verdicts ∧ some false ∉ verdicts := by
    simpa using forall_eq_some_true_iff
  rw [statusOf]
  simp only [hany, hall]
  by_cases hnone : none ∈ verdicts <;> by_cases hfalse : some false ∈ verdicts <;>
    simp [hnone, hfalse]

theorem statusOf_eq_two_iff {verdicts : List (Option Bool)} :
    statusOf verdicts = 2 ↔ none ∈ verdicts := by
  rw [statusOf_eq]
  grind

theorem statusOf_eq_one_iff {verdicts : List (Option Bool)} :
    statusOf verdicts = 1 ↔ none ∉ verdicts ∧ some false ∈ verdicts := by
  rw [statusOf_eq]
  grind

theorem statusOf_eq_zero_iff {verdicts : List (Option Bool)} :
    statusOf verdicts = 0 ↔ ∀ verdict ∈ verdicts, verdict = some true := by
  rw [statusOf_eq, forall_eq_some_true_iff]
  grind

/-- The status tells the truth about the texts: `2` if one of them is refused, `0` if they are
sequents that hold under every valuation, and `1` if they are sequents and one of them fails under
some valuation. -/
structure TellsTruth (r : Registry) (texts : List String) (status : Nat) : Prop where
  refused : status = 2 ↔ ∃ text ∈ texts, ∃ e, Sequent.ofText r text = .error e
  valid : status = 0 ↔ ∀ text ∈ texts, ∃ s, Sequent.ofText r text = .ok s ∧
    ∀ v : Valuation, s.eval v = true
  invalid : status = 1 ↔ (∀ text ∈ texts, ∃ s, Sequent.ofText r text = .ok s) ∧
    ∃ text ∈ texts, ∃ s, Sequent.ofText r text = .ok s ∧ ∃ v : Valuation, s.eval v = false

theorem tellsTruth_statusOf (r : Registry) (texts : List String) :
    TellsTruth r texts (statusOf (texts.map (verdictOn r))) where
  refused := by
    simp only [statusOf_eq_two_iff, List.mem_map, verdictOn_eq_none_iff]
  valid := by
    simp only [statusOf_eq_zero_iff, List.forall_mem_map, verdictOn_eq_some_iff, Sequent.isValid,
      Sequent.isClosed_prove_iff_forall_eval]
  invalid := by
    have hread : none ∉ texts.map (verdictOn r) ↔
        ∀ text ∈ texts, ∃ s, Sequent.ofText r text = .ok s := by
      rw [List.mem_map, not_exists]
      refine forall_congr' fun text => ?_
      rw [not_and, verdictOn_eq_none_iff]
      rcases Sequent.ofText r text with e | s <;> simp
    rw [statusOf_eq_one_iff, hread]
    simp only [List.mem_map, verdictOn_eq_some_iff, Sequent.isValid_eq_false_iff]

/-! ## The work of the program -/

/-- The lines of the file that the options name, which is UTF-8 text; there are none without a
file. -/
inductive HasLines (files : Files) : Option String → List String → Prop
  | none : HasLines files none []
  | file {path content : String} : files path = .ok content.toUTF8 →
      HasLines files (some path) (Text.strippedLines content)

theorem result_work {c : Console} {o : Options} {lines : List String}
    (h : HasLines c.files o.file lines) :
    (work c o).result =
      .ok (statusOf ((lines ++ o.sequents).map (verdictOn c.registry))) := by
  have hverdicts : ∀ texts : List String,
      (texts.mapM (verdict c o)).result = .ok (texts.map (verdictOn c.registry)) := fun texts =>
    Run.result_mapM fun text _ => result_verdict c o text
  rw [work, List.map_append]
  generalize o.file = file at h
  cases h with
  | none =>
    rw [Run.result_bind_of_ok rfl, Run.result_bind_of_ok (hverdicts o.sequents)]
    rfl
  | @file path content hfile =>
    have hlines := Run.result_map_of_ok (hverdicts (Text.fileLines content)) some
    simp only [onFile_of_toUTF8 hfile]
    rw [Run.result_bind_of_ok hlines, Run.result_bind_of_ok (hverdicts o.sequents),
      Text.fileLines_eq_strippedLines]
    rfl

/-- With something to work on, the program works. -/
theorem perform_eq_work {o : Options} (hviewer : o.viewer = false)
    (hwork : o.sequents ≠ [] ∨ o.file ≠ none) (c : Console) (input : List Char) :
    perform c o input = work c o := by
  have hsession : isSession o = false := by
    rcases hwork with h | h
    · simp [isSession, h]
    · simp [isSession, Option.isSome_iff_ne_none.2 h]
  simp [perform, hviewer, hsession]

/-- **The status tells the truth in both modes.**  Whatever the registry, the lines of the file and
the sequents, with something to work on the program comes to its end, and its status is the same with
and without falsification and LaTeX: `2` if a text is refused by the reader, otherwise `0` if every
sequent holds under every valuation and `1` if not. -/
theorem status_tellsTruth (c : Console) (o : Options) (lines : List String) (input : List Char)
    (hviewer : o.viewer = false) (hwork : o.sequents ≠ [] ∨ o.file ≠ none)
    (hlines : HasLines c.files o.file lines) :
    ∃ status, TellsTruth c.registry (lines ++ o.sequents) status ∧ ∀ falsify latex : Bool,
      let o' := { o with falsify := falsify, latex := latex }
      (perform c o' input).result = .ok status ∧
        ∀ args events, setUp c.files c.terminal args = .ok ⟨o', c, events⟩ →
          (run c.files c.terminal args input).ending = .finished status := by
  refine ⟨_, tellsTruth_statusOf c.registry (lines ++ o.sequents), ?_⟩
  intro falsify latex o'
  have hperform : (perform c o' input).result =
      .ok (statusOf ((lines ++ o.sequents).map (verdictOn c.registry))) := by
    rw [perform_eq_work (o := o') hviewer hwork]
    exact result_work hlines
  refine ⟨hperform, fun args events hsetUp => ?_⟩
  rw [run, hsetUp]
  simp only [Outcome.ofRun, hperform]

/-- A file with two valid sequents, and the empty sequent, which fails under every valuation though
it has no atoms to give a value to: the status is `1` in both modes. -/
theorem status_tellsTruth_of_file :
    let content := "p -> p\r\n\r\n  q, r |- q \n"
    let files : Files := fun path =>
      if path = "work.txt" then .ok content.toUTF8 else .error .missing
    (run files false ["--file", "work.txt", "|-"] []).ending = .finished 1 ∧
      (run files false ["--falsify", "--file", "work.txt", "|-"] []).ending = .finished 1 := by
  intro content files
  let o : Options := { file := some "work.txt", sequents := ["|-"] }
  let c : Console := ⟨.default, files, false⟩
  have hlines : HasLines c.files o.file ["p -> p", "q, r |- q"] := by
    have hstripped : Text.strippedLines content = ["p -> p", "q, r |- q"] := by decide +kernel
    have hfile : files "work.txt" = .ok content.toUTF8 := if_pos rfl
    exact hstripped ▸ HasLines.file hfile
  obtain ⟨status, htruth, hstatus⟩ :=
    status_tellsTruth c o _ [] rfl (Or.inl (List.cons_ne_nil _ _)) hlines
  obtain rfl : status = 1 := by
    have hempty : Sequent.ofText .default "|-" = .ok ⟨[], []⟩ :=
      eq_ok_of_toOption (by decide +kernel)
    refine htruth.invalid.2 ⟨?_, "|-", by simp [o], ⟨[], []⟩, hempty, fun _ => false, rfl⟩
    intro text htext
    have hread : (["p -> p", "q, r |- q", "|-"].all fun text =>
        (Sequent.ofText .default text).toOption.isSome) = true := by decide +kernel
    obtain ⟨s, hs⟩ := Option.isSome_iff_exists.1 (List.all_eq_true.1 hread text htext)
    exact ⟨s, eq_ok_of_toOption hs⟩
  have hsetUp : ∀ {args : List String} {o' : Options}, Options.ofArguments args = .ok o' →
      o'.symbols = none → setUp files false args = .ok ⟨o', c, []⟩ := by
    intro args o' hargs hsymbols
    simp only [setUp, hargs, registryFor, hsymbols]
    rfl
  constructor
  · refine (hstatus false false).2 _ [] (hsetUp ?_ rfl)
    exact eq_ok_of_toOption (by decide +kernel)
  · refine (hstatus true false).2 _ [] (hsetUp ?_ rfl)
    exact eq_ok_of_toOption (by decide +kernel)

end Program

end SequentCalculus
