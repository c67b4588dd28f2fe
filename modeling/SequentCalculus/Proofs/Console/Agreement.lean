import SequentCalculus.Proofs.Calculus.Validity
import SequentCalculus.Proofs.Console.Reports

/-!
# Proofs/Console/Agreement — the two reports on a sequent say the same

A proof report lists what the nodes of a derivation say that refute, a falsification report what the
witnesses of the stack search say.  These are the same sequents (`refutedSequents_prove`), so both
reports merge the same tables in the same order, and their verdicts rest on the same list.

What a report says is read off the texts of its lines: the texts that start as a valuation does, and
whether one of them is the verdict.  All other lines are *neutral* (`Line.IsNeutral`).  Of a
counter-example that takes an argument: it is written behind the same front as a valuation, and an
atom may be called `Valuation`.  But its atoms are names, so no `#` is written in it
(`Registry.not_mem_writeSequent`).
-/

namespace SequentCalculus

/-! ## Sequents of names in writing -/

namespace Registry

variable {r : Registry} {fs : List Formula}

/-- An element of parts with separators stands in the separator or in one of the parts. -/
theorem mem_of_mem_intercalate {α : Type} {a : α} {separator : List α} {parts : List (List α)}
    (h : a ∈ separator.intercalate parts) : a ∈ separator ∨ ∃ part ∈ parts, a ∈ part := by
  induction parts with
  | nil => cases h
  | cons part parts ih =>
    rcases eq_or_ne parts [] with rfl | hparts
    · rw [List.intercalate_singleton] at h
      exact .inr ⟨part, List.mem_cons_self, h⟩
    · rw [List.intercalate_cons_of_ne_nil hparts, List.mem_append, List.mem_append] at h
      rcases h with (h | h) | h
      · exact .inr ⟨part, List.mem_cons_self, h⟩
      · exact .inl h
      · refine (ih h).imp_right ?_
        rintro ⟨later, hlater, ha⟩
        exact ⟨later, List.mem_cons_of_mem _ hlater, ha⟩

/-- Atoms are written by their names. -/
theorem exists_of_mem_writeFormulas {texts : List LooseText} {written : LooseText}
    (hatomic : ∀ f ∈ fs, f.isAtomic = true) (h : r.writeFormulas fs = .ok texts)
    (hwritten : written ∈ texts) : ∃ f ∈ fs, ∃ n ∈ f.atoms, written = n := by
  induction fs generalizing texts with
  | nil =>
    obtain rfl := Except.ok.inj h
    cases hwritten
  | cons f fs ih =>
    obtain ⟨first, hfirst, h⟩ := exists_of_bind_eq_ok h
    obtain ⟨rest, hrest, h⟩ := exists_of_bind_eq_ok h
    obtain rfl := Except.ok.inj h
    obtain ⟨hf, hfs⟩ := List.forall_mem_cons.1 hatomic
    rcases List.mem_cons.1 hwritten with rfl | hwritten
    · cases f with
      | atom n =>
        exact ⟨_, List.mem_cons_self, n, List.mem_singleton.2 rfl, (Except.ok.inj hfirst).symm⟩
      | neg f => cases hf
      | bin op f g => cases hf
    · obtain ⟨g, hg, hname⟩ := ih hfs hrest hwritten
      exact ⟨g, List.mem_cons_of_mem _ hg, hname⟩

theorem not_mem_writeSide {side : LooseText} (hatomic : ∀ f ∈ fs, f.isAtomic = true)
    (hnames : ∀ f ∈ fs, ∀ n ∈ f.atoms, LooseText.nameFront n = n) (h : r.writeSide fs = .ok side) :
    Text.Code.char '#' ∉ side := by
  intro hmem
  obtain ⟨texts, htexts, rfl⟩ := exists_of_map_eq_ok h
  rcases mem_of_mem_intercalate hmem with hcomma | ⟨written, hwritten, hmem⟩
  · exact absurd hcomma (by decide)
  · obtain ⟨f, hf, n, hn, rfl⟩ := exists_of_mem_writeFormulas hatomic htexts hwritten
    rw [← hnames f hf n hn] at hmem
    rcases LooseText.of_mem_nameFront hmem with hword | hprime
    · exact absurd hword (by decide)
    · exact absurd hprime (by decide)

/-- **No `#` is written in a sequent of atoms that are names.** -/
theorem not_mem_writeSequent {leaf : Sequent} {written : LooseText} (hatomic : leaf.isAtomic = true)
    (hnames : ∀ n ∈ leaf.atoms, LooseText.nameFront n = n) (h : r.writeSequent leaf = .ok written) :
    Text.Code.char '#' ∉ written := by
  obtain ⟨hlhs, hrhs⟩ : (∀ f ∈ leaf.lhs, f.isAtomic = true) ∧ ∀ f ∈ leaf.rhs, f.isAtomic = true := by
    simpa [Sequent.isAtomic] using hatomic
  have hname : ∀ f ∈ leaf.lhs ++ leaf.rhs, ∀ n ∈ f.atoms, LooseText.nameFront n = n :=
    fun f hf n hn => hnames n (Sequent.mem_atoms.2 ⟨f, hf, hn⟩)
  obtain ⟨hnamesLhs, hnamesRhs⟩ := List.forall_mem_append.1 hname
  obtain ⟨lhs, hwriteLhs, h⟩ := exists_of_bind_eq_ok h
  obtain ⟨rhs, hwriteRhs, h⟩ := exists_of_bind_eq_ok h
  obtain rfl := Except.ok.inj h
  intro hmem
  have hwhole := Text.trimEnds_subset _ _ hmem
  simp only [List.mem_append] at hwhole
  rcases hwhole with (((hmem | hblank) | harrow) | hblank) | hmem
  · exact not_mem_writeSide hlhs hnamesLhs hwriteLhs hmem
  · exact absurd hblank (by decide)
  · exact absurd harrow (by decide)
  · exact absurd hblank (by decide)
  · exact not_mem_writeSide hrhs hnamesRhs hwriteRhs hmem

end Registry

namespace Console

/-! ## The lines of a run -/

namespace Run

variable {α β : Type}

theorem lines_bind_of_ok {r : Run α} {a : α} (h : r.result = .ok a) (f : α → Run β) :
    (r >>= f).lines = r.lines ++ (f a).lines := by
  rw [bind_of_ok h, lines, List.filterMap_append]
  rfl

@[simp] theorem lines_write (lines : List Line) : (write lines).lines = lines := by
  rw [Run.lines, write, List.filterMap_map]
  exact List.filterMap_some

@[simp] theorem lines_log (level : Level) (channel : Channel) (messages : List LooseText) :
    (log level channel messages).lines = [] := by
  rw [Run.lines, log, List.filterMap_map, List.filterMap_eq_nil_iff]
  exact fun _ _ => rfl

@[simp] theorem lines_ofExcept {ε : Type} (failure : ε → Failure) (x : Except ε α) :
    (ofExcept failure x).lines = [] := rfl

@[simp] theorem lines_pure (a : α) : (pure a : Run α).lines = [] := rfl

end Run

variable {c : Console} {text : LooseText} {indent front : String} {s : Sequent}

/-- **The lines of a proof report**: a heading, the tree, the verdict and on demand the tree in
LaTeX. -/
theorem lines_prove {tree verdict : List Line} (latex : Bool)
    (h : Sequent.ofText c.registry text = .ok s) (htree : treeLines c.registry s.prove = .ok tree)
    (hverdict : verdictLines c.registry s.prove = .ok verdict) :
    (c.prove latex text).lines = [Line.plain (.proofOf text), Line.blank] ++ (tree ++ (verdict ++
      ((if latex then [Line.blank, Line.plain (.code s.prove.latex)] else []) ++ [Line.blank]))) := by
  have hread : c.read "" text = pure (some s) := by rw [read, h]
  rw [prove, hread, pure_bind, Run.lines_bind_of_ok (Run.result_write _), Run.lines_write]
  change _ ++ Run.lines (Run.ofExcept _ _ >>= _) = _
  rw [Run.lines_bind_of_ok (Run.result_ofExcept _ s.proveGuarded_eq_ok), Run.lines_ofExcept,
    List.nil_append, Run.lines_bind_of_ok (Run.result_log _ _ _), Run.lines_log, List.nil_append,
    Run.lines_bind_of_ok (Run.result_ofExcept _ htree), Run.lines_ofExcept, List.nil_append,
    Run.lines_bind_of_ok (Run.result_write _), Run.lines_write,
    Run.lines_bind_of_ok (Run.result_ofExcept _ hverdict), Run.lines_ofExcept, List.nil_append,
    Run.lines_bind_of_ok (Run.result_write _), Run.lines_write,
    Run.lines_bind_of_ok (Run.result_write _), Run.lines_write,
    Run.lines_bind_of_ok (Run.result_write _), Run.lines_write, Run.lines_pure, List.append_nil]

/-- **The lines of a falsification report**: a heading and what the witnesses say. -/
theorem lines_falsify {lines : List Line} (h : Sequent.ofText c.registry text = .ok s)
    (hlines : falsifyLines indent s.witnesses = .ok lines) :
    (c.falsify indent text).lines = [⟨indent, .valuationsOf text⟩, Line.blank] ++ lines := by
  have hread : c.read indent text = pure (some s) := by rw [read, h]
  rw [falsify, hread, pure_bind, Run.lines_bind_of_ok (Run.result_write _), Run.lines_write]
  change _ ++ Run.lines (Run.ofExcept _ _ >>= _) = _
  rw [Run.lines_bind_of_ok (Run.result_ofExcept _ s.witnessesGuarded_eq_ok), Run.lines_ofExcept,
    List.nil_append, Run.lines_bind_of_ok (Run.result_ofExcept _ hlines), Run.lines_ofExcept,
    List.nil_append, Run.lines_bind_of_ok (Run.result_write _), Run.lines_write, Run.lines_pure,
    List.append_nil]

/-! ## What lines tell -/

/-- Observations with their numbers, from zero on. -/
def numbered (os : List (String × Bool)) : List (Nat × String × Bool) :=
  os.zipIdx.map fun (o, i) => (i, o)

/-- How a text starts that tells a valuation, behind a front. -/
def valuationStart (front : String) : LooseText := front ++ "Valuation #"

/-- The text that tells a valuation: its number, the atom and the value. -/
def valuationText (front : String) : Nat × String × Bool → LooseText
  | (index, name, value) => valuationStart front ++ toString index ++ ": " ++ name ++ " -> " ++
      (if value then "True" else "False")

/-- The texts of the lines that tell a valuation. -/
def valuationTexts (front : String) (lines : List Line) : List LooseText :=
  (lines.map Line.text).filter fun text => valuationStart front <+: text

/-- The text of the verdict, behind an indentation. -/
def verdictText (indent : String) : LooseText := indent ++ "Formula is valid."

/-- One of the lines is the verdict. -/
def HasVerdict (indent : String) (lines : List Line) : Prop := ∃ l ∈ lines, l.text = verdictText indent

/-- A line that tells no valuation and is no verdict. -/
structure Line.IsNeutral (indent front : String) (l : Line) : Prop where
  silent : ¬ valuationStart front <+: l.text
  other : l.text ≠ verdictText indent

variable {lines more : List Line}

theorem valuationTexts_append : valuationTexts front (lines ++ more) =
    valuationTexts front lines ++ valuationTexts front more := by
  rw [valuationTexts, List.map_append, List.filter_append]
  rfl

theorem hasVerdict_append :
    HasVerdict indent (lines ++ more) ↔ HasVerdict indent lines ∨ HasVerdict indent more := by
  simp only [HasVerdict, List.mem_append, or_and_right, exists_or]

theorem valuationTexts_of_silent (h : ∀ l ∈ lines, ¬ valuationStart front <+: l.text) :
    valuationTexts front lines = [] :=
  List.filter_eq_nil_iff.2 (List.forall_mem_map.2 fun l hl => by simpa using h l hl)

theorem not_hasVerdict_of_neutral (h : ∀ l ∈ lines, l.IsNeutral indent front) :
    ¬ HasVerdict indent lines := by
  rintro ⟨l, hl, htext⟩
  exact (h l hl).other htext

theorem valuationStart_isPrefix (told : Nat × String × Bool) :
    valuationStart front <+: valuationText front told := by
  simp only [valuationText, List.append_assoc]
  exact List.prefix_append _ _

theorem text_valuation (i : Nat) (o : String × Bool) :
    (⟨front, .valuation i o⟩ : Line).text = valuationText front (i, o) := by
  change LooseText.ofString front ++ LooseText.ofString ("Valuation #" ++ toString i ++ ": " ++ o.1 ++
    " -> " ++ (if o.2 then "True" else "False")) = _
  simp only [valuationText, valuationStart, LooseText.ofString_append, List.append_assoc]

/-- Lines of observations tell them in order, each with its number. -/
theorem valuationTexts_ofObservations (front : String) (os : List (String × Bool)) :
    valuationTexts front (Line.ofObservations front os) =
      (numbered os).map (valuationText front) := by
  have htexts : (Line.ofObservations front os).map Line.text =
      (numbered os).map (valuationText front) := by
    rw [Line.ofObservations, numbered, List.map_map, List.map_map]
    exact List.map_congr_left fun _ _ => text_valuation _ _
  rw [valuationTexts, htexts, List.filter_eq_self]
  exact List.forall_mem_map.2 fun told _ => decide_eq_true (valuationStart_isPrefix told)

/-! ## Reports -/

/-- The lines are a report on the sequent: they tell the observations against it, numbered in order,
and the verdict exactly if it holds under every valuation. -/
structure ReportOn (s : Sequent) (indent front : String) (lines : List Line) : Prop where
  valuations : valuationTexts front lines = (numbered s.observations).map (valuationText front)
  verdict : HasVerdict indent lines ↔ ∀ v : Valuation, s.eval v = true

/-- **Neutral lines may be added around a report.** -/
theorem ReportOn.between {before after : List Line} (h : ReportOn s indent front lines)
    (hbefore : ∀ l ∈ before, l.IsNeutral indent front)
    (hafter : ∀ l ∈ after, l.IsNeutral indent front) :
    ReportOn s indent front (before ++ lines ++ after) := by
  constructor
  · rw [valuationTexts_append, valuationTexts_append,
      valuationTexts_of_silent fun l hl => (hbefore l hl).silent,
      valuationTexts_of_silent fun l hl => (hafter l hl).silent, List.nil_append, List.append_nil,
      h.valuations]
  · rw [hasVerdict_append, hasVerdict_append, or_iff_left (not_hasVerdict_of_neutral hafter),
      or_iff_right (not_hasVerdict_of_neutral hbefore), h.verdict]

theorem witnesses_eq_nil_iff (s : Sequent) :
    s.witnesses = [] ↔ ∀ v : Valuation, s.eval v = true := by
  rw [← Sequent.isClosed_prove_iff_forall_eval, ← List.isEmpty_iff, s.isEmpty_witnesses,
    Sequent.isValid]

theorem observations_eq_nil (h : s.witnesses = []) : s.observations = [] := by
  rw [Sequent.observations, Sequent.countermodels, h]
  rfl

/-- Without a witness the verdict is a report by itself. -/
theorem reportOn_verdict (hapart : ¬ valuationStart front <+: verdictText indent)
    (h : s.witnesses = []) : ReportOn s indent front [⟨indent, .valid⟩] := by
  refine ⟨?_, iff_of_true ⟨_, List.mem_singleton.2 rfl, rfl⟩ ((witnesses_eq_nil_iff s).1 h)⟩
  rw [observations_eq_nil h]
  exact valuationTexts_of_silent (List.forall_mem_singleton.2 hapart)

/-- With a witness the lines of the observations are a report. -/
theorem reportOn_ofObservations (hapart : ¬ valuationStart front <+: verdictText indent)
    (h : s.witnesses ≠ []) :
    ReportOn s indent front (Line.ofObservations front s.observations) := by
  refine ⟨valuationTexts_ofObservations front s.observations, iff_of_false ?_ fun hvalid =>
    h ((witnesses_eq_nil_iff s).2 hvalid)⟩
  rintro ⟨l, hl, htext⟩
  obtain ⟨⟨o, i⟩, -, rfl⟩ := List.mem_map.1 hl
  rw [← htext, text_valuation] at hapart
  exact hapart (valuationStart_isPrefix _)

/-! ## Neutral lines -/

theorem neutral_blank : Line.blank.IsNeutral indent front := by
  constructor
  · intro h
    exact absurd (List.prefix_nil.1 h) (List.append_ne_nil_of_right_ne_nil _ (by decide))
  · intro h
    exact absurd h.symm (List.append_ne_nil_of_right_ne_nil _ (by decide))

/-- A line is neutral by the way it starts. -/
theorem neutral_of_isPrefix {l : Line} {start : LooseText} (hstart : start <+: l.text)
    (hvaluation : ¬ valuationStart front <+: start ∧ ¬ start <+: valuationStart front)
    (hverdict : ¬ start <+: verdictText indent) : l.IsNeutral indent front := by
  refine ⟨fun h => ?_, fun h => hverdict (h ▸ hstart)⟩
  rcases List.prefix_or_prefix_of_prefix h hstart with h | h
  · exact hvaluation.1 h
  · exact hvaluation.2 h

/-! ## The falsification report -/

/-- Behind one indentation the verdict starts otherwise than a valuation. -/
theorem apart_self (indent : String) : ¬ valuationStart indent <+: verdictText indent := by
  rw [valuationStart, verdictText, List.prefix_append_right_inj]
  decide

theorem neutral_valuationsOf : Line.IsNeutral indent indent ⟨indent, .valuationsOf text⟩ := by
  have hstart : (indent ++ "Falsifying" : LooseText) <+: indent ++ Content.text (.valuationsOf text) :=
    (List.prefix_append_right_inj _).2 ((List.prefix_append_of_prefix (by decide)))
  refine neutral_of_isPrefix hstart ?_ ?_
  · rw [valuationStart, List.prefix_append_right_inj, List.prefix_append_right_inj]
    decide
  · rw [verdictText, List.prefix_append_right_inj]
    decide

/-- **The lines of a falsification report are a report on the sequent.** -/
theorem reportOn_falsify (h : Sequent.ofText c.registry text = .ok s) :
    ReportOn s indent indent (c.falsify indent text).lines := by
  have hblank : ∀ l ∈ [Line.blank], l.IsNeutral indent indent :=
    List.forall_mem_singleton.2 neutral_blank
  rw [lines_falsify h (falsifyLines_witnesses indent s), ← List.append_assoc]
  refine ReportOn.between ?_ (List.forall_mem_cons.2 ⟨neutral_valuationsOf, hblank⟩) hblank
  by_cases hempty : s.witnesses = []
  · rw [hempty, observations_eq_nil hempty]
    exact reportOn_verdict (apart_self indent) hempty
  · rw [if_neg (by rwa [List.isEmpty_iff])]
    exact reportOn_ofObservations (apart_self indent) hempty

/-! ## The proof report -/

theorem neutral_plain {content : Content} {start : LooseText} (hstart : start <+: content.text)
    (hvaluation : ¬ valuationStart "  .. " <+: start ∧ ¬ start <+: valuationStart "  .. ")
    (hverdict : ¬ start <+: verdictText "") : Line.IsNeutral "" "  .. " (Line.plain content) :=
  neutral_of_isPrefix hstart hvaluation hverdict

/-- Tabs make no valuation and no verdict of a line. -/
theorem neutral_tabs {content : Content} {start : LooseText} (hstart : start <+: content.text)
    (hvaluation : ¬ valuationStart "  .. " <+: start ∧ ¬ start <+: valuationStart "  .. ")
    (hverdict : ¬ start <+: verdictText "") (depth : Nat) :
    Line.IsNeutral "" "  .. " ⟨String.ofList (List.replicate depth '\t'), content⟩ := by
  cases depth with
  | zero => exact neutral_plain hstart hvaluation hverdict
  | succ depth =>
    have htab : LooseText.ofString "\t" <+:
        LooseText.ofString (String.ofList (List.replicate (depth + 1) '\t')) ++ content.text := by
      rw [LooseText.ofString_ofList (List.replicate _ _), List.replicate_succ]
      exact ⟨_, rfl⟩
    exact neutral_of_isPrefix htab (by decide) (by decide)

theorem neutral_nodeLines {r : Registry} {n : Derivation} {depth : Nat}
    (h : nodeLines r n depth = .ok lines) : ∀ l ∈ lines, l.IsNeutral "" "  .. " := by
  obtain ⟨written, -, h⟩ := exists_of_bind_eq_ok h
  obtain rfl := Except.ok.inj h
  have hnode : Line.IsNeutral "" "  .. " ⟨String.ofList (List.replicate depth '\t'), .node written⟩ :=
    neutral_tabs (List.prefix_append _ _) (by decide) (by decide) depth
  have hmarked : LooseText.ofString "          **" <+: Content.text (.mark n.status) := by
    cases n.status <;> decide
  have hmark : Line.IsNeutral "" "  .. " ⟨String.ofList (List.replicate depth '\t'), .mark n.status⟩ :=
    neutral_tabs hmarked (by decide) (by decide) depth
  refine List.forall_mem_cons.2 ⟨hnode, ?_⟩
  split
  · exact fun l hl => nomatch hl
  · exact List.forall_mem_cons.2 ⟨hmark, List.forall_mem_singleton.2 neutral_blank⟩

/-- **The tree of a proof report tells nothing of the verdict.** -/
theorem neutral_treeLines {r : Registry} {t : Derivation} (h : treeLines r t = .ok lines) :
    ∀ l ∈ lines, l.IsNeutral "" "  .. " := by
  obtain ⟨parts, hparts, h⟩ := exists_of_bind_eq_ok h
  obtain rfl := Except.ok.inj h
  intro l hl
  obtain ⟨part, hpart, hl⟩ := List.mem_flatten.1 hl
  obtain ⟨p, -, hp⟩ := exists_of_mem_mapM hparts hpart
  exact neutral_nodeLines hp l hl

/-- A text without a `#` tells no valuation. -/
theorem neutral_counterExample {written : LooseText} (h : Text.Code.char '#' ∉ written) :
    Line.IsNeutral "" "  .. " ⟨"  .. ", .counterExample written⟩ := by
  constructor
  · intro hvaluation
    rw [valuationStart, Line.text, List.prefix_append_right_inj] at hvaluation
    exact h (hvaluation.subset (by decide))
  · intro htext
    have hfront : LooseText.ofString "  .. " <+: verdictText "" := htext ▸ List.prefix_append _ _
    exact absurd hfront (by decide)

theorem reportOn_verdictLines (h : Sequent.ofText c.registry text = .ok s)
    (hlines : verdictLines c.registry s.prove = .ok lines) : ReportOn s "" "  .. " lines := by
  have hapart : ¬ valuationStart "  .. " <+: verdictText "" := by decide
  obtain ⟨texts, htexts⟩ := exists_mapM_writeSequent h
  obtain rfl := Except.ok.inj ((verdictLines_prove htexts).symm.trans hlines)
  split
  · rename_i hempty
    exact reportOn_verdict hapart (List.isEmpty_iff.1 hempty)
  · rename_i hempty
    refine (reportOn_ofObservations hapart (mt List.isEmpty_iff.2 hempty)).between ?_
      (List.forall_mem_singleton.2 neutral_blank)
    refine List.forall_mem_append.2 ⟨List.forall_mem_append.2 ⟨?_, ?_⟩, ?_⟩
    · exact List.forall_mem_cons.2 ⟨neutral_plain (List.prefix_refl _) (by decide) (by decide),
        List.forall_mem_singleton.2 (neutral_plain (List.prefix_refl _) (by decide) (by decide))⟩
    · refine List.forall_mem_map.2 fun written hwritten => neutral_counterExample ?_
      obtain ⟨leaf, hleaf, hwritten⟩ := exists_of_mem_mapM htexts hwritten
      have hirr := Sequent.isIrreducible_of_mem_witnessesOf hleaf
      rw [Sequent.isIrreducible, Bool.and_eq_true] at hirr
      exact Registry.not_mem_writeSequent hirr.1 (fun n hn => Sequent.nameFront_of_mem_atoms h
        ((Sequent.isWithin_of_mem_witnesses hleaf).atoms_subset hn)) hwritten
    · exact List.forall_mem_cons.2 ⟨neutral_blank,
        List.forall_mem_singleton.2 (neutral_plain (List.prefix_refl _) (by decide) (by decide))⟩

/-- **The lines of a proof report are a report on the sequent.** -/
theorem reportOn_prove (latex : Bool) (h : Sequent.ofText c.registry text = .ok s) :
    ReportOn s "" "  .. " (c.prove latex text).lines := by
  obtain ⟨tree, htree⟩ := exists_treeLines h
  obtain ⟨texts, htexts⟩ := exists_mapM_writeSequent h
  have hverdict := verdictLines_prove htexts
  have hheading : Line.IsNeutral "" "  .. " (Line.plain (.proofOf text)) :=
    neutral_plain (List.prefix_append _ _) (by decide) (by decide)
  have hcode : Line.IsNeutral "" "  .. " (Line.plain (.code s.prove.latex)) := by
    have hstart : LooseText.ofString "\\begin\x7brules\x7d\n" <+: LooseText.ofString s.prove.latex := by
      rw [Derivation.latex, LooseText.ofString_append, LooseText.ofString_append, List.append_assoc]
      exact List.prefix_append _ _
    exact neutral_plain hstart (by decide) (by decide)
  rw [lines_prove latex h htree hverdict, ← List.append_assoc, ← List.append_assoc]
  refine (reportOn_verdictLines h hverdict).between (List.forall_mem_append.2 ⟨?_, ?_⟩)
    (List.forall_mem_append.2 ⟨?_, List.forall_mem_singleton.2 neutral_blank⟩)
  · exact List.forall_mem_cons.2 ⟨hheading, List.forall_mem_singleton.2 neutral_blank⟩
  · exact neutral_treeLines htree
  · split
    · exact List.forall_mem_cons.2 ⟨neutral_blank, List.forall_mem_singleton.2 hcode⟩
    · exact fun l hl => nomatch hl

/-- **The proof report and the falsification report agree on every text.**  Both give back nothing
for a text that is no sequent.  For a sequent, the one gives back its derivation and the other the
sequents of the counter-examples of that derivation, none of which is refused a valuation: all together
they give the observations against the sequent.  The texts of the lines of both tell these observations
in order, each with its number, and the verdict exactly if the sequent is valid. -/
theorem reports_agree (c : Console) (latex : Bool) (indent : String) (text : LooseText) :
    (∀ e, Sequent.ofText c.registry text = .error e →
      (c.prove latex text).result = .ok none ∧ (c.falsify indent text).result = .ok none) ∧
    ∀ s, Sequent.ofText c.registry text = .ok s →
      (∃ t leaves, (c.prove latex text).result = .ok (some t) ∧
        (c.falsify indent text).result = .ok (some leaves) ∧ t = s.prove ∧
        leaves = t.counterExamples.map Derivation.sequent ∧
        (∀ leaf ∈ leaves, leaf.refutation? = .ok leaf.refutation) ∧
        Sequent.observe leaves = .ok s.observations) ∧
      ReportOn s "" "  .. " (c.prove latex text).lines ∧
      ReportOn s indent indent (c.falsify indent text).lines := by
  rw [result_prove, result_falsify, Sequent.ofText?]
  constructor
  · intro e h
    rw [h]
    exact ⟨rfl, rfl⟩
  · intro s h
    refine ⟨⟨s.prove, s.witnesses, ?_, ?_, rfl, s.witnesses_eq, ?_, s.observe_witnesses⟩,
      reportOn_prove latex h, reportOn_falsify h⟩
    · rw [h]
      rfl
    · rw [h]
      rfl
    · exact fun leaf hleaf => Sequent.refutation?_of_mem_witnesses hleaf

/-- Against `A ∨ B ⊢ A ∧ B` both reports tell four valuations, opposite ones for both atoms, and no
verdict. -/
theorem reports_agree_on_branches :
    let c : Console := ⟨.default, fun _ => .error .missing, false⟩
    valuationTexts "  .. " (c.prove true "A | B |- A & B").lines =
        ["  .. Valuation #0: A -> True", "  .. Valuation #1: B -> False",
          "  .. Valuation #2: B -> True", "  .. Valuation #3: A -> False"] ∧
      valuationTexts "  " (c.falsify "  " "A | B |- A & B").lines =
        ["  Valuation #0: A -> True", "  Valuation #1: B -> False",
          "  Valuation #2: B -> True", "  Valuation #3: A -> False"] ∧
      ¬ HasVerdict "" (c.prove true "A | B |- A & B").lines ∧
      ¬ HasVerdict "  " (c.falsify "  " "A | B |- A & B").lines := by
  intro c
  let s : Sequent := ⟨[.bin .or (.atom "A") (.atom "B")], [.bin .and (.atom "A") (.atom "B")]⟩
  have hread : Sequent.ofText c.registry "A | B |- A & B" = .ok s :=
    eq_ok_of_toOption (by decide +kernel)
  have hnumbered : numbered s.observations =
      [(0, "A", true), (1, "B", false), (2, "B", true), (3, "A", false)] := by
    decide +kernel
  have hinvalid : ¬ ∀ v : Valuation, s.eval v = true := fun h =>
    absurd (h fun name => name = "A") (by decide)
  obtain ⟨-, hproof, hfalsification⟩ := (reports_agree c true "  " "A | B |- A & B").2 s hread
  refine ⟨?_, ?_, mt hproof.verdict.1 hinvalid, mt hfalsification.verdict.1 hinvalid⟩
  · rw [hproof.valuations, hnumbered]
    decide
  · rw [hfalsification.valuations, hnumbered]
    decide

end Console

end SequentCalculus
