import SequentCalculus.Text.Lines

/-!
# Proofs/Text/Lines — the lines of a text file

A line ends at a line feed, at a carriage return, or at both in this order.  The splitter cuts at
every single character of these and so makes an extra empty piece of each double break.  Since blank
lines are left out, the outcome is the same (`fileLines_eq_strippedLines`).
-/

namespace SequentCalculus.Text

/-- The lines of a text without the blanks at either end, those of blanks only left out. -/
def strippedLines (content : String) : List String :=
  (((normalizeBreaks content.toList).splitOn '\n').map fun line => strip (String.ofList line)).filter
    (· ≠ "")

/-- Pieces that make up no line are left out. -/
def linesOfPieces (pieces : List (List Char)) : List String :=
  (pieces.map trimBlanks).filterMap fun line =>
    if line.isEmpty then none else some (String.ofList line)

theorem linesOfPieces_nil_cons (pieces : List (List Char)) :
    linesOfPieces ([] :: pieces) = linesOfPieces pieces := rfl

theorem linesOfPieces_congr (piece : List Char) {pieces pieces' : List (List Char)}
    (h : linesOfPieces pieces = linesOfPieces pieces') :
    linesOfPieces (piece :: pieces) = linesOfPieces (piece :: pieces') := by
  unfold linesOfPieces at h ⊢
  rw [List.map_cons, List.map_cons, List.filterMap_cons, List.filterMap_cons, h]

theorem filter_strip_eq_linesOfPieces (pieces : List (List Char)) :
    (pieces.map fun line => strip (String.ofList line)).filter (· ≠ "") = linesOfPieces pieces := by
  have hstrip : ∀ line, strip (String.ofList line) = String.ofList (trimBlanks line) := fun line => by
    rw [strip, String.toList_ofList]
  induction pieces with
  | nil => rfl
  | cons line pieces ih =>
    unfold linesOfPieces at ih ⊢
    rw [List.map_cons, List.map_cons, List.filterMap_cons, hstrip, ← ih]
    by_cases h : trimBlanks line = []
    · simp [h]
    · simp [h]

theorem splitOn_cons (c : Char) (cs : List Char) :
    (c :: cs).splitOn '\n' =
      if c = '\n' then [] :: cs.splitOn '\n' else (cs.splitOn '\n').modifyHead (c :: ·) := by
  rw [List.splitOn_eq_splitOnP, List.splitOn_eq_splitOnP, List.splitOnP_cons_eq_if_modifyHead]
  simp only [beq_iff_eq]

/-- The first pieces are the same, and the others make up the same lines. -/
def SameLines (pieces pieces' : List (List Char)) : Prop :=
  ∃ line rest rest', pieces = line :: rest ∧ pieces' = line :: rest' ∧
    linesOfPieces rest = linesOfPieces rest'

theorem SameLines.linesOfPieces_eq {pieces pieces' : List (List Char)} (h : SameLines pieces pieces') :
    linesOfPieces pieces = linesOfPieces pieces' := by
  obtain ⟨line, rest, rest', rfl, rfl, hrest⟩ := h
  exact linesOfPieces_congr line hrest

/-- The splitter and the line ends make up the same lines.  The first piece is still growing as the
characters in front are added, so it has to agree exactly. -/
theorem sameLines_splitLines (cs : List Char) :
    SameLines (splitLines cs) ((normalizeBreaks cs).splitOn '\n') := by
  fun_induction normalizeBreaks cs with
  | case1 cs ih =>
    rw [splitOn_cons, if_pos rfl]
    refine ⟨[], [] :: splitLines cs, _, rfl, rfl, ?_⟩
    rw [linesOfPieces_nil_cons, ih.linesOfPieces_eq]
  | case2 c cs _ ih =>
    rw [splitLines]
    by_cases hbreak : isLineBreak c = true
    · have hfeed : (if c = '\r' then '\n' else c) = '\n' := by
        rcases (by simpa [isLineBreak] using hbreak : c = '\n' ∨ c = '\r') with rfl | rfl <;> rfl
      rw [if_pos hbreak, hfeed, splitOn_cons, if_pos rfl]
      exact ⟨[], _, _, rfl, rfl, ih.linesOfPieces_eq⟩
    · obtain ⟨hfeed, hreturn⟩ : c ≠ '\n' ∧ c ≠ '\r' := by simpa [isLineBreak] using hbreak
      obtain ⟨line, rest, rest', hpieces, hpieces', hrest⟩ := ih
      rw [if_neg hbreak, if_neg hreturn, splitOn_cons, if_neg hfeed, hpieces, hpieces']
      exact ⟨c :: line, rest, rest', rfl, rfl, hrest⟩
  | case3 => exact ⟨[], [], [], rfl, rfl, rfl⟩

/-- **The lines that are taken from a file are its lines, trimmed, the blank ones left out.** -/
theorem fileLines_eq_strippedLines (content : String) : fileLines content = strippedLines content := by
  rw [strippedLines, filter_strip_eq_linesOfPieces]
  exact (sameLines_splitLines content.toList).linesOfPieces_eq

end SequentCalculus.Text
