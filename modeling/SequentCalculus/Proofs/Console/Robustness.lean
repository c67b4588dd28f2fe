import SequentCalculus.Console.Command
import SequentCalculus.Proofs.Console.Reports

/-!
# Proofs/Console/Robustness — a command comes to its end on every line

A command reads a line, perhaps a file, and reports.  Texts that are no sequents are reported, and so is
a path that leads to no file; what has been read can be written, no guard of a search fails, and the
leaves can be observed (`result_prove`, `result_falsify`).  What is left is a file whose bytes are the
UTF-8 of no text.  There the command fails before it writes anything (`proveFile_of_undecodable`), and
that is the only way for it to fail (`result_perform`).
-/

namespace SequentCalculus

/-! ## The first word of a line -/

namespace Text

variable {cs front rest : List Char}

/-- The line starts with the word, blanks in front of it aside, and the argument is what stands behind
it, without blanks at either end. -/
def FirstWord (line word argument : String) : Prop :=
  ∃ front rest : List Char, line.toList = front ++ (word.toList ++ rest) ∧
    (∀ c ∈ front, isBlank c = true) ∧ word.toList ≠ [] ∧ (∀ c ∈ word.toList, isBlank c = false) ∧
    (∀ c, rest.head? = some c → isBlank c = true) ∧ argument = strip (String.ofList rest)

/-- **Blanks behind a text do not matter when it is trimmed.** -/
theorem trimBlanks_append_blanks (h : ∀ c ∈ rest, isBlank c = true) :
    trimBlanks (cs ++ rest) = trimBlanks cs := by
  rw [trimBlanks, trimBlanks, trimEnds, trimEnds, List.dropWhile_append]
  split
  · rename_i hempty
    rw [List.isEmpty_iff.1 hempty, List.dropWhile_eq_nil_iff.2 h]
  · rw [List.reverse_append, List.dropWhile_append_of_pos fun c hc => h c (List.mem_reverse.1 hc)]

/-- The blanks at the end of a text. -/
theorem exists_eq_append_blanks (cs : List Char) : ∃ kept back : List Char, cs = kept ++ back ∧
    (∀ c ∈ back, isBlank c = true) ∧ ∀ c, kept.getLast? = some c → isBlank c = false := by
  refine ⟨(cs.reverse.dropWhile isBlank).reverse, (cs.reverse.takeWhile isBlank).reverse, ?_,
    fun c hc => List.mem_takeWhile_imp (List.mem_reverse.1 hc), fun c hc => ?_⟩
  · rw [← List.reverse_append, List.takeWhile_append_dropWhile, List.reverse_reverse]
  · rw [List.getLast?_reverse] at hc
    have hnot := List.head?_dropWhile_not isBlank cs.reverse
    rw [hc] at hnot
    exact hnot

/-- A word with what stands behind it is cut where the word ends. -/
theorem firstWord?_append {word rest : List Char} (hfront : ∀ c ∈ front, isBlank c = true)
    (hne : word ≠ []) (hword : ∀ c ∈ word, isBlank c = false)
    (hrest : ∀ c, rest.head? = some c → isBlank c = true) :
    firstWord? (String.ofList (front ++ (word ++ rest))) =
      some (String.ofList word, String.ofList (trimBlanks rest)) := by
  obtain ⟨kept, back, rfl, hback, hlast⟩ := exists_eq_append_blanks rest
  have htrim : trimBlanks (front ++ (word ++ (kept ++ back))) = word ++ kept := by
    have hdrop : trimBlanks (front ++ (word ++ (kept ++ back))) = trimBlanks (word ++ kept) := by
      rw [← List.append_assoc word, ← List.append_assoc front, trimBlanks_append_blanks hback,
        trimBlanks, trimBlanks, trimEnds, trimEnds, List.dropWhile_append_of_pos hfront]
    refine hdrop.trans (trimEnds_of_ends (fun c hc => ?_) fun c hc => ?_)
    · rw [List.head?_append_of_ne_nil _ hne] at hc
      exact hword c (List.mem_of_mem_head? hc)
    · rw [List.getLast?_append] at hc
      rcases hkept : kept.getLast? with _ | d
      · rw [hkept, Option.none_or] at hc
        exact hword c (List.mem_of_getLast? hc)
      · rw [hkept, Option.some_or] at hc
        exact hlast c (hkept.trans hc)
  have hnot : ∀ c ∈ word, (!isBlank c) = true := fun c hc => by rw [hword c hc]; rfl
  have hkept : ∀ c, kept.head? = some c → (!isBlank c) = false := fun c hc => by
    rw [hrest c (by rw [List.head?_append, hc, Option.some_or])]
    rfl
  obtain ⟨c, cs, hcs⟩ := List.exists_cons_of_ne_nil (List.append_ne_nil_of_left_ne_nil hne kept)
  rw [firstWord?, String.toList_ofList, htrim, hcs]
  simp only [← hcs]
  rw [List.takeWhile_append_of_pos hnot, List.dropWhile_append_of_pos hnot, takeWhile_of_head? hkept,
    dropWhile_of_head? hkept, List.append_nil, trimBlanks_append_blanks hback]

/-- **The first word of a line is found.** -/
theorem firstWord?_eq_some_iff {line word argument : String} :
    firstWord? line = some (word, argument) ↔ FirstWord line word argument := by
  constructor
  · intro h
    obtain ⟨front, back, hfront, hback, hsplit⟩ := exists_eq_append_trimEnds isBlank line.toList
    unfold firstWord? at h
    split at h
    · cases h
    · rename_i c cs htrim
      change trimEnds isBlank line.toList = c :: cs at htrim
      obtain ⟨rfl, rfl⟩ := Prod.mk.inj (Option.some.inj h)
      have hc : isBlank c = false := not_of_head?_trimEnds (by rw [htrim]; rfl)
      refine ⟨front, (c :: cs).dropWhile (!isBlank ·) ++ back, ?_, hfront, ?_, ?_, ?_, ?_⟩
      · rw [String.toList_ofList, ← List.append_assoc _ _ back, List.takeWhile_append_dropWhile,
          ← htrim, ← hsplit]
      · rw [String.toList_ofList, List.takeWhile_cons_of_pos (by rw [hc]; rfl)]
        exact List.cons_ne_nil _ _
      · intro d hd
        rw [String.toList_ofList] at hd
        simpa using List.mem_takeWhile_imp hd
      · intro d hd
        rw [List.head?_append] at hd
        rcases hdrop : ((c :: cs).dropWhile (!isBlank ·)).head? with _ | e
        · rw [hdrop, Option.none_or] at hd
          exact hback d (List.mem_of_mem_head? hd)
        · rw [hdrop, Option.some_or] at hd
          have hnot := List.head?_dropWhile_not (!isBlank ·) (c :: cs)
          rw [hdrop, hd] at hnot
          simpa using hnot
      · rw [strip, String.toList_ofList, trimBlanks_append_blanks hback]
  · rintro ⟨front, rest, hline, hfront, hne, hword, hrest, rfl⟩
    rw [← String.ofList_toList (s := line), hline, firstWord?_append hfront hne hword hrest,
      String.ofList_toList, strip, String.toList_ofList]

end Text

/-! ## Commands -/

namespace Command

/-- A line with words gives the command of its first word. -/
theorem ofLine_eq_iff {line : String} {command : Command} (h : command ≠ nothing) :
    ofLine line = command ↔
      ∃ word argument, Text.FirstWord line word argument ∧ ofWords word argument = command := by
  simp only [← Text.firstWord?_eq_some_iff]
  rcases hline : Text.firstWord? line with _ | ⟨word, argument⟩
  · simp [ofLine, hline, h.symm]
  · simp [ofLine, hline]

theorem ofWords_eq_quit_iff {word argument : String} :
    ofWords word argument = quit ↔ word = "q" := by
  unfold ofWords withArgument
  split_ifs <;> simp_all

theorem ofWords_eq_proveFile_iff {word argument path : String} :
    ofWords word argument = proveFile path ↔ word = "." ∧ argument = path ∧ path ≠ "" := by
  unfold ofWords withArgument
  grind [String.isEmpty_iff]

/-- **A line says to quit exactly if its first word is `q`.** -/
theorem ofLine_eq_quit_iff {line : String} :
    ofLine line = quit ↔ ∃ argument, Text.FirstWord line "q" argument := by
  simp [ofLine_eq_iff, ofWords_eq_quit_iff]

/-- **A line names a file exactly if its first word is a dot and an argument follows.** -/
theorem ofLine_eq_proveFile_iff {line path : String} :
    ofLine line = proveFile path ↔ Text.FirstWord line "." path ∧ path ≠ "" := by
  simp [ofLine_eq_iff, ofWords_eq_proveFile_iff]

end Command

/-! ## Runs of a command -/

namespace Console

variable {c : Console} {path : String}

/-- The path leads to a file whose bytes are the UTF-8 of no text. -/
def Undecodable (c : Console) (path : String) : Prop :=
  ∃ bytes, c.files path = .ok bytes ∧ ∀ text : String, bytes ≠ text.toUTF8

/-- A file that is no text makes the command fail before it writes anything. -/
theorem proveFile_of_undecodable (h : c.Undecodable path) (latex : Bool) :
    c.proveFile latex path = Run.fail (.notText .notUtf8) := by
  obtain ⟨bytes, hfile, hbytes⟩ := h
  rw [proveFile, onFile, fileTexts, hfile]
  simp only [decodeText_eq_error hbytes]
  rfl

/-- **Any other path is reported on**, whether it leads to a file or not. -/
theorem exists_result_proveFile (h : ¬ c.Undecodable path) (latex : Bool) :
    ∃ trees, (c.proveFile latex path).result = .ok trees := by
  rcases hfile : c.files path with e | bytes
  · exact ⟨none, by rw [proveFile, onFile, fileTexts, hfile]; rfl⟩
  · obtain ⟨content, rfl⟩ : ∃ text : String, bytes = text.toUTF8 := by
      by_contra hnone
      exact h ⟨bytes, hfile, not_exists.1 hnone⟩
    have htrees := Run.result_mapM fun text (_ : text ∈ Text.fileLines content) =>
      c.result_prove latex text
    rw [proveFile, onFile_of_toUTF8 hfile]
    exact ⟨_, Run.result_map_of_ok htrees some⟩

/-- **A command that reads no such file comes to its end**, and only `quit` says not to go on. -/
theorem result_perform {command : Command}
    (h : ∀ path, command = .proveFile path → ¬ c.Undecodable path) :
    (c.perform command).result = .ok (decide (command ≠ .quit)) := by
  cases command with
  | clear =>
    rw [perform]
    cases c.terminal <;> rfl
  | prove text =>
    rw [perform, Run.result_bind_of_ok (c.result_prove false text)]
    rfl
  | falsify text =>
    rw [perform, Run.result_bind_of_ok (c.result_falsify "" text)]
    rfl
  | proveFile path =>
    obtain ⟨trees, htrees⟩ := exists_result_proveFile (h path rfl) false
    rw [perform, Run.result_bind_of_ok htrees]
    rfl
  | nothing | quit | help | missingArgument | unknown => rfl

/-- **A command fails on a file that is no text, and on nothing else.**  Whatever the registry, the line
and the files, a line that names a file whose bytes are the UTF-8 of no text fails and writes nothing.
Every other line says whether to go on, and it says not to exactly if its first word is `q`. -/
theorem execute_fails_only_on_undecodable (c : Console) (line : String) :
    (∀ path, Text.FirstWord line "." path → path ≠ "" → c.Undecodable path →
      (c.execute line).result = .error (.notText .notUtf8) ∧ (c.execute line).events = []) ∧
    ((∀ path, Text.FirstWord line "." path → path ≠ "" → ¬ c.Undecodable path) →
      ∃ again, (c.execute line).result = .ok again ∧
        (again = false ↔ ∃ argument, Text.FirstWord line "q" argument)) := by
  constructor
  · intro path hword hne hpath
    have hfails : c.execute line = Run.fail (.notText .notUtf8) := by
      rw [execute, Command.ofLine_eq_proveFile_iff.2 ⟨hword, hne⟩, perform,
        proveFile_of_undecodable hpath]
      rfl
    rw [hfails]
    exact ⟨rfl, rfl⟩
  · intro h
    refine ⟨_, result_perform fun path hline => ?_, ?_⟩
    · obtain ⟨hword, hne⟩ := Command.ofLine_eq_proveFile_iff.1 hline
      exact h path hword hne
    · rw [← Command.ofLine_eq_quit_iff, decide_eq_false_iff_not, not_not]

/-- One file, of a byte that starts no character. -/
def brokenFile : Files := fun path => if path = "s.txt" then .ok ⟨#[0xff]⟩ else .error .missing

theorem undecodable_brokenFile (r : Registry) (terminal : Bool) :
    Undecodable ⟨r, brokenFile, terminal⟩ "s.txt" := by
  refine ⟨⟨#[0xff]⟩, rfl, fun text hbytes => ?_⟩
  have hdecode := decodeText_eq_ok_iff.2 hbytes
  have hnone : (decodeText ⟨#[0xff]⟩).toOption = none := by decide +kernel
  rw [hdecode] at hnone
  cases hnone

/-- The command fails on the file of that byte.  It does not fail on a path that leads to no file, nor
where the name of the file stands behind another word. -/
theorem execute_fails_only_on_undecodable_brokenFile :
    let c : Console := ⟨.default, brokenFile, false⟩
    (c.execute " . s.txt\n").result = .error (.notText .notUtf8) ∧
      (c.execute ". t.txt").result = .ok true ∧ (c.execute "\tq s.txt").result = .ok false := by
  intro c
  refine ⟨?_, ?_, ?_⟩
  · have hword : Text.FirstWord " . s.txt\n" "." "s.txt" :=
      Text.firstWord?_eq_some_iff.1 (by decide +kernel)
    exact ((execute_fails_only_on_undecodable c _).1 "s.txt" hword (by decide)
      (undecodable_brokenFile .default false)).1
  · have hline : Text.firstWord? ". t.txt" = some (".", "t.txt") := by decide +kernel
    obtain ⟨again, hresult, hquit⟩ := (execute_fails_only_on_undecodable c ". t.txt").2 (by
      rintro path hword - ⟨bytes, hfile, -⟩
      rw [← Text.firstWord?_eq_some_iff, hline] at hword
      obtain rfl : "t.txt" = path := (Prod.mk.inj (Option.some.inj hword)).2
      cases hfile)
    have hgoes : again ≠ false := by
      rw [ne_eq, hquit]
      rintro ⟨argument, hword⟩
      rw [← Text.firstWord?_eq_some_iff, hline] at hword
      exact absurd (Prod.mk.inj (Option.some.inj hword)).1 (by decide)
    rw [hresult, Bool.ne_false_iff.1 hgoes]
  · have hline : Text.firstWord? "\tq s.txt" = some ("q", "s.txt") := by decide +kernel
    obtain ⟨again, hresult, hquit⟩ := (execute_fails_only_on_undecodable c "\tq s.txt").2 (by
      intro path hword
      rw [← Text.firstWord?_eq_some_iff, hline] at hword
      exact absurd (Prod.mk.inj (Option.some.inj hword)).1 (by decide))
    rw [hresult, hquit.2 ⟨"s.txt", Text.firstWord?_eq_some_iff.1 hline⟩]

end Console

end SequentCalculus
