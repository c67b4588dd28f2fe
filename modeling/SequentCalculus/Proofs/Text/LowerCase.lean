import SequentCalculus.Text.Blank
import SequentCalculus.Text.LowerCase

/-!
# Proofs/Text/LowerCase — lower-casing a second time changes nothing

The mapping of single characters is a table of runs, so that its fixed points are found by comparing
runs and not characters: no run holds an image of another run (`CaseRun.fixes`), hence an image is its
own image.  What the mapping of texts adds — the two characters for `İ`, the two small sigmas — is
fixed as well, and so every character of a lower-cased text is *lowered* (`Lowered`):

* `mem_lowercaseAfter` — where a character of a lower-cased text comes from;
* `lowercase_lowercase` — lower-casing is idempotent.
-/

namespace SequentCalculus.Text

/-! ## Runs and their images -/

namespace CaseRun

/-- The last code point that is an image of the run. -/
def lastImage (run : CaseRun) : Nat := run.image + (run.last - run.first)

/-- Every second code point of the other run has an image, and the images of this run are the code
points between. -/
def alternates (run other : CaseRun) : Bool :=
  other.step.beq 2 && (run.step.beq 2 || run.first.beq run.last) &&
    ((run.image + other.first) % 2).beq 1

/-- The images of the run are not changed by some runs: each of these starts above the images, ends
below them or alternates with them. -/
def fixes (run : CaseRun) : List CaseRun → Bool
  | [] => true
  | other :: rest =>
    run.lastImage.blt other.first ||
      ((other.last.blt run.image || run.alternates other) && run.fixes rest)

/-- The images of the run lie outside a range of code points. -/
def avoids (run : CaseRun) (range : Nat × Nat) : Bool :=
  run.lastImage.blt range.1 || range.2.blt run.image

/-- A code point is an image of the run. -/
def HasImage (run : CaseRun) (m : Nat) : Prop :=
  ∃ k ≤ run.last - run.first, k % run.step = 0 ∧ m = run.image + k

theorem HasImage.le {run : CaseRun} {m : Nat} (h : run.HasImage m) :
    run.image ≤ m ∧ m ≤ run.lastImage := by
  obtain ⟨k, hk, -, rfl⟩ := h
  exact ⟨Nat.le_add_right _ _, Nat.add_le_add_left hk _⟩

/-- An image of a run that alternates with another has no image there. -/
theorem HasImage.mod_ne_zero {run other : CaseRun} {m : Nat} (h : run.HasImage m)
    (ha : run.alternates other = true) (hm : other.first ≤ m) :
    (m - other.first) % other.step ≠ 0 := by
  obtain ⟨k, hk, hstep, rfl⟩ := h
  simp only [alternates, Bool.and_eq_true, Bool.or_eq_true, Nat.beq_eq] at ha
  obtain ⟨⟨hother, hrun⟩, hodd⟩ := ha
  have heven : k % 2 = 0 := by
    rcases hrun with hrun | hrun
    · rwa [hrun] at hstep
    · have hzero : k = 0 := by omega
      rw [hzero]
  rw [hother]
  omega

/-- **An image that some runs fix stays as it is under them.** -/
theorem HasImage.lowerCodePoint_eq {run : CaseRun} {m : Nat} (h : run.HasImage m) :
    ∀ {runs : List CaseRun}, run.fixes runs = true → lowerCodePoint runs m = m
  | [], _ => rfl
  | other :: runs, hf => by
    simp only [fixes, Bool.or_eq_true, Bool.and_eq_true, Nat.blt_eq] at hf
    have hle := h.le
    rw [lowerCodePoint]
    by_cases hfirst : m < other.first
    · rw [if_pos hfirst]
    · obtain ⟨hother, hrest⟩ := hf.resolve_left (by omega)
      rw [if_neg hfirst]
      by_cases hlast : m ≤ other.last
      · have ha : run.alternates other = true := hother.resolve_left (by omega)
        rw [if_pos hlast, if_neg (h.mod_ne_zero ha (by omega))]
      · rw [if_neg hlast]
        exact h.lowerCodePoint_eq hrest

theorem HasImage.not_mem_of_avoids {run : CaseRun} {m : Nat} (h : run.HasImage m)
    {range : Nat × Nat} (ha : run.avoids range = true) : ¬ (range.1 ≤ m ∧ m ≤ range.2) := by
  simp only [avoids, Bool.or_eq_true, Nat.blt_eq] at ha
  have hle := h.le
  omega

end CaseRun

/-! ## Code points -/

/-- Code points that no letter is lowered to: blanks, parentheses, the comma, `İ` and the
surrogates. -/
def reservedRanges : CodeRanges :=
  blankRanges ++ [(0x28, 0x29), (0x2C, 0x2C), (0x130, 0x130), (0xD800, 0xDFFF)]

/-- A code point is the image of a capital letter. -/
def IsImage (m : Nat) : Prop := ∃ run ∈ lowerCaseRuns, run.HasImage m

/-- A code point that is changed becomes an image. -/
theorem lowerCodePoint_eq_or_hasImage (n : Nat) : ∀ runs : List CaseRun,
    lowerCodePoint runs n = n ∨ ∃ run ∈ runs, run.HasImage (lowerCodePoint runs n)
  | [] => Or.inl rfl
  | run :: runs => by
    rw [lowerCodePoint]
    by_cases hfirst : n < run.first
    · rw [if_pos hfirst]
      exact Or.inl rfl
    · rw [if_neg hfirst]
      by_cases hlast : n ≤ run.last
      · rw [if_pos hlast]
        by_cases hstep : (n - run.first) % run.step = 0
        · rw [if_pos hstep]
          exact Or.inr ⟨run, List.mem_cons_self .., n - run.first, by omega, hstep, rfl⟩
        · rw [if_neg hstep]
          exact Or.inl rfl
      · rw [if_neg hlast]
        exact (lowerCodePoint_eq_or_hasImage n runs).imp_right
          fun ⟨run', hmem, himage⟩ => ⟨run', List.mem_cons_of_mem _ hmem, himage⟩

theorem fixes_lowerCaseRuns : ∀ run ∈ lowerCaseRuns, run.fixes lowerCaseRuns = true := by
  decide +kernel

theorem avoids_reservedRanges :
    ∀ run ∈ lowerCaseRuns, ∀ range ∈ reservedRanges, run.avoids range = true := by
  decide +kernel

theorem IsImage.lowerCodePoint_eq {m : Nat} (h : IsImage m) : lowerCodePoint lowerCaseRuns m = m := by
  obtain ⟨run, hmem, himage⟩ := h
  exact himage.lowerCodePoint_eq (fixes_lowerCaseRuns run hmem)

theorem IsImage.not_reserved {m : Nat} (h : IsImage m) (range : Nat × Nat)
    (hr : range ∈ reservedRanges) : ¬ (range.1 ≤ m ∧ m ≤ range.2) := by
  obtain ⟨run, hmem, himage⟩ := h
  exact himage.not_mem_of_avoids (avoids_reservedRanges run hmem range hr)

theorem lastImage_lt : ∀ run ∈ lowerCaseRuns, run.lastImage < 0x110000 := by
  decide +kernel

theorem IsImage.isValidChar {m : Nat} (h : IsImage m) : m.isValidChar := by
  have hsurrogate := h.not_reserved (0xD800, 0xDFFF) (by decide)
  obtain ⟨run, hmem, himage⟩ := h
  have hlast := lastImage_lt run hmem
  have hle := himage.le.2
  unfold Nat.isValidChar
  omega

/-! ## Characters -/

theorem toNat_ofNat_of_isValidChar {m : Nat} (h : m.isValidChar) : (Char.ofNat m).toNat = m := by
  rw [Char.ofNat, dif_pos h]
  rfl

/-- **A character is its own image, or its image is the image of a capital letter.** -/
theorem lowerChar_eq_or_isImage (c : Char) : lowerChar c = c ∨ IsImage (lowerChar c).toNat := by
  rcases lowerCodePoint_eq_or_hasImage c.toNat lowerCaseRuns with h | h
  · left
    rw [lowerChar, h, Char.ofNat_toNat]
  · right
    rw [lowerChar, toNat_ofNat_of_isValidChar (IsImage.isValidChar h)]
    exact h

theorem lowerChar_of_isImage {c : Char} (h : IsImage c.toNat) : lowerChar c = c := by
  rw [lowerChar, h.lowerCodePoint_eq, Char.ofNat_toNat]

theorem lowerChar_lowerChar (c : Char) : lowerChar (lowerChar c) = lowerChar c := by
  rcases lowerChar_eq_or_isImage c with h | h
  · rw [h, h]
  · exact lowerChar_of_isImage h

/-- No letter is lowered to a blank. -/
theorem isBlank_lowerChar {c : Char} (h : isBlank c = false) : isBlank (lowerChar c) = false := by
  rcases lowerChar_eq_or_isImage c with hself | himage
  · rwa [hself]
  · rw [← Bool.not_eq_true, isBlank, CodeRanges.covers_iff (m := 0) (by decide)]
    rintro ⟨range, hmem, hin⟩
    exact himage.not_reserved range (List.mem_append_left _ hmem) hin

/-- A character that lower-casing leaves alone wherever it stands. -/
def Lowered (c : Char) : Prop := lowerChar c = c ∧ c ≠ 'İ'

instance (c : Char) : Decidable (Lowered c) := inferInstanceAs (Decidable (_ ∧ _))

theorem Lowered.ne_sigma {c : Char} (h : Lowered c) : c ≠ 'Σ' := by
  rintro rfl
  exact absurd h.1 (by decide +kernel)

theorem lowered_lowerChar {c : Char} (h : c ≠ 'İ') : Lowered (lowerChar c) := by
  refine ⟨lowerChar_lowerChar c, ?_⟩
  rcases lowerChar_eq_or_isImage c with hself | himage
  · rwa [hself]
  · intro hdotted
    rw [hdotted] at himage
    exact himage.not_reserved (0x130, 0x130) (by decide) (by decide)

/-! ## Texts -/

/-- **Where a character of a lower-cased text comes from**: it is the image of a character, or one of
the four characters that stand for `İ` and for a capital sigma. -/
theorem mem_lowercaseAfter {d : Char} : ∀ {cs : List Char} {cased : Bool},
    d ∈ lowercaseAfter cased cs → d ∈ ['i', '\u0307', 'ς', 'σ'] ∨ ∃ c ∈ cs, c ≠ 'İ' ∧ d = lowerChar c
  | c :: cs, cased, h => by
    rw [lowercaseAfter, List.mem_append] at h
    rcases h with h | h
    · by_cases hdotted : c = 'İ'
      · rw [if_pos hdotted] at h
        exact Or.inl (List.mem_append_left ['ς', 'σ'] h)
      · rw [if_neg hdotted] at h
        by_cases hsigma : c = 'Σ'
        · rw [if_pos hsigma, List.mem_singleton] at h
          left
          rw [h]
          split <;> decide
        · rw [if_neg hsigma, List.mem_singleton] at h
          exact Or.inr ⟨c, List.mem_cons_self .., hdotted, h⟩
    · exact (mem_lowercaseAfter h).imp_right
        fun ⟨c', hmem, hc'⟩ => ⟨c', List.mem_cons_of_mem _ hmem, hc'⟩

theorem lowered_of_mem_lowercaseAfter {d : Char} {cased : Bool} {cs : List Char}
    (h : d ∈ lowercaseAfter cased cs) : Lowered d := by
  rcases mem_lowercaseAfter h with h | ⟨c, -, hdotted, rfl⟩
  · have hall : (['i', '\u0307', 'ς', 'σ'].all fun d => decide (Lowered d)) = true := by
      decide +kernel
    exact of_decide_eq_true (List.all_eq_true.1 hall d h)
  · exact lowered_lowerChar hdotted

/-- A text of lowered characters is left as it is. -/
theorem lowercaseAfter_eq_self : ∀ {cs : List Char} {cased : Bool},
    (∀ c ∈ cs, Lowered c) → lowercaseAfter cased cs = cs
  | [], _, _ => rfl
  | c :: cs, cased, h => by
    obtain ⟨hc, hcs⟩ := List.forall_mem_cons.1 h
    rw [lowercaseAfter, if_neg hc.2, if_neg hc.ne_sigma, hc.1, lowercaseAfter_eq_self hcs]
    rfl

/-- **Lower-casing is idempotent.** -/
theorem lowercase_lowercase (s : String) : lowercase (lowercase s) = lowercase s := by
  have hlowered : ∀ c ∈ (lowercase s).toList, Lowered c := by
    rw [lowercase, String.toList_ofList]
    exact fun c => lowered_of_mem_lowercaseAfter
  rw [lowercase, lowercaseAfter_eq_self hlowered, String.ofList_toList]

end SequentCalculus.Text
