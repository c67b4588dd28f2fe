import Mathlib.Data.List.TakeWhile
import SequentCalculus.Text.Word

/-!
# Proofs/Text/Loose — trimming, and the texts among the loose texts

Trimming takes away blanks and nothing else (`exists_eq_append_trimEnds`), and a list that is blank at
neither end is left as it is (`trimEnds_of_ends`).  That holds of every kind of element, so it is said
once for characters and for codes.

A loose text without halves is a text, in one way only (`text?_eq_some_iff`).  The texts among the loose
texts are closed under concatenation and are trimmed as they are on their own (`trim_ofString`); the
words are among them (`isWord_iff`).
-/

namespace SequentCalculus

/-! ## Trimming -/

namespace Text

variable {α : Type} {p : α → Bool} {l : List α}

theorem takeWhile_of_head? (h : ∀ a, l.head? = some a → p a = false) : l.takeWhile p = [] := by
  match l with
  | [] => rfl
  | a :: l => rw [List.takeWhile_cons_of_neg (by simp [h a rfl])]

theorem dropWhile_of_head? (h : ∀ a, l.head? = some a → p a = false) : l.dropWhile p = l := by
  match l with
  | [] => rfl
  | a :: l => rw [List.dropWhile_cons_of_neg (by simp [h a rfl])]

theorem trimEnds_isPrefix (p : α → Bool) (l : List α) : trimEnds p l <+: l.dropWhile p := by
  have h : ((l.dropWhile p).reverse.dropWhile p).reverse <+: (l.dropWhile p).reverse.reverse :=
    List.reverse_prefix.2 (List.dropWhile_suffix _)
  rwa [List.reverse_reverse] at h

theorem not_of_head?_trimEnds {a : α} (h : (trimEnds p l).head? = some a) : p a = false := by
  obtain ⟨rest, hrest⟩ := trimEnds_isPrefix p l
  have hhead : (l.dropWhile p).head? = some a := by
    rw [← hrest, List.head?_append, h, Option.some_or]
  have hnot := List.head?_dropWhile_not p l
  rw [hhead] at hnot
  exact hnot

theorem not_of_getLast?_trimEnds {a : α} (h : (trimEnds p l).getLast? = some a) : p a = false := by
  rw [trimEnds, List.getLast?_reverse] at h
  have hnot := List.head?_dropWhile_not p (l.dropWhile p).reverse
  rw [h] at hnot
  exact hnot

/-- **Trimming takes away what passes the test and nothing else.** -/
theorem exists_eq_append_trimEnds (p : α → Bool) (l : List α) : ∃ front back : List α,
    (∀ a ∈ front, p a = true) ∧ (∀ a ∈ back, p a = true) ∧ l = front ++ (trimEnds p l ++ back) := by
  refine ⟨l.takeWhile p, ((l.dropWhile p).reverse.takeWhile p).reverse,
    fun a ha => List.mem_takeWhile_imp ha,
    fun a ha => List.mem_takeWhile_imp (List.mem_reverse.1 ha), ?_⟩
  rw [trimEnds, ← List.reverse_append, List.takeWhile_append_dropWhile, List.reverse_reverse,
    List.takeWhile_append_dropWhile]

theorem trimEnds_subset (p : α → Bool) (l : List α) : trimEnds p l ⊆ l := fun _ ha =>
  (List.dropWhile_sublist p).subset ((trimEnds_isPrefix p l).subset ha)

theorem trimEnds_of_ends (hstart : ∀ a, l.head? = some a → p a = false)
    (hstop : ∀ a, l.getLast? = some a → p a = false) : trimEnds p l = l := by
  rw [trimEnds, dropWhile_of_head? hstart,
    dropWhile_of_head? (by rwa [List.head?_reverse]), List.reverse_reverse]

theorem trimEnds_of_forall (h : ∀ a ∈ l, p a = false) : trimEnds p l = l :=
  trimEnds_of_ends (fun a ha => h a (List.mem_of_mem_head? ha))
    fun a ha => h a (List.mem_of_getLast? ha)

end Text

/-! ## Texts among the loose texts -/

/-- A half belongs to no word. -/
theorem Text.Code.exists_char_of_isWordChar {c : Code} (h : c.isWordChar = true) :
    ∃ d, c = .char d := by
  cases c with
  | char d => exact ⟨d, rfl⟩
  | half n => cases h

namespace LooseText

variable {t : LooseText} {s : String}

theorem chars?_eq_some_iff {cs : List Char} : chars? t = some cs ↔ t = cs.map .char := by
  induction t generalizing cs with
  | nil => simp [chars?, eq_comm]
  | cons code t ih =>
    cases code with
    | char c =>
      rw [chars?, Option.map_eq_some_iff]
      constructor
      · rintro ⟨ds, hds, rfl⟩
        rw [ih.1 hds, List.map_cons]
      · intro h
        rcases cs with _ | ⟨d, ds⟩
        · cases h
        · obtain ⟨hc, ht⟩ := List.cons.inj h
          obtain rfl := Text.Code.char.inj hc
          exact ⟨ds, ih.2 ht, rfl⟩
    | half n => cases cs <;> simp [chars?]

theorem text?_eq_some_iff : t.text? = some s ↔ t = ofString s := by
  rw [text?, Option.map_eq_some_iff]
  constructor
  · rintro ⟨cs, hcs, rfl⟩
    rw [ofString, String.toList_ofList, ← chars?_eq_some_iff, hcs]
  · rintro rfl
    exact ⟨s.toList, chars?_map_char _, String.ofList_toList⟩

theorem ofString_ofList (cs : List Char) : ofString (String.ofList cs) = cs.map .char := by
  rw [ofString, String.toList_ofList]

/-- A loose text of characters is a text. -/
theorem exists_ofString_of_forall (h : ∀ c ∈ t, ∃ d, c = Text.Code.char d) :
    ∃ s, t = ofString s := by
  induction t with
  | nil => exact ⟨"", rfl⟩
  | cons c t ih =>
    obtain ⟨d, rfl⟩ := h c List.mem_cons_self
    obtain ⟨s, rfl⟩ := ih fun c hc => h c (List.mem_cons_of_mem _ hc)
    refine ⟨String.ofList (d :: s.toList), ?_⟩
    rw [ofString_ofList, ofString, List.map_cons]

theorem ofString_injective : Function.Injective ofString := fun s s' h => by
  have htext := text?_ofString s
  rw [h, text?_ofString] at htext
  exact (Option.some.inj htext).symm

theorem ofString_append (s s' : String) : ofString (s ++ s') = ofString s ++ ofString s' := by
  rw [ofString, String.toList_append, List.map_append]
  rfl

/-- A text shows as itself. -/
theorem shown_ofString (s : String) : (ofString s).shown = s := by
  have hshown : Text.Code.shown ∘ Text.Code.char = id := rfl
  rw [shown, ofString, List.map_map, hshown, List.map_id, String.ofList_toList]

/-- **A text is trimmed as a loose text as it is on its own.** -/
theorem trim_ofString (s : String) : (ofString s).trim = ofString (Text.strip s) := by
  have hblank : Text.Code.isBlank ∘ Text.Code.char = Text.isBlank := rfl
  rw [trim, Text.trimEnds, ofString, ofString, Text.strip_toList, Text.trimBlanks, Text.trimEnds,
    List.dropWhile_map, ← List.map_reverse, List.dropWhile_map, ← List.map_reverse, hblank]

/-! ## Words -/

theorem isWord_ofString (s : String) : (ofString s).isWord = Text.isWord s := by
  rw [isWord, text?_ofString]
  rfl

/-- A word is a text. -/
theorem exists_of_isWord (h : t.isWord = true) : ∃ s, t = ofString s ∧ Text.isWord s = true := by
  rw [isWord, Option.any_eq_true] at h
  obtain ⟨s, htext, hword⟩ := h
  exact ⟨s, text?_eq_some_iff.1 htext, hword⟩

/-- **A word is a run of word characters**, none of which is a half. -/
theorem isWord_iff : t.isWord = true ↔ t ≠ [] ∧ ∀ c ∈ t, c.isWordChar = true := by
  constructor
  · intro h
    obtain ⟨s, rfl, hword⟩ := exists_of_isWord h
    rw [Text.isWord, Bool.and_eq_true, Bool.not_eq_true', List.isEmpty_eq_false_iff,
      List.all_eq_true] at hword
    refine ⟨by simpa [ofString] using hword.1, fun c hc => ?_⟩
    obtain ⟨d, hd, rfl⟩ := List.mem_map.1 hc
    exact hword.2 d hd
  · rintro ⟨hnil, hall⟩
    obtain ⟨s, rfl⟩ := exists_ofString_of_forall fun c hc =>
      Text.Code.exists_char_of_isWordChar (hall c hc)
    have hchars : ∀ d ∈ s.toList, Text.isWordChar d = true := fun d hd =>
      hall (.char d) (List.mem_map_of_mem hd)
    rw [isWord_ofString, Text.isWord, Bool.and_eq_true, Bool.not_eq_true', List.isEmpty_eq_false_iff,
      List.all_eq_true]
    exact ⟨fun hs => hnil (List.map_eq_nil_iff.2 hs), hchars⟩

end LooseText

end SequentCalculus
