import SequentCalculus.Proofs.Outcomes
import SequentCalculus.Proofs.Tables
import SequentCalculus.Proofs.Text.Loose
import SequentCalculus.Proofs.Text.LowerCase
import SequentCalculus.Token

/-!
# Proofs/Registry/Symbols — what every symbol of a registry is like

Whatever was declared, the symbol that is kept is not empty, holds no punctuation, is blank at neither
end and is its own normal form (`Symbol.Kept`).  The last point makes the table readable by its own
keys: a symbol is looked up as the connective that stands beside it (`lookup?_of_mem_entries`).

The symbols that a scanner looks for are those of the registry with the turnstiles and the arrow,
longest first (`pairwise_longestFirst`), so the first one that fits is the longest one that fits.
-/

namespace SequentCalculus

/-! ## Kept symbols -/

theorem isPunctuation_iff {c : Text.Code} :
    isPunctuation c = true ↔ c = .char '(' ∨ c = .char ')' ∨ c = .char ',' := by
  simp only [isPunctuation, Bool.or_eq_true, beq_iff_eq, or_assoc]

/-- No letter is lowered to punctuation. -/
theorem isPunctuation_lowerChar {c : Char} (h : isPunctuation (.char c) = false) :
    isPunctuation (.char (Text.lowerChar c)) = false := by
  rcases Text.lowerChar_eq_or_isImage c with hself | himage
  · rwa [hself]
  · rw [← Bool.not_eq_true, isPunctuation_iff]
    rintro (hc | hc | hc) <;> rw [Text.Code.char.inj hc] at himage
    · exact himage.not_reserved (0x28, 0x29) (by decide) (by decide)
    · exact himage.not_reserved (0x28, 0x29) (by decide) (by decide)
    · exact himage.not_reserved (0x2C, 0x2C) (by decide) (by decide)

namespace Text

/-- Blanks are no word characters. -/
theorem isWordChar_of_isBlank {c : Char} (h : isBlank c = true) : isWordChar c = false := by
  have hall : ∀ range ∈ blankRanges, ∀ k < range.2 - range.1 + 1,
      alphanumericRanges.covers (range.1 + k) = false ∧ range.1 + k ≠ '_'.toNat := by
    decide +kernel
  obtain ⟨range, hmem, hlo, hhi⟩ := (CodeRanges.covers_iff (m := 0) (by decide)).1 h
  have hc := hall range hmem (c.toNat - range.1) (by omega)
  rw [Nat.add_sub_cancel' hlo] at hc
  rw [isWordChar, isAlphanumeric, hc.1, Bool.false_or, beq_eq_false_iff_ne]
  exact fun h => hc.2 (congrArg Char.toNat h)

theorem isBlank_of_isWordChar {c : Char} (h : isWordChar c = true) : isBlank c = false := by
  rw [← Bool.not_eq_true]
  intro hblank
  rw [isWordChar_of_isBlank hblank] at h
  cases h

theorem isPunctuation_of_isWordChar {c : Char} (h : isWordChar c = true) :
    isPunctuation (.char c) = false := by
  rw [← Bool.not_eq_true, isPunctuation_iff]
  rintro (hc | hc | hc) <;> rw [Code.char.inj hc] at h <;> exact absurd h (by decide +kernel)

namespace Code

theorem isWordChar_of_isBlank {c : Code} (h : c.isBlank = true) : c.isWordChar = false := by
  cases c with
  | char c => exact Text.isWordChar_of_isBlank h
  | half n => rfl

theorem isBlank_of_isWordChar {c : Code} (h : c.isWordChar = true) : c.isBlank = false := by
  obtain ⟨d, rfl⟩ := exists_char_of_isWordChar h
  exact Text.isBlank_of_isWordChar h

theorem isPunctuation_of_isWordChar {c : Code} (h : c.isWordChar = true) : isPunctuation c = false := by
  obtain ⟨d, rfl⟩ := exists_char_of_isWordChar h
  exact Text.isPunctuation_of_isWordChar h

end Code

/-- The lower-case form of a word holds neither blanks nor punctuation. -/
theorem mem_lowercase_of_isWord {s : String} (hs : isWord s = true) {d : Code}
    (h : d ∈ LooseText.ofString (lowercase s)) : d.isBlank = false ∧ isPunctuation d = false := by
  obtain ⟨d, hd, rfl⟩ := List.mem_map.1 h
  rw [lowercase, String.toList_ofList] at hd
  rcases mem_lowercaseAfter hd with hd | ⟨c, hc, -, rfl⟩
  · have hall : (['i', '\u0307', 'ς', 'σ'].all fun d =>
        decide (isBlank d = false ∧ isPunctuation (.char d) = false)) = true := by
      decide
    exact of_decide_eq_true (List.all_eq_true.1 hall d hd)
  · rw [isWord, Bool.and_eq_true, List.all_eq_true] at hs
    have hword := hs.2 c hc
    exact ⟨isBlank_lowerChar (isBlank_of_isWordChar hword),
      isPunctuation_lowerChar (isPunctuation_of_isWordChar hword)⟩

end Text

namespace Symbol

theorem normalize_of_isWord {s : String} (h : Text.isWord s = true) :
    normalize s = Text.lowercase s := by
  rw [normalize, LooseText.text?_ofString]
  exact if_pos h

theorem normalize_of_not_isWord {s : LooseText} (h : ¬ s.isWord = true) : normalize s = s := by
  rw [normalize]
  split
  · rename_i word hword
    obtain rfl := LooseText.text?_eq_some_iff.1 hword
    rw [LooseText.isWord_ofString] at h
    exact if_neg h
  · rfl

/-- **A normal form is its own normal form**, also where lower-casing a word gives no word. -/
theorem normalize_normalize (s : LooseText) : normalize (normalize s) = normalize s := by
  by_cases h : s.isWord = true
  · obtain ⟨word, rfl, hword⟩ := LooseText.exists_of_isWord h
    rw [normalize_of_isWord hword]
    by_cases hlower : Text.isWord (Text.lowercase word) = true
    · rw [normalize_of_isWord hlower, Text.lowercase_lowercase]
    · exact normalize_of_not_isWord (by rwa [LooseText.isWord_ofString])
  · rw [normalize_of_not_isWord h, normalize_of_not_isWord h]

/-- What holds of a symbol once it is kept. -/
structure Kept (s : LooseText) : Prop where
  ne_nil : s ≠ []
  unpunctuated : ∀ c ∈ s, isPunctuation c = false
  start : ∀ c, s.head? = some c → c.isBlank = false
  stop : ∀ c, s.getLast? = some c → c.isBlank = false
  normal : normalize s = s

theorem lowercase_ne_nil {s : String} (h : s.toList ≠ []) : (Text.lowercase s).toList ≠ [] := by
  obtain ⟨c, cs, hcs⟩ := List.exists_cons_of_ne_nil h
  rw [Text.lowercase, String.toList_ofList, hcs, Text.lowercaseAfter]
  split
  · exact List.cons_ne_nil _ _
  · split <;> exact List.cons_ne_nil _ _

/-- A word is kept in lower case. -/
theorem kept_of_isWord {s : LooseText} (h : s.isWord = true) : Kept (normalize s) := by
  have hnormal := normalize_normalize s
  obtain ⟨word, rfl, hword⟩ := LooseText.exists_of_isWord h
  rw [normalize_of_isWord hword] at hnormal ⊢
  have hnil : word.toList ≠ [] := fun hnil =>
    (LooseText.isWord_iff.1 h).1 (List.map_eq_nil_iff.2 hnil)
  exact {
    ne_nil := fun hlower => lowercase_ne_nil hnil (List.map_eq_nil_iff.1 hlower)
    unpunctuated := fun c hc => (Text.mem_lowercase_of_isWord hword hc).2
    start := fun c hc => (Text.mem_lowercase_of_isWord hword (List.mem_of_mem_head? hc)).1
    stop := fun c hc => (Text.mem_lowercase_of_isWord hword (List.mem_of_getLast? hc)).1
    normal := hnormal }

/-- **Every symbol that is accepted is kept in good form.** -/
theorem kept_of_accept {declared s : LooseText} (h : accept declared = .ok s) : Kept s := by
  simp only [accept] at h
  split at h
  · cases h
  · rename_i hvalid
    obtain rfl := Except.ok.inj h
    by_cases hword : declared.trim.isWord = true
    · exact kept_of_isWord hword
    · have hnormal := normalize_of_not_isWord hword
      simp only [Bool.or_eq_true, not_or, List.isEmpty_iff, List.any_eq_true, not_exists,
        not_and, Bool.not_eq_true] at hvalid
      rw [hnormal]
      exact ⟨hvalid.1, hvalid.2, fun _ hc => Text.not_of_head?_trimEnds hc,
        fun _ hc => Text.not_of_getLast?_trimEnds hc, hnormal⟩

/-! ## Longest first -/

theorem perm_insertByLength (s : LooseText) : ∀ ts : List LooseText,
    (insertByLength s ts).Perm (s :: ts)
  | [] => List.Perm.refl _
  | t :: ts => by
    rw [insertByLength]
    split
    · exact List.Perm.refl _
    · exact ((perm_insertByLength s ts).cons t).trans (List.Perm.swap ..)

theorem perm_longestFirst (symbols : List LooseText) : (longestFirst symbols).Perm symbols := by
  induction symbols with
  | nil => exact List.Perm.refl _
  | cons s symbols ih => exact (perm_insertByLength s _).trans (ih.cons s)

theorem pairwise_insertByLength (s : LooseText) : ∀ {ts : List LooseText},
    ts.Pairwise (fun a b => b.length ≤ a.length) →
      (insertByLength s ts).Pairwise fun a b => b.length ≤ a.length
  | [], _ => List.pairwise_singleton _ _
  | t :: ts, h => by
    obtain ⟨hhead, htail⟩ := List.pairwise_cons.1 h
    rw [insertByLength]
    split
    · rename_i hle
      refine List.pairwise_cons.2 ⟨fun b hb => ?_, h⟩
      rcases List.mem_cons.1 hb with rfl | hb
      · exact hle
      · exact Nat.le_trans (hhead b hb) hle
    · rename_i hlt
      refine List.pairwise_cons.2 ⟨fun b hb => ?_, pairwise_insertByLength s htail⟩
      rcases List.mem_cons.1 ((perm_insertByLength s ts).mem_iff.1 hb) with rfl | hb
      · omega
      · exact hhead b hb

/-- **No symbol comes before a longer one.** -/
theorem pairwise_longestFirst (symbols : List LooseText) :
    (longestFirst symbols).Pairwise fun a b => b.length ≤ a.length := by
  induction symbols with
  | nil => exact List.Pairwise.nil
  | cons s symbols ih => exact pairwise_insertByLength s ih

end Symbol

/-! ## The symbols of a registry -/

namespace Registry

variable {r : Registry}

theorem kept_of_mem_keys {s : LooseText} (h : s ∈ r.table.keys) : Symbol.Kept s := by
  obtain ⟨declared, haccept⟩ := r.accepted s h
  exact Symbol.kept_of_accept haccept

theorem mem_entries_of_symbolFor {c : Connective} {p : LooseText} (h : r.symbolFor c = .ok p) :
    (p, c) ∈ r.entries := by
  rw [symbolFor] at h
  split at h
  · rename_i e he
    obtain rfl := Except.ok.inj h
    have hc : e.2 = c := by simpa using List.find?_some he
    rw [← hc]
    exact List.mem_of_find?_eq_some he
  · cases h

theorem mem_keys_of_symbolFor {c : Connective} {p : LooseText} (h : r.symbolFor c = .ok p) :
    p ∈ r.table.keys :=
  List.mem_map_of_mem (f := Prod.fst) (mem_entries_of_symbolFor h)

/-- **A symbol of the table is looked up as its connective.** -/
theorem lookup?_of_mem_entries {c : Connective} {p : LooseText} (h : (p, c) ∈ r.entries) :
    r.lookup? p = some c := by
  rw [lookup?, (kept_of_mem_keys (List.mem_map_of_mem h)).normal]
  exact Table.get?_of_mem_entries h

/-- A connective that some symbol is looked up as has a symbol that writes it. -/
theorem exists_symbolFor_of_lookup? {q : LooseText} {c : Connective} (h : r.lookup? q = some c) :
    ∃ p, r.symbolFor c = .ok p := by
  have hmem : (Symbol.normalize q, c) ∈ r.entries := Table.mem_of_valueOf? h
  have hfind : (r.entries.find? fun e => e.2 = c).isSome := by
    rw [List.find?_isSome]
    exact ⟨_, hmem, decide_eq_true rfl⟩
  obtain ⟨e, he⟩ := Option.isSome_iff_exists.1 hfind
  exact ⟨e.1, by rw [symbolFor, he]⟩

theorem mem_operators {s : LooseText} :
    s ∈ r.operators ↔ s ∈ r.table.keys ∧ s.isWord = false := by
  rw [operators, (Symbol.perm_longestFirst _).mem_iff, List.mem_filter, Bool.not_eq_true']

end Registry

/-! ## The symbols that are looked for -/

namespace Token

variable {r : Registry}

theorem mem_symbols {s : LooseText} :
    s ∈ symbols r ↔ s ∈ r.operators ∨ s ∈ turnstiles ∨ s = arrowText := by
  rw [symbols, (Symbol.perm_longestFirst _).mem_iff, mem_appendNew, List.mem_append,
    List.mem_singleton]

theorem kept_of_mem_symbols {s : LooseText} (h : s ∈ symbols r) : Symbol.Kept s := by
  rcases mem_symbols.1 h with h | h | rfl
  · exact Registry.kept_of_mem_keys (Registry.mem_operators.1 h).1
  · have hall : ∀ s ∈ turnstiles, (Symbol.accept s).toOption = some s := by decide +kernel
    exact Symbol.kept_of_accept (eq_ok_of_toOption (hall s h))
  · have harrow : (Symbol.accept arrowText).toOption = some arrowText := by decide +kernel
    exact Symbol.kept_of_accept (eq_ok_of_toOption harrow)

theorem symbolFront?_eq_some_imp {ss : List LooseText} {cs : LooseText} {s : LooseText}
    (h : symbolFront? ss cs = some s) : s ∈ ss ∧ s <+: cs := by
  rw [symbolFront?, List.find?_eq_some_iff_append] at h
  obtain ⟨hfits, before, behind, rfl, -⟩ := h
  exact ⟨List.mem_append_right _ (List.mem_cons_self ..), List.isPrefixOf_iff_prefix.1 hfits⟩

/-- In a list without a symbol before a longer one, no symbol that fits is longer than the first one
that fits. -/
theorem length_le_of_symbolFront? {ss : List LooseText} {cs : LooseText} {q s : LooseText}
    (hsorted : ss.Pairwise fun a b => b.length ≤ a.length) (h : symbolFront? ss cs = some q)
    (hs : s ∈ ss) (hfits : s <+: cs) : s.length ≤ q.length := by
  obtain ⟨-, before, behind, hsplit, hbefore⟩ := List.find?_eq_some_iff_append.1 h
  rw [hsplit] at hs
  rcases List.mem_append.1 hs with hs | hs
  · have hfails := hbefore s hs
    rw [List.isPrefixOf_iff_prefix.2 hfits] at hfails
    cases hfails
  · rcases List.mem_cons.1 hs with rfl | hs
    · exact Nat.le_refl _
    · rw [hsplit] at hsorted
      exact (List.pairwise_cons.1 (List.pairwise_append.1 hsorted).2.1).1 s hs

/-- Symbols of one length that fit at the same place are the same. -/
theorem eq_of_fits {cs : LooseText} {q s : LooseText} (hq : q <+: cs) (hs : s <+: cs)
    (hlength : q.length = s.length) : q = s := by
  have hshorter := List.prefix_of_prefix_length_le hq hs (Nat.le_of_eq hlength)
  exact hshorter.eq_of_length hlength

/-- **The first symbol that fits is the longest one that fits.** -/
theorem symbolFront?_eq_some {ss : List LooseText} {cs : LooseText} {s : LooseText}
    (hsorted : ss.Pairwise fun a b => b.length ≤ a.length) (hs : s ∈ ss) (hfits : s <+: cs)
    (hlongest : ∀ q ∈ ss, q <+: cs → q.length ≤ s.length) :
    symbolFront? ss cs = some s := by
  match hfront : symbolFront? ss cs with
  | none =>
    have hnone := List.find?_eq_none.1 hfront s hs
    exact absurd (List.isPrefixOf_iff_prefix.2 hfits) hnone
  | some q =>
    obtain ⟨hq, hqfits⟩ := symbolFront?_eq_some_imp hfront
    have hlength : q.length = s.length :=
      Nat.le_antisymm (hlongest q hq hqfits) (length_le_of_symbolFront? hsorted hfront hs hfits)
    rw [eq_of_fits hqfits hfits hlength]

theorem pairwise_symbols (r : Registry) :
    (symbols r).Pairwise fun a b => b.length ≤ a.length :=
  Symbol.pairwise_longestFirst _

end Token

namespace Registry

open Token

/-- The symbols that are looked for in a text. -/
def sought (r : Registry) : List LooseText := r.operators ++ (turnstiles ++ [arrowText])

theorem mem_sought {r : Registry} {q : LooseText} : q ∈ r.sought ↔ q ∈ symbols r := by
  rw [mem_symbols, sought, List.mem_append, List.mem_append, List.mem_singleton]

end Registry

end SequentCalculus
