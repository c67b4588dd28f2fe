import SequentCalculus.Proofs.Registry.Symbols

/-!
# Proofs/Reading/Scanning — how a text is cut into tokens, piece by piece

A piece of a text is cut the same way wherever it stands only if what follows cannot continue its last
token.  So the statement about a piece names what follows: `Spells r cs ts rest` says that `cs`, in
front of `rest`, is cut into the tokens `ts`.  Pieces are put together by `Spells.append`, and there is
one rule for each way a token can start:

* `spells_blank`, `spells_punctuation` — nothing that follows matters;
* `spells_name` — what follows must not continue the name (`nameFront_append`);
* `spells_symbol` — no longer symbol may start at the same place.

Read backwards, a text that is cut at all is its tokens' texts with blanks between (`spaced_of_scan`),
each token is one of the three (`isCut_of_mem_scan`), and blanks at the ends of the text do not matter
(`scan_trim`).
-/

namespace SequentCalculus

/-! ## Runs in front of a rest -/

namespace Text

variable {α : Type} {p : α → Bool} {l rest : List α}

/-- What follows does not continue a run of elements: the run has already ended, or the next element
does not belong to it. -/
def Stops (p : α → Bool) (l rest : List α) : Prop :=
  (∃ a ∈ l, p a = false) ∨ ∀ a, rest.head? = some a → p a = false

theorem takeWhile_append_of_stops (h : Stops p l rest) :
    (l ++ rest).takeWhile p = l.takeWhile p := by
  rw [List.takeWhile_append]
  split
  · rename_i hall
    have hl : l.takeWhile p = l := (List.takeWhile_prefix p).eq_of_length hall
    rcases h with ⟨a, ha, hfalse⟩ | h
    · rw [← hl] at ha
      rw [List.mem_takeWhile_imp ha] at hfalse
      cases hfalse
    · rw [takeWhile_of_head? h, List.append_nil, hl]
  · rfl

theorem dropWhile_append_of_stops (h : Stops p l rest) :
    (l ++ rest).dropWhile p = l.dropWhile p ++ rest := by
  have hsplit : (l ++ rest).takeWhile p ++ (l ++ rest).dropWhile p =
      l.takeWhile p ++ (l.dropWhile p ++ rest) := by
    rw [List.takeWhile_append_dropWhile, ← List.append_assoc, List.takeWhile_append_dropWhile]
  rw [takeWhile_append_of_stops h] at hsplit
  exact List.append_cancel_left hsplit

theorem Code.isWordChar_of_isNameStart {c : Code} (h : c.isNameStart = true) :
    c.isWordChar = true := by
  cases c with
  | char c =>
    rw [isNameStart, Text.isNameStart, Bool.and_eq_true] at h
    exact h.1
  | half n => cases h

end Text

/-! ## Names in front of a rest -/

namespace LooseText

open Text
open Text.Code (isWordChar_of_isNameStart)

variable {cs rest : LooseText}

/-- **The name at the front does not depend on what follows**, if that neither starts with a prime nor
continues the word. -/
theorem nameFront_append (hword : Stops Code.isWordChar cs rest)
    (hprime : rest.head? ≠ some (.char '\'')) : nameFront (cs ++ rest) = nameFront cs := by
  have hprimes : ∀ ds : LooseText, Stops (· == .char '\'') ds rest := fun ds =>
    Or.inr fun c hc => beq_eq_false_iff_ne.2 fun h => hprime (h ▸ hc)
  rcases cs with _ | ⟨c, cs⟩
  · rcases hword with ⟨c, hc, -⟩ | hword
    · exact absurd hc List.not_mem_nil
    · rcases rest with _ | ⟨c, rest⟩
      · rfl
      · have hstart : ¬ c.isNameStart = true := fun h =>
          absurd (isWordChar_of_isNameStart h) (by simp [hword c rfl])
        simp only [List.nil_append, nameFront, if_neg hstart]
  · rw [List.cons_append, nameFront, nameFront]
    by_cases hstart : c.isNameStart = true
    · have hstop : Stops Code.isWordChar cs rest := by
        rcases hword with ⟨d, hd, hfalse⟩ | hword
        · refine Or.inl ⟨d, ?_, hfalse⟩
          rcases List.mem_cons.1 hd with rfl | hd
          · exact absurd (isWordChar_of_isNameStart hstart) (by simp [hfalse])
          · exact hd
        · exact Or.inr hword
      rw [if_pos hstart, if_pos hstart, takeWhile_append_of_stops hstop,
        dropWhile_append_of_stops hstop, takeWhile_append_of_stops (hprimes _)]
    · rw [if_neg hstart, if_neg hstart]

theorem nameRest_append (hword : Stops Code.isWordChar cs rest)
    (hprime : rest.head? ≠ some (.char '\'')) : nameRest (cs ++ rest) = nameRest cs ++ rest := by
  have hsplit : nameFront (cs ++ rest) ++ nameRest (cs ++ rest) =
      nameFront cs ++ (nameRest cs ++ rest) := by
    rw [nameFront_append_nameRest, ← List.append_assoc, nameFront_append_nameRest]
  rw [nameFront_append hword hprime] at hsplit
  exact List.append_cancel_left hsplit

theorem isNameStart_of_nameFront {c : Code} (h : nameFront (c :: cs) ≠ []) :
    c.isNameStart = true := by
  by_cases hstart : c.isNameStart = true
  · exact hstart
  · rw [nameFront, if_neg hstart] at h
    exact absurd rfl h

/-- A name does not start with a prime. -/
theorem head?_ne_prime (h : nameFront cs = cs) : cs.head? ≠ some (.char '\'') := by
  intro hhead
  obtain ⟨tail, rfl⟩ : ∃ tail, cs = .char '\'' :: tail := List.head?_eq_some_iff.1 hhead
  have hstart := isNameStart_of_nameFront (h ▸ List.cons_ne_nil (Code.char '\'') tail)
  exact absurd hstart (by decide +kernel)

/-- A name has word characters and primes only. -/
theorem of_mem_nameFront {c : Code} (h : c ∈ nameFront cs) :
    c.isWordChar = true ∨ c = .char '\'' := by
  rcases cs with _ | ⟨d, cs⟩
  · cases h
  · by_cases hstart : d.isNameStart = true
    · rw [nameFront, if_pos hstart, List.mem_cons, List.mem_append] at h
      rcases h with rfl | h | h
      · exact Or.inl (isWordChar_of_isNameStart hstart)
      · exact Or.inl (List.mem_takeWhile_imp h)
      · exact Or.inr (by simpa using List.mem_takeWhile_imp h)
    · rw [nameFront, if_neg hstart] at h
      cases h

/-- A name holds no blank. -/
theorem isBlank_of_mem_nameFront {c : Code} (h : c ∈ nameFront cs) : c.isBlank = false := by
  rcases of_mem_nameFront h with h | rfl
  · exact Code.isBlank_of_isWordChar h
  · decide

/-- A name is a text. -/
theorem exists_ofString_of_nameFront (h : nameFront cs = cs) : ∃ name, cs = ofString name :=
  exists_ofString_of_forall fun c hc => by
    rcases of_mem_nameFront (h ▸ hc) with hword | rfl
    · exact Code.exists_char_of_isWordChar hword
    · exact ⟨_, rfl⟩

/-- **A name is a name in full**: nothing of it is left out when it is read by itself. -/
theorem nameFront_nameFront (cs : LooseText) : nameFront (nameFront cs) = nameFront cs := by
  rcases cs with _ | ⟨c, cs⟩
  · rfl
  · by_cases hstart : c.isNameStart = true
    · have hword : ∀ d ∈ cs.takeWhile Code.isWordChar, d.isWordChar = true := fun d hd =>
        List.mem_takeWhile_imp hd
      have hprimes : ∀ d,
          ((cs.dropWhile Code.isWordChar).takeWhile (· == .char '\'')).head? = some d →
          d.isWordChar = false := by
        intro d hd
        obtain rfl : d = .char '\'' := by
          simpa using List.mem_takeWhile_imp (List.mem_of_mem_head? hd)
        decide +kernel
      rw [nameFront, if_pos hstart, nameFront, if_pos hstart, List.takeWhile_append_of_pos hword,
        List.dropWhile_append_of_pos hword, takeWhile_of_head? hprimes, dropWhile_of_head? hprimes,
        List.append_nil, List.takeWhile_idem]
    · rw [nameFront, if_neg hstart, nameFront]

/-- **A name is left as it is when it is trimmed.** -/
theorem strip_of_nameFront {name : String} (h : nameFront name = name) : strip name = name := by
  have hblank : ∀ c ∈ ofString name, c.isBlank = false := fun c hc =>
    isBlank_of_mem_nameFront (h ▸ hc)
  refine ofString_injective ?_
  rw [← trim_ofString]
  exact trimEnds_of_forall hblank

/-- What follows cannot continue any name. -/
def EndsName (rest : LooseText) : Prop :=
  ∀ c, rest.head? = some c → c.isWordChar = false ∧ c ≠ .char '\''

theorem endsName_nil : EndsName [] := fun _ h => nomatch h

theorem endsName_cons {c : Code} (h : c.isWordChar = false ∧ c ≠ .char '\'') (rest : LooseText) :
    EndsName (c :: rest) := fun _ hd => Option.some.inj hd ▸ h

theorem endsName_blank (rest : LooseText) : EndsName (.char ' ' :: rest) :=
  endsName_cons (by decide +kernel) rest

theorem EndsName.stops (h : EndsName rest) (cs : LooseText) : Stops Code.isWordChar cs rest :=
  Or.inr fun c hc => (h c hc).1

theorem EndsName.head?_ne (h : EndsName rest) : rest.head? ≠ some (.char '\'') := fun hc =>
  (h _ hc).2 rfl

/-- A blank neither continues a word nor is a prime. -/
theorem endsName_of_head? (h : ∀ c, rest.head? = some c → c.isBlank = true) : EndsName rest := by
  intro c hc
  have hblank := h c hc
  refine ⟨Code.isWordChar_of_isBlank hblank, ?_⟩
  rintro rfl
  exact absurd hblank (by decide)

theorem endsName_of_blanks {bs : LooseText} (h : ∀ c ∈ bs, c.isBlank = true) : EndsName bs :=
  endsName_of_head? fun c hc => h c (List.mem_of_mem_head? hc)

end LooseText

/-! ## One step of the scanner -/

namespace Token

variable {r : Registry} {ss : List LooseText} {c : Text.Code} {cs : LooseText}

theorem punctuation?_eq_none_iff : punctuation? c = none ↔ isPunctuation c = false := by
  rw [← Bool.not_eq_true, isPunctuation_iff]
  unfold punctuation?
  split
  · simp_all
  · split
    · simp_all
    · split <;> simp_all

/-- The punctuation characters with their tokens. -/
theorem punctuation?_cases {t : Token} (h : punctuation? c = some t) :
    (c = .char '(' ∧ t = ⟨.opening, "("⟩) ∨ (c = .char ')' ∧ t = ⟨.closing, ")"⟩) ∨
      (c = .char ',' ∧ t = ⟨.comma, ","⟩) := by
  unfold punctuation? at h
  split at h
  · exact Or.inl ⟨‹_›, (Option.some.inj h).symm⟩
  · split at h
    · exact Or.inr (Or.inl ⟨‹_›, (Option.some.inj h).symm⟩)
    · split at h
      · exact Or.inr (Or.inr ⟨‹_›, (Option.some.inj h).symm⟩)
      · cases h

theorem isBlank_of_punctuation? {t : Token} (h : punctuation? c = some t) :
    c.isBlank = false := by
  rcases punctuation?_cases h with ⟨rfl, -⟩ | ⟨rfl, -⟩ | ⟨rfl, -⟩ <;> decide

theorem text_of_punctuation? {t : Token} (h : punctuation? c = some t) : t.text = [c] := by
  rcases punctuation?_cases h with ⟨rfl, rfl⟩ | ⟨rfl, rfl⟩ | ⟨rfl, rfl⟩ <;> rfl

theorem tag_ne_atom_of_punctuation? {t : Token} (h : punctuation? c = some t) : t.tag ≠ .atom := by
  rcases punctuation?_cases h with ⟨-, rfl⟩ | ⟨-, rfl⟩ | ⟨-, rfl⟩ <;> decide

theorem scanWith_blank (h : c.isBlank = true) :
    scanWith r ss (c :: cs) = scanWith r ss cs := by
  rw [scanWith, if_pos h]

theorem scanWith_punctuation {t : Token} (h : punctuation? c = some t) :
    scanWith r ss (c :: cs) = (scanWith r ss cs).map (t :: ·) := by
  rw [scanWith, if_neg (by simp [isBlank_of_punctuation? h]), h]

theorem scanWith_name (h : c.isNameStart = true) :
    scanWith r ss (c :: cs) = (scanWith r ss (LooseText.nameRest (c :: cs))).map
      (ofName r (LooseText.nameFront (c :: cs)) :: ·) := by
  have hword := Text.Code.isWordChar_of_isNameStart h
  rw [scanWith, if_neg (by simp [Text.Code.isBlank_of_isWordChar hword]),
    punctuation?_eq_none_iff.2 (Text.Code.isPunctuation_of_isWordChar hword)]
  simp only [dif_pos h]

/-- A character with which only a symbol can start. -/
structure StartsSymbol (c : Text.Code) : Prop where
  not_blank : c.isBlank = false
  not_punctuation : isPunctuation c = false
  not_name : c.isNameStart = false

theorem StartsSymbol.of_not (hblank : ¬ c.isBlank = true) (hpunctuation : punctuation? c = none)
    (hname : ¬ c.isNameStart = true) : StartsSymbol c :=
  ⟨Bool.eq_false_iff.2 hblank, punctuation?_eq_none_iff.1 hpunctuation, Bool.eq_false_iff.2 hname⟩

theorem scanWith_symbol {s : LooseText} (hc : StartsSymbol c)
    (h : symbolFront? ss (c :: cs) = some s) :
    scanWith r ss (c :: cs) = (scanWith r ss (cs.drop (s.length - 1))).map (ofSymbol r s :: ·) := by
  rw [scanWith, if_neg (by simp [hc.not_blank]), punctuation?_eq_none_iff.2 hc.not_punctuation]
  simp only [dif_neg (Bool.eq_false_iff.1 hc.not_name), h]

theorem scanWith_error (hc : StartsSymbol c) (h : symbolFront? ss (c :: cs) = none) :
    scanWith r ss (c :: cs) = .error (scanError c cs) := by
  rw [scanWith, if_neg (by simp [hc.not_blank]), punctuation?_eq_none_iff.2 hc.not_punctuation]
  simp only [dif_neg (Bool.eq_false_iff.1 hc.not_name), h]

/-! ## Pieces of a text -/

/-- The characters, in front of a rest, are cut into the tokens. -/
def Spells (r : Registry) (cs : LooseText) (ts : List Token) (rest : LooseText) : Prop :=
  scanWith r (symbols r) (cs ++ rest) = (scanWith r (symbols r) rest).map (ts ++ ·)

variable {ts us : List Token} {ds rest : LooseText}

theorem Spells.nil : Spells r [] [] rest := by
  rw [Spells, List.nil_append]
  match scanWith r (symbols r) rest with
  | .ok _ => rfl
  | .error _ => rfl

/-- **Two pieces that are cut, one in front of the other, are cut together.** -/
theorem Spells.append (hcs : Spells r cs ts (ds ++ rest)) (hds : Spells r ds us rest) :
    Spells r (cs ++ ds) (ts ++ us) rest := by
  rw [Spells, List.append_assoc, hcs, hds]
  match scanWith r (symbols r) rest with
  | .ok _ => simp only [Except.map, List.append_assoc]
  | .error _ => rfl

/-- A text that is one piece is cut into the tokens of the piece. -/
theorem Spells.scan {text : LooseText} (h : Spells r text ts []) : scan r text = .ok ts := by
  rw [Spells, List.append_nil] at h
  rw [Token.scan, h, scanWith]
  simp only [Except.map, List.append_nil]

theorem spells_blank (h : c.isBlank = true) : Spells r [c] [] rest := by
  rw [Spells, List.singleton_append, scanWith_blank h]
  exact Spells.nil

theorem spells_punctuation {t : Token} (h : punctuation? c = some t) : Spells r [c] [t] rest :=
  scanWith_punctuation h

/-- **A name is one token** in front of what does not continue it. -/
theorem spells_name (hne : cs ≠ []) (hname : LooseText.nameFront cs = cs)
    (hword : Text.Stops Text.Code.isWordChar cs rest) (hprime : rest.head? ≠ some (.char '\'')) :
    Spells r cs [ofName r cs] rest := by
  have hfront : LooseText.nameFront (cs ++ rest) = cs := by
    rw [LooseText.nameFront_append hword hprime, hname]
  have hrest : LooseText.nameRest (cs ++ rest) = rest := by
    have hsplit := LooseText.nameFront_append_nameRest (cs ++ rest)
    rw [hfront] at hsplit
    exact List.append_cancel_left hsplit
  obtain ⟨c, cs', rfl⟩ := List.exists_cons_of_ne_nil hne
  have hstart : c.isNameStart = true := LooseText.isNameStart_of_nameFront (hname ▸ hne)
  rw [List.cons_append] at hfront hrest
  rw [Spells, List.cons_append, scanWith_name hstart, hfront, hrest]
  rfl

/-- **A symbol is one token** unless a longer symbol starts at the same place. -/
theorem spells_symbol {s : LooseText} (hs : s ∈ symbols r)
    (hstart : ∀ c, s.head? = some c → StartsSymbol c)
    (hlongest : ∀ q ∈ symbols r, q <+: s ++ rest → q.length ≤ s.length) :
    Spells r s [ofSymbol r s] rest := by
  have hfront := symbolFront?_eq_some (pairwise_symbols r) hs (List.prefix_append s rest)
    hlongest
  obtain ⟨c, cs, rfl⟩ := List.exists_cons_of_ne_nil (kept_of_mem_symbols hs).ne_nil
  rw [List.cons_append] at hfront
  rw [Spells, List.cons_append, scanWith_symbol (hstart c rfl) hfront, List.length_cons,
    Nat.add_sub_cancel, List.drop_left]
  rfl

/-- A symbol that no other extends is the longest, whatever follows. -/
theorem length_le_of_not_extends {q s : LooseText} (h : ¬ (s <+: q ∧ s ≠ q))
    (hfits : q <+: s ++ rest) : q.length ≤ s.length := by
  rcases List.prefix_or_prefix_of_prefix hfits (List.prefix_append s rest) with hq | hq
  · exact hq.length_le
  · have heq : s = q := Classical.byContradiction fun hne => h ⟨hq, hne⟩
    rw [heq]

/-- A symbol that none extends by a blank is the longest in front of a blank. -/
theorem length_le_of_not_extends_blank {q s : LooseText} (h : ¬ (s ++ " " : LooseText) <+: q)
    (hfits : q <+: s ++ .char ' ' :: rest) : q.length ≤ s.length := by
  have hblank : LooseText.ofString " " = [.char ' '] := by decide
  rw [hblank] at h
  have hfront : s ++ [.char ' '] <+: s ++ .char ' ' :: rest := ⟨rest, by simp⟩
  rcases List.prefix_or_prefix_of_prefix hfits hfront with hq | hq
  · have hle := hq.length_le
    rw [List.length_append, List.length_singleton] at hle
    by_cases hlength : q.length = s.length + 1
    · have heq := hq.eq_of_length (by rw [hlength, List.length_append, List.length_singleton])
      exact absurd (heq ▸ List.prefix_refl _) h
    · omega
  · exact absurd hq h

/-! ## What a scanned text looks like -/

/-- The characters are the texts of the tokens, in order, with blanks around and between them. -/
inductive Spaced : LooseText → List Token → Prop where
  | nil : Spaced [] []
  | blank {c : Text.Code} {cs : LooseText} {ts : List Token} (hc : c.isBlank = true)
      (h : Spaced cs ts) : Spaced (c :: cs) ts
  | token (t : Token) {cs : LooseText} {ts : List Token} (h : Spaced cs ts) :
      Spaced (t.text ++ cs) (t :: ts)

theorem text_ofName (name : LooseText) : (ofName r name).text = name := by
  unfold ofName
  split <;> rfl

theorem text_ofSymbol (symbol : LooseText) : (ofSymbol r symbol).text = symbol := by
  unfold ofSymbol
  split
  · rfl
  · split <;> rfl

/-- **Scanning loses nothing but blanks.** -/
theorem spaced_of_scanWith (hss : ∀ s ∈ ss, s ≠ []) :
    ∀ {ts : List Token}, scanWith r ss cs = .ok ts → Spaced cs ts := by
  fun_induction scanWith r ss cs with
  | case1 =>
    intro ts h
    obtain rfl := Except.ok.inj h
    exact Spaced.nil
  | case2 c cs hblank ih =>
    intro ts h
    exact Spaced.blank hblank (ih h)
  | case3 c cs _ t ht ih =>
    intro ts h
    obtain ⟨us, hus, rfl⟩ := exists_of_map_eq_ok h
    have hspaced := Spaced.token t (ih hus)
    rwa [text_of_punctuation? ht] at hspaced
  | case4 c cs _ _ _ name =>
    rename_i ih
    intro ts h
    obtain ⟨us, hus, rfl⟩ := exists_of_map_eq_ok h
    have hspaced := Spaced.token (ofName r name) (ih hus)
    rwa [text_ofName, LooseText.nameFront_append_nameRest] at hspaced
  | case5 c cs _ _ _ s hs ih =>
    intro ts h
    obtain ⟨us, hus, rfl⟩ := exists_of_map_eq_ok h
    obtain ⟨hmem, rest, hrest⟩ := symbolFront?_eq_some_imp hs
    have hspaced := Spaced.token (ofSymbol r s) (ih hus)
    have hdrop : cs.drop (s.length - 1) = rest := by
      obtain ⟨d, ds, rfl⟩ := List.exists_cons_of_ne_nil (hss s hmem)
      rw [List.length_cons, Nat.add_sub_cancel, ← (List.cons.inj hrest).2]
      exact List.drop_left
    rwa [text_ofSymbol, hdrop, hrest] at hspaced
  | case6 =>
    intro ts h
    cases h

theorem spaced_of_scan {text : LooseText} (h : scan r text = .ok ts) : Spaced text ts :=
  spaced_of_scanWith (fun _ hs => (kept_of_mem_symbols hs).ne_nil) h

/-- What a token can be, given the symbols that are looked for: punctuation, a name in full, or a
symbol that no name starts. -/
inductive IsCut (r : Registry) (ss : List LooseText) : Token → Prop where
  | punctuation {c : Text.Code} {t : Token} (h : punctuation? c = some t) : IsCut r ss t
  | name {cs : LooseText} (hne : cs ≠ []) (hname : LooseText.nameFront cs = cs) :
      IsCut r ss (ofName r cs)
  | symbol {s : LooseText} (hs : s ∈ ss)
      (hstart : ∀ c, s.head? = some c → StartsSymbol c) : IsCut r ss (ofSymbol r s)

/-- **A token is punctuation, a name or a symbol.** -/
theorem isCut_of_mem_scanWith :
    ∀ {ts : List Token}, scanWith r ss cs = .ok ts → ∀ t ∈ ts, IsCut r ss t := by
  fun_induction scanWith r ss cs with
  | case1 =>
    intro ts h t ht
    obtain rfl := Except.ok.inj h
    cases ht
  | case2 c cs hblank ih => exact ih
  | case3 c cs _ u hu ih =>
    intro ts h
    obtain ⟨us, hus, rfl⟩ := exists_of_map_eq_ok h
    exact List.forall_mem_cons.2 ⟨.punctuation hu, ih hus⟩
  | case4 c cs _ _ hstart name =>
    rename_i ih
    intro ts h
    obtain ⟨us, hus, rfl⟩ := exists_of_map_eq_ok h
    have hne : LooseText.nameFront (c :: cs) ≠ [] := by
      rw [LooseText.nameFront, if_pos hstart]
      exact List.cons_ne_nil _ _
    exact List.forall_mem_cons.2 ⟨.name hne (LooseText.nameFront_nameFront _), ih hus⟩
  | case5 c cs hblank hpunct hstart s hs ih =>
    intro ts h
    obtain ⟨us, hus, rfl⟩ := exists_of_map_eq_ok h
    obtain ⟨hmem, rest, hrest⟩ := symbolFront?_eq_some_imp hs
    refine List.forall_mem_cons.2 ⟨.symbol hmem fun d hd => ?_, ih hus⟩
    have hhead : (c :: cs).head? = some d := by
      rw [← hrest, List.head?_append, hd, Option.some_or]
    obtain rfl : c = d := Option.some.inj hhead
    exact .of_not hblank hpunct hstart
  | case6 =>
    intro ts h
    cases h

theorem isCut_of_mem_scan {text : LooseText} (h : scan r text = .ok ts) {t : Token} (ht : t ∈ ts) :
    IsCut r (symbols r) t :=
  isCut_of_mem_scanWith h t ht

/-- **A connective is scanned where the registry has a symbol for it.** -/
theorem lookup?_of_scan {text : LooseText} (h : scan r text = .ok ts) {t : Token} (ht : t ∈ ts)
    {c : Connective} (hc : t.tag = .connective c) : r.lookup? t.text = some c := by
  cases isCut_of_mem_scan h ht with
  | punctuation hd =>
    rcases punctuation?_cases hd with ⟨-, rfl⟩ | ⟨-, rfl⟩ | ⟨-, rfl⟩ <;> cases hc
  | name =>
    rw [text_ofName]
    unfold ofName at hc
    split at hc
    · rename_i hlookup
      rw [hlookup, Tag.connective.inj hc]
    · cases hc
  | symbol =>
    rw [text_ofSymbol]
    unfold ofSymbol at hc
    split at hc
    · cases hc
    · split at hc
      · rename_i hlookup
        rw [hlookup, Tag.connective.inj hc]
      · cases hc

theorem Spaced.length_le {cs : LooseText} {ts : List Token} (h : Spaced cs ts) :
    ∀ t ∈ ts, t.text.length ≤ cs.length := by
  induction h with
  | nil => exact fun t ht => absurd ht List.not_mem_nil
  | blank _ _ ih => exact fun t ht => Nat.le_succ_of_le (ih t ht)
  | token u _ ih =>
    intro t ht
    rw [List.length_append]
    rcases List.mem_cons.1 ht with rfl | ht
    · exact Nat.le_add_right _ _
    · exact Nat.le_trans (ih t ht) (Nat.le_add_left _ _)

theorem tag_ofSymbol_ne_atom (symbol : LooseText) : (ofSymbol r symbol).tag ≠ .atom := by
  unfold ofSymbol
  split
  · simp
  · split <;> simp

/-- Only a name starts with an atom. -/
theorem ne_atom_of_not_name {name : LooseText} (hblank : ¬ c.isBlank = true)
    (hstart : ¬ c.isNameStart = true) :
    scanWith r ss (c :: cs) ≠ .ok [⟨.atom, name⟩] := by
  intro h
  rw [scanWith, if_neg hblank] at h
  split at h
  · rename_i t ht
    obtain ⟨us, -, hus⟩ := exists_of_map_eq_ok h
    exact tag_ne_atom_of_punctuation? ht (congrArg Token.tag (List.cons.inj hus).1)
  · rw [dif_neg hstart] at h
    split at h
    · obtain ⟨us, -, hus⟩ := exists_of_map_eq_ok h
      exact tag_ofSymbol_ne_atom _ (congrArg Token.tag (List.cons.inj hus).1)
    · cases h

/-- **A name that is scanned as an atom is a name in full, and no connective.** -/
theorem of_scan_eq_atom {name : LooseText} (h : scan r name = .ok [⟨.atom, name⟩]) :
    name ≠ [] ∧ LooseText.nameFront name = name ∧ r.lookup? name = none := by
  have hscan : scanWith r (symbols r) name = .ok [⟨.atom, name⟩] := h
  have hss : ∀ s ∈ symbols r, s ≠ [] := fun _ hs => (kept_of_mem_symbols hs).ne_nil
  match name with
  | [] =>
    rw [scanWith] at hscan
    cases hscan
  | c :: cs =>
    refine ⟨List.cons_ne_nil c cs, ?_⟩
    by_cases hblank : c.isBlank = true
    · -- the name would be longer than the characters it is cut from
      rw [scanWith_blank hblank] at hscan
      have hle := (spaced_of_scanWith hss hscan).length_le _ (List.mem_singleton.2 rfl)
      exact absurd hle (Nat.not_succ_le_self _)
    · by_cases hstart : c.isNameStart = true
      · rw [scanWith_name hstart] at hscan
        obtain ⟨us, -, hus⟩ := exists_of_map_eq_ok hscan
        have htoken := (List.cons.inj hus).1
        have hname : LooseText.nameFront (c :: cs) = c :: cs := by
          rw [← text_ofName (r := r) (LooseText.nameFront (c :: cs)), htoken]
        refine ⟨hname, ?_⟩
        rw [hname, ofName] at htoken
        split at htoken
        · exact absurd (congrArg Token.tag htoken) (by simp)
        · assumption
      · exact absurd hscan (ne_atom_of_not_name hblank hstart)

/-! ## Blanks at the ends -/

theorem scanWith_blanks_append {bs : LooseText} (hbs : ∀ c ∈ bs, c.isBlank = true)
    (cs : LooseText) : scanWith r ss (bs ++ cs) = scanWith r ss cs := by
  induction bs with
  | nil => rfl
  | cons b bs ih =>
    obtain ⟨hb, hbs⟩ := List.forall_mem_cons.1 hbs
    rw [List.cons_append, scanWith_blank hb, ih hbs]

/-- A symbol that does not end in a blank does not reach into blanks. -/
theorem isPrefix_append_blanks_iff {s : LooseText} (hs : Symbol.Kept s) {bs : LooseText}
    (hbs : ∀ c ∈ bs, c.isBlank = true) : s <+: cs ++ bs ↔ s <+: cs := by
  refine ⟨fun h => ?_, fun h => h.trans (List.prefix_append cs bs)⟩
  rcases List.prefix_or_prefix_of_prefix h (List.prefix_append cs bs) with h' | ⟨tail, htail⟩
  · exact h'
  · rw [← htail, List.prefix_append_right_inj] at h
    match hlast : tail.getLast? with
    | none =>
      rw [List.getLast?_eq_none_iff] at hlast
      have heq : s = cs := by rw [← htail, hlast, List.append_nil]
      exact heq ▸ List.prefix_refl _
    | some c =>
      have hblank := hbs c (h.subset (List.mem_of_getLast? hlast))
      have hstop := hs.stop c (by rw [← htail, List.getLast?_append, hlast, Option.some_or])
      rw [hblank] at hstop
      cases hstop

theorem symbolFront?_congr {ds : LooseText} (h : ∀ s ∈ ss, s <+: cs ↔ s <+: ds) :
    symbolFront? ss cs = symbolFront? ss ds := by
  induction ss with
  | nil => rfl
  | cons s ss ih =>
    obtain ⟨hs, hss⟩ := List.forall_mem_cons.1 h
    have heq : s.isPrefixOf cs = s.isPrefixOf ds := by
      rw [Bool.eq_iff_iff, List.isPrefixOf_iff_prefix, List.isPrefixOf_iff_prefix, hs]
    have ih' := ih hss
    rw [symbolFront?] at ih' ⊢
    rw [symbolFront?, List.find?_cons, List.find?_cons, heq, ih']
    rfl

theorem scanError_append_blanks {bs : LooseText} (hbs : ∀ c ∈ bs, c.isBlank = true) :
    scanError c (cs ++ bs) = scanError c cs := by
  have hstops : Text.Stops (fun c => !c.isWordChar && !c.isBlank && !isPunctuation c)
      (c :: cs) bs :=
    Or.inr fun d hd => by simp [hbs d (List.mem_of_mem_head? hd)]
  unfold scanError symbolRun
  rw [← List.cons_append, Text.takeWhile_append_of_stops hstops]

/-- **Blanks behind a text do not matter**: no name and no symbol reaches into them, and neither does
the text of an error. -/
theorem scanWith_append_blanks (hss : ∀ s ∈ ss, Symbol.Kept s) {bs : LooseText}
    (hbs : ∀ c ∈ bs, c.isBlank = true) : scanWith r ss (cs ++ bs) = scanWith r ss cs := by
  have hsymbol : ∀ cs, symbolFront? ss (cs ++ bs) = symbolFront? ss cs := fun cs =>
    symbolFront?_congr fun s hs => isPrefix_append_blanks_iff (hss s hs) hbs
  have hends := LooseText.endsName_of_blanks hbs
  fun_induction scanWith r ss cs with
  | case1 =>
    have hempty : scanWith r ss (bs ++ []) = scanWith r ss [] := scanWith_blanks_append hbs []
    rw [List.nil_append, ← List.append_nil bs, hempty, scanWith]
  | case2 c cs hblank ih => rw [List.cons_append, scanWith_blank hblank, ih]
  | case3 c cs _ t ht ih => rw [List.cons_append, scanWith_punctuation ht, ih]
  | case4 c cs _ _ hstart name =>
    rename_i ih
    rw [List.cons_append, scanWith_name hstart, ← List.cons_append,
      LooseText.nameFront_append (hends.stops _) hends.head?_ne,
      LooseText.nameRest_append (hends.stops _) hends.head?_ne, ih]
  | case5 c cs hblank hpunct hstart s hs ih =>
    have hc : StartsSymbol c := .of_not hblank hpunct hstart
    have hfits := (symbolFront?_eq_some_imp hs).2.length_le
    have hle : s.length - 1 ≤ cs.length := by
      rw [List.length_cons] at hfits
      omega
    rw [List.cons_append, scanWith_symbol hc (by rw [← List.cons_append, hsymbol, hs]),
      List.drop_append_of_le_length hle, ih]
  | case6 c cs hblank hpunct hstart hs =>
    rw [List.cons_append, scanWith_error (.of_not hblank hpunct hstart)
      (by rw [← List.cons_append, hsymbol, hs]), scanError_append_blanks hbs]

/-- **Trimming a text does not change how it is cut.** -/
theorem scan_trim (r : Registry) (text : LooseText) : scan r text.trim = scan r text := by
  obtain ⟨front, back, hfront, hback, hsplit⟩ :=
    Text.exists_eq_append_trimEnds Text.Code.isBlank text
  have hkept : ∀ s ∈ symbols r, Symbol.Kept s := fun _ hs => kept_of_mem_symbols hs
  rw [scan, scan]
  calc scanWith r (symbols r) text.trim
      = scanWith r (symbols r) (text.trim ++ back) := (scanWith_append_blanks hkept hback).symm
    _ = scanWith r (symbols r) (front ++ (text.trim ++ back)) :=
        (scanWith_blanks_append hfront _).symm
    _ = scanWith r (symbols r) text := congrArg _ hsplit.symm

end Token

end SequentCalculus
