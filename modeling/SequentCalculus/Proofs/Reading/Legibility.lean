import SequentCalculus.Proofs.Reading.RoundTrip

/-!
# Proofs/Reading/Legibility — which symbols of a registry can be read

A symbol is declared by one rule and found in a text by another.  The first refuses empty symbols and
punctuation only; the second takes turnstiles for itself and cuts off a name wherever one starts.  So a
symbol of the table is read as its connective exactly if the second rule leaves it alone (`Undivided`).
Otherwise it is a turnstile and read as the turnstile (`scan_of_turnstile`), or it starts like a name,
goes on otherwise and is divided behind the name (`text_of_scan_name`).

Words that start with a decimal digit are set aside: they are no names, and words are looked for as names
only.
-/

namespace SequentCalculus

/-! ## Names -/

namespace LooseText

open Text

variable {c : Code} {cs : LooseText}

/-- A name: a word character that is no decimal digit, word characters, and then primes. -/
def IsName (cs : LooseText) : Prop :=
  ∃ c word n, cs = c :: (word ++ List.replicate n (.char '\'')) ∧ c.isNameStart = true ∧
    ∀ d ∈ word, d.isWordChar = true

/-- The text starts like a name. -/
def StartsName (cs : LooseText) : Prop := ∃ c, cs.head? = some c ∧ c.isNameStart = true

theorem takeWhile_prime (cs : LooseText) :
    ∃ n, cs.takeWhile (· == .char '\'') = List.replicate n (.char '\'') :=
  ⟨_, List.eq_replicate_of_mem fun c hc => by simpa using List.mem_takeWhile_imp hc⟩

/-- **What stands at the front of a text in full is a name.** -/
theorem nameFront_eq_self_iff (hne : cs ≠ []) : nameFront cs = cs ↔ IsName cs := by
  constructor
  · intro h
    obtain ⟨c, cs, rfl⟩ := List.exists_cons_of_ne_nil hne
    have hstart := isNameStart_of_nameFront (h ▸ hne)
    obtain ⟨n, hprimes⟩ := takeWhile_prime (cs.dropWhile Code.isWordChar)
    rw [nameFront, if_pos hstart, hprimes] at h
    exact ⟨c, _, n, h.symm, hstart, fun d hd => List.mem_takeWhile_imp hd⟩
  · rintro ⟨c, word, n, rfl, hstart, hword⟩
    have hprimes : ∀ d, (List.replicate n (Code.char '\'')).head? = some d →
        d.isWordChar = false := by
      intro d hd
      obtain rfl := List.eq_of_mem_replicate (List.mem_of_mem_head? hd)
      decide +kernel
    rw [nameFront, if_pos hstart, List.takeWhile_append_of_pos hword,
      List.dropWhile_append_of_pos hword, takeWhile_of_head? hprimes, dropWhile_of_head? hprimes,
      List.append_nil, List.takeWhile_replicate]
    simp

theorem nameFront_of_not_startsName (h : ¬ StartsName cs) : nameFront cs = [] := by
  rcases cs with _ | ⟨c, cs⟩
  · rfl
  · rw [nameFront, if_neg fun hstart => h ⟨c, rfl, hstart⟩]

end LooseText

/-! ## What becomes of a symbol -/

namespace Token

variable {r : Registry} {q : LooseText}

theorem length_le_of_fits {s : LooseText} (h : s <+: q ++ []) : s.length ≤ q.length := by
  rw [List.append_nil] at h
  exact h.length_le

/-- A turnstile stays a turnstile, whatever the table says of it. -/
theorem scan_of_turnstile (r : Registry) (h : q ∈ turnstiles) :
    scan r q = .ok [⟨.turnstile, q⟩] := by
  have hsymbol : q ∈ symbols r := mem_symbols.2 (Or.inr (Or.inl h))
  have hname : ∀ s ∈ turnstiles, LooseText.nameFront s = [] := by decide +kernel
  have hspells : Spells r q [ofSymbol r q] [] := spells_symbol hsymbol
    (Registry.startsSymbol_of_legible (kept_of_mem_symbols hsymbol) (hname q h))
    fun s _ hfits => length_le_of_fits hfits
  rw [ofSymbol, if_pos h] at hspells
  exact hspells.scan

/-- A name at the front is a token of its own. -/
theorem text_of_scan_name {ts : List Token} (hstart : q.StartsName)
    (h : scan r q = .ok ts) : ∃ t us, ts = t :: us ∧ t.text = LooseText.nameFront q := by
  obtain ⟨c, hc, hstart⟩ := hstart
  obtain ⟨cs, rfl⟩ := List.head?_eq_some_iff.1 hc
  rw [scan, scanWith_name hstart] at h
  obtain ⟨us, -, rfl⟩ := exists_of_map_eq_ok h
  exact ⟨_, us, rfl, text_ofName _⟩

end Token

namespace Registry

open Token

variable {r : Registry} {q : LooseText} {k : Connective}

/-- A symbol that the scanner takes as one piece: it is no turnstile, and it is a name if it starts like
one. -/
structure Undivided (q : LooseText) : Prop where
  not_turnstile : q ∉ turnstiles
  name : q.StartsName → q.IsName

/-- A word with a decimal digit in front. -/
def IsDigitWord (q : LooseText) : Prop :=
  q.isWord = true ∧ ∃ c, q.head? = some (.char c) ∧ Text.isDecimalDigit c = true

theorem legible_of_undivided (h : Undivided q) (hq : q ∈ r.table.keys) (hdigit : ¬ IsDigitWord q) :
    r.Legible q := by
  have hne := (kept_of_mem_keys hq).ne_nil
  by_cases hstart : q.StartsName
  · exact Or.inl ((LooseText.nameFront_eq_self_iff hne).2 (h.name hstart))
  · refine Or.inr ⟨mem_operators.2 ⟨hq, ?_⟩, h.not_turnstile,
      LooseText.nameFront_of_not_startsName hstart⟩
    rw [← Bool.not_eq_true]
    intro hword
    obtain ⟨c, cs, rfl⟩ := List.exists_cons_of_ne_nil hne
    have hchar := (LooseText.isWord_iff.1 hword).2 c List.mem_cons_self
    obtain ⟨d, rfl⟩ := Text.Code.exists_char_of_isWordChar hchar
    have hnot : Text.isDecimalDigit d = false :=
      Bool.eq_false_iff.2 fun hd => hdigit ⟨hword, d, rfl, hd⟩
    have hname : Text.isNameStart d = true := by
      rw [Text.isNameStart, hnot]
      exact (Bool.and_true _).trans hchar
    exact hstart ⟨_, rfl, hname⟩

/-- A legible symbol that stands alone is its connective. -/
theorem scan_of_legible (h : (q, k) ∈ r.entries) (hlegible : r.Legible q) :
    scan r q = .ok [⟨.connective k, q⟩] := by
  have hends := LooseText.endsName_nil
  exact Spells.scan (spells_of_legible h hlegible (hends.stops _) (fun _ => hends.head?_ne)
    fun _ s _ hfits => length_le_of_fits hfits)

/-- **A symbol of a registry is read as its connective exactly if the scanner takes it as one piece**,
words with a decimal digit in front aside.  A turnstile is read as the turnstile, and of a symbol that
starts like a name the first token is that name. -/
theorem scan_symbol_iff (r : Registry) (q : LooseText) (k : Connective) (h : (q, k) ∈ r.entries) :
    (¬ IsDigitWord q → (scan r q = .ok [⟨.connective k, q⟩] ↔ Undivided q)) ∧
    (q ∈ turnstiles → scan r q = .ok [⟨.turnstile, q⟩]) ∧
    (q.StartsName → ∀ ts, scan r q = .ok ts →
      ∃ t us, ts = t :: us ∧ t.text = LooseText.nameFront q) := by
  have hkey : q ∈ r.table.keys := List.mem_map_of_mem h
  refine ⟨fun hdigit => ⟨fun hscan => ⟨fun hturnstile => ?_, fun hstart => ?_⟩, fun hpiece =>
      scan_of_legible h (legible_of_undivided hpiece hkey hdigit)⟩,
    scan_of_turnstile r, fun hstart ts hscan => text_of_scan_name hstart hscan⟩
  · simp [scan_of_turnstile r hturnstile] at hscan
  · obtain ⟨t, us, hts, htext⟩ := text_of_scan_name hstart hscan
    obtain ⟨rfl, -⟩ := List.cons.inj hts
    exact (LooseText.nameFront_eq_self_iff (kept_of_mem_keys hkey).ne_nil).1 htext.symm

/-- A turnstile may be declared as a disjunction and is not read as one. -/
theorem scan_symbol_ne_connective :
    ∃ r, Registry.default.extend [("|-", .binary .or)] = .ok r ∧
      (.ofString "|-", .binary .or) ∈ r.entries ∧
      scan r "|-" ≠ .ok [⟨.connective (.binary .or), "|-"⟩] := by
  obtain ⟨r, hr, hentry⟩ : ∃ r, Registry.default.extend [("|-", .binary .or)] = .ok r ∧
      decide ((.ofString "|-", .binary .or) ∈ r.entries) = true := exists_ok_of_any (by decide +kernel)
  refine ⟨r, hr, of_decide_eq_true hentry, ?_⟩
  rw [scan_of_turnstile r (by decide)]
  simp

/-- A registry with a name and an operator that can be read, a turnstile, and a symbol that starts like a
name. -/
def overreaching : Registry where
  table := ⟨[("v'", .not), ("1+", .binary .and), ("|-", .binary .or), ("v!", .binary .implies)],
    by decide⟩
  accepted := by
    have h : ∀ s ∈ (["v'", "1+", "|-", "v!"] : List LooseText), (Symbol.accept s).toOption = some s := by
      decide +kernel
    exact fun s hs => ⟨s, eq_ok_of_toOption (h s hs)⟩

theorem scan_symbol_iff_overreaching :
    scan overreaching "v'" = .ok [⟨.connective .not, "v'"⟩] ∧
    scan overreaching "1+" = .ok [⟨.connective (.binary .and), "1+"⟩] ∧
    scan overreaching "|-" = .ok [⟨.turnstile, "|-"⟩] ∧
    scan overreaching "v!" ≠ .ok [⟨.connective (.binary .implies), "v!"⟩] := by
  have hmem : ∀ e ∈ ([("v'", .not), ("1+", .binary .and), ("|-", .binary .or),
      ("v!", .binary .implies)] : List (LooseText × Connective)), e ∈ overreaching.entries :=
    fun e he => he
  have hword : ∀ s ∈ (["v'", "1+"] : List LooseText), ¬ IsDigitWord s := by
    have hfalse : ∀ s ∈ (["v'", "1+"] : List LooseText), s.isWord = false := by decide +kernel
    exact fun s hs hdigit => Bool.eq_false_iff.1 (hfalse s hs) hdigit.1
  refine ⟨?_, ?_, ?_, ?_⟩
  · refine ((scan_symbol_iff overreaching "v'" .not (hmem _ (by simp))).1
      (hword _ (by simp))).2 ⟨by decide, fun _ => ?_⟩
    exact ⟨.char 'v', [], 1, rfl, by decide +kernel, by simp⟩
  · refine ((scan_symbol_iff overreaching "1+" (.binary .and) (hmem _ (by simp))).1
      (hword _ (by simp))).2 ⟨by decide, ?_⟩
    rintro ⟨c, hc, hstart⟩
    obtain rfl : .char '1' = c := Option.some.inj hc
    exact absurd hstart (by decide +kernel)
  · exact (scan_symbol_iff overreaching "|-" (.binary .or) (hmem _ (by simp))).2.1 (by decide)
  · intro hscan
    obtain ⟨t, us, hts, htext⟩ :=
      (scan_symbol_iff overreaching "v!" (.binary .implies) (hmem _ (by simp))).2.2
        ⟨.char 'v', rfl, by decide +kernel⟩ _ hscan
    obtain ⟨rfl, -⟩ := List.cons.inj hts
    exact absurd htext (by decide +kernel)

end Registry

end SequentCalculus
