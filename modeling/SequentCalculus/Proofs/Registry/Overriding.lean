import SequentCalculus.Proofs.Registry.Extension

/-!
# Proofs/Registry/Overriding — which declaration of a symbol counts

A symbol may be declared in several spellings, which differ in blanks and letter case and are kept under
one form.  Of the declarations that make a registry the last one counts (`get?_of_ofEntries`).

An extension merges two tables before it looks at forms.  A declaration that is spelled like a symbol of
the registry is written over its entry, in its place; all others come behind.  So for a symbol that the
registry has already, the spelling under which it is kept counts before every other spelling, wherever it
was declared (`get?_extend`), and the last of the others decides.  Apart from that, declarations mean in
an extension what they mean by themselves (`extend_overrides`).
-/

namespace SequentCalculus

/-! ## What may be declared -/

namespace Symbol

/-- **A symbol in good form is accepted as it is.** -/
theorem Kept.accept_eq {s : LooseText} (h : Kept s) : accept s = .ok s := by
  have htrim : s.trim = s := Text.trimEnds_of_ends h.start h.stop
  have hvalid : ¬ (s.isEmpty || s.any isPunctuation) = true := by
    simp only [Bool.or_eq_true, List.isEmpty_iff, List.any_eq_true, not_or, not_exists, not_and,
      Bool.not_eq_true]
    exact ⟨h.ne_nil, h.unpunctuated⟩
  simp only [accept, htrim, if_neg hvalid, h.normal]

end Symbol

namespace Registry

variable {r r' : Registry} {declared : List (LooseText × Connective)} {x : Table LooseText Connective}
  {s q : LooseText}

theorem exists_acceptEntries_iff :
    (∃ es, acceptEntries declared = .ok es) ↔ ∀ d ∈ declared, ∃ s, Symbol.accept d.1 = .ok s := by
  induction declared with
  | nil => simp [acceptEntries]
  | cons d declared ih =>
    rw [List.forall_mem_cons, ← ih, acceptEntries]
    rcases Symbol.accept d.1 with e | s
    · simp
    · rcases acceptEntries declared with e | es <;> simp

/-- **Declarations make a registry exactly if each symbol may be declared.** -/
theorem exists_ofEntries_iff :
    (∃ r, ofEntries declared = .ok r) ↔ ∀ d ∈ declared, ∃ s, Symbol.accept d.1 = .ok s := by
  rw [← exists_acceptEntries_iff]
  unfold ofEntries
  split <;> simp_all

/-- **Whether declarations extend a registry does not depend on the registry.** -/
theorem exists_extend_iff :
    (∃ r', r.extend declared = .ok r') ↔ ∀ d ∈ declared, ∃ s, Symbol.accept d.1 = .ok s := by
  rw [extend, exists_ofEntries_iff]
  constructor
  · intro h d hd
    have hkey : d.1 ∈ (r.table.putAll declared).keys := by
      rw [Table.keys_putAll]
      exact mem_appendNew.2 (Or.inr (List.mem_map_of_mem hd))
    obtain ⟨e, he, heq⟩ := List.mem_map.1 hkey
    exact heq ▸ h e he
  · intro h d hd
    rcases Table.mem_entries_putAll hd with hd | hd
    · exact ⟨d.1, (kept_of_mem_keys (List.mem_map_of_mem hd)).accept_eq⟩
    · exact h d hd

/-! ## Spellings of a symbol -/

/-- The declarations of a symbol, in all its spellings. -/
def spellings (s : LooseText) (declared : List (LooseText × Connective)) :
    List (LooseText × Connective) :=
  declared.filter fun d => Symbol.keptForm d.1 = s

/-- The declarations of a symbol that are spelled otherwise than the symbol is kept. -/
def otherSpellings (s : LooseText) (declared : List (LooseText × Connective)) :
    List (LooseText × Connective) :=
  (spellings s declared).filter (·.1 ≠ s)

theorem mem_spellings {d : LooseText × Connective} :
    d ∈ spellings s declared ↔ d ∈ declared ∧ Symbol.keptForm d.1 = s := by
  rw [spellings, List.mem_filter, decide_eq_true_iff]

/-- A declaration that is spelled like a symbol of the registry is spelled as it is kept. -/
theorem eq_of_mem_spellings {d : LooseText × Connective} (hd : d ∈ spellings s declared)
    (hkey : d.1 ∈ r.table.keys) : d.1 = s := by
  rw [← (mem_spellings.1 hd).2, (kept_of_mem_keys hkey).keptForm_eq]

/-- Of a symbol of the registry, the spellings that are new are the other spellings. -/
theorem spellings_filter_of_mem (hs : s ∈ r.table.keys) :
    spellings s (declared.filter (·.1 ∉ r.table.keys)) = otherSpellings s declared := by
  rw [spellings, List.filter_comm]
  refine List.filter_congr fun d hd => ?_
  have hiff : d.1 ∈ r.table.keys ↔ d.1 = s := ⟨eq_of_mem_spellings hd, fun heq => heq ▸ hs⟩
  simp only [hiff]

/-- Of a symbol that the registry does not have, all spellings are new. -/
theorem spellings_filter_of_not_mem (hs : s ∉ r.table.keys) :
    spellings s (declared.filter (·.1 ∉ r.table.keys)) = spellings s declared := by
  rw [spellings, List.filter_comm]
  refine List.filter_eq_self.2 fun d hd => decide_eq_true fun hkey => hs ?_
  rwa [← eq_of_mem_spellings hd hkey]

theorem otherSpellings_of_not_mem (hs : s ∉ x.keys) :
    otherSpellings s x.entries = spellings s x.entries :=
  List.filter_eq_self.2 fun _ hd => decide_eq_true fun heq =>
    hs (heq ▸ List.mem_map_of_mem (mem_spellings.1 hd).1)

theorem spellings_eq_filter (hs : s ∈ r.table.keys) (hother : otherSpellings s declared = []) :
    spellings s declared = declared.filter (·.1 = s) := by
  refine List.filter_congr fun d hd => ?_
  have hiff : Symbol.keptForm d.1 = s ↔ d.1 = s := by
    refine ⟨fun hform => ?_, fun heq => heq ▸ heq ▸ (kept_of_mem_keys hs).keptForm_eq⟩
    simpa using List.filter_eq_nil_iff.1 hother d (mem_spellings.2 ⟨hd, hform⟩)
  simp only [hiff]

/-! ## The declaration that counts -/

/-- **The last declaration of a symbol is the one that counts.** -/
theorem get?_of_ofEntries (h : ofEntries declared = .ok r) (s : LooseText) :
    r.table.get? s = (spellings s declared).getLast?.map Prod.snd := by
  rw [table_of_ofEntries h, Table.get?_ofList, List.filter_map, List.getLast?_map, Option.map_map]
  rfl

/-- **What counts in an extension** is the last declaration whose spelling is new to the registry.  If
there is none it is the declaration that was written over the entry of the registry, and if there is no
such declaration either it is that entry. -/
theorem get?_extend (h : r.extend x.entries = .ok r') (s : LooseText) :
    r'.table.get? s =
      ((spellings s (x.entries.filter (·.1 ∉ r.table.keys))).getLast?.map Prod.snd).or
        ((r.table.get? s).map fun c => (x.get? s).getD c) := by
  have hold : spellings s (r.table.entries.map fun e => (e.1, (x.get? e.1).getD e.2)) =
      (r.table.entries.map fun e => (e.1, (x.get? e.1).getD e.2)).filter (·.1 = s) := by
    refine List.filter_congr fun d hd => ?_
    obtain ⟨e, he, rfl⟩ := List.mem_map.1 hd
    rw [(kept_of_mem_keys (List.mem_map_of_mem he)).keptForm_eq]
  have hnodup : ((r.table.entries.map fun e => (e.1, (x.get? e.1).getD e.2)).map Prod.fst).Nodup := by
    rw [List.map_map]
    exact r.table.nodup
  rw [get?_of_ofEntries h, Table.entries_putAll, spellings, List.filter_append, List.getLast?_append,
    Option.map_or]
  change Option.or _ ((spellings s _).getLast?.map Prod.snd) = _
  rw [hold, Table.getLast?_filter_entries ⟨_, hnodup⟩ s]
  exact congrArg _ (Table.valueOf?_map (fun k c => (x.get? k).getD c) s _)

/-- A symbol that the registry does not have means what the declarations say by themselves. -/
theorem get?_extend_of_not_mem (h : r.extend x.entries = .ok r') (hs : s ∉ r.table.keys) :
    r'.table.get? s = (spellings s x.entries).getLast?.map Prod.snd := by
  rw [get?_extend h, spellings_filter_of_not_mem hs, Table.get?_eq_none_of_not_mem hs, Option.map_none,
    Option.or_none]

/-- A symbol that the registry has means what the last of its other spellings says. -/
theorem get?_extend_of_other (h : r.extend x.entries = .ok r') (hs : s ∈ r.table.keys)
    {d : LooseText × Connective} (hd : (otherSpellings s x.entries).getLast? = some d) :
    r'.table.get? s = some d.2 := by
  rw [get?_extend h, spellings_filter_of_mem hs, hd]
  rfl

/-- Without another spelling, the symbol itself takes the place of the entry of the registry. -/
theorem get?_extend_of_alone (h : r.extend x.entries = .ok r') (hs : s ∈ r.table.keys)
    (hother : otherSpellings s x.entries = []) (hspelled : spellings s x.entries ≠ []) :
    r'.table.get? s = (spellings s x.entries).getLast?.map Prod.snd := by
  obtain ⟨c, hc⟩ := Table.exists_get?_of_mem_keys hs
  rw [spellings_eq_filter hs hother] at hspelled
  have hwritten := Table.getLast?_filter_entries x s
  rw [List.getLast?_eq_some_getLast hspelled] at hwritten
  rw [get?_extend h, spellings_filter_of_mem hs, hother, hc, spellings_eq_filter hs hother,
    Table.getLast?_filter_entries, ← hwritten]
  rfl

/-! ## Looking up -/

theorem contains_iff : r.contains q = true ↔ Symbol.normalize q ∈ r.table.keys := by
  rw [contains, Option.isSome_iff_ne_none, Table.mem_keys_iff, lookup?]

theorem lookup_of_get? {c : Connective} (h : r.table.get? (Symbol.normalize q) = some c) :
    r.lookup q = .ok c := by
  rw [lookup, lookup?, h]

theorem lookup_congr (h : r.table.get? (Symbol.normalize q) = r'.table.get? (Symbol.normalize q)) :
    r.lookup q = r'.lookup q := by
  rw [lookup, lookup, lookup?, lookup?, h]

/-- **An extension overrides.**  Declarations that make a registry `own` extend every registry `r`.  A
symbol that was not declared is looked up as in `r`, and a symbol that was declared as in `own`, with one
exception: if `r` has the symbol, its spelling in `r` gives way to every other declared spelling, and the
last of these decides.  The symbols of `r` come first, in their order, and behind them the other declared
ones, each where it was declared first. -/
theorem extend_overrides {r own : Registry} {x : Table LooseText Connective}
    (h : ofEntries x.entries = .ok own) :
    ∃ r', r.extend x.entries = .ok r' ∧
      (∀ q, own.contains q = false → r'.lookup q = r.lookup q) ∧
      (∀ q, own.contains q = true →
        (r.contains q = true → Symbol.normalize q ∈ x.keys →
          otherSpellings (Symbol.normalize q) x.entries = []) → r'.lookup q = own.lookup q) ∧
      (∀ q d, r.contains q = true →
        (otherSpellings (Symbol.normalize q) x.entries).getLast? = some d → r'.lookup q = .ok d.2) ∧
      r'.table.keys =
        r.table.keys ++ ((keptForms x.entries).filter (· ∉ r.table.keys)).eraseDups := by
  obtain ⟨r', hr'⟩ := (exists_extend_iff (r := r)).2 (exists_ofEntries_iff.1 ⟨own, h⟩)
  refine ⟨r', hr', fun q hq => ?_, fun q hq halone => ?_, fun q d hq hd => ?_, ?_⟩
  · refine lookup_congr (get?_of_extend hr' fun hform => ?_)
    rw [← Bool.not_eq_true, contains_iff, keys_of_ofEntries h] at hq
    exact hq (mem_appendNew.2 (Or.inr hform))
  · refine lookup_congr ?_
    have hown := get?_of_ofEntries h (Symbol.normalize q)
    have hspelled : spellings (Symbol.normalize q) x.entries ≠ [] := by
      intro hnil
      rw [hnil] at hown
      exact Table.mem_keys_iff.1 (contains_iff.1 hq) hown
    rw [hown]
    by_cases hs : Symbol.normalize q ∈ r.table.keys
    · by_cases hx : Symbol.normalize q ∈ x.keys
      · exact get?_extend_of_alone hr' hs (halone (contains_iff.2 hs) hx) hspelled
      · have hlast := List.getLast?_eq_some_getLast hspelled
        rw [hlast]
        exact get?_extend_of_other hr' hs (by rw [otherSpellings_of_not_mem hx, hlast])
    · exact get?_extend_of_not_mem hr' hs
  · exact lookup_of_get? (get?_extend_of_other hr' (contains_iff.1 hq) hd)
  · rw [keys_of_extend hr', appendNew_eq_append_eraseDups]

/-- Declarations with two spellings of one symbol. -/
def respelled : Table LooseText Connective :=
  ⟨[("AND", .binary .or), (" ^", .binary .and), ("and", .binary .iff)], by decide⟩

/-- By themselves these declarations make `and` a biconditional, since it comes last.  In an extension
of the default registry `and` is written over the entry that is there, so that `AND` comes behind it and
makes it a disjunction. -/
theorem lookup_extend_ne_lookup : ∃ own r', ofEntries respelled.entries = .ok own ∧
    default.extend respelled.entries = .ok r' ∧ own.contains "and" = true ∧
    own.lookup "and" = .ok (.binary .iff) ∧ r'.lookup "and" = .ok (.binary .or) := by
  obtain ⟨own, hown, hiff⟩ := exists_ok_of_any (x := ofEntries respelled.entries)
    (p := fun own => own.lookup? "and" = some (.binary .iff)) (by decide +kernel)
  obtain ⟨r', hr', hor⟩ := exists_ok_of_any (x := default.extend respelled.entries)
    (p := fun r' => r'.lookup? "and" = some (.binary .or)) (by decide +kernel)
  have hlookup := of_decide_eq_true hiff
  exact ⟨own, r', hown, hr', by rw [contains, hlookup]; rfl, lookup_of_get? hlookup,
    lookup_of_get? (of_decide_eq_true hor)⟩

/-- In the extension of the default registry by these declarations `AND` decides over `and`, the new
symbol means what it was declared to mean, the others are left as they were, and the new symbol comes
last. -/
theorem extend_overrides_respelled : ∃ r', default.extend respelled.entries = .ok r' ∧
    r'.lookup "And" = .ok (.binary .or) ∧ r'.lookup "^" = .ok (.binary .and) ∧
    r'.lookup "or" = default.lookup "or" ∧ r'.table.keys = default.table.keys ++ [.ofString "^"] := by
  obtain ⟨own, hown, htest⟩ := exists_ok_of_any (x := ofEntries respelled.entries)
    (p := fun own => own.lookup? "^" = some (.binary .and) ∧ own.contains "or" = false)
    (by decide +kernel)
  obtain ⟨hnew, hold⟩ := of_decide_eq_true htest
  have hkeys : ((keptForms respelled.entries).filter (· ∉ default.table.keys)).eraseDups =
      [.ofString "^"] := by
    decide +kernel
  obtain ⟨r', hr', hundeclared, hdeclared, hother, hkeys'⟩ := extend_overrides (r := default) hown
  refine ⟨r', hr', hother "And" ("AND", .binary .or) (by decide +kernel) (by decide +kernel), ?_,
    hundeclared "or" hold, hkeys'.trans (by rw [hkeys])⟩
  have hcontains : own.contains "^" = true := by rw [contains, hnew]; rfl
  have hnone : default.contains "^" = false := by decide +kernel
  exact (hdeclared "^" hcontains fun h => by rw [hnone] at h; cases h).trans (lookup_of_get? hnew)

end Registry

end SequentCalculus
