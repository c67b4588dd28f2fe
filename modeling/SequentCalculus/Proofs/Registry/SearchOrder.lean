import SequentCalculus.Proofs.Registry.Extension

/-!
# Proofs/Registry/SearchOrder — reading does not depend on the order of the symbols

A scanner tries the symbols one after the other and takes the first that fits.  The symbols come out of
a set, sorted by length and by nothing else, so those of equal length may stand in any order
(`Token.SearchOrder`).  The order is not felt: two symbols of one length that fit at the same place are
the same symbol, so the first that fits is the one that is longer than all others that fit
(`Token.symbolFront?_eq_some_iff`).

A registry likewise answers by its mapping and not by the order of its table.  Registries of the same
meaning look for the same symbols and give them the same tokens, and both together are all that a
scanner asks for (`Token.scanWith_congr`).
-/

namespace SequentCalculus

/-! ## Registries of the same meaning -/

namespace Registry

variable {r q : Registry}

theorem sameMeaning_refl (r : Registry) : r.sameMeaning r = true :=
  Table.sameEntries_iff.2 fun _ => rfl

theorem lookup?_of_sameMeaning (h : r.sameMeaning q = true) : r.lookup? = q.lookup? :=
  funext fun _ => Table.sameEntries_iff.1 h _

/-- Registries of the same meaning look for the same symbols. -/
theorem mem_sought_of_sameMeaning (h : r.sameMeaning q = true) (s : LooseText) :
    s ∈ r.sought ↔ s ∈ q.sought := by
  have hkeys : s ∈ r.table.keys ↔ s ∈ q.table.keys := by
    rw [Table.mem_keys_iff, Table.mem_keys_iff, Table.sameEntries_iff.1 h s]
  simp only [sought, List.mem_append, mem_operators, hkeys]

end Registry

namespace Token

open Registry

variable {r q : Registry} {ss us : List LooseText} {c : Text.Code} {cs : LooseText}

/-! ## The longest symbol in front -/

/-- An order in which the symbols may be tried: all that are looked for, each once, and none before a
longer one. -/
structure SearchOrder (r : Registry) (ss : List LooseText) : Prop where
  nodup : ss.Nodup
  mem_iff : ∀ s, s ∈ ss ↔ s ∈ r.sought
  longestFirst : ss.Pairwise fun a b => b.length ≤ a.length

theorem searchOrder_symbols (r : Registry) : SearchOrder r (symbols r) where
  nodup := by
    have hoperators : r.operators.Nodup :=
      (Symbol.perm_longestFirst _).nodup_iff.2 (r.table.nodup.filter _)
    exact (Symbol.perm_longestFirst _).nodup_iff.2 (nodup_appendNew hoperators)
  mem_iff _ := mem_sought.symm
  longestFirst := pairwise_symbols r

/-- A symbol that is looked for fits, and all others that fit are shorter. -/
structure IsLongest (r : Registry) (cs : LooseText) (s : LooseText) : Prop where
  sought : s ∈ r.sought
  fits : s <+: cs
  longest : ∀ t ∈ r.sought, t <+: cs → t ≠ s → t.length < s.length

theorem IsLongest.unique {s t : LooseText} (hs : IsLongest r cs s) (ht : IsLongest r cs t) : s = t := by
  by_contra hne
  have hlt := ht.longest s hs.sought hs.fits hne
  have hgt := hs.longest t ht.sought ht.fits (Ne.symm hne)
  omega

/-- **The first symbol that fits is the longest, in whatever order they are tried.** -/
theorem symbolFront?_eq_some_iff (h : SearchOrder r ss) {s : LooseText} :
    symbolFront? ss cs = some s ↔ IsLongest r cs s := by
  constructor
  · intro hfront
    obtain ⟨hs, hfits⟩ := symbolFront?_eq_some_imp hfront
    refine ⟨(h.mem_iff s).1 hs, hfits, fun t ht htfits hne => ?_⟩
    -- the order leaves only symbols of equal length to choose from, and of those one alone fits
    have hle := length_le_of_symbolFront? h.longestFirst hfront ((h.mem_iff t).2 ht) htfits
    exact lt_of_le_of_ne hle fun hlength => hne (eq_of_fits htfits hfits hlength)
  · intro hs
    refine symbolFront?_eq_some h.longestFirst ((h.mem_iff s).2 hs.sought) hs.fits fun t ht hfits => ?_
    by_cases heq : t = s
    · exact Nat.le_of_eq (congrArg List.length heq)
    · exact Nat.le_of_lt (hs.longest t ((h.mem_iff t).1 ht) hfits heq)

theorem symbolFront?_eq_none_iff (h : SearchOrder r ss) :
    symbolFront? ss cs = none ↔ ∀ s ∈ r.sought, ¬ s <+: cs := by
  simp only [symbolFront?, List.find?_eq_none, List.isPrefixOf_iff_prefix, h.mem_iff]

theorem isLongest_congr (h : ∀ s, s ∈ r.sought ↔ s ∈ q.sought) {s : LooseText} :
    IsLongest r cs s ↔ IsLongest q cs s := by
  constructor
  · exact fun hs => ⟨(h s).1 hs.sought, hs.fits, fun t ht => hs.longest t ((h t).2 ht)⟩
  · exact fun hs => ⟨(h s).2 hs.sought, hs.fits, fun t ht => hs.longest t ((h t).1 ht)⟩

/-- Two orders for the same symbols find the same symbol in front. -/
theorem symbolFront?_of_searchOrder (h : ∀ s, s ∈ r.sought ↔ s ∈ q.sought) (hss : SearchOrder r ss)
    (hus : SearchOrder q us) (cs : LooseText) : symbolFront? ss cs = symbolFront? us cs := by
  refine Option.ext fun s => ?_
  rw [symbolFront?_eq_some_iff hss, symbolFront?_eq_some_iff hus, isLongest_congr h]

/-! ## The whole scan -/

/-- **A scanner asks for the meaning of names and symbols and for the symbol in front, and for nothing
else.** -/
theorem scanWith_congr (hlookup : r.lookup? = q.lookup?)
    (hfront : ∀ cs, symbolFront? ss cs = symbolFront? us cs) (cs : LooseText) :
    scanWith r ss cs = scanWith q us cs := by
  have hname : ∀ name, ofName r name = ofName q name := fun name => by
    rw [ofName, ofName, hlookup]
  have hsymbol : ∀ s, ofSymbol r s = ofSymbol q s := fun s => by
    rw [ofSymbol, ofSymbol, hlookup]
  fun_induction scanWith r ss cs with
  | case1 => rw [scanWith]
  | case2 c cs hblank ih => rw [scanWith_blank hblank, ih]
  | case3 c cs _ t ht ih => rw [scanWith_punctuation ht, ih]
  | case4 c cs _ _ hstart name =>
    rename_i ih
    rw [scanWith_name hstart, hname, ih]
  | case5 c cs hblank hpunctuation hstart s hs ih =>
    rw [scanWith_symbol (.of_not hblank hpunctuation hstart) ((hfront _).symm.trans hs), hsymbol, ih]
  | case6 c cs hblank hpunctuation hstart hs =>
    rw [scanWith_error (.of_not hblank hpunctuation hstart) ((hfront _).symm.trans hs)]

theorem scanWith_of_searchOrder (h : r.sameMeaning q = true) (hss : SearchOrder r ss)
    (hus : SearchOrder q us) (cs : LooseText) : scanWith r ss cs = scanWith q us cs :=
  scanWith_congr (lookup?_of_sameMeaning h)
    (symbolFront?_of_searchOrder (mem_sought_of_sameMeaning h) hss hus) cs

/-! ## The places that a scanner comes to -/

/-- **At every place that the scanner comes to it has cut what lies before into tokens**, and what it
gives for the text are these tokens and what it gives from this place on. -/
theorem Reaches.exists_before {ds : LooseText} (h : Reaches r cs ds) : ∃ before,
    scanWith r (symbols r) cs = (scanWith r (symbols r) ds).map (before ++ ·) := by
  induction h with
  | start => exact ⟨[], (Spells.nil : Spells r [] [] _)⟩
  | blank hblank _ ih =>
    rw [scanWith_blank hblank]
    exact ih
  | @punctuation c cs ds hpunctuation _ ih =>
    obtain ⟨before, ih⟩ := ih
    obtain ⟨t, ht⟩ : ∃ t, punctuation? c = some t := by
      refine Option.ne_none_iff_exists'.1 fun hnone => ?_
      rw [punctuation?_eq_none_iff, hpunctuation] at hnone
      cases hnone
    exact ⟨t :: before, by rw [scanWith_punctuation ht, ih]; exact map_map_outcome _ _ _⟩
  | name hname _ ih =>
    obtain ⟨before, ih⟩ := ih
    exact ⟨_ :: before, by rw [scanWith_name hname, ih]; exact map_map_outcome _ _ _⟩
  | symbol hstart hfront _ ih =>
    obtain ⟨before, ih⟩ := ih
    exact ⟨_ :: before, by rw [scanWith_symbol hstart hfront, ih]; exact map_map_outcome _ _ _⟩

/-- **Reading depends on a registry only through what its symbols mean**, and not on the order of its
table or on the order in which symbols of equal length are tried: any two registries of the same
meaning, with any two such orders, give a text the same tokens and the same sequent, or the same error.
At every place of a text where a symbol has to start, the token that is taken is that of the longest
symbol in front; it is the only longest one, and if no symbol fits the text is refused there. -/
theorem scan_independent_of_order {r q : Registry} (h : r.sameMeaning q = true) {ss us : List LooseText}
    (hss : SearchOrder r ss) (hus : SearchOrder q us) (text : LooseText) :
    scanWith r ss text = scanWith q us text ∧
    scan r text = scanWith r ss text ∧ scan q text = scanWith q us text ∧
    Sequent.ofText r text = Sequent.ofText q text ∧
    ∀ c cs, Reaches r text (c :: cs) → StartsSymbol c →
      (∃ s before, IsLongest r (c :: cs) s ∧ (∀ t, IsLongest r (c :: cs) t → t = s) ∧
        scanWith r ss text =
          (scanWith r ss ((c :: cs).drop s.length)).map (before ++ ofSymbol r s :: ·)) ∨
      (∀ s ∈ r.sought, ¬ s <+: c :: cs) ∧
        scanWith r ss text = .error (scanError c cs) := by
  have hsame : ∀ cs, scanWith r (symbols r) cs = scanWith r ss cs :=
    scanWith_of_searchOrder (sameMeaning_refl r) (searchOrder_symbols r) hss
  have hscan : scan r text = scan q text :=
    scanWith_of_searchOrder h (searchOrder_symbols r) (searchOrder_symbols q) _
  refine ⟨scanWith_of_searchOrder h hss hus _, hsame _,
    scanWith_of_searchOrder (sameMeaning_refl q) (searchOrder_symbols q) hus _,
    by rw [Sequent.ofText, Sequent.ofText, hscan], fun c cs hreaches hc => ?_⟩
  obtain ⟨before, hbefore⟩ := hreaches.exists_before
  rw [hsame, hsame] at hbefore
  rcases hfront : symbolFront? ss (c :: cs) with _ | s
  · refine Or.inr ⟨(symbolFront?_eq_none_iff hss).1 hfront, ?_⟩
    rw [hbefore, scanWith_error hc hfront]
    rfl
  · have hs := (symbolFront?_eq_some_iff hss).1 hfront
    have hdrop : (c :: cs).drop s.length = cs.drop (s.length - 1) := by
      have hpos : 0 < s.length :=
        List.length_pos_of_ne_nil (kept_of_mem_symbols (mem_sought.1 hs.sought)).ne_nil
      rw [← Nat.sub_add_cancel hpos, List.drop_succ_cons, Nat.add_sub_cancel]
    refine Or.inl ⟨s, before, hs, fun t ht => ht.unique hs, ?_⟩
    rw [hbefore, scanWith_symbol hc hfront, hdrop]
    exact map_map_outcome _ _ _

/-- Symbols that overlap each other and a turnstile. -/
def overlappingEntries : List (LooseText × Connective) :=
  [("-", .not), ("|", .binary .or), ("|-|", .binary .and), ("=>", .binary .implies)]

theorem accepted_overlapping {s : LooseText} (h : s ∈ overlappingEntries.map Prod.fst) :
    ∃ declared, Symbol.accept declared = .ok s := by
  have hall : ∀ s ∈ overlappingEntries.map Prod.fst, (Symbol.accept s).toOption = some s := by
    decide +kernel
  exact ⟨s, eq_ok_of_toOption (hall s h)⟩

/-- The registry of these symbols. -/
def overlapping : Registry where
  table := ⟨overlappingEntries, by decide⟩
  accepted _ := accepted_overlapping

/-- The same symbols, the last one first. -/
def overlappingReversed : Registry where
  table := ⟨overlappingEntries.reverse, by decide⟩
  accepted s hs := by
    have hmem : s ∈ (overlappingEntries.map Prod.fst).reverse := hs
    exact accepted_overlapping (List.mem_reverse.1 hmem)

/-- With the tables in opposite orders, and with symbols of equal length in opposite orders, a text is
cut alike.  Behind `p` three symbols fit, and the longest is taken. -/
theorem scan_independent_of_order_overlapping :
    let text : LooseText := "p|-|q |- -p"
    let ss : List LooseText := ["|-|", "|-", "->", "=>", "⊢", "-", "|"]
    let us : List LooseText := ["|-|", "=>", "->", "|-", "|", "-", "⊢"]
    overlapping.operators ≠ overlappingReversed.operators ∧
    scanWith overlapping ss text = scanWith overlappingReversed us text ∧
    scan overlapping text = scanWith overlapping ss text ∧
    ∃ before, scanWith overlapping ss text =
      (scanWith overlapping ss "q |- -p").map
        (before ++ ⟨.connective (.binary .and), "|-|"⟩ :: ·) := by
  intro text ss us
  have horders : ∀ r ∈ [overlapping, overlappingReversed], ∀ order ∈ [ss, us],
      SearchOrder r order := by
    have hmem : ∀ r ∈ [overlapping, overlappingReversed], ∀ order ∈ [ss, us],
        (∀ s ∈ order, s ∈ r.sought) ∧ ∀ s ∈ r.sought, s ∈ order := by decide +kernel
    have hsorted : ∀ order ∈ [ss, us],
        order.Nodup ∧ order.Pairwise fun a b => b.length ≤ a.length := by decide +kernel
    exact fun r hr order horder => ⟨(hsorted order horder).1,
      fun s => ⟨(hmem r hr order horder).1 s, (hmem r hr order horder).2 s⟩,
      (hsorted order horder).2⟩
  have hlongest : IsLongest overlapping "|-|q |- -p" "|-|" :=
    ⟨by decide +kernel, by decide +kernel, by decide +kernel⟩
  have htext : text = .char 'p' :: LooseText.ofString "|-|q |- -p" := by decide +kernel
  have hreaches : Reaches overlapping text (LooseText.nameRest text) := by
    rw [htext]
    exact .name (by decide +kernel) .start
  have hrest : LooseText.nameRest text = "|-|q |- -p" := by decide +kernel
  rw [hrest] at hreaches
  obtain ⟨hsame, hscan, -, -, hplaces⟩ := scan_independent_of_order (r := overlapping)
    (q := overlappingReversed) (by decide +kernel) (horders _ (by simp) ss (by simp))
    (horders _ (by simp) us (by simp)) text
  refine ⟨by decide +kernel, hsame, hscan, ?_⟩
  rcases hplaces (.char '|') "-|q |- -p" hreaches ⟨by decide, by decide, by decide +kernel⟩ with
    ⟨s, before, -, hunique, htoken⟩ | ⟨hnone, -⟩
  · obtain rfl := hunique _ hlongest
    exact ⟨before, htoken⟩
  · exact absurd hlongest.fits (hnone _ hlongest.sought)

end Token

end SequentCalculus
