import Mathlib.Data.List.Infix
import SequentCalculus.Proofs.Reading.Scanning
import SequentCalculus.Registry.Writer
import SequentCalculus.Sequent.Reader

/-!
# Proofs/Registry/Extension — further symbols do not disturb what does without them

Extending a registry merges the declared symbols into its table and accepts the whole table anew.
Symbols that are kept already are accepted as they are (`Symbol.Kept.keptForm_eq`), so the symbols of
the registry stay where they are (`keys_prefix_of_extend`), and away from the declared symbols nothing
is looked up differently (`lookup?_of_extend`).

A scanner asks the registry for the meaning of a name and for the longest symbol in front, and for
nothing else.  In a text without declared symbols both answers stay the same at every place that the
scanner comes to (`Token.Reaches`), also in front of an error (`scanWith_of_extend`).  A writer asks for
the first symbol of a connective, which stays the first because new entries come behind
(`symbolFor_of_prefix`).
-/

namespace SequentCalculus

/-! ## Accepting symbols -/

namespace Symbol

/-- The form under which a declared symbol is kept, whether or not it may be declared.  Irreducible
because unification would otherwise run the trimming. -/
@[irreducible] def keptForm (declared : LooseText) : LooseText := normalize declared.trim

theorem eq_keptForm_of_accept {declared s : LooseText} (h : accept declared = .ok s) :
    s = keptForm declared := by
  simp only [accept] at h
  split at h
  · cases h
  · rw [keptForm]
    exact (Except.ok.inj h).symm

theorem Kept.keptForm_eq {s : LooseText} (h : Kept s) : keptForm s = s := by
  rw [keptForm, LooseText.trim, Text.trimEnds_of_ends h.start h.stop, h.normal]

end Symbol

namespace Registry

open Token

variable {r r' : Registry} {declared : List (LooseText × Connective)}

/-- The forms under which declared symbols are kept, whatever they are declared to mean. -/
def keptForms {ν : Type} (declared : List (LooseText × ν)) : List LooseText :=
  declared.map fun d => Symbol.keptForm d.1

theorem acceptEntries_eq_map {entries : List (LooseText × Connective)}
    (h : acceptEntries declared = .ok entries) :
    entries = declared.map fun d => (Symbol.keptForm d.1, d.2) := by
  induction declared generalizing entries with
  | nil => exact (Except.ok.inj h).symm
  | cons d declared ih =>
    obtain ⟨text, c⟩ := d
    simp only [acceptEntries] at h
    split at h
    · cases h
    · rename_i s hs
      split at h
      · cases h
      · rename_i rest hrest
        obtain rfl := Except.ok.inj h
        rw [List.map_cons, ← ih hrest, ← Symbol.eq_keptForm_of_accept hs]

theorem table_of_ofEntries (h : ofEntries declared = .ok r) :
    r.table = Table.ofList (declared.map fun d => (Symbol.keptForm d.1, d.2)) := by
  unfold ofEntries at h
  split at h
  · cases h
  · rename_i entries hentries
    obtain rfl := Except.ok.inj h
    rw [← acceptEntries_eq_map hentries]

theorem keys_of_ofEntries (h : ofEntries declared = .ok r) :
    r.table.keys = distinct (keptForms declared) := by
  rw [table_of_ofEntries h, Table.ofList, Table.keys_putAll, List.map_map]
  rfl

/-! ## Declared meanings -/

/-- The connective that is meant; if none is, any will do. -/
def Meaning.asConnective : Meaning → Connective
  | connective c => c
  | other _ => .not

theorem checkMeanings_eq_map {meanings : List (LooseText × Meaning)}
    (h : checkMeanings meanings = .ok declared) :
    declared = meanings.map fun d => (d.1, d.2.asConnective) := by
  induction meanings generalizing declared with
  | nil => exact (Except.ok.inj h).symm
  | cons d meanings ih =>
    obtain ⟨symbol, c | value⟩ := d
    · simp only [checkMeanings] at h
      split at h
      · cases h
      · obtain ⟨rest, hrest, rfl⟩ := exists_of_map_eq_ok h
        rw [ih hrest, List.map_cons]
        rfl
    · cases h

/-- **A registry that takes some declarations takes their connectives.**  A value that is no connective
can only be there if a later one stands in its place. -/
theorem extend_of_extendMeanings {meanings : List (LooseText × Meaning)}
    (h : r.extendMeanings meanings = .ok r') :
    r.extend (meanings.map fun d => (d.1, d.2.asConnective)) = .ok r' := by
  obtain ⟨merged, hmerged, h⟩ := exists_of_bind_eq_ok h
  have hself : (r.table.mapValues Meaning.connective).mapValues Meaning.asConnective = r.table := by
    refine Table.eq_of_entries ?_
    simp only [Table.mapValues, List.map_map]
    exact List.map_id _
  have hentries : merged =
      (r.table.putAll (meanings.map fun d => (d.1, d.2.asConnective))).entries := by
    have hput := Table.mapValues_putAll Meaning.asConnective
      (r.table.mapValues Meaning.connective) meanings
    rw [hself] at hput
    rw [checkMeanings_eq_map hmerged, ← hput]
    rfl
  rw [extend, ← hentries]
  exact h

/-! ## The table of an extension -/

/-- **The symbols of a registry come first in an extension, in their order, and behind them the declared
ones, each at its first occurrence.** -/
theorem keys_of_extend (h : r.extend declared = .ok r') :
    r'.table.keys = appendNew r.table.keys (keptForms declared) := by
  have hkept : r.table.keys.map Symbol.keptForm = r.table.keys :=
    (List.map_congr_left fun s hs => (kept_of_mem_keys hs).keptForm_eq).trans (List.map_id _)
  have hforms : keptForms (r.table.putAll declared).entries =
      (appendNew r.table.keys (declared.map Prod.fst)).map Symbol.keptForm := by
    rw [← Table.keys_putAll]
    exact (List.map_map ..).symm
  -- the second pass meets the old keys first, unchanged and without repetition
  have hfirst : distinct r.table.keys = r.table.keys := appendNew_of_nodup r.table.nodup
  rw [keys_of_ofEntries h, hforms, distinct_map_appendNew, hkept, hfirst, List.map_map]
  rfl

theorem keys_prefix_of_extend (h : r.extend declared = .ok r') : r.table.keys <+: r'.table.keys :=
  keys_of_extend h ▸ prefix_appendNew _ _

/-- An entry of an extension was there before, or its symbol was declared. -/
theorem mem_entries_of_extend (h : r.extend declared = .ok r') {e : LooseText × Connective}
    (he : e ∈ r'.table.entries) : e ∈ r.table.entries ∨ e.1 ∈ keptForms declared := by
  rw [table_of_ofEntries h] at he
  obtain ⟨d, hd, rfl⟩ := List.mem_map.1 (Table.mem_of_mem_ofList he)
  rcases Table.mem_entries_putAll hd with hd | hd
  · have hkept := (kept_of_mem_keys (List.mem_map_of_mem hd)).keptForm_eq
    exact Or.inl (by rwa [hkept])
  · exact Or.inr (List.mem_map_of_mem hd)

/-- **Away from the declared symbols nothing is looked up differently.** -/
theorem get?_of_extend (h : r.extend declared = .ok r') {s : LooseText} (hs : s ∉ keptForms declared) :
    r'.table.get? s = r.table.get? s := by
  have hback : ∀ c, r'.table.get? s = some c → r.table.get? s = some c := fun c hc =>
    Table.get?_eq_some_iff.2
      ((mem_entries_of_extend h (Table.get?_eq_some_iff.1 hc)).resolve_right hs)
  match hget : r'.table.get? s with
  | some c => exact (hback c hget).symm
  | none =>
    refine (Table.get?_eq_none_of_not_mem fun hmem => ?_).symm
    obtain ⟨c, hc⟩ := Table.exists_get?_of_mem_keys ((keys_prefix_of_extend h).subset hmem)
    rw [hget] at hc
    cases hc

theorem lookup?_of_extend (h : r.extend declared = .ok r') {name : LooseText}
    (hname : Symbol.normalize name ∉ keptForms declared) : r'.lookup? name = r.lookup? name :=
  get?_of_extend h hname

/-! ## The symbols that are looked for -/

theorem mem_symbols_extend (h : r.extend declared = .ok r') {s : LooseText} (hs : s ∈ symbols r) :
    s ∈ symbols r' := by
  rw [mem_symbols, mem_operators] at hs ⊢
  exact hs.imp_left fun hs => ⟨(keys_prefix_of_extend h).subset hs.1, hs.2⟩

theorem mem_symbols_of_extend (h : r.extend declared = .ok r') {s : LooseText} (hs : s ∈ symbols r') :
    s ∈ symbols r ∨ s ∈ keptForms declared ∧ s.isWord = false := by
  rw [mem_symbols, mem_operators] at hs ⊢
  rcases hs with ⟨hkey, hword⟩ | hs
  · obtain ⟨e, he, rfl⟩ := List.mem_map.1 hkey
    rcases mem_entries_of_extend h he with he | he
    · exact Or.inl (Or.inl ⟨List.mem_map_of_mem he, hword⟩)
    · exact Or.inr ⟨he, hword⟩
  · exact Or.inl (Or.inr hs)

theorem isWord_of_mem_symbols {s : LooseText} (hs : s ∈ symbols r) : s.isWord = false := by
  rcases mem_symbols.1 hs with hs | hs | rfl
  · exact (mem_operators.1 hs).2
  · have hall : ∀ s ∈ turnstiles, s.isWord = false := by decide +kernel
    exact hall s hs
  · decide +kernel

/-- No declared symbol that is looked for stands in front of the characters. -/
def Avoids (declared : List (LooseText × Connective)) (cs : LooseText) : Prop :=
  ∀ s ∈ keptForms declared, s.isWord = false → ¬ s <+: cs

/-- **The longest symbol in front stays the longest.** -/
theorem symbolFront?_of_extend (h : r.extend declared = .ok r') {cs : LooseText}
    (hcs : Avoids declared cs) : symbolFront? (symbols r') cs = symbolFront? (symbols r) cs := by
  have hold : ∀ s ∈ symbols r', s <+: cs → s ∈ symbols r := fun s hs hfits =>
    (mem_symbols_of_extend h hs).resolve_right fun hnew => hcs s hnew.1 hnew.2 hfits
  match hfront : symbolFront? (symbols r) cs with
  | some s =>
    obtain ⟨hs, hfits⟩ := symbolFront?_eq_some_imp hfront
    exact symbolFront?_eq_some (pairwise_symbols r') (mem_symbols_extend h hs) hfits fun q hq hqfits =>
      length_le_of_symbolFront? (pairwise_symbols r) hfront (hold q hq hqfits) hqfits
  | none =>
    refine List.find?_eq_none.2 fun s hs hfits => ?_
    have hs := hold s hs (List.isPrefixOf_iff_prefix.1 hfits)
    exact List.find?_eq_none.1 hfront s hs hfits

theorem ofName_of_extend (h : r.extend declared = .ok r') {name : LooseText}
    (hname : Symbol.normalize name ∉ keptForms declared) : ofName r' name = ofName r name := by
  rw [ofName, ofName, lookup?_of_extend h hname]

theorem ofSymbol_of_extend (h : r.extend declared = .ok r') {cs : LooseText} {s : LooseText}
    (hcs : Avoids declared cs) (hfront : symbolFront? (symbols r) cs = some s) :
    ofSymbol r' s = ofSymbol r s := by
  obtain ⟨hs, hfits⟩ := symbolFront?_eq_some_imp hfront
  have hnew : s ∉ keptForms declared := fun hmem => hcs s hmem (isWord_of_mem_symbols hs) hfits
  rw [ofSymbol, ofSymbol, lookup?_of_extend h (by rwa [(kept_of_mem_symbols hs).normal])]

end Registry

/-! ## The places that a scanner comes to -/

namespace Token

/-- A scanner that starts at some characters comes to a place behind them: it goes over blanks and
punctuation one by one, over a name and over the longest symbol as a whole. -/
inductive Reaches (r : Registry) : LooseText → LooseText → Prop where
  | start {cs : LooseText} : Reaches r cs cs
  | blank {c : Text.Code} {cs ds : LooseText} :
      c.isBlank = true → Reaches r cs ds → Reaches r (c :: cs) ds
  | punctuation {c : Text.Code} {cs ds : LooseText} :
      isPunctuation c = true → Reaches r cs ds → Reaches r (c :: cs) ds
  | name {c : Text.Code} {cs ds : LooseText} :
      c.isNameStart = true → Reaches r (LooseText.nameRest (c :: cs)) ds → Reaches r (c :: cs) ds
  | symbol {c : Text.Code} {cs ds : LooseText} {s : LooseText} :
      StartsSymbol c → symbolFront? (symbols r) (c :: cs) = some s →
      Reaches r (cs.drop (s.length - 1)) ds → Reaches r (c :: cs) ds

theorem Reaches.suffix {r : Registry} {cs ds : LooseText} (h : Reaches r cs ds) : ds <:+ cs := by
  induction h with
  | start => exact List.suffix_refl _
  | blank _ _ ih => exact ih.trans (List.suffix_cons _ _)
  | punctuation _ _ ih => exact ih.trans (List.suffix_cons _ _)
  | @name c cs ds _ _ ih => exact ih.trans ⟨_, LooseText.nameFront_append_nameRest (c :: cs)⟩
  | symbol _ _ _ ih => exact ih.trans ((List.drop_suffix _ _).trans (List.suffix_cons _ _))

end Token

namespace Registry

open Token

variable {r r' : Registry} {declared : List (LooseText × Connective)}

/-- **The tokens of the characters stay the same**, and so does the error if there is one: the
scanner asks for the meaning of a name and for the longest symbol in front, and at each place that it
comes to the answers are those of the registry that was extended. -/
theorem scanWith_of_extend (h : r.extend declared = .ok r') {cs : LooseText}
    (hsymbols : ∀ ds, Reaches r cs ds → Avoids declared ds)
    (hnames : ∀ ds, Reaches r cs ds → LooseText.nameFront ds ≠ [] →
      Symbol.normalize (LooseText.nameFront ds) ∉ keptForms declared) :
    scanWith r' (symbols r') cs = scanWith r (symbols r) cs := by
  -- along the scan under `r`: what is reached from the next place is reached from this one
  fun_induction scanWith r (symbols r) cs with
  | case1 => rw [scanWith]
  | case2 c cs hblank ih =>
    rw [scanWith_blank hblank]
    exact ih (fun ds hds => hsymbols ds (.blank hblank hds))
      fun ds hds => hnames ds (.blank hblank hds)
  | case3 c cs hblank t ht ih =>
    have hpunctuation : isPunctuation c = true := by
      by_contra hnot
      rw [punctuation?_eq_none_iff.2 (Bool.eq_false_iff.2 hnot)] at ht
      cases ht
    rw [scanWith_punctuation ht, ih (fun ds hds => hsymbols ds (.punctuation hpunctuation hds))
      fun ds hds => hnames ds (.punctuation hpunctuation hds)]
  | case4 c cs hblank hpunctuation hname name ih =>
    have hne : LooseText.nameFront (c :: cs) ≠ [] := by
      rw [LooseText.nameFront, if_pos hname]
      exact List.cons_ne_nil _ _
    rw [scanWith_name hname, ofName_of_extend h (hnames _ .start hne),
      ih (fun ds hds => hsymbols ds (.name hname hds)) fun ds hds => hnames ds (.name hname hds)]
  | case5 c cs hblank hpunctuation hname s hfront ih =>
    have hstart : StartsSymbol c := .of_not hblank hpunctuation hname
    have havoids := hsymbols _ .start
    rw [scanWith_symbol hstart ((symbolFront?_of_extend h havoids).trans hfront),
      ofSymbol_of_extend h havoids hfront,
      ih (fun ds hds => hsymbols ds (.symbol hstart hfront hds))
        fun ds hds => hnames ds (.symbol hstart hfront hds)]
  | case6 c cs hblank hpunctuation hname hfront =>
    exact scanWith_error (.of_not hblank hpunctuation hname)
      ((symbolFront?_of_extend h (hsymbols _ .start)).trans hfront)

/-! ## Writing -/

/-- A registry whose entries come first in another writes as the other does. -/
theorem symbolFor_of_prefix (h : r.entries <+: r'.entries) {c : Connective} {p : LooseText}
    (hp : r.symbolFor c = .ok p) : r'.symbolFor c = .ok p := by
  obtain ⟨more, hmore⟩ := h
  rw [symbolFor] at hp
  rw [symbolFor, ← hmore, List.find?_append]
  split at hp
  · rename_i e he
    rw [he, Option.some_or]
    exact hp
  · cases hp

theorem writeFormula_of_prefix (h : r.entries <+: r'.entries) {nested : Bool} {f : Formula}
    {text : LooseText} (hwritten : r.writeFormula nested f = .ok text) :
    r'.writeFormula nested f = .ok text := by
  induction f generalizing nested text with
  | atom name => exact hwritten
  | neg f ih =>
    obtain ⟨symbol, hsymbol, hwritten⟩ := exists_of_bind_eq_ok hwritten
    obtain ⟨inner, hinner, hwritten⟩ := exists_of_bind_eq_ok hwritten
    rw [writeFormula, symbolFor_of_prefix h hsymbol, ih hinner]
    exact hwritten
  | bin op f g ihf ihg =>
    obtain ⟨symbol, hsymbol, hwritten⟩ := exists_of_bind_eq_ok hwritten
    obtain ⟨left, hleft, hwritten⟩ := exists_of_bind_eq_ok hwritten
    obtain ⟨right, hright, hwritten⟩ := exists_of_bind_eq_ok hwritten
    rw [writeFormula, symbolFor_of_prefix h hsymbol, ihf hleft, ihg hright]
    exact hwritten

theorem entries_prefix_of_extend (h : r.extend declared = .ok r')
    (hkeeps : ∀ e ∈ r.entries, r'.lookup? e.1 = some e.2) : r.entries <+: r'.entries := by
  refine Table.entries_prefix (keys_prefix_of_extend h) fun e he => ?_
  have hnormal := (kept_of_mem_keys (List.mem_map_of_mem he)).normal
  have hlookup := hkeeps e he
  rwa [lookup?, hnormal] at hlookup

/-- **Extending a registry is conservative.**  A text that holds no declared symbol, and in which the
scanner meets no name that was declared, has the tokens and the sequent, or the error, that it had
before.  If the symbols of the registry keep their meanings, every formula that could be written is
written as before. -/
theorem extend_conservative {r r' : Registry} {declared : List (LooseText × Meaning)}
    (h : r.extendMeanings declared = .ok r') :
    (∀ text : LooseText,
      (∀ s ∈ keptForms declared, s.isWord = false → ¬ s <:+: text) →
      (∀ ds, Reaches r text ds → LooseText.nameFront ds ≠ [] →
        Symbol.normalize (LooseText.nameFront ds) ∉ keptForms declared) →
      scan r' text = scan r text ∧ Sequent.ofText r' text = Sequent.ofText r text) ∧
    ((∀ e ∈ r.entries, r'.lookup? e.1 = some e.2) →
      ∀ nested f text, r.writeFormula nested f = .ok text → r'.writeFormula nested f = .ok text) := by
  have hextend := extend_of_extendMeanings h
  have hforms : keptForms (declared.map fun d => (d.1, d.2.asConnective)) = keptForms declared :=
    List.map_map ..
  refine ⟨fun text hsymbols hnames => ?_, fun hkeeps nested f text hwritten =>
    writeFormula_of_prefix (entries_prefix_of_extend hextend hkeeps) hwritten⟩
  rw [← hforms] at hsymbols hnames
  have havoids : ∀ ds, Reaches r text ds → Avoids _ ds :=
    fun ds hds s hs hword hfits => hsymbols s hs hword (hfits.isInfix.trans hds.suffix.isInfix)
  have hscan : scan r' text = scan r text := scanWith_of_extend hextend havoids hnames
  exact ⟨hscan, by rw [Sequent.ofText, Sequent.ofText, hscan]⟩

/-- A symbol and a word to declare. -/
def aliases : List (LooseText × Meaning) :=
  [(" ^ ", .connective (.binary .and)), ("V", .connective (.binary .or))]

/-- With a new symbol and a new word, names that only hold the letter are atoms as before, an unknown
symbol is the same error, and conjunctions are written as before. -/
theorem extend_conservative_aliases : ∃ r', default.extendMeanings aliases = .ok r' ∧
    Sequent.ofText r' "Vase & ~over |- vase, (p -> q)" =
      Sequent.ofText default "Vase & ~over |- vase, (p -> q)" ∧
    scan r' "Vase # over" = scan default "Vase # over" ∧
    r'.writeFormula false (.bin .and (.atom "A") (.bin .or (.atom "B") (.atom "C"))) =
      .ok "A & (B | C)" := by
  have hsome : (default.extendMeanings aliases).toOption.isSome = true := by decide +kernel
  obtain ⟨r', hr'⟩ := Option.isSome_iff_exists.1 hsome
  have h := eq_ok_of_toOption hr'
  obtain ⟨hread, hwrite⟩ := extend_conservative h
  have hfree : ∀ text ∈ (["Vase & ~over |- vase, (p -> q)", "Vase # over"] : List LooseText),
      (∀ s ∈ keptForms aliases, s.isWord = false → ¬ s <:+: text) ∧
      ∀ ds ∈ text.tails, LooseText.nameFront ds ≠ [] →
        Symbol.normalize (LooseText.nameFront ds) ∉ keptForms aliases := by
    decide +kernel
  have hsame : ∀ text ∈ (["Vase & ~over |- vase, (p -> q)", "Vase # over"] : List LooseText),
      scan r' text = scan default text ∧ Sequent.ofText r' text = Sequent.ofText default text :=
    fun text htext => hread text (hfree text htext).1 fun ds hds =>
      (hfree text htext).2 ds ((List.mem_tails _ _).2 hds.suffix)
  have hkeeps : ((default.extendMeanings aliases).toOption.map fun r' =>
      decide (∀ e ∈ default.entries, r'.lookup? e.1 = some e.2)) = some true := by
    decide +kernel
  rw [hr'] at hkeeps
  have hwritten : default.writeFormula false
      (.bin .and (.atom "A") (.bin .or (.atom "B") (.atom "C"))) = .ok "A & (B | C)" :=
    eq_ok_of_toOption (by decide +kernel)
  exact ⟨r', h, (hsame _ List.mem_cons_self).2,
    (hsame _ (List.mem_cons_of_mem _ List.mem_cons_self)).1,
    hwrite (of_decide_eq_true (Option.some.inj hkeeps)) _ _ _ hwritten⟩

end Registry

end SequentCalculus
