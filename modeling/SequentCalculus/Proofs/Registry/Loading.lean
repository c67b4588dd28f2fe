import Mathlib.Data.List.Forall2
import SequentCalculus.Proofs.Registry.Overriding
import SequentCalculus.Registry.Load

/-!
# Proofs/Registry/Loading — a configuration file is taken as a whole or not at all

A file can be at fault in many ways: it is not there, it is no text or no JSON, it has no symbols, one
of its values names no connective, one of its keys may not be declared.  The faults are looked for in
this order, and behind all of them the symbols are declared at once, so that no fault leaves a part of
the file behind.

Values come before keys: a value that names no connective is an error whatever the keys are
(`resolveNames_of_unnamed`), and a key that may not be declared leaves the registry as it was
(`extendBy_of_not_declarable`).  With neither, every key is declared (`extendBy_of_declarable`), also one
with half of a surrogate pair.
-/

namespace SequentCalculus

/-! ## Keys -/

/-- A key may be declared: without the blanks at either end it is not empty and holds no comma and no
parenthesis. -/
def LooseText.Declarable (t : LooseText) : Prop :=
  t.trim ≠ [] ∧ ∀ c ∈ [',', '(', ')'], Text.Code.char c ∉ t.trim

/-- **A key may be declared exactly if it is accepted as a symbol.** -/
theorem LooseText.declarable_iff {t : LooseText} :
    t.Declarable ↔ ∃ kept, Symbol.accept t = .ok kept := by
  have hpunctuation : (∀ c ∈ [',', '(', ')'], Text.Code.char c ∉ t.trim) ↔
      t.trim.any isPunctuation = false := by
    simp only [List.any_eq_false, isPunctuation_iff, List.forall_mem_cons, List.not_mem_nil]
    grind
  rw [Declarable, hpunctuation, ne_eq, ← List.isEmpty_iff, Bool.not_eq_true, ← Bool.or_eq_false_iff]
  cases hrefused : t.trim.isEmpty || t.trim.any isPunctuation <;> simp [Symbol.accept, hrefused]

/-! ## Values -/

/-- A value names a connective: what it is named by is the label of the connective, letter case
aside. -/
def Document.Names (d : Document) (c : Connective) : Prop :=
  ∃ label : String, d.name = label ∧ Text.lowercase label = c.label

theorem Document.names_iff {d : Document} {c : Connective} :
    d.Names c ↔ d.name.text?.bind Connective.ofLabel? = some c := by
  rw [Option.bind_eq_some_iff]
  constructor
  · rintro ⟨label, hname, hlower⟩
    have hlabel := Connective.ofLabel?_label c
    rw [Connective.ofLabel?, ← hlower, Text.lowercase_lowercase] at hlabel
    exact ⟨label, LooseText.text?_eq_some_iff.2 hname, hlabel⟩
  · rintro ⟨label, hname, hlabel⟩
    have hfound := List.find?_some hlabel
    exact ⟨label, LooseText.text?_eq_some_iff.1 hname, (of_decide_eq_true hfound).symm⟩

/-! ## Fields -/

namespace Registry

variable {base : Registry} {files : Files} {path : String} {fields : List (LooseText × Document)}
  {symbols : List (LooseText × Connective)}

/-- The declarations that the fields of an object make: every key, with the connective that its value
names, in order. -/
def Declares (fields : List (LooseText × Document)) (declared : List (LooseText × Connective)) : Prop :=
  List.Forall₂ (fun f d => f.1 = d.1 ∧ f.2.Names d.2) fields declared

/-- **Every key is declared to be what its value names.** -/
theorem Declares.mem (h : Declares fields symbols) {key : LooseText} {value : Document}
    (hkey : (key, value) ∈ fields) {c : Connective} (hc : value.Names c) : (key, c) ∈ symbols := by
  induction h with
  | nil => cases hkey
  | @cons f d _ _ hfd _ ih =>
    rcases List.mem_cons.1 hkey with rfl | hkey
    · have hcd := (Document.names_iff.1 hc).symm.trans (Document.names_iff.1 hfd.2)
      rw [Option.some.inj hcd, show key = d.1 from hfd.1]
      exact List.mem_cons_self
    · exact List.mem_cons_of_mem _ (ih hkey)

/-- The declarations have the keys of the fields. -/
theorem Declares.forall_keys (h : Declares fields symbols) {p : LooseText → Prop} :
    (∀ d ∈ symbols, p d.1) ↔ ∀ f ∈ fields, p f.1 := by
  induction h with
  | nil => simp
  | cons hfd _ ih => rw [List.forall_mem_cons, List.forall_mem_cons, ih, hfd.1]

/-- If every value names a connective, the fields make declarations. -/
theorem resolveNames_of_named (path : String) (h : ∀ f ∈ fields, ∃ c, f.2.Names c) :
    ∃ symbols, resolveNames path fields = .ok symbols ∧ Declares fields symbols := by
  induction fields with
  | nil => exact ⟨[], rfl, .nil⟩
  | cons f fields ih =>
    obtain ⟨key, value⟩ := f
    obtain ⟨⟨c, hc⟩, hfields⟩ := List.forall_mem_cons.1 h
    obtain ⟨symbols, hresolve, hdeclares⟩ := ih hfields
    refine ⟨(key, c) :: symbols, ?_, .cons ⟨rfl, hc⟩ hdeclares⟩
    rw [resolveNames, Document.names_iff.1 hc, hresolve]
    rfl

/-- A value that names no connective is an error. -/
theorem resolveNames_of_unnamed (path : String) (h : ∃ f ∈ fields, ∀ c, ¬ f.2.Names c) :
    ∃ f ∈ fields, resolveNames path fields = .error (.unknownName path f.1 f.2) := by
  induction fields with
  | nil => simp at h
  | cons f fields ih =>
    obtain ⟨key, value⟩ := f
    rcases hlabel : value.name.text?.bind Connective.ofLabel? with _ | c
    · exact ⟨(key, value), List.mem_cons_self, by rw [resolveNames, hlabel]⟩
    · have hrest : ∃ f ∈ fields, ∀ c, ¬ f.2.Names c := by
        obtain ⟨f, hf, hunnamed⟩ := h
        rcases List.mem_cons.1 hf with rfl | hf
        · exact absurd (Document.names_iff.2 hlabel) (hunnamed c)
        · exact ⟨f, hf, hunnamed⟩
      obtain ⟨f, hf, herror⟩ := ih hrest
      exact ⟨f, List.mem_cons_of_mem _ hf, by rw [resolveNames, hlabel, herror]; rfl⟩

/-! ## The registry behind a file -/

theorem eq_of_table {r r' : Registry} (h : r.table = r'.table) : r = r' := by
  cases r
  cases r'
  congr

/-- **Without declarations a registry stays as it is**, though its table is built anew. -/
theorem extend_nil (base : Registry) : base.extend [] = .ok base := by
  obtain ⟨r, hr⟩ : ∃ r, base.extend [] = .ok r := exists_extend_iff.2 (by simp)
  have hkept : ∀ d ∈ base.table.entries, (Symbol.keptForm d.1, d.2) = d := fun d hd => by
    rw [(kept_of_mem_keys (List.mem_map_of_mem hd)).keptForm_eq]
  have htable : r.table = Table.ofList (base.table.entries.map fun d => (Symbol.keptForm d.1, d.2)) :=
    table_of_ofEntries hr
  rw [List.map_congr_left hkept, List.map_id', Table.ofList_entries] at htable
  rw [hr, eq_of_table htable]

/-- Symbols that may all be declared are all declared. -/
theorem extendBy_of_declarable (base : Registry) (h : ∀ d ∈ symbols, d.1.Declarable) :
    ∃ r, base.extend symbols = .ok r ∧ loadDocument.extendBy base symbols = .ok ⟨r, none⟩ := by
  obtain ⟨r, hr⟩ := (exists_extend_iff (r := base)).2 fun d hd =>
    LooseText.declarable_iff.1 (h d hd)
  exact ⟨r, hr, by rw [loadDocument.extendBy, hr]⟩

/-- With a symbol that may not be declared none is. -/
theorem extendBy_of_not_declarable (base : Registry) (h : ¬ ∀ d ∈ symbols, d.1.Declarable) :
    ∃ e, loadDocument.extendBy base symbols = .ok ⟨base, some (.symbols e)⟩ := by
  rw [loadDocument.extendBy]
  rcases hextend : base.extend symbols with e | r
  · exact ⟨e, rfl⟩
  · refine absurd (fun d hd => ?_) h
    exact LooseText.declarable_iff.2 (exists_extend_iff.1 ⟨r, hextend⟩ d hd)

/-- The file that a path leads to is the JSON text of an object whose field `symbols` is an object with
the given fields. -/
def FileDeclares (files : Files) (path : String) (fields : List (LooseText × Document)) : Prop :=
  ∃ (text : String) (d : Document), files path = .ok text.toUTF8 ∧
    Document.ofJson (Text.normalizeBreaks text.toList) = .ok d ∧
    d.field? "symbols" = some (.object fields)

/-- The fields can be used: every value names a connective and every key may be declared. -/
structure Usable (fields : List (LooseText × Document)) : Prop where
  named : ∀ f ∈ fields, ∃ c, f.2.Names c
  declarable : ∀ f ∈ fields, f.1.Declarable

theorem load_of_fileDeclares (h : FileDeclares files path fields) (base : Registry) :
    load files path base = resolveNames path fields >>= loadDocument.extendBy base := by
  obtain ⟨text, d, hfile, hread, hfields⟩ := h
  have hdecode : decodeText text.toUTF8 = .ok text := decodeText_eq_ok_iff.2 rfl
  simp only [load, hfile, hdecode, hread, loadDocument, hfields]

/-- A document without an object of symbols leaves the registry as it was. -/
theorem loadDocument_of_no_fields (path : String) (base : Registry) {d : Document}
    (h : ∀ fields, d.field? "symbols" ≠ some (.object fields)) :
    ∃ neglect, loadDocument path base d = .ok ⟨base, neglect⟩ := by
  unfold loadDocument
  split
  · obtain ⟨r, hr, hextend⟩ := extendBy_of_declarable base (List.forall_mem_nil _)
    obtain rfl := Except.ok.inj ((extend_nil base).symm.trans hr)
    exact ⟨none, hextend⟩
  · rename_i fields hfields
    exact absurd hfields (h fields)
  · exact ⟨_, rfl⟩

/-- Loading leaves the registry as it was or stops, and not for a name. -/
structure LeavesOut (files : Files) (path : String) (base : Registry) : Prop where
  registry : ∀ loaded, load files path base = .ok loaded → loaded.registry = base
  error : ∀ place symbol value, load files path base ≠ .error (.unknownName place symbol value)

theorem leavesOut_of_ok (neglect : Option Neglect)
    (h : load files path base = .ok ⟨base, neglect⟩) : LeavesOut files path base where
  registry loaded hloaded := by
    obtain rfl := Except.ok.inj (h.symm.trans hloaded)
    rfl
  error place symbol value herror := by cases h.symm.trans herror

theorem leavesOut_of_error {e : LoadError} (h : load files path base = .error e)
    (hname : ∀ place symbol value, e ≠ .unknownName place symbol value) :
    LeavesOut files path base where
  registry loaded hloaded := by cases h.symm.trans hloaded
  error place symbol value herror := hname place symbol value (Except.error.inj (h.symm.trans herror))

theorem leavesOut_of_not_fileDeclares (base : Registry)
    (h : ∀ fields, ¬ FileDeclares files path fields) : LeavesOut files path base := by
  rcases hfile : files path with e | bytes
  · cases e <;> exact leavesOut_of_ok _ (by rw [load, hfile])
  · rcases hdecode : decodeText bytes with e | text
    · exact leavesOut_of_error (e := .notText e) (by simp only [load, hfile, hdecode]) (by simp)
    · rcases hread : Document.ofJson (Text.normalizeBreaks text.toList) with e | d
      · by_cases hsyntax : e.isSyntax = true
        · exact leavesOut_of_ok (some (.malformed e))
            (by simp only [load, hfile, hdecode, hread, if_pos hsyntax])
        · exact leavesOut_of_error (e := .number e)
            (by simp only [load, hfile, hdecode, hread, if_neg hsyntax]) (by simp)
      · obtain rfl := decodeText_eq_ok_iff.1 hdecode
        obtain ⟨neglect, hload⟩ := loadDocument_of_no_fields path base fun fields hfields =>
          h fields ⟨text, d, hfile, hread, hfields⟩
        exact leavesOut_of_ok neglect (by simp only [load, hfile, hdecode, hread, hload])

/-- A file that can be used is used as a whole. -/
theorem load_of_usable (base : Registry) (hfile : FileDeclares files path fields)
    (h : Usable fields) : ∃ declared r, Declares fields declared ∧
      base.extend declared = .ok r ∧ load files path base = .ok ⟨r, none⟩ := by
  obtain ⟨symbols, hresolve, hdeclares⟩ := resolveNames_of_named path h.named
  obtain ⟨r, hr, hextend⟩ := extendBy_of_declarable base (hdeclares.forall_keys.2 h.declarable)
  refine ⟨symbols, r, hdeclares, hr, ?_⟩
  rw [load_of_fileDeclares hfile, hresolve]
  exact hextend

theorem load_of_unnamed (base : Registry) (hfile : FileDeclares files path fields)
    (h : ∃ f ∈ fields, ∀ c, ¬ f.2.Names c) :
    ∃ f ∈ fields, load files path base = .error (.unknownName path f.1 f.2) := by
  obtain ⟨f, hf, herror⟩ := resolveNames_of_unnamed path h
  exact ⟨f, hf, by rw [load_of_fileDeclares hfile, herror]; rfl⟩

theorem leavesOut_of_not_declarable (base : Registry) (hfile : FileDeclares files path fields)
    (hnamed : ∀ f ∈ fields, ∃ c, f.2.Names c) (h : ¬ ∀ f ∈ fields, f.1.Declarable) :
    LeavesOut files path base := by
  obtain ⟨symbols, hresolve, hdeclares⟩ := resolveNames_of_named path hnamed
  obtain ⟨e, he⟩ := extendBy_of_not_declarable base (mt hdeclares.forall_keys.1 h)
  refine leavesOut_of_ok (some (.symbols e)) ?_
  rw [load_of_fileDeclares hfile, hresolve]
  exact he

/-- **What loading can come to**: the whole file is used, or a value names no connective, or the file is
left out. -/
theorem load_cases (files : Files) (path : String) (base : Registry) :
    (∃ fields, FileDeclares files path fields ∧ Usable fields ∧ ∃ declared r,
      Declares fields declared ∧ base.extend declared = .ok r ∧
        load files path base = .ok ⟨r, none⟩) ∨
    (∃ fields, FileDeclares files path fields ∧ (∃ f ∈ fields, ∀ c, ¬ f.2.Names c) ∧
      ∃ symbol value, load files path base = .error (.unknownName path symbol value)) ∨
    LeavesOut files path base := by
  by_cases hfile : ∃ fields, FileDeclares files path fields
  · obtain ⟨fields, hfile⟩ := hfile
    by_cases hnamed : ∀ f ∈ fields, ∃ c, f.2.Names c
    · by_cases hdeclarable : ∀ f ∈ fields, f.1.Declarable
      · exact Or.inl ⟨fields, hfile, ⟨hnamed, hdeclarable⟩,
          load_of_usable base hfile ⟨hnamed, hdeclarable⟩⟩
      · exact Or.inr (Or.inr (leavesOut_of_not_declarable base hfile hnamed hdeclarable))
    · have hunnamed : ∃ f ∈ fields, ∀ c, ¬ f.2.Names c := by simpa using hnamed
      obtain ⟨f, -, herror⟩ := load_of_unnamed base hfile hunnamed
      exact Or.inr (Or.inl ⟨fields, hfile, hunnamed, f.1, f.2, herror⟩)
  · exact Or.inr (Or.inr (leavesOut_of_not_fileDeclares base (not_exists.1 hfile)))

/-- **Loading is all or nothing.**  Whatever a path leads to, if loading gives a registry at all it is
the base or the base extended by everything that the file declares.  It is the extension if the file has
an object of symbols whose values all name connectives and whose keys may all be declared, and the base
in all other cases.  A name of no connective is the error exactly if the file has an object of symbols
and one of its values names none, whatever its keys are. -/
theorem load_all_or_nothing (files : Files) (path : String) (base : Registry) :
    (∀ loaded, load files path base = .ok loaded → loaded.registry = base ∨
      ∃ fields declared, FileDeclares files path fields ∧ Declares fields declared ∧
        base.extend declared = .ok loaded.registry) ∧
    (∀ fields, FileDeclares files path fields → Usable fields → ∃ declared r,
      Declares fields declared ∧ base.extend declared = .ok r ∧
        load files path base = .ok ⟨r, none⟩) ∧
    (∀ loaded, load files path base = .ok loaded →
      (∀ fields, FileDeclares files path fields → ¬ Usable fields) → loaded.registry = base) ∧
    ((∃ place symbol value, load files path base = .error (.unknownName place symbol value)) ↔
      ∃ fields, FileDeclares files path fields ∧ ∃ f ∈ fields, ∀ c, ¬ f.2.Names c) := by
  refine ⟨fun loaded hload => ?_, fun fields hfile h => load_of_usable base hfile h,
    fun loaded hload hunusable => ?_, ?_, ?_⟩
  · rcases load_cases files path base with
      ⟨fields, hfile, -, declared, r, hdeclares, hextend, hr⟩ | ⟨-, -, -, symbol, value, herror⟩ | hout
    · obtain rfl := Except.ok.inj (hr.symm.trans hload)
      exact Or.inr ⟨fields, declared, hfile, hdeclares, hextend⟩
    · cases herror.symm.trans hload
    · exact Or.inl (hout.registry loaded hload)
  · rcases load_cases files path base with
      ⟨fields, hfile, husable, -⟩ | ⟨-, -, -, symbol, value, herror⟩ | hout
    · exact absurd husable (hunusable fields hfile)
    · cases herror.symm.trans hload
    · exact hout.registry loaded hload
  · rintro ⟨place, symbol, value, hload⟩
    rcases load_cases files path base with
      ⟨-, -, -, declared, r, -, -, hr⟩ | ⟨fields, hfile, hunnamed, -⟩ | hout
    · cases hr.symm.trans hload
    · exact ⟨fields, hfile, hunnamed⟩
    · exact absurd hload (hout.error place symbol value)
  · rintro ⟨fields, hfile, hunnamed⟩
    obtain ⟨f, -, herror⟩ := load_of_unnamed base hfile hunnamed
    exact ⟨path, f.1, f.2, herror⟩

theorem FileDeclares.unique {fields' : List (LooseText × Document)}
    (h : FileDeclares files path fields) (h' : FileDeclares files path fields') : fields = fields' := by
  obtain ⟨text, d, hfile, hread, hfields⟩ := h
  obtain ⟨text', d', hfile', hread', hfields'⟩ := h'
  have hbytes := decodeText_eq_ok_iff.2 (Except.ok.inj (hfile.symm.trans hfile'))
  rw [decodeText_eq_ok_iff.2 rfl] at hbytes
  obtain rfl := Except.ok.inj hbytes
  obtain rfl := Except.ok.inj (hread.symm.trans hread')
  exact Document.object.inj (Option.some.inj (hfields.symm.trans hfields'))

/-- The keys of the symbols in a document, each with what names its value. -/
def namedFields (d : Document) : Option (List (LooseText × LooseText)) :=
  match d.field? "symbols" with
  | some (.object fields) => some (fields.map fun f => (f.1, f.2.name))
  | _ => none

theorem exists_fileDeclares {text : String} (names : List (LooseText × LooseText))
    (hfile : files path = .ok text.toUTF8)
    (h : (Document.ofJson (Text.normalizeBreaks text.toList)).toOption.any
      (fun d => namedFields d = some names) = true) :
    ∃ fields, FileDeclares files path fields ∧ fields.map (fun f => (f.1, f.2.name)) = names := by
  obtain ⟨d, hread, hnames⟩ := exists_ok_of_any h
  have hnames := of_decide_eq_true hnames
  unfold namedFields at hnames
  split at hnames
  · rename_i fields hfields
    exact ⟨fields, ⟨text, d, hfile, hread, hfields⟩, Option.some.inj hnames⟩
  · cases hnames

/-- Whether fields can be used is seen from their keys and the names of their values. -/
theorem usable_iff : Usable fields ↔ ((fields.map fun f => (f.1, f.2.name)).all fun n =>
    (Symbol.accept n.1).toOption.isSome && (n.2.text?.bind Connective.ofLabel?).isSome) = true := by
  have hdeclarable : ∀ t : LooseText, (Symbol.accept t).toOption.isSome = true ↔ t.Declarable := by
    intro t
    rw [LooseText.declarable_iff]
    cases Symbol.accept t <;> simp [Except.toOption]
  simp only [List.all_map, List.all_eq_true, Function.comp_apply, Bool.and_eq_true, hdeclarable,
    Option.isSome_iff_exists, ← Document.names_iff]
  exact ⟨fun h f hf => ⟨h.declarable f hf, h.named f hf⟩,
    fun h => ⟨fun f hf => (h f hf).2, fun f hf => (h f hf).1⟩⟩

/-- Three files: one that can be used, with half of a surrogate pair for a key, one with a key that may
not be declared, and one with such a key and a value that names no connective. -/
def threeFiles : Files := fun path =>
  if path = "good" then
    .ok "\x7b\"symbols\": \x7b\" ^ \": \"AND\", \"\\ud800\": \"or\"\x7d\x7d".toUTF8
  else if path = "key" then .ok "\x7b\"symbols\": \x7b\"^\": \"and\", \"a,b\": \"or\"\x7d\x7d".toUTF8
  else if path = "value" then
    .ok "\x7b\"symbols\": \x7b\"a,b\": \"or\", \"^\": [\"and\"]\x7d\x7d".toUTF8
  else .error .missing

/-- The first file is used, the second is left out as a whole, and the third is an error. -/
theorem load_all_or_nothing_of_files :
    (∃ declared r, (.ofString " ^ ", .binary .and) ∈ declared ∧
      ([.half 0xd800], .binary .or) ∈ declared ∧
      default.extend declared = .ok r ∧ load threeFiles "good" default = .ok ⟨r, none⟩ ∧
      r.lookup? [.half 0xd800] = some (.binary .or)) ∧
    (∀ loaded, load threeFiles "key" default = .ok loaded → loaded.registry = default) ∧
    ∃ place symbol value, load threeFiles "value" default =
      .error (.unknownName place symbol value) := by
  refine ⟨?_, fun loaded hloaded => ?_, ?_⟩
  · obtain ⟨fields, hfile, hnames⟩ : ∃ fields, FileDeclares threeFiles "good" fields ∧ _ :=
      exists_fileDeclares [(" ^ ", "AND"), ([.half 0xd800], "or")] rfl (by decide +kernel)
    have husable : Usable fields := usable_iff.2 (by rw [hnames]; decide +kernel)
    obtain ⟨declared, r, hdeclares, hextend, hload⟩ :=
      (load_all_or_nothing threeFiles "good" default).2.1 _ hfile husable
    obtain ⟨loaded, hloaded, hlookup⟩ := exists_ok_of_any (x := load threeFiles "good" default)
      (p := fun loaded => loaded.registry.lookup? [.half 0xd800] = some (.binary .or))
      (by decide +kernel)
    obtain rfl := Except.ok.inj (hload.symm.trans hloaded)
    have hmem : ∀ {key : LooseText} {label : String} {c : Connective}, (key, .ofString label) ∈
        fields.map (fun f => (f.1, f.2.name)) → Text.lowercase label = c.label →
          (key, c) ∈ declared := by
      intro key label c hkey hc
      obtain ⟨⟨key', value⟩, hf, heq⟩ := List.mem_map.1 hkey
      obtain ⟨rfl, hname⟩ := Prod.mk.inj heq
      exact hdeclares.mem hf ⟨label, hname, hc⟩
    rw [hnames] at hmem
    refine ⟨declared, r, ?_, ?_, hextend, hload, of_decide_eq_true hlookup⟩
    · exact hmem List.mem_cons_self (by decide +kernel)
    · exact hmem (List.mem_cons_of_mem _ List.mem_cons_self) (by decide +kernel)
  · obtain ⟨fields, hfile, hnames⟩ : ∃ fields, FileDeclares threeFiles "key" fields ∧ _ :=
      exists_fileDeclares [("^", "and"), ("a,b", "or")] rfl (by decide +kernel)
    have hunusable : ¬ Usable fields := mt usable_iff.1 (by rw [hnames]; decide +kernel)
    exact (load_all_or_nothing threeFiles "key" default).2.2.1 loaded hloaded fun fields' hfile' =>
      hfile.unique hfile' ▸ hunusable
  · obtain ⟨fields, hfile, hnames⟩ : ∃ fields, FileDeclares threeFiles "value" fields ∧ _ :=
      exists_fileDeclares [("a,b", "or"), ("^", "['and']")] rfl (by decide +kernel)
    have hmem : (LooseText.ofString "^", LooseText.ofString "['and']") ∈
        fields.map (fun f => (f.1, f.2.name)) := by
      rw [hnames]
      exact List.mem_cons_of_mem _ List.mem_cons_self
    obtain ⟨f, hf, heq⟩ := List.mem_map.1 hmem
    refine (load_all_or_nothing threeFiles "value" default).2.2.2.2 ⟨fields, hfile, f, hf, ?_⟩
    have hunnamed : f.2.name.text?.bind Connective.ofLabel? = none := by
      rw [(Prod.mk.inj heq).2]
      decide +kernel
    intro c hc
    cases hunnamed.symm.trans (Document.names_iff.1 hc)

end Registry

end SequentCalculus
