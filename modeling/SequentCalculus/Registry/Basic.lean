import SequentCalculus.Connective
import SequentCalculus.Document.Basic
import SequentCalculus.Text.Blank
import SequentCalculus.Text.Word

/-!
# Registry/Basic — the symbols that write connectives

A registry is a table of symbols, each for one connective.  Symbols are loose texts.  Those that are
words match in any letter case and are kept in lower case; all others match as they stand.  The first
symbol of a connective is the one that is written.

Every symbol of a registry has been *accepted*: it is what is left of some loose text after trimming
and lower-casing, and that text held no comma and no parenthesis (`Registry.accepted`).
-/

namespace SequentCalculus

/-- Whether a code separates formulas or groups them. -/
def isPunctuation (c : Text.Code) : Bool := c == .char '(' || c == .char ')' || c == .char ','

/-- Why a table of symbols is refused. -/
inductive SymbolError where
  /-- A symbol is empty or holds punctuation. -/
  | invalid (symbol : LooseText)
  /-- A symbol is declared to mean something that is no connective. -/
  | notConnective (symbol : LooseText) (value : Document)
  deriving Repr

/-- The text of the error. -/
def SymbolError.message : SymbolError → String
  | invalid symbol => "invalid connective symbol " ++ symbol.quoted
  | notConnective symbol value =>
    symbol.quoted ++ " must map to a ConnectiveKind, got " ++ value.literal

/-- A symbol or a connective that is missing from a registry. -/
inductive UnknownConnective where
  | unregistered (symbol : LooseText)
  | noSymbol (c : Connective)
  deriving DecidableEq, Repr

/-- The text of the error. -/
def UnknownConnective.message : UnknownConnective → LooseText
  | unregistered symbol => "Unregistered connective symbol '" ++ symbol ++ "'"
  | noSymbol c => "No symbol registered for " ++ c.label

namespace Symbol

/-- The form under which a symbol is kept: words in lower case. -/
def normalize (s : LooseText) : LooseText :=
  match s.text? with
  | some word => if Text.isWord word then Text.lowercase word else s
  | none => s

/-- The form under which a declared symbol is kept, if it may be declared. -/
def accept (declared : LooseText) : Except SymbolError LooseText :=
  let s := declared.trim
  if s.isEmpty || s.any isPunctuation then .error (.invalid s) else .ok (normalize s)

/-- Puts a symbol in front of those that are not longer. -/
def insertByLength (s : LooseText) : List LooseText → List LooseText
  | [] => [s]
  | t :: ts => if t.length ≤ s.length then s :: t :: ts else t :: insertByLength s ts

/-- The symbols in order of length, longest first, those of equal length as they were. -/
def longestFirst (symbols : List LooseText) : List LooseText := symbols.foldr insertByLength []

end Symbol

/-- A table of symbols for connectives. -/
structure Registry where
  table : Table LooseText Connective
  accepted : ∀ s ∈ table.keys, ∃ declared, Symbol.accept declared = .ok s

namespace Registry

/-- The symbols with their connectives, in order. -/
def entries (r : Registry) : List (LooseText × Connective) := r.table.entries

/-- The connective of a symbol. -/
def lookup? (r : Registry) (symbol : LooseText) : Option Connective :=
  r.table.get? (Symbol.normalize symbol)

/-- The connective of a symbol, or the error that there is none. -/
def lookup (r : Registry) (symbol : LooseText) : Except UnknownConnective Connective :=
  match r.lookup? symbol with
  | some c => .ok c
  | none => .error (.unregistered symbol)

/-- Whether a symbol is registered. -/
def contains (r : Registry) (symbol : LooseText) : Bool := (r.lookup? symbol).isSome

/-- The symbol that writes a connective: the first one registered for it. -/
def symbolFor (r : Registry) (c : Connective) : Except UnknownConnective LooseText :=
  match r.entries.find? fun e => e.2 = c with
  | some e => .ok e.1
  | none => .error (.noSymbol c)

/-- The symbols that are no words, longest first. -/
def operators (r : Registry) : List LooseText :=
  Symbol.longestFirst (r.table.keys.filter fun s => !s.isWord)

/-- Two registries give every symbol the same meaning. -/
def sameMeaning (r q : Registry) : Bool := r.table.sameEntries q.table

/-! ## Building registries -/

/-- The declared symbols in the form under which they are kept. -/
def acceptEntries : List (LooseText × Connective) → Except SymbolError (List (LooseText × Connective))
  | [] => .ok []
  | (declared, c) :: rest =>
    match Symbol.accept declared with
    | .error e => .error e
    | .ok s =>
      match acceptEntries rest with
      | .error e => .error e
      | .ok entries => .ok ((s, c) :: entries)

theorem accepted_of_mem_acceptEntries {declared : List (LooseText × Connective)} :
    ∀ {entries : List (LooseText × Connective)}, acceptEntries declared = .ok entries →
      ∀ e ∈ entries, ∃ d, Symbol.accept d = .ok e.1 := by
  induction declared with
  | nil =>
    intro entries h e he
    obtain rfl := Except.ok.inj h
    cases he
  | cons d declared ih =>
    obtain ⟨text, c⟩ := d
    intro entries h e he
    simp only [acceptEntries] at h
    split at h
    · cases h
    · rename_i s hs
      split at h
      · cases h
      · rename_i rest hrest
        obtain rfl := Except.ok.inj h
        rcases List.mem_cons.1 he with rfl | he
        · exact ⟨text, hs⟩
        · exact ih hrest e he

/-- The registry of some declared symbols; of symbols kept under one form the last declaration
counts, at the place of the first. -/
def ofEntries (declared : List (LooseText × Connective)) : Except SymbolError Registry :=
  match h : acceptEntries declared with
  | .error e => .error e
  | .ok entries =>
    .ok {
      table := Table.ofList entries
      accepted := fun s hs => by
        obtain ⟨e, he, rfl⟩ := List.mem_map.1 hs
        exact accepted_of_mem_acceptEntries h e (Table.mem_of_mem_ofList he) }

/-- The registry with further declared symbols.  A declaration replaces the entry of the same symbol
where it stands. -/
def extend (r : Registry) (declared : List (LooseText × Connective)) : Except SymbolError Registry :=
  ofEntries (r.table.putAll declared).entries

/-- What a symbol is declared to mean. -/
inductive Meaning where
  | connective (c : Connective)
  | other (value : Document)
  deriving Repr

/-- The declarations, if each gives a symbol that may be declared and a connective; otherwise the
fault of the first that does not.  A wrong meaning is noticed before a wrong symbol. -/
def checkMeanings : List (LooseText × Meaning) → Except SymbolError (List (LooseText × Connective))
  | [] => .ok []
  | (declared, .other value) :: _ => .error (.notConnective declared value)
  | (declared, .connective c) :: rest =>
    match Symbol.accept declared with
    | .error e => .error e
    | .ok _ => (checkMeanings rest).map ((declared, c) :: ·)

/-- The registry of some declarations. -/
def ofMeanings (declared : List (LooseText × Meaning)) : Except SymbolError Registry := do
  ofEntries (← checkMeanings declared)

/-- The registry with further declarations. -/
def extendMeanings (r : Registry) (declared : List (LooseText × Meaning)) :
    Except SymbolError Registry :=
  ofMeanings ((r.table.mapValues .connective).putAll declared).entries

/-! ## The default registry -/

/-- The default symbols. -/
def defaultEntries : List (LooseText × Connective) :=
  [ ("~", .not), ("!", .not), ("¬", .not), ("not", .not),
    ("&", .binary .and), ("∧", .binary .and), ("and", .binary .and),
    ("|", .binary .or), ("∨", .binary .or), ("or", .binary .or),
    ("=>", .binary .implies), ("->", .binary .implies), ("→", .binary .implies),
    ("implies", .binary .implies),
    ("<=>", .binary .iff), ("<->", .binary .iff), ("↔", .binary .iff), ("iff", .binary .iff) ]

/-- The default registry. -/
def default : Registry where
  table := ⟨defaultEntries, by decide⟩
  accepted := by
    have h : ∀ s ∈ defaultEntries.map Prod.fst, (Symbol.accept s).toOption = some s := by
      decide +kernel
    intro s hs
    have hsome := h s hs
    refine ⟨s, ?_⟩
    match haccept : Symbol.accept s with
    | .ok t =>
      rw [haccept] at hsome
      exact congrArg Except.ok (Option.some.inj hsome)
    | .error e =>
      rw [haccept] at hsome
      cases hsome

instance : Inhabited Registry := ⟨default⟩

/-! ## Display -/

/-- A connective with its label and arity. -/
def describeConnective (c : Connective) : String :=
  let name := match c with
    | .not => "NOT"
    | .binary .and => "AND"
    | .binary .or => "OR"
    | .binary .implies => "IMPLIES"
    | .binary .iff => "IFF"
  s!"<ConnectiveKind.{name}: ({Text.quoted c.label}, {c.arity})>"

/-- A registry as a constructor applied to its table. -/
def describe (r : Registry) : String :=
  let entry := fun (e : LooseText × Connective) => e.1.quoted ++ ": " ++ describeConnective e.2
  "Registry(\x7b" ++ ", ".intercalate (r.entries.map entry) ++ "\x7d)"

end Registry

end SequentCalculus
