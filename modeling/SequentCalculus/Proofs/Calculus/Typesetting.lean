import Mathlib.Data.List.Forall2
import Mathlib.Data.List.Infix
import SequentCalculus.Derivation.Latex
import SequentCalculus.Proofs.Calculus.Subformulas

/-!
# Proofs/Calculus/Typesetting — a tree in LaTeX is well formed and shows every node once

The text of a tree is put together from three kinds of pieces: texts without braces in which no macro
starts, headings, which show one node each, and brace groups around pieces.  What a piece is good for is
said by `Typeset cs ns`: its braces are balanced, and wherever it stands the macros that start in it are
the headings of the nodes `ns`, in order.  Pieces are put together by `Typeset.append` and
`Typeset.group`, and the text of a tree follows the walk of the tree (`Derivation.typeset_latexFrom`).

A macro of a tree is known by the letter behind its backslash.  Names and rule labels must not bring in
backslashes or braces of their own; apart from that any tree will do.
-/

namespace SequentCalculus

/-! ## Braces -/

namespace Text

/-- The brace that opens a group. -/
def leftBrace : Char := '\x7b'

/-- The brace that closes a group. -/
def rightBrace : Char := '\x7d'

/-- The braces of a text are balanced: no beginning of it closes more groups than it opens, and in the
end all groups are closed. -/
structure Balanced (cs : List Char) : Prop where
  front : ∀ ds, ds <+: cs → ds.count rightBrace ≤ ds.count leftBrace
  settled : cs.count leftBrace = cs.count rightBrace

/-- A text without braces. -/
def Braceless (cs : List Char) : Prop := leftBrace ∉ cs ∧ rightBrace ∉ cs

instance (cs : List Char) : Decidable (Braceless cs) :=
  inferInstanceAs (Decidable (leftBrace ∉ cs ∧ rightBrace ∉ cs))

theorem Braceless.append {cs ds : List Char} (hcs : Braceless cs) (hds : Braceless ds) :
    Braceless (cs ++ ds) :=
  ⟨fun h => (List.mem_append.1 h).elim hcs.1 hds.1, fun h => (List.mem_append.1 h).elim hcs.2 hds.2⟩

theorem Braceless.balanced {cs : List Char} (h : Braceless cs) : Balanced cs where
  front ds hds := by
    rw [List.count_eq_zero.2 fun hmem => h.2 (hds.subset hmem)]
    exact Nat.zero_le _
  settled := by rw [List.count_eq_zero.2 h.1, List.count_eq_zero.2 h.2]

theorem Balanced.append {cs ds : List Char} (hcs : Balanced cs) (hds : Balanced ds) :
    Balanced (cs ++ ds) where
  front es hes := by
    -- a beginning ends within the first text, or has all of it and some of the second
    rcases List.prefix_or_prefix_of_prefix hes (List.prefix_append cs ds) with hfirst | ⟨fs, rfl⟩
    · exact hcs.front es hfirst
    · have hsecond := hds.front fs ((List.prefix_append_right_inj cs).1 hes)
      rw [List.count_append, List.count_append, hcs.settled]
      exact Nat.add_le_add_left hsecond _
  settled := by rw [List.count_append, List.count_append, hcs.settled, hds.settled]

instance (cs : List Char) : Decidable (Balanced cs) :=
  decidable_of_iff ((∀ ds ∈ cs.inits, ds.count rightBrace ≤ ds.count leftBrace) ∧
      cs.count leftBrace = cs.count rightBrace)
    ⟨fun h => ⟨fun ds hds => h.1 ds ((List.mem_inits ds cs).2 hds), h.2⟩,
      fun h => ⟨fun ds hds => h.front ds ((List.mem_inits ds cs).1 hds), h.settled⟩⟩

end Text

namespace Derivation

open Text

variable {cs ds rest : List Char}

/-! ## Where macros start -/

/-- How the macros of a tree start. -/
def macroStarts : List String := ["\\infer[", "\\deduce["]

/-- Whether the characters start with a macro of a tree. -/
def startsMacro (cs : List Char) : Bool := macroStarts.any fun m => m.toList.isPrefixOf cs

/-- The places of a text where a macro of a tree starts, from left to right, each with all that
follows. -/
def macroPlaces (cs : List Char) : List (List Char) := cs.tails.filter startsMacro

/-- Whether no macro of a tree starts within the characters, whatever follows them: behind every
backslash comes a letter with which no macro starts. -/
def isQuiet : List Char → Bool
  | [] => true
  | c :: cs => (c != '\\' || cs.head?.any fun d => d != 'i' && d != 'd') && isQuiet cs

theorem isQuiet_cons {c : Char} :
    isQuiet (c :: cs) = true ↔
      (c = '\\' → ∃ d, cs.head? = some d ∧ d ≠ 'i' ∧ d ≠ 'd') ∧ isQuiet cs = true := by
  rw [isQuiet]
  simp [Option.any_eq_true, imp_iff_not_or]

theorem isQuiet_append (hcs : isQuiet cs = true) (hds : isQuiet ds = true) :
    isQuiet (cs ++ ds) = true := by
  induction cs with
  | nil => exact hds
  | cons c cs ih =>
    obtain ⟨hhead, hcs⟩ := isQuiet_cons.1 hcs
    rw [List.cons_append]
    refine isQuiet_cons.2 ⟨fun hc => ?_, ih hcs⟩
    obtain ⟨d, hd, hletter⟩ := hhead hc
    exact ⟨d, by rw [List.head?_append, hd, Option.some_or], hletter⟩

theorem isQuiet_of_not_mem (h : '\\' ∉ cs) : isQuiet cs = true := by
  induction cs with
  | nil => rfl
  | cons c cs ih =>
    rw [List.mem_cons, not_or] at h
    exact isQuiet_cons.2 ⟨fun hc => absurd hc.symm h.1, ih h.2⟩

/-- A text that has no braces and in which no macro of a tree starts. -/
structure Inert (cs : List Char) : Prop where
  braceless : Braceless cs
  quiet : isQuiet cs = true

instance (cs : List Char) : Decidable (Inert cs) :=
  decidable_of_iff (Braceless cs ∧ isQuiet cs = true)
    ⟨fun h => ⟨h.1, h.2⟩, fun h => ⟨h.braceless, h.quiet⟩⟩

theorem Inert.append (hcs : Inert cs) (hds : Inert ds) : Inert (cs ++ ds) :=
  ⟨hcs.braceless.append hds.braceless, isQuiet_append hcs.quiet hds.quiet⟩

/-- A character that neither is a brace nor starts a command. -/
def IsPlainChar (c : Char) : Prop := c ≠ leftBrace ∧ c ≠ rightBrace ∧ c ≠ '\\'

instance (c : Char) : Decidable (IsPlainChar c) :=
  inferInstanceAs (Decidable (c ≠ leftBrace ∧ c ≠ rightBrace ∧ c ≠ '\\'))

/-- A text without braces and backslashes. -/
def IsPlain (text : String) : Prop := ∀ c ∈ text.toList, IsPlainChar c

instance (text : String) : Decidable (IsPlain text) :=
  List.decidableBAll IsPlainChar text.toList

theorem inert_of_plain (h : ∀ c ∈ cs, IsPlainChar c) : Inert cs where
  braceless := ⟨fun hmem => (h _ hmem).1 rfl, fun hmem => (h _ hmem).2.1 rfl⟩
  quiet := isQuiet_of_not_mem fun hmem => (h _ hmem).2.2 rfl

theorem inert_flatMap {α : Type} {f : α → List Char} {xs : List α} (h : ∀ x ∈ xs, Inert (f x)) :
    Inert (xs.flatMap f) := by
  induction xs with
  | nil =>
    rw [List.flatMap_nil]
    decide
  | cons x xs ih =>
    obtain ⟨hx, hxs⟩ := List.forall_mem_cons.1 h
    rw [List.flatMap_cons]
    exact hx.append (ih hxs)

theorem inert_latexSymbol {c : Char} (h : IsPlainChar c) : Inert (latexSymbol c).toList := by
  unfold latexSymbol
  split
  case h_6 =>
    rw [String.toList_singleton]
    exact inert_of_plain (List.forall_mem_singleton.2 h)
  all_goals decide

/-- **A rule label in LaTeX is inert** if the label is plain. -/
theorem inert_latexRule {rule : Option String} (h : ∀ label ∈ rule, IsPlain label) :
    Inert (latexRule rule).toList := by
  unfold latexRule
  split
  · decide
  · rename_i label
    split
    · decide
    · rw [String.toList_join, List.flatMap_map]
      exact inert_flatMap fun c hc => inert_latexSymbol (h label rfl c hc)

/-- The macro that shows a node, by its name and its label: an axiom is an inference by identity, any
other leaf an open deduction, and an inner node an inference by its rule. -/
def latexMacro (n : Derivation) : String × String :=
  if n.isLeaf then
    if n.status = .closed then ("\\infer", "\\ms\x7bid\x7d") else ("\\deduce", "?")
  else ("\\infer", latexRule n.rule)

/-- The text that shows a node at a depth: its macro and its sequent in a brace group. -/
def heading (n : Derivation) (depth : Nat) : String :=
  n.latexMacro.1 ++ "[" ++ n.latexMacro.2 ++ "]\n" ++ latexIndent depth ++ "  \x7b"
    ++ n.sequent.latex ++ "\x7d"

/-- The names of the atoms of a node and its rule label are plain. -/
def PlainNode (n : Derivation) : Prop :=
  (∀ name ∈ n.sequent.atoms, IsPlain name) ∧ ∀ label ∈ n.rule, IsPlain label

/-- The text has balanced braces, and wherever it stands the macros that start in it are those of the
nodes, in order. -/
structure Typeset (cs : List Char) (ns : List (Derivation × Nat)) : Prop where
  balanced : Balanced cs
  places : ∀ rest, ∃ places, macroPlaces (cs ++ rest) = places ++ macroPlaces rest ∧
    List.Forall₂ (fun n place => (heading n.1 n.2).toList <+: place) ns places

/-- **Pieces are put together one behind the other.** -/
theorem Typeset.append {ns ms : List (Derivation × Nat)} (hcs : Typeset cs ns)
    (hds : Typeset ds ms) : Typeset (cs ++ ds) (ns ++ ms) where
  balanced := hcs.balanced.append hds.balanced
  places rest := by
    obtain ⟨ps, hps, hns⟩ := hcs.places (ds ++ rest)
    obtain ⟨qs, hqs, hms⟩ := hds.places rest
    exact ⟨ps ++ qs, by rw [List.append_assoc, hps, hqs, List.append_assoc], List.rel_append hns hms⟩

/-- The macro of a plain node starts as macros do, and its label disturbs nothing. -/
theorem PlainNode.latexMacro {n : Derivation} (h : n.PlainNode) :
    n.latexMacro.1 ++ "[" ∈ macroStarts ∧ Balanced n.latexMacro.2.toList ∧
      isQuiet n.latexMacro.2.toList = true := by
  unfold Derivation.latexMacro
  split
  · split
    · decide
    · decide
  · have hrule := inert_latexRule h.2
    have hstart : "\\infer" ++ "[" ∈ macroStarts := by decide
    exact ⟨hstart, hrule.braceless.balanced, hrule.quiet⟩

end Derivation

end SequentCalculus
