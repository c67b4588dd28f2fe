import SequentCalculus.Console.Line
import SequentCalculus.Derivation.Guarded
import SequentCalculus.Derivation.Latex
import SequentCalculus.Files
import SequentCalculus.Position
import SequentCalculus.Registry.Writer
import SequentCalculus.Sequent.Reader
import SequentCalculus.Text.Lines
import SequentCalculus.TreeView

/-!
# Viewer — the state of the viewer and what the user can do to it

The viewer shows the derivation of the last accepted sequent as a tree of rows, the sequent of a
selected row, and the observations of the last search.  The tree of rows knows names and texts only;
which node a row stands for is looked up in a table beside it.  An input that is no sequent opens a
dialog and changes nothing.
-/

namespace SequentCalculus

namespace Viewer

/-- A tree of rows, and the node that each row stands for. -/
structure Board where
  tree : TreeView := {}
  nodes : Table Nat Derivation := .empty

/-- The text of the status bar. -/
inductive Notice where
  | ready
  | valid
  /-- The number of leaves that refute. -/
  | notValid (count : Nat)
  /-- The number of observations. -/
  | observed (count : Nat)
  deriving DecidableEq, Repr

/-- The text of a notice. -/
def Notice.text : Notice → String
  | ready => "Ready. Enter a sequent to begin."
  | valid => "Formula is valid: every branch closes with an axiom."
  | notValid count => s!"Formula is not valid: {count} counter-example branch(es)."
  | observed count => s!"{count} falsifying valuation(s)."

/-- A message box. -/
inductive Dialog where
  | rejected (e : SyntaxError)
  | unreadable (path : String) (e : FileError)
  | copied
  deriving DecidableEq, Repr

namespace Dialog

/-- Whether a message box reports an error. -/
def isError : Dialog → Bool
  | copied => false
  | _ => true

/-- The title of a message box. -/
def title (d : Dialog) : String := if d.isError then "Error" else "Copied"

/-- The text of a message box. -/
def text : Dialog → LooseText
  | rejected e => "Not a valid sequent (" ++ e.message ++ "). Ex: " ++ Console.exampleText
  | unreadable path e => "File not found - " ++ path ++ ": " ++ e.message path
  | copied => "LaTeX code copied to clipboard!"

end Dialog

/-- Why an action cannot be carried out. -/
inductive Failure where
  | outOfRange
  | notText (e : DecodeError)
  | badPath (path : String) (e : FileError)
  | unwritable (e : UnknownConnective)
  | growth (e : Sequent.GrowthError)
  | reducible (e : Sequent.ReducibleError)
  deriving DecidableEq, Repr

end Viewer

/-- The state of the viewer. -/
structure Viewer where
  registry : Registry
  /-- The text in the input field. -/
  input : LooseText := "p => q, p |- q"
  notice : Viewer.Notice := .ready
  /-- The derivation of the last accepted sequent. -/
  root : Option Derivation := none
  /-- The node that was looked at last. -/
  current : Option Derivation := none
  board : Viewer.Board := {}
  /-- The sequent in the lists of antecedents and succedents. -/
  shown : Sequent := ⟨[], []⟩
  observations : List (String × Bool) := []
  /-- The code in the last export window. -/
  exported : Option String := none

namespace Viewer

/-! ## What is shown -/

/-- The mark in front of a leaf. -/
def leafMark : Status → String
  | .closed => "✔ "
  | .refuted => "✘ "
  | .pending => ""

/-- The text of the row of a node. -/
def rowLabel (r : Registry) (n : Derivation) : Except UnknownConnective LooseText := do
  let text ← r.writeSequent n.sequent
  let mark := if n.isLeaf then leafMark n.status else ""
  let rule := match n.rule with
    | none => ""
    | some label => if label.isEmpty then "" else s!"    [{label}]"
  pure (mark ++ text ++ rule)

namespace Board

mutual

/-- Puts in a row for the root of a tree, under a parent, and then the rows of its children; the
result has the name of the first row. -/
def insertNode (r : Registry) (b : Board) (parent : Option Nat) :
    Derivation → Except UnknownConnective (Nat × Board)
  | .node s rule cs => do
    let label ← rowLabel r (.node s rule cs)
    let (id, tree) := b.tree.insert parent label
    let filled ← insertForest r ⟨tree, b.nodes.put id (.node s rule cs)⟩ id cs
    pure (id, filled)

/-- Puts in the rows of several trees, one after the other, under one parent. -/
def insertForest (r : Registry) (b : Board) (parent : Nat) :
    List Derivation → Except UnknownConnective Board
  | [] => .ok b
  | t :: ts => do
    let (_, b) ← insertNode r b (some parent) t
    insertForest r b parent ts

end

/-- Takes all rows away and puts in those of a tree; the first of them is selected. -/
def refill (r : Registry) (b : Board) (t : Derivation) : Except UnknownConnective Board := do
  let cleared := b.tree.delete b.tree.topLevel
  let (id, filled) ← insertNode r ⟨cleared, .empty⟩ none t
  pure { filled with tree := filled.tree.select [id] }

/-- The node of the selected row. -/
def selected? (b : Board) : Option Derivation := b.tree.selection.head?.bind b.nodes.get?

end Board

/-- The rows of the tree. -/
def rows (v : Viewer) : List TreeView.Row := v.board.tree.rows

/-- The list of the formulas of a side. -/
def formulaLines (fs : List Formula) : List String := fs.map fun f => "  " ++ f.display

/-- The list of observations. -/
def observationLines (v : Viewer) : List LooseText :=
  (Console.Line.ofObservations "  " v.observations).map (·.text)

/-! ## What the user can do -/

/-- The viewer after an action, the message boxes that it opened, and what it answers. -/
structure Reply (α : Type) where
  viewer : Viewer
  dialogs : List Dialog
  value : α

/-- The observations against a sequent. -/
def observe (s : Sequent) : Except Failure (List (String × Bool)) := do
  let witnesses ← s.witnessesGuarded.mapError .growth
  (Sequent.observe witnesses).mapError .reducible

/-- Proves the sequent in the input field and shows its derivation. -/
def prove (v : Viewer) : Except Failure (Reply (Option Derivation)) :=
  match Sequent.ofText v.registry v.input with
  | .error e => .ok ⟨v, [.rejected e], none⟩
  | .ok s => do
    let t ← s.proveGuarded.mapError .growth
    let board ← (v.board.refill v.registry t).mapError .unwritable
    let os ← observe s
    let notice := if t.isClosed then .valid else .notValid t.counterExamples.length
    let shown := { v with
      root := some t, current := some t, board := board,
      observations := os, notice := notice }
    pure ⟨shown, [], some t⟩

/-- Shows the observations against the sequent in the input field. -/
def falsify (v : Viewer) : Except Failure (Reply (Option (List (String × Bool)))) :=
  match Sequent.ofText v.registry v.input with
  | .error e => .ok ⟨v, [.rejected e], none⟩
  | .ok s => do
    let os ← observe s
    pure ⟨{ v with observations := os, notice := .observed os.length }, [], some os⟩

/-- Puts texts into the input field, one after the other, and proves each. -/
def proveAll (v : Viewer) : List LooseText → Except Failure (Reply (List (Option Derivation)))
  | [] => .ok ⟨v, [], []⟩
  | text :: texts => do
    let first ← { v with input := text }.prove
    let rest ← first.viewer.proveAll texts
    pure ⟨rest.viewer, first.dialogs ++ rest.dialogs, first.value :: rest.value⟩

/-- Proves each sequent in a file. -/
def load (v : Viewer) (files : Files) (path : String) :
    Except Failure (Reply (Option (List (Option Derivation)))) :=
  match files path with
  | .error .nullInName => .error (.badPath path .nullInName)
  | .error e => .ok ⟨v, [.unreadable path e], none⟩
  | .ok bytes =>
    match decodeText bytes with
    | .error e => .error (.notText e)
    | .ok text => do
      let r ← v.proveAll ((Text.fileLines text).map .ofString)
      pure ⟨r.viewer, r.dialogs, some r.value⟩

/-- Looks at the node of the selected row. -/
def lookAtSelection (v : Viewer) : Viewer :=
  match v.board.selected? with
  | none => v
  | some n => { v with current := some n, shown := n.sequent }

/-- Selects some rows and no others. -/
def setSelection (v : Viewer) (selection : List Nat) : Viewer :=
  { v with board := { v.board with tree := v.board.tree.select selection } }

/-- Selects the row at a place and looks at its node. -/
def select (v : Viewer) (place : Int) : Except Failure Viewer :=
  match (indexOf? v.board.tree.ids.length place).bind (v.board.tree.ids[·]?) with
  | none => .error .outOfRange
  | some id => .ok (v.setSelection [id]).lookAtSelection

/-- Selects no row. -/
def deselect (v : Viewer) : Viewer := (v.setSelection []).lookAtSelection

/-- Opens a window with the derivation in LaTeX. -/
def exportLatex (v : Viewer) : Viewer × Option String :=
  match v.root with
  | none => (v, none)
  | some t => ({ v with exported := some t.latex }, some t.latex)

/-- Copies the code in the last export window. -/
def copy (v : Viewer) : Reply (Option String) :=
  match v.exported with
  | none => ⟨v, [], none⟩
  | some code => ⟨v, [.copied], some code⟩

/-- Something that the user does. -/
inductive Action where
  | setInput (text : LooseText)
  | prove
  | falsify
  /-- Loads the file at a path; an empty path takes back the choice. -/
  | load (path : String)
  | select (place : Int)
  /-- The selection is reported again. -/
  | look
  | deselect
  | exportLatex
  | copy
  deriving DecidableEq, Repr

/-- What an action answers. -/
inductive Answer where
  | nothing
  | proof (t : Derivation)
  | observations (os : List (String × Bool))
  | proofs (ts : List (Option Derivation))
  | text (s : String)
  deriving DecidableEq, Repr

/-- A reply whose answer may be missing. -/
def Reply.answer {α : Type} (f : α → Answer) (r : Reply (Option α)) : Reply Answer :=
  ⟨r.viewer, r.dialogs, (r.value.map f).getD .nothing⟩

/-- Carries out an action. -/
def act (files : Files) (v : Viewer) : Action → Except Failure (Reply Answer)
  | .setInput text => .ok ⟨{ v with input := text }, [], .nothing⟩
  | .prove => do pure ((← v.prove).answer .proof)
  | .falsify => do pure ((← v.falsify).answer .observations)
  | .load path =>
    if path.isEmpty then .ok ⟨v, [], .nothing⟩
    else do pure ((← v.load files path).answer .proofs)
  | .select place => do pure ⟨← v.select place, [], .nothing⟩
  | .look => .ok ⟨v.lookAtSelection, [], .nothing⟩
  | .deselect => .ok ⟨v.deselect, [], .nothing⟩
  | .exportLatex =>
    let (v, code) := v.exportLatex
    .ok ⟨v, [], (code.map .text).getD .nothing⟩
  | .copy => .ok (v.copy.answer .text)

end Viewer

end SequentCalculus
