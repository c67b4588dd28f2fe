import SequentCalculus.Console.Run
import SequentCalculus.Derivation.Guarded
import SequentCalculus.Derivation.Latex
import SequentCalculus.Registry.Writer
import SequentCalculus.Sequent.Reader
import SequentCalculus.Text.Lines

/-!
# Console/Report — the reports on a sequent

A proof report shows the derivation node by node, names the leaves that refute the sequent and lists
what they say of the atoms.  A falsification report lists the same observations from the witnesses
of a search that builds no tree.
-/

namespace SequentCalculus

namespace Derivation

mutual

/-- The nodes in order, each with the number of branchings above it. -/
def outlineFrom : Nat → Derivation → List (Derivation × Nat)
  | depth, node s r cs =>
    (node s r cs, depth) :: outlineForest (if 2 ≤ cs.length then depth + 1 else depth) cs

/-- The nodes of a list of trees, each with the number of branchings above it. -/
def outlineForest : Nat → List Derivation → List (Derivation × Nat)
  | _, [] => []
  | depth, t :: ts => outlineFrom depth t ++ outlineForest depth ts

end

/-- The nodes in order, each with the number of branchings above it. -/
def outline (t : Derivation) : List (Derivation × Nat) := outlineFrom 0 t

end Derivation

/-- The setting that commands run in. -/
structure Console where
  registry : Registry
  files : Files
  /-- Whether the output is a terminal. -/
  terminal : Bool

namespace Console

/-- The lines of a node. -/
def nodeLines (r : Registry) (n : Derivation) (depth : Nat) :
    Except UnknownConnective (List Line) := do
  let indent := String.ofList (List.replicate depth '\t')
  let text ← r.writeSequent n.sequent
  let marks := if n.status = .pending then [] else [⟨indent, .mark n.status⟩, Line.blank]
  pure (⟨indent, .node text⟩ :: marks)

/-- The lines of all nodes of a derivation. -/
def treeLines (r : Registry) (t : Derivation) : Except UnknownConnective (List Line) := do
  let lines ← t.outline.mapM fun (n, depth) => nodeLines r n depth
  pure lines.flatten

/-- The sequents of the nodes whose status refutes. -/
def refutedSequents (t : Derivation) : List Sequent :=
  (t.outline.filter fun (n, _) => n.status = .refuted).map fun (n, _) => n.sequent

/-- The lines behind the tree. -/
def verdictLines (r : Registry) (t : Derivation) : Except Failure (List Line) := do
  let refuted := refutedSequents t
  if refuted.isEmpty then pure [Line.plain .valid]
  else
    let texts ← (refuted.mapM r.writeSequent).mapError .unwritable
    let observations ← (Sequent.observe refuted).mapError .reducible
    pure ([Line.plain .notValid, Line.plain (.words "+ Counter-examples:")]
      ++ texts.map (fun text => ⟨"  .. ", .counterExample text⟩)
      ++ [Line.blank, Line.plain (.words "+ Falsifying valuations:")]
      ++ Line.ofObservations "  .. " observations
      ++ [Line.blank])

/-- The sequent that a text writes.  A text that writes none is reported. -/
def read (c : Console) (indent : String) (text : LooseText) : Run (Option Sequent) :=
  match Sequent.ofText c.registry text with
  | .ok s => pure (some s)
  | .error e => do
    match e with
    | .unknownConnective u => Run.write [⟨indent, .unknownConnective u⟩]
    | e => Run.log .debug .console ["rejected " ++ text.quoted ++ ": " ++ e.message]
    Run.write [⟨indent, .notSequent⟩, Line.blank]
    pure none

/-- Proves the sequent that a text writes and shows the derivation, on demand also in LaTeX. -/
def prove (c : Console) (latex : Bool) (text : LooseText) : Run (Option Derivation) := do
  Run.write [Line.plain (.proofOf text), Line.blank]
  match ← c.read "" text with
  | none => pure none
  | some s =>
    let t ← Run.ofExcept .growth s.proveGuarded
    Run.log .debug .search (t.searchLog.map .ofString)
    Run.write (← Run.ofExcept .unwritable (treeLines c.registry t))
    Run.write (← Run.ofExcept id (verdictLines c.registry t))
    Run.write (if latex then [Line.blank, Line.plain (.code t.latex)] else [])
    Run.write [Line.blank]
    pure (some t)

/-- The lines of a falsification report. -/
def falsifyLines (indent : String) (witnesses : List Sequent) :
    Except Sequent.ReducibleError (List Line) := do
  let observations ← Sequent.observe witnesses
  pure ((if witnesses.isEmpty then [⟨indent, .valid⟩] else [])
    ++ Line.ofObservations indent observations
    ++ [Line.blank])

/-- Lists what the witnesses against the sequent that a text writes say of the atoms. -/
def falsify (c : Console) (indent : String) (text : LooseText) : Run (Option (List Sequent)) := do
  Run.write [⟨indent, .valuationsOf text⟩, Line.blank]
  match ← c.read indent text with
  | none => pure none
  | some s =>
    let witnesses ← Run.ofExcept .growth s.witnessesGuarded
    Run.write (← Run.ofExcept .reducible (falsifyLines indent witnesses))
    pure (some witnesses)

/-- The texts in a file, one to a line, blank lines left out.  A missing file is reported. -/
def fileTexts (c : Console) (path : String) : Run (Option (List String)) :=
  match c.files path with
  | .error _ => do
    Run.write [Line.plain (.fileMissing path), Line.blank]
    pure none
  | .ok bytes =>
    match decodeText bytes with
    | .error e => Run.fail (.notText e)
    | .ok text => pure (some (Text.fileLines text))

/-- Runs a command on each text in a file. -/
def onFile {α : Type} (c : Console) (command : String → Run α) (path : String) :
    Run (Option (List α)) := do
  match ← c.fileTexts path with
  | none => pure none
  | some texts => some <$> texts.mapM command

/-- Proves each sequent in a file. -/
def proveFile (c : Console) (latex : Bool) (path : String) : Run (Option (List (Option Derivation))) :=
  c.onFile (fun text => c.prove latex text) path

/-- Falsifies each sequent in a file. -/
def falsifyFile (c : Console) (path : String) : Run (Option (List (Option (List Sequent)))) :=
  c.onFile (fun text => c.falsify "" text) path

end Console

end SequentCalculus
