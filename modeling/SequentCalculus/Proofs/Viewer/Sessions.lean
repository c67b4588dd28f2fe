import SequentCalculus.Proofs.Calculus.Guards
import SequentCalculus.Proofs.Viewer.Boards

/-!
# Proofs/Viewer/Sessions — the state of the viewer along a session

In a session the user does one thing after the other.  What was submitted for proof can be told from the
actions and the files alone (`submitted`), and the state always answers to it (`Viewer.Reflects`): the
derivation is that of the last submitted text that is a sequent, the board depicts this derivation, and
the node that was looked at last belongs to it.

`Reflects.act` is the step: an action keeps the state in this shape, or it is refused because it asks for
a row or a text that is not there (`Refused`).  `Reflects.run` is the induction over a session.  Texts that
are no sequents leave no trace but in the input field, also between others (`Reflects.proveAll_filter`).
-/

namespace SequentCalculus

namespace Sequent

variable {r : Registry} {text : LooseText}

theorem ofText?_of_ok {s : Sequent} (h : ofText r text = .ok s) : ofText? r text = some s := by
  rw [ofText?, h]
  rfl

theorem ofText?_of_error {e : SyntaxError} (h : ofText r text = .error e) :
    ofText? r text = none := by
  rw [ofText?, h]
  rfl

end Sequent

namespace Viewer

/-! ## Sessions -/

/-- The viewer at the start, with a way to name the rows of its tree. -/
def opened (r : Registry) (names : FreshNames) : Viewer :=
  { registry := r, board := { tree := { names := names } } }

/-- The viewer after an action; one that fails changes nothing. -/
def after (v : Viewer) (files : Files) (a : Action) : Viewer :=
  match act files v a with
  | .ok reply => reply.viewer
  | .error _ => v

/-- The viewer after a session.  The files may change between two actions. -/
def run (v : Viewer) (steps : List (Files × Action)) : Viewer :=
  steps.foldl (fun v step => v.after step.1 step.2) v

/-- The lines that are submitted when a path is loaded. -/
def linesAt (files : Files) (path : String) : List LooseText :=
  if path.isEmpty then []
  else
    match files path with
    | .error _ => []
    | .ok bytes =>
      match decodeText bytes with
      | .error _ => []
      | .ok text => (Text.fileLines text).map .ofString

/-- The texts that an action submits for proof, given what is in the input field. -/
def submits (files : Files) (input : LooseText) : Action → List LooseText
  | .prove => [input]
  | .load path => linesAt files path
  | _ => []

/-- What is in the input field after an action. -/
def inputAfter (files : Files) (input : LooseText) : Action → LooseText
  | .setInput text => text
  | .load path => (linesAt files path).getLast?.getD input
  | _ => input

/-- The texts that a session submits for proof, in order. -/
def submitted : LooseText → List (Files × Action) → List LooseText
  | _, [] => []
  | input, (files, a) :: steps =>
    submits files input a ++ submitted (inputAfter files input a) steps

/-- An action asks for what is not there: a place without a row, or a path whose name cannot be looked
up or whose bytes are no text. -/
def Refused (files : Files) (v : Viewer) : Action → Prop
  | .select place => indexOf? v.board.tree.ids.length place = none
  | .load path => files path = .error .nullInName ∨
      ∃ bytes e, files path = .ok bytes ∧ decodeText bytes = .error e
  | _ => False

/-! ## What the state answers to -/

/-- The state answers to the texts that were submitted for proof. -/
structure Reflects (r : Registry) (texts : List LooseText) (v : Viewer) : Prop where
  registry : v.registry = r
  /-- The root is the derivation of the last text that is a sequent. -/
  root : v.root = (texts.filterMap (Sequent.ofText? r)).getLast?.map Sequent.prove
  /-- The rows stand for the nodes of the root. -/
  board : v.board.Depicts r v.root.toList
  /-- The node that was looked at last is one of them. -/
  current : ∀ n, v.current = some n → ∃ t, v.root = some t ∧ n ∈ t.nodes

variable {r : Registry} {texts : List LooseText} {v : Viewer}

theorem reflects_opened (r : Registry) (names : FreshNames) : (opened r names).Reflects r [] where
  registry := rfl
  root := rfl
  board := ⟨trivial, rfl⟩
  current := fun _ h => nomatch h

/-! ## Texts that are no sequents -/

theorem prove_of_error {e : SyntaxError} (h : Sequent.ofText v.registry v.input = .error e) :
    v.prove = .ok ⟨v, [.rejected e], none⟩ := by
  rw [prove, h]

theorem falsify_of_error {e : SyntaxError} (h : Sequent.ofText v.registry v.input = .error e) :
    v.falsify = .ok ⟨v, [.rejected e], none⟩ := by
  rw [falsify, h]

/-- Whether a text is a sequent. -/
def accepts (r : Registry) (text : LooseText) : Bool := (Sequent.ofText? r text).isSome

/-- Two states are the same but for the input field. -/
def SameButInput (v w : Viewer) : Prop := v = { w with input := v.input }

theorem SameButInput.trans {u w : Viewer} (h : SameButInput u v) (h' : SameButInput v w) :
    SameButInput u w := by
  rw [SameButInput, h, h']

/-! ## The input field

Only setting it and loading a file change what is in it. -/

theorem input_lookAtSelection (v : Viewer) : v.lookAtSelection.input = v.input := by
  rw [lookAtSelection]
  split <;> rfl

theorem input_exportLatex (v : Viewer) : v.exportLatex.1.input = v.input := by
  rw [exportLatex]
  split <;> rfl

theorem viewer_copy (v : Viewer) : v.copy.viewer = v := by
  rw [copy]
  split <;> rfl

/-! ## Submitting texts -/

theorem exists_rowLabel {text : LooseText} {s : Sequent} (h : Sequent.ofText r text = .ok s)
    {n : Derivation} (hn : n ∈ s.prove.nodes) : ∃ label, rowLabel r n = .ok label := by
  obtain ⟨written, hwritten⟩ := Registry.exists_writeSequent_of_mem_nodes h hn
  rw [rowLabel, hwritten]
  exact ⟨_, rfl⟩

theorem observe_eq_ok (s : Sequent) : observe s = .ok s.observations := by
  rw [observe, s.witnessesGuarded_eq_ok]
  change (Sequent.observe s.witnesses).mapError _ = _
  rw [s.observe_witnesses]
  rfl

/-- A sequent in the input field is proved whatever the state is, and the board depicts its derivation
afterwards. -/
theorem exists_prove_of_ok {s : Sequent} (h : Sequent.ofText v.registry v.input = .ok s) :
    ∃ board notice, board.Depicts v.registry [s.prove] ∧
      v.prove = .ok ⟨{ v with
        root := some s.prove, current := some s.prove, board := board,
        observations := s.observations, notice := notice }, [], some s.prove⟩ := by
  obtain ⟨board, hrefill, hdepicts⟩ := v.board.exists_refill fun _ => exists_rowLabel h
  refine ⟨board, if s.prove.isClosed then .valid else .notValid s.prove.counterExamples.length,
    hdepicts, ?_⟩
  rw [prove, h]
  simp only [s.proveGuarded_eq_ok, observe_eq_ok]
  change Except.bind (Except.mapError _ (v.board.refill v.registry s.prove)) _ = _
  rw [hrefill]
  rfl

theorem proveAll_cons {text : LooseText} {lines : List LooseText} {first : Reply (Option Derivation)}
    {rest : Reply (List (Option Derivation))} (hfirst : { v with input := text }.prove = .ok first)
    (hrest : first.viewer.proveAll lines = .ok rest) :
    v.proveAll (text :: lines) =
      .ok ⟨rest.viewer, first.dialogs ++ rest.dialogs, first.value :: rest.value⟩ := by
  rw [proveAll, hfirst]
  change (first.viewer.proveAll lines).bind _ = _
  rw [hrest]
  rfl

/-- What is in the input field is overwritten by the first text, if there is one. -/
theorem exists_proveAll_of_setInput {text : LooseText} {lines : List LooseText}
    {reply : Reply (List (Option Derivation))}
    (h : { v with input := text }.proveAll lines = .ok reply) :
    ∃ reply', v.proveAll lines = .ok reply' ∧ SameButInput reply.viewer reply'.viewer := by
  cases lines with
  | nil =>
    obtain rfl := Except.ok.inj h
    exact ⟨_, rfl, rfl⟩
  | cons line lines => exact ⟨reply, h, rfl⟩

namespace Reflects

theorem append_nil (h : v.Reflects r texts) : v.Reflects r (texts ++ []) := by
  rwa [List.append_nil]

theorem setInput (h : v.Reflects r texts) (text : LooseText) :
    { v with input := text }.Reflects r texts :=
  ⟨h.registry, h.root, h.board, h.current⟩

/-- A text that is no sequent adds nothing. -/
theorem append_of_error (h : v.Reflects r texts) {text : LooseText} {e : SyntaxError}
    (htext : Sequent.ofText r text = .error e) : v.Reflects r (texts ++ [text]) := by
  refine ⟨h.registry, ?_, h.board, h.current⟩
  rw [List.filterMap_append, List.filterMap_cons_none (Sequent.ofText?_of_error htext),
    List.filterMap_nil, List.append_nil]
  exact h.root

/-- **Proving what is in the input field** never fails, and the state answers to it as well. -/
theorem prove (h : v.Reflects r texts) : ∃ reply, v.prove = .ok reply ∧
    reply.viewer.Reflects r (texts ++ [v.input]) ∧ reply.viewer.input = v.input := by
  rcases hread : Sequent.ofText r v.input with e | s
  · exact ⟨_, prove_of_error (h.registry ▸ hread), h.append_of_error hread, rfl⟩
  · obtain ⟨board, notice, hdepicts, hprove⟩ := exists_prove_of_ok (h.registry ▸ hread)
    refine ⟨_, hprove, ⟨h.registry, ?_, h.registry ▸ hdepicts, ?_⟩, rfl⟩
    · rw [List.filterMap_append, List.filterMap_cons_some (Sequent.ofText?_of_ok hread),
        List.filterMap_nil, List.getLast?_concat]
      rfl
    · intro n hn
      obtain rfl := Option.some.inj hn
      exact ⟨_, rfl, Derivation.self_mem_nodes _⟩

theorem proveAll (h : v.Reflects r texts) (lines : List LooseText) :
    ∃ reply, v.proveAll lines = .ok reply ∧ reply.viewer.Reflects r (texts ++ lines) ∧
      reply.viewer.input = lines.getLast?.getD v.input := by
  induction lines generalizing v texts with
  | nil => exact ⟨_, rfl, by rwa [List.append_nil], rfl⟩
  | cons text lines ih =>
    obtain ⟨first, hfirst, hreflects, hinput⟩ := (h.setInput text).prove
    obtain ⟨rest, hrest, hreflects', hinput'⟩ := ih hreflects
    refine ⟨_, proveAll_cons hfirst hrest, ?_, ?_⟩
    · rwa [List.append_assoc] at hreflects'
    · rw [hinput', hinput, List.getLast?_cons, Option.getD_some]

/-- **Texts that are no sequents only pass through the input field**: without them the others lead to
the same state. -/
theorem proveAll_filter (h : v.Reflects r texts) (lines : List LooseText) :
    ∃ reply reply', v.proveAll lines = .ok reply ∧
      v.proveAll (lines.filter (accepts r)) = .ok reply' ∧
      SameButInput reply.viewer reply'.viewer := by
  induction lines generalizing v texts with
  | nil => exact ⟨_, _, rfl, rfl, rfl⟩
  | cons text lines ih =>
    rcases hread : Sequent.ofText r text with e | s
    · have hdrop : ¬ accepts r text = true := by simp [accepts, Sequent.ofText?_of_error hread]
      have hfirst := prove_of_error (v := { v with input := text }) (h.registry ▸ hread)
      obtain ⟨rest, rest', hrest, hrest', hsame⟩ := ih (h.setInput text)
      obtain ⟨reply', hreply', hsame'⟩ := exists_proveAll_of_setInput hrest'
      rw [List.filter_cons_of_neg hdrop]
      exact ⟨_, reply', proveAll_cons hfirst hrest, hreply', hsame.trans hsame'⟩
    · have hkeep : accepts r text = true := by simp [accepts, Sequent.ofText?_of_ok hread]
      obtain ⟨first, hfirst, hreflects, -⟩ := (h.setInput text).prove
      obtain ⟨rest, rest', hrest, hrest', hsame⟩ := ih hreflects
      rw [List.filter_cons_of_pos hkeep]
      exact ⟨_, _, proveAll_cons hfirst hrest, proveAll_cons hfirst hrest', hsame⟩

/-! ## Actions -/

/-- Selecting rows does not change what they stand for. -/
theorem setSelection (h : v.Reflects r texts) (selection : List Nat) :
    (v.setSelection selection).Reflects r texts :=
  ⟨h.registry, h.root, ⟨h.board.items, h.board.keys⟩, h.current⟩

theorem lookAtSelection (h : v.Reflects r texts) : v.lookAtSelection.Reflects r texts := by
  rw [Viewer.lookAtSelection]
  split
  · exact h
  · rename_i n hselected
    refine ⟨h.registry, h.root, h.board, fun m hm => ?_⟩
    obtain rfl := Option.some.inj hm
    obtain ⟨id, -, hid⟩ := Option.bind_eq_some_iff.1 hselected
    obtain ⟨t, ht, hn⟩ := h.board.mem_nodes hid
    exact ⟨t, Option.mem_toList.1 ht, hn⟩

/-- Falsifying what is in the input field never fails, and it changes nothing that was submitted. -/
theorem falsify (h : v.Reflects r texts) : ∃ reply, v.falsify = .ok reply ∧
    reply.viewer.Reflects r texts ∧ reply.viewer.input = v.input := by
  rcases hread : Sequent.ofText v.registry v.input with e | s
  · exact ⟨_, falsify_of_error hread, h, rfl⟩
  · rw [Viewer.falsify, hread]
    simp only [observe_eq_ok]
    exact ⟨_, rfl, ⟨h.registry, h.root, h.board, h.current⟩, rfl⟩

theorem exportLatex (h : v.Reflects r texts) : v.exportLatex.1.Reflects r texts := by
  rw [Viewer.exportLatex]
  split
  · exact h
  · exact ⟨h.registry, h.root, h.board, h.current⟩

/-- Loading a path submits its lines, or is refused. -/
theorem load (h : v.Reflects r texts) (files : Files) {path : String} (hpath : ¬ path.isEmpty = true) :
    (∃ reply, v.load files path = .ok reply ∧
      reply.viewer.Reflects r (texts ++ linesAt files path) ∧
      reply.viewer.input = (linesAt files path).getLast?.getD v.input) ∨
    (∃ e, v.load files path = .error e) ∧ Refused files v (.load path) ∧ linesAt files path = [] := by
  rw [Viewer.load, linesAt, if_neg hpath]
  rcases hfile : files path with e | bytes
  · cases e with
    | nullInName => exact Or.inr ⟨⟨_, rfl⟩, Or.inl hfile, rfl⟩
    | _ => exact Or.inl ⟨_, rfl, h.append_nil, rfl⟩
  · dsimp only
    rcases htext : decodeText bytes with e | text
    · exact Or.inr ⟨⟨_, rfl⟩, Or.inr ⟨bytes, e, hfile, htext⟩, rfl⟩
    · obtain ⟨reply, hreply, hreflects⟩ := h.proveAll ((Text.fileLines text).map .ofString)
      dsimp only
      rw [hreply]
      exact Or.inl ⟨_, rfl, hreflects⟩

/-- Selecting a place looks at its row, or there is none. -/
theorem select (h : v.Reflects r texts) (place : Int) :
    (∃ v', v.select place = .ok v' ∧ v'.Reflects r texts ∧ v'.input = v.input) ∨
    (∃ e, v.select place = .error e) ∧ indexOf? v.board.tree.ids.length place = none := by
  rw [Viewer.select]
  rcases hindex : indexOf? v.board.tree.ids.length place with _ | i
  · exact Or.inr ⟨⟨_, rfl⟩, rfl⟩
  · have hget : v.board.tree.ids[i]? = some (v.board.tree.ids.get ⟨i, lt_of_indexOf? hindex⟩) :=
      List.getElem?_eq_getElem _
    simp only [Option.bind_some, hget]
    exact Or.inl ⟨_, rfl, (h.setSelection _).lookAtSelection, input_lookAtSelection _⟩

/-- **An action keeps the state in shape, or it is refused.** -/
theorem act (h : v.Reflects r texts) (files : Files) (a : Action) :
    (∃ reply, Viewer.act files v a = .ok reply ∧
      reply.viewer.Reflects r (texts ++ submits files v.input a) ∧
      reply.viewer.input = inputAfter files v.input a) ∨
    (∃ e, Viewer.act files v a = .error e) ∧ Refused files v a ∧
      submits files v.input a = [] ∧ inputAfter files v.input a = v.input := by
  cases a with
  | setInput text => exact Or.inl ⟨_, rfl, (h.setInput text).append_nil, rfl⟩
  | prove =>
    obtain ⟨reply, hreply, hreflects, hinput⟩ := h.prove
    refine Or.inl ⟨reply.answer .proof, ?_, hreflects, hinput⟩
    rw [Viewer.act, hreply]
    rfl
  | falsify =>
    obtain ⟨reply, hreply, hreflects, hinput⟩ := h.falsify
    refine Or.inl ⟨reply.answer .observations, ?_, hreflects.append_nil, hinput⟩
    rw [Viewer.act, hreply]
    rfl
  | load path =>
    rw [Viewer.act]
    split
    · rename_i hpath
      have hlines : linesAt files path = [] := if_pos hpath
      refine Or.inl ⟨_, rfl, ?_, ?_⟩
      · rw [submits, hlines]
        exact h.append_nil
      · rw [inputAfter, hlines]
        rfl
    · rename_i hpath
      rcases h.load files hpath with ⟨reply, hreply, hreflects⟩ | ⟨⟨e, he⟩, hrefused, hlines⟩
      · rw [hreply]
        exact Or.inl ⟨_, rfl, hreflects⟩
      · rw [he]
        refine Or.inr ⟨⟨_, rfl⟩, hrefused, hlines, ?_⟩
        rw [inputAfter, hlines]
        rfl
  | select place =>
    rw [Viewer.act]
    rcases h.select place with ⟨v', hv', hreflects, hinput⟩ | ⟨⟨e, he⟩, hrefused⟩
    · rw [hv']
      exact Or.inl ⟨_, rfl, hreflects.append_nil, hinput⟩
    · rw [he]
      exact Or.inr ⟨⟨_, rfl⟩, hrefused, rfl, rfl⟩
  | look => exact Or.inl ⟨_, rfl, h.lookAtSelection.append_nil, input_lookAtSelection v⟩
  | deselect =>
    exact Or.inl ⟨_, rfl, (h.setSelection []).lookAtSelection.append_nil, input_lookAtSelection _⟩
  | exportLatex => exact Or.inl ⟨_, rfl, h.exportLatex.append_nil, input_exportLatex v⟩
  | copy =>
    refine Or.inl ⟨v.copy.answer .text, rfl, ?_, congrArg Viewer.input (viewer_copy v)⟩
    rw [Reply.answer, viewer_copy]
    exact h.append_nil

/-- **A session keeps the state in shape.** -/
theorem run (h : v.Reflects r texts) (steps : List (Files × Action)) :
    (v.run steps).Reflects r (texts ++ submitted v.input steps) := by
  induction steps generalizing v texts with
  | nil => exact h.append_nil
  | cons step steps ih =>
    obtain ⟨files, a⟩ := step
    rw [submitted, ← List.append_assoc]
    change ((v.after files a).run steps).Reflects r _
    rw [after]
    rcases h.act files a with ⟨reply, hreply, hreflects, hinput⟩ | ⟨⟨e, he⟩, -, hnone, hinput⟩
    · rw [hreply, ← hinput]
      exact ih hreflects
    -- a refused action leaves the state and submits nothing
    · rw [he, hnone, hinput]
      exact ih h.append_nil

end Reflects

/-! ## The whole session -/

/-- **The state of the viewer is coherent after every session.**  The root is the derivation of the last
submitted text that is a sequent, if there was one; the rows stand for its nodes, and the table lists
the nodes in the order of the walk; the node that was looked at last is one of them.  An action can be
carried out unless it asks for what is not there.  A text that is no sequent opens a dialog and changes
nothing else, and among the lines of a file it makes no difference to what is shown. -/
theorem run_coherent (r : Registry) (names : FreshNames) (steps : List (Files × Action)) :
    let v := (opened r names).run steps
    v.Reflects r (submitted (opened r names).input steps) ∧
    v.board.nodes.entries.map Prod.snd = v.root.toList.flatMap Derivation.nodes ∧
    (∀ files a, (∃ reply, act files v a = .ok reply) ∨ Refused files v a) ∧
    (∀ text e, Sequent.ofText r text = .error e →
      { v with input := text }.prove = .ok ⟨{ v with input := text }, [.rejected e], none⟩ ∧
      { v with input := text }.falsify = .ok ⟨{ v with input := text }, [.rejected e], none⟩) ∧
    ∀ lines, ∃ reply reply', v.proveAll lines = .ok reply ∧
      v.proveAll (lines.filter (accepts r)) = .ok reply' ∧
      SameButInput reply.viewer reply'.viewer := by
  intro v
  have h : v.Reflects r (submitted (opened r names).input steps) :=
    (reflects_opened r names).run steps
  refine ⟨h, h.board.values, fun files a => ?_, fun text e htext => ?_, h.proveAll_filter⟩
  · exact (h.act files a).imp (fun ⟨reply, hreply, _⟩ => ⟨reply, hreply⟩) fun hrefused => hrefused.2.1
  · rw [← h.registry] at htext
    exact ⟨prove_of_error htext, falsify_of_error htext⟩

/-- A session with an accepted text, a rejected one and a look at a row. -/
def rejectedSession : List (Files × Action) :=
  [.setInput "A | B -> A", .prove, .setInput "A &", .prove, .select 1].map
    (fun _ => .error .missing, ·)

/-- The accepted text stays on show, and the rejected one is rejected again. -/
theorem run_coherent_rejected :
    let v := (opened .default .counting).run rejectedSession
    v.root = some (Sequent.prove ⟨[.bin .or (.atom "A") (.atom "B")], [.atom "A"]⟩) ∧
    { v with input := "A &" }.prove =
      .ok ⟨{ v with input := "A &" }, [.rejected .unexpectedEnd], none⟩ := by
  intro v
  obtain ⟨hreflects, -, -, hrejected, -⟩ := run_coherent .default .counting rejectedSession
  have hread : (submitted (opened .default .counting).input rejectedSession).filterMap
      (Sequent.ofText? .default) = [⟨[.bin .or (.atom "A") (.atom "B")], [.atom "A"]⟩] := by
    decide +kernel
  have herror : error? (Sequent.ofText .default "A &") = some .unexpectedEnd := by decide +kernel
  refine ⟨?_, (hrejected "A &" .unexpectedEnd (eq_error_of_error? herror)).1⟩
  rw [hreflects.root, hread]
  rfl

end Viewer

end SequentCalculus
