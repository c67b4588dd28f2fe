import SequentCalculus.Proofs.Console.Reports
import SequentCalculus.Proofs.Viewer.Sessions

/-!
# Proofs/Registry/Printing — a proof can be printed in the registry its sequent was read with

A registry may lack a symbol for some connectives.  Writing a sequent fails at such a connective, and a
report or a board with a node that cannot be written fails as a whole.  But a sequent that was read has
only connectives that are covered, and so has every node of its derivation
(`exists_writeSequentWith_of_mem_nodes`).  So the console comes to the end of its report and the viewer
fills its board, whatever the registry lacks.
-/

namespace SequentCalculus.Registry

/-- **What a registry reads it prints.**  If a text is read as a sequent, every node of the derivation of
the sequent can be written in the same registry, with any separator.  Every console with this registry
reports on the text to the end and gives back the derivation; and every viewer with the text in its
input field proves it and shows the derivation on its board. -/
theorem printable_of_ofText {r : Registry} {text : LooseText} {s : Sequent}
    (h : Sequent.ofText r text = .ok s) :
    (∀ n ∈ s.prove.nodes, ∀ separator,
      ∃ written, r.writeSequentWith separator n.sequent = .ok written) ∧
    (∀ c : Console, c.registry = r → ∀ latex, (c.prove latex text).result = .ok (some s.prove)) ∧
    ∀ v : Viewer, v.registry = r → v.input = text → ∃ reply, v.prove = .ok reply ∧
      reply.value = some s.prove ∧ reply.viewer.board.Depicts r [s.prove] := by
  refine ⟨fun n hn separator => exists_writeSequentWith_of_mem_nodes h hn separator, ?_, ?_⟩
  · rintro c rfl latex
    rw [Console.result_prove, Sequent.ofText?_of_ok h, Option.map_some]
  · rintro v rfl rfl
    obtain ⟨board, notice, hdepicts, hprove⟩ := Viewer.exists_prove_of_ok h
    exact ⟨_, hprove, rfl, hdepicts⟩

/-- A registry with a word for negation and a symbol for conjunction, and nothing else. -/
def sparse : Registry where
  table := ⟨[("nicht", .not), ("^", .binary .and)], by decide⟩
  accepted := by
    have h : ∀ s ∈ (["nicht", "^"] : List LooseText), (Symbol.accept s).toOption = some s := by
      decide +kernel
    exact fun s hs => ⟨s, eq_ok_of_toOption (h s hs)⟩

/-- With no symbol for a disjunction, `¬(p ∧ q) ⊢ ¬p` is read, and its derivation is printed: the node
`p ⊢ p ∧ q` with a turnstile, the whole in a report with LaTeX code and on a board. -/
theorem printable_of_ofText_sparse :
    let text : LooseText := "NICHT (p ^ q) -> nicht p"
    let p : Formula := .atom "p"
    let pq : Formula := .bin .and p (.atom "q")
    let s : Sequent := ⟨[.neg pq], [.neg p]⟩
    sparse.symbolFor (.binary .or) = .error (.noSymbol (.binary .or)) ∧
    Sequent.ofText sparse text = .ok s ∧
    (∃ written, sparse.writeSequentWith "|-" ⟨[p], [pq]⟩ = .ok written) ∧
    (Console.prove ⟨sparse, fun _ => .error .missing, false⟩ true text).result =
      .ok (some s.prove) ∧
    ∃ reply, Viewer.prove { registry := sparse, input := text } = .ok reply ∧
      reply.value = some s.prove := by
  intro text p pq s
  have hread : Sequent.ofText sparse text = .ok s := eq_ok_of_toOption (by decide +kernel)
  have hnode : Sequent.prove ⟨[p], [pq]⟩ ∈ s.prove.nodes := by decide +kernel
  obtain ⟨hnodes, hconsole, hviewer⟩ := printable_of_ofText hread
  have hwritten := hnodes _ hnode "|-"
  rw [Sequent.sequent_prove] at hwritten
  obtain ⟨reply, hprove, hvalue, -⟩ := hviewer { registry := sparse, input := text } rfl rfl
  exact ⟨rfl, hread, hwritten, hconsole ⟨sparse, _, false⟩ rfl true, reply, hprove, hvalue⟩

end SequentCalculus.Registry
