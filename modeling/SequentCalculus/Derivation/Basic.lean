import SequentCalculus.Sequent.Display

/-!
# Derivation/Basic — proof trees and how they are read

A derivation is a tree of sequents; a node may carry the label of the rule that leads to its
children.  Nothing ties the label or the children to the sequent: the trees that proof search builds
are correct derivations, but any tree of sequents can be written down and read.

Everything that is read off a tree comes from one walk, which lists the nodes before their children
and the children from left to right.
-/

namespace SequentCalculus

/-- A tree of sequents. -/
inductive Derivation where
  | node (sequent : Sequent) (rule : Option String) (children : List Derivation)
  deriving Repr

/-- What a sequent alone says about a node. -/
inductive Status where
  /-- Some formula stands on both sides. -/
  | closed
  /-- All formulas are atoms, and none stands on both sides. -/
  | refuted
  /-- A compound formula is left. -/
  | pending
  deriving DecidableEq, Repr

/-- The name of a status. -/
def Status.name : Status → String
  | closed => "axiom"
  | refuted => "counter-example"
  | pending => "open"

namespace Derivation

/-- The tree of one node without a rule. -/
def leaf (s : Sequent) : Derivation := node s none []

/-- The sequent at the root. -/
def sequent : Derivation → Sequent
  | node s _ _ => s

/-- The label of the rule at the root. -/
def rule : Derivation → Option String
  | node _ r _ => r

/-- The subtrees below the root. -/
def children : Derivation → List Derivation
  | node _ _ cs => cs

/-- Whether the root has no children. -/
def isLeaf (t : Derivation) : Bool := t.children.isEmpty

end Derivation

/-- The status of a sequent. -/
def Sequent.status (s : Sequent) : Status :=
  if s.isAxiom then .closed else if s.isAtomic then .refuted else .pending

namespace Derivation

/-- The status of the root. -/
def status (t : Derivation) : Status := t.sequent.status

mutual

/-- The nodes of a tree from a given depth on, each with its depth: a node before its children, the
children from left to right. -/
def walkFrom : Nat → Derivation → List (Derivation × Nat)
  | depth, node s r cs => (node s r cs, depth) :: walkForest (depth + 1) cs

/-- The nodes of several trees, one tree after the other. -/
def walkForest : Nat → List Derivation → List (Derivation × Nat)
  | _, [] => []
  | depth, t :: ts => walkFrom depth t ++ walkForest depth ts

end

/-- The nodes of a tree with their depths. -/
def walk (t : Derivation) : List (Derivation × Nat) := walkFrom 0 t

/-- The nodes without children, from left to right. -/
def leaves (t : Derivation) : List Derivation := (t.walk.map Prod.fst).filter (·.isLeaf)

/-- Whether every leaf is an axiom. -/
def isClosed (t : Derivation) : Bool := t.leaves.all fun leaf => leaf.status = .closed

/-- The leaves that are no axiom and have only atoms. -/
def counterExamples (t : Derivation) : List Derivation :=
  t.leaves.filter fun leaf => leaf.status = .refuted

/-- The depth of the deepest node. -/
def depth (t : Derivation) : Nat := (t.walk.map Prod.snd).foldl max 0

/-- The number of nodes. -/
def size (t : Derivation) : Nat := t.walk.length

/-- A node as a constructor applied to its quoted sequent, its rule and the number of its
children. -/
def describe (t : Derivation) : String :=
  let label := match t.rule with
    | none => "None"
    | some r => Text.quoted r
  s!"ProofNode({Text.quoted t.sequent.display}, rule={label}, children={t.children.length})"

/-! ## Equality of trees -/

mutual

/-- Whether two trees are equal. -/
def decEq : (t u : Derivation) → Decidable (t = u)
  | node s r cs, node s' r' cs' =>
    if hs : s = s' then
      if hr : r = r' then
        match decEqForest cs cs' with
        | isTrue hc => isTrue (by rw [hs, hr, hc])
        | isFalse hc => isFalse fun h => hc (node.inj h).2.2
      else isFalse fun h => hr (node.inj h).2.1
    else isFalse fun h => hs (node.inj h).1

/-- Whether two lists of trees are equal. -/
def decEqForest : (ts us : List Derivation) → Decidable (ts = us)
  | [], [] => isTrue rfl
  | [], _ :: _ => isFalse (by simp)
  | _ :: _, [] => isFalse (by simp)
  | t :: ts, u :: us =>
    match decEq t u, decEqForest ts us with
    | isTrue h, isTrue hs => isTrue (by rw [h, hs])
    | isFalse h, _ => isFalse fun hc => h (List.cons.inj hc).1
    | _, isFalse hs => isFalse fun hc => hs (List.cons.inj hc).2

end

instance : DecidableEq Derivation := decEq

/-! ## Nodes by their paths

A path lists, from the root on, the place of the child to go to, counted from either end. -/

/-- The node at a path. -/
def at? : List Int → Derivation → Option Derivation
  | [], t => some t
  | place :: path, t =>
    match indexOf? t.children.length place with
    | none => none
    | some i => t.children[i]?.bind (at? path)

/-- The tree with another subtree at a path; the nodes above keep their sequents and rules. -/
def replaceAt : List Int → Derivation → Derivation → Derivation
  | [], _, new => new
  | place :: path, t, new =>
    match indexOf? t.children.length place with
    | none => t
    | some i => node t.sequent t.rule (t.children.modify i (replaceAt path · new))

end Derivation

end SequentCalculus
