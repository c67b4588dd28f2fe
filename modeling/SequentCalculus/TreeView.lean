import SequentCalculus.Text.Loose

/-!
# TreeView — rows that hang from each other

A tree view shows items under items, one to a row: an item before the items under it, and these in
the order in which they were put in.  The view hands out a name for every item that is put in, and
the item is found by it again.  Which names are handed out is left open; all that is known is that
none is handed out twice (`FreshNames`).
-/

namespace SequentCalculus

/-- A way to hand out names that were not handed out before. -/
structure FreshNames where
  /-- The next name, from all that were handed out. -/
  next : List Nat → Nat
  fresh : ∀ given, next given ∉ given

theorem le_foldr_max {n : Nat} {ns : List Nat} (h : n ∈ ns) : n ≤ ns.foldr Nat.max 0 := by
  induction ns with
  | nil => cases h
  | cons m ns ih =>
    rcases List.mem_cons.1 h with rfl | h
    · exact Nat.le_max_left ..
    · exact Nat.le_trans (ih h) (Nat.le_max_right ..)

/-- Names that count up. -/
def FreshNames.counting : FreshNames where
  next given := given.foldr Nat.max 0 + 1
  fresh _ h := Nat.not_succ_le_self _ (le_foldr_max h)

/-- An item with its name, its text and the items under it. -/
inductive TreeItem where
  | item (id : Nat) (text : LooseText) (below : List TreeItem)
  deriving Repr

namespace TreeItem

/-- The name of an item. -/
def id : TreeItem → Nat
  | item id _ _ => id

mutual

/-- The names of an item and of all items under it, in the order of the rows. -/
def ids : TreeItem → List Nat
  | item id _ below => id :: idsForest below

/-- The names of several items and of all items under them. -/
def idsForest : List TreeItem → List Nat
  | [] => []
  | i :: is => ids i ++ idsForest is

end

mutual

/-- Puts new items last among those under the item of a name. -/
def graft (parent : Nat) (new : List TreeItem) : TreeItem → TreeItem
  | item id text below =>
    if id = parent then item id text (below ++ new)
    else item id text (graftForest parent new below)

/-- Puts new items last among those under the item of a name. -/
def graftForest (parent : Nat) (new : List TreeItem) : List TreeItem → List TreeItem
  | [] => []
  | i :: is => graft parent new i :: graftForest parent new is

end

mutual

/-- Takes the items of some names away from under an item, with all that is under them. -/
def prune (gone : List Nat) : TreeItem → TreeItem
  | item id text below => item id text (pruneForest gone below)

/-- Takes away the items of some names, with all that is under them. -/
def pruneForest (gone : List Nat) : List TreeItem → List TreeItem
  | [] => []
  | i :: is =>
    if i.id ∈ gone then pruneForest gone is else prune gone i :: pruneForest gone is

end

end TreeItem

/-- A tree view. -/
structure TreeView where
  names : FreshNames := .counting
  /-- The names handed out so far. -/
  given : List Nat := []
  /-- The items that are under no other. -/
  items : List TreeItem := []
  /-- The names of the selected items. -/
  selection : List Nat := []

namespace TreeView

/-- The names of all items, in the order of the rows. -/
def ids (v : TreeView) : List Nat := TreeItem.idsForest v.items

/-- The names of the items that are under no other. -/
def topLevel (v : TreeView) : List Nat := v.items.map TreeItem.id

/-- Some items with new ones put last under a parent, or last of all without a parent. -/
def append (items : List TreeItem) (parent : Option Nat) (new : List TreeItem) : List TreeItem :=
  match parent with
  | none => items ++ new
  | some p => TreeItem.graftForest p new items

/-- Puts in an item with a text, last under its parent; the result has its name. -/
def insert (v : TreeView) (parent : Option Nat) (text : LooseText) : Nat × TreeView :=
  let id := v.names.next v.given
  (id, { v with given := id :: v.given, items := append v.items parent [.item id text []] })

/-- Takes away the items of some names, with all that is under them; what is gone is no longer
selected. -/
def delete (v : TreeView) (gone : List Nat) : TreeView :=
  let items := TreeItem.pruneForest gone v.items
  { v with items := items, selection := v.selection.filter (· ∈ TreeItem.idsForest items) }

/-- Selects the items of some names and no others. -/
def select (v : TreeView) (selection : List Nat) : TreeView := { v with selection := selection }

/-- A row as it is drawn. -/
structure Row where
  depth : Nat
  label : LooseText
  deriving DecidableEq, Repr

mutual

/-- The rows of an item at a depth. -/
def rowsFrom (depth : Nat) : TreeItem → List Row
  | .item _ text below => ⟨depth, text⟩ :: rowsForest (depth + 1) below

/-- The rows of several items at a depth. -/
def rowsForest (depth : Nat) : List TreeItem → List Row
  | [] => []
  | i :: is => rowsFrom depth i ++ rowsForest depth is

end

/-- The rows of the view. -/
def rows (v : TreeView) : List Row := rowsForest 0 v.items

end TreeView

end SequentCalculus
