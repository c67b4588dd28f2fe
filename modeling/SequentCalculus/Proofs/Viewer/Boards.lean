import SequentCalculus.Proofs.Registry.Coverage
import SequentCalculus.Proofs.Tables
import SequentCalculus.Viewer

/-!
# Proofs/Viewer/Boards — the rows that stand for a derivation

A board *depicts* some trees if its items have the shape of the trees, with the texts of their nodes,
and its table sends each item to its node and holds nothing else (`Board.Depicts`).

Rows are put in one at a time, a parent before its children, and an item finds its place by the name of
its parent.  What a whole insertion does is said by `Board.Adds`: some items come last under the parent,
the table gets their names in the order of the rows, and what was there is kept.  It is built up in two
steps, `Adds.append` for trees side by side and `Adds.node` for a node above its children.  The second is
where names matter: children are put under the name of their parent, which was handed out just before
and so belongs to no other item (`append_under_new`).
-/

namespace SequentCalculus

/-! ## Items under items -/

namespace TreeItem

theorem idsForest_append (is js : List TreeItem) :
    idsForest (is ++ js) = idsForest is ++ idsForest js := by
  induction is with
  | nil => rfl
  | cons i is ih => rw [List.cons_append, idsForest, ih, idsForest, List.append_assoc]

theorem idsForest_singleton (i : TreeItem) : idsForest [i] = i.ids := by
  rw [idsForest, idsForest, List.append_nil]

theorem graftForest_append (p : Nat) (new is js : List TreeItem) :
    graftForest p new (is ++ js) = graftForest p new is ++ graftForest p new js := by
  induction is with
  | nil => rfl
  | cons i is ih => rw [List.cons_append, graftForest, ih, graftForest, List.cons_append]

mutual

theorem graft_nil (p : Nat) : ∀ i : TreeItem, graft p [] i = i
  | item id text below => by rw [graft, List.append_nil, graftForest_nil p below, ite_self]

theorem graftForest_nil (p : Nat) : ∀ items : List TreeItem, graftForest p [] items = items
  | [] => rfl
  | i :: items => by rw [graftForest, graft_nil p i, graftForest_nil p items]

end

mutual

/-- Items put under a name twice are put there together. -/
theorem graft_graft (p : Nat) (is js : List TreeItem) :
    ∀ i : TreeItem, graft p js (graft p is i) = graft p (is ++ js) i
  | item id text below => by
    by_cases h : id = p
    · simp only [graft, if_pos h, List.append_assoc]
    · simp only [graft, if_neg h, graftForest_graftForest p is js below]

theorem graftForest_graftForest (p : Nat) (is js : List TreeItem) :
    ∀ items : List TreeItem,
      graftForest p js (graftForest p is items) = graftForest p (is ++ js) items
  | [] => rfl
  | i :: items => by
    simp only [graftForest, graft_graft p is js i, graftForest_graftForest p is js items]

end

mutual

/-- Nothing is put under a name that is not there. -/
theorem graft_of_not_mem {p : Nat} (new : List TreeItem) :
    ∀ i : TreeItem, p ∉ i.ids → graft p new i = i
  | item id text below, h => by
    rw [ids, List.mem_cons, not_or] at h
    rw [graft, if_neg (Ne.symm h.1), graftForest_of_not_mem new below h.2]

theorem graftForest_of_not_mem {p : Nat} (new : List TreeItem) :
    ∀ items : List TreeItem, p ∉ idsForest items → graftForest p new items = items
  | [], _ => rfl
  | i :: items, h => by
    rw [idsForest, List.mem_append, not_or] at h
    rw [graftForest, graft_of_not_mem new i h.1, graftForest_of_not_mem new items h.2]

end

mutual

/-- What is put under a name that was not there is put under the items that came with the name. -/
theorem graft_graft_of_not_mem (p : Nat) {q : Nat} (is new : List TreeItem) :
    ∀ i : TreeItem, q ∉ i.ids → graft q new (graft p is i) = graft p (graftForest q new is) i
  | item id text below, h => by
    rw [ids, List.mem_cons, not_or] at h
    -- at `p` the new items come last, and only among them can `q` be found
    by_cases hid : id = p
    · simp only [graft, if_pos hid, if_neg (Ne.symm h.1), graftForest_append,
        graftForest_of_not_mem new below h.2]
    · simp only [graft, if_neg hid, if_neg (Ne.symm h.1),
        graftForest_graftForest_of_not_mem p is new below h.2]

theorem graftForest_graftForest_of_not_mem (p : Nat) {q : Nat} (is new : List TreeItem) :
    ∀ items : List TreeItem, q ∉ idsForest items →
      graftForest q new (graftForest p is items) = graftForest p (graftForest q new is) items
  | [], _ => rfl
  | i :: items, h => by
    rw [idsForest, List.mem_append, not_or] at h
    simp only [graftForest, graft_graft_of_not_mem p is new i h.1,
      graftForest_graftForest_of_not_mem p is new items h.2]

end

mutual

theorem mem_ids_graft {p n : Nat} {new : List TreeItem} :
    ∀ {i : TreeItem}, n ∈ (graft p new i).ids → n ∈ i.ids ∨ n ∈ idsForest new
  | item id text below, h => by
    by_cases hid : id = p
    · rw [graft, if_pos hid, ids, idsForest_append, ← List.cons_append, List.mem_append] at h
      exact h
    · rw [graft, if_neg hid, ids, List.mem_cons] at h
      rcases h with rfl | h
      · exact Or.inl List.mem_cons_self
      · exact (mem_ids_graftForest h).imp_left (List.mem_cons_of_mem _)

theorem mem_ids_graftForest {p n : Nat} {new : List TreeItem} :
    ∀ {items : List TreeItem}, n ∈ idsForest (graftForest p new items) →
      n ∈ idsForest items ∨ n ∈ idsForest new
  | i :: items, h => by
    rw [graftForest, idsForest, List.mem_append] at h
    rw [idsForest, List.mem_append]
    rcases h with h | h
    · exact (mem_ids_graft h).imp_left Or.inl
    · exact (mem_ids_graftForest h).imp_left Or.inr

end

theorem pruneForest_eq_nil {gone : List Nat} {items : List TreeItem}
    (h : ∀ i ∈ items, i.id ∈ gone) : pruneForest gone items = [] := by
  induction items with
  | nil => rfl
  | cons i items ih =>
    rw [pruneForest, if_pos (h i List.mem_cons_self)]
    exact ih fun j hj => h j (List.mem_cons_of_mem _ hj)

end TreeItem

namespace TreeView

open TreeItem

theorem append_append (items : List TreeItem) (p : Nat) (is js : List TreeItem) :
    append (append items (some p) is) (some p) js = append items (some p) (is ++ js) :=
  graftForest_graftForest p is js items

/-- **Items put under a new item come with it.** -/
theorem append_under_new {items : List TreeItem} {id : Nat} (h : id ∉ idsForest items)
    (parent : Option Nat) (text : LooseText) (below : List TreeItem) :
    append (append items parent [.item id text []]) (some id) below =
      append items parent [.item id text below] := by
  have hnew : graftForest id below [.item id text []] = [.item id text below] := by
    rw [graftForest, graft, if_pos rfl, graftForest, List.nil_append]
  rcases parent with _ | p
  · simp only [append, graftForest_append, graftForest_of_not_mem below items h, hnew]
  · simp only [append, graftForest_graftForest_of_not_mem p _ below items h, hnew]

theorem mem_ids_append {items new : List TreeItem} {parent : Option Nat} {n : Nat}
    (h : n ∈ idsForest (append items parent new)) : n ∈ idsForest items ∨ n ∈ idsForest new := by
  rcases parent with _ | p
  · rwa [append, idsForest_append, List.mem_append] at h
  · exact mem_ids_graftForest h

/-- Without its top-level items a view is empty. -/
theorem items_delete_topLevel (v : TreeView) : (v.delete v.topLevel).items = [] :=
  pruneForest_eq_nil fun _ hi => List.mem_map_of_mem hi

end TreeView

namespace Viewer.Board

/-! ## What rows stand for -/

mutual

/-- An item stands for a tree: it has the text of the root and is sent to it by the table, and the
items under it stand for the children, in order. -/
def StandsFor (r : Registry) (nodes : Table Nat Derivation) : TreeItem → Derivation → Prop
  | .item id text below, .node s rule cs =>
    rowLabel r (.node s rule cs) = .ok text ∧ nodes.get? id = some (.node s rule cs) ∧
      StandForAll r nodes below cs

/-- Items stand for trees, one for each, in order. -/
def StandForAll (r : Registry) (nodes : Table Nat Derivation) :
    List TreeItem → List Derivation → Prop
  | [], [] => True
  | i :: is, t :: ts => StandsFor r nodes i t ∧ StandForAll r nodes is ts
  | [], _ :: _ => False
  | _ :: _, [] => False

end

/-- The rows of a board stand for some trees and for nothing else: there is an item for each node, under
the item of its parent and in the order of the walk, and the table has the items and no other keys. -/
structure Depicts (r : Registry) (b : Board) (ts : List Derivation) : Prop where
  items : StandForAll r b.nodes b.tree.items ts
  keys : b.nodes.keys = b.tree.ids

variable {r : Registry} {nodes nodes' : Table Nat Derivation}

mutual

theorem StandsFor.mono (h : nodes.IsWithin nodes') :
    ∀ {i : TreeItem} {t : Derivation}, StandsFor r nodes i t → StandsFor r nodes' i t
  | .item _ _ _, .node _ _ _, ⟨htext, hnode, hbelow⟩ =>
    ⟨htext, h _ _ hnode, StandForAll.mono h hbelow⟩

theorem StandForAll.mono (h : nodes.IsWithin nodes') :
    ∀ {is : List TreeItem} {ts : List Derivation},
      StandForAll r nodes is ts → StandForAll r nodes' is ts
  | [], [], _ => trivial
  | _ :: _, _ :: _, ⟨hfirst, hrest⟩ => ⟨hfirst.mono h, hrest.mono h⟩

end

theorem StandForAll.append {is js : List TreeItem} {ts us : List Derivation}
    (h : StandForAll r nodes is ts) (h' : StandForAll r nodes js us) :
    StandForAll r nodes (is ++ js) (ts ++ us) := by
  induction is generalizing ts with
  | nil =>
    cases ts with
    | nil => exact h'
    | cons t ts => exact h.elim
  | cons i is ih =>
    cases ts with
    | nil => exact h.elim
    | cons t ts => exact ⟨h.1, ih h.2⟩

mutual

/-- The table sends the items, in the order of the rows, to the nodes in the order of the walk. -/
theorem StandsFor.map_get? :
    ∀ {i : TreeItem} {t : Derivation}, StandsFor r nodes i t →
      i.ids.map nodes.get? = t.nodes.map some
  | .item id _ below, .node s rule cs, ⟨_, hnode, hbelow⟩ => by
    rw [TreeItem.ids, List.map_cons, hnode, hbelow.map_get?, Derivation.nodes_node, List.map_cons]

theorem StandForAll.map_get? :
    ∀ {is : List TreeItem} {ts : List Derivation}, StandForAll r nodes is ts →
      (TreeItem.idsForest is).map nodes.get? = (ts.flatMap Derivation.nodes).map some
  | [], [], _ => rfl
  | i :: is, t :: ts, ⟨hfirst, hrest⟩ => by
    rw [TreeItem.idsForest, List.map_append, hfirst.map_get?, hrest.map_get?, List.flatMap_cons,
      List.map_append]

end

/-- **The table lists the nodes in the order of the walk.** -/
theorem Depicts.values {b : Board} {ts : List Derivation} (h : b.Depicts r ts) :
    b.nodes.entries.map Prod.snd = ts.flatMap Derivation.nodes := by
  have hvalues := h.items.map_get?
  change b.tree.ids.map b.nodes.get? = _ at hvalues
  rw [← h.keys, Table.map_get?_keys] at hvalues
  exact (List.map_inj_right fun _ _ => Option.some.inj).1 hvalues

theorem Depicts.mem_nodes {b : Board} {ts : List Derivation} (h : b.Depicts r ts) {id : Nat}
    {n : Derivation} (hn : b.nodes.get? id = some n) : ∃ t ∈ ts, n ∈ t.nodes := by
  have hmem : n ∈ b.nodes.entries.map Prod.snd :=
    List.mem_map_of_mem (f := Prod.snd) (Table.get?_eq_some_iff.1 hn)
  rwa [h.values, List.mem_flatMap] at hmem

/-! ## Putting in rows -/

/-- The names of the rows and of the table were handed out by the view. -/
structure Named (b : Board) : Prop where
  ids : b.tree.ids ⊆ b.tree.given
  keys : b.nodes.keys ⊆ b.tree.given

/-- The name that the next row gets. -/
def nextId (b : Board) : Nat := b.tree.names.next b.tree.given

/-- The board with one more row, which stands for a node. -/
def withRow (b : Board) (parent : Option Nat) (label : LooseText) (n : Derivation) : Board :=
  ⟨(b.tree.insert parent label).2, b.nodes.put b.nextId n⟩

theorem insertNode_of_rowLabel {s : Sequent} {rule : Option String} {cs : List Derivation}
    {label : LooseText} (h : rowLabel r (.node s rule cs) = .ok label) (b : Board)
    (parent : Option Nat) :
    insertNode r b parent (.node s rule cs) =
      (insertForest r (b.withRow parent label (.node s rule cs)) b.nextId cs).map
        (b.nextId, ·) := by
  rw [insertNode, h]
  rfl

namespace Named

variable {b : Board}

theorem nextId_not_mem_ids (h : b.Named) : b.nextId ∉ b.tree.ids :=
  fun hmem => b.tree.names.fresh _ (h.ids hmem)

theorem nextId_not_mem_keys (h : b.Named) : b.nextId ∉ b.nodes.keys :=
  fun hmem => b.tree.names.fresh _ (h.keys hmem)

theorem withRow (h : b.Named) (parent : Option Nat) (label : LooseText) (n : Derivation) :
    (b.withRow parent label n).Named := by
  constructor
  · intro id hid
    rcases TreeView.mem_ids_append hid with hid | hid
    · exact List.mem_cons_of_mem _ (h.ids hid)
    · rw [TreeItem.idsForest_singleton] at hid
      obtain rfl := List.mem_singleton.1 hid
      exact List.mem_cons_self
  · intro id hid
    rw [Board.withRow, Table.keys_put, if_neg h.nextId_not_mem_keys, List.mem_append] at hid
    rcases hid with hid | hid
    · exact List.mem_cons_of_mem _ (h.keys hid)
    · obtain rfl := List.mem_singleton.1 hid
      exact List.mem_cons_self

end Named

/-- One board comes from another by putting in items for some trees, last under a parent. -/
structure Adds (r : Registry) (b : Board) (parent : Option Nat) (new : List TreeItem)
    (ts : List Derivation) (b' : Board) : Prop where
  items : b'.tree.items = TreeView.append b.tree.items parent new
  standFor : StandForAll r b'.nodes new ts
  keys : b'.nodes.keys = b.nodes.keys ++ TreeItem.idsForest new
  keeps : b.nodes.IsWithin b'.nodes
  given : b'.tree.given = (TreeItem.idsForest new).reverse ++ b.tree.given

namespace Adds

variable {b b' b'' : Board} {parent : Option Nat} {p : Nat} {is js : List TreeItem}
  {ts us : List Derivation}

theorem named (h : Adds r b parent is ts b') (hb : b.Named) : b'.Named := by
  constructor
  · intro n hn
    rw [TreeView.ids, h.items] at hn
    rw [h.given, List.mem_append, List.mem_reverse]
    exact (TreeView.mem_ids_append hn).symm.imp_right fun hn => hb.ids hn
  · intro n hn
    rw [h.keys, List.mem_append] at hn
    rw [h.given, List.mem_append, List.mem_reverse]
    exact hn.symm.imp_right fun hn => hb.keys hn

theorem nil (b : Board) (p : Nat) : Adds r b (some p) [] [] b where
  items := (TreeItem.graftForest_nil p b.tree.items).symm
  standFor := trivial
  keys := (List.append_nil _).symm
  keeps := fun _ _ h => h
  given := rfl

/-- Trees put in side by side. -/
theorem append (h : Adds r b (some p) is ts b') (h' : Adds r b' (some p) js us b'') :
    Adds r b (some p) (is ++ js) (ts ++ us) b'' where
  items := by rw [h'.items, h.items, TreeView.append_append]
  standFor := (h.standFor.mono h'.keeps).append h'.standFor
  keys := by rw [h'.keys, h.keys, TreeItem.idsForest_append, List.append_assoc]
  keeps := h.keeps.trans h'.keeps
  given := by
    rw [h'.given, h.given, TreeItem.idsForest_append, List.reverse_append, List.append_assoc]

/-- A node put in and then its children under it. -/
theorem node {s : Sequent} {rule : Option String} {cs : List Derivation} {label : LooseText}
    {below : List TreeItem} (hb : b.Named) (hlabel : rowLabel r (.node s rule cs) = .ok label)
    (h : Adds r (b.withRow parent label (.node s rule cs)) (some b.nextId) below cs b') :
    Adds r b parent [.item b.nextId label below] [.node s rule cs] b' := by
  have hkey := hb.nextId_not_mem_keys
  refine ⟨?_, ⟨⟨hlabel, ?_, h.standFor⟩, trivial⟩, ?_, (Table.isWithin_put hkey _).trans h.keeps, ?_⟩
  -- the children were put under a name that no other item has
  · exact h.items.trans (TreeView.append_under_new hb.nextId_not_mem_ids parent label below)
  · refine h.keeps _ _ ?_
    rw [withRow, Table.get?_put, if_pos rfl]
  · rw [h.keys, withRow, Table.keys_put, if_neg hkey, List.append_assoc,
      TreeItem.idsForest_singleton]
    rfl
  · rw [h.given, TreeItem.idsForest_singleton, TreeItem.ids, List.reverse_cons, List.append_assoc]
    rfl

end Adds

mutual

/-- **A tree whose nodes can be written is put in as one item.** -/
theorem exists_insertNode {b : Board} (hb : b.Named) (parent : Option Nat) :
    ∀ t : Derivation, (∀ n ∈ t.nodes, ∃ label, rowLabel r n = .ok label) →
      ∃ i b', insertNode r b parent t = .ok (i.id, b') ∧ Adds r b parent [i] [t] b'
  | .node s rule cs, hlabels => by
    rw [Derivation.nodes_node] at hlabels
    obtain ⟨label, hlabel⟩ := hlabels _ List.mem_cons_self
    obtain ⟨below, b', hinsert, hadds⟩ :=
      exists_insertForest (hb.withRow parent label (.node s rule cs)) b.nextId cs
        fun t ht n hn => hlabels n (List.mem_cons_of_mem _ (List.mem_flatMap.2 ⟨t, ht, hn⟩))
    refine ⟨.item b.nextId label below, b', ?_, hadds.node hb hlabel⟩
    rw [insertNode_of_rowLabel hlabel, hinsert]
    rfl

theorem exists_insertForest {b : Board} (hb : b.Named) (p : Nat) :
    ∀ ts : List Derivation, (∀ t ∈ ts, ∀ n ∈ t.nodes, ∃ label, rowLabel r n = .ok label) →
      ∃ is b', insertForest r b p ts = .ok b' ∧ Adds r b (some p) is ts b'
  | [], _ => ⟨[], b, rfl, .nil b p⟩
  | t :: ts, hlabels => by
    obtain ⟨i, b₁, hfirst, hadds₁⟩ := exists_insertNode hb (some p) t (hlabels t List.mem_cons_self)
    obtain ⟨is, b', hrest, hadds⟩ := exists_insertForest (hadds₁.named hb) p ts
      fun u hu => hlabels u (List.mem_cons_of_mem _ hu)
    refine ⟨i :: is, b', ?_, hadds₁.append hadds⟩
    rw [insertForest, hfirst]
    exact hrest

end

/-- **A refilled board depicts the tree**, whatever was on it. -/
theorem exists_refill (b : Board) {t : Derivation}
    (hlabels : ∀ n ∈ t.nodes, ∃ label, rowLabel r n = .ok label) :
    ∃ b', b.refill r t = .ok b' ∧ b'.Depicts r [t] := by
  have hitems := b.tree.items_delete_topLevel
  have hnamed : Named ⟨b.tree.delete b.tree.topLevel, .empty⟩ := by
    refine ⟨?_, List.nil_subset _⟩
    rw [TreeView.ids, hitems]
    exact List.nil_subset _
  obtain ⟨i, b', hinsert, hadds⟩ := exists_insertNode hnamed none t hlabels
  have hitems' : b'.tree.items = [i] := by
    rw [hadds.items, hitems]
    rfl
  refine ⟨{ b' with tree := b'.tree.select [i.id] }, ?_, ?_, ?_⟩
  · rw [refill, hinsert]
    rfl
  · change StandForAll r b'.nodes b'.tree.items [t]
    rw [hitems']
    exact hadds.standFor
  · change b'.nodes.keys = TreeItem.idsForest b'.tree.items
    rw [hitems', hadds.keys]
    rfl

end Viewer.Board

end SequentCalculus
