import Mathlib.Algebra.BigOperators.Group.Finset.Basic
import Mathlib.Algebra.Order.BigOperators.Group.Finset
import Mathlib.Data.Finset.Image
import Veidrodelis.TsNif.PrefixTree

/-!
# The nodes of the prefix tree

What a tree is after any inserts and deletes. The triples of database, prefix and index that are
left (`triplesOf`) say what every lookup finds. They also bound the tree: deleting prunes, so each
node is on the path of a triple (`Pruned`, `mem_nodes`), and no path has two nodes.
-/

namespace Veidrodelis.TsNif

namespace RadixNode

/-! ## The nodes of a tree -/

mutual

/-- The nodes, with the paths that lead to them. -/
def nodes : RadixNode → List (Bytes × RadixNode)
  | mk watchers children => ([], mk watchers children) :: nodesBelow children

@[inherit_doc nodes]
def nodesBelow : List (UInt8 × RadixNode) → List (Bytes × RadixNode)
  | [] => []
  | (b, c) :: rest => (nodes c).map (fun (path, node) => (b :: path, node)) ++ nodesBelow rest

end

/-- No child is empty, and each has a byte of its own. -/
inductive Pruned : RadixNode → Prop where
  | mk {watchers : Std.ExtTreeSet Int compare} {children : List (UInt8 × RadixNode)}
      (distinct : (children.map (·.1)).Nodup)
      (filled : ∀ b c, (b, c) ∈ children → c.isEmpty = false)
      (below : ∀ b c, (b, c) ∈ children → Pruned c) : Pruned (mk watchers children)

variable {node c : RadixNode} {b : UInt8} {pre : Bytes} {idx : Int}

/-- The children of a pruned node are distinct, filled and pruned. -/
lemma Pruned.children (h : Pruned node) : (node.children.map (·.1)).Nodup ∧
    ∀ b c, (b, c) ∈ node.children → c.isEmpty = false ∧ Pruned c := by
  cases h with
  | mk distinct filled below => exact ⟨distinct, fun b c mem => ⟨filled b c mem, below b c mem⟩⟩

/-- An empty node is pruned. -/
lemma pruned_empty : Pruned empty := .mk .nil nofun nofun

/-- Only the children matter. -/
lemma Pruned.watchers (h : Pruned node) (watchers : Std.ExtTreeSet Int compare) :
    Pruned (RadixNode.mk watchers node.children) := by
  obtain ⟨distinct, below⟩ := h.children
  exact .mk distinct (fun b c mem => (below b c mem).1) fun b c mem => (below b c mem).2

/-- A child that is found is one. -/
lemma mem_of_child (h : node.child b = some c) : (b, c) ∈ node.children := by
  rw [child, List.lookup_eq_some_iff] at h
  obtain ⟨front, back, eq, _⟩ := h
  rw [eq]
  exact List.mem_append_right _ List.mem_cons_self

/-- To remove a child keeps a node pruned. -/
lemma Pruned.removeChild (h : Pruned node) (b : UInt8) : Pruned (node.removeChild b) := by
  obtain ⟨distinct, below⟩ := h.children
  refine .mk ?_ ?_ ?_
  · exact distinct.sublist (List.filter_sublist.map _)
  · exact fun b' c mem => (below b' c (List.mem_of_mem_filter mem)).1
  · exact fun b' c mem => (below b' c (List.mem_of_mem_filter mem)).2

/-- To set a filled child keeps a node pruned. -/
lemma Pruned.setChild (h : Pruned node) (filled : c.isEmpty = false) (pruned : Pruned c)
    (b : UInt8) : Pruned (node.setChild b c) := by
  have rest := (h.removeChild b).children
  refine .mk ?_ ?_ ?_
  · rw [List.map_cons, List.nodup_cons]
    refine ⟨?_, rest.1⟩
    intro mem
    obtain ⟨⟨b', c'⟩, mem, eq⟩ := List.mem_map.mp mem
    have other := (List.mem_filter.mp mem).2
    simp [show b' = b from eq] at other
  · intro b' c' mem
    obtain eq | mem := List.mem_cons.mp mem
    · cases eq
      exact filled
    · exact (rest.2 b' c' mem).1
  · intro b' c' mem
    obtain eq | mem := List.mem_cons.mp mem
    · cases eq
      exact pruned
    · exact (rest.2 b' c' mem).2

/-! ## Inserting and deleting -/

/-- What is inserted into is not empty. -/
lemma insert_filled (pre : Bytes) (idx : Int) (node : RadixNode) :
    (insert pre idx node).isEmpty = false := by
  cases pre with
  | nil => simp [insert, isEmpty, RadixNode.watchers]
  | cons b rest => simp [insert, isEmpty, setChild, RadixNode.children]

/-- An insertion keeps a node pruned. -/
lemma Pruned.insert (h : Pruned node) (pre : Bytes) (idx : Int) : Pruned (insert pre idx node) := by
  induction pre generalizing node with
  | nil => exact h.watchers _
  | cons b rest ih =>
    rw [RadixNode.insert]
    apply h.setChild (insert_filled _ _ _)
    apply ih
    cases e : node.child b with
    | none => exact pruned_empty
    | some c => exact (h.children.2 b c (mem_of_child e)).2

/-- A deletion keeps a node pruned. -/
lemma Pruned.deleteAt (h : Pruned node) (pre : Bytes) (idx : Int) :
    Pruned (deleteAt pre idx node) := by
  induction pre generalizing node with
  | nil => exact h.watchers _
  | cons b rest ih =>
    rw [RadixNode.deleteAt]
    cases e : node.child b with
    | none => exact h
    | some c =>
      simp only
      split
      · exact h.removeChild b
      · rename_i filled
        rw [Bool.not_eq_true] at filled
        exact h.setChild filled (ih (h.children.2 b c (mem_of_child e)).2) b

/-! ## The paths of the nodes -/

/-- The nodes below are those of the children. -/
lemma mem_nodesBelow {children : List (UInt8 × RadixNode)} {path : Bytes} :
    (path, node) ∈ nodesBelow children ↔
      ∃ b c rest, (b, c) ∈ children ∧ path = b :: rest ∧ (rest, node) ∈ nodes c := by
  induction children with
  | nil => simp [nodesBelow]
  | cons first others ih =>
    obtain ⟨b, c⟩ := first
    rw [nodesBelow, List.mem_append, ih, List.mem_map]
    constructor
    · rintro (⟨⟨rest, node'⟩, mem, eq⟩ | ⟨b', c', rest, mem, eq, inside⟩)
      · cases eq
        exact ⟨b, c, rest, List.mem_cons_self, rfl, mem⟩
      · exact ⟨b', c', rest, List.mem_cons_of_mem _ mem, eq, inside⟩
    · rintro ⟨b', c', rest, mem, rfl, inside⟩
      obtain eq | mem := List.mem_cons.mp mem
      · cases eq
        exact .inl ⟨(rest, node), inside, rfl⟩
      · exact .inr ⟨b', c', rest, mem, rfl, inside⟩

/-- The nodes are the node itself and those below it. -/
lemma mem_nodes {path : Bytes} : (path, c) ∈ nodes node ↔ path = [] ∧ c = node ∨
    ∃ b child rest, (b, child) ∈ node.children ∧ path = b :: rest ∧ (rest, c) ∈ nodes child := by
  obtain ⟨watchers, children⟩ := node
  rw [nodes, List.mem_cons, mem_nodesBelow, Prod.mk.injEq]
  rfl

/-- In a pruned tree every node is there for somebody. -/
lemma Pruned.nodes_filled (h : Pruned node) (filled : node.isEmpty = false) {path : Bytes}
    (mem : (path, c) ∈ nodes node) : Pruned c ∧ c.isEmpty = false := by
  induction path generalizing node with
  | nil =>
    obtain ⟨-, rfl⟩ | ⟨_, _, _, _, eq, _⟩ := mem_nodes.mp mem
    · exact ⟨h, filled⟩
    · cases eq
  | cons b rest ih =>
    obtain ⟨eq, _⟩ | ⟨_, child, _, here, eq, inside⟩ := mem_nodes.mp mem
    · cases eq
    · cases eq
      obtain ⟨filled, pruned⟩ := h.children.2 b child here
      exact ih pruned filled inside

/-- Among distinct children each one is found. -/
lemma child_of_mem {children : List (UInt8 × RadixNode)} (distinct : (children.map (·.1)).Nodup)
    (mem : (b, c) ∈ children) : children.lookup b = some c := by
  induction children with
  | nil => cases mem
  | cons first rest ih =>
    obtain ⟨b', c'⟩ := first
    rw [List.map_cons, List.nodup_cons] at distinct
    rw [lookup_first]
    obtain eq | later := List.mem_cons.mp mem
    · cases eq
      rw [if_pos rfl]
    · rw [if_neg, ih distinct.2 later]
      intro eq
      exact distinct.1 (eq ▸ List.mem_map.mpr ⟨(b, c), later, rfl⟩)

/-- A pruned tree that is not empty holds something. -/
lemma Pruned.holds (h : Pruned node) (filled : node.isEmpty = false) :
    ∃ pre idx, node.Holds pre idx := by
  induction h with
  | @mk watchers children distinct below _ ih =>
    cases children with
    | nil =>
      have nonempty : watchers.isEmpty = false := by
        simpa [isEmpty, RadixNode.watchers, RadixNode.children] using filled
      rw [← Std.ExtTreeSet.isEmpty_toList, List.isEmpty_eq_false_iff] at nonempty
      obtain ⟨idx, mem⟩ := List.exists_mem_of_ne_nil _ nonempty
      exact ⟨[], idx, Std.ExtTreeSet.mem_toList.mp mem⟩
    | cons first rest =>
      obtain ⟨b, c⟩ := first
      obtain ⟨pre, idx, held⟩ := ih b c List.mem_cons_self (below b c List.mem_cons_self)
      exact ⟨b :: pre, idx, c, child_of_mem distinct List.mem_cons_self, held⟩

/-- Each node is on the path of something that the tree holds. -/
lemma Pruned.holds_below (h : Pruned node) (filled : node.isEmpty = false) {path : Bytes}
    (mem : (path, c) ∈ nodes node) : ∃ pre idx, path <+: pre ∧ node.Holds pre idx := by
  induction path generalizing node with
  | nil =>
    obtain ⟨pre, idx, held⟩ := h.holds filled
    exact ⟨pre, idx, List.nil_prefix, held⟩
  | cons b rest ih =>
    obtain ⟨eq, _⟩ | ⟨_, child, _, here, eq, inside⟩ := mem_nodes.mp mem
    · cases eq
    · cases eq
      obtain ⟨filled, pruned⟩ := h.children.2 b child here
      obtain ⟨pre, idx, sub, held⟩ := ih pruned filled inside
      exact ⟨b :: pre, idx, List.cons_prefix_cons.mpr ⟨rfl, sub⟩, child,
        child_of_mem h.children.1 here, held⟩

/-- No path below occurs twice. -/
lemma paths_nodupBelow {children : List (UInt8 × RadixNode)} (distinct : (children.map (·.1)).Nodup)
    (each : ∀ b c, (b, c) ∈ children → ((nodes c).map (·.1)).Nodup) :
    ((nodesBelow children).map (·.1)).Nodup := by
  induction children with
  | nil => exact .nil
  | cons first rest ih =>
    obtain ⟨b, c⟩ := first
    rw [List.map_cons, List.nodup_cons] at distinct
    rw [nodesBelow, List.map_append, List.nodup_append]
    refine ⟨?_, ih distinct.2 fun b c mem => each b c (List.mem_cons_of_mem _ mem), ?_⟩
    · rw [List.map_map]
      have paths : (Prod.fst ∘ fun (p : Bytes × RadixNode) => (b :: p.1, p.2)) =
        (b :: ·) ∘ Prod.fst := rfl
      rw [paths, ← List.map_map]
      exact (each b c List.mem_cons_self).map List.cons_injective
    · rintro path here path' there rfl
      obtain ⟨inner, node, _, rfl⟩ : ∃ inner node, (inner, node) ∈ nodes c ∧ b :: inner = path := by
        simpa using here
      obtain ⟨node', later⟩ : ∃ node', (b :: inner, node') ∈ nodesBelow rest := by
        simpa using there
      obtain ⟨b', c', _, among, eq, _⟩ := mem_nodesBelow.mp later
      cases eq
      exact distinct.1 (List.mem_map.mpr ⟨(b, c'), among, rfl⟩)

/-- No path leads to two nodes. -/
lemma Pruned.paths_nodup (h : Pruned node) : ((nodes node).map (·.1)).Nodup := by
  induction h with
  | mk distinct _ _ ih =>
    rw [nodes, List.map_cons, List.nodup_cons]
    refine ⟨?_, paths_nodupBelow distinct ih⟩
    intro mem
    obtain ⟨⟨_, _⟩, mem, eq⟩ := List.mem_map.mp mem
    obtain ⟨_, _, _, _, rfl, _⟩ := mem_nodesBelow.mp mem
    cases eq

end RadixNode

/-! ## Trees after inserts and deletes -/

namespace PrefixWatchTree

/-- An insert or a delete. -/
inductive Change where
  | insert (db : Nat) (pre : Bytes) (idx : Int)
  | delete (db : Nat) (pre : Bytes) (idx : Int)
  deriving DecidableEq, Repr

/-- Make a change. -/
def apply (tree : PrefixWatchTree) : Change → PrefixWatchTree
  | .insert db pre idx => tree.insert db pre idx
  | .delete db pre idx => tree.delete db pre idx

/-- The tree after some changes. -/
def run (changes : List Change) : PrefixWatchTree := changes.foldl apply create

/-- The triples that are left after one more change. -/
def Change.on (triples : Finset (Nat × Bytes × Int)) : Change → Finset (Nat × Bytes × Int)
  | .insert db pre idx => Insert.insert (db, pre, idx) triples
  | .delete db pre idx => triples.erase (db, pre, idx)

/-- The triples that are left after some changes. -/
def triplesOf (changes : List Change) : Finset (Nat × Bytes × Int) := changes.foldl Change.on ∅

/-- The nodes of all databases. -/
def nodes (tree : PrefixWatchTree) : List ((Nat × Bytes) × RadixNode) :=
  tree.roots.toList.flatMap fun (db, root) => root.nodes.map fun (path, node) => ((db, path), node)

/-- Every root is pruned, and none is empty. -/
def Pruned (tree : PrefixWatchTree) : Prop :=
  ∀ (db : Nat) root, tree.roots[db]? = some root → root.Pruned ∧ root.isEmpty = false

variable {tree : PrefixWatchTree}

/-- A new tree is pruned. -/
lemma pruned_create : create.Pruned := by
  intro db root here
  simp [create] at here

/-- An insertion keeps the tree pruned. -/
lemma Pruned.insert (h : tree.Pruned) (db : Nat) (pre : Bytes) (idx : Int) :
    (tree.insert db pre idx).Pruned := by
  intro db' root here
  rw [PrefixWatchTree.insert, Std.ExtTreeMap.getElem?_insert] at here
  split at here
  · cases here
    refine ⟨RadixNode.Pruned.insert ?_ pre idx, RadixNode.insert_filled _ _ _⟩
    cases e : tree.roots[db]? with
    | none => exact RadixNode.pruned_empty
    | some root => exact (h db root e).1
  · exact h db' root here

/-- A deletion keeps the tree pruned. -/
lemma Pruned.delete (h : tree.Pruned) (db : Nat) (pre : Bytes) (idx : Int) :
    (tree.delete db pre idx).Pruned := by
  unfold PrefixWatchTree.delete
  cases e : tree.roots[db]? with
  | none => exact h
  | some root =>
    intro db' root' here
    simp only at here
    split at here
    · rw [Std.ExtTreeMap.getElem?_erase] at here
      split at here
      · cases here
      · exact h db' root' here
    · rename_i filled
      rw [Std.ExtTreeMap.getElem?_insert] at here
      split at here
      · cases here
        rw [Bool.not_eq_true] at filled
        exact ⟨(h db root e).1.deleteAt pre idx, filled⟩
      · exact h db' root' here

/-- After any changes, the tree is pruned and holds the triples that are left. -/
lemma run_holds (changes : List Change) : (run changes).Pruned ∧
    ∀ db pre idx, (run changes).Holds db pre idx ↔ (db, pre, idx) ∈ triplesOf changes := by
  suffices all : ∀ (tree : PrefixWatchTree) triples, tree.Pruned →
      (∀ db pre idx, tree.Holds db pre idx ↔ (db, pre, idx) ∈ triples) →
      (changes.foldl apply tree).Pruned ∧ ∀ db pre idx,
        (changes.foldl apply tree).Holds db pre idx ↔
        (db, pre, idx) ∈ changes.foldl Change.on triples by
    refine all create ∅ pruned_create fun db pre idx => ?_
    simp [not_holds_create]
  induction changes with
  | nil => exact fun tree triples pruned holds => ⟨pruned, holds⟩
  | cons change rest ih =>
    intro tree triples pruned holds
    rw [List.foldl_cons, List.foldl_cons]
    cases change with
    | insert db pre idx =>
      refine ih _ _ (pruned.insert db pre idx) fun db' pre' idx' => ?_
      rw [apply, holds_insert, holds, Change.on, Finset.mem_insert, Prod.mk.injEq, Prod.mk.injEq]
    | delete db pre idx =>
      refine ih _ _ (pruned.delete db pre idx) fun db' pre' idx' => ?_
      rw [apply, holds_delete, holds, Change.on, Finset.mem_erase, ne_eq, Prod.mk.injEq,
        Prod.mk.injEq, and_comm]

/-! ### The size of a tree -/

/-- The nodes of a tree are those of its roots. -/
lemma mem_nodes {db : Nat} {path : Bytes} {node : RadixNode} : ((db, path), node) ∈ tree.nodes ↔
    ∃ root, tree.roots[db]? = some root ∧ (path, node) ∈ root.nodes := by
  unfold nodes
  simp only [List.mem_flatMap, List.mem_map, Prod.exists, Prod.mk.injEq,
    Std.ExtTreeMap.mem_toList_iff_getElem?_eq_some]
  constructor
  · rintro ⟨db', root, here, path', node', mem, ⟨rfl, rfl⟩, rfl⟩
    exact ⟨root, here, mem⟩
  · rintro ⟨root, here, mem⟩
    exact ⟨db, root, here, path, node, mem, ⟨rfl, rfl⟩, rfl⟩

/-- No path leads to two nodes. -/
lemma Pruned.paths_nodup (h : tree.Pruned) : (tree.nodes.map (·.1)).Nodup := by
  rw [nodes, List.map_flatMap, List.nodup_flatMap]
  constructor
  · rintro ⟨db, root⟩ mem
    have pruned := (h db root (Std.ExtTreeMap.mem_toList_iff_getElem?_eq_some.mp mem)).1
    rw [List.map_map]
    have paths : (Prod.fst ∘ fun (p : Bytes × RadixNode) => ((db, p.1), p.2)) =
      (db, ·) ∘ Prod.fst := rfl
    rw [paths, ← List.map_map]
    exact pruned.paths_nodup.map (Prod.mk_right_injective db)
  · refine Std.ExtTreeMap.distinct_keys_toList.imp ?_
    rintro ⟨db, root⟩ ⟨db', root'⟩ other ⟨db'', path⟩ here there
    obtain ⟨_, rfl⟩ : (∃ node, (path, node) ∈ root.nodes) ∧ db = db'' := by
      simpa using here
    obtain ⟨_, rfl⟩ : (∃ node, (path, node) ∈ root'.nodes) ∧ db' = db := by
      simpa using there
    exact other Std.ReflCmp.compare_self

/-- How many nodes some triples need at most: the root and one for each byte. -/
def room (triples : Finset (Nat × Bytes × Int)) : Nat := ∑ t ∈ triples, (t.2.1.length + 1)

/-- A pruned tree has no more nodes than its prefixes have room for. -/
lemma Pruned.nodes_le (h : tree.Pruned) {triples : Finset (Nat × Bytes × Int)}
    (holds : ∀ db pre idx, tree.Holds db pre idx ↔ (db, pre, idx) ∈ triples) :
    tree.nodes.length ≤ room triples := by
  have covered : (tree.nodes.map (·.1)).toFinset ⊆
      triples.biUnion fun t => (t.2.1.inits.map fun path => (t.1, path)).toFinset := by
    rintro ⟨db, path⟩ mem
    rw [List.mem_toFinset] at mem
    obtain ⟨⟨_, node⟩, mem, rfl⟩ := List.mem_map.mp mem
    obtain ⟨root, here, mem⟩ := mem_nodes.mp mem
    obtain ⟨pruned, filled⟩ := h db root here
    obtain ⟨pre, idx, sub, held⟩ := pruned.holds_below filled mem
    rw [Finset.mem_biUnion]
    refine ⟨(db, pre, idx), (holds db pre idx).mp ⟨root, here, held⟩, ?_⟩
    rw [List.mem_toFinset, List.mem_map]
    exact ⟨path, (List.mem_inits path pre).mpr sub, rfl⟩
  calc tree.nodes.length
      = (tree.nodes.map (·.1)).toFinset.card := by
        rw [List.toFinset_card_of_nodup h.paths_nodup, List.length_map]
    _ ≤ (triples.biUnion fun t => (t.2.1.inits.map fun path => (t.1, path)).toFinset).card :=
        Finset.card_le_card covered
    _ ≤ ∑ t ∈ triples, (t.2.1.inits.map fun path => (t.1, path)).toFinset.card :=
      Finset.card_biUnion_le
    _ ≤ room triples := by
        refine Finset.sum_le_sum fun t _ => (List.toFinset_card_le _).trans ?_
        rw [List.length_map, List.length_inits]

/-- After any inserts and deletes: a lookup finds exactly the indexes of the prefixes of the key
that are left, strictly increasing; every node has watchers or children; and there are no more nodes
than the bytes of what is left. -/
theorem prefixTree (changes : List Change) :
    (∀ db key, (∀ idx, idx ∈ (run changes).lookup db key ↔
        ∃ pre, pre <+: key ∧ (db, pre, idx) ∈ triplesOf changes) ∧
      ((run changes).lookup db key).Pairwise (· < ·)) ∧
    (∀ p ∈ (run changes).nodes, p.2.isEmpty = false) ∧
    (run changes).nodes.length ≤ room (triplesOf changes) := by
  obtain ⟨pruned, holds⟩ := run_holds changes
  refine ⟨fun db key => ⟨fun idx => ?_, ?_⟩, ?_, pruned.nodes_le holds⟩
  · rw [mem_lookup]
    simp only [holds]
  · unfold lookup
    split
    · exact Std.ExtTreeSet.ordered_toList.imp fun lt => Int.compare_eq_lt.mp lt
    · exact .nil
  · rintro ⟨⟨db, path⟩, node⟩ mem
    obtain ⟨root, here, mem⟩ := mem_nodes.mp mem
    obtain ⟨rooted, filled⟩ := pruned db root here
    exact (rooted.nodes_filled filled mem).2

end PrefixWatchTree

end Veidrodelis.TsNif
