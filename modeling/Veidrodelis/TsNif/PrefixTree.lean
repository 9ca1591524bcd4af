import Mathlib.Data.List.Basic
import Veidrodelis.Lib.Bytes
import Std.Data.ExtTreeMap
import Std.Data.ExtTreeSet

/-!
# The prefix tree

`RadixNode` and `PrefixWatchTree` of `native/vdr_ts_nif/src/lib.rs`: the indexes of the watchers of
key prefixes, by database. What a tree holds is told by the paths in it (`Holds`); the three
operations are each characterised by what they hold or find.
-/

namespace Veidrodelis.TsNif

/-- `RadixNode`. -/
inductive RadixNode where
  | mk (watchers : Std.ExtTreeSet Int compare) (children : List (UInt8 × RadixNode))

namespace RadixNode

def watchers : RadixNode → Std.ExtTreeSet Int compare
  | mk watchers _ => watchers

def children : RadixNode → List (UInt8 × RadixNode)
  | mk _ children => children

/-- `RadixNode::default`. -/
def empty : RadixNode := mk ∅ []

/-- `children.get`. -/
def child (node : RadixNode) (b : UInt8) : Option RadixNode := node.children.lookup b

/-- `children.remove`. -/
def removeChild (node : RadixNode) (b : UInt8) : RadixNode :=
  mk node.watchers (node.children.filter fun c => c.1 != b)

/-- Bind a byte to a child, which takes the place of the one that is there. -/
def setChild (node : RadixNode) (b : UInt8) (c : RadixNode) : RadixNode :=
  mk node.watchers ((b, c) :: (node.removeChild b).children)

/-- `is_empty`. -/
def isEmpty (node : RadixNode) : Bool := node.watchers.isEmpty && node.children.isEmpty

/-- `insert`. -/
def insert : Bytes → Int → RadixNode → RadixNode
  | [], idx, node => mk (node.watchers.insert idx) node.children
  | b :: rest, idx, node => node.setChild b (insert rest idx ((node.child b).getD empty))

/-- `delete_at` of what is left of the prefix: a child goes when nothing is left in it. -/
def deleteAt : Bytes → Int → RadixNode → RadixNode
  | [], idx, node => mk (node.watchers.erase idx) node.children
  | b :: rest, idx, node =>
    match node.child b with
    | some c =>
      let c := deleteAt rest idx c
      if c.isEmpty then node.removeChild b else node.setChild b c
    | none => node

/-- `lookup`: the watchers on the way along the key. -/
def lookup : Bytes → RadixNode → Std.ExtTreeSet Int compare → Std.ExtTreeSet Int compare
  | [], node, out => out ∪ node.watchers
  | b :: rest, node, out =>
    match node.child b with
    | some c => lookup rest c (out ∪ node.watchers)
    | none => out ∪ node.watchers

/-! ## What a node holds -/

/-- The index is in the node to which the path leads. -/
def Holds : RadixNode → Bytes → Int → Prop
  | node, [], idx => idx ∈ node.watchers
  | node, b :: rest, idx => ∃ c, node.child b = some c ∧ c.Holds rest idx

/-- The first child, or one of the others. -/
lemma lookup_first {children : List (UInt8 × RadixNode)} {b b' : UInt8} {c : RadixNode} :
    ((b, c) :: children).lookup b' = if b' = b then some c else children.lookup b' := by
  rw [List.lookup_cons]
  by_cases here : b' = b
  · simp [here]
  · rw [if_neg here, beq_eq_false_iff_ne.mpr here]

/-- A child that is filtered out is not found. -/
lemma lookup_filter {children : List (UInt8 × RadixNode)} {b b' : UInt8} :
    (children.filter fun c => c.1 != b).lookup b' =
    if b' = b then none else children.lookup b' := by
  induction children with
  | nil => simp
  | cons first rest ih =>
    obtain ⟨b₁, c⟩ := first
    rw [List.filter_cons, lookup_first]
    by_cases same : b₁ = b
    · subst same
      rw [if_neg (by simp), ih]
      split
      · rfl
      · rfl
    · rw [if_pos (by simpa using same), lookup_first, ih]
      by_cases here : b' = b₁
      · rw [if_pos here, if_pos here, if_neg (here ▸ same)]
      · rw [if_neg here, if_neg here]

/-- An empty node has no child. -/
@[simp] lemma child_empty (b : UInt8) : empty.child b = none := rfl

/-- A child that is set is found. -/
lemma child_setChild (node : RadixNode) (b b' : UInt8) (c : RadixNode) :
    (node.setChild b c).child b' = if b' = b then some c else node.child b' := by
  show List.lookup b' ((b, c) :: node.children.filter fun c => c.1 != b) = _
  rw [lookup_first, lookup_filter]
  split
  · rfl
  · rfl

/-- A child that is removed is not found. -/
lemma child_removeChild (node : RadixNode) (b b' : UInt8) :
    (node.removeChild b).child b' = if b' = b then none else node.child b' :=
  lookup_filter

/-- An empty node holds nothing. -/
lemma not_holds_empty (path : Bytes) (idx : Int) : ¬ empty.Holds path idx := by
  cases path with
  | nil => simp [Holds, empty, watchers]
  | cons b rest => simp [Holds]

/-- A node that is empty holds nothing. -/
lemma not_holds_of_isEmpty {node : RadixNode} (h : node.isEmpty = true) (path : Bytes) (idx : Int) :
    ¬ node.Holds path idx := by
  obtain ⟨watchers, children⟩ := node
  simp only [isEmpty, RadixNode.watchers, RadixNode.children, Bool.and_eq_true,
    Std.ExtTreeSet.isEmpty_iff, List.isEmpty_iff] at h
  obtain ⟨rfl, rfl⟩ := h
  exact not_holds_empty path idx

/-- Below a byte a node holds what its child does. -/
lemma holds_setChild (node : RadixNode) (b b' : UInt8) (c : RadixNode) (path : Bytes) (idx : Int) :
    (node.setChild b c).Holds (b' :: path) idx ↔
      if b' = b then c.Holds path idx else node.Holds (b' :: path) idx := by
  simp only [Holds, child_setChild]
  split
  · simp
  · rfl

/-- Below a byte that is removed a node holds nothing. -/
lemma holds_removeChild (node : RadixNode) (b b' : UInt8) (path : Bytes) (idx : Int) :
    (node.removeChild b).Holds (b' :: path) idx ↔ b' ≠ b ∧ node.Holds (b' :: path) idx := by
  simp only [Holds, child_removeChild]
  split
  · rename_i here
    simp [here]
  · rename_i other
    simp [other]

/-- An insertion adds one path with its index. -/
lemma holds_insert (pre : Bytes) (idx : Int) (node : RadixNode) (path : Bytes) (idx' : Int) :
    (insert pre idx node).Holds path idx' ↔ path = pre ∧ idx' = idx ∨ node.Holds path idx' := by
  induction pre generalizing node path with
  | nil =>
    cases path with
    | nil =>
      simp only [insert, Holds, watchers, Std.ExtTreeSet.mem_insert, true_and,
        Std.LawfulEqCmp.compare_eq_iff_eq]
      rw [eq_comm]
    | cons b rest => simp [insert, Holds, child, children]
  | cons b rest ih =>
    rw [insert]
    cases path with
    | nil => simp [Holds, setChild, watchers]
    | cons b' path =>
      rw [holds_setChild]
      split
      · rename_i here
        subst here
        rw [ih]
        cases e : node.child b' with
        | none => simp [Holds, e, not_holds_empty]
        | some c => simp [Holds, e]
      · rename_i other
        simp [other]

/-- A deletion takes away one path with its index. -/
lemma holds_deleteAt (pre : Bytes) (idx : Int) (node : RadixNode) (path : Bytes) (idx' : Int) :
    (deleteAt pre idx node).Holds path idx' ↔ node.Holds path idx' ∧
      ¬ (path = pre ∧ idx' = idx) := by
  induction pre generalizing node path with
  | nil =>
    cases path with
    | nil =>
      simp only [deleteAt, Holds, watchers, Std.ExtTreeSet.mem_erase, true_and, ne_eq,
        Std.LawfulEqCmp.compare_eq_iff_eq]
      rw [and_comm, eq_comm]
    | cons b rest => simp [deleteAt, Holds, child, children]
  | cons b rest ih =>
    rw [deleteAt]
    cases e : node.child b with
    | none =>
      refine ⟨fun h => ⟨h, ?_⟩, fun h => h.1⟩
      rintro ⟨rfl, -⟩
      simp [Holds, e] at h
    | some c =>
      have deeper (path : Bytes) (idx' : Int) : node.Holds (b :: path) idx' ↔
        c.Holds path idx' := by
        simp [Holds, e]
      simp only
      cases path with
      | nil => split <;> simp [Holds, setChild, removeChild, watchers]
      | cons b' path =>
        split
        · rename_i nothing
          -- the child has become empty: nothing was in it but what is deleted
          have left := not_holds_of_isEmpty nothing path idx'
          rw [ih] at left
          rw [holds_removeChild]
          by_cases here : b' = b
          · subst here
            simpa [deeper] using left
          · simp [here]
        · rw [holds_setChild]
          by_cases here : b' = b
          · subst here
            simp [ih, deeper]
          · simp [here]

/-- A lookup adds the indices of all prefixes of the key. -/
lemma mem_lookup (key : Bytes) (node : RadixNode) (out : Std.ExtTreeSet Int compare) (idx : Int) :
    idx ∈ lookup key node out ↔ idx ∈ out ∨ ∃ pre, pre <+: key ∧ node.Holds pre idx := by
  induction key generalizing node out with
  | nil => simp [lookup, Holds]
  | cons b rest ih =>
    rw [lookup]
    cases e : node.child b with
    | none =>
      -- without a child, only the empty prefix is in the tree
      simp only [Std.ExtTreeSet.mem_union_iff]
      constructor
      · rintro (h | h)
        · exact .inl h
        · exact .inr ⟨[], List.nil_prefix, h⟩
      · rintro (h | ⟨pre, sub, h⟩)
        · exact .inl h
        · cases pre with
          | nil => exact .inr h
          | cons b' pre =>
            obtain ⟨rfl, _⟩ := List.cons_prefix_cons.mp sub
            simp [Holds, e] at h
    | some c =>
      simp only [ih, Std.ExtTreeSet.mem_union_iff]
      constructor
      · rintro ((h | h) | ⟨pre, sub, h⟩)
        · exact .inl h
        · exact .inr ⟨[], List.nil_prefix, h⟩
        · exact .inr ⟨b :: pre, List.cons_prefix_cons.mpr ⟨rfl, sub⟩, c, e, h⟩
      · rintro (h | ⟨pre, sub, h⟩)
        · exact .inl (.inl h)
        · cases pre with
          | nil => exact .inl (.inr h)
          | cons b' pre =>
            obtain ⟨rfl, later⟩ := List.cons_prefix_cons.mp sub
            obtain ⟨c', e', h⟩ := h
            rw [e] at e'
            cases e'
            exact .inr ⟨pre, later, h⟩

end RadixNode

/-! ## Trees by database -/

/-- `PrefixWatchTree`. -/
structure PrefixWatchTree where
  roots : Std.ExtTreeMap Nat RadixNode compare

namespace PrefixWatchTree

/-- `watch_prefix_tree_create`. -/
def create : PrefixWatchTree := ⟨∅⟩

/-- `watch_prefix_tree_insert`. -/
def insert (tree : PrefixWatchTree) (db : Nat) (pre : Bytes) (idx : Int) : PrefixWatchTree :=
  ⟨tree.roots.insert db (RadixNode.insert pre idx (tree.roots[db]?.getD .empty))⟩

/-- `watch_prefix_tree_delete`. -/
def delete (tree : PrefixWatchTree) (db : Nat) (pre : Bytes) (idx : Int) : PrefixWatchTree :=
  match tree.roots[db]? with
  | some root =>
    let root := RadixNode.deleteAt pre idx root
    if root.isEmpty then ⟨tree.roots.erase db⟩ else ⟨tree.roots.insert db root⟩
  | none => tree

/-- `watch_prefix_tree_lookup`. -/
def lookup (tree : PrefixWatchTree) (db : Nat) (key : Bytes) : List Int :=
  match tree.roots[db]? with
  | some root => (RadixNode.lookup key root ∅).toList
  | none => []

/-- The index watches the prefix in the database. -/
def Holds (tree : PrefixWatchTree) (db : Nat) (pre : Bytes) (idx : Int) : Prop :=
  ∃ root, tree.roots[db]? = some root ∧ root.Holds pre idx

/-- A new tree holds nothing. -/
lemma not_holds_create (db : Nat) (pre : Bytes) (idx : Int) : ¬ create.Holds db pre idx := by
  simp [Holds, create]

/-- An insertion adds one prefix in its database. -/
lemma holds_insert (tree : PrefixWatchTree) (db db' : Nat) (pre pre' : Bytes) (idx idx' : Int) :
    (tree.insert db pre idx).Holds db' pre' idx' ↔
      db' = db ∧ pre' = pre ∧ idx' = idx ∨ tree.Holds db' pre' idx' := by
  unfold Holds insert
  simp only [Std.ExtTreeMap.getElem?_insert, Std.LawfulEqCmp.compare_eq_iff_eq]
  by_cases same : db' = db
  · subst same
    cases e : tree.roots[db']? with
    | none => simp [RadixNode.holds_insert, RadixNode.not_holds_empty]
    | some root => simp [RadixNode.holds_insert]
  · simp [same, Ne.symm same]

/-- A deletion takes away one prefix in its database. -/
lemma holds_delete (tree : PrefixWatchTree) (db db' : Nat) (pre pre' : Bytes) (idx idx' : Int) :
    (tree.delete db pre idx).Holds db' pre' idx' ↔
      tree.Holds db' pre' idx' ∧ ¬ (db' = db ∧ pre' = pre ∧ idx' = idx) := by
  unfold delete
  cases e : tree.roots[db]? with
  | none =>
    refine ⟨fun h => ⟨h, ?_⟩, fun h => h.1⟩
    rintro ⟨rfl, -⟩
    obtain ⟨root, here, _⟩ := h
    rw [e] at here
    cases here
  | some root =>
    by_cases same : db' = db
    · subst same
      have left := RadixNode.holds_deleteAt pre idx root pre' idx'
      simp only
      split
      · rename_i nothing
        have gone := RadixNode.not_holds_of_isEmpty nothing pre' idx'
        rw [left] at gone
        simp only [Holds, Std.ExtTreeMap.getElem?_erase_self, e]
        simpa using gone
      · simp [Holds, e, left]
    · simp only
      split
      · simp [Holds, Std.ExtTreeMap.getElem?_erase, same, Ne.symm same]
      · simp [Holds, Std.ExtTreeMap.getElem?_insert, same, Ne.symm same]

/-- A lookup finds the watchers of all prefixes of the key. -/
lemma mem_lookup (tree : PrefixWatchTree) (db : Nat) (key : Bytes) (idx : Int) :
    idx ∈ tree.lookup db key ↔ ∃ pre, pre <+: key ∧ tree.Holds db pre idx := by
  unfold lookup Holds
  cases e : tree.roots[db]? with
  | none => simp
  | some root =>
    simp only [Std.ExtTreeSet.mem_toList, RadixNode.mem_lookup, Std.ExtTreeSet.not_mem_empty,
      false_or, Option.some.injEq, exists_eq_left']

end PrefixWatchTree

end Veidrodelis.TsNif
