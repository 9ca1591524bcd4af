import Mathlib.Data.List.Perm.Subperm
import Mathlib.Data.List.Sort
import Mathlib.Order.RelClasses
import Mathlib.Tactic.Lemma

/-!
# Pages of ordered contents

A caller visits ordered contents page by page: the first page without a cursor, each later one
behind the last element of the page before, until a page is empty (`visit`). The contents may change
from call to call. Whatever they are, the elements are visited in order and none that is always
there is left out (`ReadsPages.visits`); if they only shrink, there is an empty page in the end
(`ReadsPages.ends`).
-/

namespace Veidrodelis

/-- Ask for pages until one is empty, at most `fuel` times: all elements of the pages, or `none` if
there may be more of them. The calls are counted from `i`. -/
def visit {β ε : Type} (read : Nat → Option β → Except ε (List β)) : Nat → Nat → Option β →
    Option (Except ε (List β))
  | 0, _, _ => none
  | fuel + 1, i, cursor =>
    match read i cursor with
    | .error fault => some (.error fault)
    | .ok elems =>
      match elems.getLast? with
      | none => some (.ok [])
      | some last => (visit read fuel (i + 1) (some last)).map fun rest => rest.map (elems ++ ·)

section
variable {β ε : Type} (r : β → β → Prop)

/-- An element is behind the cursor, if there is one. -/
def Behind (cursor : Option β) (b : β) : Prop := ∀ last ∈ cursor, r last b

variable {r} in
/-- Only the last element of ordered ones is not in front of it. -/
lemma eq_or_of_getLast? {elems : List β} {last : β} (ordered : elems.Pairwise r)
    (ends : elems.getLast? = some last) {a : β} (mem : a ∈ elems) : a = last ∨ r a last := by
  obtain ⟨init, rfl⟩ := List.getLast?_eq_some_iff.mp ends
  rcases List.mem_append.mp mem with front | here
  · exact .inr ((List.pairwise_append.mp ordered).2.2 a front last List.mem_cons_self)
  · exact .inl (List.mem_singleton.mp here)

variable [DecidableRel r]

instance (cursor : Option β) : DecidablePred (Behind r cursor) := fun b =>
  inferInstanceAs (Decidable (∀ last ∈ cursor, r last b))

/-- What is left of some contents behind the cursor. -/
def leftBehind (cursor : Option β) (contents : List β) : List β :=
  contents.filter fun b => Behind r cursor b

/-- A page of the given size. -/
def pageBehind (size : Nat) (cursor : Option β) (contents : List β) : List β :=
  (leftBehind r cursor contents).take size

/-- A caller reads pages of contents that are in order. -/
structure ReadsPages (size : Nat) (contents : Nat → List β)
    (read : Nat → Option β → Except ε (List β)) : Prop where
  positive : 1 ≤ size
  ordered : ∀ i, (contents i).Pairwise r
  reads : ∀ i cursor, read i cursor = .ok (pageBehind r size cursor (contents i))

/-- What is visited from a call on, with so many calls: elements behind its cursor, each one that is
there at some of the calls, in order, and all of those that are there at all of them. -/
structure Visits (contents : Nat → List β) (read : Nat → Option β → Except ε (List β)) (i : Nat)
    (cursor : Option β) (calls : Nat) (visited : List β) : Prop where
  stops : ∀ fuel, visit read fuel i cursor = if calls ≤ fuel then some (.ok visited) else none
  ordered : visited.Pairwise r
  behind : ∀ b ∈ visited, Behind r cursor b
  present : ∀ b ∈ visited, ∃ j, i ≤ j ∧ j < i + calls ∧ b ∈ contents j
  complete : ∀ b, Behind r cursor b → (∀ j, i ≤ j → j < i + calls → b ∈ contents j) → b ∈ visited

end

section
variable {β ε : Type} {r : β → β → Prop} [DecidableRel r] {contents : Nat → List β}
variable {size i : Nat} {cursor : Option β} {last : β} {items rest visited : List β}

/-- What is left are the items behind the cursor. -/
lemma mem_leftBehind {b : β} : b ∈ leftBehind r cursor items ↔ b ∈ items ∧ Behind r cursor b := by
  rw [leftBehind, List.mem_filter, decide_eq_true_eq]

/-- A page holds items behind the cursor. -/
lemma mem_of_mem_pageBehind {b : β} (mem : b ∈ pageBehind r size cursor items) :
    b ∈ items ∧ Behind r cursor b :=
  mem_leftBehind.mp (List.mem_of_mem_take mem)

/-- A page keeps the order of the items. -/
lemma pageBehind_ordered (ordered : items.Pairwise r) :
    (pageBehind r size cursor items).Pairwise r :=
  (ordered.filter _).sublist (List.take_sublist _ _)

/-- After an empty page nothing is left. -/
lemma leftBehind_eq_nil (positive : 1 ≤ size) (isNil : pageBehind r size cursor items = []) :
    leftBehind r cursor items = [] := by
  rcases List.take_eq_nil_iff.mp isNil with zero | isNil
  · omega
  · exact isNil

/-- The last element of a page is a border: what is left is on the page, or behind this element. -/
lemma mem_pageBehind_or (ordered : items.Pairwise r)
    (ends : (pageBehind r size cursor items).getLast? = some last) {b : β}
    (mem : b ∈ leftBehind r cursor items) : b ∈ pageBehind r size cursor items ∨ r last b := by
  have whole := List.take_append_drop size (leftBehind r cursor items)
  have apart : (leftBehind r cursor items).Pairwise r := ordered.filter _
  rw [← whole] at mem apart
  rcases List.mem_append.mp mem with here | later
  · exact .inl here
  · exact .inr ((List.pairwise_append.mp apart).2.2 last (List.mem_of_getLast? ends) b later)

/-! ## One page -/

section
variable {read : Nat → Option β → Except ε (List β)}

/-- An empty page ends the visit. -/
lemma Visits.of_empty (h : ReadsPages r size contents read)
    (isNil : pageBehind r size cursor (contents i) = []) :
    Visits r contents read i cursor 1 [] where
  stops fuel := by
    cases fuel with
    | zero => rfl
    | succ fuel =>
      simp only [visit, h.reads, isNil, List.getLast?_nil]
      exact (if_pos (Nat.le_add_left 1 fuel)).symm
  ordered := .nil
  behind := nofun
  present := nofun
  complete b behind throughout := by
    have here : b ∈ contents i := throughout i (Nat.le_refl i) (Nat.lt_succ_self i)
    have mem : b ∈ leftBehind r cursor (contents i) := mem_leftBehind.mpr ⟨here, behind⟩
    rw [leftBehind_eq_nil h.positive isNil] at mem
    cases mem

/-- A page, and what is visited behind its last element, which may be gone by then. -/
lemma Visits.of_page [IsStrictOrder β r] (h : ReadsPages r size contents read)
    (ends : (pageBehind r size cursor (contents i)).getLast? = some last) {calls : Nat}
    (later : Visits r contents read (i + 1) (some last) calls rest) :
    Visits r contents read i cursor (calls + 1)
      (pageBehind r size cursor (contents i) ++ rest) := by
  have lastBehind : Behind r cursor last := (mem_of_mem_pageBehind (List.mem_of_getLast? ends)).2
  have above {b : β} (mem : b ∈ rest) : r last b := later.behind b mem last rfl
  have ordered : (pageBehind r size cursor (contents i)).Pairwise r :=
    pageBehind_ordered (h.ordered i)
  -- `above` is all that the later pages have to say, whether `last` is still there or not
  refine ⟨fun fuel => ?_, ?_, fun b mem => ?_, fun b mem => ?_, fun b behind throughout => ?_⟩
  · cases fuel with
    | zero => exact (if_neg (Nat.not_succ_le_zero calls)).symm
    | succ fuel =>
      simp only [visit, h.reads, ends, later.stops, Nat.succ_le_succ_iff]
      split
      · rfl
      · rfl
  · refine List.pairwise_append.mpr ⟨ordered, later.ordered, fun a here b there => ?_⟩
    rcases eq_or_of_getLast? ordered ends here with rfl | front
    · exact above there
    · exact IsTrans.trans _ _ _ front (above there)
  · rcases List.mem_append.mp mem with here | there
    · exact (mem_of_mem_pageBehind here).2
    · intro first isCursor
      exact IsTrans.trans _ _ _ (lastBehind first isCursor) (above there)
  · rcases List.mem_append.mp mem with here | there
    · exact ⟨i, Nat.le_refl i, by omega, (mem_of_mem_pageBehind here).1⟩
    · obtain ⟨j, le, lt, mem⟩ := later.present b there
      exact ⟨j, by omega, by omega, mem⟩
  · have here : b ∈ contents i := throughout i (Nat.le_refl i) (by omega)
    rcases mem_pageBehind_or (h.ordered i) ends
      (mem_leftBehind.mpr ⟨here, behind⟩) with here | front
    · exact List.mem_append_left _ here
    · refine List.mem_append_right
        _ (later.complete b ?_ fun j le lt => throughout j (by omega) (by omega))
      intro cursor isLast
      rw [← Option.some.inj isLast]
      exact front

end

/-- If nothing is added, less is left after a page. -/
lemma leftBehind_shrinks [IsStrictOrder β r] (ordered : ∀ i, (contents i).Pairwise r)
    (shrinks : contents (i + 1) ⊆ contents i)
    (ends : (pageBehind r size cursor (contents i)).getLast? = some last) :
    (leftBehind r (some last) (contents (i + 1))).length <
      (leftBehind r cursor (contents i)).length := by
  have lastLeft : last ∈ leftBehind r cursor (contents i) :=
    mem_leftBehind.mpr (mem_of_mem_pageBehind (List.mem_of_getLast? ends))
  have behindLast {b : β} (mem : b ∈ leftBehind r (some last) (contents (i + 1))) : r last b :=
    (mem_leftBehind.mp mem).2 last rfl
  have distinct : (last :: leftBehind r (some last) (contents (i + 1))).Nodup := by
    refine List.nodup_cons.mpr ⟨fun mem => irrefl last (behindLast mem), ?_⟩
    exact ((ordered (i + 1)).filter _).nodup
  -- `last` was left before the page and is not behind itself
  have inside : last :: leftBehind r (some last) (contents (i + 1)) ⊆
    leftBehind r cursor (contents i) := by
    refine List.cons_subset.mpr ⟨lastLeft, fun b mem => ?_⟩
    refine mem_leftBehind.mpr ⟨shrinks (mem_leftBehind.mp mem).1, fun first isCursor => ?_⟩
    exact IsTrans.trans _ _ _ ((mem_leftBehind.mp lastLeft).2 first isCursor) (behindLast mem)
  exact distinct.length_le_of_subset inside

/-! ## All pages -/

namespace ReadsPages

variable {read : Nat → Option β → Except ε (List β)} [IsStrictOrder β r]

/-- What the caller has seen when a page is empty. -/
lemma visits (h : ReadsPages r size contents read) {fuel : Nat}
    (done : visit read fuel i cursor = some (.ok visited)) :
    ∃ calls, calls ≤ fuel ∧ Visits r contents read i cursor calls visited := by
  induction fuel generalizing i cursor visited with
  | zero => cases done
  | succ fuel ih =>
    simp only [visit, h.reads] at done
    cases ends : (pageBehind r size cursor (contents i)).getLast? with
    | none =>
      rw [ends] at done
      cases done
      exact ⟨1, by omega, .of_empty h (List.getLast?_eq_none_iff.mp ends)⟩
    | some last =>
      rw [ends] at done
      obtain ⟨result, later, same⟩ := Option.map_eq_some_iff.mp done
      cases result with
      | error fault => cases same
      | ok rest =>
        cases same
        obtain ⟨calls, le, visits⟩ := ih later
        exact ⟨calls + 1, by omega, .of_page h ends visits⟩

/-- If nothing is added, there is an empty page after no more pages than elements are left. -/
lemma ends (h : ReadsPages r size contents read) (shrinks : ∀ i, contents (i + 1) ⊆ contents i)
    {fuel : Nat} (enough : (leftBehind r cursor (contents i)).length < fuel) :
    ∃ visited, visit read fuel i cursor = some (.ok visited) := by
  induction fuel generalizing i cursor with
  | zero => cases enough
  | succ fuel ih =>
    simp only [visit, h.reads]
    cases ends : (pageBehind r size cursor (contents i)).getLast? with
    | none => exact ⟨[], rfl⟩
    | some last =>
      have less := leftBehind_shrinks h.ordered (shrinks i) ends
      obtain ⟨rest, later⟩ := @ih (i + 1) (some last) (by omega)
      refine ⟨pageBehind r size cursor (contents i) ++ rest, ?_⟩
      show Option.map _ (visit read fuel (i + 1) (some last)) = _
      rw [later]
      rfl

/-- The whole of contents that do not change. -/
lemma visit_eq (h : ReadsPages r size (fun _ => items) read) {fuel : Nat}
    (enough : items.length < fuel) : visit read fuel 0 none = some (.ok items) := by
  have all : leftBehind r none items = items :=
    List.filter_eq_self.mpr fun b _ => decide_eq_true nofun
  obtain ⟨visited, done⟩ := h.ends (fun _ => List.Subset.refl items) (i := 0) (by rwa [all])
  obtain ⟨calls, _, visits⟩ := h.visits done
  have same : visited.Perm items := by
    refine (List.perm_ext_iff_of_nodup visits.ordered.nodup (h.ordered 0).nodup).mpr fun b => ?_
    refine ⟨fun mem => ?_, fun mem => visits.complete b nofun fun _ _ _ => mem⟩
    obtain ⟨_, _, _, mem⟩ := visits.present b mem
    exact mem
  have eq : visited = items :=
    same.eq_of_pairwise (fun a b _ _ front back => absurd front (asymm back))
      visits.ordered (h.ordered 0)
  rw [done, eq]

end ReadsPages

end

end Veidrodelis
