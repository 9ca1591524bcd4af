import Veidrodelis.TsNif.ZAddRules
import Veidrodelis.TsNif.Ranks

/-!
# Batches

A command with several elements does what the commands with one element each do, one after the other
(`inTurn`), and a pop of several elements does what so many pops do. The single commands may remove
the key in the middle, when its container becomes empty, and find it missing from then on.
-/

namespace Veidrodelis.TsNif
open RedisNif (Fault)
open RedisStream (Command)
open StorageValue (hashes lists sets zsets)

/-! ## One after the other -/

/-- Operations one after the other; the first error is the error of all. -/
def inTurn {σ : Type} : List (σ → σ × Except Fault Unit) → σ → σ × Except Fault Unit
  | [], s => (s, .ok ())
  | op :: ops, s => ((inTurn ops (op s).1).1, (op s).2 >>= fun _ => (inTurn ops (op s).1).2)

section
variable {db : Nat} {key : Bytes} {ops : List SlotOp}

/-- Operations that bind the key leave it bound. -/
lemma inTurn_ne_none (binds : ∀ op ∈ ops, ∀ slot, (op slot).1 ≠ none) {slot : Slot}
    (bound : slot ≠ none) : (inTurn ops slot).1 ≠ none := by
  induction ops generalizing slot with
  | nil => exact bound
  | cons op ops ih =>
    exact ih (fun op' mem => binds op' (List.mem_cons_of_mem _ mem))
      (binds op List.mem_cons_self slot)

/-- Operations on one key, one after the other, are one operation on it. -/
lemma inTurn_atKey (s : StorageInner)
    (settled : (∀ op ∈ ops, ∀ slot, (op slot).1 ≠ none) ∨ ∀ op ∈ ops, (op none).1 = none) :
    inTurn (ops.map (atKey db key)) s = atKey db key (inTurn ops) s := by
  induction ops generalizing s with
  | nil => exact Prod.ext (StorageInner.store_lookup s db key).symm rfl
  | cons op ops ih =>
    have rest : (∀ op ∈ ops, ∀ slot, (op slot).1 ≠ none) ∨ ∀ op ∈ ops, (op none).1 = none :=
      settled.imp (fun binds op' mem => binds op' (List.mem_cons_of_mem _ mem))
        fun frees op' mem => frees op' (List.mem_cons_of_mem _ mem)
    have here : (atKey db key op s).1.lookup db key = (op (s.lookup db key)).1 :=
      lookup_atKey db key op s
    -- a key that is bound in between and removed again would leave a map for the database behind
    have kept : (inTurn ops (op (s.lookup db key)).1).1 ≠ none ∨ (op (s.lookup db key)).1 = none ∨
        s.lookup db key ≠ none := by
      rcases settled with binds | frees
      · exact .inl (inTurn_ne_none (fun op' mem => binds op' (List.mem_cons_of_mem _ mem))
          (binds op List.mem_cons_self _))
      · by_cases free : s.lookup db key = none
        · rw [free]
          exact .inr (.inl (frees op List.mem_cons_self))
        · exact .inr (.inr free)
    rw [List.map_cons, inTurn, ih _ rest, atKey, here]
    refine Prod.ext ?_ rfl
    exact StorageInner.store_store kept

end

/-! ## On a container -/

section
variable {α ε : Type} {c : Container α} {op : ε → SlotOp} {f : α → ε → α} {slot : Slot}

/-- Operations that put an element into a container, and make one for it. -/
lemma inTurn_orInsert {elems : List ε} (nonempty : elems ≠ []) :
    inTurn (elems.map fun e => c.orInsert fun a => (f a e, .ok ())) slot =
      c.orInsert (fun a => (elems.foldl f a, .ok ())) slot := by
  have held (elems : List ε) (a : α) : inTurn (elems.map fun e => c.orInsert
    fun a => (f a e, .ok ()))
      (.some (c.wrap a)) = (.some (c.wrap (elems.foldl f a)), .ok ()) := by
    induction elems generalizing a with
    | nil => rfl
    | cons e elems ih =>
      rw [List.map_cons, inTurn, Container.orInsert_wrap, ih]
      rfl
  have other (elems : List ε) (value : StorageValue) (type : c.unwrap value = none) :
      (inTurn (elems.map fun e => c.orInsert fun a => (f a e, .ok ())) (.some value)).1 =
      .some value := by
    induction elems with
    | nil => rfl
    | cons e elems ih =>
      rw [List.map_cons, inTurn, Container.orInsert_other type]
      exact ih
  obtain ⟨e, elems, rfl⟩ := List.exists_cons_of_ne_nil nonempty
  rw [List.map_cons, inTurn]
  cases c.view slot with
  | vacant =>
    rw [Container.orInsert_none, Container.orInsert_none, held]
    rfl
  | held a =>
    rw [Container.orInsert_wrap, Container.orInsert_wrap, held]
    rfl
  | other type =>
    rw [Container.orInsert_other type, Container.orInsert_other type, other _ _ type]
    rfl

/-- Operations that take an element out of a container, on containers that are good for it. The key
goes with the last element, and an empty container stays empty. -/
structure Takes (c : Container α) (Good : α → Prop) (op : ε → SlotOp) (f : α → ε → α) : Prop where
  vacant : ∀ e, op e none = (none, .ok ())
  held : ∀ a e, Good a → op e (some (c.wrap a)) = (c.unlessEmpty (f a e), .ok ())
  other : ∀ e {value}, c.unwrap value = none → op e (some value) = (some value, wrongType)
  good : ∀ a e, Good a → Good (f a e)
  empty : ∀ a e, c.isEmpty a = true → c.isEmpty (f a e) = true

variable {Good : α → Prop}

/-- Nothing is taken from a vacant key in turn. -/
lemma Takes.inTurn_none (takes : Takes c Good op f) (elems : List ε) :
    inTurn (elems.map op) none = (none, .ok ()) := by
  induction elems with
  | nil => rfl
  | cons e elems ih =>
    rw [List.map_cons, inTurn, takes.vacant, ih]
    rfl

/-- An empty container stays empty. -/
lemma Takes.isEmpty_foldl (takes : Takes c Good op f) {a : α} (isEmpty : c.isEmpty a = true)
    (elems : List ε) : c.isEmpty (elems.foldl f a) = true := by
  induction elems generalizing a with
  | nil => exact isEmpty
  | cons e elems ih => exact ih (takes.empty a e isEmpty)

/-- From where the last element may be gone, the elements go one after the other or all at once. -/
lemma Takes.inTurn_unlessEmpty (takes : Takes c Good op f) (elems : List ε) {a : α}
    (good : Good a) :
    inTurn (elems.map op) (c.unlessEmpty a) = (c.unlessEmpty (elems.foldl f a), .ok ()) := by
  induction elems generalizing a with
  | nil => rfl
  | cons e elems ih =>
    cases isEmpty : c.isEmpty a with
    | true =>
      -- the key is gone, and the other elements find it missing
      rw [Container.unlessEmpty_of_empty isEmpty, takes.inTurn_none,
        Container.unlessEmpty_of_empty (takes.isEmpty_foldl isEmpty _)]
    | false =>
      rw [Container.unlessEmpty_of_filled isEmpty, List.map_cons, inTurn, takes.held a e good,
        ih (takes.good a e good)]
      rfl

/-- Taking some elements in turn is taking them at once. -/
lemma Takes.inTurn_eq (takes : Takes c Good op f) {elems : List ε} (nonempty : elems ≠ [])
    (good : ∀ a, slot = .some (c.wrap a) → Good a) :
    inTurn (elems.map op) slot =
      c.existing (fun a => (c.unlessEmpty (elems.foldl f a), .ok ())) slot := by
  have other (elems : List ε) {value : StorageValue} (type : c.unwrap value = none) :
      (inTurn (elems.map op) (.some value)).1 = .some value := by
    induction elems with
    | nil => rfl
    | cons e elems ih =>
      rw [List.map_cons, inTurn, takes.other e type]
      exact ih
  obtain ⟨e, elems, rfl⟩ := List.exists_cons_of_ne_nil nonempty
  cases c.view slot with
  | vacant => exact takes.inTurn_none _
  | held a =>
    rw [List.map_cons, inTurn, takes.held a e (good a rfl),
      takes.inTurn_unlessEmpty _ (takes.good a e (good a rfl)), Container.existing_wrap]
    rfl
  | other type =>
    rw [List.map_cons, inTurn, takes.other e type, other _ type, Container.existing_other type]
    rfl

/-- Operations that take what is there, whatever the container. -/
lemma takes_existing (isEmpty : ∀ a e, c.isEmpty a = true → c.isEmpty (f a e) = true) :
    Takes c (fun _ => True) (fun e => c.existing fun a => (c.unlessEmpty (f a e), .ok ())) f where
  vacant _ := Container.existing_none
  held _ _ _ := Container.existing_wrap
  other _ _ type := Container.existing_other type
  good _ _ _ := trivial
  empty := isEmpty

end

/-! ## The commands -/

/-- A command with some elements does what the commands with one of them do in turn. -/
def IsSingles {ε : Type} (s : StorageInner) (command : List ε → Op) : Prop :=
  ∀ elems, elems ≠ [] → command elems s = inTurn (elems.map fun e => command [e]) s

section
variable {α ε : Type} {c : Container α} {f : α → ε → α} {s : StorageInner} {db : Nat} {key : Bytes}

/-- Operations at a key, one for each element. -/
lemma map_atKey (op : ε → SlotOp) (elems : List ε) :
    (elems.map fun e => atKey db key (op e)) = (elems.map op).map (atKey db key) := by
  rw [List.map_map]
  rfl

/-- A container that is created is there. -/
lemma orInsert_ne_none (f : α → α) (slot : Slot) :
    (c.orInsert (fun a => (f a, .ok ())) slot).1 ≠ none := by
  cases c.view slot with
  | vacant => nofun
  | held a =>
    rw [Container.orInsert_wrap]
    nofun
  | other type =>
    rw [Container.orInsert_other type]
    nofun

/-- A command that adds its elements one by one does singles. -/
lemma isSingles_orInsert {op : List ε → SlotOp}
    (each : ∀ elems, op elems = c.orInsert fun a => (elems.foldl f a, .ok ())) :
    IsSingles s fun elems => atKey db key (op elems) := by
  intro elems filled
  show atKey db key (op elems) s = inTurn (elems.map fun e => atKey db key (op [e])) s
  have single : (fun e => op [e]) = fun e => c.orInsert fun a => (f a e, .ok ()) :=
    funext fun e => each [e]
  have binds : ∀ op' ∈ elems.map fun e => op [e], ∀ slot, (op' slot).1 ≠ none := by
    rw [single]
    intro op' mem
    obtain ⟨e, _, rfl⟩ := List.mem_map.mp mem
    exact orInsert_ne_none fun a => f a e
  rw [map_atKey, inTurn_atKey s (.inl binds)]
  apply atKey_congr
  rw [single, inTurn_orInsert filled, each]

/-- A command that takes its elements one by one does singles. -/
lemma isSingles_existing {op : List ε → SlotOp}
    (each : ∀ elems, op elems = c.existing fun a => (c.unlessEmpty (elems.foldl f a), .ok ()))
    (isEmpty : ∀ a e, c.isEmpty a = true → c.isEmpty (f a e) = true) :
    IsSingles s fun elems => atKey db key (op elems) := by
  intro elems filled
  have single : (fun e => op [e]) = fun e => c.existing fun a => (c.unlessEmpty (f a e), .ok ()) :=
    funext fun e => each [e]
  have frees : ∀ op' ∈ elems.map fun e => op [e], (op' none).1 = none := by
    rw [single]
    intro op' mem
    obtain ⟨e, _, rfl⟩ := List.mem_map.mp mem
    rfl
  show atKey db key (op elems) s = inTurn (elems.map fun e => atKey db key (op [e])) s
  rw [map_atKey, inTurn_atKey s (.inr frees)]
  apply atKey_congr
  rw [single, (takes_existing isEmpty).inTurn_eq filled fun _ _ => trivial, each]

/-- Refused, a batch is refused like each of its elements. -/
lemma isSingles_refused {op : List ε → SlotOp} {fault : Fault}
    (each : ∀ elems slot, op elems slot = (slot, .error fault)) :
    IsSingles s fun elems => atKey db key (op elems) := by
  intro elems filled
  have refused (elems : List ε) : atKey db key (op elems) s = (s, .error fault) := by
    rw [atKey, each]
    exact congrArg (·, _) (StorageInner.store_lookup s db key)
  have idle (elems : List ε) : (inTurn (elems.map fun e => atKey db key (op [e])) s).1 = s := by
    induction elems with
    | nil => rfl
    | cons e elems ih =>
      rw [List.map_cons, inTurn, refused]
      exact ih
  show atKey db key (op elems) s = inTurn (elems.map fun e => atKey db key (op [e])) s
  obtain ⟨e, elems, rfl⟩ := List.exists_cons_of_ne_nil filled
  rw [refused, List.map_cons, inTurn, refused, idle]
  rfl

/-- Commands that always work, element after element. -/
lemma isSingles_foldl {command : List ε → Op} {g : StorageInner → ε → StorageInner}
    (each : ∀ elems s, command elems s = (elems.foldl g s, .ok ())) : IsSingles s command := by
  intro elems filled
  clear filled
  rw [each]
  induction elems generalizing s with
  | nil => rfl
  | cons e elems ih =>
    rw [List.map_cons, inTurn, each, ← ih]
    rfl

end

section
variable {s : StorageInner} {db : Nat} {key : Bytes}

/-- `SADD` does singles. -/
lemma sadd_isSingles : IsSingles s fun members => atKey db key (sadd members) :=
  isSingles_orInsert fun _ => rfl

/-- `LPUSH` does singles. -/
lemma lpush_isSingles : IsSingles s fun values => atKey db key (lpush values) :=
  isSingles_orInsert fun _ => rfl

/-- `RPUSH` does singles. -/
lemma rpush_isSingles : IsSingles s fun values => atKey db key (rpush values) := by
  refine isSingles_orInsert (c := lists) (f := fun items value => items ++ [value]) fun values => ?_
  have pushed (items : List Bytes) : values.foldl (fun items value => items ++ [value]) items =
    items ++ values := by
    induction values generalizing items with
    | nil => exact (List.append_nil _).symm
    | cons value values ih => rw [List.foldl_cons, ih, List.append_assoc, List.singleton_append]
  simp only [rpush, pushed]

/-- `HMSET` does singles. -/
lemma hmset_isSingles : IsSingles s fun fields => atKey db key (hmset fields) :=
  isSingles_orInsert fun _ => rfl

/-- `SREM` does singles. -/
lemma srem_isSingles : IsSingles s fun members => atKey db key (srem members) := by
  refine isSingles_existing (fun _ => rfl) fun members m isEmpty => ?_
  rw [Std.ExtTreeSet.isEmpty_iff.mp isEmpty]
  rfl

/-- `HDEL` does singles. -/
lemma hdel_isSingles : IsSingles s fun fields => atKey db key (hdel fields) := by
  refine isSingles_existing (fun _ => rfl) fun fields field isEmpty => ?_
  rw [Std.ExtTreeMap.isEmpty_iff.mp isEmpty]
  rfl

/-- `ZREM` does singles. -/
lemma zrem_isSingles : IsSingles s fun members => atKey db key (zrem members) := by
  refine isSingles_existing (fun _ => rfl) fun z member isEmpty => ?_
  have isNil : z.entries = ∅ := Std.ExtTreeMap.isEmpty_iff.mp isEmpty
  have absent : z.entries[member]? = Option.none := by simp [isNil]
  rw [ZSet.removeMember, absent]
  exact isEmpty

/-- The options decide whether the pairs are accepted, unless they are increments. -/
lemma zadd_isSingles {options : List ZAddOption} (plain : .incr ∉ options) :
    IsSingles s fun pairs => atKey db key (zadd pairs options) := by
  have same (n n' : Nat) (accepted : Accepted options n) : Accepted options n' :=
    ⟨accepted.1, accepted.2.1, fun incr => absurd incr plain⟩
  by_cases accepted : Accepted options 0
  · refine isSingles_orInsert (c := zsets) (f := fun z p =>
      z.addMember (.ofOptions options) p.1 p.2) fun pairs => ?_
    rw [zadd_accepted (same 0 _ accepted)]
    rfl
  · obtain ⟨fault, refused⟩ : ∃ fault, ∀ pairs slot, zadd pairs options slot =
      (slot, .error fault) := by
      by_cases exclusive : .nx ∈ options ∧ .xx ∈ options
      · refine ⟨.err "ERR NX and XX options at the same time are not compatible",
          fun pairs slot => ?_⟩
        simp only [zadd, ZSet.ZAddFlags.ofOptions, decide_eq_true_eq]
        exact if_pos exclusive
      · have conflict : (.gt ∈ options ∨ .lt ∈ options) ∧ .nx ∈ options := by
          by_contra other
          exact accepted ⟨exclusive, fun both => other ⟨both.2, both.1⟩,
            fun incr => absurd incr plain⟩
        refine ⟨.err "ERR GT, LT, and/or NX options at the same time are not compatible",
          fun pairs slot => ?_⟩
        simp only [zadd, ZSet.ZAddFlags.ofOptions, decide_eq_true_eq]
        rw [if_neg exclusive]
        exact if_pos conflict
    exact isSingles_refused refused

/-- `MSET` does singles. -/
lemma mset_isSingles : IsSingles s (mset db) :=
  isSingles_foldl fun _ _ => rfl

/-- `DEL` and `UNLINK` do singles. -/
lemma delAll_isSingles : IsSingles s (delAll db) :=
  isSingles_foldl fun _ _ => rfl

end

/-! ## Pops -/

/-- A pop of some elements does what so many pops do. A pop of none does nothing either, but it
refuses a value of another type. -/
structure IsPops {α : Type} (c : Container α) (s : StorageInner) (db : Nat) (key : Bytes)
    (single : SlotOp) (counted : Nat → SlotOp) : Prop where
  pops : ∀ count, 1 ≤ count →
    atKey db key (counted count) s = inTurn (List.replicate count (atKey db key single)) s
  missing : s.lookup db key = none → atKey db key (counted 0) s = (s, .ok ())
  filled : ∀ a, s.lookup db key = some (c.wrap a) → c.isEmpty a = false →
    atKey db key (counted 0) s = (s, .ok ())
  other : ∀ value, s.lookup db key = some value → c.unwrap value = none →
    atKey db key (counted 0) s = (s, wrongType)

section
variable {α : Type} {c : Container α} {Good : α → Prop} {s : StorageInner} {db : Nat} {key : Bytes}

/-- A pop that takes one element, so often, if the counted pop takes as many. -/
lemma isPops_of_takes {single : SlotOp} {counted : Nat → SlotOp} {g : α → α}
    (takes : Takes c Good (fun _ : Unit => single) fun a _ => g a)
    (vacant : ∀ count, counted count none = (none, .ok ()))
    (held : ∀ count a, Good a →
      counted count (some (c.wrap a)) = (c.unlessEmpty (g^[count] a), .ok ()))
    (other : ∀ count value, c.unwrap value = none →
      counted count (some value) = (some value, wrongType))
    (good : ∀ a, s.lookup db key = some (c.wrap a) → Good a) :
    IsPops c s db key single counted := by
  have unchanged {r : Except Fault Unit} (count : Nat)
      (same : counted count (s.lookup db key) = (s.lookup db key, r)) :
        atKey db key (counted count) s = (s, r) := by
    rw [atKey, same]
    exact congrArg (·, r) (StorageInner.store_lookup s db key)
  refine ⟨fun count positive => ?_, fun free => ?_, fun a bound filled => ?_,
    fun value bound type => ?_⟩
  · -- so many pops are operations on one key
    have ops : List.replicate count (atKey db key single) =
        ((List.replicate count ()).map fun _ => single).map (atKey db key) := by
      rw [List.map_map, List.map_replicate]
      rfl
    have frees : ∀ op ∈ (List.replicate count ()).map fun _ => single, (op none).1 = none := by
      intro op mem
      obtain ⟨_, _, rfl⟩ := List.mem_map.mp mem
      rw [takes.vacant ()]
    have nonempty : List.replicate count () ≠ [] := by
      intro nil
      rw [← List.length_eq_zero_iff, List.length_replicate] at nil
      omega
    rw [ops, inTurn_atKey s (.inr frees)]
    apply atKey_congr
    rw [takes.inTurn_eq nonempty good]
    have view := c.view (s.lookup db key)
    generalize bound : s.lookup db key = slot at view ⊢
    cases view with
    | vacant => exact vacant count
    | held a =>
      rw [held count a (good a bound), Container.existing_wrap, List.foldl_const,
        List.length_replicate]
    | other type =>
      rw [other count _ type, Container.existing_other type]
  · exact unchanged 0 (by rw [free, vacant])
  · refine unchanged 0 ?_
    rw [bound, held 0 a (good a bound), Function.iterate_zero_apply,
      Container.unlessEmpty_of_filled filled]
  · exact unchanged 0 (by rw [bound, other 0 value type])

/-- `LPOP` with a count pops as often. -/
lemma lpop_isPops : IsPops lists s db key lpop lpopCount := by
  refine isPops_of_takes (g := List.drop 1) (takes_existing fun items _ isEmpty => ?_)
    (fun _ => rfl)
    (fun count items _ => ?_) (fun count value type => Container.existing_other type)
      fun _ _ => trivial
  · rw [List.isEmpty_iff.mp isEmpty]
    rfl
  · have tail : List.drop 1 = (List.tail : List Bytes → List Bytes) := funext fun _ => List.drop_one
    have taken : items.drop (min count items.length) = items.drop count := by
      rw [List.drop_eq_drop_iff]
      omega
    rw [lpopCount, Container.existing_wrap, taken, tail, List.tail_iterate]

/-- `RPOP` with a count pops as often. -/
lemma rpop_isPops : IsPops lists s db key rpop rpopCount := by
  refine isPops_of_takes (g := List.dropLast) (takes_existing fun items _ isEmpty => ?_)
    (fun _ => rfl)
    (fun count items _ => ?_) (fun count value type => Container.existing_other type)
      fun _ _ => trivial
  · rw [List.isEmpty_iff.mp isEmpty]
    rfl
  · have size : items.length - min count items.length = items.length - count := by omega
    rw [rpopCount, Container.existing_wrap, size, ZSet.dropLast_iterate]

/-- A pop of a sorted set takes one element off the index and its member out of the entries. -/
lemma popWith_iterate {pop : ZSetIndex → Option (ZSetIndexKey × ZSetIndex)}
    (pops : OrderedSet.Pops pop) (count : Nat) {z : ZSet} (h : z.Consistent) :
    (z.popWith pop count).1 = (fun z => (ZSet.popWith pop 1 z).1)^[count] z := by
  induction count generalizing z with
  | zero => rfl
  | succ count ih =>
    rw [Function.iterate_succ_apply, ← ih (ZSet.popWith_consistent pops 1 h).1]
    rw [ZSet.popWith, ZSet.popWith]
    cases popped : pop z.index with
    | none =>
      cases count with
      | zero => rfl
      | succ count =>
        rw [ZSet.popWith, popped]
    | some p =>
      obtain ⟨k, index⟩ := p
      obtain ⟨member, score, _, rfl⟩ := (h k).mp (pops.mem popped)
      rfl

/-- Nothing is popped into a sorted set. -/
lemma popWith_empty (pop : ZSetIndex → Option (ZSetIndexKey × ZSetIndex)) {z : ZSet}
    (isEmpty : z.entries = ∅) : (z.popWith pop 1).1.entries = ∅ := by
  rw [ZSet.popWith]
  cases pop z.index with
  | none => exact isEmpty
  | some p =>
    obtain ⟨k, index⟩ := p
    cases k with
    | key score member =>
      show z.entries.erase member = ∅
      rw [isEmpty]
      rfl
    | _ => exact isEmpty

/-- The pops of a consistent sorted set. -/
lemma takes_popWith {pop : ZSetIndex → Option (ZSetIndexKey × ZSetIndex)}
    (pops : OrderedSet.Pops pop) :
    Takes zsets ZSet.Consistent
      (fun _ : Unit => zsets.existing fun z => afterRemoval (z.popWith pop 1))
      fun z _ => (z.popWith pop 1).1 where
  vacant _ := Container.existing_none
  held z _ h := by rw [Container.existing_wrap, afterRemoval_popWith pops h]
  other _ _ type := Container.existing_other type
  good z _ h := (ZSet.popWith_consistent pops 1 h).1
  empty z _ empty :=
    Std.ExtTreeMap.isEmpty_iff.mpr (popWith_empty pop (Std.ExtTreeMap.isEmpty_iff.mp empty))

/-- In a consistent storage, the sorted sets are popped like the lists. -/
lemma popWith_isPops {pop : ZSetIndex → Option (ZSetIndexKey × ZSetIndex)}
    (pops : OrderedSet.Pops pop) (h : s.Consistent) :
    IsPops zsets s db key (zsets.existing fun z => afterRemoval (z.popWith pop 1))
      fun count => zsets.existing fun z => afterRemoval (z.popWith pop count) := by
  refine isPops_of_takes (takes_popWith pops) (fun _ => rfl) (fun count z good => ?_)
    (fun count value type => Container.existing_other type) fun z held => lookup_consistent h held
  rw [Container.existing_wrap, afterRemoval_popWith pops good, popWith_iterate pops count good]

end

/-! ## On every state -/

/-- The commands with several elements, in terms of those with one, and the pops of a list. -/
structure DoesSingles (s : StorageInner) (db : Nat) (key : Bytes) : Prop where
  sadd : IsSingles s fun members => atKey db key (sadd members)
  srem : IsSingles s fun members => atKey db key (srem members)
  lpush : IsSingles s fun values => atKey db key (lpush values)
  rpush : IsSingles s fun values => atKey db key (rpush values)
  hmset : IsSingles s fun fields => atKey db key (hmset fields)
  hdel : IsSingles s fun fields => atKey db key (hdel fields)
  zrem : IsSingles s fun members => atKey db key (zrem members)
  zadd : ∀ options, .incr ∉ options → IsSingles s fun pairs => atKey db key (zadd pairs options)
  mset : IsSingles s (mset db)
  del : IsSingles s (delAll db)
  lpop : IsPops lists s db key lpop lpopCount
  rpop : IsPops lists s db key rpop rpopCount

/-- The pops of a sorted set. -/
structure PopsSingles (s : StorageInner) (db : Nat) (key : Bytes) : Prop where
  zpopmin : IsPops zsets s db key (zpopmin 1) zpopmin
  zpopmax : IsPops zsets s db key (zpopmax 1) zpopmax

/-- In every state, a batch does what its elements do in turn, and a pop with a count what so many
pops do. The sorted sets are popped from their indices, so theirs are the states that commands make
out of the empty storage. -/
theorem doesSingles [Indexset] (db : Nat) (key : Bytes) :
    (∀ s, DoesSingles s db key) ∧ ∀ commands, PopsSingles (executeAll commands .new) db key := by
  constructor
  · intro s
    exact {
      sadd := sadd_isSingles
      srem := srem_isSingles
      lpush := lpush_isSingles
      rpush := rpush_isSingles
      hmset := hmset_isSingles
      hdel := hdel_isSingles
      zrem := zrem_isSingles
      zadd := fun _ plain => zadd_isSingles plain
      mset := mset_isSingles
      del := delAll_isSingles
      lpop := lpop_isPops
      rpop := rpop_isPops }
  · intro commands
    have consistent : (executeAll commands .new).Consistent :=
      executeAll_consistent commands new_consistent
    exact {
      zpopmin := popWith_isPops OrderedSet.pops_first consistent
      zpopmax := popWith_isPops OrderedSet.pops_last consistent }

/-- A pop of no element is refused where there is no list, and no pop at all is not. -/
theorem doesSingles_string :
    ¬ ∀ count, atKey 0 (ascii "k") (lpopCount count)
      (.put .new 0 (ascii "k") (.string (ascii "v"))) =
      inTurn (List.replicate count (atKey 0 (ascii "k") lpop))
        (.put .new 0 (ascii "k") (.string (ascii "v"))) := by
  intro same
  have results : wrongType = .ok () := congrArg Prod.snd (same 0)
  cases results

end Veidrodelis.TsNif
