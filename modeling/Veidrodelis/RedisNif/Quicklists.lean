import Veidrodelis.RedisNif.Listpacks

/-!
# Lists

A list value is a sequence of nodes: a PLAIN node is one element, a PACKED node a listpack of
elements. The parser reads every node as a listpack (`loadQuicklist2Node_encode`). `reads_iff`:
every node contributes its elements exactly when there is no PLAIN node and the listpacks of the
PACKED nodes can be read back. Where they can, the value as a whole is right only without PLAIN
nodes (`reads_value_iff`): what several wrong nodes contribute together is never what they hold.
-/

namespace Veidrodelis.RedisNif.Quicklist
open Incremental Rdb RdbFormat
open ListpackFormat (Element encodeListpack)

/-! ## Nodes -/

/-- A node: one element as it is, or a listpack of elements. -/
inductive Node where
  | plain (blob : EncodedString)
  | packed (blob : EncodedString) (elements : List Element)
      (holds : blob.text = encodeListpack elements)

def Node.blob : Node → EncodedString
  | .plain blob => blob
  | .packed blob _ _ => blob

/-- The container byte. -/
def Node.container : Node → UInt8
  | .plain _ => 1
  | .packed .. => 2

def Node.encode (n : Node) : Bytes := n.container :: n.blob.encode

/-- The elements of the list that stand in the node. -/
def Node.elements : Node → List Bytes
  | .plain blob => [blob.text]
  | .packed _ elements _ => elements.map (·.text)

def Node.IsPlain : Node → Prop
  | .plain _ => True
  | .packed .. => False

/-- The listpack of a PACKED node can be read back. -/
def Node.Readable : Node → Prop
  | .plain _ => False
  | .packed _ elements _ => elements.length ≤ 65535 ∧ ListpackFormat.Readable elements

/-- A list: the number of its nodes and the nodes, in a buffer. -/
structure Value where
  count : Length
  nodes : List Node
  exact : count.value = nodes.length
  bound : (count.encode ++ nodes.flatMap (·.encode)).length < usizeSize

def Value.encode (v : Value) : Bytes := v.count.encode ++ v.nodes.flatMap (·.encode)

def Value.elements (v : Value) : List Bytes := v.nodes.flatMap (·.elements)

/-- The command that pushes elements to a key; none for an empty list. -/
def push (db : Nat) (key : Bytes) (elements : List Bytes) : List RawCommand :=
  if elements = [] then [] else [⟨db, ascii "RPUSH", key :: elements⟩]

/-- The value is loaded as the command that pushes its elements. -/
def Value.Loads (v : Value) : Prop :=
  ∀ db key, Reader.Reads (loadObject ValueType.listQuicklist2.code db key) v.encode
    (push db key v.elements)

/-- Every node contributes its elements, and the value is loaded as the command that pushes them
all. -/
structure Value.Reads (v : Value) : Prop where
  nodes : ∀ n ∈ v.nodes, Reader.Reads loadQuicklist2Node n.encode n.elements
  value : v.Loads

/-- Two pushes are the same only with the same elements. -/
lemma push_inj {db : Nat} {key : Bytes} {as bs : List Bytes} (h : push db key as = push db key bs) :
    as = bs := by
  unfold push at h
  split_ifs at h with a b b
  · rw [a, b]
  · simpa using h

/-! ## What a listpack can hold -/

/-- A byte of the decimal text of an integer. -/
def IsDecimal (b : UInt8) : Prop := b = 45 ∨ Bytes.isDigit b = true

/-- An integer is written in decimal characters. -/
lemma isDecimal_intText (v : Int) : ∀ b ∈ Bytes.intText v, IsDecimal b := by
  intro b hb
  cases v with
  | ofNat n => exact .inr (Bytes.all_isDigit_natText n b hb)
  | negSucc n =>
    rcases List.mem_cons.mp hb with minus | digit
    · exact .inl minus
    · exact .inr (Bytes.all_isDigit_natText (n + 1) b digit)

/-- Decimal characters are bytes below 100. -/
lemma isDecimal_bounds {b : UInt8} (h : IsDecimal b) : 10 ≤ b.toNat ∧ b.toNat < 100 := by
  rcases h with rfl | digit
  · decide
  · simp only [Bytes.isDigit, Bool.and_eq_true, decide_eq_true_eq, UInt8.le_iff_toNat_le] at digit
    obtain ⟨lower, upper⟩ := digit
    simp only [UInt8.reduceToNat] at lower upper
    omega

/-- A string that is read is no longer than the buffer, and neither is the rest. -/
lemma listpackString_shorter {len backlen : Nat} {buf text rest : Bytes}
    (h : listpackString len backlen buf = .ok (text, rest)) :
    text.length ≤ buf.length ∧ rest.length ≤ buf.length := by
  obtain ⟨-, rfl, rfl⟩ := listpackString_ok h
  simp only [List.length_take, List.length_drop]
  omega

/-- An integer that is read is the text of a number. -/
lemma listpackInt_text {width : Nat} {buf text rest : Bytes}
    (h : listpackInt width buf = .ok (text, rest)) :
    rest.length ≤ buf.length ∧ ∃ v, text = Bytes.intText v := by
  rw [listpackInt_eq] at h
  split at h
  · cases h
  · cases h
    simp only [List.length_drop]
    exact ⟨by omega, _, rfl⟩

/-- An entry is shorter than the buffer it stands in, or the text of an integer. -/
lemma entry_shorter {buf text rest : Bytes} (h : parseListpackEntry buf = .ok (text, rest)) :
    rest.length < buf.length ∧ (text.length < buf.length ∨ ∃ v, text = Bytes.intText v) := by
  have string {len backlen : Nat} {data : Bytes} (le : data.length < buf.length)
      (h : listpackString len backlen data = .ok (text, rest)) :
      rest.length < buf.length ∧ (text.length < buf.length ∨ ∃ v, text = Bytes.intText v) := by
    have shorter := listpackString_shorter h
    exact ⟨by omega, .inl (by omega)⟩
  have int {width : Nat} {data : Bytes} (le : data.length < buf.length)
      (h : listpackInt width data = .ok (text, rest)) :
      rest.length < buf.length ∧ (text.length < buf.length ∨ ∃ v, text = Bytes.intText v) := by
    obtain ⟨shorter, text⟩ := listpackInt_text h
    exact ⟨by omega, .inr text⟩
  cases buf with
  | nil => cases h
  | cons enc data =>
    have behind (n : Nat) : (data.drop n).length < (enc :: data).length := by
      simp only [List.length_drop, List.length_cons]
      omega
    have here := behind 0
    rw [List.drop_zero] at here
    rw [parseListpackEntry_cons] at h
    -- the encodings in the order in which they are tried
    rcases ite_eq_iff.mp h with ⟨-, h⟩ | ⟨-, h⟩
    · rw [listpackSeven_eq] at h
      rcases ite_eq_iff.mp h with ⟨-, h⟩ | ⟨-, h⟩
      · cases h
      · cases h
        exact ⟨behind 1, .inr ⟨((enc &&& 0x7F).toNat : Nat), rfl⟩⟩
    rcases ite_eq_iff.mp h with ⟨-, h⟩ | ⟨-, h⟩
    · exact string here h
    rcases ite_eq_iff.mp h with ⟨-, h⟩ | ⟨-, h⟩
    · rw [listpackThirteen_eq] at h
      split at h
      · cases h
        simp only [List.length_cons]
        exact ⟨by omega, .inr ⟨_, rfl⟩⟩
      · cases h
    rcases ite_eq_iff.mp h with ⟨-, h⟩ | ⟨-, h⟩
    · rw [listpackSixteen_eq] at h
      rcases ite_eq_iff.mp h with ⟨-, h⟩ | ⟨-, h⟩
      · cases h
      · exact string (behind 2) h
    rcases ite_eq_iff.mp h with ⟨-, h⟩ | ⟨-, h⟩
    · rw [listpackTwelve_eq] at h
      split at h
      · cases h
      · simp only [List.length_cons] at here
        exact string (by simp only [List.length_cons]; omega) h
    rcases ite_eq_iff.mp h with ⟨-, h⟩ | ⟨-, h⟩
    · rw [listpackThirtyTwo_eq] at h
      rcases ite_eq_iff.mp h with ⟨-, h⟩ | ⟨-, h⟩
      · cases h
      · exact string (behind 4) h
    rcases ite_eq_iff.mp h with ⟨-, h⟩ | ⟨-, h⟩
    · exact int here h
    rcases ite_eq_iff.mp h with ⟨-, h⟩ | ⟨-, h⟩
    · exact int here h
    rcases ite_eq_iff.mp h with ⟨-, h⟩ | ⟨-, h⟩
    · exact int here h
    rcases ite_eq_iff.mp h with ⟨-, h⟩ | ⟨-, h⟩
    · exact int here h
    · cases h

/-- The loop of `parse_listpack` stops, or reads one entry and goes on. -/
lemma listpackEntries_succ {n : Nat} {buf : Bytes} {texts : List Bytes}
    (h : listpackEntries (n + 1) buf = .ok texts) :
    texts = [] ∨ ∃ text rest later, parseListpackEntry buf = .ok (text, rest) ∧
      listpackEntries n rest = .ok later ∧ texts = text :: later := by
  cases buf with
  | nil =>
    cases h
    exact .inl rfl
  | cons b buf =>
    by_cases marker : b = 0xFF
    · subst marker
      rw [ListpackFormat.listpackEntries_end] at h
      cases h
      exact .inl rfl
    · exact .inr ((ListpackFormat.listpackEntries_succ_iff marker).mp h)

/-- Each text that is read is shorter than the buffer, or the text of a number. -/
lemma entries_shorter {n : Nat} {buf : Bytes} {texts : List Bytes}
    (h : listpackEntries n buf = .ok texts) :
    ∀ t ∈ texts, t.length < buf.length ∨ ∃ v, t = Bytes.intText v := by
  induction n generalizing buf texts with
  | zero =>
    cases h
    exact List.forall_mem_nil _
  | succ n ih =>
    rcases listpackEntries_succ h with rfl | ⟨text, rest, later, first, tail, rfl⟩
    · exact List.forall_mem_nil _
    · obtain ⟨shorter, head⟩ := entry_shorter first
      intro t ht
      rcases List.mem_cons.mp ht with rfl | ht
      · exact head
      · rcases ih tail t ht with length | int
        · exact .inl (by omega)
        · exact .inr int

/-- A byte of a decimal text is the whole encoding of an integer between 45 and 57. -/
lemma entry_decimal {b : UInt8} {buf text rest : Bytes} (decimal : IsDecimal b)
    (h : parseListpackEntry (b :: buf) = .ok (text, rest)) :
    text.length = 2 ∧ rest = buf.drop 1 := by
  have seven : b &&& 0x80 = 0 ∧ 10 ≤ (b &&& 0x7F).toNat ∧ (b &&& 0x7F).toNat < 100 := by
    obtain ⟨lower, upper⟩ := isDecimal_bounds decimal
    rw [← UInt8.ofNat_toNat (x := b)]
    generalize b.toNat = n at lower upper ⊢
    interval_cases n <;> decide
  obtain ⟨plain, lower, upper⟩ := seven
  rw [parseListpackEntry_cons, if_pos plain, listpackSeven_eq] at h
  split at h
  · cases h
  · cases h
    have more : ¬ (Bytes.natText (b &&& 0x7F).toNat).length ≤ 1 := by
      rw [Bytes.length_natText_le_iff (by decide)]
      omega
    have two : (Bytes.natText (b &&& 0x7F).toNat).length ≤ 2 :=
      (Bytes.length_natText_le_iff (by decide)).mpr (by omega)
    exact ⟨by omega, rfl⟩

/-- Every entry of a decimal text is an integer of two digits. -/
lemma entries_decimal {n : Nat} {buf : Bytes} {texts : List Bytes}
    (decimal : ∀ b ∈ buf, IsDecimal b) (h : listpackEntries n buf = .ok texts) :
    ∀ t ∈ texts, t.length = 2 := by
  induction n generalizing buf texts with
  | zero =>
    cases h
    exact List.forall_mem_nil _
  | succ n ih =>
    rcases listpackEntries_succ h with rfl | ⟨text, rest, later, first, tail, rfl⟩
    · exact List.forall_mem_nil _
    · cases buf with
      | nil => cases first
      | cons b buf =>
        obtain ⟨two, rfl⟩ := entry_decimal (decimal b (by simp)) first
        have remaining : ∀ c ∈ buf.drop 1, IsDecimal c := fun c hc =>
          decimal c (List.mem_cons_of_mem b (List.mem_of_mem_drop hc))
        intro t ht
        rcases List.mem_cons.mp ht with rfl | ht
        · exact two
        · exact ih remaining tail t ht

/-! ## Raw elements -/

/-- The string `t` is an entry of the listpack that `s` is read as. -/
def EntryOf (t s : Bytes) : Prop := ∃ texts, parseListpack s = .ok texts ∧ t ∈ texts

/-- What is read as a listpack has at least the six bytes of its header. -/
lemma parseListpack_long {s : Bytes} {texts : List Bytes} (h : parseListpack s = .ok texts) :
    6 ≤ s.length := by
  unfold parseListpack at h
  split at h
  · cases h
  · omega

/-- An entry is shorter than the listpack, or the text of an integer. -/
lemma EntryOf.shorter {t s : Bytes} (h : EntryOf t s) :
    t.length < s.length ∨ ∃ v, t = Bytes.intText v := by
  obtain ⟨texts, read, mem⟩ := h
  rw [parseListpack_eq] at read
  split at read
  · cases read
  · rcases entries_shorter read t mem with shorter | int
    · rw [List.length_drop] at shorter
      exact .inl (by omega)
    · exact .inr int

/-- The text of an integer, read as a listpack, has entries of two bytes only. -/
lemma EntryOf.of_int {t : Bytes} {v : Int} (h : EntryOf t (Bytes.intText v)) : t.length = 2 := by
  obtain ⟨texts, read, mem⟩ := h
  rw [parseListpack_eq] at read
  split at read
  · cases read
  · have decimal : ∀ b ∈ (Bytes.intText v).drop 6, IsDecimal b := fun b hb =>
      isDecimal_intText v b (List.mem_of_mem_drop hb)
    exact entries_decimal decimal read t mem

/-- Strings cannot all be entries of one another: a long entry stands in a string that is longer
still. -/
lemma no_cycle {texts : List Bytes} (long : ∀ t ∈ texts, 6 ≤ t.length)
    (entries : ∀ t ∈ texts, ∃ s ∈ texts, EntryOf t s) : texts = [] := by
  -- the string that an element is an entry of is not the text of an integer
  have plain {t s : Bytes} (ht : t ∈ texts) (h : EntryOf t s) : ¬ ∃ v, s = Bytes.intText v := by
    rintro ⟨v, rfl⟩
    have two := h.of_int
    have := long t ht
    omega
  have longer (n : Nat) (first : Bytes) (here : first ∈ texts) :
      ∃ t ∈ texts, n ≤ t.length ∧ ¬ ∃ v, t = Bytes.intText v := by
    induction n with
    | zero =>
      obtain ⟨s, hs, entry⟩ := entries first here
      exact ⟨s, hs, Nat.zero_le _, plain here entry⟩
    | succ n ih =>
      obtain ⟨t, ht, le, other⟩ := ih
      obtain ⟨s, hs, entry⟩ := entries t ht
      have shorter := entry.shorter.resolve_right other
      exact ⟨s, hs, by omega, plain ht entry⟩
  cases e : texts with
  | nil => rfl
  | cons first rest =>
    obtain ⟨t, ht, le, -⟩ := longer (texts.flatten.length + 1) first (by simp [e])
    have := (List.sublist_flatten_of_mem ht).length_le
    omega

/-! ## Reading -/

/-- What a node contributes is right when its listpack can be read back; a raw element is never the
one entry of itself. -/
lemma parseListpack_node_iff (n : Node) :
    parseListpack n.blob.text = .ok n.elements ↔ n.Readable := by
  cases n with
  | plain blob =>
    simp only [Node.blob, Node.elements, Node.Readable, iff_false]
    intro read
    have entry : EntryOf blob.text blob.text := ⟨_, read, by simp⟩
    have long : ∀ t ∈ [blob.text], 6 ≤ t.length := by
      intro t ht
      rw [List.mem_singleton.mp ht]
      exact parseListpack_long read
    have cycle : ∀ t ∈ [blob.text], ∃ s ∈ [blob.text], EntryOf t s := by
      intro t ht
      rw [List.mem_singleton.mp ht]
      exact ⟨blob.text, by simp, entry⟩
    have nowhere := no_cycle long cycle
    cases nowhere
  | packed blob elements holds =>
    simp only [Node.blob, Node.elements, Node.Readable, holds]
    exact ListpackFormat.parseListpack_encode_iff elements

/-- A node of a value has fewer than `2 ^ 64` bytes. -/
lemma Value.node_bound (v : Value) {n : Node} (hn : n ∈ v.nodes) :
    n.blob.encode.length < usizeSize := by
  have le : n.encode.length ≤ (v.nodes.flatMap (·.encode)).length :=
    (List.sublist_flatten_of_mem (List.mem_map_of_mem hn)).length_le
  have bound := v.bound
  simp only [Node.encode, List.length_append, List.length_cons] at le bound
  omega

/-- The value is read as the command that pushes what its nodes contribute. -/
lemma loadObject_nodes (v : Value) (db : Nat) (key rest : Bytes) :
    loadObject ValueType.listQuicklist2.code db key (v.encode ++ rest) =
      Reader.lift ((fun all => push db key all.flatten) <$> v.nodes.mapM
      fun n => parseListpack n.blob.text) rest := by
  have nodes : Reader.times v.nodes.length loadQuicklist2Node (v.nodes.flatMap (·.encode) ++ rest)
      = Reader.lift (v.nodes.mapM fun n => parseListpack n.blob.text) rest :=
    loadNodes Node.container Node.blob (fun n hn => v.node_bound hn) rest
  simp only [loadObject, ofCode_code, loadQuicklist2Value, Value.encode, List.append_assoc]
  rw [Reader.bind_done (loadLength_encode v.count _), v.exact]
  cases all : v.nodes.mapM fun n => parseListpack n.blob.text with
  | error f =>
    rw [all] at nodes
    exact Reader.bind_fault nodes
  | ok all' =>
    rw [all] at nodes
    rw [Reader.bind_done (show _ = Reading.done all' rest from nodes)]
    simp only [push, Functor.map, Except.map, Reader.lift]
    split <;> rfl

/-- The value as a whole is right when the contributions of its nodes, in order, are its
elements. -/
lemma loads_iff_reads (v : Value) :
    v.Loads ↔ ∃ all, (v.nodes.mapM fun n => parseListpack n.blob.text) = .ok all ∧
      all.flatten = v.elements := by
  constructor
  · intro loads
    have read := loads 0 [] []
    rw [loadObject_nodes] at read
    cases all : v.nodes.mapM fun n => parseListpack n.blob.text with
    | error f =>
      rw [all] at read
      cases read
    | ok all' =>
      rw [all] at read
      simp only [Functor.map, Except.map, Reader.lift, Reading.done.injEq, and_true] at read
      exact ⟨all', rfl, push_inj read⟩
  · rintro ⟨all, read, elements⟩ db key rest
    rw [loadObject_nodes, read, ← elements]
    rfl

/-- Readable nodes are read as their elements. -/
lemma elements_of_readable {nodes : List Node} (readable : ∀ n ∈ nodes, n.Readable) :
    (nodes.mapM fun n => parseListpack n.blob.text) = .ok (nodes.map (·.elements)) := by
  rw [mapM_eq_ok, List.map_map]
  exact List.map_congr_left fun n hn => (parseListpack_node_iff n).mpr (readable n hn)

/-- Every node contributes its elements exactly when all are PACKED and their listpacks can be read
back. -/
lemma reads_iff (v : Value) : v.Reads ↔ ∀ n ∈ v.nodes, n.Readable := by
  constructor
  · intro reads n hn
    have read := reads.nodes n hn []
    rw [Node.encode, loadQuicklist2Node_encode n.container (v.node_bound hn)] at read
    rw [← parseListpack_node_iff]
    cases entries : parseListpack n.blob.text with
    | error f =>
      rw [entries] at read
      cases read
    | ok entries =>
      simp only [entries, Reader.lift, Reading.done.injEq, and_true] at read
      rw [read]
  · intro readable
    refine ⟨fun n hn rest => ?_, ?_⟩
    · rw [Node.encode, loadQuicklist2Node_encode n.container (v.node_bound hn),
        (parseListpack_node_iff n).mpr (readable n hn)]
      rfl
    · rw [loads_iff_reads]
      exact ⟨_, elements_of_readable readable, List.flatMap_def.symm⟩

/-! ## PLAIN nodes -/

instance (n : Node) : Decidable n.IsPlain :=
  match n with
  | .plain _ => isTrue trivial
  | .packed .. => isFalse id

/-- Where the listpacks of the PACKED nodes can be read back, the PLAIN nodes contribute their
elements in some order only if there are none. -/
lemma no_plain {nodes : List Node} {entries : Node → List Bytes}
    (read : ∀ n ∈ nodes, parseListpack n.blob.text = .ok (entries n))
    (packed : ∀ n ∈ nodes, ¬ n.IsPlain → n.Readable)
    (same : nodes.flatMap entries = nodes.flatMap (·.elements)) : ∀ n ∈ nodes, ¬ n.IsPlain := by
  have splits (f : Node → List Bytes) : ((nodes.filter (·.IsPlain)).flatMap f ++
      (nodes.filter fun n => ! decide n.IsPlain).flatMap f).Perm (nodes.flatMap f) := by
    rw [← List.flatMap_append]
    exact (List.filter_append_perm _ nodes).flatMap_right f
  have others : (nodes.filter fun n => ! decide n.IsPlain).flatMap entries
      = (nodes.filter fun n => ! decide n.IsPlain).flatMap (·.elements) := by
    refine List.flatMap_congr fun n hn => ?_
    simp only [List.mem_filter, Bool.not_eq_true', decide_eq_false_iff_not] at hn
    have right := (parseListpack_node_iff n).mpr (packed n hn.1 hn.2)
    rw [read n hn.1] at right
    exact Except.ok.inj right
  -- the PACKED nodes contribute the same on both sides, so the PLAIN nodes do
  have raw : ((nodes.filter (·.IsPlain)).flatMap entries).Perm
    ((nodes.filter (·.IsPlain)).flatMap (·.elements)) := by
    have all := (splits entries).trans (same ▸ (splits (·.elements)).symm)
    rw [others] at all
    exact (List.perm_append_right_iff _).mp all
  have plain {n : Node} (hn : n ∈ nodes.filter (·.IsPlain)) : n ∈ nodes ∧
    n.elements = [n.blob.text] := by
    simp only [List.mem_filter, decide_eq_true_eq] at hn
    cases n with
    | plain blob => exact ⟨hn.1, rfl⟩
    | packed => exact absurd hn.2 id
  -- their texts are each an entry of one of them, and entries are shorter than what holds them
  have texts : (nodes.filter (·.IsPlain)).map (·.blob.text) = [] := by
    refine no_cycle (fun t ht => ?_) fun t ht => ?_
    · obtain ⟨n, hn, rfl⟩ := List.mem_map.mp ht
      exact parseListpack_long (read n (plain hn).1)
    · obtain ⟨n, hn, rfl⟩ := List.mem_map.mp ht
      have mem : n.blob.text ∈ (nodes.filter (·.IsPlain)).flatMap (·.elements) :=
        List.mem_flatMap.mpr ⟨n, hn, by rw [(plain hn).2]; simp⟩
      obtain ⟨m, hm, entry⟩ := List.mem_flatMap.mp (raw.mem_iff.mpr mem)
      exact ⟨m.blob.text, List.mem_map_of_mem hm, _, read m (plain hm).1, entry⟩
  intro n hn isPlain
  have here : n ∈ nodes.filter (·.IsPlain) := by simp [hn, isPlain]
  rw [List.map_eq_nil_iff.mp texts] at here
  cases here

/-- Where the listpacks of the PACKED nodes can be read back, the value is right exactly when it has
no PLAIN node. -/
lemma loads_iff_no_plain (v : Value) (packed : ∀ n ∈ v.nodes, ¬ n.IsPlain → n.Readable) :
    v.Loads ↔ ∀ n ∈ v.nodes, ¬ n.IsPlain := by
  constructor
  · intro loads
    obtain ⟨all, read, elements⟩ := (loads_iff_reads v).mp loads
    rw [mapM_eq_ok] at read
    have ok (n : Node) (hn : n ∈ v.nodes) : ∃ es, parseListpack n.blob.text = .ok es := by
      have mem := List.mem_map_of_mem (f := fun n => parseListpack n.blob.text) hn
      rw [read] at mem
      obtain ⟨es, -, eq⟩ := List.mem_map.mp mem
      exact ⟨es, eq.symm⟩
    let entries (n : Node) : List Bytes := (parseListpack n.blob.text).toOption.getD []
    have each : ∀ n ∈ v.nodes, parseListpack n.blob.text = .ok (entries n) := by
      intro n hn
      obtain ⟨es, eq⟩ := ok n hn
      simp [entries, eq, Except.toOption]
    have flat : all = v.nodes.map entries := by
      rw [← map_ok_inj, ← read, List.map_map]
      exact List.map_congr_left each
    refine no_plain each packed ?_
    rw [List.flatMap_def, ← flat, elements, Value.elements]
  · intro nowhere
    exact ((reads_iff v).mpr fun n hn => packed n hn (nowhere n hn)).value

/-- The value and each of its nodes are read as what they hold exactly when there are no PLAIN nodes
and the listpacks can be read back. Where these can, PLAIN nodes alone make the value wrong. -/
theorem quicklist_iff (v : Value) :
    (v.Reads ↔ ∀ n ∈ v.nodes, n.Readable) ∧
      ((∀ n ∈ v.nodes, ¬ n.IsPlain → n.Readable) → (v.Loads ↔ ∀ n ∈ v.nodes, ¬ n.IsPlain)) :=
  ⟨reads_iff v, loads_iff_no_plain v⟩

/-- The number one fits in the shortest length form. -/
lemma one_lt_six : 1 < LengthForm.six.bound := by decide

/-- A list of one PLAIN node. -/
def rawValue : Value where
  count := ⟨.six, 1, one_lt_six⟩
  nodes := [.plain (.raw ⟨.six, 12, by decide⟩ (ascii "hello world!") (by decide))]
  exact := rfl
  bound := by decide

/-- The element `hello world!` is loaded as three numbers. -/
theorem quicklist_fails :
    loadObject ValueType.listQuicklist2.code 0 (ascii "k") rawValue.encode
        = .done [⟨0, ascii "RPUSH", [ascii "k", ascii "119", ascii "114", ascii "100"]⟩] [] ∧
      push 0 (ascii "k") rawValue.elements =
        [⟨0, ascii "RPUSH", [ascii "k", ascii "hello world!"]⟩] ∧
      ¬ rawValue.Loads := by
  have read : loadObject ValueType.listQuicklist2.code 0 (ascii "k") rawValue.encode
      = .done [⟨0, ascii "RPUSH", [ascii "k", ascii "119", ascii "114", ascii "100"]⟩] [] := by
    decide +kernel
  have expected : push 0 (ascii "k") rawValue.elements
      = [⟨0, ascii "RPUSH", [ascii "k", ascii "hello world!"]⟩] := by decide
  refine ⟨read, expected, fun loads => ?_⟩
  have right := loads 0 (ascii "k") []
  rw [List.append_nil, read, expected] at right
  revert right
  decide

end Veidrodelis.RedisNif.Quicklist
