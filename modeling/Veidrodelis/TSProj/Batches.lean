import Veidrodelis.TSProj.Projection
import Veidrodelis.TsNif.WritePanics

/-!
# Batches

Where the command stream is cut into batches. What is buffered and whether a transaction is open
(`Pending`) depends on the commands alone, and so do the flushes that a call leads to; the functions
of the projection are these flushes one after the other (`handleEach_eq`). A flush hands over a
block of a transaction as a whole, and between two calls nothing is buffered but the block that is
open (`Batched`).
-/

namespace Veidrodelis.TSProj
open RedisStream (Callback Command Reason ReplicaCommand)
open TsNif (Indexset StorageInner tx executeAll Returns Careful)

/-- A command and the database that it is for. -/
abbrev DbCommand := Nat × Command

/-! ## Steps -/

namespace Step

/-- Change the state that is returned. -/
def map (f : State → State) (step : Step) : Step := (step.1, step.2.map f)

variable {step : Step} {f : State → State} {next next' : State → Step}

/-- Steps may be put together in either way. -/
lemma andThen_assoc :
    (step.andThen next).andThen next' = step.andThen fun s => (next s).andThen next' := by
  match step with
  | (events, .error reason) => rfl
  | (events, .ok s) =>
    unfold andThen
    simp only
    match next s with
    | (later, .error reason) => rfl
    | (later, .ok s') => simp only [List.append_assoc]

/-- A change of the state in front of a step. -/
lemma map_andThen : (step.map f).andThen next = step.andThen fun s => next (f s) := by
  match step with
  | (events, .ok s) => rfl
  | (events, .error reason) => rfl

/-- A change of the state behind a step. -/
lemma andThen_map : step.andThen (fun s => (next s).map f) = (step.andThen next).map f := by
  match step with
  | (events, .ok s) => rfl
  | (events, .error reason) => rfl

/-- Two changes of the state are one. -/
lemma map_map {g : State → State} : (step.map f).map g = step.map fun s => g (f s) := by
  match step with
  | (events, .ok s) => rfl
  | (events, .error reason) => rfl

/-- A step that does nothing may stand in front. -/
@[simp] lemma ok_andThen (s : State) : andThen ([], .ok s) next = next s := by
  simp only [andThen, List.nil_append]

/-- A last step without effects is a change of the state. -/
lemma andThen_ok : step.andThen (fun s => ([], .ok (f s))) = step.map f := by
  match step with
  | (events, .ok s) =>
    unfold andThen map
    simp only [List.append_nil]
    rfl
  | (events, .error reason) => rfl

/-- The state as it is changes nothing. -/
lemma map_id : step.map (fun s => s) = step := by
  match step with
  | (events, .ok s) => rfl
  | (events, .error reason) => rfl

/-- A changed step succeeds when the step does. -/
lemma map_eq_ok {t : State} : (step.map f).2 = .ok t ↔ ∃ s, step.2 = .ok s ∧ f s = t := by
  rw [map]
  cases step.2 with
  | error reason => simp [Except.map]
  | ok s => simp [Except.map]

/-- Behind a step that succeeds comes the next one. -/
lemma andThen_of_ok {s : State} (returned : step.2 = .ok s) :
    step.andThen next = (step.1 ++ (next s).1, (next s).2) := by
  obtain ⟨events, result⟩ := step
  obtain rfl : result = .ok s := returned
  rfl

/-- Behind a step that fails comes nothing. -/
lemma andThen_of_error {reason : Reason} (failed : step.2 = .error reason) :
    step.andThen next = (step.1, .error reason) := by
  obtain ⟨events, result⟩ := step
  obtain rfl : result = .error reason := failed
  rfl

/-- Two steps return when both do. -/
lemma andThen_eq_ok {t : State} :
    (step.andThen next).2 = .ok t ↔ ∃ s, step.2 = .ok s ∧ (next s).2 = .ok t := by
  cases result : step.2 with
  | error reason =>
    rw [andThen_of_error result]
    simp
  | ok s =>
    rw [andThen_of_ok result]
    simp

/-- What two steps tell, the first one tells, or the second one from where the first one got to. -/
lemma mem_andThen {event : Event} :
    event ∈ (step.andThen next).1 ↔ event ∈ step.1 ∨ ∃ s, step.2 = .ok s ∧ event ∈ (next s).1 := by
  cases result : step.2 with
  | error reason =>
    rw [andThen_of_error result]
    simp
  | ok s =>
    rw [andThen_of_ok result, List.mem_append]
    simp

end Step

/-! ## What is pending -/

/-- The commands that are buffered, the oldest first, and whether a transaction is open. -/
structure Pending where
  buffered : List DbCommand
  isOpen : Bool

namespace Pending

/-- What a command flushes, and what is pending after it. -/
def take (p : Pending) (c : DbCommand) : List (List DbCommand) × Pending :=
  if startsTx c.2 then ([p.buffered], ⟨[c], true⟩)
  else if endsTx c.2 then ([p.buffered ++ [c]], ⟨[], false⟩)
  else ([], ⟨p.buffered ++ [c], p.isOpen⟩)

/-- The same for the commands of a call. -/
def takeAll : List DbCommand → Pending → List (List DbCommand) × Pending
  | [], p => ([], p)
  | c :: rest, p => ((p.take c).1 ++ (takeAll rest (p.take c).2).1, (takeAll rest (p.take c).2).2)

/-- What the end of a call flushes. -/
def close (p : Pending) : List (List DbCommand) × Pending :=
  if p.isOpen then ([], p) else ([p.buffered], ⟨[], false⟩)

/-- What calls flush. -/
def calls : List (List DbCommand) → Pending → List (List DbCommand) × Pending
  | [], p => ([], p)
  | commands :: rest, p =>
    let taken := takeAll commands p
    let later := calls rest taken.2.close.2
    (taken.1 ++ taken.2.close.1 ++ later.1, later.2)

end Pending

/-- What is pending in a state. -/
def State.pending (s : State) : Pending := ⟨s.txBuffer.reverse, s.inTransaction⟩

/-- The same state, but for what is pending. -/
def State.withPending (s : State) (p : Pending) : State :=
  { s with txBuffer := p.buffered.reverse, inTransaction := p.isOpen }

/-- A state with its own pending commands is itself. -/
lemma withPending_pending (s : State) : s.withPending s.pending = s := by
  unfold State.withPending State.pending
  rw [List.reverse_reverse]

/-- The commands of a call. -/
def received (commands : List (ReplicaCommand Command)) : List DbCommand :=
  commands.map fun c => (c.db, c.command)

/-- Notifications depend on the flag and the watches only. -/
lemma notifyAll_congr {s s' : State} (ready : s'.ready = s.ready) (watch : s'.watch = s.watch)
    (commands : List DbCommand) : notifyAll s' commands = notifyAll s commands := by
  induction commands with
  | nil => rfl
  | cons c rest ih =>
    have same : notifyWatchers s' c.1 c.2 = notifyWatchers s c.1 c.2 := by
      unfold notifyWatchers
      rw [ready, watch]
    rw [notifyAll, notifyAll, same, ih]

section
variable [Indexset]

/-! ## Calls as flushes -/

/-- `flush_tx_buffer`, if these are the commands in the buffer, but for the buffer. -/
def flush (s : State) (commands : List DbCommand) : Step :=
  (runTx s (convertible commands)).andThen fun s =>
    ((notifyAll s commands).1, (notifyAll s commands).2.map fun () => s)

/-- Some flushes. -/
def flushEach : List (List DbCommand) → State → Step
  | [], s => ([], .ok s)
  | commands :: rest, s => (flush s commands).andThen (flushEach rest)

/-- Successive calls of `handle_commands`. -/
def handleEach : List (List (ReplicaCommand Command)) → State → Step
  | [], s => ([], .ok s)
  | commands :: rest, s => (handleCommands s commands).andThen (handleEach rest)

/-- Flushes are done one part after the other. -/
lemma flushEach_append (flushes flushes' : List (List DbCommand)) (s : State) :
    flushEach (flushes ++ flushes') s = (flushEach flushes s).andThen (flushEach flushes') := by
  induction flushes generalizing s with
  | nil => rw [List.nil_append, flushEach, Step.ok_andThen]
  | cons commands rest ih =>
    rw [List.cons_append, flushEach, flushEach, Step.andThen_assoc]
    exact congrArg _ (funext ih)

/-- One flush. -/
lemma flushEach_singleton (commands : List DbCommand) (s : State) :
    flushEach [commands] s = flush s commands := by
  rw [flushEach]
  exact Step.andThen_ok.trans Step.map_id

/-- A flush succeeds when its transaction and its notifications do. -/
lemma flush_eq_ok {s t : State} {commands : List DbCommand} :
    (flush s commands).2 = .ok t ↔
      (runTx s (convertible commands)).2 = .ok t ∧ (notifyAll t commands).2 = .ok () := by
  rw [flush, Step.andThen_eq_ok]
  constructor
  · rintro ⟨s', ran, told⟩
    cases e : (notifyAll s' commands).2 with
    | error reason =>
      rw [e] at told
      cases told
    | ok _ =>
      rw [e] at told
      cases told
      exact ⟨ran, e⟩
  · rintro ⟨ran, told⟩
    exact ⟨t, ran, by rw [told]; rfl⟩

/-- What is written in a storage. -/
def State.write (s : State) (storage : Storage) (content : StorageInner) : State :=
  { s with storages := s.storages.set storage content }

/-- A transaction is executed in the storage that is written to. -/
lemma runTx_some {s : State} {storage : Storage}
    (target : s.newTsStorage.or s.tsStorage = some storage) {batch : List DbCommand}
    (nonempty : batch ≠ []) :
    runTx s batch = ([.tx storage batch (tx batch (s.content storage)).1],
      match (tx batch (s.content storage)).2 with
      | .ok _ => .ok (s.write storage (tx batch (s.content storage)).1)
      | .error _ => .error .raised) := by
  rw [runTx, if_neg nonempty, target]
  rfl

/-- The batch does not depend on what is pending. -/
lemma runTx_withPending (s : State) (p : Pending) (batch : List DbCommand) :
    runTx (s.withPending p) batch = (runTx s batch).map (·.withPending p) := by
  by_cases isNil : batch = []
  · rw [runTx, runTx, if_pos isNil, if_pos isNil]
    rfl
  cases target : s.newTsStorage.or s.tsStorage with
  | none =>
    have target' : (s.withPending p).newTsStorage.or (s.withPending p).tsStorage = none := target
    rw [runTx, runTx, if_neg isNil, if_neg isNil, target, target']
    rfl
  | some storage =>
    have target' : (s.withPending p).newTsStorage.or (s.withPending p).tsStorage = .some storage :=
      target
    have content : (s.withPending p).content storage = s.content storage := rfl
    rw [runTx_some target isNil, runTx_some target' isNil, content]
    cases (tx batch (s.content storage)).2 with
    | ok results => rfl
    | error fault => rfl

/-- The buffer is flushed whatever else is pending. -/
lemma flushTxBuffer_withPending (s : State) (p : Pending) :
    flushTxBuffer (s.withPending p) = (flush s p.buffered).map (·.withPending ⟨[], p.isOpen⟩) := by
  obtain ⟨buffered, isOpen⟩ := p
  cases buffered with
  | nil => rfl
  | cons c rest =>
    have nonempty : (s.withPending ⟨c :: rest, isOpen⟩).txBuffer ≠ [] := by
      simp [State.withPending]
    have order : (s.withPending ⟨c :: rest, isOpen⟩).txBuffer.reverse = c :: rest :=
      List.reverse_reverse _
    rw [flushTxBuffer, if_neg nonempty, flush, order]
    simp only
    rw [runTx_withPending, Step.map_andThen, ← Step.andThen_map]
    congr 1
    funext s'
    have same : notifyAll (s'.withPending ⟨c :: rest, isOpen⟩) (c :: rest) =
      notifyAll s' (c :: rest) :=
      notifyAll_congr (by rfl) (by rfl) _
    rw [same]
    unfold Step.map
    cases (notifyAll s' (c :: rest)).2 with
    | ok _ => rfl
    | error reason => rfl

/-- A command makes the flushes of the abstract queue. -/
lemma processSingleCommand_withPending (s : State) (p : Pending) (c : DbCommand) :
    processSingleCommand (s.withPending p) c.1 c.2 =
      (flushEach (p.take c).1 s).map (·.withPending (p.take c).2) := by
  rw [processSingleCommand, Pending.take]
  have buffer : (s.withPending p).buffer c.1 c.2 = s.withPending ⟨p.buffered ++ [c], p.isOpen⟩ := by
    simp [State.withPending, State.buffer]
  split_ifs with starts ends
  · rw [flushTxBuffer_withPending, Step.andThen_ok, Step.map_map, flushEach_singleton]
    rfl
  · rw [buffer, flushTxBuffer_withPending, Step.andThen_ok, Step.map_map, flushEach_singleton]
    rfl
  · rw [buffer]
    rfl

/-- Commands make the flushes of the abstract queue. -/
lemma processCommands_withPending (commands : List DbCommand) (s : State) (p : Pending) :
    processCommands commands (s.withPending p) =
      (flushEach (p.takeAll commands).1 s).map (·.withPending (p.takeAll commands).2) := by
  induction commands generalizing s p with
  | nil => rfl
  | cons c rest ih =>
    rw [processCommands, processSingleCommand_withPending, Step.map_andThen, Pending.takeAll,
      flushEach_append, ← Step.andThen_map]
    exact congrArg _ (funext fun s => ih s _)

/-- The end of a call makes the flushes of the abstract queue. -/
lemma close_withPending (s : State) (p : Pending) :
    (if (s.withPending p).inTransaction then ([], .ok (s.withPending p))
      else flushTxBuffer (s.withPending p)) =
      (flushEach p.close.1 s).map (·.withPending p.close.2) := by
  obtain ⟨buffered, isOpen⟩ := p
  cases isOpen with
  | true => rfl
  | false =>
    show flushTxBuffer (s.withPending ⟨buffered, false⟩) = (flushEach [buffered] s).map _
    rw [flushTxBuffer_withPending, flushEach_singleton]
    rfl

/-- Calls are the flushes that they lead to. -/
lemma handleEach_eq (chunks : List (List (ReplicaCommand Command))) (s : State) (p : Pending) :
    handleEach chunks (s.withPending p) =
      (flushEach (p.calls (chunks.map received)).1 s).map
        (·.withPending (p.calls (chunks.map received)).2) := by
  induction chunks generalizing s p with
  | nil => rfl
  | cons chunk rest ih =>
    rw [handleEach, handleCommands]
    show ((processCommands (received chunk) (s.withPending p)).andThen _).andThen _ = _
    rw [processCommands_withPending, Step.map_andThen, List.map_cons, Pending.calls]
    simp only
    rw [flushEach_append, flushEach_append, Step.andThen_assoc, ← Step.andThen_map,
      Step.andThen_assoc]
    congr 1
    funext s'
    rw [close_withPending, Step.map_andThen]
    congr 1
    funext s''
    exact ih s'' _

end

/-! ## Blocks -/

/-- What is open after some commands. -/
def openBlock (commands : List DbCommand) : List DbCommand :=
  commands.foldl (fun block c =>
    if startsTx c.2 then [c] else if endsTx c.2 then [] else if block = [] then []
      else block ++ [c]) []

/-- The commands that are in no open block. -/
def settled (commands : List DbCommand) : List DbCommand :=
  commands.take (commands.length - (openBlock commands).length)

/-- Commands in the middle of a transaction. -/
def Inner (body : List DbCommand) : Prop := ∀ c ∈ body, startsTx c.2 = false ∧ endsTx c.2 = false

/-- A block, if this is what follows: from a `SET` of the marker to the next `DEL` of it, or just
before the next `SET`. -/
def IsBlock (block after : List DbCommand) : Prop :=
  ∃ first body, startsTx first.2 = true ∧ Inner body ∧
    ((∃ last, endsTx last.2 = true ∧ block = first :: body ++ [last]) ∨
      block = first :: body ∧ ∃ next, after.head? = some next ∧ startsTx next.2 = true)

/-- The open block behind one command more. -/
lemma openBlock_concat (commands : List DbCommand) (c : DbCommand) :
    openBlock (commands ++ [c]) = if startsTx c.2 then [c] else if endsTx c.2 then []
      else if openBlock commands = [] then [] else openBlock commands ++ [c] := by
  rw [openBlock, List.foldl_append]
  rfl

/-- What follows a `SET` of the marker is open, unless it is ended. -/
lemma openBlock_append {first : DbCommand} (starts : startsTx first.2 = true)
    {body : List DbCommand} (inner : Inner body) (commands : List DbCommand) :
    openBlock (commands ++ first :: body) = first :: body := by
  induction body using List.reverseRecOn with
  | nil => rw [openBlock_concat, if_pos starts]
  | append_singleton body c ih =>
    have ih := ih fun c' mem => inner c' (List.mem_append_left _ mem)
    obtain ⟨more, going⟩ := inner c (List.mem_append_right _ (List.mem_singleton_self c))
    have shape : commands ++ first :: (body ++ [c]) = (commands ++ first :: body) ++ [c] := by simp
    rw [shape, openBlock_concat, ih]
    simp [more, going]

/-- What stands in front of the open block is settled. -/
lemma settled_of_append {pre commands : List DbCommand}
    (eq : pre ++ openBlock commands = commands) :
    settled commands = pre := by
  rw [settled]
  have len := congrArg List.length eq
  rw [List.length_append] at len
  have here : commands.length - (openBlock commands).length = pre.length := by omega
  rw [here]
  conv_lhs => rw [← eq]
  exact List.take_left

/-- The command that opens a block does not close one. -/
lemma not_endsTx {command : Command} (starts : startsTx command = true) :
    endsTx command = false := by
  cases command with
  | set => rfl
  | _ => cases starts

/-- What was flushed and what is pending, after some commands. -/
structure Batched (commands : List DbCommand) (flushes : List (List DbCommand)) (p : Pending) :
    Prop where
  whole : flushes.flatten ++ p.buffered = commands
  inside : p.isOpen = true → p.buffered = openBlock commands ∧ openBlock commands ≠ []
  outside : p.isOpen = false → openBlock commands = []
  blocks : ∀ pre block post, pre ++ block ++ post = commands → IsBlock block post →
    ∃ before after, flushes = before ++ block :: after ∧ before.flatten = pre

namespace Batched

variable {commands : List DbCommand} {flushes : List (List DbCommand)} {p : Pending}

/-- Nothing is batched at the start. -/
lemma nil : Batched [] [] ⟨[], false⟩ where
  whole := rfl
  inside := nofun
  outside _ := rfl
  blocks pre block post eq shape := by
    obtain ⟨rfl, -⟩ := List.append_eq_nil_iff.mp (List.append_eq_nil_iff.mp eq).1
    obtain rfl := (List.append_eq_nil_iff.mp eq).1
    obtain ⟨first, body, _, _, ⟨last, _, eq⟩ | ⟨eq, _⟩⟩ := shape
    · cases eq
    · cases eq

/-- An open block that goes back to a certain `SET` is all that is buffered. -/
lemma buffered_eq (h : Batched commands flushes p) {first : DbCommand}
    (starts : startsTx first.2 = true) {body : List DbCommand} (inner : Inner body)
    {pre : List DbCommand} (eq : pre ++ first :: body = commands) :
    p.buffered = first :: body ∧ flushes.flatten = pre := by
  have here := openBlock_append starts inner pre
  rw [eq] at here
  have isOpen : p.isOpen = true := by
    by_contra closed
    rw [h.outside (Bool.eq_false_iff.mpr closed)] at here
    cases here
  have buffered : p.buffered = first :: body := (h.inside isOpen).1.trans here
  refine ⟨buffered, ?_⟩
  have whole := h.whole
  rw [buffered, ← eq] at whole
  exact List.append_cancel_right whole

/-- The invariant, when a command comes. -/
lemma take (h : Batched commands flushes p) (c : DbCommand) :
    Batched (commands ++ [c]) (flushes ++ (p.take c).1) (p.take c).2 where
  whole := by
    rw [← h.whole, Pending.take]
    split_ifs <;> simp
  inside isOpen := by
    rw [openBlock_concat]
    rw [Pending.take] at isOpen ⊢
    split_ifs at isOpen ⊢ with starts ends nothing
    · exact ⟨rfl, List.cons_ne_nil c []⟩
    · exact absurd nothing (h.inside isOpen).2
    · rw [(h.inside isOpen).1]
      exact ⟨rfl, List.append_ne_nil_of_right_ne_nil _ (List.cons_ne_nil c [])⟩
  outside closed := by
    rw [openBlock_concat]
    rw [Pending.take] at closed
    split_ifs at closed ⊢ with starts ends nothing
    · rfl
    · rfl
    · exact absurd (h.outside closed) nothing
  blocks pre block post eq shape := by
    -- a block that was complete before, or is now
    suffices complete : (∃ post', pre ++ block ++ post' = commands ∧ IsBlock block post') ∨
        (p.take c).1 = [block] ∧ flushes.flatten = pre by
      obtain ⟨post', eq, shape⟩ | ⟨flushed, whole⟩ := complete
      · obtain ⟨before, after, rfl, whole⟩ := h.blocks pre block post' eq shape
        exact ⟨before, after ++ (p.take c).1, by simp, whole⟩
      · exact ⟨flushes, [], by rw [flushed], whole⟩
    obtain ⟨first, body, starts, inner, shape⟩ := shape
    rcases List.eq_nil_or_concat post with rfl | ⟨post, last, rfl⟩
    · obtain ⟨last, ends, rfl⟩ | ⟨_, next, nowhere, _⟩ := shape
      · right
        have shape : (pre ++ first :: body) ++ [last] = commands ++ [c] := by rw [← eq]; simp
        obtain ⟨here, same⟩ := List.append_inj' shape rfl
        obtain ⟨rfl, -⟩ := List.cons.inj same
        obtain ⟨buffered, whole⟩ := h.buffered_eq starts inner here
        refine ⟨?_, whole⟩
        rw [Pending.take]
        have continues : startsTx last.2 = false := by
          by_contra starts
          rw [not_endsTx (Bool.not_eq_false _ ▸ starts)] at ends
          cases ends
        simp [continues, ends, buffered]
      · cases nowhere
    · rw [List.concat_eq_append, ← List.append_assoc] at eq
      obtain ⟨here, same⟩ := List.append_inj' eq rfl
      obtain ⟨rfl, -⟩ := List.cons.inj same
      obtain ended | ⟨rfl, next, follows, starts'⟩ := shape
      · exact .inl ⟨post, here, first, body, starts, inner, .inl ended⟩
      · cases post with
        | nil =>
          right
          obtain rfl := Option.some.inj follows
          rw [List.append_nil] at here
          obtain ⟨buffered, whole⟩ := h.buffered_eq starts inner here
          refine ⟨?_, whole⟩
          rw [Pending.take, if_pos starts', buffered]
        | cons head post =>
          exact .inl ⟨_, here, first, body, starts, inner, .inr ⟨rfl, next, follows, starts'⟩⟩

/-- More commands are batched behind the others. -/
lemma takeAll (h : Batched commands flushes p) (more : List DbCommand) :
    Batched (commands ++ more) (flushes ++ (p.takeAll more).1) (p.takeAll more).2 := by
  induction more generalizing commands flushes p with
  | nil =>
    rw [Pending.takeAll, List.append_nil, List.append_nil]
    exact h
  | cons c rest ih =>
    have step := ih (h.take c)
    rwa [List.append_assoc, List.append_assoc] at step

/-- The invariant, at the end of a call. -/
lemma close (h : Batched commands flushes p) :
    Batched commands (flushes ++ p.close.1) p.close.2 ∧
      (p.close.2.isOpen = false → p.close.2.buffered = []) := by
  rw [Pending.close]
  split_ifs with isOpen
  · rw [List.append_nil]
    exact ⟨h, fun closed => absurd isOpen (Bool.eq_false_iff.mp closed)⟩
  · refine ⟨?_, fun _ => rfl⟩
    constructor
    case whole => simpa using h.whole
    case inside => nofun
    case outside => exact fun _ => h.outside (Bool.eq_false_iff.mpr isOpen)
    case blocks =>
      intro pre block post eq shape
      obtain ⟨before, after, rfl, whole⟩ := h.blocks pre block post eq shape
      exact ⟨before, after ++ [p.buffered], by simp, whole⟩

/-- The invariant after calls; what is pending then is what is open. -/
lemma calls (h : Batched commands flushes p) (between : p.isOpen = false → p.buffered = [])
    (chunks : List (List DbCommand)) :
    Batched (commands ++ chunks.flatten) (flushes ++ (p.calls chunks).1) (p.calls chunks).2 ∧
      ((p.calls chunks).2.isOpen = false → (p.calls chunks).2.buffered = []) := by
  induction chunks generalizing commands flushes p with
  | nil =>
    rw [Pending.calls, List.flatten_nil, List.append_nil, List.append_nil]
    exact ⟨h, between⟩
  | cons chunk rest ih =>
    have closed := (h.takeAll chunk).close
    have later := ih closed.1 closed.2
    rw [Pending.calls, List.flatten_cons]
    simp only
    rwa [← List.append_assoc, ← List.append_assoc, ← List.append_assoc]

/-- Between calls, what is pending is what is open. -/
lemma buffered_eq_openBlock (h : Batched commands flushes p)
    (between : p.isOpen = false → p.buffered = []) : p.buffered = openBlock commands := by
  cases e : p.isOpen with
  | true => exact (h.inside e).1
  | false => rw [between e, h.outside e]

end Batched

/-- The flushes of calls that start with nothing pending. -/
lemma batched_calls (chunks : List (List DbCommand)) :
    ∃ flushes p, Pending.calls chunks ⟨[], false⟩ = (flushes, p) ∧
      Batched chunks.flatten flushes p ∧ p.buffered = openBlock chunks.flatten ∧
      flushes.flatten = settled chunks.flatten := by
  obtain ⟨h, between⟩ := Batched.nil.calls (fun _ => rfl) chunks
  rw [List.nil_append, List.nil_append] at h
  have buffered := h.buffered_eq_openBlock between
  refine ⟨_, _, rfl, h, buffered, ?_⟩
  symm
  apply settled_of_append
  rw [← buffered]
  exact h.whole

/-! ## What a flush does -/

/-- The batches that are handed over. -/
def batches (events : List Event) : List (List DbCommand) :=
  events.filterMap fun
    | .tx _ batch _ => some batch
    | _ => none

/-- The databases of the commands are such that the watchers of keys are found. -/
def Addressed (s : State) (commands : List DbCommand) : Prop :=
  s.ready = true → ∀ c ∈ commands, affectedKeys c.2 ≠ [] → c.1 < 2 ^ 64

/-- The storage that commands go to. -/
structure State.WritesTo (s : State) (storage : Storage) : Prop where
  target : s.newTsStorage.or s.tsStorage = some storage
  created : storage < s.storages.length

/-- Some Updates. -/
def OnlyUpdates (events : List Event) : Prop :=
  ∀ event ∈ events, ∃ pid ref command db, event = .update pid ref command db

/-- Some Updates for one command. -/
def UpdatesOf (command : Command) (db : Nat) (events : List Event) : Prop :=
  ∀ event ∈ events, ∃ pid ref, event = .update pid ref command db

section
variable {s : State} {storage : Storage}

/-- No events are updates of any command. -/
lemma updatesOf_nil (command : Command) (db : Nat) : UpdatesOf command db [] :=
  fun _ mem => absurd mem List.not_mem_nil

/-- Each of the updates carries the command. -/
lemma updates_of (command : Command) (db : Nat) (watches : List (Ref × Pid)) :
    UpdatesOf command db (updates command db watches) := by
  intro event mem
  obtain ⟨⟨ref, pid⟩, _, rfl⟩ := List.mem_map.mp mem
  exact ⟨pid, ref, rfl⟩

/-- The notifications for keys carry the command. -/
lemma notifyKeys_of (watch : Watch) (db : Nat) (command : Command) (keys : List Bytes) :
    UpdatesOf command db (notifyKeys watch db command keys).1 := by
  induction keys with
  | nil => exact updatesOf_nil command db
  | cons key rest ih =>
    rw [notifyKeys]
    cases watch.lookupPrefix db key with
    | error reason => exact updatesOf_nil command db
    | ok found =>
      exact fun event mem => (List.mem_append.mp mem).elim (updates_of _ _ _ event) (ih event)

/-- The notifications of a command carry it. -/
lemma notifyWatchers_of (db : Nat) (command : Command) :
    UpdatesOf command db (notifyWatchers s db command).1 := by
  unfold notifyWatchers
  split_ifs
  · cases command with
    | flushall => exact updates_of _ _ _
    | flushdb => exact updates_of _ _ _
    | swapdb => exact updates_of _ _ _
    | _ => exact notifyKeys_of _ _ _ _
  · exact updatesOf_nil command db

/-- Updates of a command are updates. -/
lemma onlyUpdates_of {command : Command} {db : Nat} {events : List Event}
    (h : UpdatesOf command db events) : OnlyUpdates events := by
  intro event mem
  obtain ⟨pid, ref, eq⟩ := h event mem
  exact ⟨pid, ref, command, db, eq⟩

/-- Updates behind updates. -/
lemma onlyUpdates_append {events events' : List Event} (h : OnlyUpdates events)
    (h' : OnlyUpdates events') : OnlyUpdates (events ++ events') :=
  fun event mem => (List.mem_append.mp mem).elim (h event) (h' event)

/-- Notifications are updates. -/
lemma notifyAll_only (commands : List DbCommand) : OnlyUpdates (notifyAll s commands).1 := by
  induction commands with
  | nil => exact fun event mem => absurd mem List.not_mem_nil
  | cons c rest ih =>
    obtain ⟨db, command⟩ := c
    rw [notifyAll]
    have here := onlyUpdates_of (notifyWatchers_of (s := s) db command)
    match e : notifyWatchers s db command with
    | (events, .error reason) =>
      rw [e] at here
      exact here
    | (events, .ok ()) =>
      rw [e] at here
      exact onlyUpdates_append here ih

/-- Notifications for keys succeed in databases of 64 bits. -/
lemma notifyKeys_ok (watch : Watch) (db : Nat) (command : Command) (keys : List Bytes) :
    (notifyKeys watch db command keys).2 = .ok () ↔ (keys ≠ [] → db < 2 ^ 64) := by
  induction keys with
  | nil => exact iff_of_true rfl fun filled => absurd rfl filled
  | cons key rest ih =>
    rw [notifyKeys, Watch.lookupPrefix]
    by_cases small : db < 2 ^ 64
    · have here : TsNif.decodeU64 db = some db := if_pos small
      rw [here]
      exact iff_of_true (ih.mpr fun _ => small) fun _ => small
    · have gone : TsNif.decodeU64 db = none := if_neg small
      rw [gone]
      exact iff_of_false nofun fun h => small (h (List.cons_ne_nil key rest))

/-- The notifications of a command succeed in databases of 64 bits. -/
lemma notifyWatchers_ok (db : Nat) (command : Command) :
    (notifyWatchers s db command).2 = .ok () ↔
      (s.ready = true → affectedKeys command ≠ [] → db < 2 ^ 64) := by
  unfold notifyWatchers
  split_ifs with ready
  · have keys : (notifyKeys s.watch db command (affectedKeys command)).2 = .ok () ↔
        (s.ready = true → affectedKeys command ≠ [] → db < 2 ^ 64) :=
      (notifyKeys_ok _ _ _ _).trans ⟨fun h _ => h, fun h => h ready⟩
    cases command with
    | flushall => exact iff_of_true rfl fun _ nowhere => absurd rfl nowhere
    | flushdb => exact iff_of_true rfl fun _ nowhere => absurd rfl nowhere
    | swapdb => exact iff_of_true rfl fun _ nowhere => absurd rfl nowhere
    | _ => exact keys
  · exact iff_of_true rfl fun h => absurd h ready

/-- Notifications succeed when every command is addressed. -/
lemma notifyAll_ok (commands : List DbCommand) :
    (notifyAll s commands).2 = .ok () ↔ Addressed s commands := by
  unfold Addressed
  induction commands with
  | nil => exact iff_of_true rfl fun _ c mem => absurd mem List.not_mem_nil
  | cons c rest ih =>
    obtain ⟨db, command⟩ := c
    have here := notifyWatchers_ok (s := s) db command
    rw [notifyAll]
    match e : notifyWatchers s db command with
    | (events, .error reason) =>
      rw [e] at here
      apply iff_of_false nofun
      intro h
      have := here.mpr fun ready => h ready (db, command) List.mem_cons_self
      cases this
    | (events, .ok ()) =>
      rw [e] at here
      have here := here.mp rfl
      simp only
      rw [ih]
      constructor
      · intro h ready c mem
        rcases List.mem_cons.mp mem with rfl | mem
        · exact here ready
        · exact h ready c mem
      · exact fun h ready c mem => h ready c (List.mem_cons_of_mem _ mem)

/-- Updates hold no batch. -/
lemma batches_only {events : List Event} (h : OnlyUpdates events) : batches events = [] := by
  apply List.filterMap_eq_nil_iff.mpr
  intro event mem
  obtain ⟨pid, ref, command, db, rfl⟩ := h event mem
  rfl

/-- The batches of events, one part after the other. -/
lemma batches_append (events events' : List Event) :
    batches (events ++ events') = batches events ++ batches events' :=
  List.filterMap_append

namespace State.WritesTo

/-- A write keeps the storage that is written to. -/
lemma write (writes : s.WritesTo storage) (content : StorageInner) :
    (s.write storage content).WritesTo storage where
  target := writes.target
  created := by
    show storage < (s.storages.set storage content).length
    rw [List.length_set]
    exact writes.created

/-- What is written is the content. -/
lemma content_write (writes : s.WritesTo storage) (content : StorageInner) :
    (s.write storage content).content storage = content := by
  show (s.storages.set storage content)[storage]?.getD .new = content
  rw [List.getElem?_set_self writes.created]
  rfl

/-- To write the content changes nothing. -/
lemma write_content (writes : s.WritesTo storage) : s.write storage (s.content storage) = s := by
  have same : s.storages.set storage (s.content storage) = s.storages := by
    unfold State.content
    rw [List.getElem?_eq_getElem writes.created]
    exact List.set_getElem_self writes.created
  unfold State.write
  rw [same]

end State.WritesTo

/-- The second write is the one that stays. -/
lemma write_write (content content' : StorageInner) :
    (s.write storage content).write storage content' = s.write storage content' := by
  unfold State.write
  rw [List.set_set]

/-- Convertible commands, one part after the other. -/
lemma convertible_append (commands commands' : List DbCommand) :
    convertible (commands ++ commands') = convertible commands ++ convertible commands' :=
  List.filterMap_append

/-- Commands are addressed when both parts are. -/
lemma addressed_append {commands commands' : List DbCommand} :
    Addressed s (commands ++ commands') ↔ Addressed s commands ∧ Addressed s commands' := by
  constructor
  · intro h
    exact ⟨fun ready c mem => h ready c (List.mem_append_left _ mem),
      fun ready c mem => h ready c (List.mem_append_right _ mem)⟩
  · rintro ⟨h, h'⟩ ready c mem
    exact (List.mem_append.mp mem).elim (h ready c) (h' ready c)

variable [Indexset]

/-- A batch that returns. -/
lemma runTx_returns (writes : s.WritesTo storage) {batch : List DbCommand}
    (returns : Returns batch (s.content storage)) :
    batches (runTx s batch).1 = [batch].filter (· ≠ []) ∧
      (runTx s batch).2 = .ok (s.write storage (executeAll batch (s.content storage))) := by
  by_cases isNil : batch = []
  · subst isNil
    rw [runTx, if_pos rfl, executeAll, writes.write_content]
    exact ⟨rfl, rfl⟩
  · rw [runTx_some writes.target isNil, TsNif.tx_storage returns]
    obtain ⟨results, eq, _⟩ := returns
    rw [eq]
    exact ⟨by simp [batches, isNil], rfl⟩

/-- A batch that panics fails its transaction. -/
lemma runTx_panics (writes : s.WritesTo storage) {batch : List DbCommand}
    (panics : ¬ Returns batch (s.content storage)) :
    ∃ reason, (runTx s batch).2 = .error reason := by
  have nonempty : batch ≠ [] := by
    rintro rfl
    exact panics ⟨[], rfl, rfl⟩
  rw [runTx_some writes.target nonempty]
  rw [← TsNif.ok_iff_returns] at panics
  cases e : (tx batch (s.content storage)).2 with
  | ok results => exact absurd ⟨results, e⟩ panics
  | error fault => exact ⟨_, rfl⟩

omit [Indexset] in
/-- Notifications do not depend on the content. -/
lemma notifyAll_write (s : State) (storage : Storage) (content : StorageInner)
    (commands : List DbCommand) :
    notifyAll (s.write storage content) commands = notifyAll s commands :=
  notifyAll_congr (by rfl) (by rfl) commands

/-- A flush that returns writes one batch, and the content is what it makes. -/
lemma flush_result (writes : s.WritesTo storage) {commands : List DbCommand}
    (returns : Returns (convertible commands) (s.content storage))
    (addressed : Addressed s commands) :
    batches (flush s commands).1 = [convertible commands].filter (· ≠ []) ∧
      (flush s commands).2 =
        .ok (s.write storage (executeAll (convertible commands) (s.content storage))) := by
  obtain ⟨handed, ran⟩ := runTx_returns writes returns
  rw [flush, Step.andThen_of_ok ran, notifyAll_write, batches_append,
    batches_only (notifyAll_only commands), List.append_nil, (notifyAll_ok commands).mpr addressed]
  exact ⟨handed, rfl⟩

/-- What a flush does: it returns if the batch does and the watchers are found. -/
lemma flush_ok (writes : s.WritesTo storage) (commands : List DbCommand) :
    (∃ s', (flush s commands).2 = .ok s') ↔
      Returns (convertible commands) (s.content storage) ∧ Addressed s commands := by
  constructor
  · rintro ⟨s', ok⟩
    obtain ⟨ran, told⟩ := flush_eq_ok.mp ok
    by_cases returns : Returns (convertible commands) (s.content storage)
    · obtain rfl := Except.ok.inj ((runTx_returns writes returns).2.symm.trans ran)
      rw [notifyAll_write, notifyAll_ok] at told
      exact ⟨returns, told⟩
    · obtain ⟨reason, failed⟩ := runTx_panics writes returns
      rw [failed] at ran
      cases ran
  · rintro ⟨returns, addressed⟩
    exact ⟨_, (flush_result writes returns addressed).2⟩

/-- What flushes do, one after the other. -/
lemma flushEach_result (writes : s.WritesTo storage) {flushes : List (List DbCommand)}
    (returns : Returns (convertible flushes.flatten) (s.content storage))
    (addressed : Addressed s flushes.flatten) :
    batches (flushEach flushes s).1 = (flushes.map convertible).filter (· ≠ []) ∧
      (flushEach flushes s).2 =
        .ok (s.write storage (executeAll (convertible flushes.flatten) (s.content storage))) := by
  induction flushes generalizing s with
  | nil =>
    refine ⟨rfl, ?_⟩
    show Except.ok s = .ok (s.write storage (s.content storage))
    rw [writes.write_content]
  | cons commands rest ih =>
    rw [List.flatten_cons, convertible_append, TsNif.returns_append] at returns
    rw [List.flatten_cons, addressed_append] at addressed
    obtain ⟨handed, ran⟩ := flush_result writes returns.1 addressed.1
    have later := ih (writes.write (executeAll (convertible commands) (s.content storage)))
    rw [writes.content_write] at later
    obtain ⟨handed', ran'⟩ := later returns.2 addressed.2
    rw [flushEach, Step.andThen_of_ok ran, batches_append, handed, handed', ran', write_write,
      List.flatten_cons, convertible_append, TsNif.executeAll_append]
    refine ⟨?_, rfl⟩
    rw [List.map_cons, ← List.filter_append, List.singleton_append]

/-- Flushes succeed when all commands return and are addressed. -/
lemma flushEach_ok (writes : s.WritesTo storage) (flushes : List (List DbCommand)) :
    (∃ s', (flushEach flushes s).2 = .ok s') ↔
      Returns (convertible flushes.flatten) (s.content storage) ∧ Addressed s flushes.flatten := by
  refine ⟨?_, fun h => ⟨_, (flushEach_result writes h.1 h.2).2⟩⟩
  induction flushes generalizing s with
  | nil => exact fun _ => ⟨⟨[], rfl, rfl⟩, fun _ c mem => absurd mem List.not_mem_nil⟩
  | cons commands rest ih =>
    rintro ⟨s', ok⟩
    obtain ⟨t, first, later⟩ := Step.andThen_eq_ok.mp ok
    obtain ⟨returns, addressed⟩ := (flush_ok writes commands).mp ⟨t, first⟩
    obtain rfl := Except.ok.inj ((flush_result writes returns addressed).2.symm.trans first)
    obtain ⟨returns', addressed'⟩ := ih (writes.write _) ⟨s', later⟩
    rw [writes.content_write] at returns'
    rw [List.flatten_cons, convertible_append, TsNif.returns_append, addressed_append]
    exact ⟨⟨returns, returns'⟩, addressed, addressed'⟩

end

/-! ## Calls on an idle state -/

/-- Nothing is buffered, no transaction is open, and there is a storage to write to. -/
structure State.Idle (s : State) (storage : Storage) : Prop extends s.WritesTo storage where
  buffered : s.txBuffer = []
  outside : s.inTransaction = false

/-- What `init` returns. -/
def State.initial : State where
  storages := [.new]
  tsStorage := some 0
  newTsStorage := none
  ready := false
  txBuffer := []
  inTransaction := false
  watch := .create
  monitors := ∅
  monitored := 0

/-- The first state is idle. -/
lemma initial_idle : State.initial.Idle 0 where
  target := rfl
  created := Nat.one_pos
  buffered := rfl
  outside := rfl

/-- A block does not vanish when the commands that are for no storage are left out. -/
lemma convertible_block {block after : List DbCommand} (shape : IsBlock block after) :
    convertible block ≠ [] := by
  obtain ⟨⟨db, command⟩, body, starts, _, shape⟩ := shape
  have exist : ∃ rest, block = (db, command) :: rest := by
    obtain ⟨last, _, rfl⟩ | ⟨rfl, _⟩ := shape
    · exact ⟨body ++ [last], rfl⟩
    · exact ⟨body, rfl⟩
  obtain ⟨rest, rfl⟩ := exist
  cases command with
  | set key value => exact List.cons_ne_nil _ _
  | _ => cases starts

/-- Empty batches are not handed over. -/
lemma flatten_handed (flushes : List (List DbCommand)) :
    ((flushes.map convertible).filter (· ≠ [])).flatten = convertible flushes.flatten := by
  induction flushes with
  | nil => rfl
  | cons commands rest ih =>
    rw [List.flatten_cons, convertible_append, ← ih, List.map_cons, List.filter_cons]
    by_cases isNil : convertible commands = []
    · simp [isNil]
    · simp [isNil]

section
variable [Indexset] {s : State} {storage : Storage}

/-- Calls on an idle state are flushes of what is settled. -/
lemma handleEach_idle (idle : s.Idle storage) (chunks : List (List (ReplicaCommand Command))) :
    ∃ flushes p, handleEach chunks s = (flushEach flushes s).map (·.withPending p) ∧
      Batched (received chunks.flatten) flushes p ∧
      p.buffered = openBlock (received chunks.flatten) ∧
      flushes.flatten = settled (received chunks.flatten) := by
  have flat : (chunks.map received).flatten = received chunks.flatten := List.map_flatten.symm
  obtain ⟨flushes, p, eq, batched, buffered, whole⟩ := batched_calls (chunks.map received)
  rw [flat] at batched buffered whole
  refine ⟨flushes, p, ?_, batched, buffered, whole⟩
  have nothing : s.pending = ⟨[], false⟩ := by
    rw [State.pending, idle.buffered, idle.outside]
    rfl
  have calls := handleEach_eq chunks s s.pending
  rwa [withPending_pending, nothing, eq] at calls

/-- They return, if the commands that are settled do not panic and their watchers are found. -/
lemma handleEach_ok (idle : s.Idle storage) (chunks : List (List (ReplicaCommand Command))) :
    (∃ s', (handleEach chunks s).2 = .ok s') ↔
      Returns (convertible (settled (received chunks.flatten))) (s.content storage) ∧
        Addressed s (settled (received chunks.flatten)) := by
  obtain ⟨flushes, p, eq, _, _, whole⟩ := handleEach_idle idle chunks
  simp only [eq, ← whole, ← flushEach_ok idle.toWritesTo, Step.map_eq_ok]
  constructor
  · rintro ⟨s', t, ok, _⟩
    exact ⟨t, ok⟩
  · rintro ⟨t, ok⟩
    exact ⟨_, t, ok, rfl⟩

/-- The storages when they return. -/
lemma handleEach_storages (idle : s.Idle storage) {chunks : List (List (ReplicaCommand Command))}
    {s' : State} (returned : (handleEach chunks s).2 = .ok s') :
    s'.storages =
      (s.write storage (executeAll (convertible (settled (received chunks.flatten)))
      (s.content storage))).storages := by
  obtain ⟨returns, addressed⟩ := (handleEach_ok idle chunks).mp ⟨s', returned⟩
  obtain ⟨flushes, p, eq, _, _, whole⟩ := handleEach_idle idle chunks
  rw [← whole] at returns addressed ⊢
  obtain ⟨_, result⟩ := flushEach_result idle.toWritesTo returns addressed
  rw [eq, Step.map, result] at returned
  cases returned
  rfl

/-- Calls of `handle_commands` on an idle state, however the commands are split. The calls return,
the batches together are the commands that are not in an open block, each block is a batch, and the
split makes no difference to the storages, exactly when none of these commands overreaches at its
turn and the watchers of their keys are found. -/
theorem batching (idle : s.Idle storage) (chunks : List (List (ReplicaCommand Command))) :
    (∃ s', (handleEach chunks s).2 = .ok s' ∧
      (batches (handleEach chunks s).1).flatten = convertible (settled (received chunks.flatten)) ∧
      (∀ pre block post, pre ++ block ++ post = received chunks.flatten → IsBlock block post →
        ∃ before after, batches (handleEach chunks s).1 = before ++ convertible block :: after ∧
          before.flatten = convertible pre) ∧
      ∀ other, other.flatten = chunks.flatten →
        ∃ s'', (handleEach other s).2 = .ok s'' ∧ s''.storages = s'.storages) ↔
    Careful (convertible (settled (received chunks.flatten))) (s.content storage) ∧
      (s.ready = true → ∀ c ∈ settled (received chunks.flatten),
      affectedKeys c.2 ≠ [] → c.1 < 2 ^ 64) := by
  rw [← TsNif.returns_iff_careful]
  constructor
  · rintro ⟨s', returned, _⟩
    exact (handleEach_ok idle chunks).mp ⟨s', returned⟩
  · intro fine
    obtain ⟨s', returned⟩ := (handleEach_ok idle chunks).mpr fine
    obtain ⟨flushes, p, eq, batched, _, whole⟩ := handleEach_idle idle chunks
    have handed : batches (handleEach chunks s).1 = (flushes.map convertible).filter (· ≠ []) := by
      obtain ⟨returns, addressed⟩ := fine
      rw [← whole] at returns addressed
      rw [eq]
      exact (flushEach_result idle.toWritesTo returns addressed).1
    refine ⟨s', returned, ?_, ?_, ?_⟩
    · rw [handed, flatten_handed, whole]
    · intro pre block post shape isBlock
      obtain ⟨before, after, rfl, here⟩ := batched.blocks pre block post shape isBlock
      refine ⟨(before.map convertible).filter (· ≠ []), (after.map convertible).filter (· ≠ []), ?_,
        ?_⟩
      · rw [handed, List.map_append, List.map_cons, List.filter_append, List.filter_cons_of_pos]
        simpa using convertible_block isBlock
      · rw [flatten_handed, here]
    · intro other same
      obtain ⟨s'', returned'⟩ := (handleEach_ok idle other).mpr (same ▸ fine)
      refine ⟨s'', returned', ?_⟩
      rw [handleEach_storages idle returned, handleEach_storages idle returned', same]

end

/-- A block that three calls bring, between other commands. -/
theorem batching_block :
    ∃ s', (@handleEach (.exact false)
      [[⟨0, .set (ascii "a") (ascii "1"), [], []⟩, ⟨0, .set txKey (ascii "1"), [], []⟩],
        [⟨0, .set (ascii "b") (ascii "2"), [], []⟩], [⟨0, .del [txKey], [], []⟩]] .initial).2 =
        .ok s' ∧
      (batches (@handleEach (.exact false) [[⟨0, .set (ascii "a") (ascii "1"), [], []⟩,
        ⟨0, .set txKey (ascii "1"), [], []⟩], [⟨0, .set (ascii "b") (ascii "2"), [], []⟩],
        [⟨0, .del [txKey], [], []⟩]] .initial).1).flatten =
          [(0, .set (ascii "a") (ascii "1")), (0, .set txKey (ascii "1")),
          (0, .set (ascii "b") (ascii "2")),
            (0, .del [txKey])] := by
  have fine :=
    (@batching (.exact false) _ _ initial_idle [[⟨0, .set (ascii "a") (ascii "1"), [], []⟩,
    ⟨0, .set txKey (ascii "1"), [], []⟩], [⟨0, .set (ascii "b") (ascii "2"), [], []⟩],
    [⟨0, .del [txKey], [], []⟩]]).mpr ⟨?_, nofun⟩
  · obtain ⟨s', returned, handed, _⟩ := fine
    exact ⟨s', returned, handed⟩
  · have calm (c : DbCommand)
      (mem : c ∈ [(0, Command.set (ascii "a") (ascii "1")), (0, .set txKey (ascii "1")),
        (0, .set (ascii "b") (ascii "2")), (0, .del [txKey])]) (s : StorageInner) :
        @StorageInner.overreaches (.exact false) s c.1 c.2 = false := by
      simp only [List.mem_cons, List.not_mem_nil, or_false] at mem
      rcases mem with rfl | rfl | rfl | rfl <;> rfl
    intro before db command after eq
    have mem : (db, command) ∈ before ++ (db, command) :: after := by simp
    rw [eq] at mem
    exact fun h => Bool.false_ne_true ((calm _ mem _).symm.trans h.2)

/-- An empty range is stored in the first of two batches. -/
def storesNothing : List DbCommand := [
  (0, .zadd (ascii "src") [(.float (Binary64.ofInt 1), ascii "m")] []),
  (0, .set (ascii "dst") (ascii "x")),
  (0, .zrangestore (ascii "dst") (ascii "src") (ascii "[b") (ascii "[a") [ascii "BYLEX"]),
  (0, .set txKey (ascii "1")),
  (0, .del [txKey]),
  (0, .set (ascii "x") (ascii "y"))]

/-- The call does not return, and what comes after the panic is not handed over. -/
theorem storesNothing_loses :
    @RedisStream.CommandParser.parse ⟨fun _ => false⟩ [ascii "ZRANGESTORE",
    ascii "dst", ascii "src",
      ascii "[b", ascii "[a", ascii "BYLEX"] =
      some (.zrangestore (ascii "dst") (ascii "src") (ascii "[b")
        (ascii "[a") [ascii "BYLEX"], [ascii "dst", ascii "src"]) ∧
    openBlock storesNothing = [] ∧
    (@handleEach (.exact false) [storesNothing.map fun c => ⟨c.1, c.2, [], []⟩]
      .initial).2.toOption.isNone ∧
    (batches (@handleEach (.exact false)
      [storesNothing.map fun c => ⟨c.1, c.2, [], []⟩] .initial).1).flatten ≠
      convertible (settled storesNothing) := by
  decide +kernel

/-! ## The marker in the keyspace -/

/-- Some database has the marker. -/
def Marked (content : StorageInner) : Prop := ∃ db, content.lookup db txKey ≠ none

section
variable [Indexset]

/-- A command that comes after others: it does not set the marker where there can be no database,
and it takes the last marker away from an open transaction only by ending the transaction. -/
structure KeepsMarker (content : StorageInner) (before : List DbCommand) (c : DbCommand) :
    Prop where
  sets : startsTx c.2 = true → c.1 < 2 ^ 64
  ends : openBlock before ≠ [] → Marked (executeAll (convertible before) content) →
    ¬ Marked (executeAll (convertible (before ++ [c])) content) → endsTx c.2 = true

/-- While a block is open, the storage holds the marker. -/
lemma marked_of_open {content : StorageInner} {commands : List DbCommand}
    (kept : ∀ before c after, before ++ c :: after = commands → KeepsMarker content before c)
    (isOpen : openBlock commands ≠ []) : Marked (executeAll (convertible commands) content) := by
  -- by induction on the commands so far
  induction commands using List.reverseRecOn with
  | nil => exact absurd rfl isOpen
  | append_singleton commands c ih =>
    have ih := ih fun before c' after eq => kept before c' (after ++ [c]) (by rw [← eq]; simp)
    have here := kept commands c [] rfl
    rw [openBlock_concat] at isOpen
    split_ifs at isOpen with starts ends nowhere
    · obtain ⟨db, command⟩ := c
      have small := here.sets starts
      cases command with
      | set key value =>
        obtain rfl : key = txKey := of_decide_eq_true starts
        refine ⟨db, ?_⟩
        rw [convertible_append, TsNif.executeAll_append]
        show (TsNif.execute db (.set txKey value) _).1.lookup db txKey ≠ none
        rw [TsNif.execute_of_lt small]
        show ((executeAll (convertible commands) content).put db txKey (.string value)).lookup
          db txKey ≠ none
        rw [StorageInner.lookup_put, if_pos ⟨rfl, rfl⟩]
        exact Option.some_ne_none _
      | _ => cases starts
    · exact absurd rfl isOpen
    · exact absurd rfl isOpen
    · by_contra gone
      exact ends (here.ends nowhere (ih nowhere) gone)

/-- Calls on an idle state, whose commands keep the marker while a transaction is open: if no
database has it afterwards, no transaction is open and all commands are in the storage. -/
theorem drains {s : State} {storage : Storage} (idle : s.Idle storage)
    (chunks : List (List (ReplicaCommand Command)))
    (kept : ∀ before c after, before ++ c :: after = received chunks.flatten →
      KeepsMarker (s.content storage) before c)
    {s' : State} (returned : (handleEach chunks s).2 = .ok s')
    (gone : ¬ Marked (executeAll (convertible (received chunks.flatten)) (s.content storage))) :
    s'.inTransaction = false ∧ s'.txBuffer = [] ∧
      s'.content storage =
        executeAll (convertible (received chunks.flatten)) (s.content storage) := by
  have isNil : openBlock (received chunks.flatten) = [] := by
    by_contra isOpen
    exact gone (marked_of_open kept isOpen)
  have all : settled (received chunks.flatten) = received chunks.flatten := by
    rw [settled, isNil]
    exact List.take_length
  have storages := handleEach_storages idle returned
  rw [all] at storages
  obtain ⟨flushes, p, eq, batched, buffered, _⟩ := handleEach_idle idle chunks
  rw [eq, Step.map_eq_ok] at returned
  obtain ⟨s'', _, rfl⟩ := returned
  refine ⟨?_, ?_, ?_⟩
  · show p.isOpen = false
    by_contra isOpen
    exact (batched.inside (Bool.not_eq_false _ ▸ isOpen)).2 isNil
  · show p.buffered.reverse = []
    rw [buffered, isNil]
    rfl
  · rw [← idle.toWritesTo.content_write (executeAll _ (s.content storage))]
    unfold State.content
    rw [storages]
    rfl

end

/-- A transaction that is ended by `DEL` in a later call. -/
theorem drains_del : ∃ s', (@handleEach (.exact false) [[⟨0, .set txKey (ascii "1"), [], []⟩],
      [⟨0, .set (ascii "a") (ascii "2"), [], []⟩, ⟨0, .del [txKey], [], []⟩]] .initial).2 = .ok s' ∧
    s'.inTransaction = false ∧ s'.txBuffer = [] ∧
    s'.content 0 = @executeAll (.exact false) [(0, .set txKey (ascii "1")),
      (0, .set (ascii "a") (ascii "2")),
      (0, .del [txKey])] .new := by
  obtain ⟨s', returned⟩ :=
    (@handleEach_ok (.exact false) _ _ initial_idle [[⟨0, .set txKey (ascii "1"), [], []⟩],
    [⟨0, .set (ascii "a") (ascii "2"), [], []⟩, ⟨0, .del [txKey], [], []⟩]]).mpr
      ⟨⟨_, rfl, rfl⟩, nofun⟩
  refine ⟨s', returned, @drains (.exact false) _ _ initial_idle _ ?_ _ returned ?_⟩
  · intro before c after eq
    have eq : before ++ c :: after =
      [(0, .set txKey (ascii "1")), (0, .set (ascii "a") (ascii "2")),
      (0, .del [txKey])] := eq
    refine @KeepsMarker.mk (.exact false) _ _ _ ?_ ?_
    · intro _
      have mem : c ∈ before ++ c :: after := by simp
      rw [eq] at mem
      simp only [List.mem_cons, List.not_mem_nil, or_false] at mem
      rcases mem with rfl | rfl | rfl <;> decide
    · intro isOpen _ gone
      match before, eq with
      | [], eq => exact absurd rfl isOpen
      | [first], eq =>
        -- the marker is still there after the second command
        obtain ⟨rfl, rest⟩ := List.cons.inj eq
        obtain ⟨rfl, -⟩ := List.cons.inj rest
        exact absurd ⟨0, by decide +kernel⟩ gone
      | [first, second], eq =>
        obtain ⟨_, eq⟩ := List.cons.inj eq
        obtain ⟨_, eq⟩ := List.cons.inj eq
        obtain ⟨rfl, -⟩ := List.cons.inj eq
        decide
      | first :: second :: third :: before, eq => simp at eq
  · rintro ⟨db, there⟩
    apply there
    show ((((StorageInner.new.put 0 txKey _).put 0 (ascii "a") _).del 0 txKey).lookup db txKey) =
      none
    rw [StorageInner.lookup_del, StorageInner.lookup_put, StorageInner.lookup_put,
      StorageInner.lookup_new]
    have other : txKey ≠ ascii "a" := by decide
    simp [other]

/-- `SET` of the marker and `FLUSHALL`: no database has it, and both commands stay in the buffer. -/
theorem flushall_freezes :
    ¬ Marked (@executeAll (.exact false) [(0, .set txKey (ascii "1")), (0, .flushall)] .new) ∧
    ∃ s', (@handleEach (.exact false)
      [[⟨0, .set txKey (ascii "1"), [], []⟩, ⟨0, .flushall, [], []⟩]] .initial).2 = .ok s' ∧
      s'.inTransaction = true ∧ s'.txBuffer = [(0, .flushall), (0, .set txKey (ascii "1"))] := by
  refine ⟨?_, _, rfl, rfl, rfl⟩
  rintro ⟨db, there⟩
  apply there
  show StorageInner.new.lookup db txKey = none
  exact StorageInner.lookup_new db txKey

end Veidrodelis.TSProj
