import Veidrodelis.RedisStream.Run
import Veidrodelis.Lib.History

/-!
# Contracts of callback modules

What the functions of a callback module keep, one by one, holds in every run of the replica with it
(`run_contract`). A contract speaks about a record of the effects: `J` links it with the callback
state between the calls, and `P` holds of the record and the effect at each effect. Calls of
`handle_commands` may come with a guard.
-/

namespace Veidrodelis.RedisStream
open RedisNif

variable {κ σ ε μ R : Type}

namespace Replica

/-- Effects that are neither a call of `handle_commands` nor something that the callback module
does. -/
def Effect.Outside : Effect κ σ ε → Prop
  | .handleCommands _ _ => False
  | .callback _ => False
  | _ => True

section
variable (next : R → Effect κ σ ε → R) (P : R → Effect κ σ ε → Prop) (J : R → σ → Prop)

/-- What a function of the module does goes with the record, and so does the state that it
returns. -/
structure Keeps (r : R) (result : List ε × Except Reason σ) : Prop where
  always : History.Always next P r (result.1.map .callback)
  returned : ∀ c, result.2 = .ok c → J (History.after next r (result.1.map .callback)) c

/-- What the functions of a callback module keep. -/
structure Contract (callback : Callback κ σ ε μ) (Guard : σ → List (ReplicaCommand κ) → Prop)
    (r₀ : R) :
    Prop where
  outside : ∀ r e, e.Outside → next r e = r ∧ P r e
  init : Keeps next P J r₀ callback.init
  replicationStart : ∀ r c, J r c → Keeps next P J r (callback.handleReplicationStart c)
  streamingStart : ∀ r c, J r c → Keeps next P J r (callback.handleStreamingStart c)
  asked : ∀ r c commands, J r c → Guard c commands → P r (.handleCommands c commands)
  commands : ∀ r c commands, J r c → Guard c commands →
    Keeps next P J (next r (.handleCommands c commands)) (callback.handleCommands c commands)
  call : ∀ r c message, J r c → Keeps next P J r (callback.handleCall c message)
  callFails : ∀ r c message reason, J r c → (callback.handleCall c message).2 = .error reason →
    J (History.after next r ((callback.handleCall c message).1.map .callback)) c
  info : ∀ r c message, J r c → Keeps next P J r (callback.handleInfo c message)
  infoFails : ∀ r c message reason, J r c → (callback.handleInfo c message).2 = .error reason →
    J (History.after next r ((callback.handleInfo c message).1.map .callback)) c

end

section
variable {next : R → Effect κ σ ε → R} {P : R → Effect κ σ ε → Prop} {J : R → σ → Prop}
  {cfg : Config κ σ ε μ} {Guard : σ → List (ReplicaCommand κ) → Prop} {r₀ r : R}
  {s s' : State σ} {es : List (Effect κ σ ε)} {st : Status σ}

/-- Of effects outside, nothing is recorded. -/
lemma Contract.always_outside (h : Contract next P J cfg.callback Guard r₀)
    (outside : ∀ e ∈ es, e.Outside) : History.Always next P r es ∧ History.after next r es = r :=
  ⟨.of_unrecorded (fun e mem => (h.outside r e (outside e mem)).1)
    fun e mem => (h.outside r e (outside e mem)).2,
    History.after_unrecorded fun e mem => (h.outside r e (outside e mem)).1⟩

/-- Quiet effects are outside of the callback. -/
lemma outside_of_quiet {e : Effect κ σ ε} (h : e.Quiet) : e.Outside := by
  cases e with
  | handleCommands => exact h
  | callback => exact h
  | send => trivial
  | close => trivial
  | startTimer => trivial
  | cancelTimer => trivial
  | psyncCompleted => trivial
  | parserData => trivial
  | callbackFailed => trivial

/-- The report of a failure is outside of the callback. -/
lemma outside_failure (function : CallbackFunction) (answer : Except Reason σ) :
    ∀ e ∈ (failureOf function answer : List (Effect κ σ ε)), e.Outside := by
  cases answer with
  | ok callbackState => exact List.forall_mem_nil _
  | error reason =>
    intro e mem
    rw [List.mem_singleton.mp mem]
    trivial

/-- Acknowledgements are outside of the callback. -/
lemma outside_acks {env : Answers} {p : Prop} [Decidable p] :
    ∀ e ∈ (if p then sendReplconfAck env s else [] : List (Effect κ σ ε)), e.Outside := by
  intro e mem
  unfold sendReplconfAck transportSend at mem
  repeat' split at mem
  all_goals simp at mem
  subst mem
  trivial

/-- The effects of a turn, and the record behind it if the process goes on. -/
def Kept (next : R → Effect κ σ ε → R) (P : R → Effect κ σ ε → Prop) (J : R → σ → Prop) (r : R)
    (es : List (Effect κ σ ε)) (st : Status σ) : Prop :=
  History.Always next P r es ∧ ∀ s, st = .running s → J (History.after next r es) s.callbackState

/-- Effects in front of what is kept. -/
lemma Kept.append {es' : List (Effect κ σ ε)} (first : History.Always next P r es)
    (rest : Kept next P J (History.after next r es) es' st) : Kept next P J r (es ++ es') st := by
  refine ⟨first.append rest.1, ?_⟩
  rintro s rfl
  rw [History.after_append]
  exact rest.2 s rfl

/-- Effects outside may stand in front. -/
lemma Contract.outside_append (h : Contract next P J cfg.callback Guard r₀)
    {es' : List (Effect κ σ ε)} (outside : ∀ e ∈ es, e.Outside) (rest : Kept next P J r es' st) :
    Kept next P J r (es ++ es') st := by
  obtain ⟨always, same⟩ := h.always_outside (r := r) outside
  apply Kept.append always
  rwa [same]

/-- Effects outside of the callback keep its state's invariant. -/
lemma Contract.quiet (h : Contract next P J cfg.callback Guard r₀) (outside : ∀ e ∈ es, e.Outside)
    (inv : J r s.callbackState) (same : ∀ t, st = .running t → t.callbackState = s.callbackState) :
    Kept next P J r es st := by
  obtain ⟨always, eq⟩ := h.always_outside (r := r) outside
  refine ⟨always, ?_⟩
  rintro t rfl
  rw [eq, same t rfl]
  exact inv

/-- The process stops, and nothing else happens. -/
lemma Contract.nothing {reason : Reason} (h : Contract next P J cfg.callback Guard r₀)
    (inv : J r s.callbackState) : Kept next P J r [] (.stopped reason) := by
  apply h.quiet (by simp) inv
  rintro t ⟨⟩

section
variable {function : CallbackFunction} {result : List ε × Except Reason σ}

/-- A failure of the module is not recorded. -/
lemma Contract.recorded (h : Contract next P J cfg.callback Guard r₀) (function : CallbackFunction)
    (keeps : Keeps next P J r result) :
    History.Always next P r (answers function result) ∧
      History.after next r (answers function result) =
      History.after next r (result.1.map .callback) := by
  obtain ⟨always, same⟩ := h.always_outside (r := History.after next r (result.1.map .callback))
    (outside_failure function result.2)
  exact ⟨keeps.always.append always, (History.after_append _ _).trans same⟩

/-- A call of the module that ends the turn. -/
lemma Contract.kept (h : Contract next P J cfg.callback Guard r₀) (keeps : Keeps next P J r result)
    (returned : ∀ t, st = .running t → result.2 = .ok t.callbackState) :
    Kept next P J r (answers function result) st := by
  obtain ⟨always, same⟩ := h.recorded function keeps
  refine ⟨always, fun t eq => ?_⟩
  rw [same]
  exact keeps.returned _ (returned t eq)

/-- An answer that stops the process keeps the property of the trace. -/
lemma Contract.stopped {reason : Reason} (h : Contract next P J cfg.callback Guard r₀)
    (keeps : Keeps next P J r result) :
    Kept next P J r (answers function result) (.stopped reason) := by
  apply h.kept keeps
  rintro t ⟨⟩

/-- An answer whose error is ignored keeps the invariant if the old state does. -/
lemma Contract.consulted (h : Contract next P J cfg.callback Guard r₀)
    (keeps : Keeps next P J r result)
    (fails : ∀ reason, result.2 = .error reason →
      J (History.after next r (result.1.map .callback)) s.callbackState) :
    Kept next P J r (answers function result) (.running (consulted s result.2)) := by
  obtain ⟨always, same⟩ := h.recorded function keeps
  refine ⟨always, ?_⟩
  rintro t ⟨⟩
  rw [same]
  cases e : result.2 with
  | ok c => exact keeps.returned c e
  | error reason => exact fails reason e

end

/-- What the calls of one chunk keep. -/
lemma Contract.processed (h : Contract next P J cfg.callback Guard r₀)
    {commands : List (ReplicaCommand κ)} {calls : List (Effect κ σ ε)}
    {result : Except Reason (State σ)} (inv : J r s.callbackState)
    (guarded : ∀ c commands, .handleCommands c commands ∈ calls → Guard c commands)
    (hk : processCommands cfg commands s = (calls, result))
    (ends : ∀ t, st = .running t → ∃ s', result = .ok s' ∧ t.callbackState = s'.callbackState) :
    Kept next P J r calls st := by
  obtain ⟨-, rfl, rfl⟩ | ⟨-, rfl, ok⟩ := processCommands_eq hk
  · refine ⟨trivial, ?_⟩
    rintro t rfl
    obtain ⟨s', eq, same⟩ := ends t rfl
    cases eq
    rw [same]
    exact inv
  · have guard := guarded _ _ List.mem_cons_self
    have kept := h.commands r s.callbackState _ inv guard
    obtain ⟨always, recorded⟩ := h.recorded .handleCommands kept
    refine ⟨⟨h.asked r s.callbackState _ inv guard, always⟩, ?_⟩
    rintro t rfl
    obtain ⟨s', rfl, same⟩ := ends t rfl
    obtain ⟨c, eq, rfl⟩ := ok s' rfl
    rw [same]
    show J (History.after next (next r _) _) c
    rw [recorded]
    exact kept.returned c eq

/-- What the start of streaming keeps. -/
lemma Contract.started (h : Contract next P J cfg.callback Guard r₀) (inv : J r s.callbackState)
    {before after : ReplicaParser.ReplicaState} {started : List (Effect κ σ ε)}
    {start : Except Reason (State σ)} (hs : startStreaming cfg before after s = (started, start)) :
    History.Always next P r started ∧
      ∀ t, start = .ok t → J (History.after next r started) t.callbackState := by
  obtain ⟨-, -, rfl, ok⟩ | ⟨-, rfl, rfl⟩ := startStreaming_eq hs
  · have kept := h.streamingStart r s.callbackState inv
    obtain ⟨always, recorded⟩ := h.recorded .handleStreamingStart kept
    refine ⟨always, ?_⟩
    rintro t rfl
    obtain ⟨c, eq, rfl⟩ := ok t rfl
    rw [recorded]
    exact kept.returned c eq
  · refine ⟨trivial, ?_⟩
    rintro t ⟨⟩
    exact inv

/-- What one turn keeps. -/
lemma Contract.turn (h : Contract next P J cfg.callback Guard r₀) (inv : J r s.callbackState)
    (guarded : ∀ c commands, .handleCommands c commands ∈ es → Guard c commands)
    (turn : Turn cfg s es st) : Kept next P J r es st := by
  cases turn with
  | quiet silent same =>
    apply h.quiet (fun e mem => outside_of_quiet (silent e mem)) inv
    rintro t ⟨⟩
    exact same.callbackState
  | psync phase =>
    apply h.quiet _ inv
    · rintro t ⟨⟩
      rfl
    · intro e mem
      rw [List.mem_singleton.mp mem]
      trivial
  | ack streaming =>
    apply h.quiet _ inv
    · rintro t ⟨⟩
      rfl
    · intro e mem
      rw [List.mem_singleton.mp mem]
      trivial
  | complete phase e =>
    obtain ⟨_, _, rfl, rfl, ok⟩ | ⟨rfl, rfl, ok⟩ := handlePsyncCompleted_eq e
    · rw [← List.singleton_append]
      refine h.outside_append ?_ (h.kept (h.replicationStart r s.callbackState inv) ?_)
      · intro e mem
        rw [List.mem_singleton.mp mem]
        trivial
      · rintro t ⟨⟩
        obtain ⟨c, eq, rfl⟩ := ok _ rfl
        exact eq
    · apply h.quiet _ inv
      · rintro t ⟨⟩
        cases ok
        rfl
      · intro e mem
        rw [List.mem_singleton.mp mem]
        trivial
  | startFails phase e =>
    obtain ⟨_, _, rfl, rfl, ok⟩ | ⟨rfl, rfl, ok⟩ := handlePsyncCompleted_eq e
    · rw [← List.singleton_append]
      refine h.outside_append ?_ (h.stopped (h.replicationStart r s.callbackState inv))
      intro e mem
      rw [List.mem_singleton.mp mem]
      trivial
    · cases ok
  | @feed env data _ handled phase e =>
    have front (chunk : Bytes) (result : Except Fault ReplicaParser.Fed)
      (acks : List (Effect κ σ ε))
      (outside : ∀ e ∈ acks, e.Outside) : ∀ e ∈ .parserData chunk result :: acks, e.Outside := by
      intro e mem
      rcases List.mem_cons.mp mem with rfl | mem
      · trivial
      · exact outside e mem
    -- in the order of the effects: the parser, the acknowledgement, the start of the stream, the
    -- calls
    cases handleReplicationData_receives e with
    | noParser => exact h.nothing inv
    | refused hp hf hh =>
      apply h.quiet (front _ _ [] (by simp)) inv
      rintro t eq
      obtain ⟨reason, rfl⟩ | rfl := hh
      · cases eq
        rfl
      · cases eq
    | unparsed =>
      apply h.quiet (front _ _ [] (by simp)) inv
      rintro t ⟨⟩
    | @notStarted parser newParser fed commands acks started reason hp hf hc ha hs =>
      have outside := front data (.ok fed) acks (by rw [ha]; exact outside_acks)
      have started := h.started (r := r) (by exact inv) hs
      rw [← List.cons_append]
      apply h.outside_append outside
      refine ⟨started.1, ?_⟩
      rintro t ⟨⟩
    | @accepted parser newParser fed commands acks started calls t result handled hp hf hc
      ha hs hk hh =>
      have outside := front data (.ok fed) acks (by rw [ha]; exact outside_acks)
      have started := h.started (r := r) (by exact inv) hs
      rw [← List.cons_append]
      apply h.outside_append outside
      apply Kept.append started.1
      apply h.processed (started.2 _ rfl) _ hk
      · rintro t eq
        obtain ⟨s', ok, rfl⟩ | ⟨reason, -, rfl⟩ := hh
        · cases eq
          exact ⟨_, ok, rfl⟩
        · cases eq
      · intro c commands mem
        apply guarded
        exact List.mem_cons_of_mem _ (List.mem_append_right _ (List.mem_append_right _ mem))
  | drop =>
    apply h.quiet (by simp) inv
    rintro t ⟨⟩
    rfl
  | call =>
    exact h.consulted (h.call r s.callbackState _ inv) fun reason =>
      h.callFails r s.callbackState _ reason inv
  | info =>
    exact h.consulted (h.info r s.callbackState _ inv) fun reason =>
      h.infoFails r s.callbackState _ reason inv
  | halt => exact h.nothing inv

/-- In every run whose calls of `handle_commands` meet the guard, `P` holds at each effect, and `J`
links the record with the callback state. -/
theorem run_contract (h : Contract next P J cfg.callback Guard r₀) {trace : List (Effect κ σ ε)}
    (run : Run cfg trace st)
    (guarded : ∀ c commands, .handleCommands c commands ∈ trace → Guard c commands) :
    History.Always next P r₀ trace ∧
      ∀ s, st = .running s → J (History.after next r₀ trace) s.callbackState := by
  refine run_invariant (fun trace st =>
    (∀ c commands, .handleCommands c commands ∈ trace → Guard c commands) →
      Kept next P J r₀ trace st)
    ?_ ?_ ?_ run guarded
  · intro c eq _
    refine h.kept h.init ?_
    rintro t ⟨⟩
    exact eq
  · intro reason reason' eq _
    exact h.stopped h.init
  · intro trace s es st before turn guarded
    have kept := before fun c commands mem => guarded c commands (List.mem_append_left _ mem)
    apply Kept.append kept.1
    exact h.turn (kept.2 s rfl)
      (fun c commands mem => guarded c commands (List.mem_append_right _ mem)) turn

end

end Replica

end Veidrodelis.RedisStream
