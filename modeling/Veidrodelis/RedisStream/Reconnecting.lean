import Veidrodelis.Lib.History
import Veidrodelis.RedisStream.Run

/-!
# Reconnecting

Between two messages the process has a connection or the timer of the next attempt, and never both;
while it replicates, the timer of the acknowledgements runs. The delays double from one failed
attempt to the next up to their maximum, and start again with a connection on which a request went
out. With reconnecting turned on, no loss of a connection and no refusal of the primary stops the
process.
-/

namespace Veidrodelis.RedisStream
open RedisNif

variable {κ σ ε μ : Type}

namespace Replica

/-! ## Delays -/

/-- Attempts that were scheduled one after another: a first request that goes out ends the count. -/
def failuresNext (failures : Nat) : Effect κ σ ε → Nat
  | .send .ping => 0
  | .send (.auth _ _) => 0
  | .startTimer .reconnect _ => failures + 1
  | _ => failures

/-- How many attempts in a row have been scheduled at the end of a trace. -/
def failures (trace : List (Effect κ σ ε)) : Nat := History.after failuresNext 0 trace

/-- The delay of the next attempt behind so many in a row. -/
def Config.delayAfter (cfg : Config κ σ ε μ) : Nat → Nat
  | 0 => cfg.reconnectDelayMs
  | n + 1 => min (cfg.reconnectDelayMs * 2 ^ (n + 1)) cfg.maxReconnectDelayMs

/-- One failure more doubles the delay up to its limit. -/
lemma delayAfter_succ (cfg : Config κ σ ε μ) (n : Nat) :
    min (cfg.delayAfter n * 2) cfg.maxReconnectDelayMs = cfg.delayAfter (n + 1) := by
  cases n with
  | zero => rfl
  | succ n =>
    have double : cfg.reconnectDelayMs * 2 ^ (n + 1 + 1) =
      cfg.reconnectDelayMs * 2 ^ (n + 1) * 2 := by
      rw [pow_succ, Nat.mul_assoc]
    rw [Config.delayAfter, Config.delayAfter, double]
    omega

/-- Every attempt is scheduled with the delay of those in front of it. -/
def Punctual (cfg : Config κ σ ε μ) (trace : List (Effect κ σ ε)) : Prop :=
  History.Always failuresNext (fun n e => ∀ ms, e = .startTimer .reconnect ms →
    ms = cfg.delayAfter n) 0 trace

variable {cfg : Config κ σ ε μ} {s s' : State σ} {trace es es' : List (Effect κ σ ε)}
  {st : Status σ} {env : Answers} {handled : Handled σ}

/-- Effects that leave the count as it is. -/
lemma Punctual.append (punctual : Punctual cfg trace)
    (same : ∀ e ∈ es, failuresNext (failures trace) e = failures trace) :
    Punctual cfg (trace ++ es) ∧ failures (trace ++ es) = failures trace := by
  constructor
  · refine History.Always.append punctual (.of_unrecorded same fun e mem ms eq => ?_)
    subst eq
    exact absurd (same _ mem) (Nat.succ_ne_self _)
  · rw [failures, History.after_append]
    exact History.after_unrecorded same

/-! ## What the handlers of data keep -/

/-- Why the process may stop when reconnecting is turned on: something raises, a request of the
handshake is not taken, or the callback module fails. -/
def fatal : Reason → Bool
  | .raised => true
  | .failed what _ =>
    ["init_failed", "replconf_failed", "psync_failed", "handle_replication_start_failed",
      "handle_streaming_start_failed", "callback_failed"].contains what
  | _ => false

/-- The connection, its timer and its delay are the same, and the acknowledgements are timed if they
were. -/
structure SameWires (s s' : State σ) : Prop where
  socket : s'.socket = s.socket
  reconnectTimer : s'.reconnectTimer = s.reconnectTimer
  delay : s'.currentReconnectDelayMs = s.currentReconnectDelayMs
  acks : (s.state = .replication → s.ackTimer = true) → s'.state = .replication → s'.ackTimer = true

/-- A state has its own wires. -/
lemma SameWires.refl (s : State σ) : SameWires s s := ⟨rfl, rfl, rfl, id⟩

/-- States with the wires of a third one have the same. -/
lemma SameWires.trans {s'' : State σ} (h : SameWires s s') (h' : SameWires s' s'') :
    SameWires s s'' :=
  ⟨h'.socket.trans h.socket, h'.reconnectTimer.trans h.reconnectTimer, h'.delay.trans h.delay,
    fun acks => h'.acks (h.acks acks)⟩

/-- A handler of data that schedules no attempt, and stops only for a good reason. -/
structure Steady (s : State σ) (es : List (Effect κ σ ε)) (handled : Handled σ) : Prop where
  even : ∀ e ∈ es, failuresNext 0 e = 0
  noreply : ∀ s', handled = .noreply s' → SameWires s s'
  reconnect : ∀ reason s', handled = .reconnect reason s' → SameWires s s'
  stop : ∀ reason, handled = .stop reason → fatal reason = true

namespace Steady

/-- A stop for a fatal reason is steady. -/
lemma stopped {reason : Reason} (why : fatal reason = true) :
    Steady s ([] : List (Effect κ σ ε)) (.stop reason) :=
  ⟨List.forall_mem_nil _, by rintro _ ⟨⟩, by rintro _ _ ⟨⟩, by rintro _ ⟨⟩; exact why⟩

/-- To wait is steady. -/
lemma waiting : Steady s ([] : List (Effect κ σ ε)) (.noreply s) :=
  ⟨List.forall_mem_nil _, by rintro _ ⟨⟩; exact .refl s, by rintro _ _ ⟨⟩, by rintro _ ⟨⟩⟩

/-- A reconnect is steady. -/
lemma reconnecting (reason : Reason) : Steady s ([] : List (Effect κ σ ε)) (.reconnect reason s) :=
  ⟨List.forall_mem_nil _, by rintro _ ⟨⟩, by rintro _ _ ⟨⟩; exact .refl s, by rintro _ ⟨⟩⟩

/-- Behind steady effects that keep the state. -/
lemma append (kept : SameWires s s') (before : ∀ e ∈ es, failuresNext 0 e = 0)
    (h : Steady s' es' handled) :
    Steady s (es ++ es') handled where
  even e mem := (List.mem_append.mp mem).elim (before e) (h.even e)
  noreply t eq := kept.trans (h.noreply t eq)
  reconnect reason t eq := kept.trans (h.reconnect reason t eq)
  stop := h.stop

/-- The buffer makes no difference. -/
lemma of_buffer {buffer : Bytes} (h : Steady { s with buffer } es handled) : Steady s es handled :=
  have kept : SameWires s { s with buffer } := ⟨rfl, rfl, rfl, id⟩
  ⟨h.even, fun t eq => kept.trans (h.noreply t eq),
    fun reason t eq => kept.trans (h.reconnect reason t eq), h.stop⟩

end Steady

/-- A simple reply is handled steadily if what comes behind it is. -/
lemma onSimpleResponse_steady {what : String} {next : State σ → Out κ σ ε (Handled σ)}
    (h : onSimpleResponse what s next = (es, handled))
    (goesOn : ∀ rest es handled, next { s with buffer := rest } = (es, handled) →
      Steady { s with buffer := rest } es handled) : Steady s es handled := by
  unfold onSimpleResponse at h
  split at h
  · exact (goesOn _ _ _ h).of_buffer
  · cases h
    exact .waiting
  · cases h
    exact .reconnecting _

/-- A request is taken by the socket, or nothing happens. -/
lemma sendRequest_sent {request : Request} {next : Phase} {result : Except Reason (State σ)}
    (h : sendRequest env request next s = (es, result)) :
    (∃ reason, es = [] ∧ result = .error reason) ∨
      es = [.send request] ∧ result = .ok { s with state := next } := by
  obtain ⟨es₁, sent, es₂, ht, hn, rfl⟩ := andThen_eq h
  unfold transportSend at ht
  split at ht <;> cases ht <;> cases hn
  · exact .inr ⟨rfl, rfl⟩
  · exact .inl ⟨_, rfl, rfl⟩

/-- The next request of the handshake, taken or not. -/
lemma sendRequest_steady {request : Request} {next : Phase} {onError : Reason → Handled σ}
    (early : next ≠ .replication)
    (fails : ∀ reason, Steady s ([] : List (Effect κ σ ε)) (onError reason))
    (h : (sendRequest env request next s).andThen
      (fun | .ok s => ([], .noreply s) | .error reason => ([], onError reason)) = (es, handled)) :
    Steady s es handled := by
  obtain ⟨es₁, result, es₂, hs, hn, rfl⟩ := andThen_eq h
  obtain ⟨reason, rfl, rfl⟩ | ⟨rfl, rfl⟩ := sendRequest_sent hs
  · cases hn
    exact fails reason
  · cases hn
    have kept : SameWires s { s with state := next } :=
      ⟨rfl, rfl, rfl, fun _ phase => absurd phase early⟩
    refine ⟨?_, by rintro _ ⟨⟩; exact kept, by rintro _ _ ⟨⟩, by rintro _ ⟨⟩⟩
    rintro e mem
    obtain rfl := List.mem_singleton.mp mem
    cases request <;> rfl

/-- A request that is sent or stops the process is steady. -/
lemma orStop_steady {request : Request} {next : Phase} {what : String} (early : next ≠ .replication)
    (why : ∀ reason, fatal (.failed what reason) = true)
    (h : orStop what (sendRequest env request next s) = (es, handled)) : Steady s es handled :=
  sendRequest_steady early (fun reason => .stopped (why reason)) h

/-! ### Replication data -/

/-- What the callback answers is no failure to connect. -/
lemma even_answers {function : CallbackFunction} (result : List ε × Except Reason σ) (n : Nat) :
    ∀ e ∈ (answers function result : List (Effect κ σ ε)), failuresNext n e = n :=
  forall_answers (fun _ _ => rfl) fun _ => rfl

/-- An acknowledgement is no failure to connect. -/
lemma even_acks (n : Nat) :
    ∀ e ∈ (sendReplconfAck env s : List (Effect κ σ ε)), failuresNext n e = n := by
  intro e mem
  unfold sendReplconfAck transportSend at mem
  split at mem
  · split at mem
    · obtain rfl := List.mem_singleton.mp mem
      rfl
    · cases mem
  · cases mem

/-- Cancelling the acknowledge timer is no failure to connect. -/
lemma even_cancelAckTimer {t : State σ} (h : (cancelAckTimer s : Out κ σ ε (State σ)) = (es, t))
    (n : Nat) : ∀ e ∈ es, failuresNext n e = n := by
  unfold cancelAckTimer at h
  split at h <;> cases h
  · simp [failuresNext]
  · exact List.forall_mem_nil _

/-- Cancelling the reconnect timer is no failure to connect. -/
lemma even_cancelReconnectTimer {t : State σ}
    (h : (cancelReconnectTimer s : Out κ σ ε (State σ)) = (es, t)) (n : Nat) :
    ∀ e ∈ es, failuresNext n e = n := by
  unfold cancelReconnectTimer at h
  split at h <;> cases h
  · simp [failuresNext]
  · exact List.forall_mem_nil _

/-- Setting the acknowledge timer is no failure to connect. -/
lemma even_schedulePeriodicAck {t : State σ}
    (h : (schedulePeriodicAck cfg s : Out κ σ ε (State σ)) = (es, t)) (n : Nat) :
    ∀ e ∈ es, failuresNext n e = n := by
  obtain ⟨es₁, u, es₂, hc, hn, rfl⟩ := andThen_eq h
  cases hn
  intro e mem
  obtain first | last := List.mem_append.mp mem
  · exact even_cancelAckTimer hc n e first
  · obtain rfl := List.mem_singleton.mp last
    rfl

/-- The start of the stream is no failure to connect. -/
lemma even_startStreaming {before after : ReplicaParser.ReplicaState}
    {started : List (Effect κ σ ε)} {result : Except Reason (State σ)}
    (h : startStreaming cfg before after s = (started, result)) :
    ∀ e ∈ started, failuresNext 0 e = 0 := by
  obtain ⟨-, -, rfl, -⟩ | ⟨-, rfl, -⟩ := startStreaming_eq h
  · exact even_answers _ 0
  · exact List.forall_mem_nil _

/-- The start of the stream fails for fatal reasons only. -/
lemma startStreaming_fails {before after : ReplicaParser.ReplicaState}
    {started : List (Effect κ σ ε)} {reason : Reason}
    (h : startStreaming cfg before after s = (started, .error reason)) : fatal reason = true := by
  unfold startStreaming at h
  split at h
  · obtain ⟨es₁, answer, es₂, hc, hn, -⟩ := andThen_eq h
    split at hn <;> cases hn
    rfl
  · cases h

/-- Passing commands on is no failure to connect. -/
lemma even_processCommands {commands : List (ReplicaCommand κ)} {calls : List (Effect κ σ ε)}
    {result : Except Reason (State σ)} (h : processCommands cfg commands s = (calls, result)) :
    ∀ e ∈ calls, failuresNext 0 e = 0 := by
  obtain ⟨-, rfl, -⟩ | ⟨-, rfl, -⟩ := processCommands_eq h
  · exact List.forall_mem_nil _
  · exact List.forall_mem_cons.mpr ⟨rfl, even_answers _ 0⟩

/-- What the parser, the acknowledgement and the callback module do with a chunk schedules
nothing. -/
lemma even_handleReplicationData {data : Bytes}
    (h : handleReplicationData cfg env data s = (es, handled)) :
    ∀ e ∈ es, failuresNext 0 e = 0 := by
  have answered (asked : Prop) [Decidable asked] (t : State σ) :
      ∀ e ∈ (if asked then sendReplconfAck env t else [] : List (Effect κ σ ε)),
      failuresNext 0 e = 0 := by
    split
    · exact even_acks 0
    · exact List.forall_mem_nil _
  cases handleReplicationData_receives h with
  | noParser => exact List.forall_mem_nil _
  | refused => simp [failuresNext]
  | unparsed => simp [failuresNext]
  | notStarted hp hf hc ha hs =>
    rw [ha]
    exact List.forall_mem_cons.mpr ⟨rfl,
      List.forall_mem_append.mpr ⟨answered _ _, even_startStreaming hs⟩⟩
  | accepted hp hf hc ha hs hk hh =>
    rw [ha]
    have called := List.forall_mem_append.mpr ⟨even_startStreaming hs, even_processCommands hk⟩
    exact List.forall_mem_cons.mpr ⟨rfl, List.forall_mem_append.mpr ⟨answered _ _, called⟩⟩

/-- A chunk that gives the connection up has changed nothing. -/
lemma handleReplicationData_reconnects {data : Bytes} {reason : Reason}
    (h : handleReplicationData cfg env data s = (es, .reconnect reason s')) : s' = s := by
  generalize eq : Handled.reconnect reason s' = handled at h
  cases handleReplicationData_receives h with
  | noParser => cases eq
  | refused _ _ hh =>
    obtain ⟨_, rfl⟩ | rfl := hh <;> cases eq
    rfl
  | unparsed => cases eq
  | notStarted => cases eq
  | accepted _ _ _ _ _ _ hh => obtain ⟨_, -, rfl⟩ | ⟨_, -, rfl⟩ := hh <;> cases eq

/-- Replication data stop the process for fatal reasons only. -/
lemma handleReplicationData_stops {data : Bytes} {reason : Reason}
    (h : handleReplicationData cfg env data s = (es, .stop reason)) : fatal reason = true := by
  generalize eq : Handled.stop reason = handled at h
  cases handleReplicationData_receives h with
  | noParser =>
    cases eq
    rfl
  | refused _ _ hh =>
    obtain ⟨_, rfl⟩ | rfl := hh <;> cases eq
    rfl
  | unparsed =>
    cases eq
    rfl
  | notStarted _ _ _ _ hs =>
    cases eq
    exact startStreaming_fails hs
  | accepted _ _ _ _ _ _ hh =>
    obtain ⟨_, -, rfl⟩ | ⟨_, -, rfl⟩ := hh <;> cases eq
    rfl

/-- Replication data are handled steadily. -/
lemma handleReplicationData_steady {data : Bytes}
    (h : handleReplicationData cfg env data s = (es, handled)) : Steady s es handled := by
  refine ⟨even_handleReplicationData h, ?_, ?_, ?_⟩
  · rintro s' rfl
    obtain ⟨_, _, _, _, -, -, rfl⟩ := accepted_state h
    exact ⟨rfl, rfl, rfl, id⟩
  · rintro reason s' rfl
    rw [handleReplicationData_reconnects h]
    exact .refl s
  · rintro reason rfl
    exact handleReplicationData_stops h

/-! ### The handshake -/

/-- The reply to PSYNC is handled steadily. -/
lemma handlePsyncResponse_steady (h : handlePsyncResponse cfg env s = (es, handled)) :
    Steady s es handled := by
  unfold handlePsyncResponse at h
  split at h
  · cases h
    exact .waiting
  · cases h
    exact .stopped rfl
  · cases h
    exact .reconnecting _
  · rename_i reply rest _
    obtain ⟨es₁, result, es₂, hc, hn, rfl⟩ := andThen_eq h
    suffices behind : Steady { s with buffer := rest } (es₁ ++ es₂) handled from behind.of_buffer
    have first : ∀ e ∈ es₁, failuresNext 0 e = 0 := by
      obtain ⟨_, _, -, rfl, -⟩ | ⟨-, rfl, -⟩ := handlePsyncCompleted_eq hc
      · exact List.forall_mem_cons.mpr ⟨rfl, even_answers _ 0⟩
      · simp [failuresNext]
    cases result with
    | error reason =>
      cases hn
      rw [List.append_nil]
      exact ⟨first, by rintro _ ⟨⟩, by rintro _ _ ⟨⟩, by rintro _ ⟨⟩; rfl⟩
    | ok t =>
      obtain ⟨es₃, u, es₄, ht, hm, rfl⟩ := andThen_eq hn
      have timed := even_schedulePeriodicAck ht 0
      obtain ⟨-, rfl⟩ := schedulePeriodicAck_quiet ht
      -- the acknowledgements are timed from here on
      have kept : SameWires { s with buffer := rest } { t with ackTimer := true } := by
        obtain ⟨_, _, rfl, -, ok⟩ | ⟨rfl, -, ok⟩ := handlePsyncCompleted_eq hc
        · obtain ⟨_, -, rfl⟩ := ok t rfl
          exact ⟨rfl, rfl, rfl, fun _ _ => rfl⟩
        · cases ok
          exact ⟨rfl, rfl, rfl, fun _ _ => rfl⟩
      have both : ∀ e ∈ es₁ ++ es₃, failuresNext 0 e = 0 :=
        List.forall_mem_append.mpr ⟨first, timed⟩
      rw [← List.append_assoc]
      split at hm
      · cases hm
        exact .append kept both .waiting
      · exact .append kept both (handleReplicationData_steady hm).of_buffer

/-- Data are handled steadily in every phase. -/
lemma dispatchData_steady {data : Bytes} (h : dispatchData cfg env data s = (es, handled)) :
    Steady s es handled := by
  unfold dispatchData at h
  split at h
  · exact handleReplicationData_steady h
  · exact .of_buffer (onSimpleResponse_steady h
      fun _ _ _ h => orStop_steady (by decide) (fun _ => rfl) h)
  · refine .of_buffer (onSimpleResponse_steady h fun _ _ _ h => ?_)
    exact sendRequest_steady (by decide) (fun _ => .reconnecting _) h
  · exact .of_buffer (onSimpleResponse_steady h
      fun _ _ _ h => orStop_steady (by decide) (fun _ => rfl) h)
  · exact .of_buffer (onSimpleResponse_steady h
      fun _ _ _ h => orStop_steady (by decide) (fun _ => rfl) h)
  · exact .of_buffer (handlePsyncResponse_steady h)
  · cases h
    exact .stopped rfl

/-! ## The process between two messages -/

/-- A connection, or the timer of the next attempt, with the delay that is its turn; with the
connection the count of attempts starts again. While the process replicates, its acknowledgements
are timed. -/
structure Settled (cfg : Config κ σ ε μ) (trace : List (Effect κ σ ε)) (s : State σ) : Prop where
  waits : s.reconnectTimer = true ↔ s.socket = none
  due : s.currentReconnectDelayMs = cfg.delayAfter (failures trace)
  fresh : s.socket ≠ none → failures trace = 0
  acks : s.state = .replication → s.ackTimer = true

/-- What holds of a run that goes on connecting. -/
structure Persists (cfg : Config κ σ ε μ) (trace : List (Effect κ σ ε)) (st : Status σ) : Prop where
  punctual : Punctual cfg trace
  running : ∀ s, st = .running s → Settled cfg trace s
  stopped : ∀ reason, st = .stopped reason → cfg.reconnectEnabled = true → fatal reason = true

/-- The next attempt is scheduled, or the process stops because it must not reconnect. -/
lemma scheduleReconnect_persists {reason : Reason} (punctual : Punctual cfg trace)
    (idle : s.socket = none) (due : s.currentReconnectDelayMs = cfg.delayAfter (failures trace))
    (h : scheduleReconnect cfg reason s = (es, st)) : Persists cfg (trace ++ es) st := by
  obtain ⟨es₁, u, es₂, hc, hn, rfl⟩ := andThen_eq h
  cases hc
  obtain ⟨es₃, t, es₄, ht, hm, rfl⟩ := andThen_eq hn
  have isNil : (closeSocket s : List (Effect κ σ ε)) = [] := by
    rw [closeSocket, idle]
    rfl
  obtain ⟨before, same⟩ := punctual.append (even_cancelReconnectTimer ht _)
  obtain ⟨-, rfl⟩ := cancelReconnectTimer_quiet ht
  rw [isNil, List.nil_append, ← List.append_assoc]
  split at hm
  · cases hm
    have more : failures (trace ++ es₃ ++ [.startTimer .reconnect s.currentReconnectDelayMs]) =
      failures trace + 1 := by
      rw [failures, History.after_append]
      exact congrArg (· + 1) same
    refine ⟨?_, ?_, by rintro _ ⟨⟩⟩
    · refine History.Always.append before ⟨?_, trivial⟩
      rintro ms ⟨⟩
      exact due.trans (congrArg cfg.delayAfter same.symm)
    · rintro _ ⟨⟩
      refine ⟨iff_of_true rfl idle, ?_, fun filled => absurd idle filled, by rintro ⟨⟩⟩
      rw [more, ← delayAfter_succ, ← due]
  · rename_i disabled
    cases hm
    rw [List.append_nil]
    refine ⟨before, by rintro _ ⟨⟩, ?_⟩
    rintro _ - enabled
    exact absurd enabled disabled

/-- The connection is given up. -/
lemma handleDisconnect_persists {reason : Reason} (punctual : Punctual cfg trace)
    (due : s.currentReconnectDelayMs = cfg.delayAfter (failures trace))
    (h : handleDisconnect cfg reason s = (es, st)) : Persists cfg (trace ++ es) st := by
  obtain ⟨es₁, u, es₂, hc, hn, rfl⟩ := andThen_eq h
  cases hc
  obtain ⟨es₃, t, es₄, ht, hm, rfl⟩ := andThen_eq hn
  have closed : ∀ e ∈ closeSocket s, failuresNext (failures trace) (e : Effect κ σ ε) =
    failures trace := by
    unfold closeSocket
    split
    · simp [failuresNext]
    · exact List.forall_mem_nil _
  obtain ⟨before, same⟩ :=
    punctual.append (List.forall_mem_append.mpr ⟨closed, even_cancelAckTimer ht _⟩)
  obtain ⟨-, rfl⟩ := cancelAckTimer_quiet ht
  rw [← List.append_assoc, ← List.append_assoc, List.append_assoc trace]
  refine scheduleReconnect_persists before ?_ ?_ hm
  · rfl
  · exact due.trans (congrArg cfg.delayAfter same.symm)

/-- An attempt to connect: the first request has gone out, or nothing has happened. -/
lemma connect_attempt {result : Except Reason (State σ)} (h : connect cfg env s = (es, result)) :
    (∃ reason, es = [] ∧ result = .error reason) ∨
      ∃ e socket phase, es = [e] ∧ (∀ n, failuresNext n e = 0) ∧ phase ≠ .replication ∧
        (∀ ms, e ≠ .startTimer .reconnect ms) ∧
        result = .ok { s with socket := some socket, state := phase } := by
  unfold connect at h
  split at h
  · rename_i socket _
    split at h
    · unfold proceedAfterConnect at h
      split at h
      · obtain ⟨reason, rfl, rfl⟩ | ⟨rfl, rfl⟩ := sendRequest_sent h
        · exact .inl ⟨reason, rfl, rfl⟩
        · exact .inr ⟨_, socket, .auth, rfl, fun _ => rfl, by decide, by rintro _ ⟨⟩, rfl⟩
      · obtain ⟨reason, rfl, rfl⟩ | ⟨rfl, rfl⟩ := sendRequest_sent h
        · exact .inl ⟨reason, rfl, rfl⟩
        · exact .inr ⟨_, socket, .ping, rfl, fun _ => rfl, by decide, by rintro _ ⟨⟩, rfl⟩
    · cases h
      exact .inl ⟨_, rfl, rfl⟩
  · cases h
    exact .inl ⟨_, rfl, rfl⟩

/-- An attempt to connect goes on, or fails with the next delay. -/
lemma handleContinue_persists (punctual : Punctual cfg trace) (idle : s.socket = none)
    (due : s.currentReconnectDelayMs = cfg.delayAfter (failures trace))
    (h : handleContinue cfg env s = (es, st)) : Persists cfg (trace ++ es) st := by
  obtain ⟨es₁, result, es₂, hc, hn, rfl⟩ := andThen_eq h
  obtain ⟨reason, rfl, rfl⟩ | ⟨e, socket, phase, rfl, first, early, other, rfl⟩ :=
    connect_attempt hc
  · rw [List.nil_append]
    cases reason with
    | raised =>
      cases hn
      rw [List.append_nil]
      exact ⟨punctual, by rintro _ ⟨⟩, by rintro _ ⟨⟩ -; rfl⟩
    | redisError error => exact scheduleReconnect_persists punctual idle due hn
    | parserError msg => exact scheduleReconnect_persists punctual idle due hn
    | text what => exact scheduleReconnect_persists punctual idle due hn
    | failed what reason => exact scheduleReconnect_persists punctual idle due hn
  · obtain ⟨es₃, t, es₄, ht, hm, rfl⟩ := andThen_eq hn
    cases hm
    have even := even_cancelReconnectTimer ht 0
    obtain ⟨-, rfl⟩ := cancelReconnectTimer_quiet ht
    have sent : failures (trace ++ [e]) = 0 := by
      rw [failures, History.after_append]
      exact first _
    have before : Punctual cfg (trace ++ [e]) := by
      refine History.Always.append punctual ⟨?_, trivial⟩
      intro ms eq
      exact absurd eq (other ms)
    rw [← sent] at even
    obtain ⟨behind, same⟩ := before.append even
    rw [List.append_nil, ← List.append_assoc]
    refine ⟨behind, ?_, by rintro _ ⟨⟩⟩
    rintro _ ⟨⟩
    refine ⟨iff_of_false (by rintro ⟨⟩) (by rintro ⟨⟩), ?_, fun _ => same.trans sent,
      fun phase' => absurd phase' early⟩
    rw [same, sent]
    rfl

/-- What the process does on a message that leaves its connection alone. -/
lemma Persists.kept (before : Persists cfg trace (.running s))
    (even : ∀ e ∈ es, failuresNext (failures trace) e = failures trace)
    (kept : ∀ s', st = .running s' → SameWires s s')
    (stops : ∀ reason, st = .stopped reason → fatal reason = true) :
    Persists cfg (trace ++ es) st := by
  obtain ⟨punctual, same⟩ := before.punctual.append even
  obtain ⟨waits, due, fresh, acks⟩ := before.running s rfl
  refine ⟨punctual, fun s' eq => ?_, fun reason eq _ => stops reason eq⟩
  have h := kept s' eq
  constructor
  · rw [h.reconnectTimer, h.socket]
    exact waits
  · rw [h.delay, same]
    exact due
  · rw [h.socket, same]
    exact fresh
  · exact h.acks acks

/-- The callback module has answered a call or a message. -/
lemma consulted_persists {function : CallbackFunction} {result : List ε × Except Reason σ}
    (before : Persists cfg trace (.running s))
    (h : (ofCallback function result : Out κ σ ε (Except Reason σ)).andThen (fun
      | .ok callbackState => ([], .running { s with callbackState })
      | .error .raised => ([], .stopped .raised)
      | .error _ => ([], .running s)) = (es, st)) : Persists cfg (trace ++ es) st := by
  obtain ⟨es₁, answer, es₂, hc, hn, rfl⟩ := andThen_eq h
  cases hc
  refine before.kept ?_ ?_ ?_
  · split at hn <;> cases hn <;> rw [List.append_nil] <;> exact even_answers _ _
  · rintro s' rfl
    split at hn <;> cases hn
    · exact ⟨rfl, rfl, rfl, id⟩
    · exact .refl s
  · rintro reason rfl
    split at hn <;> cases hn
    rfl

/-- Data keep the process going, or lead to a reconnect. -/
lemma handleData_persists {data : Bytes} (before : Persists cfg trace (.running s))
    (here : s.socket ≠ none) (h : handleData cfg env data s = (es, st)) :
    Persists cfg (trace ++ es) st := by
  obtain ⟨es₁, handled, es₂, hd, hn, rfl⟩ := andThen_eq h
  have steady := dispatchData_steady hd
  have settled := before.running s rfl
  have even : ∀ e ∈ es₁, failuresNext (failures trace) e = failures trace := by
    rw [settled.fresh here]
    exact steady.even
  cases handled with
  | noreply s' =>
    cases hn
    rw [List.append_nil]
    refine before.kept even ?_ ?_
    · intro t eq
      split at eq <;> cases eq
      exact steady.noreply _ rfl
    · intro reason eq
      split at eq <;> cases eq
      rfl
  | reconnect reason s' =>
    obtain ⟨punctual, same⟩ := before.punctual.append even
    rw [← List.append_assoc]
    refine handleDisconnect_persists punctual ?_ hn
    rw [(steady.reconnect reason s' rfl).delay, same]
    exact settled.due
  | stop reason =>
    cases hn
    rw [List.append_nil]
    refine before.kept even (by rintro _ ⟨⟩) ?_
    rintro _ ⟨⟩
    exact steady.stop reason rfl

/-- What one message keeps. -/
lemma handleMessage_persists {message : Message μ} (before : Persists cfg trace (.running s))
    (h : handleMessage cfg env message s = (es, st)) : Persists cfg (trace ++ es) st := by
  have settled := before.running s rfl
  -- messages of a socket or a timer that is no longer the current one
  have ignored (h : (([], .running s) : Out κ σ ε (Status σ)) = (es, st)) :
    Persists cfg (trace ++ es) st := by
    cases h
    rwa [List.append_nil]
  cases message with
  | data socket data =>
    simp only [handleMessage] at h
    split at h
    · rename_i here
      exact handleData_persists before (by rw [here]; simp) h
    · exact ignored h
  | closed socket =>
    simp only [handleMessage] at h
    split at h
    · exact handleDisconnect_persists before.punctual settled.due h
    · exact ignored h
  | failed socket reason =>
    simp only [handleMessage] at h
    split at h
    · exact handleDisconnect_persists before.punctual settled.due h
    · exact ignored h
  | reconnectTimeout =>
    simp only [handleMessage] at h
    split at h
    · rename_i waiting
      refine handleContinue_persists before.punctual ?_ ?_ h
      · exact settled.waits.mp waiting
      · exact settled.due
    · exact ignored h
  | sendPeriodicAck =>
    simp only [handleMessage] at h
    obtain ⟨es₁, u, es₂, ha, hn, rfl⟩ := andThen_eq h
    cases ha
    obtain ⟨es₃, t, es₄, ht, hm, rfl⟩ := andThen_eq hn
    have timed := even_schedulePeriodicAck ht (failures trace)
    obtain ⟨-, rfl⟩ := schedulePeriodicAck_quiet ht
    cases hm
    rw [List.append_nil]
    refine before.kept (List.forall_mem_append.mpr ⟨even_acks _, timed⟩) ?_ (by rintro _ ⟨⟩)
    rintro _ ⟨⟩
    exact ⟨rfl, rfl, rfl, fun _ _ => rfl⟩
  | callbackCall message =>
    simp only [handleMessage, callbackCall] at h
    split at h
    · exact consulted_persists before h
    · exact ignored h
  | info message =>
    simp only [handleMessage, callbackInfo] at h
    exact consulted_persists before h

/-- Between two messages of a run there is a connection or the timer of the next attempt, whose
delay is its turn; and with reconnecting turned on, only a good reason stops the process. -/
theorem run_persists (h : Run cfg trace st) : Persists cfg trace st := by
  induction h with
  | start h =>
    obtain ⟨es₁, result, es₂, hc, hn, rfl⟩ := andThen_eq h
    cases hc
    have begun : Punctual cfg ([] : List (Effect κ σ ε)) := trivial
    obtain ⟨punctual, same⟩ := begun.append (@even_answers κ _ _ .init cfg.callback.init 0)
    cases answer : cfg.callback.init.2 with
    | ok callbackState =>
      rw [answer] at hn
      refine handleContinue_persists punctual rfl ?_ hn
      exact (congrArg cfg.delayAfter same).symm
    | error reason =>
      rw [answer] at hn
      cases hn
      rw [List.append_nil]
      refine ⟨punctual, by rintro _ ⟨⟩, ?_⟩
      rintro _ ⟨⟩ -
      rfl
  | step _ h ih => exact handleMessage_persists ih h

/-- A primary that cannot be reached. -/
def Answers.refused : Answers := ⟨.error (.text "econnrefused"), true, .ok ()⟩

/-- Three attempts are refused, and the fourth is due four seconds after the third. -/
theorem run_persists_refused :
    Persists .plain
        [.startTimer .reconnect 1000, .startTimer .reconnect 2000, .startTimer .reconnect 4000]
        (execute .plain .refused [.reconnectTimeout, .reconnectTimeout]).2 :=
  run_persists (run_execute .plain .refused [.reconnectTimeout, .reconnectTimeout])

end Replica

end Veidrodelis.RedisStream
