import Mathlib.Data.List.Basic
import Mathlib.Tactic.Lemma

/-!
# Incremental machines

A machine works on a state that holds the input it has not consumed yet. One step either consumes
some of it (`Step.next`), asks for more (`Step.stall`) or refuses it (`Step.fault`). `drive` repeats
the step until it stalls or faults.

The laws that make a machine insensitive to the way its input is cut are the fields of `Machine`: a
step that does something does the same thing when more input stands behind, and a stalled state
behaves, once extended, as the state it was stalled from. From them:

* `Machine.run_push`: running on `x ++ y` is running on `x` and then pushing `y`.
* `Machine.absorbAll_flatten`: feeding a list of chunks is feeding their concatenation.
-/

namespace Veidrodelis.Incremental

variable {τ σ ω ε : Type}

/-- What one step makes of a state. -/
inductive Step (σ ω ε : Type) where
  /-- More input is needed. -/
  | stall (s : σ)
  /-- Input was consumed, `out` came out. -/
  | next (s : σ) (out : List ω)
  /-- The input is refused. -/
  | fault (e : ε)

/-- Repeat a step, at most `fuel` times, until it stalls or faults; the outputs are concatenated. -/
def drive (step : σ → Step σ ω ε) : Nat → σ → Except ε (σ × List ω)
  | 0, s => .ok (s, [])
  | fuel + 1, s =>
    match step s with
    | .stall s' => .ok (s', [])
    | .fault e => .error e
    | .next s' out =>
      match drive step fuel s' with
      | .ok (t, rest) => .ok (t, out ++ rest)
      | .error e => .error e

/-- Put earlier outputs in front of a result. -/
def after (out : List ω) : Except ε (σ × List ω) → Except ε (σ × List ω)
  | .ok (t, rest) => .ok (t, out ++ rest)
  | .error e => .error e

/-- Without outputs in front the result stays. -/
@[simp] lemma after_nil (r : Except ε (σ × List ω)) : after [] r = r := by
  cases r <;> rfl

/-- An error stays behind any outputs. -/
@[simp] lemma after_error (out : List ω) (e : ε) :
    after out (.error e : Except ε (σ × List ω)) = .error e := rfl

/-- Outputs are put in front of those of the result. -/
@[simp] lemma after_ok (out rest : List ω) (t : σ) :
    after out (.ok (t, rest) : Except ε (σ × List ω)) = .ok (t, out ++ rest) := rfl

/-- A result with outputs in front comes from a result. -/
lemma after_eq_ok {out all : List ω} {r : Except ε (σ × List ω)} {t : σ}
    (h : after out r = .ok (t, all)) : ∃ rest, r = .ok (t, rest) ∧ all = out ++ rest := by
  cases r with
  | ok p =>
    obtain ⟨u, rest⟩ := p
    cases h
    exact ⟨rest, rfl, rfl⟩
  | error e => cases h

/-- Outputs in front make no error. -/
lemma after_eq_error {out : List ω} {r : Except ε (σ × List ω)} {e : ε} :
    after out r = .error e ↔ r = .error e := by
  cases r with
  | ok p => obtain ⟨t, rest⟩ := p; simp
  | error e' => simp

/-- Outputs are put in front one part after the other. -/
lemma after_after (o1 o2 : List ω) (r : Except ε (σ × List ω)) :
    after o1 (after o2 r) = after (o1 ++ o2) r := by
  cases r with
  | ok p => obtain ⟨t, rest⟩ := p; simp
  | error e => rfl

/-- The states in which the steps of `drive` begin. -/
def trail (step : σ → Step σ ω ε) : Nat → σ → List σ
  | 0, _ => []
  | fuel + 1, s =>
    s :: match step s with
      | .next s' _ => trail step fuel s'
      | _ => []

/-- Enough fuel is as good as any larger amount. -/
lemma drive_fuel {step : σ → Step σ ω ε} {size : σ → Nat}
    (dec : ∀ {s s' out}, step s = .next s' out → size s' < size s) {n m : Nat} {s : σ}
    (hn : size s < n) (hm : size s < m) : drive step n s = drive step m s := by
  induction n generalizing m s with
  | zero => omega
  | succ n ih =>
    cases m with
    | zero => omega
    | succ m =>
      simp only [drive]
      cases e : step s with
      | stall s' => rfl
      | fault e' => rfl
      | next s' out =>
        have lt := dec e
        have eq := ih (m := m) (s := s') (by omega) (by omega)
        simp only [eq]

/-- With enough fuel the steps behind a productive one are a drive of their own. -/
lemma drive_next {step : σ → Step σ ω ε} (size : σ → Nat)
    (dec : ∀ {s s' out}, step s = .next s' out → size s' < size s) {s s' : σ} {out : List ω}
    (e : step s = .next s' out) :
    drive step (size s + 1) s = after out (drive step (size s' + 1) s') := by
  have lt := dec e
  rw [drive, e]
  simp only [drive_fuel dec (n := size s) (m := size s' + 1) lt (by omega)]
  cases drive step (size s' + 1) s' <;> rfl

/-- The trail does not depend on the fuel, if that exceeds the size. -/
lemma trail_fuel {step : σ → Step σ ω ε} {size : σ → Nat}
    (dec : ∀ {s s' out}, step s = .next s' out → size s' < size s) {n m : Nat} {s : σ}
    (hn : size s < n) (hm : size s < m) : trail step n s = trail step m s := by
  induction n generalizing m s with
  | zero => omega
  | succ n ih =>
    cases m with
    | zero => omega
    | succ m =>
      simp only [trail]
      cases e : step s with
      | stall s' => rfl
      | fault e' => rfl
      | next s' out =>
        have lt := dec e
        simp only [ih (m := m) (s := s') (by omega) (by omega)]

/-- The steps behind a productive one. -/
lemma trail_next {step : σ → Step σ ω ε} (size : σ → Nat)
    (dec : ∀ {s s' out}, step s = .next s' out → size s' < size s) {s s' : σ} {out : List ω}
    (e : step s = .next s' out) :
    trail step (size s + 1) s = s :: trail step (size s' + 1) s' := by
  have lt := dec e
  rw [trail, e]
  simp only [trail_fuel dec (n := size s) (m := size s' + 1) lt (by omega)]

/-- A step that is not productive is the last. -/
lemma trail_stop {step : σ → Step σ ω ε} {s : σ} (e : ∀ s' out, step s ≠ .next s' out)
    (fuel : Nat) :
    trail step (fuel + 1) s = [s] := by
  cases h : step s with
  | stall s' => simp only [trail, h]
  | fault f => simp only [trail, h]
  | next s' out => exact absurd h (e s' out)

/-- What every productive step keeps holds in all states in which steps begin. -/
lemma trail_preserves {step : σ → Step σ ω ε} {P : σ → Prop}
    (next : ∀ {s s' out}, step s = .next s' out → P s → P s') {fuel : Nat} {s : σ} (hs : P s) :
    ∀ t ∈ trail step fuel s, P t := by
  induction fuel generalizing s with
  | zero => nofun
  | succ fuel ih =>
    intro t ht
    rw [trail, List.mem_cons] at ht
    obtain rfl | ht := ht
    · exact hs
    · cases e : step s with
      | next s' out =>
        rw [e] at ht
        exact ih (next e hs) t ht
      | stall s' => simp [e] at ht
      | fault f => simp [e] at ht

/-- What every step keeps, a drive keeps. -/
lemma drive_preserves {step : σ → Step σ ω ε} {P : σ → Prop}
    (next : ∀ {s s' out}, step s = .next s' out → P s → P s')
    (stall : ∀ {s s'}, step s = .stall s' → P s → P s') {fuel : Nat} {s t : σ} {out : List ω}
    (h : drive step fuel s = .ok (t, out)) (hs : P s) : P t := by
  induction fuel generalizing s out with
  | zero =>
    cases h
    exact hs
  | succ fuel ih =>
    rw [drive] at h
    cases e : step s with
    | stall s' =>
      rw [e] at h
      cases h
      exact stall e hs
    | fault f =>
      rw [e] at h
      cases h
    | next s' o =>
      rw [e] at h
      cases d : drive step fuel s' with
      | error f =>
        simp only [d] at h
        cases h
      | ok r =>
        obtain ⟨u, rest⟩ := r
        simp only [d] at h
        cases h
        exact ih d (next e hs)

/-- A drive ends with an error when one of its steps does. -/
lemma drive_eq_error {step : σ → Step σ ω ε} {fuel : Nat} {s : σ} {e : ε} :
    drive step fuel s = .error e ↔ ∃ t ∈ trail step fuel s, step t = .fault e := by
  induction fuel generalizing s with
  | zero => simp [drive, trail]
  | succ fuel ih =>
    rw [drive, trail]
    cases h : step s with
    | stall s' => simp [h]
    | fault f => simp [h]
    | next s' out =>
      simp only [List.exists_mem_cons_iff, h, reduceCtorEq, false_or, ← ih]
      cases drive step fuel s' with
      | ok p => simp
      | error f => simp

/-- The laws of incrementality of a step at one state: what `push` puts behind the unread input is
not noticed by a step that consumed or refused, and a stalled state is as good as the one it was
stalled from. -/
structure Lawful (step : σ → Step σ ω ε) (push : σ → List τ → σ) (size : σ → Nat) (s : σ) :
    Prop where
  size_next : ∀ {s' out}, step s = .next s' out → size s' < size s
  next_push : ∀ {s' out}, step s = .next s' out → ∀ x, step (push s x) = .next (push s' x) out
  fault_push : ∀ {e}, step s = .fault e → ∀ x, step (push s x) = .fault e
  stall_push : ∀ {s'}, step s = .stall s' → ∀ x, step (push s x) = step (push s' x)

section
variable {step : σ → Step σ ω ε} {push : σ → List τ → σ} {size : σ → Nat} {s s' : σ}

/-- A state that stalls is lawful when stalling only drops what the next step would drop as well. -/
lemma Lawful.of_stall (h : step s = .stall s') (later : ∀ x, step (push s x) = step (push s' x)) :
    Lawful step push size s where
  size_next e := by rw [h] at e; cases e
  next_push e := by rw [h] at e; cases e
  fault_push e := by rw [h] at e; cases e
  stall_push e x := by rw [h] at e; cases e; exact later x

/-- A state that stalls unchanged is lawful. -/
lemma Lawful.of_wait (h : step s = .stall s) : Lawful step push size s :=
  .of_stall h fun _ => rfl

/-- A round that makes the state smaller, with more input behind it as well, is lawful. -/
lemma Lawful.of_next {out : List ω} (h : step s = .next s' out) (lt : size s' < size s)
    (later : ∀ x, step (push s x) = .next (push s' x) out) : Lawful step push size s where
  size_next e := by rw [h] at e; cases e; exact lt
  next_push e x := by rw [h] at e; cases e; exact later x
  fault_push e := by rw [h] at e; cases e
  stall_push e := by rw [h] at e; cases e

/-- A fault that more input does not undo is lawful. -/
lemma Lawful.of_fault {e : ε} (h : step s = .fault e) (later : ∀ x, step (push s x) = .fault e) :
    Lawful step push size s where
  size_next e := by rw [h] at e; cases e
  next_push e := by rw [h] at e; cases e
  fault_push e x := by rw [h] at e; cases e; exact later x
  stall_push e := by rw [h] at e; cases e

end

/-- A step function over a state that can be pushed more input, with the laws of incrementality. -/
structure Machine (τ σ ω ε : Type) where
  step : σ → Step σ ω ε
  /-- The state with more unread input. -/
  push : σ → List τ → σ
  /-- A measure that every productive step decreases. -/
  size : σ → Nat
  push_nil : ∀ s, push s [] = s
  push_append : ∀ s x y, push s (x ++ y) = push (push s x) y
  lawful : ∀ s, Lawful step push size s

namespace Machine

variable (M : Machine τ σ ω ε)

/-- Run a machine until it stalls or faults. -/
def run (s : σ) : Except ε (σ × List ω) := drive M.step (M.size s + 1) s

/-- The unfolding equation of `run`: fuel never runs out. -/
lemma run_eq (s : σ) :
    M.run s = match M.step s with
      | .stall s' => .ok (s', [])
      | .fault e => .error e
      | .next s' out => after out (M.run s') := by
  unfold run
  cases e : M.step s with
  | stall s' => rw [drive, e]
  | fault e' => rw [drive, e]
  | next s' out => exact drive_next M.size (M.lawful _).size_next e

/-- A run that stalls at once puts nothing out. -/
lemma run_stall {s s' : σ} (h : M.step s = .stall s') : M.run s = .ok (s', []) := by
  rw [run_eq, h]

/-- A run that faults at once ends with the fault. -/
lemma run_fault {s : σ} {e : ε} (h : M.step s = .fault e) : M.run s = .error e := by
  rw [run_eq, h]

/-- A run takes its first round and goes on from there. -/
lemma run_next {s s' : σ} {out : List ω} (h : M.step s = .next s' out) :
    M.run s = after out (M.run s') := by
  rw [run_eq, h]

/-- Runs with the same first round are the same. -/
lemma run_congr {s t : σ} (h : M.step s = M.step t) : M.run s = M.run t := by
  rw [run_eq, h, ← run_eq]

/-- A machine is settled when it only waits for more input. -/
def Settled (s : σ) : Prop := M.step s = .stall s

/-- A state reached by stalling is settled. -/
lemma settled_of_stall {s s' : σ} (h : M.step s = .stall s') : M.Settled s' := by
  have same := (M.lawful _).stall_push h []
  rw [M.push_nil, M.push_nil] at same
  rw [Settled, ← same, h]

/-- What every round keeps, a run keeps. -/
lemma run_preserves {P : σ → Prop} (next : ∀ {s s' out}, M.step s = .next s' out → P s → P s')
    (stall : ∀ {s s'}, M.step s = .stall s' → P s → P s') {s t : σ} {out : List ω}
    (h : M.run s = .ok (t, out)) (hs : P s) : P t := by
  induction hn : M.size s using Nat.strongRecOn generalizing s out with
  | ind n ih =>
    rw [run_eq] at h
    cases e : M.step s with
    | stall s' =>
      rw [e] at h
      cases h
      exact stall e hs
    | fault e' => rw [e] at h; cases h
    | next s' o =>
      rw [e] at h
      obtain ⟨rest, h', -⟩ := after_eq_ok h
      exact ih (M.size s') (hn ▸ (M.lawful _).size_next e) h' (next e hs) rfl

/-- A run ends in a settled state. -/
lemma settled_of_run {s t : σ} {out : List ω} (h : M.run s = .ok (t, out)) : M.Settled t := by
  induction hn : M.size s using Nat.strongRecOn generalizing s out with
  | ind n ih =>
    cases e : M.step s with
    | stall s' =>
      rw [M.run_stall e] at h
      cases h
      exact M.settled_of_stall e
    | fault e' => rw [M.run_fault e] at h; cases h
    | next s' o =>
      rw [M.run_next e] at h
      obtain ⟨rest, h', -⟩ := after_eq_ok h
      exact ih (M.size s') (hn ▸ (M.lawful _).size_next e) h' rfl

/-- Running on more input is running on the first part and pushing the rest afterwards. -/
theorem run_push (s : σ) (x : List τ) :
    M.run (M.push s x) = match M.run s with
      | .ok (t, out) => after out (M.run (M.push t x))
      | .error e => .error e := by
  induction hn : M.size s using Nat.strongRecOn generalizing s with
  | ind n ih =>
    cases e : M.step s with
    | stall s' => rw [M.run_stall e]; simp [M.run_congr ((M.lawful _).stall_push e x)]
    | fault e' => rw [M.run_fault e, M.run_fault ((M.lawful _).fault_push e x)]
    | next s' out =>
      rw [M.run_next e, M.run_next ((M.lawful _).next_push e x),
        ih (M.size s') (hn ▸ (M.lawful _).size_next e) s' rfl]
      cases M.run s' with
      | ok p => obtain ⟨t, rest⟩ := p; simp [after_after]
      | error e' => rfl

/-- What a run stops at, it stops at with more input behind as well. -/
lemma mem_trail_push {s t : σ} {out : List ω} (h : M.run s = .ok (t, out)) :
    ∃ u, M.step u = .stall t ∧
      ∀ x, M.push u x ∈ trail M.step (M.size (M.push s x) + 1) (M.push s x) := by
  induction hn : M.size s using Nat.strongRecOn generalizing s out with
  | ind n ih =>
    cases e : M.step s with
    | stall s' =>
      rw [M.run_stall e] at h
      cases h
      exact ⟨s, e, fun x => by simp [trail]⟩
    | fault e' => rw [M.run_fault e] at h; cases h
    | next s' o =>
      rw [M.run_next e] at h
      obtain ⟨rest, h', -⟩ := after_eq_ok h
      obtain ⟨u, stall, mem⟩ := ih (M.size s') (hn ▸ (M.lawful _).size_next e) h' rfl
      refine ⟨u, stall, fun x => ?_⟩
      rw [trail_next M.size (M.lawful _).size_next ((M.lawful _).next_push e x)]
      exact List.mem_cons_of_mem _ (mem x)

/-- The steps on more input are those on the first part and those from where these stop. -/
lemma trail_push {s t : σ} {out : List ω} (h : M.run s = .ok (t, out)) {x : List τ} {u : σ}
    (mem : u ∈ trail M.step (M.size (M.push s x) + 1) (M.push s x)) :
    (∃ v, u = M.push v x) ∨ u ∈ trail M.step (M.size (M.push t x) + 1) (M.push t x) := by
  induction hn : M.size s using Nat.strongRecOn generalizing s out with
  | ind n ih =>
    cases e : M.step s with
    | stall s' =>
      rw [M.run_stall e] at h
      cases h
      -- the state that stalls and the one it stalls in go on alike
      rw [trail, (M.lawful _).stall_push e x, List.mem_cons] at mem
      rw [trail, List.mem_cons]
      obtain rfl | later := mem
      · exact .inl ⟨s, rfl⟩
      · refine .inr (.inr ?_)
        cases step : M.step (M.push t x) with
        | next s' o =>
          have lt := (M.lawful _).size_next step
          have lt' := (M.lawful _).size_next (((M.lawful _).stall_push e x).trans step)
          have same : trail M.step (M.size (M.push s x)) s' =
            trail M.step (M.size (M.push t x)) s' :=
            trail_fuel (fun e => (M.lawful _).size_next e) lt' lt
          simp only [step, same] at later
          exact later
        | stall s' => simp [step] at later
        | fault f => simp [step] at later
    | fault f =>
      rw [M.run_fault e] at h
      cases h
    | next s' o =>
      rw [M.run_next e] at h
      obtain ⟨rest, h', -⟩ := after_eq_ok h
      rw [trail_next M.size (M.lawful _).size_next ((M.lawful _).next_push e x),
        List.mem_cons] at mem
      obtain rfl | later := mem
      · exact .inl ⟨s, rfl⟩
      · exact ih (M.size s') (hn ▸ (M.lawful _).size_next e) h' later rfl

/-- Push one chunk and run. -/
def absorb (s : σ) (x : List τ) : Except ε (σ × List ω) := M.run (M.push s x)

/-- Absorb the chunks one after another, stopping at the first fault. -/
def absorbAll : σ → List (List τ) → Except ε (σ × List ω)
  | s, [] => .ok (s, [])
  | s, c :: cs =>
    match M.absorb s c with
    | .ok (t, out) => after out (absorbAll t cs)
    | .error e => .error e

/-- Absorbing two chunks is absorbing their concatenation. -/
theorem absorb_append (s : σ) (x y : List τ) :
    M.absorb s (x ++ y) = match M.absorb s x with
      | .ok (t, out) => after out (M.absorb t y)
      | .error e => .error e := by
  simp only [absorb, M.push_append]
  exact M.run_push _ _

/-- Absorbing a list of chunks from a settled state is absorbing their concatenation. -/
theorem absorbAll_flatten {s : σ} (hs : M.Settled s) (cs : List (List τ)) :
    M.absorbAll s cs = M.absorb s cs.flatten := by
  induction cs generalizing s with
  | nil => simp [absorbAll, absorb, M.push_nil, M.run_stall hs]
  | cons c cs ih =>
    rw [absorbAll, List.flatten_cons, absorb_append]
    cases e : M.absorb s c with
    | ok p => simp only [ih (M.settled_of_run e)]
    | error e' => rfl

end Machine

end Veidrodelis.Incremental
