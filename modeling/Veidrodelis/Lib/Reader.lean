import Mathlib.Data.List.Basic
import Mathlib.Tactic.Lemma

/-!
# Incremental readers

A look at a growing buffer (`Outcome`) and a reader that consumes it (`Reader`) both have three
answers: a value, a fault, or the request for more input. The two notions a chunked parser rests on
are stated once and closed under sequencing:

* `Stable`: what was answered on a buffer is answered on every extension of it;
* `Reads`: the reader turns an encoding, whatever stands behind it, into a value and the rest.

`Fits` relates a look that computes a size with the reader of the item of that size.
-/

namespace Veidrodelis.Incremental

variable {τ ε α β : Type}

/-- The answer of a look at a buffer. -/
inductive Outcome (ε α : Type) where
  | fault (e : ε)
  | need
  | done (a : α)
  deriving DecidableEq

namespace Outcome

def bind (o : Outcome ε α) (f : α → Outcome ε β) : Outcome ε β :=
  match o with
  | .fault e => .fault e
  | .need => .need
  | .done a => f a

instance : Monad (Outcome ε) where
  pure := .done
  bind := bind

/-- A value is an answer. -/
@[simp] lemma pure_eq (a : α) : (pure a : Outcome ε α) = .done a := rfl

/-- Behind a fault nothing is looked at. -/
@[simp] lemma fault_bind (e : ε) (f : α → Outcome ε β) :
    ((.fault e : Outcome ε α) >>= f) = .fault e := rfl

/-- Behind a request for more nothing is looked at. -/
@[simp] lemma need_bind (f : α → Outcome ε β) : ((.need : Outcome ε α) >>= f) = .need := rfl

/-- A sequence goes on with the value. -/
@[simp] lemma done_bind (a : α) (f : α → Outcome ε β) :
    ((.done a : Outcome ε α) >>= f) = f a := rfl

/-- A sequence that ends with a value got a value from its first part. -/
lemma bind_eq_done {o : Outcome ε α} {f : α → Outcome ε β} {b : β} :
    (o >>= f) = .done b ↔ ∃ a, o = .done a ∧ f a = .done b := by
  cases o <;> simp

/-- A computation that gives a value or a fault. -/
def lift : Except ε α → Outcome ε α
  | .ok a => .done a
  | .error e => .fault e

/-- A look is stable when more input does not change an answer it has given. -/
def Stable (f : List τ → Outcome ε α) : Prop :=
  ∀ b x, f b ≠ .need → f (b ++ x) = f b

/-- A look that ignores the buffer is stable. -/
lemma stable_const (o : Outcome ε α) : Stable fun _ : List τ => o := fun _ _ _ => rfl

/-- Stable looks one after the other are stable. -/
lemma Stable.bind {f : List τ → Outcome ε α} {g : α → List τ → Outcome ε β} (hf : Stable f)
    (hg : ∀ a, Stable (g a)) : Stable fun b => f b >>= fun a => g a b := by
  intro b x h
  cases e : f b with
  | fault e' =>
    have := hf b x (by simp [e])
    simp [this, e]
  | need => simp [e] at h
  | done a =>
    have same := hf b x (by simp [e])
    simp only [e, done_bind] at h
    simp only [same, e, done_bind]
    exact hg a b x h

/-- A stable look that answers on a buffer answers the same on an extension. -/
lemma Stable.done {f : List τ → Outcome ε α} (hf : Stable f) {b : List τ} {a : α}
    (h : f b = .done a) (x : List τ) : f (b ++ x) = .done a := by
  rw [hf b x (by simp [h]), h]

/-- A stable look that faults on a buffer faults on an extension. -/
lemma Stable.fault {f : List τ → Outcome ε α} (hf : Stable f) {b : List τ} {e : ε}
    (h : f b = .fault e) (x : List τ) : f (b ++ x) = .fault e := by
  rw [hf b x (by simp [h]), h]

end Outcome

/-- The answer of a reader: a fault, a request for more (with what it left of the buffer), or a
value and the unread rest. -/
inductive Reading (τ ε α : Type) where
  | fault (e : ε)
  | need (rest : List τ)
  | done (a : α) (rest : List τ)
  deriving DecidableEq

/-- A consumer of a buffer. -/
def Reader (τ ε α : Type) := List τ → Reading τ ε α

namespace Reader

def bind (m : Reader τ ε α) (f : α → Reader τ ε β) : Reader τ ε β := fun b =>
  match m b with
  | .fault e => .fault e
  | .need rest => .need rest
  | .done a rest => f a rest

instance : Monad (Reader τ ε) where
  pure a := fun b => .done a b
  bind := bind

/-- A sequence reads its second part from where the first one ended. -/
lemma bind_apply (m : Reader τ ε α) (f : α → Reader τ ε β) (b : List τ) :
    (m >>= f) b = match m b with
      | .fault e => .fault e
      | .need rest => .need rest
      | .done a rest => f a rest := rfl

/-- A value reads nothing. -/
@[simp] lemma pure_apply (a : α) (b : List τ) : (pure a : Reader τ ε α) b = .done a b := rfl

/-- A sequence whose first part gives a value goes on with it. -/
lemma bind_done {m : Reader τ ε α} {f : α → Reader τ ε β} {b rest : List τ} {a : α}
    (h : m b = .done a rest) : (m >>= f) b = f a rest := by
  rw [bind_apply, h]

/-- A sequence whose first part faults faults. -/
lemma bind_fault {m : Reader τ ε α} {f : α → Reader τ ε β} {b : List τ} {e : ε}
    (h : m b = .fault e) : (m >>= f) b = .fault e := by
  rw [bind_apply, h]

/-- A sequence whose first part waits waits. -/
lemma bind_need {m : Reader τ ε α} {f : α → Reader τ ε β} {b rest : List τ}
    (h : m b = .need rest) : (m >>= f) b = .need rest := by
  rw [bind_apply, h]

/-- Sequences may be bracketed either way. -/
lemma bind_assoc {γ : Type} (m : Reader τ ε α) (f : α → Reader τ ε β) (g : β → Reader τ ε γ) :
    m >>= f >>= g = m >>= fun a => f a >>= g := by
  funext b
  simp only [bind_apply]
  cases m b <;> rfl

/-- Look at the buffer without consuming it. -/
def peek (f : List τ → Outcome ε α) : Reader τ ε α := fun b =>
  match f b with
  | .fault e => .fault e
  | .need => .need b
  | .done a => .done a b

/-- Ask for more input unless `n` elements are there. -/
def ensure (n : Nat) : Reader τ ε Unit := fun b =>
  if b.length < n then .need b else .done () b

/-- Ask for more input. -/
def more : Reader τ ε α := fun b => .need b

/-- A fault. -/
def fail (e : ε) : Reader τ ε α := fun _ => .fault e

/-- A computation that does not look at the buffer. -/
def lift (r : Except ε α) : Reader τ ε α := fun b =>
  match r with
  | .ok a => .done a b
  | .error e => .fault e

/-- Read `n` items one after another. -/
def times : Nat → Reader τ ε α → Reader τ ε (List α)
  | 0, _ => pure []
  | n + 1, m => do
    let a ← m
    let as ← times n m
    return a :: as

/-! ## Stability -/

/-- Once a reader has answered on a buffer of at least `n` elements, it answers the same with more
input behind, which it leaves unread. -/
def StableFrom (n : Nat) (m : Reader τ ε α) : Prop :=
  ∀ b x, n ≤ b.length →
    (∀ a rest, m b = .done a rest → m (b ++ x) = .done a (rest ++ x)) ∧
    (∀ e, m b = .fault e → m (b ++ x) = .fault e)

/-- A reader that is stable on every buffer. -/
def Stable (m : Reader τ ε α) : Prop := StableFrom 0 m

/-- A value of a stable reader is read from an extension, with more left. -/
lemma Stable.done {m : Reader τ ε α} (hm : Stable m) {b rest : List τ} {a : α}
    (h : m b = .done a rest) (x : List τ) : m (b ++ x) = .done a (rest ++ x) :=
  (hm b x (Nat.zero_le _)).1 a rest h

/-- A fault of a stable reader is found on an extension. -/
lemma Stable.fault {m : Reader τ ε α} (hm : Stable m) {b : List τ} {e : ε}
    (h : m b = .fault e) (x : List τ) : m (b ++ x) = .fault e :=
  (hm b x (Nat.zero_le _)).2 e h

/-- A value is read from every buffer. -/
lemma stable_pure (a : α) : Stable (pure a : Reader τ ε α) := by
  intro b x _
  refine ⟨fun a' rest h => ?_, fun e h => ?_⟩
  · simp only [pure_apply, Reading.done.injEq] at h ⊢
    obtain ⟨rfl, rfl⟩ := h
    exact ⟨rfl, rfl⟩
  · simp at h

/-- A fault is found on every buffer. -/
lemma stable_fail (e : ε) : Stable (fail e : Reader τ ε α) := by
  intro b x _
  refine ⟨fun a rest h => ?_, fun e' h => ?_⟩
  · simp [fail] at h
  · simpa [fail] using h

/-- A result that is there already is read from every buffer. -/
lemma stable_lift (r : Except ε α) : Stable (lift r : Reader τ ε α) := by
  cases r with
  | ok a => exact stable_pure a
  | error e => exact stable_fail e

/-- A stable look is a stable reader. -/
lemma stable_peek {f : List τ → Outcome ε α} (hf : Outcome.Stable f) : Stable (peek f) := by
  intro b x _
  refine ⟨fun a rest h => ?_, fun e h => ?_⟩
  · cases o : f b with
    | fault e => simp [peek, o] at h
    | need => simp [peek, o] at h
    | done a' =>
      simp only [peek, o, Reading.done.injEq] at h
      obtain ⟨rfl, rfl⟩ := h
      simp [peek, hf.done o]
  · cases o : f b with
    | fault e' =>
      simp only [peek, o, Reading.fault.injEq] at h
      simp [peek, hf.fault o, h]
    | need => simp [peek, o] at h
    | done a => simp [peek, o] at h

/-- Only the first part of a sequence needs its elements to be there beforehand. -/
lemma StableFrom.bind {n : Nat} {m : Reader τ ε α} {f : α → Reader τ ε β} (hm : StableFrom n m)
    (hf : ∀ a, Stable (f a)) : StableFrom n (m >>= f) := by
  intro b x le
  cases r : m b with
  | fault e => simp [bind_fault r, bind_fault ((hm b x le).2 e r)]
  | need rest => simp [bind_need r]
  | done a rest =>
    rw [bind_done r, bind_done ((hm b x le).1 a rest r)]
    exact hf a rest x (Nat.zero_le _)

/-- Stable readers one after the other are stable. -/
lemma stable_bind {m : Reader τ ε α} {f : α → Reader τ ε β} (hm : Stable m)
    (hf : ∀ a, Stable (f a)) : Stable (m >>= f) := StableFrom.bind hm hf

/-- A stable reader is stable on long buffers. -/
lemma Stable.from {m : Reader τ ε α} (hm : Stable m) (n : Nat) : StableFrom n m :=
  fun b x _ => hm b x (Nat.zero_le _)

/-- Behind a check of the length it is enough to be stable on long buffers. -/
lemma stable_ensure_bind {n : Nat} {f : Unit → Reader τ ε β} (hf : StableFrom n (f ())) :
    Stable (ensure n >>= f) := by
  intro b x _
  by_cases h : b.length < n
  · simp [bind_apply, ensure, h]
  · have here : ensure (ε := ε) n b = .done () b := if_neg h
    have there : ensure (ε := ε) n (b ++ x) = .done () (b ++ x) :=
      if_neg (by simp only [List.length_append]; omega)
    rw [bind_done here, bind_done there]
    exact hf b x (by omega)

/-- A stable reader may be repeated. -/
lemma stable_times {m : Reader τ ε α} (hm : Stable m) (n : Nat) : Stable (times n m) := by
  induction n with
  | zero => exact stable_pure []
  | succ n ih =>
    refine stable_bind hm fun a => ?_
    exact stable_bind ih fun as => stable_pure _

/-! ## Exact reading of an encoding -/

/-- The reader turns `enc`, with anything behind it, into `a` and what was behind. -/
def Reads (m : Reader τ ε α) (enc : List τ) (a : α) : Prop :=
  ∀ rest, m (enc ++ rest) = .done a rest

/-- A value is encoded by nothing. -/
lemma reads_pure (a : α) : Reads (pure a : Reader τ ε α) [] a := fun _ => rfl

/-- Encodings one behind the other are read in sequence. -/
lemma Reads.bind {m : Reader τ ε α} {f : α → Reader τ ε β} {e1 e2 : List τ} {a : α} {b : β}
    (hm : Reads m e1 a) (hf : Reads (f a) e2 b) : Reads (m >>= f) (e1 ++ e2) b := by
  intro rest
  rw [List.append_assoc, bind_done (hm _)]
  exact hf rest

/-- Reading as many items as there are encodings. -/
lemma Reads.times {m : Reader τ ε α} {items : List β} {enc : β → List τ} {val : β → α}
    (h : ∀ i ∈ items, Reads m (enc i) (val i)) :
    Reads (times items.length m) (items.flatMap enc) (items.map val) := by
  induction items with
  | nil => exact reads_pure []
  | cons i items ih =>
    rw [List.flatMap_cons, List.map_cons, List.length_cons, Reader.times]
    refine Reads.bind (h i (by simp)) ?_
    rw [← List.append_nil (items.flatMap enc)]
    exact Reads.bind (ih fun j hj => h j (by simp [hj])) (reads_pure _)

/-! ## Sizes -/

/-- When the look `f` says that the item at the front takes `n` elements and they are there, the
reader consumes exactly these or faults; it does not ask for more. -/
def Fits (f : List τ → Outcome ε Nat) (m : Reader τ ε α) : Prop :=
  ∀ b n, f b = .done n → n ≤ b.length → (∃ e, m b = .fault e) ∨ ∃ a, m b = .done a (b.drop n)

/-! ## Readers of a state machine -/

/-- What a state machine needs of the readers that its handlers consume the buffer with. -/
structure Item (m : Reader τ ε α) : Prop where
  stable : Stable m
  /-- When it asks for more, nothing is consumed. -/
  keeps : ∀ {b rest}, m b = .need rest → rest = b
  /-- A value takes at least one element, from the front. -/
  consumes : ∀ {b a rest}, m b = .done a rest → ∃ n, 0 < n ∧ n ≤ b.length ∧ rest = b.drop n

/-- An item that is read leaves a shorter buffer. -/
lemma Item.shrinks {m : Reader τ ε α} (item : Item m) {b rest : List τ} {a : α}
    (h : m b = .done a rest) : rest.length < b.length := by
  obtain ⟨n, pos, inside, rfl⟩ := item.consumes h
  rw [List.length_drop]
  omega

end Reader

end Veidrodelis.Incremental
