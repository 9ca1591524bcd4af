import Mathlib.Data.List.Basic

/-!
# What holds all along a sequence of events

A record that is kept of events: `next` says how it changes with one, `after` what it is behind a
sequence. `Always P` says that `P` holds of every event and the record in front of it.
-/

namespace Veidrodelis.History

variable {R E : Type} (next : R → E → R)

/-- The record behind a sequence of events. -/
def after (r : R) (es : List E) : R := es.foldl next r

/-- At every event, `P` holds of the record in front of it and the event. -/
def Always (P : R → E → Prop) : R → List E → Prop
  | _, [] => True
  | r, e :: es => P r e ∧ Always P (next r e) es

variable {next} {P : R → E → Prop} {r : R}

/-- A history is folded one part after the other. -/
lemma after_append (es es' : List E) :
    after next r (es ++ es') = after next (after next r es) es' := by
  rw [after, after, after, List.foldl_append]

/-- Events that leave the record as it is. -/
lemma after_unrecorded {es : List E} (h : ∀ e ∈ es, next r e = r) : after next r es = r := by
  induction es with
  | nil => rfl
  | cons e es ih =>
    have first : next r e = r := h e (by simp)
    rw [after, List.foldl_cons, first]
    exact ih fun e' he' => h e' (by simp [he'])

/-- A property holds all along a history if it does along both parts. -/
lemma always_append {es es' : List E} :
    Always next P r (es ++ es') ↔ Always next P r es ∧ Always next P (after next r es) es' := by
  induction es generalizing r with
  | nil => simp [Always, after]
  | cons e es ih =>
    rw [List.cons_append, Always, Always, ih, and_assoc]
    rfl

/-- Two parts of a history put together. -/
lemma Always.append {es es' : List E} (h : Always next P r es)
    (h' : Always next P (after next r es) es') : Always next P r (es ++ es') :=
  always_append.mpr ⟨h, h'⟩

/-- What holds of every event, whatever the record. -/
lemma Always.of_forall {es : List E} (h : ∀ e ∈ es, ∀ r, P r e) : Always next P r es := by
  induction es generalizing r with
  | nil => trivial
  | cons e es ih => exact ⟨h e (by simp) r, ih fun e' he' => h e' (by simp [he'])⟩

/-- What holds of every event, where none is recorded. -/
lemma Always.of_unrecorded {es : List E} (h : ∀ e ∈ es, next r e = r) (holds : ∀ e ∈ es, P r e) :
    Always next P r es := by
  induction es with
  | nil => trivial
  | cons e es ih =>
    refine ⟨holds e (by simp), ?_⟩
    rw [h e (by simp)]
    exact ih (fun e' he' => h e' (by simp [he'])) fun e' he' => holds e' (by simp [he'])

/-- `P` holds at any one event. -/
lemma Always.at {before later : List E} {e : E} (h : Always next P r (before ++ e :: later)) :
    P (after next r before) e :=
  (always_append.mp h).2.1

/-- `P` holds all along exactly when it holds at each event. -/
lemma always_iff_at {es : List E} : Always next P r es ↔
    ∀ before e later, es = before ++ e :: later → P (after next r before) e := by
  constructor
  · rintro h before e later rfl
    exact h.at
  · intro h
    induction es generalizing r with
    | nil => trivial
    | cons e es ih =>
      refine ⟨h [] e es rfl, ih fun before e' later eq => ?_⟩
      subst eq
      exact h (e :: before) e' later rfl

/-- What holds of the first record, and which every event keeps where `P` holds, holds behind them
all. -/
lemma Always.invariant {I : R → Prop} {es : List E} (h : Always next P r es)
    (step : ∀ r e, I r → P r e → I (next r e)) (init : I r) : I (after next r es) := by
  induction es generalizing r with
  | nil => exact init
  | cons e es ih => exact ih h.2 (step r e init h.1)

/-- Where an event keeps a property of the record exactly when `P` holds, the property holds all
along the events exactly when `P` does. -/
lemma always_iff_invariant {I : R → Prop} {es : List E} (step : ∀ r e, I r → (P r e ↔ I (next r e)))
    (init : I r) : Always next P r es ↔
      ∀ before later, es = before ++ later → I (after next r before) := by
  constructor
  · rintro h before later rfl
    exact (always_append.mp h).1.invariant (fun r e holds kept => (step r e holds).mp kept) init
  · intro h
    induction es generalizing r with
    | nil => trivial
    | cons e es ih =>
      have first : I (next r e) := h [e] es rfl
      refine ⟨(step r e init).mpr first, ih first fun before later eq => ?_⟩
      subst eq
      exact h (e :: before) later rfl

end Veidrodelis.History
