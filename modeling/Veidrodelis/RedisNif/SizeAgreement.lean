import Veidrodelis.RedisNif.Panics

/-!
# Sizes and values

`calculate_value_size` and `load_object` walk over the same bytes. `sizesAgree_iff`: a value whose
computed size is in the buffer is loaded from exactly these bytes, or refused with an error, unless
one of its compressed strings declares to unpack to more than a `Vec` can hold, which panics.
-/

namespace Veidrodelis.RedisNif.Rdb
open Incremental

/-- A value of the computed size is loaded from exactly that many bytes or refused, and its size
stays the same when the buffer grows. -/
structure SizesAgree (b : Bytes) (t : ValueType) : Prop where
  loads : ∀ n, calculateValueSize b t.code 0 = .done n → n ≤ b.length → ∀ db key,
    (∃ msg, loadObject t.code db key b = .fault (.err msg)) ∨
      ∃ commands, loadObject t.code db key b = .done commands (b.drop n)
  stable : ∀ n, calculateValueSize b t.code 0 = .done n →
    ∀ x, calculateValueSize (b ++ x) t.code 0 = .done n

/-- The value is in the buffer, and one of its strings declares to unpack to more than a `Vec` can
hold. -/
def UnpacksTooMuch (b : Bytes) (t : ValueType) : Prop :=
  ∃ pieces start e, valuePieces b t = some (pieces, start) ∧ endOfPieces b pieces start = some e ∧
    e ≤ b.length ∧ ¬ Overruns b pieces start ∧ Unpacks b t.Usable pieces start

/-- The size is computed exactly when the pieces of the value end within 64 bits. -/
lemma calculateValueSize_done_iff {b : Bytes} {t : ValueType} {n : Nat} :
    calculateValueSize b t.code 0 = .done n ↔ ∃ pieces start, valuePieces b t =
      some (pieces, start) ∧ endOfPieces b pieces start = some n ∧ ¬ Overruns b pieces start := by
  constructor
  · intro size
    cases layout : valuePieces b t with
    | none =>
      rcases calculateValueSize_stops (ofCode_code t) layout with need | ⟨f, fault, -⟩
      · rw [need] at size
        cases size
      · rw [fault] at size
        cases size
    | some p =>
      obtain ⟨pieces, start⟩ := p
      rw [calculateValueSize_pieces (ofCode_code t) layout] at size
      obtain ⟨acc, grown, eq⟩ := Outcome.bind_eq_done.mp size
      obtain ⟨e, rfl, ends⟩ := growPieces_done grown
      cases eq
      have fits : ¬ Overruns b pieces start := by
        rw [← growPieces_panics, grown]
        rintro ⟨f, fault, -⟩
        cases fault
      exact ⟨pieces, start, rfl, ends, fits⟩
  · rintro ⟨pieces, start, layout, ends, fits⟩
    rw [calculateValueSize_pieces (ofCode_code t) layout, growPieces_of_end ends fits]
    rfl

/-- Loading a value of the computed size panics exactly when a string of it declares to unpack to
too much. -/
lemma loadObject_panics_iff {b key : Bytes} {t : ValueType} {n db : Nat}
    (size : calculateValueSize b t.code 0 = .done n) (inside : n ≤ b.length) :
    (∃ f, loadObject t.code db key b = .fault f ∧ f.IsPanic) ↔ UnpacksTooMuch b t := by
  obtain ⟨pieces, start, layout, ends, fits⟩ := calculateValueSize_done_iff.mp size
  rw [loadObject_panics (ofCode_code t) layout ends inside fits]
  constructor
  · intro unpacks
    exact ⟨pieces, start, n, layout, ends, inside, fits, unpacks⟩
  · rintro ⟨pieces', start', e, layout', -, -, -, unpacks⟩
    rw [layout] at layout'
    cases layout'
    exact unpacks

/-- The two walks agree exactly when no string of the value declares to unpack to more than a `Vec`
can hold. -/
theorem sizesAgree_iff (b : Bytes) (t : ValueType) : SizesAgree b t ↔ ¬ UnpacksTooMuch b t := by
  constructor
  · rintro agree ⟨pieces, start, n, layout, ends, inside, fits, unpacks⟩
    have size := calculateValueSize_done_iff.mpr ⟨pieces, start, layout, ends, fits⟩
    have large : UnpacksTooMuch b t := ⟨pieces, start, n, layout, ends, inside, fits, unpacks⟩
    have panics : ∃ f, loadObject t.code 0 [] b = .fault f ∧ f.IsPanic :=
      (loadObject_panics_iff size inside).mpr large
    obtain ⟨f, fault, panic⟩ := panics
    rcases agree.loads n size inside 0 [] with ⟨msg, err⟩ | ⟨commands, done⟩
    · rw [fault] at err
      cases err
      exact panic
    · rw [fault] at done
      cases done
  · intro small
    refine ⟨fun n size inside db key => ?_,
      fun n size x => (calculateValueSize_stable t.code 0).done size x⟩
    rcases loadObject_fits t.code db key b n size inside with ⟨f, fault⟩ | done
    · cases f with
      | err msg => exact .inl ⟨msg, fault⟩
      | panic msg =>
        have large := (loadObject_panics_iff size inside).mp ⟨_, fault, trivial⟩
        exact absurd large small
    · exact .inr done

/-- A string of eleven bytes that declares to unpack to `2 ^ 63`: its size is computed, and loading
it panics. -/
theorem sizesAgree_fails :
    calculateValueSize [0xC3, 0x00, 0x81, 0x80, 0, 0, 0, 0, 0, 0, 0] ValueType.string.code 0 =
    .done 11 ∧
      loadObject ValueType.string.code 0 (ascii "k") [0xC3, 0x00, 0x81, 0x80, 0, 0, 0, 0, 0, 0, 0]
        = .fault (.panic "capacity overflow") ∧
      ¬ SizesAgree [0xC3, 0x00, 0x81, 0x80, 0, 0, 0, 0, 0, 0, 0] .string := by
  have size : calculateValueSize [0xC3, 0x00, 0x81, 0x80, 0, 0, 0, 0, 0, 0,
    0] ValueType.string.code 0
      = .done 11 := by decide
  have panics : loadObject ValueType.string.code 0 (ascii "k") [0xC3, 0x00, 0x81,
    0x80, 0, 0, 0, 0, 0, 0, 0]
      = .fault (.panic "capacity overflow") := by decide
  refine ⟨size, panics, fun agree => ?_⟩
  rcases agree.loads 11 size (by decide) 0 (ascii "k") with ⟨msg, err⟩ | ⟨commands, done⟩
  · rw [panics] at err
    cases err
  · rw [panics] at done
    cases done

end Veidrodelis.RedisNif.Rdb
