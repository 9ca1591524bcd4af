import Veidrodelis.TsNif.Hashes

/-!
# Integer commands

`INCR`, `INCRBY`, `DECR`, `DECRBY` and `HINCRBY` are five copies of one command: an amount is added
to the integer at a place, which is the string at a key or a field of the hash there (`IntCommand`).
`step_op` says what such a command does; `exactSums` is the account of all five on the storage, with
the laws that relate them.
-/

namespace Veidrodelis.TsNif
open RedisNif (Fault)

/-! ## Decimal texts -/

/-- The text is that of an integer in decimal: an optional sign and at least one digit. -/
def IsDecimal (text : Bytes) (i : Int) : Prop :=
  ∃ sign digits, text = sign ++ digits ∧ digits ≠ [] ∧ digits.all Bytes.isDigit = true ∧
    ((sign = [] ∨ sign = ascii "+") ∧ i = Bytes.digitsValue digits ∨
      sign = ascii "-" ∧ i = -(Bytes.digitsValue digits : Int))

/-- A text is read as an integer when it is one. -/
lemma isDecimal_iff {text : Bytes} {i : Int} : Bytes.parseInt text = some i ↔ IsDecimal text i := by
  constructor
  · intro parsed
    unfold Bytes.parseInt at parsed
    split at parsed
    rename_i negative digits eq
    split at parsed
    · rename_i all
      cases parsed
      split at eq
      · cases eq
        exact ⟨ascii "-", _, rfl, all.1, all.2, .inr ⟨rfl, rfl⟩⟩
      · cases eq
        exact ⟨ascii "+", _, rfl, all.1, all.2, .inl ⟨.inr rfl, rfl⟩⟩
      · cases eq
        exact ⟨[], _, rfl, all.1, all.2, .inl ⟨.inl rfl, rfl⟩⟩
    · cases parsed
  · rintro ⟨sign, digits, rfl, filled, all, ⟨rfl | rfl, rfl⟩ | ⟨rfl, rfl⟩⟩
    · cases digits with
      | nil => exact absurd rfl filled
      | cons b bs =>
        have digit : Bytes.isDigit b = true := List.all_eq_true.mp all b (by simp)
        have plain : b ≠ 45 ∧ b ≠ 43 := by
          constructor <;>
          · rintro rfl
            exact absurd digit (by decide)
        rw [List.nil_append]
        simp [Bytes.parseInt, plain.1, plain.2, all]
    · show (if digits ≠ [] ∧ digits.all Bytes.isDigit then _ else _) = _
      rw [if_pos ⟨filled, all⟩]
      rfl
    · show (if digits ≠ [] ∧ digits.all Bytes.isDigit then _ else _) = _
      rw [if_pos ⟨filled, all⟩]
      rfl

/-- A text is read as an `i64` when it is one. -/
lemma parseI64_iff {text : Bytes} {i : Int} :
    parseI64 text = some i ↔ IsDecimal text i ∧ inI64 i := by
  rw [parseI64, Option.filter_eq_some_iff, isDecimal_iff]

/-- The canonical text of an `i64` is read as what it is. -/
lemma parseI64_intText {i : Int} (fits : inI64 i) : parseI64 (Bytes.intText i) = some i := by
  rw [parseI64, Option.filter_eq_some_iff]
  exact ⟨Bytes.parseInt_intText i, fits⟩

/-! ## Places -/

/-- Where an integer stands: it is the string at a key, or a field of the hash there. -/
inductive Place where
  | string
  | field (name : Bytes)

/-- What stands there: a value of another type, or a text or nothing. -/
def Place.read : Place → Slot → Option (Option Bytes)
  | .string, none => some none
  | .string, some (.string text) => some (some text)
  | .field _, none => some none
  | .field name, some (.hash fields) => some fields[name]?
  | _, _ => none

/-- The fields of the hash that is there. -/
def fieldsOf : Slot → Std.ExtTreeMap Bytes Bytes compare
  | some (.hash fields) => fields
  | _ => ∅

/-- Put a text there. -/
def Place.write : Place → Slot → Bytes → Slot
  | .string, _, text => some (.string text)
  | .field name, slot, text => some (.hash ((fieldsOf slot).insert name text))

/-- The place holds the decimal text of an `i64`, or it is missing, which counts as 0. -/
def Place.Holds (p : Place) (slot : Slot) (i : Int) : Prop :=
  p.read slot = some none ∧ i = 0 ∨ ∃ text, p.read slot = some (some text) ∧
    IsDecimal text i ∧ inI64 i

/-- A place holds one integer. -/
lemma Place.Holds.unique {p : Place} {slot : Slot} {i j : Int} (hi : p.Holds slot i)
    (hj : p.Holds slot j) : i = j := by
  rcases hi with ⟨missing, rfl⟩ | ⟨text, held, decimal⟩
  · rcases hj with ⟨-, rfl⟩ | ⟨text, held, -⟩
    · rfl
    · rw [missing] at held
      cases held
  · rcases hj with ⟨missing, -⟩ | ⟨text', held', decimal'⟩
    · rw [missing] at held
      cases held
    · rw [held] at held'
      cases held'
      have same := (parseI64_iff.mpr decimal).symm.trans (parseI64_iff.mpr decimal')
      exact Option.some.inj same

/-- What was put there is read back. -/
lemma Place.read_write (p : Place) (slot : Slot) (text : Bytes) :
    p.read (p.write slot text) = some (some text) := by
  cases p with
  | string => rfl
  | field name => simp [Place.read, Place.write]

/-- The other fields of a hash stay. -/
lemma Place.read_write_ne {name other : Bytes} {slot : Slot}
    (typed : (Place.field name).read slot ≠ none) (ne : other ≠ name) (text : Bytes) :
    (Place.field other).read ((Place.field name).write slot text) =
      (Place.field other).read slot := by
  cases slot with
  | none => simp [Place.read, Place.write, fieldsOf, Ne.symm ne]
  | some value =>
    cases value with
    | hash fields =>
      simp [Place.read, Place.write, fieldsOf, Std.ExtTreeMap.getElem?_insert, Ne.symm ne]
    | string | set | list | zset => exact absurd rfl typed

/-- The later of two texts counts. -/
lemma Place.write_write (p : Place) (slot : Slot) (text text' : Bytes) :
    p.write (p.write slot text) text' = p.write slot text' := by
  cases p with
  | string => rfl
  | field name => simp only [Place.write, fieldsOf, insert_insert_self]

/-- The integer of a text; nothing counts as 0. -/
def integerOf : Option Bytes → Option Int
  | some text => parseI64 text
  | none => some 0

/-- A place holds the integer that its text is. -/
lemma Place.holds_iff {p : Place} {slot : Slot} {text : Option Bytes}
    (read : p.read slot = some text) {i : Int} : p.Holds slot i ↔ integerOf text = some i := by
  simp only [Place.Holds, read]
  cases text with
  | none =>
    simp only [true_and, Option.some.injEq, reduceCtorEq, false_and, exists_false, or_false,
      integerOf]
    exact eq_comm
  | some text => simp [integerOf, parseI64_iff]

/-! ## Commands -/

/-- An integer command. -/
inductive IntCommand where
  | incr
  | incrby (increment : Int)
  | decr
  | decrby (decrement : Int)
  | hincrby (field : Bytes) (delta : Int)

/-- The argument is an `i64`. -/
def IntCommand.Fits : IntCommand → Prop
  | .incr | .decr => True
  | .incrby amount | .decrby amount | .hincrby _ amount => inI64 amount

/-- The place whose integer the command changes. -/
def IntCommand.place : IntCommand → Place
  | .hincrby field _ => .field field
  | _ => .string

/-- What the command adds. -/
def IntCommand.delta : IntCommand → Int
  | .incr => 1
  | .incrby increment => increment
  | .decr => -1
  | .decrby decrement => -decrement
  | .hincrby _ delta => delta

def IntCommand.op : IntCommand → SlotOp
  | .incr => TsNif.incr
  | .incrby increment => TsNif.incrby increment
  | .decr => TsNif.decr
  | .decrby decrement => TsNif.decrby decrement
  | .hincrby field delta => TsNif.hincrby field delta

/-- What a step of a command that adds `delta` at a place is: the sum is stored, or the command is
refused and nothing changes. -/
inductive Steps (p : Place) (delta : Int) (slot : Slot) : Slot × Except Fault Unit → Prop where
  | stored (i : Int) (holds : p.Holds slot i) (fits : inI64 (i + delta)) :
    Steps p delta slot (p.write slot (Bytes.intText (i + delta)), .ok ())
  | refused (msg : String) (overflows : ∀ i, p.Holds slot i → ¬ inI64 (i + delta)) :
    Steps p delta slot (slot, .error (.err msg))

/-- The skeleton of the four commands on strings. -/
lemma bump_steps {overflow : String} {next : Int → Int} {fresh delta : Int}
    (adds : ∀ i, next i = i + delta) (starts : fresh = delta) (slot : Slot) :
    Steps .string delta slot (bump overflow next fresh slot) := by
  subst starts
  match slot with
  | none =>
    have missing : Place.string.Holds none 0 := .inl ⟨rfl, rfl⟩
    have zero : 0 + fresh = fresh := Int.zero_add fresh
    rw [bump]
    split
    · rename_i fits
      have step := Steps.stored 0 missing (zero.symm ▸ fits)
      rwa [zero] at step
    · rename_i large
      refine .refused _ fun i holds => ?_
      rwa [holds.unique missing, zero]
  | some (.string existing) =>
    rw [bump]
    cases parsed : parseI64 existing with
    | none =>
      refine .refused _ fun i holds => ?_
      rcases holds with ⟨missing, -⟩ | ⟨text, held, decimal⟩
      · cases missing
      · cases held
        rw [parseI64_iff.mpr decimal] at parsed
        cases parsed
    | some current =>
      have holds : Place.string.Holds (some (.string existing)) current :=
        .inr ⟨existing, rfl, parseI64_iff.mp parsed⟩
      dsimp only
      rw [adds]
      split
      · rename_i fits
        exact .stored current holds fits
      · rename_i large
        refine .refused _ fun i other => ?_
        rwa [other.unique holds]
  | some (.set _) | some (.list _) | some (.hash _) | some (.zset _) =>
    -- a value of another type holds no integer
    refine .refused _ fun i holds => ?_
    rcases holds with ⟨missing, -⟩ | ⟨text, held, -⟩
    · cases missing
    · cases held

/-- `HINCRBY` adds to the field it names. -/
lemma hincrby_steps (field : Bytes) {delta : Int} (fits : inI64 delta) (slot : Slot) :
    Steps (.field field) delta slot (hincrby field delta slot) := by
  match slot with
  | none =>
    have missing : (Place.field field).Holds none 0 := .inl ⟨rfl, rfl⟩
    have step := Steps.stored 0 missing (show inI64 (0 + delta) by rwa [Int.zero_add])
    simpa [hincrby, fits, StorageValue.hashes, Place.write, fieldsOf] using step
  | some (.hash fields) =>
    have holds {i : Int} : (Place.field field).Holds (some (.hash fields)) i ↔
      integerOf fields[field]? = some i :=
      Place.holds_iff rfl
    cases bound : fields[field]? with
    | none =>
      rw [bound] at holds
      have step := Steps.stored 0 (holds.mpr rfl) (show inI64 (0 + delta) by rwa [Int.zero_add])
      simpa [hincrby, Container.orInsert, StorageValue.hashes, bound, fits, Place.write,
        fieldsOf] using step
    | some existing =>
      rw [bound] at holds
      cases number : parseI64 existing with
      | none =>
        simp only [hincrby, Container.orInsert, StorageValue.hashes, bound, number]
        refine .refused _ fun i other => ?_
        rw [holds, integerOf, number] at other
        cases other
      | some current =>
        simp only [hincrby, Container.orInsert, StorageValue.hashes, bound, number]
        split
        · rename_i fits
          exact .stored current (holds.mpr number) fits
        · rename_i large
          refine .refused _ fun i other => ?_
          rwa [other.unique (holds.mpr number)]
  | some (.string _) | some (.set _) | some (.list _) | some (.zset _) =>
    refine .refused _ fun i holds => ?_
    rcases holds with ⟨missing, -⟩ | ⟨text, held, -⟩
    · cases missing
    · cases held

/-- The five commands are one. -/
lemma step_op {cmd : IntCommand} (fits : cmd.Fits) (slot : Slot) :
    Steps cmd.place cmd.delta slot (cmd.op slot) := by
  cases cmd with
  | incr => exact bump_steps (fun _ => rfl) rfl slot
  | incrby increment => exact bump_steps (fun _ => rfl) rfl slot
  | decr => exact bump_steps (fun _ => rfl) rfl slot
  | decrby decrement => exact bump_steps (fun _ => rfl) rfl slot
  | hincrby field delta => exact hincrby_steps field fits slot

/-! ## Sums -/

def IntCommand.run (cmd : IntCommand) (db : Nat) (key : Bytes) : Op := atKey db key cmd.op

/-- The command computes the exact sum, or changes nothing. -/
structure ExactSum (s : StorageInner) (db : Nat) (key : Bytes) (cmd : IntCommand) : Prop where
  succeeds : (cmd.run db key s).2 = .ok () ↔
    ∃ i, cmd.place.Holds (s.lookup db key) i ∧ inI64 (i + cmd.delta)
  /-- The text that is stored, and what it is read as. -/
  stored : ∀ i, cmd.place.Holds (s.lookup db key) i → inI64 (i + cmd.delta) →
    cmd.place.read ((cmd.run db key s).1.lookup db key) =
    some (some (Bytes.intText (i + cmd.delta))) ∧
      parseI64 (Bytes.intText (i + cmd.delta)) = some (i + cmd.delta)
  /-- The other keys, and the other fields of a hash. -/
  others : ∀ db' key', ¬ (db' = db ∧ key' = key) →
    (cmd.run db key s).1.lookup db' key' = s.lookup db' key'
  fields : ∀ field other, cmd.place = .field field → other ≠ field →
    (Place.field other).read ((cmd.run db key s).1.lookup db key) =
    (Place.field other).read (s.lookup db key)
  fails : (cmd.run db key s).2 ≠ .ok () → s.Same (cmd.run db key s).1

/-- Every command that counts answers with the exact sum, or refuses it. -/
lemma exactSum (s : StorageInner) (db : Nat) (key : Bytes) {cmd : IntCommand} (fits : cmd.Fits) :
    ExactSum s db key cmd := by
  have slot : (cmd.run db key s).1.lookup db key = (cmd.op (s.lookup db key)).1 :=
    lookup_atKey db key cmd.op s
  have result : (cmd.run db key s).2 = (cmd.op (s.lookup db key)).2 := rfl
  have others (db' : Nat) (key' : Bytes) (other : ¬ (db' = db ∧ key' = key)) :
      (cmd.run db key s).1.lookup db' key' = s.lookup db' key' := lookup_atKey_ne other cmd.op s
  have step := step_op fits (s.lookup db key)
  generalize found : cmd.op (s.lookup db key) = outcome at step slot result
  cases step with
  | stored i holds sum =>
    refine ⟨?_, fun j other inside => ?_, others, fun field other place ne => ?_,
      fun failed => absurd result failed⟩
    · exact iff_of_true result ⟨i, holds, sum⟩
    · rw [slot, ← other.unique holds, Place.read_write]
      exact ⟨rfl, parseI64_intText inside⟩
    · rw [slot, place]
      refine Place.read_write_ne (fun untyped => ?_) ne _
      rw [place] at holds
      rcases holds with ⟨missing, -⟩ | ⟨text, held, -⟩
      · rw [untyped] at missing
        cases missing
      · rw [untyped] at held
        cases held
  | refused msg overflows =>
    refine ⟨?_, fun i holds inside => absurd inside (overflows i holds), others,
      fun _ _ _ _ => by rw [slot], ?_⟩
    · refine iff_of_false (by rw [result]; nofun) ?_
      rintro ⟨i, holds, inside⟩
      exact overflows i holds inside
    · intro _ db' key'
      by_cases here : db' = db ∧ key' = key
      · rw [here.1, here.2, slot]
      · exact others db' key' here

/-! ## Laws -/

section
variable {cmd cmd' : IntCommand} {s : StorageInner} {db : Nat} {key : Bytes}

/-- A command on an integer whose sum is in range. -/
lemma run_of_holds (fits : cmd.Fits) {i : Int} (holds : cmd.place.Holds (s.lookup db key) i)
    (inside : inI64 (i + cmd.delta)) :
    cmd.run db key s =
      (s.store db key (cmd.place.write (s.lookup db key) (Bytes.intText (i + cmd.delta))),
      .ok ()) := by
  have step := step_op fits (s.lookup db key)
  generalize found : cmd.op (s.lookup db key) = outcome at step
  cases step with
  | stored j other _ =>
    rw [IntCommand.run, atKey, found, other.unique holds]
  | refused msg overflows => exact absurd inside (overflows i holds)

/-- A command without an integer, or whose sum is out of range. -/
lemma run_of_overflows (fits : cmd.Fits)
    (overflows : ∀ i, cmd.place.Holds (s.lookup db key) i → ¬ inI64 (i + cmd.delta)) :
    ∃ msg, cmd.run db key s = (s, .error (.err msg)) := by
  have step := step_op fits (s.lookup db key)
  generalize found : cmd.op (s.lookup db key) = outcome at step
  cases step with
  | stored j holds inside => exact absurd inside (overflows j holds)
  | refused msg _ =>
    refine ⟨msg, ?_⟩
    rw [IntCommand.run, atKey, found]
    exact Prod.ext (s.store_lookup db key) rfl

/-- Commands that add the same amount at the same place do the same, up to the message of a
refusal. -/
lemma run_same (fits : cmd.Fits) (fits' : cmd'.Fits) (place : cmd'.place = cmd.place)
    (delta : cmd'.delta = cmd.delta) :
    (cmd'.run db key s).1 = (cmd.run db key s).1 ∧
      ((cmd'.run db key s).2 = .ok () ↔ (cmd.run db key s).2 = .ok ()) := by
  by_cases sum : ∃ i, cmd.place.Holds (s.lookup db key) i ∧ inI64 (i + cmd.delta)
  · obtain ⟨i, holds, inside⟩ := sum
    rw [run_of_holds fits holds inside, run_of_holds fits' (place ▸ holds) (delta ▸ inside), place,
      delta]
    exact ⟨rfl, Iff.rfl⟩
  · have overflows (i : Int) (holds : cmd.place.Holds (s.lookup db key) i) :
      ¬ inI64 (i + cmd.delta) :=
      fun inside => sum ⟨i, holds, inside⟩
    obtain ⟨msg, refused⟩ := run_of_overflows fits overflows
    obtain ⟨msg', refused'⟩ := run_of_overflows fits' (place ▸ delta ▸ overflows)
    rw [refused, refused']
    exact ⟨rfl, iff_of_false nofun nofun⟩

/-- Where no step overflows, two commands in turn add both amounts. -/
lemma run_run {both : IntCommand} (fits : cmd.Fits) (fits' : cmd'.Fits) (fitsBoth : both.Fits)
    (place' : cmd'.place = cmd.place) (place : both.place = cmd.place)
    (delta : both.delta = cmd.delta + cmd'.delta)
    (inside : ∀ i, cmd.place.Holds (s.lookup db key) i →
      inI64 (i + cmd.delta) ∧ inI64 (i + cmd.delta + cmd'.delta)) :
    (cmd'.run db key (cmd.run db key s).1).1 = (both.run db key s).1 ∧
      ((cmd'.run db key (cmd.run db key s).1).2 = .ok () ↔ (both.run db key s).2 = .ok ()) := by
  by_cases integer : ∃ i, cmd.place.Holds (s.lookup db key) i
  · obtain ⟨i, holds⟩ := integer
    obtain ⟨first, second⟩ := inside i holds
    have one := run_of_holds fits holds first
    have sum : i + both.delta = i + cmd.delta + cmd'.delta := by rw [delta, Int.add_assoc]
    have all := run_of_holds fitsBoth (place ▸ holds) (sum ▸ second)
    have there : (cmd.run db key s).1.lookup db key
        = cmd.place.write (s.lookup db key) (Bytes.intText (i + cmd.delta)) := by
      rw [one, StorageInner.lookup_store, if_pos ⟨rfl, rfl⟩]
    -- what the first command has written is an integer again
    have next : cmd'.place.Holds ((cmd.run db key s).1.lookup db key) (i + cmd.delta) := by
      rw [there, place', Place.holds_iff (Place.read_write _ _ _)]
      exact parseI64_intText first
    have two := run_of_holds fits' next second
    have kept (slot : Slot) (text : Bytes) : cmd.place.write slot text ≠ none := by
      cases cmd.place <;> nofun
    rw [two, all, there, one, place', place, sum, Place.write_write,
      StorageInner.store_store (.inl (kept _ _))]
    exact ⟨rfl, Iff.rfl⟩
  · have none (i : Int) : ¬ cmd.place.Holds (s.lookup db key) i := fun holds => integer ⟨i, holds⟩
    obtain ⟨msg, refused⟩ := run_of_overflows fits fun i holds => absurd holds (none i)
    obtain ⟨msg', refused'⟩ :=
      run_of_overflows fits' fun i holds => absurd (place' ▸ holds) (none i)
    obtain ⟨msgs, refusedBoth⟩ :=
      run_of_overflows fitsBoth fun i holds => absurd (place ▸ holds) (none i)
    rw [refused, refused', refusedBoth]
    exact ⟨rfl, iff_of_false nofun nofun⟩

end

/-- The command that adds an amount at a place: `INCRBY` or `HINCRBY`. -/
def Place.add : Place → Int → IntCommand
  | .string, amount => .incrby amount
  | .field name, amount => .hincrby name amount

/-- The integer commands on a key of a storage. -/
structure ExactSums (s : StorageInner) (db : Nat) (key : Bytes) : Prop where
  exact : ∀ cmd : IntCommand, cmd.Fits → ExactSum s db key cmd
  /-- Without an overflow, two increments in turn are one. -/
  added : ∀ (p : Place) (a b : Int), inI64 a → inI64 b → inI64 (a + b) →
    (∀ i, p.Holds (s.lookup db key) i → inI64 (i + a) ∧ inI64 (i + a + b)) →
    ((p.add b).run db key ((p.add a).run db key s).1).1 = ((p.add (a + b)).run db key s).1 ∧
      (((p.add b).run db key ((p.add a).run db key s).1).2 = .ok () ↔
      ((p.add (a + b)).run db key s).2 = .ok ())
  /-- A decrement is the increment by the negative amount, if there is one. -/
  negated : ∀ d, inI64 d → inI64 (-d) →
    ((IntCommand.decrby d).run db key s).1 = ((IntCommand.incrby (-d)).run db key s).1 ∧
      (((IntCommand.decrby d).run db key s).2 = .ok () ↔
      ((IntCommand.incrby (-d)).run db key s).2 = .ok ())

/-- The integer commands compute exact sums, on every storage. -/
theorem exactSums (s : StorageInner) (db : Nat) (key : Bytes) : ExactSums s db key where
  exact _ fits := exactSum s db key fits
  added p a b fitsA fitsB fitsSum inside := by
    cases p with
    | string => exact run_run fitsA fitsB fitsSum rfl rfl rfl inside
    | field name => exact run_run fitsA fitsB fitsSum rfl rfl rfl inside
  negated _ fits fitsNeg := run_same fitsNeg fits rfl rfl

end Veidrodelis.TsNif
