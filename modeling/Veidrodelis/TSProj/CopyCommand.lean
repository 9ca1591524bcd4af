import Veidrodelis.TSProj.Updates
import Veidrodelis.TsNif.RangeStores
import Veidrodelis.TsNif.ScoreModel

/-!
# COPY

`COPY a b` with its options, from the parser to the watchers: `copy_iff`. The parser keeps `REPLACE`
of the options and drops `DB n`, so the key is copied inside the database of the command; this is
what was asked for exactly when `DB` is not given or names that database.
-/

namespace Veidrodelis.TSProj
open RedisStream (Command Graphemes)
open RedisStream.CommandParser (parse)
open RedisNif.ReplicaParser (toUppercase)
open TsNif (Indexset IsAscii StorageInner StorageValue ZSet copyKey digit_plain isWord isWord_spec
  toUppercase_ascii)

/-! ## Requests -/

/-- The words of the options: a database, and whether the destination is replaced; in any order and
case. -/
inductive Spells : Option Nat → Bool → List Bytes → Prop
  | none : Spells none false []
  | replace {r : Bytes} (isReplace : isWord r "REPLACE") : Spells none true [r]
  | db {d : Bytes} (isDb : isWord d "DB") (n : Nat) : Spells (some n) false [d, Bytes.natText n]
  | dbReplace {d r : Bytes} (isDb : isWord d "DB") (n : Nat) (isReplace : isWord r "REPLACE") :
    Spells (some n) true [d, Bytes.natText n, r]
  | replaceDb {r d : Bytes} (isReplace : isWord r "REPLACE") (isDb : isWord d "DB") (n : Nat) :
    Spells (some n) true [r, d, Bytes.natText n]

/-- A `COPY` that was propagated in a database. -/
structure CopyRequest where
  db : Nat
  small : db < 2 ^ 64
  source : Bytes
  destination : Bytes
  target : Option Nat
  replace : Bool
  words : List Bytes
  spelled : Spells target replace words

def CopyRequest.args (r : CopyRequest) : List Bytes :=
    ascii "COPY" :: r.source :: r.destination :: r.words

/-- The database that is copied to. -/
def CopyRequest.targetDb (r : CopyRequest) : Nat := r.target.getD r.db

/-- A value with the content of another one. -/
inductive IsCopy : StorageValue → StorageValue → Prop
  | plain (value : StorageValue) : IsCopy value value
  | zset {z z' : ZSet} (entries : z'.entries = z.entries) (consistent : z'.Consistent) :
    IsCopy (.zset z) (.zset z')

/-- The source is there, and the destination may be written. -/
def CopyRequest.Applies (r : CopyRequest) (s : StorageInner) : Prop :=
  s.lookup r.db r.source ≠ none ∧ (s.lookup r.targetDb r.destination = none ∨ r.replace = true)

/-- What the request makes of a storage. -/
structure CopyRequest.Copies (r : CopyRequest) (s s' : StorageInner) : Prop where
  copied : r.Applies s → ∃ value value', s.lookup r.db r.source = some value ∧
    s'.lookup r.targetDb r.destination = some value' ∧ IsCopy value value'
  idle : ¬ r.Applies s → s.Same s'
  others : ∀ db key, ¬ (db = r.targetDb ∧ key = r.destination) → s'.lookup db key = s.lookup db key

/-- What is parsed, executed and told to the watchers, for any state of these. -/
def CopyRequest.Does [Indexset] [Runtime] [Graphemes] (r : CopyRequest) (s : StorageInner) : Prop :=
  ∃ command keys, parse r.args = some (command, keys) ∧
    r.Copies s (TsNif.executeAll (convertible [(r.db, command)]) s) ∧
    ∀ state : State, state.ready = true → state.watch.Linked →
      ∀ pid ref, state.watch.Finds r.targetDb r.destination pid ref →
        .update pid ref command r.db ∈ (notifyWatchers state r.db command).1

/-! ## The parser -/

/-- Only the word `REPLACE` is looked for. -/
lemma Spells.replaces {target : Option Nat} {replace : Bool} {words : List Bytes}
    (h : Spells target replace words) : decide (ascii "REPLACE" ∈ words.map toUppercase) =
    replace := by
  have plain (option : String) (h : IsAscii (ascii option)) {word : Bytes}
    (is : isWord word option) :
      toUppercase word = ascii option := (isWord_spec is h).2
  have isReplace {r : Bytes} (is : isWord r "REPLACE") := plain "REPLACE" (by decide +kernel) is
  have isDb {d : Bytes} (is : isWord d "DB") := plain "DB" (by decide +kernel) is
  have number (n : Nat) : ascii "REPLACE" ≠ toUppercase (Bytes.natText n) := by
    have digits := Bytes.all_isDigit_natText n
    have upper : toUppercase (Bytes.natText n) = Bytes.natText n := by
      rw [toUppercase_ascii fun b mem => (digit_plain (digits b mem)).1]
      exact (List.map_congr_left fun b mem => (digit_plain (digits b mem)).2).trans (List.map_id _)
    intro eq
    rw [upper] at eq
    exact absurd (digits 82 (by rw [← eq]; decide)) (by decide)
  cases h with
  | none => rfl
  | replace is => simp [isReplace is]
  | db is n =>
    have other : ascii "REPLACE" ≠ ascii "DB" := by decide
    simp [isDb is, number n, other]
  | dbReplace db n is => simp [isReplace is]
  | replaceDb is db n => simp [isReplace is]

/-- `COPY` is parsed to its keys and its flag. -/
lemma parse_copy [Graphemes] (r : CopyRequest) :
    parse r.args = some (.copy r.source r.destination r.replace, [r.source, r.destination]) := by
  have parsed : parse r.args = some (.copy r.source r.destination
      (decide (ascii "REPLACE" ∈ r.words.map toUppercase)), [r.source, r.destination]) := rfl
  rw [parsed, r.spelled.replaces]

/-! ## The storage -/

/-- A clone is a copy. -/
lemma isCopy_clone (value : StorageValue) : IsCopy value value.clone := by
  cases value with
  | zset z => exact .zset (TsNif.entries_ofMembers z.entries) (ZSet.clone_consistent z)
  | string | set | list | hash => exact .plain _

section
variable {r : CopyRequest} {s : StorageInner}

/-- What is executed is `copy_key` in the database of the command. -/
lemma executed_copy [Indexset] :
    TsNif.executeAll (convertible [(r.db, .copy r.source r.destination r.replace)]) s =
      (copyKey r.db r.source r.destination r.replace s).1 := by
  show (TsNif.execute r.db _ s).1 = _
  rw [TsNif.execute_of_lt r.small]
  rfl

/-- In its own database the key is copied as it was asked for. -/
lemma copies_own (own : r.targetDb = r.db) :
    r.Copies s (copyKey r.db r.source r.destination r.replace s).1 := by
  have applies : r.Applies s ↔
      s.lookup r.db r.source ≠ none ∧ (s.lookup r.db r.destination = none ∨ r.replace = true) := by
    rw [CopyRequest.Applies, own]
  unfold copyKey
  split
  · -- the destination is there and stays
    rename_i taken
    simp only [Bool.and_eq_true, Bool.not_eq_true'] at taken
    have idle : ¬ r.Applies s := by
      rw [applies]
      rintro ⟨-, absent | replaced⟩
      · simp [absent] at taken
      · simp [replaced] at taken
    exact ⟨fun here => absurd here idle, fun _ => StorageInner.Same.refl s, fun _ _ _ => rfl⟩
  · rename_i free
    simp only [Bool.and_eq_true, Bool.not_eq_true', not_and, Option.not_isSome_iff_eq_none] at free
    cases found : s.lookup r.db r.source with
    | none =>
      have idle : ¬ r.Applies s := by
        rw [applies]
        exact fun here => here.1 found
      exact ⟨fun here => absurd here idle, fun _ => StorageInner.Same.refl s, fun _ _ _ => rfl⟩
    | some value =>
      have here : r.Applies s := by
        rw [applies, found]
        refine ⟨nofun, ?_⟩
        cases replaced : r.replace with
        | true => exact .inr rfl
        | false => exact .inl (free replaced)
      refine ⟨fun _ => ⟨value, value.clone, found, ?_, isCopy_clone value⟩,
        fun idle => absurd here idle, ?_⟩
      · rw [own, StorageInner.lookup_put, if_pos ⟨rfl, rfl⟩]
      · intro db key other
        rw [own] at other
        rw [StorageInner.lookup_put, if_neg other]

end

/-! ## The watchers -/

section
variable [Runtime] {r : CopyRequest}

/-- The watches that are told are those of the two keys in the database of the command. -/
lemma told_copy {state : State} (ready : state.ready = true) (linked : state.watch.Linked)
    {pid : Pid} {ref : Ref} :
    .update pid ref (.copy r.source r.destination r.replace) r.db
        ∈ (notifyWatchers state r.db (.copy r.source r.destination r.replace)).1
      ↔ state.watch.Finds r.db r.source pid ref ∨ state.watch.Finds r.db r.destination pid ref := by
  rw [notifyWatchers_onKeys ready rfl, mem_notifyKeys linked r.small]
  simp [affectedKeys]

/-- A process that watches one key in one database. -/
lemma single_watch (db : Int) (key : Bytes) :
    ∃ state : State, state.ready = true ∧ state.watch.Linked ∧
      ∀ db' key', state.watch.Finds db' key' 0 (.term 0) ↔ db' = db ∧ key' = key := by
  obtain ⟨watch, added⟩ : ∃ watch, Watch.create.add 0 db key (.term 0) = .ok watch := ⟨_, rfl⟩
  have linked : watch.Linked := Watch.add_linked Watch.create_linked added
  refine ⟨{ State.initial with ready := true, watch }, rfl, linked, fun db' key' => ?_⟩
  cases added
  simp [Watch.Finds, Watch.create, Registrations.refOf_put, Registrations.refOf_empty]

end

/-- `COPY` does what its options say, for the storage and for the watchers, exactly when they name
no other database. -/
theorem copy_iff [Indexset] [Runtime] [Graphemes] (r : CopyRequest) (s : StorageInner) :
    r.Does s ↔ r.targetDb = r.db := by
  constructor
  · rintro ⟨command, keys, parsed, -, told⟩
    rw [parse_copy] at parsed
    cases parsed
    obtain ⟨state, ready, linked, finds⟩ := single_watch r.targetDb r.destination
    have update := told state ready linked 0 (.term 0) ((finds _ _).mpr ⟨rfl, rfl⟩)
    rw [told_copy ready linked, finds, finds] at update
    rcases update with ⟨here, -⟩ | ⟨here, -⟩
    · exact_mod_cast here.symm
    · exact_mod_cast here.symm
  · intro own
    refine ⟨_, _, parse_copy r, executed_copy ▸ copies_own own,
      fun state ready linked pid ref found => ?_⟩
    rw [told_copy ready linked]
    rw [own] at found
    exact .inr found

/-- `COPY a b DB 1` in database 0 writes the key `b` of database 0, and none in database 1. -/
theorem copy_fails :
    ∃ r : CopyRequest, r.db = 0 ∧
    r.args = [ascii "COPY", ascii "a", ascii "b", ascii "DB", ascii "1"] ∧
      ∃ s s' : StorageInner, s = StorageInner.new.put 0 (ascii "a") (.string (ascii "x")) ∧
        s' = @TsNif.executeAll (.exact false)
          (convertible [(0, .copy (ascii "a") (ascii "b") false)]) s ∧
        @parse ⟨fun _ => false⟩ r.args =
          some (.copy (ascii "a") (ascii "b") false, [ascii "a", ascii "b"]) ∧
        s'.lookup 0 (ascii "b") = some (.string (ascii "x")) ∧ s'.lookup 1 (ascii "b") = none ∧
        ¬ r.Copies s s' := by
  refine ⟨⟨0, by decide, ascii "a", ascii "b", some 1, false, _,
    .db (d := ascii "DB") (by decide) 1⟩, rfl, ?_, _, _, rfl, rfl, ?_, ?_, ?_, ?_⟩
  · decide +kernel
  · decide +kernel
  · decide +kernel
  · decide +kernel
  · intro copies
    have kept := copies.others 0 (ascii "b") (by decide)
    revert kept
    decide +kernel

end Veidrodelis.TSProj
