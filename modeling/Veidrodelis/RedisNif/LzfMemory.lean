import Veidrodelis.Lib.Memory
import Veidrodelis.RedisNif.LzfFormat

/-!
# LZF decompression in memory

`lzf_decompress` of `c_src/lzf_d.c`, as it works on its two buffers: with positions for the
pointers, with its copying loops and with its `memcpy`. A pointer may be formed anywhere; what
counts is where memory is accessed, and an access outside of a buffer is `none`. `decompress_agrees`
says that there is none, and that what is left in the output buffer is the list that `lzfLoop`
computes.
-/

namespace Veidrodelis.RedisNif.Lzf.C
open Lz77 Memory

inductive Errno where
  | e2big
  | einval
  deriving DecidableEq, Repr

/-- What `lzf_decompress` returns, the error that it sets, and the output buffer. -/
structure Decompressed where
  size : Nat
  errno : Option Errno
  out : Bytes
  deriving DecidableEq, Repr

/-- The positions of `ip` and `op`, and the output buffer. -/
structure Cursor where
  ip : Nat
  op : Nat
  out : Bytes

/-- The copy of a back reference: up to 11 octets one by one, more of them with `memcpy` if the
areas are disjoint. -/
def copyReference (len ref op : Nat) (out : Bytes) : Option Bytes :=
  if len ≤ 9 then copyWithin (len + 2) ref op out
  else if ref + (len + 2) ≤ op then memcpy (len + 2) ref op out
  else copyWithin (len + 2) ref op out

/-- A back reference, from its last byte on. -/
def backReference (input : Bytes) (len : Nat) (ref : Int) (c : Cursor) :
    Option (Except Errno Cursor) :=
  match input[c.ip]? with
  | none => none
  | some low =>
    let ref := ref - low.toNat
    if c.out.length < c.op + len + 2 then some (.error .e2big)
    else if ref < 0 then some (.error .einval)
    else (copyReference len ref.toNat c.op c.out).map fun out => .ok ⟨c.ip + 1, c.op + len + 2, out⟩

/-- One round of the loop, behind the control byte. -/
def decompressStep (input : Bytes) (ctrl : Nat) (c : Cursor) : Option (Except Errno Cursor) :=
  if ctrl < 2 ^ 5 then
    -- literal run
    let ctrl := ctrl + 1
    if c.out.length < c.op + ctrl then some (.error .e2big)
    else if input.length < c.ip + ctrl then some (.error .einval)
    else (copyFrom input ctrl c.ip c.op c.out).map fun out => .ok ⟨c.ip + ctrl, c.op + ctrl, out⟩
  else
    -- back reference
    let len := ctrl >>> 5
    let ref := (c.op : Int) - ((ctrl &&& 0x1f) <<< 8 : Nat) - 1
    if input.length ≤ c.ip then some (.error .einval)
    else if len = 7 then
      match input[c.ip]? with
      | none => none
      | some more =>
        if input.length ≤ c.ip + 1 then some (.error .einval)
        else backReference input (len + more.toNat) ref { c with ip := c.ip + 1 }
    else backReference input len ref c

/-- The loop of `lzf_decompress`; each round reads at least its control byte. -/
def decompressLoop (input : Bytes) : Nat → Cursor → Option Decompressed
  | 0, c => some ⟨c.op, none, c.out⟩
  | fuel + 1, c =>
    if c.ip < input.length then
      match input[c.ip]? with
      | none => none
      | some ctrl =>
        match decompressStep input ctrl.toNat { c with ip := c.ip + 1 } with
        | none => none
        | some (.error errno) => some ⟨0, some errno, c.out⟩
        | some (.ok c) => decompressLoop input fuel c
    else some ⟨c.op, none, c.out⟩

/-- `lzf_decompress`. -/
def lzfDecompress (input out : Bytes) : Option Decompressed :=
  decompressLoop input input.length ⟨0, 0, out⟩

/-- The buffer behind a text that was written into it. -/
def filled (out text : Bytes) : Bytes := text ++ out.drop text.length

/-- A text written into the buffer keeps its length. -/
lemma length_filled {out text : Bytes} (fits : text.length ≤ out.length) :
    (filled out text).length = out.length := by
  rw [filled, List.length_append, List.length_drop]
  omega

/-- A back reference is copied behind the text in the buffer. -/
lemma copyReference_filled {out text text' : Bytes} {distance len : Nat}
    (ext : Extends (.copy distance (len + 2)) text text') (fits : text'.length ≤ out.length) :
    copyReference len (text.length - distance) text.length (filled out text) =
      some (filled out text') := by
  have size := ext.length
  rw [Factor.size] at size
  have room : len + 2 ≤ (out.drop text.length).length := by rw [List.length_drop]; omega
  have behind : (out.drop text.length).drop (len + 2) = out.drop text'.length := by
    rw [List.drop_drop, size]
  have octets : copyWithin (len + 2) (text.length - distance) text.length (filled out text) =
    some (filled out text') := by
    rw [filled, copyWithin_append ext room, behind, filled]
  rw [copyReference]
  split
  · exact octets
  · split
    · rename_i apart
      have within : distance ≤ text.length := by
        cases ext with
        | copy _ _ within => exact within
      rw [filled, memcpy_append ext (by omega) room, behind, filled]
    · exact octets

/-- What a round does, beside what a round of `lzfLoop` returns. -/
inductive Beside (fuel : Nat) (input out : Bytes) : Option Bytes →
    Option (Except Errno Cursor) → Prop where
  | refused (errno : Errno) :
      Beside fuel input out none (some (.error errno))
  | extended {ip : Nat} {text : Bytes}
      (fits : text.length ≤ out.length) :
      Beside fuel input out (lzfLoop out.length fuel (input.drop ip) text)
        (some (.ok ⟨ip, text.length, filled out text⟩))

section
variable {fuel ip : Nat} {input out text : Bytes}

/-- A literal run in the memory goes beside the one of `lzfLoop`. -/
lemma literal_round {ctrl : Nat} (small : ctrl < 32) (fits : text.length ≤ out.length)
    (within : ip ≤ input.length) :
    Beside fuel input out
      (if out.length < text.length + (ctrl + 1) then none
        else if (input.drop ip).length < ctrl + 1 then none
        else lzfLoop out.length fuel ((input.drop ip).drop (ctrl + 1))
          (text ++ (input.drop ip).take (ctrl + 1)))
      (decompressStep input ctrl ⟨ip, text.length, filled out text⟩) := by
  rw [decompressStep, if_pos (show ctrl < 2 ^ 5 from small)]
  simp only [length_filled fits]
  split
  · exact .refused .e2big
  · rename_i room
    rw [List.length_drop]
    by_cases cut : input.length < ip + (ctrl + 1)
    · rw [if_pos cut, if_pos (by omega)]
      exact .refused .einval
    · rw [if_neg cut, if_neg (by omega)]
      have size : (text ++ (input.drop ip).take (ctrl + 1)).length = text.length + (ctrl + 1) := by
        rw [List.length_append, List.length_take, List.length_drop]
        omega
      have copied : copyFrom input (ctrl + 1) ip text.length (filled out text) =
          some (filled out (text ++ (input.drop ip).take (ctrl + 1))) := by
        rw [filled, copyFrom_append (by omega) (by rw [List.length_drop]; omega), List.drop_drop,
          filled, size]
      rw [copied, Option.map_some, List.drop_drop, ← size]
      exact .extended (by omega)

/-- A back reference in the memory goes beside the one of `lzfLoop`. -/
lemma backReference_round {len high : Nat} (low : UInt8) (here : input[ip]? = some low)
    (fits : text.length ≤ out.length) :
    Beside fuel input out
      (if out.length < text.length + len + 2 then none
        else if text.length < high * 256 + 1 + low.toNat then none
        else lzfLoop out.length fuel (input.drop (ip + 1))
          (copyBack text (text.length - (high * 256 + 1 + low.toNat)) (len + 2)))
      (backReference input len ((text.length : Int) - (high * 256 : Nat) - 1)
        ⟨ip, text.length, filled out text⟩) := by
  rw [backReference]
  simp only [here, length_filled fits]
  split
  · exact .refused .e2big
  · rename_i room
    by_cases far : text.length < high * 256 + 1 + low.toNat
    · rw [if_pos far, if_pos (by omega)]
      exact .refused .einval
    · rw [if_neg far, if_neg (by omega)]
      have ext : Extends (.copy (high * 256 + 1 + low.toNat) (len + 2)) text _ :=
        copyBack_extends (by omega) (Nat.not_lt.mp far) (len + 2)
      have size := ext.length
      rw [Factor.size] at size
      have ref : ((text.length : Int) - (high * 256 : Nat) - 1 - low.toNat).toNat =
          text.length - (high * 256 + 1 + low.toNat) := by omega
      have op : text.length + len + 2 =
        (copyBack text (text.length - (high * 256 + 1 + low.toNat)) (len + 2)).length := by
        omega
      rw [ref, copyReference_filled ext (by omega), Option.map_some, op]
      exact .extended (by omega)

/-- A round in the memory goes beside a round of `lzfLoop`. -/
lemma decompressStep_round {ctrl : UInt8} {rest : Bytes} (cut : input.drop ip = ctrl :: rest)
    (fits : text.length ≤ out.length) :
    Beside fuel input out (lzfLoop out.length (fuel + 1) (ctrl :: rest) text)
      (decompressStep input ctrl.toNat ⟨ip + 1, text.length, filled out text⟩) := by
  have within : ip < input.length := by
    by_contra out
    rw [List.drop_eq_nil_of_le (Nat.not_lt.mp out)] at cut
    cases cut
  have behind : input.drop (ip + 1) = rest := by
    rw [← List.drop_drop, cut, List.drop_one, List.tail_cons]
  have at_ (i : Nat) : input[ip + 1 + i]? = rest[i]? := by rw [← behind, List.getElem?_drop]
  have size : rest.length = input.length - (ip + 1) := by rw [← behind, List.length_drop]
  rw [lzfLoop]
  by_cases small : ctrl.toNat < 32
  · simp only [if_pos small, ← behind]
    exact literal_round small fits within
  · have len : ctrl.toNat >>> 5 = ctrl.toNat / 32 := Nat.shiftRight_eq_div_pow _ _
    have high : (ctrl.toNat &&& 0x1f) <<< 8 = ctrl.toNat % 32 * 256 := by
      rw [Nat.shiftLeft_eq, Nat.and_two_pow_sub_one_eq_mod _ 5]
    rw [decompressStep, if_neg (show ¬ ctrl.toNat < 2 ^ 5 from small)]
    simp only [if_neg small, len, high]
    by_cases seven : ctrl.toNat / 32 = 7
    · simp only [if_pos seven]
      rcases rest with _ | ⟨more, _ | ⟨low, rest⟩⟩
      · rw [if_pos (by rw [List.length_nil] at size; omega)]
        exact .refused .einval
      · rw [List.length_singleton] at size
        have here := at_ 0
        rw [List.getElem?_cons_zero, Nat.add_zero] at here
        rw [if_neg (by omega), here]
        simp only []
        rw [if_pos (by omega)]
        exact .refused .einval
      · have here := at_ 0
        have next := at_ 1
        rw [List.getElem?_cons_zero, Nat.add_zero] at here
        rw [List.getElem?_cons_succ, List.getElem?_cons_zero] at next
        have after : rest = input.drop (ip + 1 + 1 + 1) := by
          rw [← List.drop_drop, ← List.drop_drop, behind]
          rfl
        rw [List.length_cons, List.length_cons] at size
        rw [if_neg (by omega), here]
        simp only [seven]
        rw [if_neg (show ¬ input.length ≤ ip + 1 + 1 by omega), after]
        exact backReference_round low next fits
    · simp only [if_neg seven]
      cases rest with
      | nil =>
        rw [if_pos (by rw [List.length_nil] at size; omega)]
        exact .refused .einval
      | cons low rest =>
        have here := at_ 0
        rw [List.getElem?_cons_zero, Nat.add_zero] at here
        have after : rest = input.drop (ip + 1 + 1) := by
          rw [← List.drop_drop, behind]
          rfl
        rw [List.length_cons] at size
        rw [if_neg (by omega), after]
        exact backReference_round low here fits

end

/-- What a run leaves, beside what a run of `lzfLoop` returns. -/
structure Agrees (out : Bytes) (expected : Option Bytes) (left : Decompressed) : Prop where
  room : left.out.length = out.length
  accepted : ∀ text, expected = some text → left = ⟨text.length, none, filled out text⟩
  refused : expected = none → left.size = 0 ∧ left.errno ≠ none

/-- The end of the input agrees with the text. -/
lemma Agrees.done {out text : Bytes} (fits : text.length ≤ out.length) :
    Agrees out (some text) ⟨text.length, none, filled out text⟩ where
  room := length_filled fits
  accepted text' eq := by
    cases eq
    rfl
  refused eq := by cases eq

/-- A refusal agrees with a refusal, whatever its error number. -/
lemma Agrees.refuse {out text : Bytes} (fits : text.length ≤ out.length) (errno : Errno) :
    Agrees out none ⟨0, some errno, filled out text⟩ where
  room := length_filled fits
  accepted text' eq := by cases eq
  refused _ := by
    refine ⟨rfl, ?_⟩
    intro eq
    cases eq

/-- Every run in the memory ends, and agrees with the run of `lzfLoop`. -/
lemma decompressLoop_agrees {fuel ip : Nat} {input out text : Bytes}
    (fits : text.length ≤ out.length) :
    ∃ left, decompressLoop input fuel ⟨ip, text.length, filled out text⟩ = some left ∧
      Agrees out (lzfLoop out.length fuel (input.drop ip) text) left := by
  induction fuel generalizing ip text with
  | zero =>
    refine ⟨_, rfl, ?_⟩
    cases input.drop ip with
    | nil => exact .done fits
    | cons => exact .done fits
  | succ fuel ih =>
    rw [decompressLoop]
    cases cut : input.drop ip with
    | nil =>
      rw [if_neg (Nat.not_lt.mpr (List.drop_eq_nil_iff.mp cut))]
      exact ⟨_, rfl, .done fits⟩
    | cons ctrl rest =>
      have here : input[ip]? = some ctrl := by
        rw [← Nat.add_zero ip, ← List.getElem?_drop, cut, List.getElem?_cons_zero]
      have inside : ip < input.length := by
        by_contra out
        rw [List.getElem?_eq_none (Nat.not_lt.mp out)] at here
        cases here
      simp only [if_pos inside, here]
      have round : Beside fuel input out _ _ := decompressStep_round cut fits
      generalize
        decompressStep input ctrl.toNat ⟨ip + 1, text.length, filled out text⟩ = result at round
      generalize lzfLoop out.length (fuel + 1) (ctrl :: rest) text = expected at round
      cases round with
      | refused errno => exact ⟨_, rfl, .refuse fits errno⟩
      | extended fits' => exact ih fits'

/-- The decompressor never accesses memory outside of its buffers; it leaves what `lzfLoop`
computes, and does not touch what is behind. -/
theorem decompress_agrees (input out : Bytes) :
    ∃ left, lzfDecompress input out = some left ∧
      Agrees out (lzfLoop out.length input.length input []) left :=
  @decompressLoop_agrees _ 0 input out [] (Nat.zero_le _)

/-- Whatever stands in the two buffers, the decompressor accesses nothing else. It writes the text
that the input stands for, where there is room for it; every other input is refused. -/
theorem lzf_decompresses (input out : Bytes) :
    ∃ left, lzfDecompress input out = some left ∧ left.out.length = out.length ∧
      ((∃ tokens text, encodeAll tokens = input ∧ StandsFor tokens text ∧ text.length ≤ out.length ∧
          left = ⟨text.length, none, filled out text⟩) ∨
        ((∀ tokens text, encodeAll tokens = input → StandsFor tokens text →
          out.length < text.length) ∧
          left.size = 0 ∧ left.errno ≠ none)) := by
  obtain ⟨left, eq, agrees⟩ := decompress_agrees input out
  refine ⟨left, eq, agrees.room, ?_⟩
  cases loop : lzfLoop out.length input.length input [] with
  | some text =>
    left
    obtain ⟨tokens, encoded, stands, fits⟩ := lzfLoop_eq_some.mp loop
    exact ⟨tokens, text, encoded, stands, fits, agrees.accepted text loop⟩
  | none =>
    right
    refine ⟨?_, agrees.refused loop⟩
    intro tokens text encoded stands
    by_contra fits
    rw [lzfLoop_eq_some.mpr ⟨tokens, encoded, stands, Nat.not_lt.mp fits⟩] at loop
    cases loop

end Veidrodelis.RedisNif.Lzf.C
