import Veidrodelis.RedisNif.Buffer

/-!
# LZF decompression

`lzf_decompress` of the vendored `c_src/lzf_d.c` (built with its input checks) and the wrapper of
the same name in `rdb.rs`. The C function writes at most `outLen` bytes and answers 0 when the input
is malformed; here the output is the list of bytes written so far and 0 is `none`.
-/

namespace Veidrodelis.RedisNif

/-- Copy `n` bytes of the output from position `ref` on to its end, octet by octet: the areas may
overlap. -/
def copyBack (out : Bytes) (ref : Nat) : Nat → Bytes
  | 0 => out
  | n + 1 => copyBack (out ++ [out.getD ref 0]) (ref + 1) n

/-- The loop of `lzf_decompress`; each round consumes at least its control byte, so the length of
the input is fuel enough. -/
def lzfLoop (outLen : Nat) : Nat → Bytes → Bytes → Option Bytes
  | _, [], out => some out
  | 0, _, out => some out
  | fuel + 1, ctrl :: ip, out =>
    let ctrl := ctrl.toNat
    if ctrl < 32 then
      -- literal run
      let run := ctrl + 1
      if outLen < out.length + run then none
      else if ip.length < run then none
      else lzfLoop outLen fuel (ip.drop run) (out ++ ip.take run)
    else
      -- back reference; a length of 7 is continued in the next byte
      let step (len : Nat) (ip : Bytes) : Option Bytes :=
        match ip with
        | [] => none
        | low :: ip =>
          let back := (ctrl % 32) * 256 + 1 + low.toNat
          if outLen < out.length + len + 2 then none
          else if out.length < back then none
          else lzfLoop outLen fuel ip (copyBack out (out.length - back) (len + 2))
      if ctrl / 32 = 7 then
        match ip with
        | [] => none
        | more :: ip => step (7 + more.toNat) ip
      else step (ctrl / 32) ip

/-- `lzf_decompress` of `rdb.rs`: both lengths are passed to C as 32-bit numbers. -/
def lzfDecompress (compressed : Bytes) (expectedLen : Nat) : Except Fault Bytes :=
  if isizeMax < expectedLen then .error (.panic "capacity overflow")
  else
    let input := compressed.take (compressed.length % 2 ^ 32)
    match lzfLoop (expectedLen % 2 ^ 32) input.length input [] with
    | none => .error (.err "lzf_decompression_failed")
    | some output =>
      if output.length = 0 then .error (.err "lzf_decompression_failed")
      else if output.length ≠ expectedLen then .error (.err "lzf_size_mismatch")
      else .ok output

-- "aaaaaaaaaa": a literal run of one byte and a back reference of length 9 at distance 1
example : lzfDecompress [0, 97, 224, 0, 0] 10 = .ok (List.replicate 10 97) := by decide +kernel

end Veidrodelis.RedisNif
