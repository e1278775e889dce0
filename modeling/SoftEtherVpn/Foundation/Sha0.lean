import SoftEtherVpn.Foundation.Sha1

/-!
# SHA-0

The hash function of FIPS 180 before its revision: SHA-1 with a message schedule without rotation.
-/

namespace SoftEtherVpn.Foundation

/-- The zero bytes between the marker and the length, as few as make whole blocks. -/
def sha0Zeros (n : ℕ) : ℕ := (119 - n % 64) % 64

def sha0Padded (data : Bytes) : Bytes :=
  data ++ [0x80] ++ List.replicate (sha0Zeros data.length) 0 ++ bytesBE 8 (8 * data.length)

/-- The sixteen words of a block of 64 bytes. -/
def sha0Words (block : Bytes) : List UInt32 :=
  (List.range 16).map fun k => UInt32.ofNat (natBE ((block.drop (4 * k)).take 4))

/-- The words of a block and the `n` words after them: word `t` is the sum of the words
`t - 3`, `t - 8`, `t - 14` and `t - 16`. -/
def sha0Schedule (words : List UInt32) : ℕ → List UInt32
  | 0 => words
  | n + 1 =>
    let w := sha0Schedule words n
    w ++ [w.getD (n + 13) 0 ^^^ w.getD (n + 8) 0 ^^^ w.getD (n + 2) 0 ^^^ w.getD n 0]

def sha0Logic (t : ℕ) (b c d : UInt32) : UInt32 :=
  if t < 20 then (b &&& c) ||| (~~~b &&& d)
  else if t < 40 then b ^^^ c ^^^ d
  else if t < 60 then (b &&& c) ||| (b &&& d) ||| (c &&& d)
  else b ^^^ c ^^^ d

def sha0Constant (t : ℕ) : UInt32 :=
  if t < 20 then 0x5A827999 else if t < 40 then 0x6ED9EBA1
  else if t < 60 then 0x8F1BBCDC else 0xCA62C1D6

def sha0Round (w : List UInt32) (st : Sha1State) (t : ℕ) : Sha1State :=
  let (a, b, c, d, e) := st
  (rotl32 a 5 + sha0Logic t b c d + e + sha0Constant t + w.getD t 0, a, rotl32 b 30, c, d)

def sha0Block (h : Sha1State) (block : Bytes) : Sha1State :=
  let (a, b, c, d, e) := (List.range 80).foldl (sha0Round (sha0Schedule (sha0Words block) 64)) h
  (h.1 + a, h.2.1 + b, h.2.2.1 + c, h.2.2.2.1 + d, h.2.2.2.2 + e)

/-- The blocks of 64 bytes. -/
def sha0Blocks (padded : Bytes) : List Bytes :=
  (List.range (padded.length / 64)).map fun i => (padded.drop (64 * i)).take 64

def sha0 (data : Bytes) : Bytes :=
  let h := (sha0Blocks (sha0Padded data)).foldl sha0Block
    (0x67452301, 0xEFCDAB89, 0x98BADCFE, 0x10325476, 0xC3D2E1F0)
  bytesBE 4 h.1.toNat ++ bytesBE 4 h.2.1.toNat ++ bytesBE 4 h.2.2.1.toNat ++
    bytesBE 4 h.2.2.2.1.toNat ++ bytesBE 4 h.2.2.2.2.toNat

theorem sha0Schedule_length {words : List UInt32} (h : words.length = 16) (n : ℕ) :
    (sha0Schedule words n).length = 16 + n := by
  induction n with
  | zero => exact h
  | succ n ih =>
    rw [sha0Schedule, List.length_append, ih]
    rfl

theorem sha0Padded_length (data : Bytes) :
    (sha0Padded data).length = data.length + 9 + sha0Zeros data.length := by
  simp only [sha0Padded, List.length_append, List.length_singleton, List.length_replicate,
    bytesBE_length]
  omega

example : sha0 (ascii "abc") =
    [0x01, 0x64, 0xb8, 0xa9, 0x14, 0xcd, 0x2a, 0x5e, 0x74, 0xc4, 0xf7, 0xff, 0x08, 0x2c,
      0x4d, 0x97, 0xf1, 0xed, 0xf8, 0x80] := by
  decide +kernel

end SoftEtherVpn.Foundation
