import SoftEtherVpn.Foundation.Bytes

/-!
# SHA-1

The hash function of FIPS 180 on byte lists. Models take a hash as a parameter; this
is the function behind it, for the places where a concrete one is needed.
-/

namespace SoftEtherVpn.Foundation

/-- The message as 512-bit blocks of sixteen words, with the length padding of SHA-1. -/
def sha1Blocks (data : Bytes) : List (List UInt32) :=
  let zeros := (119 - data.length % 64) % 64
  let padded := data ++ [0x80] ++ List.replicate zeros 0 ++ bytesBE 8 (8 * data.length)
  (List.range (padded.length / 64)).map fun b =>
    (List.range 16).map fun k =>
      UInt32.ofNat (natBE ((padded.drop (64 * b + 4 * k)).take 4))

def rotl32 (x : UInt32) (n : UInt32) : UInt32 := (x <<< n) ||| (x >>> (32 - n))

/-- The five state words of SHA-1. -/
abbrev Sha1State := UInt32 × UInt32 × UInt32 × UInt32 × UInt32

/-- One round, on the state and the sliding window of sixteen message words. -/
def sha1Round (st : Sha1State × List UInt32) (i : ℕ) : Sha1State × List UInt32 :=
  let (a, b, c, d, e) := st.1
  let win := st.2
  let f := if i < 20 then (b &&& c) ||| (~~~b &&& d)
    else if i < 40 then b ^^^ c ^^^ d
    else if i < 60 then (b &&& c) ||| (b &&& d) ||| (c &&& d)
    else b ^^^ c ^^^ d
  let k : UInt32 := if i < 20 then 0x5A827999 else if i < 40 then 0x6ED9EBA1
    else if i < 60 then 0x8F1BBCDC else 0xCA62C1D6
  let next := rotl32 (win.getD 13 0 ^^^ win.getD 8 0 ^^^ win.getD 2 0 ^^^ win.getD 0 0) 1
  ((rotl32 a 5 + f + e + k + win.getD 0 0, a, rotl32 b 30, c, d), win.drop 1 ++ [next])

def sha1Block (h : Sha1State) (block : List UInt32) : Sha1State :=
  let (a, b, c, d, e) := ((List.range 80).foldl sha1Round (h, block)).1
  (h.1 + a, h.2.1 + b, h.2.2.1 + c, h.2.2.2.1 + d, h.2.2.2.2 + e)

def sha1Hash (data : Bytes) : Bytes :=
  let h := (sha1Blocks data).foldl sha1Block
    (0x67452301, 0xEFCDAB89, 0x98BADCFE, 0x10325476, 0xC3D2E1F0)
  bytesBE 4 h.1.toNat ++ bytesBE 4 h.2.1.toNat ++ bytesBE 4 h.2.2.1.toNat ++
    bytesBE 4 h.2.2.2.1.toNat ++ bytesBE 4 h.2.2.2.2.toNat

theorem sha1Hash_length (data : Bytes) : (sha1Hash data).length = 20 := by
  simp [sha1Hash]

example : sha1Hash [97, 98, 99] =
    [0xa9, 0x99, 0x3e, 0x36, 0x47, 0x06, 0x81, 0x6a, 0xba, 0x3e, 0x25, 0x71, 0x78, 0x50,
      0xc2, 0x6c, 0x9c, 0xd0, 0xd8, 0x9d] := by
  decide +kernel

end SoftEtherVpn.Foundation
