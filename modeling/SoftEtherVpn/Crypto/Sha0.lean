import Mathlib.Data.List.GetD
import SoftEtherVpn.Foundation.Ring
import SoftEtherVpn.Foundation.Sha0

/-!
# `sha0_hash`

The hash of the password authentication: the message is copied into a zeroed block of memory, the
marker and the length are stored there, and the loop over its blocks fills `w` and runs the rounds.
`size_t` has 64 bits. `calloc` is a parameter: it has the memory, zeroed, or it fails.
-/

namespace SoftEtherVpn.Crypto

open Foundation

/-- `padded`. -/
def paddedSize (mlen : ℕ) : ℕ := ((mlen + 8) % 2 ^ 64 / 64 + 1) * 64 % 2 ^ 64

/-- The loop that stores the length, its low byte last. -/
def storeLength (padded bits : ℕ) (buf : Bytes) : Bytes :=
  (List.range 8).foldl
    (fun buf i => buf.set (padded - 1 - i) (UInt8.ofNat (bits / 2 ^ (8 * i)))) buf

/-- The block of memory before the loop over its blocks. -/
def paddedBuffer (data buf : Bytes) : Bytes :=
  let mlen := data.length
  let buf := splice buf 0 data
  let buf := buf.set mlen 0x80
  storeLength (paddedSize mlen) (mlen * 8 % 2 ^ 64) buf

/-- The word at an index of the buffer. -/
def loadWord (buf : Bytes) (i : ℕ) : UInt32 :=
  ((buf.getD i 0).toUInt32 <<< 24) ||| ((buf.getD (i + 1) 0).toUInt32 <<< 16) |||
    ((buf.getD (i + 2) 0).toUInt32 <<< 8) ||| (buf.getD (i + 3) 0).toUInt32

/-- The two loops that fill `w`. -/
def fillSchedule (buf : Bytes) (off : ℕ) (w : ℕ → UInt32) : ℕ → UInt32 :=
  let w := (List.range 16).foldl (fun w i => Function.update w i (loadWord buf (off + i * 4))) w
  (List.range 64).foldl
    (fun w n =>
      let i := n + 16
      Function.update w i (w (i - 3) ^^^ w (i - 8) ^^^ w (i - 14) ^^^ w (i - 16))) w

/-- The body of the loop of 80 rounds. -/
def hashRound (w : ℕ → UInt32) (st : Sha1State) (i : ℕ) : Sha1State :=
  let (a, b, c, d, e) := st
  let f :=
    if i < 20 then (b &&& c) ||| (~~~b &&& d)
    else if i < 40 then b ^^^ c ^^^ d
    else if i < 60 then (b &&& c) ||| (b &&& d) ||| (c &&& d)
    else b ^^^ c ^^^ d
  let k : UInt32 :=
    if i < 20 then 0x5A827999 else if i < 40 then 0x6ED9EBA1
    else if i < 60 then 0x8F1BBCDC else 0xCA62C1D6
  let t := ((a <<< 5) ||| (a >>> 27)) + f + e + k + w i
  (t, a, (b <<< 30) ||| (b >>> 2), c, d)

/-- The body of the loop over the blocks; `w` keeps its contents from one block to the next. -/
def hashBlock (buf : Bytes) (st : Sha1State × (ℕ → UInt32)) (off : ℕ) :
    Sha1State × (ℕ → UInt32) :=
  let h := st.1
  let w := fillSchedule buf off st.2
  let (a, b, c, d, e) := (List.range 80).foldl (hashRound w) h
  ((h.1 + a, h.2.1 + b, h.2.2.1 + c, h.2.2.2.1 + d, h.2.2.2.2 + e), w)

def storeWord (x : UInt32) : Bytes :=
  [(x >>> 24).toUInt8, (x >>> 16).toUInt8, (x >>> 8).toUInt8, x.toUInt8]

/-- What is written to `hash`, or nothing when `calloc` fails; `w` is not initialised. -/
def sha0Hash (calloc : ℕ → Option Bytes) (w : ℕ → UInt32) (data : Bytes) : Option Bytes :=
  let padded := paddedSize data.length
  match calloc padded with
  | none => none
  | some buf =>
    let buf := paddedBuffer data buf
    let offsets := (List.range (padded / 64)).map (64 * ·)
    let h := (offsets.foldl (hashBlock buf)
      ((0x67452301, 0xEFCDAB89, 0x98BADCFE, 0x10325476, 0xC3D2E1F0), w)).1
    some (storeWord h.1 ++ storeWord h.2.1 ++ storeWord h.2.2.1 ++ storeWord h.2.2.2.1 ++
      storeWord h.2.2.2.2)

section Padding

/-- The padded length is the least multiple of 64 with room for the marker and the length. -/
theorem paddedSize_least {n : ℕ} (h : n < 2 ^ 61) :
    paddedSize n % 64 = 0 ∧ n + 9 ≤ paddedSize n ∧
      ∀ m, m % 64 = 0 → n + 9 ≤ m → paddedSize n ≤ m := by
  have heq : paddedSize n = ((n + 8) / 64 + 1) * 64 := by
    rw [paddedSize, Nat.mod_eq_of_lt (a := n + 8) (by omega), Nat.mod_eq_of_lt (by omega)]
  rw [heq]
  refine ⟨by omega, by omega, ?_⟩
  intro m hm hroom
  omega

theorem paddedSize_eq {n : ℕ} (h : n < 2 ^ 61) : paddedSize n = n + 9 + sha0Zeros n := by
  rw [paddedSize, Nat.mod_eq_of_lt (a := n + 8) (by omega), Nat.mod_eq_of_lt (by omega), sha0Zeros]
  omega

/-- The length is stored in the last eight bytes. -/
theorem storeLength_append (before : Bytes) (bits : ℕ) :
    storeLength (before.length + 8) bits (before ++ List.replicate 8 0) =
      before ++ bytesBE 8 bits := by
  have hset : ∀ (tail : Bytes) (i : ℕ) (x : UInt8), i < 8 →
      (before ++ tail).set (before.length + 8 - 1 - i) x = before ++ tail.set (7 - i) x := by
    intro tail i x hi
    rw [List.set_append_right _ _ (by omega)]
    congr 2
    omega
  simp only [storeLength, show List.range 8 = [0, 1, 2, 3, 4, 5, 6, 7] from rfl, List.foldl_cons,
    List.foldl_nil]
  rw [hset _ 0 _ (by norm_num), hset _ 1 _ (by norm_num), hset _ 2 _ (by norm_num),
    hset _ 3 _ (by norm_num), hset _ 4 _ (by norm_num), hset _ 5 _ (by norm_num),
    hset _ 6 _ (by norm_num), hset _ 7 _ (by norm_num)]
  rfl

theorem paddedBuffer_eq {data : Bytes} (h : data.length < 2 ^ 61) :
    paddedBuffer data (List.replicate (paddedSize data.length) 0) = sha0Padded data := by
  have hsize := paddedSize_eq h
  obtain ⟨z, hz⟩ : ∃ z, z = sha0Zeros data.length := ⟨_, rfl⟩
  rw [← hz] at hsize
  have hcopied : splice (List.replicate (paddedSize data.length) 0) 0 data =
      data ++ (0 :: (List.replicate z 0 ++ List.replicate 8 0)) := by
    rw [splice, List.take_zero, List.nil_append, zero_add, List.drop_replicate, hsize,
      ← List.replicate_add, ← List.replicate_succ]
    congr 2
    omega
  have hmarked : (data ++ (0 :: (List.replicate z 0 ++ List.replicate 8 0))).set data.length 0x80 =
      (data ++ [0x80] ++ List.replicate z 0) ++ List.replicate 8 0 := by
    rw [List.set_append_right _ _ le_rfl, Nat.sub_self, List.set_cons_zero]
    simp only [List.append_assoc, List.cons_append, List.nil_append]
  have hlength : paddedSize data.length = (data ++ [0x80] ++ List.replicate z 0).length + 8 := by
    simp only [List.length_append, List.length_singleton, List.length_replicate]
    omega
  simp only [paddedBuffer]
  rw [hcopied, hmarked, hlength, storeLength_append, sha0Padded, ← hz, mul_comm,
    Nat.mod_eq_of_lt (by omega)]

end Padding

section Words

theorem or_eq_add {x y k : ℕ} (h : y < 2 ^ k) : x * 2 ^ k ||| y = x * 2 ^ k + y := by
  rw [← Nat.shiftLeft_eq, Nat.shiftLeft_add_eq_or_of_lt h]

theorem or_bytes {a b c d : ℕ} (ha : a < 2 ^ 8) (hb : b < 2 ^ 8) (hc : c < 2 ^ 8) (hd : d < 2 ^ 8) :
    a * 2 ^ 24 % 2 ^ 32 ||| b * 2 ^ 16 % 2 ^ 32 ||| c * 2 ^ 8 % 2 ^ 32 ||| d =
      ((a * 256 + b) * 256 + c) * 256 + d := by
  rw [Nat.mod_eq_of_lt (by omega), Nat.mod_eq_of_lt (by omega), Nat.mod_eq_of_lt (by omega)]
  calc a * 2 ^ 24 ||| b * 2 ^ 16 ||| c * 2 ^ 8 ||| d
      = (a * 2 ^ 8 + b) * 2 ^ 16 ||| c * 2 ^ 8 ||| d := by
        rw [or_eq_add (by omega)]
        ring_nf
    _ = ((a * 2 ^ 8 + b) * 2 ^ 8 + c) * 2 ^ 8 ||| d := by
        rw [or_eq_add (by omega)]
        ring_nf
    _ = ((a * 256 + b) * 256 + c) * 256 + d := or_eq_add hd

/-- Four bytes put together by shifts. -/
theorem word_eq_natBE (a b c d : UInt8) :
    ((a.toUInt32 <<< 24) ||| (b.toUInt32 <<< 16) ||| (c.toUInt32 <<< 8) ||| d.toUInt32) =
      UInt32.ofNat (natBE [a, b, c, d]) := by
  have hbytes := or_bytes a.toNat_lt b.toNat_lt c.toNat_lt d.toNat_lt
  have hlt : natBE [a, b, c, d] < 2 ^ 32 := (natBE_lt [a, b, c, d]).trans_eq (by norm_num)
  apply UInt32.toNat_inj.mp
  rw [UInt32.toNat_ofNat', Nat.mod_eq_of_lt hlt]
  simp only [UInt32.toNat_or, UInt32.toNat_shiftLeft, UInt8.toNat_toUInt32, UInt32.reduceToNat,
    Nat.reduceMod, Nat.shiftLeft_eq, natBE, List.foldl_cons, List.foldl_nil, zero_mul, zero_add]
  exact hbytes

theorem toUInt8_shiftRight (x : UInt32) {k : ℕ} (hk : k < 32) :
    (x >>> UInt32.ofNat k).toUInt8 = UInt8.ofNat (x.toNat / 2 ^ k) := by
  apply UInt8.toNat_inj.mp
  rw [UInt32.toNat_toUInt8, UInt32.toNat_shiftRight, UInt32.toNat_ofNat',
    Nat.mod_eq_of_lt (a := k) (by omega), Nat.mod_eq_of_lt hk, Nat.shiftRight_eq_div_pow,
    UInt8.toNat_ofNat']

theorem storeWord_eq (x : UInt32) : storeWord x = bytesBE 4 x.toNat := by
  have hlow : x.toUInt8 = UInt8.ofNat (x.toNat / 256 ^ 0) := by
    rw [pow_zero, Nat.div_one]
    rfl
  have hshift₃ : (x >>> 24).toUInt8 = UInt8.ofNat (x.toNat / 256 ^ 3) := toUInt8_shiftRight x (by norm_num)
  have hshift₂ : (x >>> 16).toUInt8 = UInt8.ofNat (x.toNat / 256 ^ 2) := toUInt8_shiftRight x (by norm_num)
  have hshift₁ : (x >>> 8).toUInt8 = UInt8.ofNat (x.toNat / 256 ^ 1) := toUInt8_shiftRight x (by norm_num)
  rw [storeWord, hshift₃, hshift₂, hshift₁, hlow]
  rfl

theorem take_four {buf : Bytes} {i : ℕ} (h : i + 4 ≤ buf.length) :
    (buf.drop i).take 4 =
      [buf.getD i 0, buf.getD (i + 1) 0, buf.getD (i + 2) 0, buf.getD (i + 3) 0] := by
  have hbyte : ∀ j < buf.length, buf.drop j = buf.getD j 0 :: buf.drop (j + 1) := by
    intro j hj
    rw [List.drop_eq_getElem_cons hj, List.getD_eq_getElem?_getD, List.getElem?_eq_getElem hj]
    rfl
  rw [hbyte i (by omega), hbyte (i + 1) (by omega), hbyte (i + 2) (by omega),
    hbyte (i + 3) (by omega)]
  rfl

/-- The words that are loaded from a block are those of the block. -/
theorem loadWord_eq {buf : Bytes} {b k : ℕ} (hb : 64 * b + 64 ≤ buf.length) (hk : k < 16) :
    loadWord buf (64 * b + k * 4) =
      UInt32.ofNat (natBE ((((buf.drop (64 * b)).take 64).drop (4 * k)).take 4)) := by
  have hblock : (((buf.drop (64 * b)).take 64).drop (4 * k)).take 4 =
      (buf.drop (64 * b + k * 4)).take 4 := by
    rw [List.drop_take, List.take_take, List.drop_drop, mul_comm 4 k, min_eq_left (by omega)]
  rw [hblock, take_four (by omega)]
  exact word_eq_natBE _ _ _ _

end Words

section Schedule

/-- A loop that stores a value at each of the first indices. -/
theorem foldl_update {α : Type*} (v : ℕ → α) (w : ℕ → α) (n t : ℕ) :
    (List.range n).foldl (fun w i => Function.update w i (v i)) w t = if t < n then v t else w t := by
  induction n with
  | zero => rfl
  | succ n ih =>
    rw [List.range_succ, List.foldl_append, List.foldl_cons, List.foldl_nil]
    by_cases ht : t = n
    · subst ht
      rw [Function.update_self, if_pos (Nat.lt_succ_self t)]
    · rw [Function.update_of_ne ht, ih]
      have hiff : t < n ↔ t < n + 1 := by omega
      simp only [hiff]

/-- After `n` steps the second loop has the words of the schedule up to `16 + n`. -/
theorem expand_eq {words : List UInt32} (hwords : words.length = 16) {w : ℕ → UInt32}
    (hw : ∀ t < 16, w t = words.getD t 0) (n t : ℕ) (ht : t < 16 + n) :
    (List.range n).foldl
      (fun w n =>
        let i := n + 16
        Function.update w i (w (i - 3) ^^^ w (i - 8) ^^^ w (i - 14) ^^^ w (i - 16))) w t =
      (sha0Schedule words n).getD t 0 := by
  induction n generalizing t with
  | zero => exact hw t ht
  | succ n ih =>
    have hlength := sha0Schedule_length hwords n
    rw [List.range_succ, List.foldl_append, List.foldl_cons, List.foldl_nil, sha0Schedule]
    dsimp only
    by_cases hlast : t = n + 16
    · subst hlast
      rw [Function.update_self, ih _ (by omega), ih _ (by omega), ih _ (by omega), ih _ (by omega),
        List.getD_append_right _ _ _ _ (by omega), hlength]
      simp only [show n + 16 - (16 + n) = 0 by omega, Nat.reduceSubDiff, Nat.add_sub_cancel]
      rfl
    · rw [Function.update_of_ne hlast, ih t (by omega), List.getD_append _ _ _ _ (by omega)]

theorem sha0Words_length (block : Bytes) : (sha0Words block).length = 16 := by
  rw [sha0Words, List.length_map, List.length_range]

theorem fillSchedule_eq {buf : Bytes} {b : ℕ} (hb : 64 * b + 64 ≤ buf.length) (w : ℕ → UInt32)
    {t : ℕ} (ht : t < 80) :
    fillSchedule buf (64 * b) w t =
      (sha0Schedule (sha0Words ((buf.drop (64 * b)).take 64)) 64).getD t 0 := by
  apply expand_eq (sha0Words_length _) _ 64 t ht
  intro k hk
  rw [foldl_update, if_pos hk, loadWord_eq hb hk, sha0Words, List.getD_eq_getElem?_getD,
    List.getElem?_map, List.getElem?_range hk]
  rfl

end Schedule

section Blocks

variable {buf : Bytes}

theorem hashRound_eq {w : ℕ → UInt32} {words : List UInt32} {i : ℕ} (h : w i = words.getD i 0)
    (st : Sha1State) : hashRound w st i = sha0Round words st i := by
  rw [hashRound, h]
  rfl

theorem hashBlock_eq {b : ℕ} (hb : 64 * b + 64 ≤ buf.length) (st : Sha1State × (ℕ → UInt32)) :
    (hashBlock buf st (64 * b)).1 = sha0Block st.1 ((buf.drop (64 * b)).take 64) := by
  have hrounds : (List.range 80).foldl (hashRound (fillSchedule buf (64 * b) st.2)) st.1 =
      (List.range 80).foldl
        (sha0Round (sha0Schedule (sha0Words ((buf.drop (64 * b)).take 64)) 64)) st.1 := by
    apply List.foldl_ext
    intro st' i hi
    exact hashRound_eq (fillSchedule_eq hb st.2 (List.mem_range.mp hi)) st'
  simp only [hashBlock, sha0Block, hrounds]

theorem hashBlocks_eq {bs : List ℕ} (hbs : ∀ b ∈ bs, 64 * b + 64 ≤ buf.length)
    (st : Sha1State × (ℕ → UInt32)) :
    ((bs.map (64 * ·)).foldl (hashBlock buf) st).1 =
      (bs.map fun b => (buf.drop (64 * b)).take 64).foldl sha0Block st.1 := by
  induction bs generalizing st with
  | nil => rfl
  | cons b bs ih =>
    rw [List.map_cons, List.map_cons, List.foldl_cons, List.foldl_cons,
      ih (fun b hb => hbs b (List.mem_cons_of_mem _ hb)),
      hashBlock_eq (hbs b List.mem_cons_self)]

end Blocks

/-- With the memory it asks for, `sha0_hash` writes the SHA-0 of every message of a length below
`2 ^ 61`; the padded length is the least multiple of 64 that is at least `len + 9`, and the eight bytes
of the length field come after the message and the marker. -/
theorem sha0Hash_eq_sha0 (calloc : ℕ → Option Bytes) (w : ℕ → UInt32) (data : Bytes)
    (hdata : data.length < 2 ^ 61)
    (hcalloc : calloc (paddedSize data.length) =
      some (List.replicate (paddedSize data.length) 0)) :
    sha0Hash calloc w data = some (sha0 data) ∧
      paddedSize data.length % 64 = 0 ∧ data.length + 9 ≤ paddedSize data.length ∧
      (∀ m, m % 64 = 0 → data.length + 9 ≤ m → paddedSize data.length ≤ m) ∧
      ∀ i < 8, data.length < paddedSize data.length - 1 - i := by
  obtain ⟨hmultiple, hroom, hleast⟩ := paddedSize_least hdata
  refine ⟨?_, hmultiple, hroom, hleast, by omega⟩
  have hlength : (sha0Padded data).length = paddedSize data.length := by
    rw [sha0Padded_length, paddedSize_eq hdata]
  have hblocks : ∀ b ∈ List.range (paddedSize data.length / 64),
      64 * b + 64 ≤ (sha0Padded data).length := by
    intro b hb
    have hlt := List.mem_range.mp hb
    omega
  simp only [sha0Hash, hcalloc, paddedBuffer_eq hdata]
  rw [hashBlocks_eq hblocks, ← hlength, ← sha0Blocks]
  simp only [storeWord_eq]
  rfl

theorem sha0Hash_eq_sha0_abc :
    (ascii "abc").length < 2 ^ 61 ∧
      sha0Hash (fun n => some (List.replicate n 0)) (fun _ => 7) (ascii "abc") =
        some (sha0 (ascii "abc")) :=
  ⟨by decide, (sha0Hash_eq_sha0 (fun n => some (List.replicate n 0)) (fun _ => 7) (ascii "abc")
    (by decide) rfl).1⟩

end SoftEtherVpn.Crypto
