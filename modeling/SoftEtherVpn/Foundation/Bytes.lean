import Mathlib.Tactic

/-!
# Byte strings and machine integers

Fixed-width big-endian encodings of naturals, with the round trip in both
directions that the wire formats need: encoding truncates to the width, decoding
an encoded value returns it modulo `256 ^ width`. Signed 32-bit values are integers
behind a conversion that wraps.
-/

namespace SoftEtherVpn.Foundation

abbrev Bytes := List UInt8

/-- The bytes of a string of ASCII characters. -/
def ascii (s : String) : Bytes := s.toList.map fun ch => UInt8.ofNat ch.toNat

/-- The `w` big-endian bytes of `n`; higher bits are dropped. -/
def bytesBE : ℕ → ℕ → Bytes
  | 0, _ => []
  | w + 1, n => UInt8.ofNat (n / 256 ^ w) :: bytesBE w n

/-- The natural with the given big-endian bytes. -/
def natBE (bs : Bytes) : ℕ := bs.foldl (fun acc b => acc * 256 + b.toNat) 0

@[simp] theorem bytesBE_length (w n : ℕ) : (bytesBE w n).length = w := by
  induction w with
  | zero => rfl
  | succ w ih => simp [bytesBE, ih]

/-- The encoding reads no more than the residue modulo `256 ^ k`, for every `k` from `w` on. -/
theorem bytesBE_mod_of_le {w k : ℕ} (n : ℕ) (h : w ≤ k) : bytesBE w (n % 256 ^ k) = bytesBE w n := by
  induction w with
  | zero => rfl
  | succ w ih =>
    have hpow : 256 ^ k = 256 ^ w * 256 ^ (k - w) := by
      rw [← pow_add]
      congr 1
      omega
    have hdvd : 256 ∣ 256 ^ (k - w) := dvd_pow_self 256 (by omega)
    have hbyte : UInt8.ofNat (n % 256 ^ k / 256 ^ w) = UInt8.ofNat (n / 256 ^ w) := by
      apply UInt8.toNat_inj.mp
      rw [hpow, Nat.mod_mul_right_div_self, UInt8.toNat_ofNat', UInt8.toNat_ofNat',
        Nat.mod_mod_of_dvd _ (by simpa using hdvd)]
    rw [bytesBE, bytesBE, hbyte, ih (by omega)]

theorem bytesBE_mod (w n : ℕ) : bytesBE w (n % 256 ^ w) = bytesBE w n :=
  bytesBE_mod_of_le n le_rfl

theorem natBE_foldl (bs : Bytes) (acc : ℕ) :
    bs.foldl (fun acc b => acc * 256 + b.toNat) acc = acc * 256 ^ bs.length + natBE bs := by
  induction bs generalizing acc with
  | nil => simp [natBE]
  | cons b bs ih =>
    simp only [natBE, List.foldl_cons, List.length_cons] at ih ⊢
    rw [ih, ih (0 * 256 + b.toNat)]
    ring

theorem natBE_cons (b : UInt8) (bs : Bytes) :
    natBE (b :: bs) = b.toNat * 256 ^ bs.length + natBE bs := by
  simpa [natBE] using natBE_foldl bs b.toNat

theorem natBE_lt (bs : Bytes) : natBE bs < 256 ^ bs.length := by
  induction bs with
  | nil => simp [natBE]
  | cons b bs ih =>
    have hb : b.toNat < 256 := b.toNat_lt
    rw [natBE_cons, List.length_cons, pow_succ]
    nlinarith

theorem natBE_bytesBE (w n : ℕ) : natBE (bytesBE w n) = n % 256 ^ w := by
  induction w with
  | zero => simp [bytesBE, natBE, Nat.mod_one]
  | succ w ih =>
    have hb : (UInt8.ofNat (n / 256 ^ w)).toNat = n / 256 ^ w % 256 := by simp
    rw [bytesBE, natBE_cons, ih, hb, bytesBE_length, Nat.pow_succ, Nat.mod_mul]
    ring

theorem natBE_bytesBE_of_lt {w n : ℕ} (h : n < 256 ^ w) : natBE (bytesBE w n) = n := by
  rw [natBE_bytesBE, Nat.mod_eq_of_lt h]

theorem bytesBE_natBE (bs : Bytes) : bytesBE bs.length (natBE bs) = bs := by
  induction bs with
  | nil => rfl
  | cons b bs ih =>
    have hlt := natBE_lt bs
    have hpos : 0 < 256 ^ bs.length := Nat.pow_pos (by norm_num)
    have hdiv : natBE (b :: bs) / 256 ^ bs.length = b.toNat := by
      rw [natBE_cons, mul_comm, Nat.mul_add_div hpos, Nat.div_eq_of_lt hlt, add_zero]
    have hmod : natBE (b :: bs) % 256 ^ bs.length = natBE bs := by
      rw [natBE_cons, mul_comm, Nat.mul_add_mod, Nat.mod_eq_of_lt hlt]
    rw [List.length_cons, bytesBE, hdiv, UInt8.ofNat_toNat, ← bytesBE_mod, hmod, ih]

/-- Reads a `w`-byte big-endian field and returns it with the bytes behind it. -/
def readBE (w : ℕ) (bs : Bytes) : Option (ℕ × Bytes) :=
  if bs.length < w then none else some (natBE (bs.take w), bs.drop w)

theorem readBE_bytesBE (w n : ℕ) (rest : Bytes) :
    readBE w (bytesBE w n ++ rest) = some (n % 256 ^ w, rest) := by
  simp [readBE, natBE_bytesBE, List.take_left', List.drop_left']

theorem readBE_of_short {w : ℕ} {bs : Bytes} (h : bs.length < w) : readBE w bs = none := by
  simp [readBE, h]

/-- Conversion to a signed 32-bit integer. -/
def int32 (x : ℤ) : ℤ := Int.bmod x (2 ^ 32)

theorem int32_of_lt {x : ℤ} (h0 : 0 ≤ x) (h : x < 2 ^ 31) : int32 x = x := by
  rw [int32, Int.bmod_def]
  split_ifs <;> omega

theorem int32_of_ge {x : ℤ} (h0 : 2 ^ 31 ≤ x) (h : x < 2 ^ 32) : int32 x = x - 2 ^ 32 := by
  rw [int32, Int.bmod_def]
  split_ifs <;> omega

end SoftEtherVpn.Foundation
