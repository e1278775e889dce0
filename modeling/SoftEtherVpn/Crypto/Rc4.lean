import SoftEtherVpn.Foundation.Keystream
import SoftEtherVpn.Foundation.Runs
import SoftEtherVpn.Rudp.Wire

/-!
# RC4

`rc4_crypt` with its table as an array and its indices as machine integers: an access outside the
table makes a step fail. No step fails, because the table stays a permutation of the bytes and the
indices are masked, and the result is the one of the cipher on the wire.
-/

namespace SoftEtherVpn.Crypto

open Foundation

/-- `sbox`, `i` and `j`. -/
structure Rc4State where
  sbox : Bytes
  i : ℕ
  j : ℕ

def identityTable : Bytes := (List.range 256).map UInt8.ofNat

/-- The three assignments that exchange `sbox[i]` and `sbox[j]`. -/
def exchange (sbox : Bytes) (i j : ℕ) : Option Bytes := do
  let tmp ← sbox[i]?
  let other ← sbox[j]?
  some ((sbox.set i other).set j tmp)

/-- A round of the key scheduling. -/
def scheduleRound (key : Bytes) (st : Bytes × ℕ) (i : ℕ) : Option (Bytes × ℕ) := do
  let entry ← st.1[i]?
  let k ← key[i % key.length]?
  let j := (st.2 + entry.toNat + k.toNat) &&& 0xFF
  let sbox ← exchange st.1 i j
  some (sbox, j)

/-- The state after the key scheduling. -/
def rc4Scheduled (key : Bytes) : Option Rc4State := do
  let st ← exec (scheduleRound key) (identityTable, 0) (List.range 256)
  some ⟨st.1, 0, 0⟩

/-- A round of the output loop: the byte that is added to the data. -/
def rc4Next (st : Rc4State) : Option (UInt8 × Rc4State) := do
  let i := (st.i + 1) &&& 0xFF
  let entry ← st.sbox[i]?
  let j := (st.j + entry.toNat) &&& 0xFF
  let sbox ← exchange st.sbox i j
  let a ← sbox[i]?
  let b ← sbox[j]?
  let k ← sbox[(a.toNat + b.toNat) &&& 0xFF]?
  some (k, ⟨sbox, i, j⟩)

def rc4Crypt (key data : Bytes) : Option Bytes :=
  if key = [] then some data
  else do
    let st ← rc4Scheduled key
    let (out, _) ← mask rc4Next st data
    some out

/-- The table is a permutation of the bytes, and the indices are in its range. -/
structure Rc4State.Valid (st : Rc4State) : Prop where
  perm : st.sbox.Perm identityTable
  i_lt : st.i < 256
  j_lt : st.j < 256

section Table

variable {sbox : Bytes}

theorem and_byte (n : ℕ) : n &&& 0xFF = n % 256 :=
  Nat.and_two_pow_sub_one_eq_mod n 8

theorem and_byte_lt (n : ℕ) : n &&& 0xFF < 256 := by
  rw [and_byte]
  exact Nat.mod_lt _ (by norm_num)

theorem length_of_perm (h : sbox.Perm identityTable) : sbox.length = 256 := by
  rw [h.length_eq, identityTable, List.length_map, List.length_range]

theorem exists_entry (h : sbox.Perm identityTable) {i : ℕ} (hi : i < 256) :
    ∃ entry, sbox[i]? = some entry := by
  have hlt : i < sbox.length := by rwa [length_of_perm h]
  exact ⟨_, List.getElem?_eq_getElem hlt⟩

/-- An exchange, also of an entry with itself, permutes the table. -/
theorem exchange_perm (h : sbox.Perm identityTable) {i j : ℕ} (hi : i < 256) (hj : j < 256) :
    ∃ sbox', exchange sbox i j = some sbox' ∧ sbox'.Perm identityTable := by
  have hilt : i < sbox.length := by rwa [length_of_perm h]
  have hjlt : j < sbox.length := by rwa [length_of_perm h]
  refine ⟨(sbox.set i sbox[j]).set j sbox[i], ?_, (List.set_set_perm hilt hjlt).trans h⟩
  simp only [exchange, List.getElem?_eq_getElem hilt, List.getElem?_eq_getElem hjlt]
  rfl

end Table

theorem scheduleRound_perm {key : Bytes} (hkey : key ≠ []) (st : Bytes × ℕ) {i : ℕ} (hi : i < 256)
    (h : st.1.Perm identityTable) :
    ∃ st', scheduleRound key st i = some st' ∧ st'.1.Perm identityTable := by
  obtain ⟨entry, hentry⟩ := exists_entry h hi
  have hlt : i % key.length < key.length := Nat.mod_lt _ (List.length_pos_of_ne_nil hkey)
  have hbyte := List.getElem?_eq_getElem hlt
  obtain ⟨sbox, hexchange, hperm⟩ :=
    exchange_perm h hi (and_byte_lt (st.2 + entry.toNat + key[i % key.length].toNat))
  refine ⟨(sbox, (st.2 + entry.toNat + key[i % key.length].toNat) &&& 0xFF), ?_, hperm⟩
  simp only [scheduleRound, hentry, hbyte, Option.bind_eq_bind, Option.bind_some, hexchange]

theorem rc4Scheduled_valid {key : Bytes} (hkey : key ≠ []) :
    ∃ st, rc4Scheduled key = some st ∧ st.Valid := by
  have hround : ∀ st, ∀ i ∈ List.range 256, st.1.Perm identityTable →
      ∃ st', scheduleRound key st i = some st' ∧ st'.1.Perm identityTable :=
    fun st i hi h => scheduleRound_perm hkey st (List.mem_range.mp hi) h
  obtain ⟨st, hst, hperm⟩ := exec_isSome (s := (identityTable, 0)) hround (List.Perm.refl _)
  refine ⟨⟨st.1, 0, 0⟩, ?_, hperm, by norm_num, by norm_num⟩
  rw [rc4Scheduled, hst]
  rfl

theorem rc4Next_valid (st : Rc4State) (h : st.Valid) :
    ∃ k st', rc4Next st = some (k, st') ∧ st'.Valid := by
  obtain ⟨entry, hentry⟩ := exists_entry h.perm (and_byte_lt (st.i + 1))
  obtain ⟨sbox, hexchange, hperm⟩ :=
    exchange_perm h.perm (and_byte_lt (st.i + 1)) (and_byte_lt (st.j + entry.toNat))
  obtain ⟨a, ha⟩ := exists_entry hperm (and_byte_lt (st.i + 1))
  obtain ⟨b, hb⟩ := exists_entry hperm (and_byte_lt (st.j + entry.toNat))
  obtain ⟨k, hk⟩ := exists_entry hperm (and_byte_lt (a.toNat + b.toNat))
  refine ⟨k, ⟨sbox, (st.i + 1) &&& 0xFF, (st.j + entry.toNat) &&& 0xFF⟩, ?_, hperm,
    and_byte_lt _, and_byte_lt _⟩
  simp only [rc4Next, hentry, Option.bind_eq_bind, Option.bind_some, hexchange, ha, hb, hk]

theorem rc4Crypt_eq_mask {key : Bytes} (hkey : key ≠ []) {st st' : Rc4State}
    (hst : rc4Scheduled key = some st) {data out : Bytes}
    (h : mask rc4Next st data = some (out, st')) : rc4Crypt key data = some out := by
  simp only [rc4Crypt, if_neg hkey, hst, Option.bind_eq_bind, Option.bind_some, h]

/-- The table is a permutation of the bytes after the key scheduling and after every byte, no access
leaves it, a second run restores the data, and the result for a part of the data is a part of the
result. -/
theorem rc4Crypt_streamCipher (key : Bytes) (hkey : key ≠ []) :
    (∃ st, rc4Scheduled key = some st ∧ st.Valid ∧
      ∀ data, ∃ out st', mask rc4Next st data = some (out, st') ∧ st'.Valid) ∧
    (∀ data, ∃ out, rc4Crypt key data = some out ∧ out.length = data.length ∧
      rc4Crypt key out = some data) ∧
    ∀ x y, ∃ out out', rc4Crypt key x = some out ∧ rc4Crypt key (x ++ y) = some out' ∧
      out'.take x.length = out := by
  obtain ⟨st, hst, hvalid⟩ := rc4Scheduled_valid hkey
  have hmask := fun data => mask_isSome rc4Next_valid hvalid data
  refine ⟨⟨st, hst, hvalid, fun data => ?_⟩, fun data => ?_, fun x y => ?_⟩
  · obtain ⟨out, st', hout, -, hvalid'⟩ := hmask data
    exact ⟨out, st', hout, hvalid'⟩
  · obtain ⟨out, st', hout, hlength, -⟩ := hmask data
    refine ⟨out, rc4Crypt_eq_mask hkey hst hout, hlength, ?_⟩
    exact rc4Crypt_eq_mask hkey hst (mask_mask hout)
  · obtain ⟨out, st', hout, hlength, hvalid'⟩ := hmask x
    obtain ⟨rest, st'', hrest, -, -⟩ := mask_isSome rc4Next_valid hvalid' y
    refine ⟨out, out ++ rest, rc4Crypt_eq_mask hkey hst hout, ?_, List.take_left' hlength⟩
    exact rc4Crypt_eq_mask hkey hst (mask_append hout hrest)

theorem rc4Crypt_streamCipher_key :
    ([0x4B, 0x65, 0x79] : Bytes) ≠ [] ∧
      ∃ out, rc4Crypt [0x4B, 0x65, 0x79] (ascii "Plaintext") = some out ∧ out.length = 9 ∧
        rc4Crypt [0x4B, 0x65, 0x79] out = some (ascii "Plaintext") :=
  ⟨by decide, (rc4Crypt_streamCipher [0x4B, 0x65, 0x79] (by decide)).2.1 (ascii "Plaintext")⟩

/-!
## The cipher on the wire
-/

section Wire

variable (s : Rudp.Sbox) (i j : UInt8)

theorem toList_lookup : s.toList[i.toNat]? = some (s.lookup i) := by
  rw [List.getElem?_eq_getElem (by simpa using i.toNat_lt)]
  rfl

theorem exchange_toList : exchange s.toList i.toNat j.toNat = some (s.swap i j).toList := by
  simp only [exchange, toList_lookup, Rudp.Sbox.swap, Option.bind_eq_bind, Option.bind_some,
    Vector.toList_set]

theorem and_byte_add (a b : UInt8) : (a.toNat + b.toNat) &&& 0xFF = (a + b).toNat := by
  rw [and_byte, UInt8.toNat_add]

theorem rc4Next_toList :
    rc4Next ⟨s.toList, i.toNat, j.toNat⟩ =
      let i := i + 1
      let j := j + s.lookup i
      let s := s.swap i j
      some (s.lookup (s.lookup i + s.lookup j), ⟨s.toList, i.toNat, j.toNat⟩) := by
  have hone : (i.toNat + 1) &&& 0xFF = (i + 1).toNat := and_byte_add i 1
  simp only [rc4Next, hone, toList_lookup, and_byte_add, exchange_toList, Option.bind_eq_bind,
    Option.bind_some]

theorem mask_toList (data : Bytes) :
    ∃ st, mask rc4Next ⟨s.toList, i.toNat, j.toNat⟩ data = some (Rudp.rc4Loop s i j data, st) := by
  induction data generalizing s i j with
  | nil => exact ⟨_, rfl⟩
  | cons d ds ih =>
    obtain ⟨st, hst⟩ := ih (s.swap (i + 1) (j + s.lookup (i + 1))) (i + 1) (j + s.lookup (i + 1))
    exact ⟨st, mask_cons.mpr ⟨_, _, _, rc4Next_toList s i j, hst, rfl⟩⟩

theorem scheduleRound_toList {key : Bytes} (hkey : key ≠ []) {n : ℕ} (hn : n < 256) :
    scheduleRound key (s.toList, j.toNat) n =
      let j := j + s.lookup (UInt8.ofNat n) + key.getD (n % key.length) 0
      some ((s.swap (UInt8.ofNat n) j).toList, j.toNat) := by
  have hlt : n % key.length < key.length := Nat.mod_lt _ (List.length_pos_of_ne_nil hkey)
  have hbyte : key[n % key.length]? = some (key.getD (n % key.length) 0) := by
    rw [List.getD_eq_getElem?_getD, List.getElem?_eq_getElem hlt]
    rfl
  obtain ⟨i, rfl⟩ : ∃ i : UInt8, n = i.toNat :=
    ⟨UInt8.ofNat n, by rw [UInt8.toNat_ofNat', Nat.mod_eq_of_lt hn]⟩
  have hsum : (j.toNat + (s.lookup i).toNat + (key.getD (i.toNat % key.length) 0).toNat) &&& 0xFF =
      (j + s.lookup i + key.getD (i.toNat % key.length) 0).toNat := by
    rw [and_byte, UInt8.toNat_add, UInt8.toNat_add, Nat.mod_add_mod]
  simp only [scheduleRound, toList_lookup, hbyte, Option.bind_eq_bind, Option.bind_some, hsum,
    exchange_toList, UInt8.ofNat_toNat]

/-- The key scheduling of the wire model, from any table on. -/
theorem exec_scheduleRound {key : Bytes} (hkey : key ≠ []) (is : List ℕ) (his : ∀ n ∈ is, n < 256) :
    ∃ j', exec (scheduleRound key) (s.toList, j.toNat) is =
      some ((is.foldl
        (fun (st : Rudp.Sbox × UInt8) i =>
          let j := st.2 + st.1.lookup (UInt8.ofNat i) + key.getD (i % key.length) 0
          (st.1.swap (UInt8.ofNat i) j, j)) (s, j)).1.toList, j') := by
  induction is generalizing s j with
  | nil => exact ⟨_, rfl⟩
  | cons n is ih =>
    obtain ⟨j', hrest⟩ := ih _ _ fun n hn => his n (List.mem_cons_of_mem _ hn)
    exact ⟨j', exec_cons_eq_some.mpr
      ⟨_, scheduleRound_toList s j hkey (his n List.mem_cons_self), hrest⟩⟩

end Wire

theorem rc4Scheduled_eq {key : Bytes} (hkey : key ≠ []) :
    rc4Scheduled key = some ⟨(Rudp.rc4Schedule key).toList, 0, 0⟩ := by
  have hstart : identityTable = (Vector.ofFn fun i => UInt8.ofNat i : Rudp.Sbox).toList := by
    decide +kernel
  obtain ⟨j', hrounds⟩ := exec_scheduleRound (Vector.ofFn fun i => UInt8.ofNat i) 0 hkey
    (List.range 256) fun n hn => List.mem_range.mp hn
  rw [UInt8.toNat_zero, ← hstart] at hrounds
  simp only [rc4Scheduled, hrounds, Option.bind_eq_bind, Option.bind_some, Rudp.rc4Schedule]

/-- The cipher that the packet codecs are built on is `rc4_crypt`. -/
theorem rc4Crypt_eq_wire (key data : Bytes) : rc4Crypt key data = some (Rudp.rc4Crypt key data) := by
  by_cases hkey : key = []
  · rw [rc4Crypt, Rudp.rc4Crypt, if_pos hkey, if_pos hkey]
  · obtain ⟨st, hst⟩ := mask_toList (Rudp.rc4Schedule key) 0 0 data
    rw [Rudp.rc4Crypt, if_neg hkey]
    exact rc4Crypt_eq_mask hkey (rc4Scheduled_eq hkey) hst

end SoftEtherVpn.Crypto
