import SoftEtherVpn.Foundation.Bytes

/-!
# One's complement sums

Addition of 16-bit words with the carry added back at the low end is addition modulo `65535`, with
zero only for a sum of zeros. Reading the words in the other byte order multiplies the sum by `256`
modulo `65535`, so that a checksum is right in both orders or in none.
-/

namespace SoftEtherVpn.Foundation

inductive ByteOrder
  | big
  | little
  deriving DecidableEq

namespace ByteOrder

def word : ByteOrder → UInt8 → UInt8 → ℕ
  | big, a, b => a.toNat * 256 + b.toNat
  | little, a, b => b.toNat * 256 + a.toNat

/-- The two bytes of a word in memory. -/
def bytes : ByteOrder → ℕ → Bytes
  | big, w => [UInt8.ofNat (w / 256), UInt8.ofNat w]
  | little, w => [UInt8.ofNat w, UInt8.ofNat (w / 256)]

theorem word_lt (o : ByteOrder) (a b : UInt8) : o.word a b < 65536 := by
  have ha := a.toNat_lt
  have hb := b.toNat_lt
  cases o <;> simp only [word] <;> omega

/-- What a change of the order multiplies a word by, modulo `65535`. -/
def factor (o o' : ByteOrder) : ℕ := if o = o' then 1 else 256

theorem exchanged_modEq (a b : ℕ) : b * 256 + a ≡ 256 * (a * 256 + b) [MOD 65535] := by
  have hsplit : 256 * (a * 256 + b) = b * 256 + a + 65535 * a := by ring
  rw [hsplit]
  exact (Nat.add_mul_mod_self_left _ _ _).symm

theorem word_factor (o o' : ByteOrder) (a b : UInt8) :
    o'.word a b ≡ factor o o' * o.word a b [MOD 65535] := by
  by_cases h : o = o'
  · rw [factor, if_pos h, one_mul, h]
  · rw [factor, if_neg h]
    cases o <;> cases o'
    · exact absurd rfl h
    · exact exchanged_modEq _ _
    · exact exchanged_modEq _ _
    · exact absurd rfl h

theorem word_eq_zero (o o' : ByteOrder) {a b : UInt8} (h : o'.word a b = 0) : o.word a b = 0 := by
  have hbytes : a.toNat = 0 ∧ b.toNat = 0 := by
    cases o' <;> simpa [word, and_comm] using h
  cases o <;> rw [word, hbytes.1, hbytes.2]

end ByteOrder

/-- The words of a byte string, the last one filled up with a zero byte. -/
def words (o : ByteOrder) : Bytes → List ℕ
  | [] => []
  | [a] => [o.word a 0]
  | a :: b :: rest => o.word a b :: words o rest

/-- Addition with the carry added back. -/
def onesAdd (a b : ℕ) : ℕ := if a + b < 65536 then a + b else a + b - 65535

def onesSum (ws : List ℕ) : ℕ := ws.foldl onesAdd 0

/-- `f` is a 16-bit word that is congruent to `s`, and zero if `s` is. -/
structure Folds (s f : ℕ) : Prop where
  lt : f < 65536
  modEq : f ≡ s [MOD 65535]
  zero : f = 0 ↔ s = 0

section Words

variable (o : ByteOrder)

theorem words_append {xs : Bytes} (h : xs.length % 2 = 0) (ys : Bytes) :
    words o (xs ++ ys) = words o xs ++ words o ys := by
  induction xs using words.induct with
  | case1 => rfl
  | case2 a => simp at h
  | case3 a b rest ih =>
    simp only [List.length_cons] at h
    rw [List.cons_append, List.cons_append, words, words, ih (by omega), List.cons_append]

theorem words_lt (bs : Bytes) : ∀ w ∈ words o bs, w < 65536 := by
  induction bs using words.induct with
  | case1 => simp [words]
  | case2 a => simpa [words] using o.word_lt a 0
  | case3 a b rest ih => simpa [words, o.word_lt a b] using ih

theorem words_sum_le (bs : Bytes) : (words o bs).sum ≤ 65535 * (bs.length + 1) := by
  induction bs using words.induct with
  | case1 => simp [words]
  | case2 a =>
    have hword := o.word_lt a 0
    simp only [words, List.sum_singleton, List.length_singleton]
    omega
  | case3 a b rest ih =>
    have hword := o.word_lt a b
    simp only [words, List.sum_cons, List.length_cons]
    omega

theorem words_sum_factor (o' : ByteOrder) (bs : Bytes) :
    (words o' bs).sum ≡ o.factor o' * (words o bs).sum [MOD 65535] := by
  induction bs using words.induct with
  | case1 => exact Nat.ModEq.refl 0
  | case2 a => simpa [words] using o.word_factor o' a 0
  | case3 a b rest ih =>
    rw [words, words, List.sum_cons, List.sum_cons, mul_add]
    exact (o.word_factor o' a b).add ih

theorem words_sum_eq_zero (o' : ByteOrder) (bs : Bytes) (h : (words o' bs).sum = 0) :
    (words o bs).sum = 0 := by
  induction bs using words.induct with
  | case1 => rfl
  | case2 a =>
    simp only [words, List.sum_singleton] at h ⊢
    exact o.word_eq_zero o' h
  | case3 a b rest ih =>
    simp only [words, List.sum_cons, Nat.add_eq_zero_iff] at h ⊢
    exact ⟨o.word_eq_zero o' h.1, ih h.2⟩

end Words

/-- Adding two words that fold sums. -/
theorem Folds.add {s t f g : ℕ} (hf : Folds s f) (hg : Folds t g) :
    Folds (s + t) (onesAdd f g) := by
  have hlt := hf.lt
  have hlt' := hg.lt
  have hmod := hf.modEq.add hg.modEq
  have hzero := hf.zero
  have hzero' := hg.zero
  constructor
  · rw [onesAdd]
    split_ifs <;> omega
  · rw [onesAdd]
    split_ifs with h
    · exact hmod
    · have hcarry : f + g - 65535 ≡ f + g [MOD 65535] := by
        rw [Nat.ModEq]
        omega
      exact hcarry.trans hmod
  · rw [onesAdd]
    split_ifs <;> omega

theorem folds_self {w : ℕ} (h : w < 65536) : Folds w w :=
  ⟨h, Nat.ModEq.refl w, Iff.rfl⟩

theorem onesSum_folds {ws : List ℕ} (h : ∀ w ∈ ws, w < 65536) : Folds ws.sum (onesSum ws) := by
  have hloop : ∀ (s f : ℕ), Folds s f → Folds (s + ws.sum) (ws.foldl onesAdd f) := by
    induction ws with
    | nil =>
      intro s f hf
      exact hf
    | cons w ws ih =>
      intro s f hf
      rw [List.sum_cons, ← add_assoc, List.foldl_cons]
      exact ih (fun w hw => h w (List.mem_cons_of_mem _ hw)) _ _
        (hf.add (folds_self (h w List.mem_cons_self)))
  have hsum := hloop 0 0 (folds_self (by norm_num))
  rwa [zero_add] at hsum

theorem onesSum_eq_iff {ws : List ℕ} (h : ∀ w ∈ ws, w < 65536) :
    onesSum ws = 0xFFFF ↔ 0 < ws.sum ∧ ws.sum ≡ 0 [MOD 65535] := by
  obtain ⟨hlt, hmod, hzero⟩ := onesSum_folds h
  rw [Nat.ModEq] at hmod ⊢
  omega

/-- Whether the sum of a byte string is all ones does not depend on the order in which its words are
read. -/
theorem onesSum_words_other {o o' : ByteOrder} {bs : Bytes} (h : onesSum (words o bs) = 0xFFFF) :
    onesSum (words o' bs) = 0xFFFF := by
  obtain ⟨hpos, hmod⟩ := (onesSum_eq_iff (words_lt o bs)).mp h
  apply (onesSum_eq_iff (words_lt o' bs)).mpr
  constructor
  · by_contra hzero
    have hsum := words_sum_eq_zero o o' bs (by omega)
    omega
  · exact (words_sum_factor o o' bs).trans (hmod.mul_left _)

/-- A word that complements the fold of the rest completes the sum. -/
theorem Folds.complement {s f : ℕ} (h : Folds s f) :
    0 < 0xFFFF - f + s ∧ 0xFFFF - f + s ≡ 0 [MOD 65535] := by
  obtain ⟨hlt, hmod, hzero⟩ := h
  rw [Nat.ModEq] at hmod ⊢
  omega

theorem words_bytes (o : ByteOrder) {w : ℕ} (h : w < 65536) (rest : Bytes) :
    words o (o.bytes w ++ rest) = w :: words o rest := by
  cases o
  all_goals
    simp only [ByteOrder.bytes, List.cons_append, List.nil_append, words, ByteOrder.word,
      UInt8.toNat_ofNat']
    congr 1
    omega

/-- The complement of the fold of a byte string with a zero field, stored in that field. -/
theorem onesSum_stored (o : ByteOrder) (before : Bytes) (hbefore : before.length % 2 = 0)
    {after : Bytes} {f : ℕ} (h : Folds (words o (before ++ ([0, 0] ++ after))).sum f) :
    onesSum (words o (before ++ (o.bytes (0xFFFF - f) ++ after))) = 0xFFFF := by
  have hzero : words o ([0, 0] ++ after) = 0 :: words o after := by
    cases o <;> rfl
  have hstored := words_bytes o (w := 0xFFFF - f) (by omega) after
  obtain ⟨hpos, hmod⟩ := h.complement
  rw [words_append o hbefore, hzero, List.sum_append, List.sum_cons, zero_add] at hpos hmod
  apply (onesSum_eq_iff (words_lt o _)).mpr
  have hsum : (words o (before ++ (o.bytes (0xFFFF - f) ++ after))).sum =
      0xFFFF - f + ((words o before).sum + (words o after).sum) := by
    rw [words_append o hbefore, hstored, List.sum_append, List.sum_cons]
    ring
  rw [hsum]
  exact ⟨hpos, hmod⟩

end SoftEtherVpn.Foundation
