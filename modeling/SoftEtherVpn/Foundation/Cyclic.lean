import Mathlib.Data.Int.CardIntervalMod
import Mathlib.Data.List.Perm.Basic
import Mathlib.Tactic

/-!
# Going round a list

`cyclic as i m` are `m` elements of a list in order, from position `i` on and again from the front
after the last one. Every element of a list without duplicates occurs `m / as.length` times or once
more.
-/

namespace SoftEtherVpn.Foundation

variable {α : Type*}

def cyclic (as : List α) : ℕ → ℕ → List α
  | _, 0 => []
  | i, m + 1 => as[i % as.length]?.toList ++ cyclic as (i + 1) m

theorem cyclic_congr (as : List α) {i j : ℕ} (h : i ≡ j [MOD as.length]) (m : ℕ) :
    cyclic as i m = cyclic as j m := by
  induction m generalizing i j with
  | zero => rfl
  | succ m ih =>
    have hmod : i % as.length = j % as.length := h
    rw [cyclic, cyclic, hmod, ih (h.add_right 1)]

theorem cyclic_subset (as : List α) (i m : ℕ) : cyclic as i m ⊆ as := by
  induction m generalizing i with
  | zero => exact List.nil_subset _
  | succ m ih =>
    rw [cyclic, List.append_subset]
    constructor
    · intro a ha
      exact List.mem_of_getElem? (Option.mem_toList.mp ha)
    · exact ih (i + 1)

theorem cyclic_length {as : List α} (hne : as ≠ []) (i m : ℕ) : (cyclic as i m).length = m := by
  induction m generalizing i with
  | zero => rfl
  | succ m ih =>
    have hlt : i % as.length < as.length := Nat.mod_lt _ (List.length_pos_of_ne_nil hne)
    rw [cyclic, List.length_append, ih, List.getElem?_eq_getElem hlt, Option.toList_some,
      List.length_singleton, Nat.add_comm]

theorem cyclic_add (as : List α) (i m n : ℕ) :
    cyclic as i (m + n) = cyclic as i m ++ cyclic as (i + m) n := by
  induction m generalizing i with
  | zero => rw [Nat.zero_add, cyclic, List.nil_append, Nat.add_zero]
  | succ m ih =>
    rw [Nat.add_right_comm, cyclic, cyclic, ih, List.append_assoc, Nat.add_assoc i,
      Nat.add_comm 1 m]

variable [BEq α] [LawfulBEq α] {as : List α}

/-- An element occurs as often as its position comes up. -/
theorem cyclic_count (hnodup : as.Nodup) {k : ℕ} {a : α} (ha : as[k]? = some a) (i m : ℕ) :
    (cyclic as i m).count a = m.count fun j => (i + j) % as.length = k := by
  have hk : k < as.length := (List.getElem?_eq_some_iff.mp ha).choose
  induction m generalizing i with
  | zero => rfl
  | succ m ih =>
    have hlt : i % as.length < as.length := Nat.mod_lt _ (by omega)
    have hcell := List.getElem?_eq_getElem hlt
    have hone : ([as[i % as.length]] : List α).count a = if i % as.length = k then 1 else 0 := by
      rw [List.count_singleton]
      congr 1
      rw [beq_iff_eq, eq_iff_iff]
      constructor
      · intro heq
        exact (List.getElem?_inj hlt hnodup).mp (by rw [hcell, ha, heq])
      · rintro rfl
        rw [hcell] at ha
        exact Option.some.inj ha
    rw [cyclic, List.count_append, hcell, Option.toList_some, hone, ih, Nat.count_succ', add_comm]
    simp only [add_zero, Nat.add_right_comm i 1, Nat.add_assoc]

theorem count_mod_eq (n i m : ℕ) {k : ℕ} (hk : k < n) :
    ∃ v, (m.count fun j => (i + j) % n = k) = m / n + if v < m % n then 1 else 0 := by
  have hn : 0 < n := by omega
  use (k + (n - i % n)) % n
  rw [← Nat.count_modEq_card m hn]
  have hback : i + (k + (n - i % n)) ≡ k [MOD n] := by
    have hmod := Nat.mod_lt i hn
    have hsplit : i + (k + (n - i % n)) = k + n * (i / n + 1) := by
      have hdiv := Nat.div_add_mod i n
      rw [mul_add, mul_one]
      omega
    rw [hsplit]
    exact Nat.add_mul_mod_self_left k n _
  congr 1
  ext j
  constructor
  · intro hj
    have hmod : i + j ≡ k [MOD n] := by
      rw [Nat.ModEq, hj, Nat.mod_eq_of_lt hk]
    exact Nat.ModEq.add_left_cancel' i (hmod.trans hback.symm)
  · intro hj
    have hmod : i + j ≡ k [MOD n] := (hj.add_left i).trans hback
    rw [Nat.ModEq, Nat.mod_eq_of_lt hk] at hmod
    exact hmod

/-- Between two elements the difference is at most one. -/
theorem cyclic_count_le (hnodup : as.Nodup) {a b : α} (ha : a ∈ as) (hb : b ∈ as) (i m : ℕ) :
    (cyclic as i m).count a ≤ (cyclic as i m).count b + 1 := by
  obtain ⟨k, hk, rfl⟩ := List.getElem_of_mem ha
  obtain ⟨l, hl, rfl⟩ := List.getElem_of_mem hb
  obtain ⟨v, hv⟩ := count_mod_eq as.length i m hk
  obtain ⟨w, hw⟩ := count_mod_eq as.length i m hl
  rw [cyclic_count hnodup (List.getElem?_eq_getElem hk),
    cyclic_count hnodup (List.getElem?_eq_getElem hl), hv, hw]
  split_ifs <;> omega

/-- Once round the list, from wherever it starts. -/
theorem cyclic_perm (hnodup : as.Nodup) (i : ℕ) : (cyclic as i as.length).Perm as := by
  rw [List.perm_iff_count]
  intro a
  by_cases ha : a ∈ as
  · rw [List.count_eq_one_of_mem hnodup ha]
    obtain ⟨k, hk, rfl⟩ := List.getElem_of_mem ha
    obtain ⟨v, hv⟩ := count_mod_eq as.length i as.length hk
    rw [cyclic_count hnodup (List.getElem?_eq_getElem hk), hv, Nat.mod_self,
      Nat.div_self (by omega), if_neg (Nat.not_lt_zero v)]
  · rw [List.count_eq_zero_of_not_mem ha]
    apply List.count_eq_zero_of_not_mem
    intro hcyclic
    exact ha (cyclic_subset as i _ hcyclic)

end SoftEtherVpn.Foundation
