import Mathlib.Tactic

/-!
# Timers with backoff

A timer fires when it is polled and its time has come, and is then armed for an interval that
depends on how often it has fired. Polled within a stretch of time only, it fires a bounded number
of times, however often and in whatever order it is polled.
-/

namespace SoftEtherVpn.Foundation

/-- The due time, zero before the first firing, and the number of firings. -/
structure Backoff where
  due : ℕ
  fired : ℕ

namespace Backoff

variable {interval : ℕ → ℕ} {lo hi now k : ℕ} {b : Backoff}

def poll (interval : ℕ → ℕ) (now : ℕ) (b : Backoff) : Backoff :=
  if b.due ≠ 0 ∧ now < b.due then b else ⟨now + interval b.fired, b.fired + 1⟩

/-- All firings were at times from `lo` up to before `hi`. -/
def Within (interval : ℕ → ℕ) (lo hi : ℕ) (b : Backoff) : Prop :=
  (b.due = 0 ∧ b.fired = 0) ∨
    (0 < b.fired ∧ lo + ∑ i ∈ Finset.range b.fired, interval i ≤ b.due ∧
      b.due < hi + interval (b.fired - 1))

theorem Within.poll (h : b.Within interval lo hi) (hlo : lo ≤ now) (hhi : now < hi) :
    (b.poll interval now).Within interval lo hi := by
  unfold Backoff.poll
  split_ifs with hwait
  · exact h
  · right
    refine ⟨Nat.succ_pos _, ?_, Nat.add_lt_add_right hhi _⟩
    rw [Finset.sum_range_succ, ← Nat.add_assoc]
    apply Nat.add_le_add_right
    rcases h with ⟨-, hfired⟩ | ⟨-, hle, -⟩
    · simpa [hfired] using hlo
    · omega

/-- The intervals between the firings fit between the first and the last one. -/
theorem Within.fired_le (h : b.Within interval lo hi)
    (hk : hi ≤ lo + ∑ i ∈ Finset.range k, interval i) : b.fired ≤ k := by
  rcases h with ⟨-, hfired⟩ | ⟨hpos, hle, hlt⟩
  · omega
  · obtain ⟨n, hn⟩ := Nat.exists_eq_succ_of_ne_zero hpos.ne'
    rw [hn, Finset.sum_range_succ] at hle
    rw [hn, Nat.succ_sub_one] at hlt
    by_contra hgt
    have hsub : ∑ i ∈ Finset.range k, interval i ≤ ∑ i ∈ Finset.range n, interval i := by
      apply Finset.sum_le_sum_of_subset
      exact Finset.range_subset_range.mpr (by omega)
    omega

end Backoff

end SoftEtherVpn.Foundation
