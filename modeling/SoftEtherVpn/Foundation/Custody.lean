import Mathlib.Algebra.Order.Group.Multiset
import Mathlib.Tactic

/-!
# Custody of tokens

A ledger hands out fresh tokens of several kinds, keeps the ones that are live and logs
every release. What the holders of a system claim to own is compared with the live
tokens as multisets: a difference is a leak. A token is released twice exactly when a
release is not covered by a live token.
-/

namespace SoftEtherVpn.Foundation

variable {K : Type*}

structure Ledger (K : Type*) where
  next : ℕ
  live : Multiset (K × ℕ)
  released : List (K × ℕ)

namespace Ledger

def empty : Ledger K := ⟨0, 0, []⟩

/-- Acquires the token `(k, L.next)`. -/
def acquire (L : Ledger K) (k : K) : Ledger K :=
  { L with next := L.next + 1, live := (k, L.next) ::ₘ L.live }

@[simp] theorem acquire_live (L : Ledger K) (k : K) :
    (L.acquire k).live = (k, L.next) ::ₘ L.live := rfl

@[simp] theorem acquire_next (L : Ledger K) (k : K) : (L.acquire k).next = L.next + 1 := rfl

@[simp] theorem acquire_released (L : Ledger K) (k : K) :
    (L.acquire k).released = L.released := rfl

/-- Live tokens are distinct and were handed out before. -/
structure Fresh (L : Ledger K) : Prop where
  nodup : L.live.Nodup
  bound : ∀ r ∈ L.live, r.2 < L.next

/-- On top of it, no token has been released twice and a released token is gone. -/
structure Sound (L : Ledger K) : Prop extends Fresh L where
  once : L.released.Nodup
  gone : ∀ r ∈ L.released, r ∉ L.live ∧ r.2 < L.next

theorem Fresh.next_notMem {L : Ledger K} (h : L.Fresh) (k : K) : (k, L.next) ∉ L.live := by
  intro hmem
  exact lt_irrefl _ (h.bound _ hmem)

theorem Fresh.acquire {L : Ledger K} (h : L.Fresh) (k : K) : (L.acquire k).Fresh where
  nodup := Multiset.nodup_cons.mpr ⟨h.next_notMem k, h.nodup⟩
  bound := by
    intro r hr
    rcases Multiset.mem_cons.mp hr with rfl | hr
    · exact Nat.lt_succ_self _
    · exact Nat.lt_succ_of_lt (h.bound r hr)

theorem Sound.acquire {L : Ledger K} (h : L.Sound) (k : K) : (L.acquire k).Sound where
  toFresh := h.toFresh.acquire k
  once := h.once
  gone := by
    intro r hr
    obtain ⟨hlive, hlt⟩ := h.gone r hr
    refine ⟨?_, Nat.lt_succ_of_lt hlt⟩
    intro hmem
    rcases Multiset.mem_cons.mp hmem with rfl | hmem
    · exact lt_irrefl _ hlt
    · exact hlive hmem

/-- One holder's share goes from `h` to `h'`; what the others hold stays as it is, and no
token is released that the holder did not have. -/
def Transfers (L : Ledger K) (h : Multiset (K × ℕ)) (L' : Ledger K) (h' : Multiset (K × ℕ)) :
    Prop :=
  ∀ X, L.live = X + h → L'.live = X + h' ∧ (L.Fresh → L'.Fresh) ∧ (L.Sound → L'.Sound) ∧
    L.released <+: L'.released

theorem Transfers.refl (L : Ledger K) (h : Multiset (K × ℕ)) : L.Transfers h L h :=
  fun _ hX => ⟨hX, id, id, List.prefix_rfl⟩

theorem Transfers.trans {L L' L'' : Ledger K} {h h' h'' : Multiset (K × ℕ)}
    (h₁ : L.Transfers h L' h') (h₂ : L'.Transfers h' L'' h'') : L.Transfers h L'' h'' := by
  intro X hX
  obtain ⟨hlive, hfresh, hsound, hlog⟩ := h₁ X hX
  obtain ⟨hlive', hfresh', hsound', hlog'⟩ := h₂ X hlive
  exact ⟨hlive', hfresh' ∘ hfresh, hsound' ∘ hsound, hlog.trans hlog'⟩

/-- The holder may keep more than the step is about. -/
theorem Transfers.frame {L L' : Ledger K} {h h' : Multiset (K × ℕ)}
    (ht : L.Transfers h L' h') (k : Multiset (K × ℕ)) : L.Transfers (k + h) L' (k + h') := by
  intro X hX
  rw [← add_assoc] at hX ⊢
  exact ht (X + k) hX

theorem Transfers.acquire (L : Ledger K) (k : K) : L.Transfers 0 (L.acquire k) {(k, L.next)} := by
  intro X hX
  refine ⟨?_, fun h => h.acquire k, fun h => h.acquire k, List.prefix_rfl⟩
  rw [acquire_live, hX, add_zero, add_comm, Multiset.singleton_add]

/-- A holder that gets new tokens may drop any part of what it then has. -/
theorem Transfers.drop [DecidableEq K] {L L' : Ledger K} {h h' new : Multiset (K × ℕ)}
    (ht : L.Transfers 0 L' new) (hle : h' ≤ h + new) : ∃ d, L.Transfers h L' (d + h') := by
  refine ⟨h + new - h', ?_⟩
  rw [tsub_add_cancel_of_le hle]
  have hframe := ht.frame h
  rwa [add_zero] at hframe

/-- With the live tokens split into a base, orphans and a holder's share: the step adds what
the holder drops to the orphans, and there are none afterwards exactly when there were none
before and none was dropped. -/
theorem Transfers.orphans {L L' : Ledger K} {h h' base orphans dropped : Multiset (K × ℕ)}
    (ht : L.Transfers h L' (dropped + h')) (hlive : L.live = base + orphans + h) :
    L'.live = base + (orphans + dropped) + h' ∧
      (L'.live = base + h' ↔ L.live = base + h ∧ dropped = 0) := by
  have hlive' : L'.live = base + (orphans + dropped) + h' := by
    rw [(ht _ hlive).1]
    abel
  refine ⟨hlive', ?_⟩
  rw [hlive', hlive, add_left_inj, add_left_inj, add_eq_left, add_eq_left, add_eq_zero]

variable [DecidableEq K]

def release (L : Ledger K) (r : K × ℕ) : Ledger K :=
  { L with live := L.live.erase r, released := L.released ++ [r] }

def releaseAll (L : Ledger K) (rs : List (K × ℕ)) : Ledger K :=
  rs.foldl release L

@[simp] theorem releaseAll_nil (L : Ledger K) : L.releaseAll [] = L := rfl

@[simp] theorem releaseAll_live (L : Ledger K) (rs : List (K × ℕ)) :
    (L.releaseAll rs).live = L.live - (rs : Multiset (K × ℕ)) := by
  induction rs generalizing L with
  | nil => simp
  | cons r rs ih =>
    change ((L.release r).releaseAll rs).live = _
    rw [ih, ← Multiset.cons_coe, Multiset.sub_cons]
    rfl

@[simp] theorem releaseAll_next (L : Ledger K) (rs : List (K × ℕ)) :
    (L.releaseAll rs).next = L.next := by
  induction rs generalizing L with
  | nil => rfl
  | cons r rs ih => exact ih (L.release r)

@[simp] theorem releaseAll_released (L : Ledger K) (rs : List (K × ℕ)) :
    (L.releaseAll rs).released = L.released ++ rs := by
  induction rs generalizing L with
  | nil => simp
  | cons r rs ih =>
    change ((L.release r).releaseAll rs).released = _
    rw [ih]
    simp [release]

theorem Fresh.releaseAll {L : Ledger K} (h : L.Fresh) (rs : List (K × ℕ)) :
    (L.releaseAll rs).Fresh where
  nodup := by
    rw [releaseAll_live]
    exact Multiset.nodup_of_le tsub_le_self h.nodup
  bound := by
    intro r hr
    rw [releaseAll_live] at hr
    rw [releaseAll_next]
    exact h.bound r (Multiset.mem_of_le tsub_le_self hr)

/-- Releasing tokens that are all live keeps the log free of repetitions. -/
theorem Sound.releaseAll {L : Ledger K} (h : L.Sound) {rs : List (K × ℕ)}
    (hle : (rs : Multiset (K × ℕ)) ≤ L.live) : (L.releaseAll rs).Sound where
  toFresh := h.toFresh.releaseAll rs
  once := by
    rw [releaseAll_released]
    refine List.nodup_append'.mpr ⟨h.once, ?_, ?_⟩
    · exact Multiset.coe_nodup.mp (Multiset.nodup_of_le hle h.nodup)
    · intro r hr hrs
      exact (h.gone r hr).1 (Multiset.mem_of_le hle (Multiset.mem_coe.mpr hrs))
  gone := by
    intro r hr
    rw [releaseAll_released, List.mem_append] at hr
    rw [releaseAll_live, releaseAll_next]
    rcases hr with hr | hr
    · obtain ⟨hlive, hlt⟩ := h.gone r hr
      exact ⟨fun hmem => hlive (Multiset.mem_of_le tsub_le_self hmem), hlt⟩
    · have hmem : r ∈ L.live := Multiset.mem_of_le hle (Multiset.mem_coe.mpr hr)
      refine ⟨?_, h.bound r hmem⟩
      rw [Multiset.mem_sub, not_lt]
      calc L.live.count r ≤ 1 := Multiset.nodup_iff_count_le_one.mp h.nodup r
        _ ≤ (rs : Multiset (K × ℕ)).count r :=
          Multiset.one_le_count_iff_mem.mpr (Multiset.mem_coe.mpr hr)

theorem Transfers.releaseAll (L : Ledger K) (rs : List (K × ℕ)) :
    L.Transfers rs (L.releaseAll rs) 0 := by
  intro X hX
  refine ⟨?_, fun h => h.releaseAll rs, fun h => h.releaseAll ?_, ?_⟩
  · rw [releaseAll_live, hX, add_tsub_cancel_right, add_zero]
  · rw [hX]
    exact le_add_self
  · rw [releaseAll_released]
    exact List.prefix_append _ _

end Ledger

end SoftEtherVpn.Foundation
