import SoftEtherVpn.Foundation.Bytes

/-!
# Reading from a stream in chunks

A blocking read of at most `n` bytes returns between one and `n` of the bytes that come
next, or fails. How much each call returns is up to the other side and is given by a
list: entry `k` bounds the `k`-th read, and a read fails when its bound is zero, when no
byte is left, or when the list has ended.
-/

namespace SoftEtherVpn.Foundation

structure ChunkedStream where
  bytes : Bytes
  chunks : List ℕ
  deriving DecidableEq

namespace ChunkedStream

/-- One read; `none` is an error or the end of the stream. -/
def read (s : ChunkedStream) (n : ℤ) : Option (Bytes × ChunkedStream) :=
  match s.chunks with
  | [] => none
  | c :: cs =>
    let m := min c (min n.toNat s.bytes.length)
    if m = 0 then none else some (s.bytes.take m, ⟨s.bytes.drop m, cs⟩)

variable {s s' : ChunkedStream} {n : ℤ} {d : Bytes}

theorem read_nonpos (hn : n ≤ 0) : s.read n = none := by
  unfold read
  cases s.chunks with
  | nil => rfl
  | cons c cs => simp [Int.toNat_of_nonpos hn]

/-- What a successful read does. -/
theorem read_eq_some (h : s.read n = some (d, s')) :
    1 ≤ d.length ∧ (d.length : ℤ) ≤ n ∧ s.bytes = d ++ s'.bytes ∧
      ∃ c, s.chunks = c :: s'.chunks ∧ d.length ≤ c := by
  unfold read at h
  cases hc : s.chunks with
  | nil => simp [hc] at h
  | cons c cs =>
    simp only [hc] at h
    split_ifs at h with hm
    obtain ⟨rfl, rfl⟩ := Prod.mk.inj (Option.some.inj h)
    simp only [List.length_take]
    refine ⟨by omega, by omega, (List.take_append_drop _ _).symm, c, rfl, by omega⟩

theorem read_chunks_length (h : s.read n = some (d, s')) :
    s'.chunks.length < s.chunks.length := by
  obtain ⟨-, -, -, c, hc, -⟩ := read_eq_some h
  simp [hc]

/-- Reads until exactly `n` bytes have arrived. -/
def readAll (s : ChunkedStream) (n : ℕ) : Option (Bytes × ChunkedStream) :=
  if n = 0 then some ([], s)
  else
    match _h : s.read n with
    | none => none
    | some (d, s') => (readAll s' (n - d.length)).map fun r => (d ++ r.1, r.2)
termination_by s.chunks.length
decreasing_by exact read_chunks_length _h

/-- A complete read takes exactly the next bytes. -/
theorem readAll_eq_some {n : ℕ} (h : s.readAll n = some (d, s')) :
    d.length = n ∧ s.bytes = d ++ s'.bytes := by
  induction s, n using ChunkedStream.readAll.induct generalizing d s' with
  | case1 s =>
    rw [readAll, if_pos rfl] at h
    cases h
    exact ⟨rfl, rfl⟩
  | case2 s n h0 hnone =>
    rw [readAll, if_neg h0] at h
    split at h
    · cases h
    · rename_i hsome
      rw [hnone] at hsome
      cases hsome
  | case3 s n h0 d₀ s₀ hsome ih =>
    obtain ⟨-, hle, hbytes, -⟩ := read_eq_some hsome
    rw [readAll, if_neg h0] at h
    split at h
    · cases h
    rename_i d₁ s₁ hsome₁
    rw [hsome] at hsome₁
    cases hsome₁
    obtain ⟨⟨d₂, s₂⟩, hrest, heq⟩ := Option.map_eq_some_iff.mp h
    cases heq
    obtain ⟨hlength, hrestBytes⟩ := ih hrest
    refine ⟨?_, ?_⟩
    · rw [List.length_append, hlength]
      omega
    · rw [hbytes, hrestBytes, List.append_assoc]

/-- How many bytes come before the first failing read, if no read is limited by what it
asks for. -/
def available (bytes : Bytes) : List ℕ → ℕ
  | [] => 0
  | c :: cs =>
    let m := min c bytes.length
    if m = 0 then 0 else m + available (bytes.drop m) cs

theorem available_cons (bytes : Bytes) (c : ℕ) (cs : List ℕ) :
    available bytes (c :: cs) =
      if min c bytes.length = 0 then 0
      else min c bytes.length + available (bytes.drop (min c bytes.length)) cs := rfl

/-- Nothing is available before a read that fails. -/
theorem available_of_read_none (hn : 1 ≤ n) (h : s.read n = none) :
    available s.bytes s.chunks = 0 := by
  unfold read at h
  cases hc : s.chunks with
  | nil => rfl
  | cons c cs =>
    simp only [hc] at h
    split_ifs at h with hm
    rw [available_cons, if_pos (by omega)]

/-- A read returns all it asked for, or everything up to the next read. -/
theorem available_of_read (h : s.read n = some (d, s')) :
    ((d.length : ℤ) = n ∧ d.length ≤ available s.bytes s.chunks) ∨
      available s.bytes s.chunks = d.length + available s'.bytes s'.chunks := by
  unfold read at h
  cases hc : s.chunks with
  | nil => simp [hc] at h
  | cons c cs =>
    simp only [hc] at h
    split_ifs at h with hm
    obtain ⟨rfl, rfl⟩ := Prod.mk.inj (Option.some.inj h)
    rw [available_cons, if_neg (by omega), List.length_take]
    rcases Nat.le_total (min c s.bytes.length) n.toNat with hle | hge
    · right
      have hmin : min c (min n.toNat s.bytes.length) = min c s.bytes.length := by omega
      rw [hmin, min_eq_left (min_le_right _ _)]
    · left
      constructor
      · omega
      · omega

/-- The next `n` bytes are there and no read fails before they have been taken. -/
structure Steady (s : ChunkedStream) (n : ℕ) : Prop where
  bytes : n ≤ s.bytes.length
  reads : n ≤ s.chunks.length
  nonzero : ∀ c ∈ s.chunks, c ≠ 0

theorem Steady.read {m k : ℕ} (h : s.Steady m) (hk : 1 ≤ k) (hm : k ≤ m) :
    ∃ d s', s.read k = some (d, s') ∧ s'.Steady (m - d.length) := by
  have hb := h.bytes
  cases hc : s.chunks with
  | nil =>
    have hr := h.reads
    rw [hc, List.length_nil] at hr
    omega
  | cons c cs =>
    have hc0 : c ≠ 0 := h.nonzero c (by simp [hc])
    have hr := h.reads
    rw [hc, List.length_cons] at hr
    simp only [ChunkedStream.read, hc, Int.toNat_natCast]
    rw [if_neg (by omega)]
    refine ⟨_, _, rfl, ?_, ?_, ?_⟩
    · simp only [List.length_drop, List.length_take]
      omega
    · simp only [List.length_take]
      omega
    · exact fun x hx => h.nonzero x (by simp [hc, hx])

/-- While the stream is steady, exactly the next bytes are read. -/
theorem Steady.readAll {m : ℕ} (s : ChunkedStream) (k : ℕ) (h : s.Steady m) (hk : k ≤ m) :
    ∃ s', s.readAll k = some (s.bytes.take k, s') ∧ s'.bytes = s.bytes.drop k ∧
      s'.Steady (m - k) := by
  induction s, k using ChunkedStream.readAll.induct generalizing m with
  | case1 s =>
    rw [ChunkedStream.readAll, if_pos rfl]
    exact ⟨s, rfl, rfl, h⟩
  | case2 s k h0 hnone =>
    obtain ⟨d, s', hsome, -⟩ := h.read (by omega) hk
    rw [hnone] at hsome
    cases hsome
  | case3 s k h0 d s' hsome ih =>
    obtain ⟨d', s'', hread, hsteady⟩ := h.read (by omega : 1 ≤ k) hk
    rw [hsome] at hread
    obtain ⟨rfl, rfl⟩ := Prod.mk.inj (Option.some.inj hread)
    obtain ⟨h1, hle, hbytes, -⟩ := read_eq_some hsome
    obtain ⟨v, hv, hvb, hvs⟩ := ih hsteady (by omega)
    have htake : d.take k = d := List.take_of_length_le (by omega)
    have hdrop : d.drop k = [] := List.drop_of_length_le (by omega)
    refine ⟨v, ?_, ?_, ?_⟩
    · rw [ChunkedStream.readAll, if_neg h0]
      split
      · rename_i hnone
        rw [hsome] at hnone
        cases hnone
      · rename_i d₁ s₁ hsome₁
        rw [hsome] at hsome₁
        obtain ⟨rfl, rfl⟩ := Prod.mk.inj (Option.some.inj hsome₁)
        rw [hv, Option.map_some, hbytes, List.take_append, htake]
    · rw [hvb, hbytes, List.drop_append, hdrop, List.nil_append]
    · have hsub : m - d.length - (k - d.length) = m - k := by omega
      rwa [hsub] at hvs

end ChunkedStream

end SoftEtherVpn.Foundation
