import SoftEtherVpn.Foundation.Bytes

/-!
# Stream ciphers

A generator makes a byte and its next state, or fails; a stream cipher adds the bytes that it makes
to the data. What it adds does not depend on the data.
-/

namespace SoftEtherVpn.Foundation

variable {σ : Type*} {next : σ → Option (UInt8 × σ)}

def mask (next : σ → Option (UInt8 × σ)) : σ → Bytes → Option (Bytes × σ)
  | s, [] => some ([], s)
  | s, d :: ds => do
    let (k, s) ← next s
    let (out, s) ← mask next s ds
    some ((d ^^^ k) :: out, s)

theorem mask_cons {s t : σ} {d : UInt8} {ds out : Bytes} :
    mask next s (d :: ds) = some (out, t) ↔
      ∃ k s' rest, next s = some (k, s') ∧ mask next s' ds = some (rest, t) ∧
        out = (d ^^^ k) :: rest := by
  simp only [mask, Option.bind_eq_bind, Option.bind_eq_some_iff, Option.some.injEq, Prod.exists,
    Prod.mk.injEq]
  constructor
  · rintro ⟨k, s', hk, rest, t', hrest, rfl, rfl⟩
    exact ⟨k, s', rest, hk, hrest, rfl⟩
  · rintro ⟨k, s', rest, hk, hrest, rfl⟩
    exact ⟨k, s', hk, rest, t, hrest, rfl, rfl⟩

/-- While the generator keeps an invariant under which it does not fail, any data is masked. -/
theorem mask_isSome {I : σ → Prop} (hnext : ∀ s, I s → ∃ k s', next s = some (k, s') ∧ I s')
    {s : σ} (hs : I s) (data : Bytes) :
    ∃ out t, mask next s data = some (out, t) ∧ out.length = data.length ∧ I t := by
  induction data generalizing s with
  | nil => exact ⟨[], s, rfl, rfl, hs⟩
  | cons d ds ih =>
    obtain ⟨k, s', hk, hs'⟩ := hnext s hs
    obtain ⟨out, t, hout, hlength, ht⟩ := ih hs'
    refine ⟨(d ^^^ k) :: out, t, mask_cons.mpr ⟨k, s', out, hk, hout, rfl⟩, ?_, ht⟩
    rw [List.length_cons, List.length_cons, hlength]

theorem mask_mask {s t : σ} {data out : Bytes} (h : mask next s data = some (out, t)) :
    mask next s out = some (data, t) := by
  induction data generalizing s out with
  | nil =>
    cases h
    rfl
  | cons d ds ih =>
    obtain ⟨k, s', rest, hk, hrest, rfl⟩ := mask_cons.mp h
    apply mask_cons.mpr
    refine ⟨k, s', ds, hk, ih hrest, ?_⟩
    rw [UInt8.xor_assoc, UInt8.xor_self, UInt8.xor_zero]

theorem mask_append {s t u : σ} {x y out out' : Bytes} (hx : mask next s x = some (out, t))
    (hy : mask next t y = some (out', u)) : mask next s (x ++ y) = some (out ++ out', u) := by
  induction x generalizing s out with
  | nil =>
    cases hx
    exact hy
  | cons d ds ih =>
    obtain ⟨k, s', rest, hk, hrest, rfl⟩ := mask_cons.mp hx
    exact mask_cons.mpr ⟨k, s', rest ++ out', hk, ih hrest, rfl⟩

end SoftEtherVpn.Foundation
