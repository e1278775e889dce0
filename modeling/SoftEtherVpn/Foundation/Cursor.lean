import SoftEtherVpn.Foundation.Bytes
import SoftEtherVpn.Foundation.Ring

/-!
# Writing into a block of memory

A cursor is a block and a write position in it. A write that does not fit has no result, so
a sequence of writes with a result has stayed inside the block. `Writes` says which bytes
such a sequence appends; it composes in sequence and over a loop.
-/

namespace SoftEtherVpn.Foundation

theorem splice_take {α : Type*} (buf bytes : List α) {off : ℕ} (h : off ≤ buf.length) :
    (splice buf off bytes).take (off + bytes.length) = buf.take off ++ bytes := by
  apply List.take_left'
  rw [List.length_append, List.length_take_of_le h]

/-- Overwriting the front, seen through a prefix of the block. -/
theorem splice_zero_take {α : Type*} (buf : List α) {bytes : List α} {n : ℕ}
    (h : bytes.length ≤ n) :
    (splice buf 0 bytes).take n = bytes ++ (buf.take n).drop bytes.length := by
  rw [splice, List.take_zero, List.nil_append, zero_add, List.take_append,
    List.take_of_length_le h, List.drop_take]

structure Cursor where
  data : Bytes
  pos : ℕ

namespace Cursor

/-- Copy the bytes to the position and move it behind them. -/
def put (bytes : Bytes) (c : Cursor) : Option Cursor :=
  if c.pos + bytes.length ≤ c.data.length then
    some ⟨splice c.data c.pos bytes, c.pos + bytes.length⟩
  else none

/-- Two writes one behind the other are one write, also where they do not fit. -/
theorem put_put (bs bs' : Bytes) (c : Cursor) :
    (c.put bs >>= fun c => c.put bs') = c.put (bs ++ bs') := by
  unfold put
  by_cases hboth : c.pos + (bs ++ bs').length ≤ c.data.length
  · rw [List.length_append] at hboth
    have hfirst : c.pos + bs.length ≤ c.data.length := by omega
    have hsecond : c.pos + bs.length + bs'.length ≤ (splice c.data c.pos bs).length := by
      rw [splice_length hfirst]
      omega
    have hjoin : splice (splice c.data c.pos bs) (c.pos + bs.length) bs' =
        splice c.data c.pos (bs ++ bs') := by
      apply List.ext_getElem?
      intro i
      rw [splice_getElem? hsecond, splice_getElem? hfirst,
        splice_getElem? (by rw [List.length_append]; omega), List.getElem?_append,
        List.length_append]
      split_ifs <;> first | omega | rfl | (congr 1; omega)
    rw [if_pos hfirst, if_pos (by rw [List.length_append]; omega), ← hjoin, List.length_append,
      ← Nat.add_assoc]
    exact if_pos hsecond
  · rw [if_neg hboth]
    rw [List.length_append] at hboth
    by_cases hfirst : c.pos + bs.length ≤ c.data.length
    · rw [if_pos hfirst]
      have hsecond : ¬c.pos + bs.length + bs'.length ≤ (splice c.data c.pos bs).length := by
        rw [splice_length hfirst]
        omega
      simp [hsecond]
    · rw [if_neg hfirst]
      rfl

theorem put_bind_put {β : Type} (bs bs' : Bytes) (c : Cursor) (next : Cursor → Option β) :
    (c.put bs >>= fun c => c.put bs' >>= next) = c.put (bs ++ bs') >>= next := by
  rw [← put_put]
  cases c.put bs <;> rfl

/-- A write at the start of a block. -/
theorem put_start {bytes data : Bytes} (hroom : bytes.length ≤ data.length) :
    put bytes ⟨data, 0⟩ = some ⟨bytes ++ data.drop bytes.length, bytes.length⟩ := by
  rw [put, if_pos (by simpa using hroom)]
  simp [splice]

/-- What a write at the start of a block leaves there. -/
theorem put_start_take {bytes data : Bytes} {n : ℕ} (hroom : bytes.length ≤ data.length)
    (hn : n = bytes.length) :
    (put bytes ⟨data, 0⟩ >>= fun c => some (c.data.take n)) = some bytes := by
  have htake := splice_take data bytes (Nat.zero_le data.length)
  rw [zero_add, List.take_zero, List.nil_append] at htake
  rw [put, if_pos (by simpa using hroom), hn]
  exact congrArg some htake

/-- Move the position without a write. -/
def skip (n : ℕ) (c : Cursor) : Option Cursor :=
  if c.pos + n ≤ c.data.length then some ⟨c.data, c.pos + n⟩ else none

/-- The position is in the block, and behind it the block is as `calloc` has cleared it. -/
structure Cleared (c : Cursor) : Prop where
  inBlock : c.pos ≤ c.data.length
  clear : c.data.drop c.pos = List.replicate (c.data.length - c.pos) 0

theorem cleared_replicate (n : ℕ) : Cleared ⟨List.replicate n 0, 0⟩ := by
  constructor <;> simp

theorem Cleared.skip_eq {c : Cursor} (h : c.Cleared) (n : ℕ) :
    c.skip n = c.put (List.replicate n 0) := by
  unfold skip put
  rw [List.length_replicate]
  split_ifs with hroom
  · have htail : c.data.drop c.pos = List.replicate n 0 ++ c.data.drop (c.pos + n) := by
      rw [← List.drop_drop, h.clear, List.drop_replicate, List.replicate_append_replicate]
      congr 1
      omega
    have hsplice : splice c.data c.pos (List.replicate n 0) = c.data := by
      rw [splice, List.length_replicate, List.append_assoc, ← htail, List.take_append_drop]
    rw [hsplice]
  · rfl

theorem Cleared.put {c c' : Cursor} (h : c.Cleared) {bytes : Bytes}
    (hput : c.put bytes = some c') : c'.Cleared := by
  have hin := h.inBlock
  unfold Cursor.put at hput
  split_ifs at hput with hroom
  cases hput
  have hlength : (splice c.data c.pos bytes).length = c.data.length := splice_length hroom
  have htail : (splice c.data c.pos bytes).drop (c.pos + bytes.length) =
      c.data.drop (c.pos + bytes.length) := by
    rw [splice]
    apply List.drop_left'
    rw [List.length_append, List.length_take_of_le hin]
  refine ⟨hroom.trans_eq hlength.symm, ?_⟩
  dsimp only
  rw [htail, hlength, ← List.drop_drop, h.clear, List.drop_replicate]
  congr 1
  omega

theorem Cleared.put_bind_skip {c : Cursor} (h : c.Cleared) (bytes : Bytes) (n : ℕ) :
    (c.put bytes >>= fun c => c.skip n) = c.put (bytes ++ List.replicate n 0) := by
  rw [← put_put]
  cases hput : c.put bytes with
  | none => rfl
  | some c' => exact (h.put hput).skip_eq n

theorem put_nil {c : Cursor} (h : c.pos ≤ c.data.length) : c.put [] = some c := by
  rw [put, if_pos (by simpa using h)]
  simp [splice]

/-- Writers that each write their bytes into a cleared block together write all of them. -/
theorem Cleared.foldlM_eq {α : Type*} {write : α → Cursor → Option Cursor} {enc : α → Bytes}
    (hwrite : ∀ a c, Cleared c → write a c = c.put (enc a)) (as : List α) {c : Cursor}
    (h : c.Cleared) : as.foldlM (fun c a => write a c) c = c.put (as.flatMap enc) := by
  induction as generalizing c with
  | nil => exact (put_nil h.inBlock).symm
  | cons a as ih =>
    rw [List.foldlM_cons, List.flatMap_cons, ← put_put, hwrite a c h]
    cases hput : c.put (enc a) with
    | none => rfl
    | some c' => exact ih (h.put hput)

/-- The bytes before the position. -/
def written (c : Cursor) : Bytes := c.data.take c.pos

/-- `c'` is `c` with `bytes` written. -/
structure Extends (c : Cursor) (bytes : Bytes) (c' : Cursor) : Prop where
  pos : c'.pos = c.pos + bytes.length
  block : c'.data.length = c.data.length
  written : c'.written = c.written ++ bytes

/-- `write` writes `bytes` wherever there is room for them. -/
def Writes (write : Cursor → Option Cursor) (bytes : Bytes) : Prop :=
  ∀ c : Cursor, c.pos + bytes.length ≤ c.data.length →
    ∃ c', write c = some c' ∧ c.Extends bytes c'

theorem writes_nil : Writes some [] :=
  fun c _ => ⟨c, rfl, rfl, rfl, (List.append_nil _).symm⟩

theorem writes_put (bytes : Bytes) : Writes (put bytes) bytes := by
  intro c hroom
  refine ⟨_, if_pos hroom, rfl, splice_length hroom, splice_take _ _ ?_⟩
  omega

theorem Writes.andThen {f g : Cursor → Option Cursor} {bs bs' : Bytes}
    (hf : Writes f bs) (hg : Writes g bs') : Writes (fun c => f c >>= g) (bs ++ bs') := by
  intro c hroom
  rw [List.length_append] at hroom
  obtain ⟨c1, hc1, hext1⟩ := hf c (by omega)
  have hpos := hext1.pos
  have hblock := hext1.block
  obtain ⟨c2, hc2, hext2⟩ := hg c1 (by omega)
  refine ⟨c2, ?_, ?_, hext2.block.trans hblock, ?_⟩
  · simp only [hc1]
    exact hc2
  · rw [hext2.pos, hpos, List.length_append]
    omega
  · rw [hext2.written, hext1.written, List.append_assoc]

/-- A loop over a list writes what its rounds write. -/
theorem writes_foldlM {α : Type*} {f : α → Cursor → Option Cursor} {enc : α → Bytes}
    (hf : ∀ a, Writes (f a) (enc a)) (as : List α) :
    Writes (fun c => as.foldlM (fun c a => f a c) c) (as.flatMap enc) := by
  induction as with
  | nil => exact writes_nil
  | cons a as ih => exact (hf a).andThen ih

end Cursor

end SoftEtherVpn.Foundation
