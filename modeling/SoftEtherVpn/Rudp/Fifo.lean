import SoftEtherVpn.Foundation.Bytes
import SoftEtherVpn.Foundation.Ring

/-!
# The byte FIFO of the R-UDP transport

`rt_fifo_t` is a ring buffer whose offsets are 32-bit. The wrap of `head + size`
at `2 ^ 32` is kept in the definitions; it disappears for capacities of at most
`2 ^ 31`, in particular for the `RUDP_T_MAX_FIFO_SIZE` both session FIFOs have.
Under that bound the FIFO is a queue of at most `cap` bytes.
-/

namespace SoftEtherVpn.Rudp

open Foundation

/-- An allocated `rt_fifo_t`; its well-formedness is part of the value. -/
structure RtFifo (cap : ℕ) where
  buf : Bytes
  head : ℕ
  size : ℕ
  buf_length : buf.length = cap
  head_lt : head < cap
  size_le : size ≤ cap

namespace RtFifo

variable {cap : ℕ}

/-- `rt_fifo_init` after a successful `malloc`: `mem` is the uninitialised memory. -/
def init (mem : Bytes) (h : 0 < mem.length) : RtFifo mem.length where
  buf := mem
  head := 0
  size := 0
  buf_length := rfl
  head_lt := h
  size_le := Nat.zero_le _

def contents (f : RtFifo cap) : Bytes := ringContents f.buf f.head f.size

@[simp] theorem contents_length (f : RtFifo cap) : f.contents.length = f.size :=
  ringContents_length (by rw [f.buf_length]; exact f.size_le)

end RtFifo

variable {cap : ℕ}

def rtFifoAvail (f : RtFifo cap) : ℕ := cap - f.size

/-- Physical offset `n` cells behind the head, in 32-bit arithmetic. -/
def RtFifo.offset (f : RtFifo cap) (n : ℕ) : ℕ := (f.head + n) % 2 ^ 32 % cap

theorem RtFifo.offset_lt (f : RtFifo cap) (n : ℕ) : f.offset n < cap :=
  Nat.mod_lt _ (by have := f.head_lt; omega)

theorem RtFifo.offset_eq (hcap : cap ≤ 2 ^ 31) (f : RtFifo cap) {n : ℕ} (hn : n ≤ cap) :
    f.offset n = (f.head + n) % cap := by
  have := f.head_lt
  rw [RtFifo.offset, Nat.mod_eq_of_lt (by omega : f.head + n < 2 ^ 32)]

/-- `none` is the `-1` return: too little room, nothing written. -/
def rtFifoWrite (f : RtFifo cap) (data : Bytes) : Option (RtFifo cap) :=
  if h : data.length > rtFifoAvail f then none
  else some
    { buf := ringWrite f.buf (f.offset f.size) data
      head := f.head
      size := f.size + data.length
      buf_length := by
        have hs := f.size_le
        unfold rtFifoAvail at h
        rw [ringWrite_length, f.buf_length]
        · rw [f.buf_length]
          exact f.offset_lt _
        · rw [f.buf_length]
          omega
      head_lt := f.head_lt
      size_le := by
        have hs := f.size_le
        unfold rtFifoAvail at h
        omega }

/-- The copied bytes; their number is the return value. -/
def rtFifoPeek (f : RtFifo cap) (len : ℕ) : Bytes := ringRead f.buf f.head (min len f.size)

def rtFifoAdvance (f : RtFifo cap) (len : ℕ) : RtFifo cap :=
  { f with
    head := f.offset (min len f.size)
    size := f.size - min len f.size
    head_lt := f.offset_lt _
    size_le := (Nat.sub_le _ _).trans f.size_le }

theorem rtFifoWrite_eq_none {f : RtFifo cap} {data : Bytes} :
    rtFifoWrite f data = none ↔ rtFifoAvail f < data.length := by
  unfold rtFifoWrite
  split_ifs with h <;> simp only [true_iff, false_iff] <;> omega

theorem rtFifoWrite_isSome {f : RtFifo cap} {data : Bytes} (h : data.length ≤ rtFifoAvail f) :
    ∃ g, rtFifoWrite f data = some g := by
  rw [← Option.ne_none_iff_exists', ne_eq, rtFifoWrite_eq_none]
  omega

/-- A successful write appends. -/
theorem rtFifoWrite_contents (hcap : cap ≤ 2 ^ 31) {f g : RtFifo cap} {data : Bytes}
    (h : rtFifoWrite f data = some g) : g.contents = f.contents ++ data := by
  unfold rtFifoWrite at h
  split_ifs at h with hfit
  obtain rfl := Option.some.inj h
  have hs := f.size_le
  have hb := f.buf_length
  unfold rtFifoAvail at hfit
  have hoff : f.offset f.size = (f.head + f.size) % f.buf.length := by
    rw [hb]
    exact f.offset_eq hcap hs
  simp only [RtFifo.contents, hoff]
  exact ringContents_write (by rw [hb]; exact f.head_lt) (by rw [hb]; omega)

theorem rtFifoWrite_size {f g : RtFifo cap} {data : Bytes} (h : rtFifoWrite f data = some g) :
    g.size = f.size + data.length := by
  unfold rtFifoWrite at h
  split_ifs at h
  obtain rfl := Option.some.inj h
  rfl

theorem rtFifoPeek_eq (f : RtFifo cap) (len : ℕ) : rtFifoPeek f len = f.contents.take len := by
  have hb := f.buf_length
  rw [rtFifoPeek, RtFifo.contents, ringRead_eq_take (by rw [hb]; exact f.head_lt)
    (by rw [hb]; exact f.size_le) (Nat.min_le_right _ _)]
  rcases Nat.le_total len f.size with h | h
  · rw [min_eq_left h]
  · rw [min_eq_right h, List.take_of_length_le, List.take_of_length_le]
    · exact f.contents_length.trans_le h
    · exact f.contents_length.le

theorem rtFifoAdvance_contents (hcap : cap ≤ 2 ^ 31) (f : RtFifo cap) (len : ℕ) :
    (rtFifoAdvance f len).contents = f.contents.drop len := by
  have hb := f.buf_length
  have hs := f.size_le
  have hoff : f.offset (min len f.size) = (f.head + min len f.size) % f.buf.length := by
    rw [hb]
    exact f.offset_eq hcap (by omega)
  simp only [RtFifo.contents, rtFifoAdvance, hoff]
  rw [ringContents_advance (by omega) (Nat.min_le_right _ _)]
  rcases Nat.le_total len f.size with h | h
  · rw [min_eq_left h]
  · rw [min_eq_right h, List.drop_of_length_le, List.drop_of_length_le]
    · exact f.contents_length.trans_le h
    · exact f.contents_length.le

@[simp] theorem rtFifoAdvance_size (f : RtFifo cap) (len : ℕ) :
    (rtFifoAdvance f len).size = f.size - len := by
  simp only [rtFifoAdvance]
  omega

end SoftEtherVpn.Rudp
