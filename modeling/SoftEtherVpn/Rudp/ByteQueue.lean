import SoftEtherVpn.Foundation.Simulation
import SoftEtherVpn.Rudp.Fifo

/-!
# The FIFO as a byte queue

Up to a capacity of `2 ^ 31` the ring of `rt_fifo_t` answers every sequence of writes, peeks and
advances as a list of at most `cap` bytes does. Beyond it `head + size` wraps at `2 ^ 32` for some
sequence, and a write then lands on bytes that are still queued.
-/

namespace SoftEtherVpn.Rudp

open Foundation

inductive FifoOp
  | write (data : Bytes)
  | peek (len : ℕ)
  | advance (len : ℕ)

/-- What the caller sees: whether a write succeeds, and what a peek copies. -/
inductive FifoAnswer
  | wrote (ok : Bool)
  | peeked (data : Bytes)
  | advanced
  deriving DecidableEq

def fifoStep {cap : ℕ} (f : RtFifo cap) : FifoOp → FifoAnswer × RtFifo cap
  | .write data =>
    match rtFifoWrite f data with
    | some g => (.wrote true, g)
    | none => (.wrote false, f)
  | .peek len => (.peeked (rtFifoPeek f len), f)
  | .advance len => (.advanced, rtFifoAdvance f len)

/-- A list of at most `cap` bytes. -/
def byteQueueStep (cap : ℕ) (q : Bytes) : FifoOp → FifoAnswer × Bytes
  | .write data => if q.length + data.length ≤ cap then (.wrote true, q ++ data) else (.wrote false, q)
  | .peek len => (.peeked (q.take (min len q.length)), q)
  | .advance len => (.advanced, q.drop (min len q.length))

/-- The FIFO answers as the list does, holds the list's bytes, and keeps its head and its size in
range. -/
def BehavesAsQueue (mem : Bytes) (hmem : 0 < mem.length) (ops : List FifoOp) : Prop :=
  let fifo := answers fifoStep (RtFifo.init mem hmem) ops
  let queue := answers (byteQueueStep mem.length) [] ops
  fifo.1 = queue.1 ∧ fifo.2.contents = queue.2 ∧ fifo.2.head < mem.length ∧
    fifo.2.size ≤ mem.length

section Step

variable {cap : ℕ}

theorem fifoStep_simulates (hcap : cap ≤ 2 ^ 31) (f : RtFifo cap) (op : FifoOp) :
    (fifoStep f op).1 = (byteQueueStep cap f.contents op).1 ∧
      (fifoStep f op).2.contents = (byteQueueStep cap f.contents op).2 := by
  have hsize := f.size_le
  cases op with
  | write data =>
    cases hwrite : rtFifoWrite f data with
    | none =>
      have hfull := rtFifoWrite_eq_none.mp hwrite
      rw [rtFifoAvail] at hfull
      have hroom : ¬f.contents.length + data.length ≤ cap := by
        rw [f.contents_length]
        omega
      simp only [fifoStep, byteQueueStep, hwrite, if_neg hroom]
      exact ⟨trivial, trivial⟩
    | some g =>
      have hroom : f.contents.length + data.length ≤ cap := by
        rw [f.contents_length, ← rtFifoWrite_size hwrite]
        exact g.size_le
      simp only [fifoStep, byteQueueStep, hwrite, if_pos hroom]
      exact ⟨trivial, rtFifoWrite_contents hcap hwrite⟩
  | peek len =>
    simp [fifoStep, byteQueueStep, rtFifoPeek_eq]
  | advance len =>
    have hdrop : f.contents.drop (min len f.contents.length) = f.contents.drop len := by
      rcases Nat.le_total len f.contents.length with h | h
      · rw [min_eq_left h]
      · rw [min_eq_right h, List.drop_length, List.drop_of_length_le h]
    exact ⟨rfl, (rtFifoAdvance_contents hcap f len).trans hdrop.symm⟩

end Step

theorem behavesAsQueue_of_le {mem : Bytes} (hmem : 0 < mem.length) (hcap : mem.length ≤ 2 ^ 31)
    (ops : List FifoOp) : BehavesAsQueue mem hmem ops := by
  have hstart : (RtFifo.init mem hmem).contents = [] := rfl
  obtain ⟨hanswers, hcontents⟩ := answers_simulation
    (R := fun (f : RtFifo mem.length) q => f.contents = q)
    (fun f q op h => h ▸ fifoStep_simulates hcap f op) hstart ops
  refine ⟨hanswers, hcontents, ?_, ?_⟩
  · exact RtFifo.head_lt _
  · exact RtFifo.size_le _

/-!
## Beyond `2 ^ 31`
-/

/-- With `n` the number of the last cell and `k` bytes that bring `head + size` to `2 ^ 32`, the
byte that is written then goes to the first cell. -/
def wrappingOps (n k : ℕ) : List FifoOp :=
  [.write (List.replicate n 0), .advance n, .write (List.replicate k 0), .write [1], .peek 2]

section Wrap

variable {cap n k : ℕ}

theorem byteQueue_wrappingOps (hn : n ≤ cap) (hk : 2 ≤ k) (hcap : k + 1 ≤ cap) :
    (answers (byteQueueStep cap) [] (wrappingOps n k)).1[4]? = some (.peeked [0, 0]) := by
  obtain ⟨j, rfl⟩ := Nat.exists_eq_add_of_le' hk
  have hroom : j + 2 ≤ cap := by omega
  have hroom' : j + 2 + 1 ≤ cap := hcap
  simp only [answers, wrappingOps, byteQueueStep, List.length_nil, List.length_replicate, zero_add,
    hn, if_true, List.nil_append, min_self, List.drop_replicate, Nat.sub_self, List.replicate_zero,
    hroom, List.length_singleton, hroom', List.length_append]
  rfl

theorem fifoStep_write {f : RtFifo cap} {data : Bytes} (h : f.size + data.length ≤ cap) :
    ∃ g, fifoStep f (.write data) = (.wrote true, g) ∧ g.head = f.head ∧
      g.size = f.size + data.length ∧ g.buf = ringWrite f.buf (f.offset f.size) data := by
  have hroom : data.length ≤ rtFifoAvail f := by
    rw [rtFifoAvail]
    omega
  obtain ⟨g, hg⟩ := rtFifoWrite_isSome hroom
  refine ⟨g, by simp only [fifoStep, hg], ?_⟩
  unfold rtFifoWrite at hg
  split_ifs at hg
  obtain rfl := Option.some.inj hg
  exact ⟨rfl, rfl, rfl⟩

/-- The byte in the first cell is the second of the queue when the head is in the last one. -/
theorem peek_two {f : RtFifo cap} (hhead : f.head + 1 = cap) (hsize : 2 ≤ f.size)
    {b : UInt8} {rest : Bytes} (hbuf : f.buf = b :: rest) : (rtFifoPeek f 2)[1]? = some b := by
  rw [rtFifoPeek_eq, List.getElem?_take_of_lt (by omega), RtFifo.contents,
    ringContents_getElem? (by rw [f.buf_length]; exact f.size_le) (by omega), f.buf_length,
    add_comm, hhead, Nat.mod_self, hbuf]
  rfl

/-- The last write overwrites the second byte of the queue. -/
theorem fifo_wrappingOps {f : RtFifo cap} (hhead : f.head = 0) (hsize : f.size = 0)
    (hn : n + 1 = cap) (hk : n + k = 2 ^ 32) (hcap : k + 1 ≤ cap) (htwo : 2 ≤ k)
    (hlt : n < 2 ^ 32) :
    ∃ data, (answers fifoStep f (wrappingOps n k)).1[4]? = some (.peeked data) ∧
      data[1]? = some 1 := by
  obtain ⟨f₁, hstep₁, hhead₁, hsize₁, -⟩ : ∃ g, fifoStep f (.write (List.replicate n 0)) = _ ∧ _ :=
    fifoStep_write (by rw [List.length_replicate]; omega)
  rw [hhead] at hhead₁
  rw [hsize, List.length_replicate, zero_add] at hsize₁
  have hhead₂ : (rtFifoAdvance f₁ n).head = n := by
    change f₁.offset (min n f₁.size) = n
    rw [RtFifo.offset, hhead₁, hsize₁, min_self, zero_add, Nat.mod_eq_of_lt hlt,
      Nat.mod_eq_of_lt (by omega)]
  have hsize₂ : (rtFifoAdvance f₁ n).size = 0 := by
    rw [rtFifoAdvance_size, hsize₁, Nat.sub_self]
  obtain ⟨f₃, hstep₃, hhead₃, hsize₃, -⟩ :
      ∃ g, fifoStep (rtFifoAdvance f₁ n) (.write (List.replicate k 0)) = _ ∧ _ :=
    fifoStep_write (by rw [List.length_replicate]; omega)
  rw [hhead₂] at hhead₃
  rw [hsize₂, List.length_replicate, zero_add] at hsize₃
  obtain ⟨f₄, hstep₄, hhead₄, hsize₄, hbuf₄⟩ : ∃ g, fifoStep f₃ (.write [1]) = _ ∧ _ :=
    fifoStep_write (by rw [List.length_singleton]; omega)
  have hoff : f₃.offset f₃.size = 0 := by
    rw [RtFifo.offset, hhead₃, hsize₃, hk, Nat.mod_self, Nat.zero_mod]
  have hbuf : ∃ rest, f₄.buf = 1 :: rest := by
    have hpos : 0 < f₃.buf.length := by
      rw [f₃.buf_length]
      omega
    rw [hbuf₄, hoff, ringWrite_singleton hpos]
    cases hcells : f₃.buf with
    | nil => simp [hcells] at hpos
    | cons a rest => exact ⟨rest, rfl⟩
  obtain ⟨rest, hbuf⟩ := hbuf
  refine ⟨rtFifoPeek f₄ 2, ?_, peek_two (by omega) (by omega) hbuf⟩
  have hadvance : fifoStep f₁ (.advance n) = (.advanced, rtFifoAdvance f₁ n) := rfl
  simp only [answers, wrappingOps, hstep₁, hadvance, hstep₃, hstep₄]
  rfl

end Wrap

theorem not_behavesAsQueue {mem : Bytes} (hmem : 0 < mem.length) (hlarge : 2 ^ 31 < mem.length)
    (hcap : mem.length < 2 ^ 32) :
    ¬BehavesAsQueue mem hmem (wrappingOps (mem.length - 1) (2 ^ 32 - (mem.length - 1))) := by
  rintro ⟨hanswers, -⟩
  obtain ⟨data, hpeek, hone⟩ := fifo_wrappingOps (f := RtFifo.init mem hmem) rfl rfl
    (n := mem.length - 1) (k := 2 ^ 32 - (mem.length - 1)) (by omega) (by omega) (by omega)
    (by omega) (by omega)
  rw [hanswers, byteQueue_wrappingOps (by omega) (by omega) (by omega)] at hpeek
  obtain rfl : [0, 0] = data := by
    simpa using hpeek
  cases hone

end SoftEtherVpn.Rudp
