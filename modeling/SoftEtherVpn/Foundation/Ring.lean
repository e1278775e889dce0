import Mathlib.Data.List.Rotate
import Mathlib.Tactic

/-!
# Ring buffers over a flat cell list

A ring occupies `size` consecutive cells of `buf`, starting at `head` and wrapping
at the end. The queue it stands for is `ringContents`. Writing copies a block in at
most two pieces, reading copies one out in at most two pieces; the two lemmas
`ringContents_write` and `ringRead_eq_take` say that this is appending to and
reading from the front of the queue.
-/

namespace SoftEtherVpn.Foundation

variable {α : Type*}

/-- The queue held in a ring. -/
def ringContents (buf : List α) (head size : ℕ) : List α := (buf.rotate head).take size

/-- Overwrite a block of cells, as `memcpy` into the buffer does. -/
def splice (buf : List α) (off : ℕ) (data : List α) : List α :=
  buf.take off ++ data ++ buf.drop (off + data.length)

/-- Write `data` at physical offset `off`, the part that does not fit going to the front. -/
def ringWrite (buf : List α) (off : ℕ) (data : List α) : List α :=
  let n1 := min (buf.length - off) data.length
  splice (splice buf off (data.take n1)) 0 (data.drop n1)

/-- Read `len` cells from `head`, the part past the end coming from the front. -/
def ringRead (buf : List α) (head len : ℕ) : List α :=
  let n1 := min (buf.length - head) len
  (buf.drop head).take n1 ++ buf.take (len - n1)

theorem splice_length {buf data : List α} {off : ℕ} (h : off + data.length ≤ buf.length) :
    (splice buf off data).length = buf.length := by
  simp only [splice, List.length_append, List.length_take, List.length_drop]
  omega

theorem splice_getElem? {buf data : List α} {off : ℕ} (h : off + data.length ≤ buf.length)
    (i : ℕ) : (splice buf off data)[i]? =
      if off ≤ i ∧ i < off + data.length then data[i - off]? else buf[i]? := by
  have ho : (buf.take off).length = off := by
    rw [List.length_take]
    omega
  unfold splice
  by_cases h1 : i < off
  · rw [List.append_assoc, List.getElem?_append_left (by omega), List.getElem?_take_of_lt h1,
      if_neg (by omega)]
  by_cases h2 : i < off + data.length
  · rw [List.getElem?_append_left (by rw [List.length_append]; omega),
      List.getElem?_append_right (by omega), ho, if_pos (by omega)]
  · rw [List.getElem?_append_right (by rw [List.length_append]; omega), List.getElem?_drop,
      if_neg (by omega), List.length_append, ho]
    congr 1
    omega

theorem ringWrite_length {buf data : List α} {off : ℕ} (ho : off < buf.length)
    (hd : data.length ≤ buf.length) : (ringWrite buf off data).length = buf.length := by
  have h1 : (splice buf off (data.take (min (buf.length - off) data.length))).length =
      buf.length := splice_length (by rw [List.length_take]; omega)
  simp only [ringWrite]
  rw [splice_length, h1]
  rw [h1, List.length_drop]
  omega

theorem ringContents_length {buf : List α} {head size : ℕ} (h : size ≤ buf.length) :
    (ringContents buf head size).length = size := by
  simp [ringContents, h]

theorem ringContents_getElem? {buf : List α} {head size i : ℕ} (hs : size ≤ buf.length)
    (hi : i < size) : (ringContents buf head size)[i]? = buf[(i + head) % buf.length]? := by
  rw [ringContents, List.getElem?_take_of_lt hi, List.getElem?_rotate (by omega)]

/-- A written cell is found at its distance from the write offset around the ring. -/
theorem ringWrite_getElem? {buf data : List α} {off : ℕ} (ho : off < buf.length)
    (hd : data.length ≤ buf.length) {j : ℕ} (hj : j < data.length) :
    (ringWrite buf off data)[(off + j) % buf.length]? = data[j]? := by
  have hlen : (splice buf off (data.take (min (buf.length - off) data.length))).length =
      buf.length := splice_length (by rw [List.length_take]; omega)
  simp only [ringWrite]
  rw [splice_getElem? (by rw [hlen, List.length_drop]; omega),
    splice_getElem? (by rw [List.length_take]; omega)]
  simp only [List.length_take, List.length_drop, Nat.zero_le, true_and, Nat.zero_add,
    Nat.sub_zero]
  by_cases hw : off + j < buf.length
  · rw [Nat.mod_eq_of_lt hw, if_neg (by omega), if_pos (by omega),
      List.getElem?_take_of_lt (by omega)]
    congr 1
    omega
  · have hm : (off + j) % buf.length = off + j - buf.length := by
      rw [Nat.mod_eq_sub_mod (by omega), Nat.mod_eq_of_lt (by omega)]
    rw [hm, if_pos (by omega), List.getElem?_drop]
    congr 1
    omega

/-- Cells outside the written block keep their value. -/
theorem ringWrite_getElem?_of_outside {buf data : List α} {off : ℕ} (ho : off < buf.length)
    {j : ℕ} (hj : data.length ≤ j) (hj' : j < buf.length) :
    (ringWrite buf off data)[(off + j) % buf.length]? = buf[(off + j) % buf.length]? := by
  have hlen : (splice buf off (data.take (min (buf.length - off) data.length))).length =
      buf.length := splice_length (by rw [List.length_take]; omega)
  simp only [ringWrite]
  rw [splice_getElem? (by rw [hlen, List.length_drop]; omega),
    splice_getElem? (by rw [List.length_take]; omega)]
  simp only [List.length_take, List.length_drop, Nat.zero_le, true_and, Nat.zero_add,
    Nat.sub_zero]
  by_cases hw : off + j < buf.length
  · rw [Nat.mod_eq_of_lt hw, if_neg (by omega), if_neg (by omega)]
  · have hm : (off + j) % buf.length = off + j - buf.length := by
      rw [Nat.mod_eq_sub_mod (by omega), Nat.mod_eq_of_lt (by omega)]
    rw [hm, if_neg (by omega), if_neg (by omega)]

/-- Writing behind the occupied cells appends to the queue. -/
theorem ringContents_write {buf data : List α} {head size : ℕ} (hh : head < buf.length)
    (hs : size + data.length ≤ buf.length) :
    ringContents (ringWrite buf ((head + size) % buf.length) data) head (size + data.length) =
      ringContents buf head size ++ data := by
  have hpos : 0 < buf.length := by omega
  have ho : (head + size) % buf.length < buf.length := Nat.mod_lt _ hpos
  have hlen : (ringWrite buf ((head + size) % buf.length) data).length = buf.length :=
    ringWrite_length ho (by omega)
  apply List.ext_getElem?
  intro i
  by_cases hi : i < size + data.length
  · rw [ringContents_getElem? (by omega) hi, hlen]
    by_cases hlt : i < size
    · -- index `i` sits `cap - size + i` cells past the write offset
      have hidx : (i + head) % buf.length =
          ((head + size) % buf.length + (buf.length - size + i)) % buf.length := by
        rw [Nat.mod_add_mod, show head + size + (buf.length - size + i) =
          i + head + buf.length by omega, Nat.add_mod_right]
      rw [List.getElem?_append_left (by rw [ringContents_length (by omega)]; exact hlt),
        ringContents_getElem? (by omega) hlt, hidx]
      exact ringWrite_getElem?_of_outside ho (by omega) (by omega)
    · have hidx : (i + head) % buf.length =
          ((head + size) % buf.length + (i - size)) % buf.length := by
        rw [Nat.mod_add_mod]
        congr 1
        omega
      rw [List.getElem?_append_right (by rw [ringContents_length (by omega)]; omega),
        ringContents_length (by omega), hidx]
      exact ringWrite_getElem? ho (by omega) (by omega)
  · rw [List.getElem?_eq_none, List.getElem?_eq_none]
    · rw [List.length_append, ringContents_length (by omega)]
      omega
    · rw [ringContents_length (by omega)]
      omega

theorem ringWrite_singleton {buf : List α} {off : ℕ} (h : off < buf.length) (a : α) :
    ringWrite buf off [a] = buf.set off a := by
  have hone : min (buf.length - off) [a].length = 1 := by
    rw [List.length_singleton]
    omega
  rw [ringWrite, hone, List.set_eq_take_append_cons_drop, if_pos h]
  simp [splice]

/-- Reading from the head returns the front of the queue. -/
theorem ringRead_eq_take {buf : List α} {head size len : ℕ} (hh : head < buf.length)
    (hs : size ≤ buf.length) (hl : len ≤ size) :
    ringRead buf head len = (ringContents buf head size).take len := by
  have hrot : buf.rotate head = buf.drop head ++ buf.take head :=
    List.rotate_eq_drop_append_take (le_of_lt hh)
  rw [ringContents, List.take_take, min_eq_left hl, hrot, List.take_append]
  simp only [ringRead, List.length_drop, List.take_take]
  by_cases h : len ≤ buf.length - head
  · rw [min_eq_right h, Nat.sub_self, Nat.sub_eq_zero_of_le h]
    simp
  · have hfull : (buf.drop head).length ≤ len := by
      rw [List.length_drop]
      omega
    rw [min_eq_left (by omega), min_eq_left (by omega), List.take_of_length_le hfull,
      List.take_of_length_le (by rw [List.length_drop])]

/-- Moving the head forward drops from the front of the queue. -/
theorem ringContents_advance {buf : List α} {head size len : ℕ}
    (hs : size ≤ buf.length) (hl : len ≤ size) :
    ringContents buf ((head + len) % buf.length) (size - len) =
      (ringContents buf head size).drop len := by
  apply List.ext_getElem?
  intro i
  rw [List.getElem?_drop]
  by_cases hi : i < size - len
  · rw [ringContents_getElem? (by omega) hi, ringContents_getElem? hs (by omega)]
    congr 1
    rw [Nat.add_mod_mod]
    congr 1
    omega
  · rw [List.getElem?_eq_none, List.getElem?_eq_none]
    · rw [ringContents_length hs]
      omega
    · rw [ringContents_length (by omega)]
      omega

/-!
### One cell at a time
-/

/-- Storing behind the last occupied cell appends. -/
theorem ringContents_push {buf : List α} {head size : ℕ} (hh : head < buf.length)
    (hs : size < buf.length) (a : α) :
    ringContents (buf.set ((head + size) % buf.length) a) head (size + 1) =
      ringContents buf head size ++ [a] := by
  rw [← ringWrite_singleton (Nat.mod_lt _ (by omega))]
  exact ringContents_write hh hs

/-- What stands in a free cell does not matter. -/
theorem ringContents_set_free {buf : List α} {head size : ℕ} (hh : head < buf.length)
    (hs : size < buf.length) (a : α) :
    ringContents (buf.set ((head + size) % buf.length) a) head size = ringContents buf head size := by
  have hpush := congrArg (List.take size) (ringContents_push hh hs a)
  rw [List.take_left' (ringContents_length hs.le), ringContents, List.take_take,
    min_eq_left (Nat.le_succ size)] at hpush
  exact hpush

/-- The cell at the head is the first of the queue. -/
theorem ringContents_eq_cons {buf : List α} {head size : ℕ} (hh : head < buf.length)
    (hs : size ≤ buf.length) (hpos : 0 < size) :
    ringContents buf head size =
      buf[head] :: ringContents buf ((head + 1) % buf.length) (size - 1) := by
  have hfirst : (ringContents buf head size)[0]? = some buf[head] := by
    rw [ringContents_getElem? hs hpos, Nat.zero_add, Nat.mod_eq_of_lt hh,
      List.getElem?_eq_getElem hh]
  rw [ringContents_advance hs hpos]
  cases hcontents : ringContents buf head size with
  | nil => simp [hcontents] at hfirst
  | cons a rest =>
    rw [hcontents] at hfirst
    obtain rfl := Option.some.inj hfirst
    rfl

end SoftEtherVpn.Foundation
