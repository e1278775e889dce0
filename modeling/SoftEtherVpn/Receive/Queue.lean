import SoftEtherVpn.Foundation.Simulation
import SoftEtherVpn.Packet.Framing
import SoftEtherVpn.Receive.Batch

/-!
# The receive queue in memory

The ring of received frames with its slots, `recv_queue_head`, `recv_queue_tail` and
`recv_queue_count`, under every producer and consumer. A producer writes into the free slot at the
tail before it knows whether the frame is complete; the slot is not part of the queue until the
count goes up. The answers of all calls are those of a list of frames.
-/

namespace SoftEtherVpn.Receive.Memory

open Foundation

/-- `queued_frame_t`. -/
structure Slot where
  data : Bytes
  len : ℕ
  data_length : data.length = maxQueuedFrame

namespace Slot

def zero : Slot := ⟨List.replicate maxQueuedFrame 0, 0, List.length_replicate⟩

def frame (s : Slot) : Bytes := s.data.take s.len

/-- A write at the start of `data`, which it does not leave. -/
def write (bytes : Bytes) (s : Slot) : Slot where
  data := (bytes ++ s.data.drop bytes.length).take maxQueuedFrame
  len := s.len
  data_length := by
    rw [List.length_take, List.length_append, List.length_drop, s.data_length]
    omega

def setLen (len : ℕ) (s : Slot) : Slot := { s with len := len }

theorem frame_write (s : Slot) {bytes : Bytes} (h : bytes.length ≤ maxQueuedFrame) :
    ((s.write bytes).setLen bytes.length).frame = bytes := by
  change ((bytes ++ _).take maxQueuedFrame).take bytes.length = bytes
  rw [List.take_take, min_eq_left h, List.take_left]

end Slot

structure Ring where
  slots : List Slot
  head : ℕ
  tail : ℕ
  count : ℤ
  slots_length : slots.length = recvQueueSize

namespace Ring

/-- The queue of a new connection. -/
def empty : Ring := ⟨List.replicate recvQueueSize .zero, 0, 0, 0, List.length_replicate⟩

/-- A change of `recv_queue[recv_queue_tail]`. -/
def atTail (f : Slot → Slot) (r : Ring) : Ring :=
  { r with
    slots := r.slots.modify r.tail f
    slots_length := by rw [List.length_modify, r.slots_length] }

def write (bytes : Bytes) (r : Ring) : Ring := r.atTail (Slot.write bytes)

/-- `entry->len`, `recv_queue_tail` and `recv_queue_count`. -/
def commit (len : ℕ) (r : Ring) : Ring :=
  { r.atTail (Slot.setLen len) with
    tail := (r.tail + 1) % recvQueueSize
    count := r.count + 1 }

/-- A frame that is in memory is copied to the slot and queued. -/
def store (frame : Bytes) (r : Ring) : Ring := (r.write frame).commit frame.length

/-- The frame of `recv_queue[recv_queue_head]`. -/
def front (r : Ring) : Bytes := ((r.slots[r.head]?).map Slot.frame).getD []

def advance (r : Ring) : Ring :=
  { r with head := (r.head + 1) % recvQueueSize, count := r.count - 1 }

/-- The queued frames, oldest first. -/
def frames (r : Ring) : List Bytes :=
  (ringContents r.slots r.head r.count.toNat).map Slot.frame

structure Ok (r : Ring) : Prop where
  head_lt : r.head < recvQueueSize
  count_nonneg : 0 ≤ r.count
  count_le : r.count ≤ recvQueueSize
  tail_eq : (r.tail : ℤ) = (r.head + r.count) % recvQueueSize
  len_le : ∀ s ∈ r.slots, s.len ≤ maxQueuedFrame

theorem ok_empty : empty.Ok where
  head_lt := by decide
  count_nonneg := le_rfl
  count_le := by decide
  tail_eq := by decide
  len_le := by
    intro s hs
    rw [List.eq_of_mem_replicate hs]
    exact Nat.zero_le _

section Operations

variable {r : Ring}

theorem Ok.toNat_le (h : r.Ok) : r.count.toNat ≤ r.slots.length := by
  have hle := h.count_le
  rw [r.slots_length]
  omega

theorem Ok.toNat_lt (h : r.Ok) (hroom : r.count < recvQueueSize) :
    r.count.toNat < r.slots.length := by
  have hnonneg := h.count_nonneg
  rw [r.slots_length]
  omega

theorem Ok.head_lt_length (h : r.Ok) : r.head < r.slots.length := by
  rw [r.slots_length]
  exact h.head_lt

theorem Ok.tail_eq_toNat (h : r.Ok) : r.tail = (r.head + r.count.toNat) % r.slots.length := by
  have htail := h.tail_eq
  have hnonneg := h.count_nonneg
  rw [r.slots_length]
  simp only [recvQueueSize] at htail ⊢
  omega

theorem Ok.frames_length (h : r.Ok) : (r.frames.length : ℤ) = r.count := by
  rw [frames, List.length_map, ringContents_length h.toNat_le]
  exact Int.toNat_of_nonneg h.count_nonneg

theorem Ok.tail_lt (h : r.Ok) : r.tail < r.slots.length := by
  rw [h.tail_eq_toNat]
  exact Nat.mod_lt _ (Nat.zero_lt_of_lt h.head_lt_length)

/-- The slots after a change at the tail. -/
theorem atTail_slots (h : r.Ok) (f : Slot → Slot) :
    (r.atTail f).slots = r.slots.set ((r.head + r.count.toNat) % r.slots.length)
      (f (r.slots.get ⟨r.tail, h.tail_lt⟩)) := by
  change r.slots.modify r.tail f = _
  rw [List.modify_eq_set_getElem?, List.getElem?_eq_getElem h.tail_lt, ← h.tail_eq_toNat]
  rfl

theorem Ok.atTail (h : r.Ok) {f : Slot → Slot} (hf : ∀ s, s.len ≤ maxQueuedFrame →
    (f s).len ≤ maxQueuedFrame) : (r.atTail f).Ok := by
  refine ⟨h.head_lt, h.count_nonneg, h.count_le, h.tail_eq, ?_⟩
  intro s hs
  rw [atTail_slots h] at hs
  rcases List.mem_or_eq_of_mem_set hs with hs | rfl
  · exact h.len_le s hs
  · exact hf _ (h.len_le _ (List.get_mem _ _))

/-- A write at the tail of a queue that is not full is not visible. -/
theorem Ok.write (h : r.Ok) (hroom : r.count < recvQueueSize) (bytes : Bytes) :
    (r.write bytes).Ok ∧ (r.write bytes).frames = r.frames := by
  refine ⟨h.atTail fun s hs => hs, ?_⟩
  change (ringContents (r.atTail _).slots r.head r.count.toNat).map Slot.frame = _
  rw [atTail_slots h, ringContents_set_free h.head_lt_length (h.toNat_lt hroom)]
  rfl

theorem store_slots (r : Ring) (frame : Bytes) :
    (r.store frame).slots =
      (r.atTail fun s => (s.write frame).setLen frame.length).slots := by
  change (r.slots.modify r.tail _).modify r.tail _ = r.slots.modify r.tail _
  rw [List.modify_modify_eq]
  rfl

/-- Storing a frame appends it. -/
theorem Ok.store (h : r.Ok) (hroom : r.count < recvQueueSize) {frame : Bytes}
    (hframe : frame.length ≤ maxQueuedFrame) :
    (r.store frame).Ok ∧ (r.store frame).frames = r.frames ++ [frame] := by
  have hnonneg := h.count_nonneg
  constructor
  · refine ⟨h.head_lt, by change (0 : ℤ) ≤ r.count + 1; omega, hroom, ?_, ?_⟩
    · change (((r.tail + 1) % recvQueueSize : ℕ) : ℤ) =
        (r.head + (r.count + 1)) % recvQueueSize
      have htail := h.tail_eq
      simp only [recvQueueSize] at htail ⊢
      omega
    · rw [store_slots]
      exact (h.atTail fun s _ => hframe).len_le
  · have hcount : (r.count + 1).toNat = r.count.toNat + 1 := by omega
    change (ringContents (r.store frame).slots r.head (r.count + 1).toNat).map Slot.frame = _
    rw [hcount, store_slots, atTail_slots h,
      ringContents_push h.head_lt_length (h.toNat_lt hroom), List.map_append,
      List.map_singleton, Slot.frame_write _ hframe]
    rfl

/-- The frame at the head is the first, and leaves. -/
theorem Ok.advance (h : r.Ok) (hcount : 0 < r.count) :
    r.advance.Ok ∧ r.frames = r.front :: r.advance.frames := by
  have hle := h.count_le
  constructor
  · refine ⟨Nat.mod_lt _ (by decide), by change 0 ≤ r.count - 1; omega,
      by change r.count - 1 ≤ _; omega, ?_, h.len_le⟩
    change (r.tail : ℤ) =
      (((r.head + 1) % recvQueueSize : ℕ) + (r.count - 1)) % recvQueueSize
    have htail := h.tail_eq
    simp only [recvQueueSize] at htail ⊢
    omega
  · have hcons := ringContents_eq_cons h.head_lt_length h.toNat_le (by omega)
    have hpred : r.count.toNat - 1 = (r.count - 1).toNat := by omega
    rw [hpred] at hcons
    simp only [r.slots_length] at hcons
    rw [frames, hcons, List.map_cons, front, List.getElem?_eq_getElem h.head_lt_length]
    rfl

end Operations

end Ring

/-!
### The producers
-/

/-- `uncompress_data`: whether it succeeds, and what it has put into the destination of `room`
bytes by then. -/
structure Zlib where
  run : Bytes → ℕ → Bool × Bytes
  run_length : ∀ block room, (run block room).2.length ≤ room

def Zlib.uncompress (zlib : Zlib) : Packet.Uncompress := fun block room =>
  if (zlib.run block room).1 then some (zlib.run block room).2 else none

/-- What a pass of `softether_fill_recv_queue` meets: the blocks that `rudp_recv` returns before and
after polling, the returns before and after the second of these, and the selected socket. -/
structure Arrival where
  usable : Bool
  rudp : List Bytes
  beforePoll : Option ℤ
  rudpReady : List Bytes
  afterPoll : Option ℤ
  isAdditional : Bool
  serverUseCompress : Bool
  malloc : ℕ → Bool
  stream : ChunkedStream

/-- `CLOSE_FAILED_ADDITIONAL_SOCKET`. -/
def Arrival.readFailure (e : Arrival) : ℤ := if e.isAdditional then 0 else -1

/-- The number of blocks moved, and the queue. -/
def drainRudpIntoRecvQueue : ℕ → List Bytes → Ring → ℕ × Ring
  | 0, _, r => (0, r)
  | _ + 1, [], r => (0, r)
  | maxFrames + 1, block :: blocks, r =>
    if r.count < recvQueueSize ∧ block ≠ [] then
      let rest := drainRudpIntoRecvQueue maxFrames blocks (r.store (block.take maxQueuedFrame))
      (rest.1 + 1, rest.2)
    else (0, r)

/-- What a read of `n` bytes that fails has put into its buffer. -/
def readSoFar (s : ChunkedStream) (n : ℕ) : Bytes :=
  s.bytes.take (min n (ChunkedStream.available s.bytes s.chunks))

/-- A block of a compressed session: every attempt to decompress it writes into the slot. -/
def storeBlock (zlib : Zlib) (block : Bytes) (r : Ring) : Ring :=
  let session := zlib.run block maxQueuedFrame
  if session.1 then (r.write session.2).commit session.2.length
  else if 8 < block.length ∧ natBE (block.take 8) = Packet.compressMagic then
    let bulk := zlib.run (block.drop 8) maxQueuedFrame
    if bulk.1 then ((r.write session.2).write bulk.2).commit bulk.2.length
    else ((r.write session.2).write bulk.2).store block
  else (r.write session.2).store block

section Fill

variable (zlib : Zlib) (e : Arrival)

/-- The block loop of `softether_fill_recv_queue`. -/
def fillBlocks (r : Ring) (s : ChunkedStream) : ℕ → ℤ × Ring
  | 0 => (if r.count > 0 then 1 else 0, r)
  | count + 1 =>
    match Packet.readUint32 s with
    | none => (e.readFailure, r)
    | some (blockSize, s) =>
      if blockSize > Packet.maxBlockSize then (-1, r)
      else if blockSize = 0 then fillBlocks r s count
      else if blockSize ≤ maxQueuedFrame ∧ r.count < recvQueueSize then
        if e.serverUseCompress = false then
          match s.readAll blockSize with
          | none => (e.readFailure, r.write (readSoFar s blockSize))
          | some (block, s) => fillBlocks (r.store block) s count
        else if e.malloc blockSize = false then (-1, r)
        else
          match s.readAll blockSize with
          | none => (e.readFailure, r)
          | some (block, s) => fillBlocks (storeBlock zlib block r) s count
      else
        match Packet.skipBlock s blockSize with
        | none => (e.readFailure, r)
        | some s => fillBlocks r s count

/-- The read of one message. -/
def fillMessage (r : Ring) : ℤ × Ring :=
  match Packet.readUint32 e.stream with
  | none => (e.readFailure, r)
  | some (blockCount, s) =>
    if blockCount = Packet.keepAliveMagic then
      match Packet.readKeepAlive s with
      | none => (e.readFailure, r)
      | some _ => (0, r)
    else if blockCount = 0 then (0, r)
    else fillBlocks zlib e r s blockCount

def softetherFillRecvQueue (r : Ring) : ℤ × Ring :=
  if e.usable = false then (-1, r)
  else
    let queued := drainRudpIntoRecvQueue recvQueueSize e.rudp r
    if queued.1 > 0 then (1, queued.2)
    else
      match e.beforePoll with
      | some rc => (rc, queued.2)
      | none =>
        let polled := drainRudpIntoRecvQueue recvQueueSize e.rudpReady queued.2
        if polled.1 > 0 then (1, polled.2)
        else
          match e.afterPoll with
          | some rc => (rc, polled.2)
          | none => fillMessage zlib e polled.2

end Fill

/-!
### What arrives

The frames that a pass commits, without the slots they go through.
-/

/-- The blocks of `rudp_recv` that find a free slot. -/
def arrivingBlocks (room : ℕ) (blocks : List Bytes) : List Bytes :=
  ((blocks.takeWhile (· ≠ [])).take room).map (List.take maxQueuedFrame)

def Arrival.frame (zlib : Zlib) (e : Arrival) (block : Bytes) : Bytes :=
  if e.serverUseCompress then Packet.decompressBlock zlib.uncompress maxQueuedFrame block else block

section Arriving

variable (zlib : Zlib) (e : Arrival)

/-- The frames of a block list, and what the pass returns if it ends before the list does. -/
def arrivingList (s : ChunkedStream) (room : ℕ) : ℕ → List Bytes × Option ℤ
  | 0 => ([], none)
  | count + 1 =>
    match Packet.readUint32 s with
    | none => ([], some e.readFailure)
    | some (blockSize, s) =>
      if blockSize > Packet.maxBlockSize then ([], some (-1))
      else if blockSize = 0 then arrivingList s room count
      else if blockSize ≤ maxQueuedFrame ∧ 0 < room then
        if e.serverUseCompress = true ∧ e.malloc blockSize = false then ([], some (-1))
        else
          match s.readAll blockSize with
          | none => ([], some e.readFailure)
          | some (block, s) =>
            let rest := arrivingList s (room - 1) count
            (e.frame zlib block :: rest.1, rest.2)
      else
        match Packet.skipBlock s blockSize with
        | none => ([], some e.readFailure)
        | some s => arrivingList s room count

def arrivingMessage (room : ℕ) : List Bytes × Option ℤ :=
  match Packet.readUint32 e.stream with
  | none => ([], some e.readFailure)
  | some (blockCount, s) =>
    if blockCount = Packet.keepAliveMagic then
      match Packet.readKeepAlive s with
      | none => ([], some e.readFailure)
      | some _ => ([], some 0)
    else if blockCount = 0 then ([], some 0)
    else arrivingList zlib e s room blockCount

def arriving (room : ℕ) : List Bytes × Option ℤ :=
  if e.usable = false then ([], some (-1))
  else if arrivingBlocks room e.rudp ≠ [] then (arrivingBlocks room e.rudp, some 1)
  else
    match e.beforePoll with
    | some rc => ([], some rc)
    | none =>
      if arrivingBlocks room e.rudpReady ≠ [] then (arrivingBlocks room e.rudpReady, some 1)
      else
        match e.afterPoll with
        | some rc => ([], some rc)
        | none => arrivingMessage zlib e room

end Arriving

/-- `r'` holds the frames of `r` and behind them `fs`. -/
structure Appends (r : Ring) (fs : List Bytes) (r' : Ring) : Prop where
  ok : r'.Ok
  frames : r'.frames = r.frames ++ fs

def Ring.room (r : Ring) : ℕ := recvQueueSize - r.frames.length

section Producers

variable {zlib : Zlib} {e : Arrival} {r r' r'' : Ring} {fs gs : List Bytes}

theorem Appends.nil (h : r.Ok) : Appends r [] r := ⟨h, (List.append_nil _).symm⟩

theorem Appends.trans (h : Appends r fs r') (h' : Appends r' gs r'') :
    Appends r (fs ++ gs) r'' := by
  refine ⟨h'.ok, ?_⟩
  rw [h'.frames, h.frames, List.append_assoc]

theorem Appends.room_eq (h : Appends r fs r') : r'.room = r.room - fs.length := by
  rw [Ring.room, Ring.room, h.frames, List.length_append]
  omega

theorem Appends.write (h : r.Ok) (hroom : r.count < recvQueueSize) (bytes : Bytes) :
    Appends r [] (r.write bytes) := by
  obtain ⟨hok, hframes⟩ := h.write hroom bytes
  exact ⟨hok, by rw [hframes, List.append_nil]⟩

theorem Appends.store (h : r.Ok) (hroom : r.count < recvQueueSize) {frame : Bytes}
    (hframe : frame.length ≤ maxQueuedFrame) : Appends r [frame] (r.store frame) := by
  obtain ⟨hok, hframes⟩ := h.store hroom hframe
  exact ⟨hok, hframes⟩

theorem room_pos_iff (h : r.Ok) : 0 < r.room ↔ r.count < recvQueueSize := by
  have hlength := h.frames_length
  rw [Ring.room]
  omega

theorem arrivingBlocks_cons {block : Bytes} (hblock : block ≠ []) (room : ℕ)
    (blocks : List Bytes) :
    arrivingBlocks (room + 1) (block :: blocks) =
      block.take maxQueuedFrame :: arrivingBlocks room blocks := by
  rw [arrivingBlocks, List.takeWhile_cons_of_pos (by simpa using hblock), List.take_succ_cons,
    List.map_cons]
  rfl

theorem drain_appends (maxFrames : ℕ) (blocks : List Bytes) (h : r.Ok) :
    Appends r (arrivingBlocks (min maxFrames r.room) blocks)
        (drainRudpIntoRecvQueue maxFrames blocks r).2 ∧
      (drainRudpIntoRecvQueue maxFrames blocks r).1 =
        (arrivingBlocks (min maxFrames r.room) blocks).length := by
  induction maxFrames generalizing blocks r with
  | zero =>
    rw [Nat.zero_min, arrivingBlocks, List.take_zero]
    exact ⟨.nil h, rfl⟩
  | succ maxFrames ih =>
    cases blocks with
    | nil =>
      rw [arrivingBlocks, List.takeWhile_nil, List.take_nil]
      exact ⟨.nil h, rfl⟩
    | cons block blocks =>
      rw [drainRudpIntoRecvQueue]
      by_cases hmore : r.count < recvQueueSize ∧ block ≠ []
      · rw [if_pos hmore]
        obtain ⟨hroom, hblock⟩ := hmore
        have hstore : Appends r [block.take maxQueuedFrame]
            (r.store (block.take maxQueuedFrame)) :=
          .store h hroom (List.length_take_le _ _)
        have hpos := (room_pos_iff h).mpr hroom
        have hmin : min (maxFrames + 1) r.room =
            min maxFrames (r.store (block.take maxQueuedFrame)).room + 1 := by
          rw [hstore.room_eq, List.length_singleton]
          omega
        obtain ⟨hrest, hmoved⟩ := ih blocks hstore.ok
        rw [hmin, arrivingBlocks_cons hblock]
        refine ⟨hstore.trans hrest, ?_⟩
        dsimp only
        rw [hmoved, List.length_cons]
      · rw [if_neg hmore]
        have hnone : arrivingBlocks (min (maxFrames + 1) r.room) (block :: blocks) = [] := by
          by_cases hblock : block = []
          · rw [arrivingBlocks, hblock, List.takeWhile_cons_of_neg (by simp), List.take_nil]
            rfl
          · have hfull : r.room = 0 := by
              by_contra hpos
              exact hmore ⟨(room_pos_iff h).mp (Nat.pos_of_ne_zero hpos), hblock⟩
            rw [hfull, Nat.min_zero, arrivingBlocks, List.take_zero]
            rfl
        rw [hnone]
        exact ⟨.nil h, rfl⟩

/-- Only the result of the last attempt is visible. -/
theorem storeBlock_appends (h : r.Ok) (hroom : r.count < recvQueueSize) {block : Bytes}
    (hblock : block.length ≤ maxQueuedFrame) :
    Appends r [Packet.decompressBlock zlib.uncompress maxQueuedFrame block]
      (storeBlock zlib block r) := by
  have hfirst := Appends.write h hroom (zlib.run block maxQueuedFrame).2
  have hfirstRoom : (r.write (zlib.run block maxQueuedFrame).2).count < recvQueueSize := hroom
  unfold storeBlock Packet.decompressBlock Zlib.uncompress
  dsimp only
  by_cases hsession : (zlib.run block maxQueuedFrame).1 = true
  · rw [if_pos hsession, if_pos hsession]
    exact .store h hroom (zlib.run_length _ _)
  rw [if_neg hsession, if_neg hsession]
  dsimp only
  by_cases hmagic : 8 < block.length ∧ natBE (block.take 8) = Packet.compressMagic
  · rw [if_pos hmagic, if_pos hmagic]
    have hsecond := Appends.write hfirst.ok hfirstRoom (zlib.run (block.drop 8) maxQueuedFrame).2
    by_cases hbulk : (zlib.run (block.drop 8) maxQueuedFrame).1 = true
    · rw [if_pos hbulk, if_pos hbulk]
      exact hfirst.trans (.store hfirst.ok hfirstRoom (zlib.run_length _ _))
    · rw [if_neg hbulk, if_neg hbulk]
      exact (hfirst.trans hsecond).trans (.store hsecond.ok hroom hblock)
  · rw [if_neg hmagic, if_neg hmagic]
    exact hfirst.trans (.store hfirst.ok hfirstRoom hblock)

/-- A pass that starts in `r` commits the frames of `a` and returns its code. -/
structure Passes (r : Ring) (a : List Bytes × Option ℤ) (out : ℤ × Ring) : Prop where
  appends : Appends r a.1 out.2
  code : out.1 = a.2.getD (if out.2.frames ≠ [] then 1 else 0)

theorem Passes.stop (code : ℤ) (h : Appends r fs r') : Passes r (fs, some code) (code, r') :=
  ⟨h, rfl⟩

theorem Passes.after {a : List Bytes × Option ℤ} {out : ℤ × Ring} (h : Appends r fs r')
    (hpass : Passes r' a out) : Passes r (fs ++ a.1, a.2) out :=
  ⟨h.trans hpass.appends, hpass.code⟩

theorem count_pos_iff (h : r.Ok) : r.count > 0 ↔ r.frames ≠ [] := by
  rw [← h.frames_length, ← List.length_pos_iff]
  omega

theorem fillBlocks_passes (h : r.Ok) (s : ChunkedStream) (count : ℕ) :
    Passes r (arrivingList zlib e s r.room count) (fillBlocks zlib e r s count) := by
  induction count generalizing r s with
  | zero =>
    refine ⟨.nil h, ?_⟩
    simp only [fillBlocks, arrivingList, count_pos_iff h, Option.getD_none]
  | succ count ih =>
    rw [fillBlocks, arrivingList]
    cases Packet.readUint32 s with
    | none => exact .stop _ (.nil h)
    | some header =>
      obtain ⟨blockSize, s⟩ := header
      dsimp only
      by_cases hlarge : blockSize > Packet.maxBlockSize
      · rw [if_pos hlarge, if_pos hlarge]
        exact .stop _ (.nil h)
      rw [if_neg hlarge, if_neg hlarge]
      by_cases hzero : blockSize = 0
      · rw [if_pos hzero, if_pos hzero]
        exact ih h s
      rw [if_neg hzero, if_neg hzero]
      simp only [room_pos_iff h]
      by_cases hfits : blockSize ≤ maxQueuedFrame ∧ r.count < recvQueueSize
      · rw [if_pos hfits, if_pos hfits]
        obtain ⟨hsize, hroom⟩ := hfits
        -- what is left to do once the block has been appended
        have hnext : ∀ {block s' r'}, Appends r [e.frame zlib block] r' →
            Passes r (e.frame zlib block :: (arrivingList zlib e s' (r.room - 1) count).1,
              (arrivingList zlib e s' (r.room - 1) count).2) (fillBlocks zlib e r' s' count) := by
          intro block s' r' hblock
          have hroom' : r'.room = r.room - 1 := hblock.room_eq
          rw [← hroom']
          exact .after hblock (ih hblock.ok s')
        by_cases hcompress : e.serverUseCompress = true
        · have hon : ¬e.serverUseCompress = false := by simp [hcompress]
          by_cases hmalloc : e.malloc blockSize = false
          · rw [if_pos ⟨hcompress, hmalloc⟩, if_neg hon, if_pos hmalloc]
            exact .stop _ (.nil h)
          rw [if_neg fun hboth => hmalloc hboth.2, if_neg hon, if_neg hmalloc]
          cases hread : s.readAll blockSize with
          | none => exact .stop _ (.nil h)
          | some block =>
            have hlength := (ChunkedStream.readAll_eq_some hread).1
            refine hnext ?_
            rw [Arrival.frame, if_pos hcompress]
            exact storeBlock_appends h hroom (by omega)
        · have hoff : e.serverUseCompress = false := Bool.eq_false_iff.mpr hcompress
          rw [if_neg fun hboth => hcompress hboth.1, if_pos hoff]
          cases hread : s.readAll blockSize with
          | none => exact .stop _ (.write h hroom _)
          | some block =>
            have hlength := (ChunkedStream.readAll_eq_some hread).1
            refine hnext ?_
            rw [Arrival.frame, if_neg hcompress]
            exact .store h hroom (by omega)
      · rw [if_neg hfits, if_neg hfits]
        cases Packet.skipBlock s blockSize with
        | none => exact .stop _ (.nil h)
        | some s => exact ih h s

theorem fillMessage_passes (zlib : Zlib) (e : Arrival) (h : r.Ok) :
    Passes r (arrivingMessage zlib e r.room) (fillMessage zlib e r) := by
  rw [fillMessage, arrivingMessage]
  cases Packet.readUint32 e.stream with
  | none => exact .stop _ (.nil h)
  | some header =>
    obtain ⟨blockCount, s⟩ := header
    dsimp only
    by_cases hkeepAlive : blockCount = Packet.keepAliveMagic
    · rw [if_pos hkeepAlive, if_pos hkeepAlive]
      cases Packet.readKeepAlive s with
      | none => exact .stop _ (.nil h)
      | some _ => exact .stop _ (.nil h)
    rw [if_neg hkeepAlive, if_neg hkeepAlive]
    by_cases hempty : blockCount = 0
    · rw [if_pos hempty, if_pos hempty]
      exact .stop _ (.nil h)
    · rw [if_neg hempty, if_neg hempty]
      exact fillBlocks_passes h s blockCount

/-- A drain of at most as many blocks as the queue has slots. -/
theorem drain_queueSize (h : r.Ok) (blocks : List Bytes) :
    Appends r (arrivingBlocks r.room blocks)
        (drainRudpIntoRecvQueue recvQueueSize blocks r).2 ∧
      ((drainRudpIntoRecvQueue recvQueueSize blocks r).1 > 0 ↔
        arrivingBlocks r.room blocks ≠ []) := by
  obtain ⟨happends, hmoved⟩ := drain_appends recvQueueSize blocks h
  have hmin : min recvQueueSize r.room = r.room := min_eq_right (Nat.sub_le _ _)
  rw [hmin] at happends hmoved
  refine ⟨happends, ?_⟩
  rw [hmoved, gt_iff_lt, List.length_pos_iff]

/-- A pass commits what arrives, and nothing else of what it writes is visible. -/
theorem softetherFillRecvQueue_passes (zlib : Zlib) (e : Arrival) (h : r.Ok) :
    Passes r (arriving zlib e r.room) (softetherFillRecvQueue zlib e r) := by
  rw [softetherFillRecvQueue, arriving]
  by_cases husable : e.usable = false
  · rw [if_pos husable, if_pos husable]
    exact .stop _ (.nil h)
  rw [if_neg husable, if_neg husable]
  obtain ⟨hfirst, hfirstMoved⟩ := drain_queueSize h e.rudp
  dsimp only
  by_cases hqueued : arrivingBlocks r.room e.rudp ≠ []
  · rw [if_pos (hfirstMoved.mpr hqueued), if_pos hqueued]
    exact .stop _ hfirst
  rw [if_neg fun hmoved => hqueued (hfirstMoved.mp hmoved), if_neg hqueued]
  rw [not_not.mp hqueued] at hfirst
  have hsame : (drainRudpIntoRecvQueue recvQueueSize e.rudp r).2.room = r.room := hfirst.room_eq
  cases e.beforePoll with
  | some rc => exact .stop _ hfirst
  | none =>
    dsimp only
    obtain ⟨hsecond, hsecondMoved⟩ := drain_queueSize hfirst.ok e.rudpReady
    rw [hsame] at hsecond hsecondMoved
    by_cases hpolled : arrivingBlocks r.room e.rudpReady ≠ []
    · rw [if_pos (hsecondMoved.mpr hpolled), if_pos hpolled]
      exact .stop _ (hfirst.trans hsecond)
    rw [if_neg fun hmoved => hpolled (hsecondMoved.mp hmoved), if_neg hpolled]
    rw [not_not.mp hpolled] at hsecond
    have hboth := hfirst.trans hsecond
    have hsame' := hboth.room_eq
    cases e.afterPoll with
    | some rc => exact .stop _ hboth
    | none =>
      have hmessage := fillMessage_passes zlib e hboth.ok
      rw [hsame'] at hmessage
      exact .after hboth hmessage

end Producers

end SoftEtherVpn.Receive.Memory
