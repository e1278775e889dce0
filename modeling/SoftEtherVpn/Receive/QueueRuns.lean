import SoftEtherVpn.Foundation.Simulation
import SoftEtherVpn.Receive.Batch
import SoftEtherVpn.Receive.Queue

/-!
# Runs of the receive queue

The calls that fill the receive queue and those that take frames from it, in any order. The queue
stands for a history: all frames that were committed, and how many of them have left. A frame of
the history is a block of `rudp_recv`, or comes from a block of a message that was read to its end.
-/

namespace SoftEtherVpn.Receive.Memory

open Foundation

/-- What a call returns, leaves in the caller's buffer, writes to `*frame_len` or `lengths` and to
`*out_count`, and sends. -/
structure Answer where
  code : ℤ
  bytes : Bytes
  lengths : List ℕ
  count : ℕ
  replies : List Bytes
  deriving DecidableEq

def Answer.returns (code : ℤ) : Answer := ⟨code, [], [], 0, []⟩

/-- What `softether_receive` does with a frame. -/
def receiveFrame (conn : Conn) (maxLen : ℕ) (data : Bytes) : Answer :=
  if data.length ≥ 42 ∧ byteAt data 12 = 0x08 ∧ byteAt data 13 = 0x06 then
    ⟨0, [], [], 0, (softetherReplyArpRequest conn data).toList⟩
  else if data.length ≤ ethHeaderSize then .returns 0
  else if ethertype data ≠ 0x0800 ∧ ethertype data ≠ 0x86DD then .returns 0
  else if data.length - ethHeaderSize > maxLen then .returns (-1)
  else ⟨(data.length - ethHeaderSize : ℕ), data.drop ethHeaderSize, [], 0, []⟩

/-- What `softether_receive_raw` does with a frame. -/
def receiveRawFrame (maxLen : ℕ) (data : Bytes) : Answer :=
  if data.length > maxLen % 2 ^ 32 then ⟨0, [], [0], 0, []⟩
  else ⟨data.length, data, [data.length], 0, []⟩

/-- The variables of the loop of `softether_receive_batch`. -/
structure Packing where
  buffer : Bytes
  lengths : List ℕ
  total : ℕ
  count : ℕ
  replies : List Bytes

/-- A round of that loop; `none` leaves the loop with the frame in the queue. -/
def packFrame (conn : Conn) (maxLen : ℕ) (p : Packing) (data : Bytes) : Option Packing :=
  if data.length ≥ 42 ∧ byteAt data 12 = 0x08 ∧ byteAt data 13 = 0x06 then
    some { p with replies := p.replies ++ (softetherReplyArpRequest conn data).toList }
  else if data.length ≤ ethHeaderSize then some p
  else if ethertype data ≠ 0x0800 ∧ ethertype data ≠ 0x86DD then some p
  else if (p.total + (data.length - ethHeaderSize)) % 2 ^ 32 > maxLen then none
  else
    some { p with
      buffer := splice p.buffer p.total (data.drop ethHeaderSize)
      lengths := p.lengths.set p.count (data.length - ethHeaderSize)
      total := (p.total + (data.length - ethHeaderSize)) % 2 ^ 32
      count := p.count + 1 }

def Packing.start (args : BatchArgs) : Packing := ⟨args.buffer, args.lengths, 0, 0, []⟩

def Packing.answer (args : BatchArgs) (p : Packing) : Answer where
  code := p.total
  bytes := p.buffer
  lengths := p.lengths.take p.count ++ List.replicate (args.lengths.length - p.count) 0
  count := p.count
  replies := p.replies

/-- The loop of `softether_receive_batch`; each round takes a frame from the queue. -/
def packLoop (conn : Conn) (maxLen maxPackets : ℕ) : ℕ → Packing → Ring → Packing × Ring
  | 0, p, r => (p, r)
  | rounds + 1, p, r =>
    if p.count < maxPackets ∧ r.count > 0 then
      match packFrame conn maxLen p r.front with
      | none => (p, r)
      | some p => packLoop conn maxLen maxPackets rounds p r.advance
    else (p, r)

section Calls

variable (zlib : Zlib) (conn : Conn)

/-- The receiving calls fill the queue when it is empty. -/
def refill (e : Arrival) (r : Ring) : ℤ × Ring :=
  if r.count ≤ 0 then softetherFillRecvQueue zlib e r else (1, r)

/-- A call with `connected` unset finds another state than `STATE_CONNECTED`. -/
inductive Call
  | drain (blocks : List Bytes) (maxFrames : ℕ)
  | fill (e : Arrival)
  | receive (connected : Bool) (e : Arrival) (maxLen : ℕ)
  | receiveRaw (connected : Bool) (e : Arrival) (maxLen : ℕ)
  | receiveBatch (connected : Bool) (e : Arrival) (args : BatchArgs)

def softetherReceive (connected : Bool) (e : Arrival) (maxLen : ℕ) (r : Ring) : Answer × Ring :=
  if maxLen = 0 ∨ connected = false then (.returns (-1), r)
  else
    let filled := refill zlib e r
    if filled.1 < 0 then (.returns (-1), filled.2)
    else if filled.1 = 0 then (.returns 0, filled.2)
    else if filled.2.count ≤ 0 then (.returns 0, filled.2)
    else (receiveFrame conn maxLen filled.2.front, filled.2.advance)

def softetherReceiveRaw (connected : Bool) (e : Arrival) (maxLen : ℕ) (r : Ring) : Answer × Ring :=
  if connected = false then (.returns (-1), r)
  else
    let filled := refill zlib e r
    if filled.1 < 0 then (.returns (-1), filled.2)
    else if filled.1 = 0 then (⟨0, [], [0], 0, []⟩, filled.2)
    else if filled.2.count ≤ 0 then (⟨0, [], [0], 0, []⟩, filled.2)
    else (receiveRawFrame maxLen filled.2.front, filled.2.advance)

def softetherReceiveBatch (connected : Bool) (e : Arrival) (args : BatchArgs) (r : Ring) :
    Answer × Ring :=
  if args.buffer.length = 0 ∨ args.lengths.length = 0 then
    (⟨0, args.buffer, args.lengths, 0, []⟩, r)
  else if connected = false then (⟨-1, args.buffer, args.lengths, 0, []⟩, r)
  else
    let filled := refill zlib e r
    if filled.1 < 0 then (⟨-1, args.buffer, args.lengths, 0, []⟩, filled.2)
    else
      let packed := packLoop conn args.buffer.length args.lengths.length filled.2.count.toNat
        (.start args) filled.2
      (packed.1.answer args, packed.2)

def step (r : Ring) : Call → Answer × Ring
  | .drain blocks maxFrames =>
    let drained := drainRudpIntoRecvQueue maxFrames blocks r
    (.returns drained.1, drained.2)
  | .fill e =>
    let filled := softetherFillRecvQueue zlib e r
    (.returns filled.1, filled.2)
  | .receive connected e maxLen => softetherReceive zlib conn connected e maxLen r
  | .receiveRaw connected e maxLen => softetherReceiveRaw zlib connected e maxLen r
  | .receiveBatch connected e args => softetherReceiveBatch zlib conn connected e args r

end Calls

/-- The frame is handled as in `Receive.softetherReceive`. -/
theorem receiveEntry_eq_receiveFrame (conn : Conn) (maxLen : ℕ) (q : RecvQueue) :
    receiveEntry conn maxLen q =
      ⟨(receiveFrame conn maxLen q.entry.1).code, (receiveFrame conn maxLen q.entry.1).bytes,
        (receiveFrame conn maxLen q.entry.1).replies, q.advance⟩ := by
  unfold receiveEntry receiveFrame
  dsimp only
  split_ifs <;> rfl

def Packing.batch (p : Packing) (q : RecvQueue) : Batch :=
  ⟨q, p.buffer, p.lengths, p.total, p.count, p.replies⟩

/-- A round is that of `Receive.batchLoop`. -/
theorem batchLoop_eq_packFrame (conn : Conn) (maxLen maxPackets rounds : ℕ) (p : Packing)
    (q : RecvQueue) :
    batchLoop conn maxLen maxPackets (rounds + 1) (p.batch q) =
      if p.count < maxPackets ∧ q.count > 0 then
        match packFrame conn maxLen p q.entry.1 with
        | none => p.batch q
        | some p => batchLoop conn maxLen maxPackets rounds (p.batch q.advance)
      else p.batch q := by
  rw [batchLoop]
  change (if p.count < maxPackets ∧ q.count > 0 then _ else _) = _
  split_ifs with hmore
  · unfold packFrame
    dsimp only [Packing.batch]
    split_ifs with harp hshort hother hfull
    · rfl
    · rfl
    · rfl
    · exact if_pos hfull
    · exact if_neg hfull
  · rfl

/-!
### The history of the queue
-/

/-- All frames committed so far, and how many of them have left. -/
structure History where
  committed : List Bytes
  departed : ℕ

namespace History

def start : History := ⟨[], 0⟩

def queue (h : History) : List Bytes := h.committed.drop h.departed

def commit (frames : List Bytes) (h : History) : History :=
  { h with committed := h.committed ++ frames }

def depart (n : ℕ) (h : History) : History := { h with departed := h.departed + n }

def room (h : History) : ℕ := recvQueueSize - h.queue.length

end History

/-- The frames of a queue that a batch takes from its front. -/
def packFrames (conn : Conn) (maxLen maxPackets : ℕ) : Packing → List Bytes → Packing × ℕ
  | p, [] => (p, 0)
  | p, f :: fs =>
    if p.count < maxPackets then
      match packFrame conn maxLen p f with
      | none => (p, 0)
      | some p =>
        let rest := packFrames conn maxLen maxPackets p fs
        (rest.1, rest.2 + 1)
    else (p, 0)

namespace History

section Calls

variable (zlib : Zlib) (conn : Conn)

def fill (e : Arrival) (h : History) : ℤ × History :=
  let a := arriving zlib e h.room
  (a.2.getD (if (h.commit a.1).queue ≠ [] then 1 else 0), h.commit a.1)

def refill (e : Arrival) (h : History) : ℤ × History :=
  if h.queue = [] then h.fill zlib e else (1, h)

/-- One frame leaves, and the answer is about that frame. -/
def take (h : History) (nothing : Answer) (answer : Bytes → Answer) : Answer × History :=
  match h.queue with
  | [] => (nothing, h)
  | f :: _ => (answer f, h.depart 1)

def step (h : History) : Call → Answer × History
  | .drain blocks maxFrames =>
    let frames := arrivingBlocks (min maxFrames h.room) blocks
    (.returns frames.length, h.commit frames)
  | .fill e => (.returns (h.fill zlib e).1, (h.fill zlib e).2)
  | .receive connected e maxLen =>
    if maxLen = 0 ∨ connected = false then (.returns (-1), h)
    else
      let filled := h.refill zlib e
      if filled.1 < 0 then (.returns (-1), filled.2)
      else if filled.1 = 0 then (.returns 0, filled.2)
      else filled.2.take (.returns 0) (receiveFrame conn maxLen)
  | .receiveRaw connected e maxLen =>
    if connected = false then (.returns (-1), h)
    else
      let filled := h.refill zlib e
      if filled.1 < 0 then (.returns (-1), filled.2)
      else if filled.1 = 0 then (⟨0, [], [0], 0, []⟩, filled.2)
      else filled.2.take ⟨0, [], [0], 0, []⟩ (receiveRawFrame maxLen)
  | .receiveBatch connected e args =>
    if args.buffer.length = 0 ∨ args.lengths.length = 0 then
      (⟨0, args.buffer, args.lengths, 0, []⟩, h)
    else if connected = false then (⟨-1, args.buffer, args.lengths, 0, []⟩, h)
    else
      let filled := h.refill zlib e
      if filled.1 < 0 then (⟨-1, args.buffer, args.lengths, 0, []⟩, filled.2)
      else
        let packed := packFrames conn args.buffer.length args.lengths.length (.start args)
          filled.2.queue
        (packed.1.answer args, filled.2.depart packed.2)

end Calls

end History

/-- The ring holds the frames of the history that have not left. -/
structure Refines (r : Ring) (h : History) : Prop where
  ok : r.Ok
  frames : r.frames = h.queue
  departed_le : h.departed ≤ h.committed.length

section Simulation

variable {zlib : Zlib} {conn : Conn} {r : Ring} {h : History}

theorem refines_start : Refines .empty .start := ⟨Ring.ok_empty, rfl, le_rfl⟩

theorem Refines.room (hr : Refines r h) : r.room = h.room := by
  rw [Ring.room, History.room, hr.frames]

theorem Refines.queue_eq_nil (hr : Refines r h) : r.count ≤ 0 ↔ h.queue = [] := by
  rw [← hr.frames, ← hr.ok.frames_length, ← List.length_eq_zero_iff]
  omega

theorem Refines.commit (hr : Refines r h) {frames : List Bytes} {r' : Ring}
    (happends : Appends r frames r') : Refines r' (h.commit frames) := by
  refine ⟨happends.ok, ?_, ?_⟩
  · rw [happends.frames, hr.frames]
    exact (List.drop_append_of_le_length hr.departed_le).symm
  · change _ ≤ (h.committed ++ frames).length
    rw [List.length_append]
    exact hr.departed_le.trans (Nat.le_add_right _ _)

theorem Refines.fill (hr : Refines r h) (zlib : Zlib) (e : Arrival) :
    (softetherFillRecvQueue zlib e r).1 = (h.fill zlib e).1 ∧
      Refines (softetherFillRecvQueue zlib e r).2 (h.fill zlib e).2 := by
  have hpass := softetherFillRecvQueue_passes zlib e hr.ok
  rw [hr.room] at hpass
  have hcommit := hr.commit hpass.appends
  refine ⟨?_, hcommit⟩
  rw [hpass.code, hcommit.frames]
  rfl

theorem Refines.refill (hr : Refines r h) (zlib : Zlib) (e : Arrival) :
    (refill zlib e r).1 = (h.refill zlib e).1 ∧
      Refines (refill zlib e r).2 (h.refill zlib e).2 := by
  rw [Memory.refill, History.refill]
  by_cases hempty : h.queue = []
  · rw [if_pos (hr.queue_eq_nil.mpr hempty), if_pos hempty]
    exact hr.fill zlib e
  · rw [if_neg fun hcount => hempty (hr.queue_eq_nil.mp hcount), if_neg hempty]
    exact ⟨rfl, hr⟩

/-- The frame at the head of the ring is the oldest that has not left. -/
theorem Refines.advance (hr : Refines r h) (hcount : ¬r.count ≤ 0) :
    h.queue = r.front :: (h.depart 1).queue ∧ Refines r.advance (h.depart 1) := by
  obtain ⟨hok, hframes⟩ := hr.ok.advance (not_le.mp hcount)
  have hqueue : h.queue = r.front :: r.advance.frames := hr.frames ▸ hframes
  have htail : r.advance.frames = (h.depart 1).queue := by
    change _ = h.committed.drop (h.departed + 1)
    rw [← List.drop_drop]
    change _ = h.queue.drop 1
    rw [hqueue]
    rfl
  rw [← htail]
  refine ⟨hqueue, hok, htail, ?_⟩
  have hlength : h.queue.length = h.committed.length - h.departed := List.length_drop
  rw [hqueue, List.length_cons] at hlength
  change h.departed + 1 ≤ h.committed.length
  omega

theorem Refines.take (hr : Refines r h) (nothing : Answer) (answer : Bytes → Answer) :
    (if r.count ≤ 0 then (nothing, r) else (answer r.front, r.advance)).1 =
        (h.take nothing answer).1 ∧
      Refines (if r.count ≤ 0 then (nothing, r) else (answer r.front, r.advance)).2
        (h.take nothing answer).2 := by
  by_cases hcount : r.count ≤ 0
  · rw [if_pos hcount, History.take, hr.queue_eq_nil.mp hcount]
    exact ⟨rfl, hr⟩
  · obtain ⟨hqueue, hnext⟩ := hr.advance hcount
    rw [if_neg hcount, History.take, hqueue]
    exact ⟨rfl, hnext⟩

theorem History.depart_depart (h : History) (m n : ℕ) :
    (h.depart m).depart n = h.depart (n + m) := by
  rw [depart, depart, depart, Nat.add_assoc, Nat.add_comm m]

theorem Refines.pack (hr : Refines r h) (conn : Conn) (maxLen maxPackets : ℕ) {rounds : ℕ} (p : Packing)
    (hrounds : r.count ≤ rounds) :
    (packLoop conn maxLen maxPackets rounds p r).1 =
        (packFrames conn maxLen maxPackets p h.queue).1 ∧
      Refines (packLoop conn maxLen maxPackets rounds p r).2
        (h.depart (packFrames conn maxLen maxPackets p h.queue).2) := by
  induction rounds generalizing p r h with
  | zero =>
    rw [hr.queue_eq_nil.mp hrounds]
    exact ⟨rfl, hr⟩
  | succ rounds ih =>
    rw [packLoop]
    by_cases hcount : r.count ≤ 0
    · rw [if_neg (by omega), hr.queue_eq_nil.mp hcount]
      exact ⟨rfl, hr⟩
    obtain ⟨hqueue, hnext⟩ := hr.advance hcount
    rw [hqueue, packFrames]
    by_cases hmore : p.count < maxPackets
    · rw [if_pos ⟨hmore, not_le.mp hcount⟩, if_pos hmore]
      cases packFrame conn maxLen p r.front with
      | none => exact ⟨rfl, hr⟩
      | some p =>
        have hleft : r.advance.count ≤ rounds := by
          change r.count - 1 ≤ _
          omega
        obtain ⟨hpacked, hrest⟩ := ih hnext p hleft
        rw [History.depart_depart] at hrest
        exact ⟨hpacked, hrest⟩
    · rw [if_neg fun hboth => hmore hboth.1, if_neg hmore]
      exact ⟨rfl, hr⟩

/-- A call that takes one frame answers as the history does. -/
theorem Refines.refillTake (hr : Refines r h) (e : Arrival) (nothing : Answer)
    (answer : Bytes → Answer) {out : Answer × Ring} {out' : Answer × History}
    (hout : out =
      if (Memory.refill zlib e r).1 < 0 then (.returns (-1), (Memory.refill zlib e r).2)
      else if (Memory.refill zlib e r).1 = 0 then (nothing, (Memory.refill zlib e r).2)
      else if (Memory.refill zlib e r).2.count ≤ 0 then (nothing, (Memory.refill zlib e r).2)
      else (answer (Memory.refill zlib e r).2.front, (Memory.refill zlib e r).2.advance))
    (hout' : out' =
      if (h.refill zlib e).1 < 0 then (.returns (-1), (h.refill zlib e).2)
      else if (h.refill zlib e).1 = 0 then (nothing, (h.refill zlib e).2)
      else (h.refill zlib e).2.take nothing answer) :
    out.1 = out'.1 ∧ Refines out.2 out'.2 := by
  obtain ⟨hcode, hnext⟩ := hr.refill zlib e
  rw [hout, hout', ← hcode]
  by_cases herror : (Memory.refill zlib e r).1 < 0
  · rw [if_pos herror, if_pos herror]
    exact ⟨rfl, hnext⟩
  rw [if_neg herror, if_neg herror]
  by_cases hnothing : (Memory.refill zlib e r).1 = 0
  · rw [if_pos hnothing, if_pos hnothing]
    exact ⟨rfl, hnext⟩
  rw [if_neg hnothing, if_neg hnothing]
  exact hnext.take _ _

theorem Refines.receiveBatch (hr : Refines r h) (connected : Bool) (e : Arrival)
    (args : BatchArgs) :
    (softetherReceiveBatch zlib conn connected e args r).1 =
        (h.step zlib conn (.receiveBatch connected e args)).1 ∧
      Refines (softetherReceiveBatch zlib conn connected e args r).2
        (h.step zlib conn (.receiveBatch connected e args)).2 := by
  obtain ⟨hcode, hnext⟩ := hr.refill zlib e
  simp only [History.step, softetherReceiveBatch, ← hcode]
  by_cases hzero : args.buffer.length = 0 ∨ args.lengths.length = 0
  · rw [if_pos hzero, if_pos hzero]
    exact ⟨rfl, hr⟩
  rw [if_neg hzero, if_neg hzero]
  by_cases hrefused : connected = false
  · rw [if_pos hrefused, if_pos hrefused]
    exact ⟨rfl, hr⟩
  rw [if_neg hrefused, if_neg hrefused]
  by_cases herror : (Memory.refill zlib e r).1 < 0
  · rw [if_pos herror, if_pos herror]
    exact ⟨rfl, hnext⟩
  rw [if_neg herror, if_neg herror]
  obtain ⟨hpacked, hrest⟩ := hnext.pack conn args.buffer.length args.lengths.length
    (.start args) (Int.self_le_toNat _)
  exact ⟨congrArg (Packing.answer args) hpacked, hrest⟩

/-- A call answers as the history does. -/
theorem Refines.step (hr : Refines r h) (zlib : Zlib) (conn : Conn) (call : Call) :
    (step zlib conn r call).1 = (h.step zlib conn call).1 ∧
      Refines (Memory.step zlib conn r call).2 (h.step zlib conn call).2 := by
  cases call with
  | drain blocks maxFrames =>
    obtain ⟨happends, hmoved⟩ := drain_appends maxFrames blocks hr.ok
    rw [hr.room] at happends hmoved
    refine ⟨?_, hr.commit happends⟩
    change Answer.returns _ = Answer.returns _
    rw [hmoved]
  | fill e =>
    obtain ⟨hcode, hnext⟩ := hr.fill zlib e
    exact ⟨congrArg Answer.returns hcode, hnext⟩
  | receive connected e maxLen =>
    simp only [Memory.step, History.step, softetherReceive]
    by_cases hrefused : maxLen = 0 ∨ connected = false
    · rw [if_pos hrefused, if_pos hrefused]
      exact ⟨rfl, hr⟩
    · rw [if_neg hrefused, if_neg hrefused]
      exact hr.refillTake e _ _ rfl rfl
  | receiveRaw connected e maxLen =>
    simp only [Memory.step, History.step, softetherReceiveRaw]
    by_cases hrefused : connected = false
    · rw [if_pos hrefused, if_pos hrefused]
      exact ⟨rfl, hr⟩
    · rw [if_neg hrefused, if_neg hrefused]
      exact hr.refillTake e _ _ rfl rfl
  | receiveBatch connected e args => exact hr.receiveBatch connected e args

end Simulation

/-!
### Where the frames come from
-/

/-- The bytes of the message contain the block behind its size, and it was read to its end. -/
def Arrival.Reads (e : Arrival) (block : Bytes) : Prop :=
  ∃ (before : Bytes) (s s' : ChunkedStream), e.stream.bytes = before ++ bytesBE 4 block.length ++ s.bytes ∧
    s.readAll block.length = some (block, s')

/-- A frame that a pass may commit. -/
inductive Arrival.Delivers (zlib : Zlib) (e : Arrival) : Bytes → Prop
  | rudp {block : Bytes} (h : block ∈ e.rudp ∨ block ∈ e.rudpReady) :
    e.Delivers zlib (block.take maxQueuedFrame)
  | raw {block : Bytes} (hoff : e.serverUseCompress = false) (h : e.Reads block) :
    e.Delivers zlib block
  | session {block raw : Bytes} (hon : e.serverUseCompress = true) (h : e.Reads block)
    (hraw : zlib.uncompress block maxQueuedFrame = some raw) : e.Delivers zlib raw
  | bulk {block raw : Bytes} (hon : e.serverUseCompress = true) (h : e.Reads block)
    (hmagic : natBE (block.take 8) = Packet.compressMagic)
    (hraw : zlib.uncompress (block.drop 8) maxQueuedFrame = some raw) : e.Delivers zlib raw
  | plain {block : Bytes} (hon : e.serverUseCompress = true) (h : e.Reads block)
    (hnone : zlib.uncompress block maxQueuedFrame = none)
    (hbulk : 8 < block.length ∧ natBE (block.take 8) = Packet.compressMagic →
      zlib.uncompress (block.drop 8) maxQueuedFrame = none) : e.Delivers zlib block

def Call.Delivers (zlib : Zlib) (frame : Bytes) : Call → Prop
  | .drain blocks _ => ∃ block ∈ blocks, frame = block.take maxQueuedFrame
  | .fill e => e.Delivers zlib frame
  | .receive _ e _ => e.Delivers zlib frame
  | .receiveRaw _ e _ => e.Delivers zlib frame
  | .receiveBatch _ e _ => e.Delivers zlib frame

section Origins

variable {zlib : Zlib} {conn : Conn} {e : Arrival} {h : History} {frame : Bytes}

theorem delivers_frame {block : Bytes} (hread : e.Reads block) :
    e.Delivers zlib (e.frame zlib block) := by
  rw [Arrival.frame]
  by_cases hcompress : e.serverUseCompress = true
  swap
  · rw [if_neg hcompress]
    exact .raw (Bool.eq_false_iff.mpr hcompress) hread
  rw [if_pos hcompress, Packet.decompressBlock]
  cases hsession : zlib.uncompress block maxQueuedFrame with
  | some raw => exact .session hcompress hread hsession
  | none =>
    dsimp only
    split_ifs with hmagic
    · cases hbulk : zlib.uncompress (block.drop 8) maxQueuedFrame with
      | some raw => exact .bulk hcompress hread hmagic.2 hbulk
      | none => exact .plain hcompress hread hsession fun _ => hbulk
    · exact .plain hcompress hread hsession fun h => absurd h hmagic

theorem mem_arrivingBlocks {room : ℕ} {blocks : List Bytes}
    (hf : frame ∈ arrivingBlocks room blocks) :
    ∃ block ∈ blocks, frame = block.take maxQueuedFrame := by
  obtain ⟨block, hblock, rfl⟩ := List.mem_map.mp hf
  exact ⟨block, List.takeWhile_subset _ (List.mem_of_mem_take hblock), rfl⟩

theorem readUint32_bytes {s s' : ChunkedStream} {n : ℕ}
    (hread : Packet.readUint32 s = some (n, s')) : s.bytes = bytesBE 4 n ++ s'.bytes := by
  obtain ⟨⟨d, s₀⟩, hall, heq⟩ := Option.map_eq_some_iff.mp hread
  cases heq
  obtain ⟨hlength, hbytes⟩ := ChunkedStream.readAll_eq_some hall
  have hword := bytesBE_natBE d
  rw [hlength] at hword
  rw [hbytes, hword]

theorem skipBlock_bytes {s s' : ChunkedStream} {n : ℕ}
    (hskip : Packet.skipBlock s n = some s') : ∃ skipped, s.bytes = skipped ++ s'.bytes := by
  induction s, n using Packet.skipBlock.induct with
  | case1 s =>
    rw [Packet.skipBlock, dif_pos rfl] at hskip
    cases hskip
    exact ⟨[], rfl⟩
  | case2 s n hn chunk ih =>
    rw [Packet.skipBlock, dif_neg hn] at hskip
    obtain ⟨⟨d, s₀⟩, hread, hrest⟩ := Option.bind_eq_some_iff.mp hskip
    obtain ⟨skipped, hskipped⟩ := ih _ hrest
    refine ⟨d ++ skipped, ?_⟩
    rw [(ChunkedStream.readAll_eq_some hread).2, hskipped, List.append_assoc]

/-- Every frame of a block list comes from a block that was read to its end. -/
theorem delivers_of_mem_arrivingList {s : ChunkedStream} {room count : ℕ} {before : Bytes}
    (hs : e.stream.bytes = before ++ s.bytes)
    (hf : frame ∈ (arrivingList zlib e s room count).1) : e.Delivers zlib frame := by
  induction count generalizing s room before with
  | zero => cases hf
  | succ count ih =>
    rw [arrivingList] at hf
    cases hsize : Packet.readUint32 s with
    | none => simp [hsize] at hf
    | some header =>
      obtain ⟨blockSize, s₁⟩ := header
      have hheader : e.stream.bytes = before ++ bytesBE 4 blockSize ++ s₁.bytes := by
        rw [hs, readUint32_bytes hsize, List.append_assoc]
      simp only [hsize] at hf
      split_ifs at hf with hlarge hzero hfits hmalloc
      · cases hf
      · exact ih hheader hf
      · cases hf
      · cases hread : s₁.readAll blockSize with
        | none => simp [hread] at hf
        | some block =>
          obtain ⟨hlength, hbytes⟩ := ChunkedStream.readAll_eq_some hread
          simp only [hread] at hf
          rcases List.mem_cons.mp hf with rfl | hf
          · refine delivers_frame ⟨before, s₁, block.2, ?_, ?_⟩
            · rw [hlength]
              exact hheader
            · rw [hlength]
              exact hread
          · rw [hbytes, ← List.append_assoc] at hheader
            exact ih hheader hf
      · cases hskip : Packet.skipBlock s₁ blockSize with
        | none => simp [hskip] at hf
        | some s₂ =>
          obtain ⟨skipped, hskipped⟩ := skipBlock_bytes hskip
          simp only [hskip] at hf
          rw [hskipped, ← List.append_assoc] at hheader
          exact ih hheader hf

theorem delivers_of_mem_arrivingMessage {room : ℕ}
    (hf : frame ∈ (arrivingMessage zlib e room).1) : e.Delivers zlib frame := by
  rw [arrivingMessage] at hf
  cases hcount : Packet.readUint32 e.stream with
  | none => simp [hcount] at hf
  | some header =>
    simp only [hcount] at hf
    by_cases hkeepAlive : header.1 = Packet.keepAliveMagic
    · rw [if_pos hkeepAlive] at hf
      cases hka : Packet.readKeepAlive header.2 <;> simp [hka] at hf
    rw [if_neg hkeepAlive] at hf
    by_cases hempty : header.1 = 0
    · rw [if_pos hempty] at hf
      cases hf
    · rw [if_neg hempty] at hf
      exact delivers_of_mem_arrivingList (readUint32_bytes hcount) hf

theorem delivers_of_mem_arriving {room : ℕ} (hf : frame ∈ (arriving zlib e room).1) :
    e.Delivers zlib frame := by
  rw [arriving] at hf
  by_cases husable : e.usable = false
  · rw [if_pos husable] at hf
    cases hf
  rw [if_neg husable] at hf
  by_cases hqueued : arrivingBlocks room e.rudp ≠ []
  · rw [if_pos hqueued] at hf
    obtain ⟨block, hblock, rfl⟩ := mem_arrivingBlocks hf
    exact .rudp (.inl hblock)
  rw [if_neg hqueued] at hf
  cases hbefore : e.beforePoll with
  | some rc => simp [hbefore] at hf
  | none =>
    simp only [hbefore] at hf
    by_cases hpolled : arrivingBlocks room e.rudpReady ≠ []
    · rw [if_pos hpolled] at hf
      obtain ⟨block, hblock, rfl⟩ := mem_arrivingBlocks hf
      exact .rudp (.inr hblock)
    rw [if_neg hpolled] at hf
    cases hafter : e.afterPoll with
    | some rc => simp [hafter] at hf
    | none =>
      simp only [hafter] at hf
      exact delivers_of_mem_arrivingMessage hf

theorem History.fill_committed (hf : frame ∈ (h.fill zlib e).2.committed) :
    frame ∈ h.committed ∨ e.Delivers zlib frame :=
  (List.mem_append.mp hf).imp_right delivers_of_mem_arriving

theorem History.refill_committed (hf : frame ∈ (h.refill zlib e).2.committed) :
    frame ∈ h.committed ∨ e.Delivers zlib frame := by
  rw [refill] at hf
  split_ifs at hf with hempty
  · exact fill_committed hf
  · exact .inl hf

theorem History.take_committed (h : History) (nothing : Answer) (answer : Bytes → Answer) :
    (h.take nothing answer).2.committed = h.committed := by
  rw [take]
  split <;> rfl

/-- A call commits frames of what it meets only. -/
theorem History.step_committed (call : Call)
    (hf : frame ∈ (h.step zlib conn call).2.committed) :
    frame ∈ h.committed ∨ call.Delivers zlib frame := by
  cases call with
  | drain blocks maxFrames => exact (List.mem_append.mp hf).imp_right mem_arrivingBlocks
  | fill e => exact fill_committed hf
  | receive connected e maxLen | receiveRaw connected e maxLen =>
    simp only [step] at hf
    split_ifs at hf
    · exact .inl hf
    · exact refill_committed hf
    · exact refill_committed hf
    · rw [take_committed] at hf
      exact refill_committed hf
  | receiveBatch connected e args =>
    simp only [step] at hf
    split_ifs at hf
    · exact .inl hf
    · exact .inl hf
    · exact refill_committed hf
    · exact refill_committed hf

theorem History.answers_committed (calls : List Call)
    (hf : frame ∈ (answers (History.step zlib conn) h calls).2.committed) :
    frame ∈ h.committed ∨ ∃ call ∈ calls, call.Delivers zlib frame := by
  induction calls generalizing h with
  | nil => exact .inl hf
  | cons call calls ih =>
    rcases ih hf with hold | ⟨later, hmem, hdelivers⟩
    · rcases step_committed call hold with hold | hdelivers
      · exact .inl hold
      · exact .inr ⟨call, List.mem_cons_self, hdelivers⟩
    · exact .inr ⟨later, List.mem_cons_of_mem _ hmem, hdelivers⟩

end Origins

/-- Over every run the ring is a queue of at most 64 frames, and the calls answer with the frames
that were committed, in that order. A block whose read fails is never among them; a block that does
not decompress is, as it was received. -/
theorem recvQueue_fifo (zlib : Zlib) (conn : Conn) (calls : List Call) :
    (answers (step zlib conn) .empty calls).2.Ok ∧
      (answers (step zlib conn) .empty calls).1 =
        (answers (History.step zlib conn) .start calls).1 ∧
      (answers (step zlib conn) .empty calls).2.frames =
        (answers (History.step zlib conn) .start calls).2.queue ∧
      (answers (History.step zlib conn) .start calls).2.departed ≤
        (answers (History.step zlib conn) .start calls).2.committed.length ∧
      ∀ frame ∈ (answers (History.step zlib conn) .start calls).2.committed,
        ∃ call ∈ calls, call.Delivers zlib frame := by
  obtain ⟨hanswers, hend⟩ := answers_simulation
    (fun r h call (hr : Refines r h) => hr.step zlib conn call)
    refines_start calls
  refine ⟨hend.ok, hanswers, hend.frames, hend.departed_le, ?_⟩
  intro frame hframe
  rcases History.answers_committed calls hframe with hnone | hdelivers
  · cases hnone
  · exact hdelivers

/-- A zlib stream of `abc`, and the same stream cut after the bits of `ab`. -/
def abcStream : Bytes := [0x78, 0x9C, 0x4B, 0x4C, 0x4A, 0x06, 0x00, 0x02, 0x4D, 0x01, 0x27]
def cutStream : Bytes := [0x78, 0x9C, 0x4B, 0x4C, 0x4A]

/-- `uncompress_data` as far as it concerns these two. -/
def abcZlib : Zlib where
  run block room :=
    if block = abcStream ∧ 3 ≤ room then (true, [0x61, 0x62, 0x63])
    else if block = cutStream then (false, [0x61, 0x62].take room)
    else (false, [])
  run_length := by
    intro block room
    split_ifs with habc hcut
    · exact habc.2
    · exact List.length_take_le _ _
    · exact Nat.zero_le _

/-- A message of one block, the cut stream, in a compressed session. -/
def cutArrival : Arrival where
  usable := true
  rudp := []
  beforePoll := none
  rudpReady := []
  afterPoll := none
  isAdditional := false
  serverUseCompress := true
  malloc := fun _ => true
  stream := ⟨bytesBE 4 1 ++ bytesBE 4 cutStream.length ++ cutStream, [4, 4, 5]⟩

/-- The block whose decompression fails after two bytes reaches the caller. -/
theorem cutStream_received :
    (abcZlib.run cutStream maxQueuedFrame).1 = false ∧
      (answers (step abcZlib ⟨0, []⟩) .empty
        [.fill cutArrival, .receiveRaw true cutArrival maxQueuedFrame]).1 =
          [.returns 1, ⟨5, cutStream, [5], 0, []⟩] := by
  decide +kernel

end SoftEtherVpn.Receive.Memory
