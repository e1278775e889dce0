import SoftEtherVpn.Foundation.Bytes
import SoftEtherVpn.Foundation.Ring

/-!
# The receive queue, one packet at a time

`softether_receive` on a connected session: it takes one frame out of the ring of received
frames, answers an ARP request for the assigned address, skips what is no IP frame, and
returns an IP packet without its Ethernet header. `fill` is what `softether_fill_recv_queue`
returns and leaves when the ring is empty.
-/

namespace SoftEtherVpn.Receive

open Foundation

def recvQueueSize : ℕ := 64
def maxQueuedFrame : ℕ := 2048
def ethHeaderSize : ℕ := 14

abbrev QueuedFrame := { f : Bytes // f.length ≤ maxQueuedFrame }

structure RecvQueue where
  slots : List QueuedFrame
  head : ℕ
  count : ℕ
  slots_length : slots.length = recvQueueSize
  head_lt : head < recvQueueSize
  count_le : count ≤ recvQueueSize

namespace RecvQueue

/-- The frames of the queue, oldest first. -/
def frames (q : RecvQueue) : List QueuedFrame := ringContents q.slots q.head q.count

/-- `recv_queue[recv_queue_head]`. -/
def entry (q : RecvQueue) : QueuedFrame :=
  q.slots.get ⟨q.head, by rw [q.slots_length]; exact q.head_lt⟩

/-- `recv_queue_head` and `recv_queue_count` move by one. -/
def advance (q : RecvQueue) : RecvQueue where
  slots := q.slots
  head := (q.head + 1) % recvQueueSize
  count := q.count - 1
  slots_length := q.slots_length
  head_lt := Nat.mod_lt _ (by decide)
  count_le := (Nat.sub_le _ _).trans q.count_le

@[simp] theorem frames_length (q : RecvQueue) : q.frames.length = q.count := by
  apply ringContents_length
  rw [q.slots_length]
  exact q.count_le

theorem frames_eq_nil {q : RecvQueue} (h : q.count = 0) : q.frames = [] := by
  apply List.eq_nil_of_length_eq_zero
  rw [frames_length, h]

theorem advance_count (q : RecvQueue) : q.advance.count = q.count - 1 := rfl

theorem frames_eq_cons {q : RecvQueue} (h : 0 < q.count) :
    q.frames = q.entry :: q.advance.frames := by
  have hcount : q.count ≤ q.slots.length := by
    rw [q.slots_length]
    exact q.count_le
  have hhead : q.head < q.slots.length := by
    rw [q.slots_length]
    exact q.head_lt
  have hcons := ringContents_eq_cons hhead hcount h
  simp only [q.slots_length] at hcons
  exact hcons

end RecvQueue

structure Conn where
  assignedIp : ℕ
  clientMac : Bytes

def byteAt (data : Bytes) (i : ℕ) : UInt8 := data.getD i 0

/-- `softether_reply_arp_request`: the frame that goes to `softether_send_raw`. -/
def softetherReplyArpRequest (conn : Conn) (data : Bytes) : Option Bytes :=
  if ¬(byteAt data 20 = 0 ∧ byteAt data 21 = 1 ∧ conn.assignedIp ≠ 0) then none
  else if natBE ((data.drop 38).take 4) ≠ conn.assignedIp then none
  else some ((data.drop 6).take 6 ++ conn.clientMac ++ [0x08, 0x06] ++ [0x00, 0x01] ++
    [0x08, 0x00] ++ [6, 4] ++ [0x00, 0x02] ++ conn.clientMac ++ bytesBE 4 conn.assignedIp ++
    (data.drop 22).take 6 ++ (data.drop 28).take 4)

/-- What a call of `softether_receive` returns, puts into the buffer and sends. -/
structure Received where
  code : ℤ
  packet : Bytes
  replies : List Bytes
  queue : RecvQueue

def ethertype (data : Bytes) : ℕ := (byteAt data 12).toNat * 256 + (byteAt data 13).toNat

/-- `softether_receive` from the dequeuing on. -/
def receiveEntry (conn : Conn) (maxLen : ℕ) (q : RecvQueue) : Received :=
  let data := q.entry.1
  if data.length ≥ 42 ∧ byteAt data 12 = 0x08 ∧ byteAt data 13 = 0x06 then
    ⟨0, [], (softetherReplyArpRequest conn data).toList, q.advance⟩
  else if data.length ≤ ethHeaderSize then ⟨0, [], [], q.advance⟩
  else if ethertype data ≠ 0x0800 ∧ ethertype data ≠ 0x86DD then ⟨0, [], [], q.advance⟩
  else if data.length - ethHeaderSize > maxLen then ⟨-1, [], [], q.advance⟩
  else ⟨(data.length - ethHeaderSize : ℕ), data.drop ethHeaderSize, [], q.advance⟩

def softetherReceive (conn : Conn) (fill : ℤ × RecvQueue) (maxLen : ℕ) (q : RecvQueue) :
    Received :=
  if q.count = 0 then
    if fill.1 < 0 then ⟨-1, [], [], fill.2⟩
    else if fill.1 = 0 then ⟨0, [], [], fill.2⟩
    else if fill.2.count = 0 then ⟨0, [], [], fill.2⟩
    else receiveEntry conn maxLen fill.2
  else receiveEntry conn maxLen q

/-- The packets and the replies of calls of `softether_receive` until the queue is empty, or the
given number of them. -/
def emptyBySingle (conn : Conn) (fill : ℤ × RecvQueue) (maxLen : ℕ) :
    ℕ → RecvQueue → List Bytes × List Bytes × RecvQueue
  | 0, q => ([], [], q)
  | calls + 1, q =>
    if q.count = 0 then ([], [], q)
    else
      let r := softetherReceive conn fill maxLen q
      let (packets, replies, q) := emptyBySingle conn fill maxLen calls r.queue
      ((if r.code > 0 then [r.packet] else []) ++ packets, r.replies ++ replies, q)

/-- What a frame is to the receiver. -/
inductive Kind
  | arp
  | skipped
  | ip
  deriving DecidableEq

def kind (f : QueuedFrame) : Kind :=
  if f.1.length ≥ 42 ∧ byteAt f.1 12 = 0x08 ∧ byteAt f.1 13 = 0x06 then .arp
  else if f.1.length ≤ ethHeaderSize then .skipped
  else if ethertype f.1 ≠ 0x0800 ∧ ethertype f.1 ≠ 0x86DD then .skipped
  else .ip

/-- The IP packets of the frames, in order. -/
def ipPackets (frames : List QueuedFrame) : List Bytes :=
  frames.filterMap fun f => if kind f = .ip then some (f.1.drop ethHeaderSize) else none

/-- The answers to the ARP requests among the frames, in order. -/
def arpReplies (conn : Conn) (frames : List QueuedFrame) : List Bytes :=
  frames.filterMap fun f => if kind f = .arp then softetherReplyArpRequest conn f.1 else none

theorem ipPackets_append (fs gs : List QueuedFrame) :
    ipPackets (fs ++ gs) = ipPackets fs ++ ipPackets gs :=
  List.filterMap_append

theorem arpReplies_append (conn : Conn) (fs gs : List QueuedFrame) :
    arpReplies conn (fs ++ gs) = arpReplies conn fs ++ arpReplies conn gs :=
  List.filterMap_append

theorem ipPackets_of_ip {f : QueuedFrame} (h : kind f = .ip) :
    ipPackets [f] = [f.1.drop ethHeaderSize] := by
  simp [ipPackets, h]

theorem ipPackets_of_ne {f : QueuedFrame} (h : kind f ≠ .ip) : ipPackets [f] = [] := by
  simp [ipPackets, h]

theorem arpReplies_of_arp {f : QueuedFrame} (conn : Conn) (h : kind f = .arp) :
    arpReplies conn [f] = (softetherReplyArpRequest conn f.1).toList := by
  cases hreply : softetherReplyArpRequest conn f.1 <;> simp [arpReplies, h, hreply]

theorem arpReplies_of_ne {f : QueuedFrame} (conn : Conn) (h : kind f ≠ .arp) :
    arpReplies conn [f] = [] := by
  simp [arpReplies, h]

theorem length_of_ip {f : QueuedFrame} (h : kind f = .ip) : ethHeaderSize < f.1.length := by
  unfold kind at h
  split_ifs at h
  omega

section Single

variable {conn : Conn} {fill : ℤ × RecvQueue} {maxLen : ℕ}

theorem receiveEntry_eq (conn : Conn) (maxLen : ℕ) (q : RecvQueue) :
    receiveEntry conn maxLen q =
      match kind q.entry with
      | .arp => ⟨0, [], (softetherReplyArpRequest conn q.entry.1).toList, q.advance⟩
      | .skipped => ⟨0, [], [], q.advance⟩
      | .ip =>
        if q.entry.1.length - ethHeaderSize > maxLen then ⟨-1, [], [], q.advance⟩
        else ⟨(q.entry.1.length - ethHeaderSize : ℕ), q.entry.1.drop ethHeaderSize, [],
          q.advance⟩ := by
  unfold receiveEntry kind
  dsimp only
  split_ifs <;> rfl

/-- A call with a frame in the queue handles that frame and no other. -/
theorem receiveEntry_spec (conn : Conn) (hmax : maxQueuedFrame - ethHeaderSize ≤ maxLen) (q : RecvQueue) :
    (receiveEntry conn maxLen q).queue = q.advance ∧
      (receiveEntry conn maxLen q).replies = arpReplies conn [q.entry] ∧
      (if (receiveEntry conn maxLen q).code > 0 then [(receiveEntry conn maxLen q).packet]
        else []) = ipPackets [q.entry] := by
  rw [receiveEntry_eq]
  cases hkind : kind q.entry with
  | arp =>
    rw [arpReplies_of_arp conn hkind, ipPackets_of_ne (by rw [hkind]; decide)]
    exact ⟨rfl, rfl, rfl⟩
  | skipped =>
    rw [arpReplies_of_ne conn (by rw [hkind]; decide), ipPackets_of_ne (by rw [hkind]; decide)]
    exact ⟨rfl, rfl, rfl⟩
  | ip =>
    have hshort := q.entry.2
    have hheader := length_of_ip hkind
    rw [arpReplies_of_ne conn (by rw [hkind]; decide), ipPackets_of_ip hkind]
    dsimp only
    rw [if_neg (by omega)]
    refine ⟨rfl, rfl, if_pos ?_⟩
    dsimp only
    omega

/-- Emptying the queue one packet at a time yields its IP packets and ARP replies, in order. -/
theorem emptyBySingle_eq (hmax : maxQueuedFrame - ethHeaderSize ≤ maxLen) {calls : ℕ}
    {q : RecvQueue} (hcalls : q.count ≤ calls) :
    ∃ q', emptyBySingle conn fill maxLen calls q =
        (ipPackets q.frames, arpReplies conn q.frames, q') ∧ q'.count = 0 := by
  induction calls generalizing q with
  | zero =>
    have hempty : q.count = 0 := by omega
    rw [RecvQueue.frames_eq_nil hempty]
    exact ⟨q, rfl, hempty⟩
  | succ calls ih =>
    by_cases hempty : q.count = 0
    · rw [RecvQueue.frames_eq_nil hempty, emptyBySingle, if_pos hempty]
      exact ⟨q, rfl, hempty⟩
    · obtain ⟨hqueue, hreplies, hpacket⟩ := receiveEntry_spec conn hmax q
      obtain ⟨q', hrest, hdone⟩ := ih (q := q.advance) (by rw [q.advance_count]; omega)
      refine ⟨q', ?_, hdone⟩
      rw [emptyBySingle, if_neg hempty, softetherReceive, if_neg hempty]
      dsimp only
      have hframes : q.frames = [q.entry] ++ q.advance.frames :=
        RecvQueue.frames_eq_cons (Nat.pos_of_ne_zero hempty)
      rw [hqueue, hrest, hframes, ipPackets_append, arpReplies_append, ← hreplies, ← hpacket]

end Single

end SoftEtherVpn.Receive
