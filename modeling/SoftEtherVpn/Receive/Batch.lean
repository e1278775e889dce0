import SoftEtherVpn.Receive.Single

/-!
# The receive queue, many packets at a time

`softether_receive_batch` packs IP packets of the queue back to back into one buffer and their
lengths into an array. It stops when the array is full, the queue is empty, or
the next packet does not fit, and then leaves that frame in the queue. Emptying the queue by
batches yields the same packets and ARP replies as emptying it packet by packet.
-/

namespace SoftEtherVpn.Receive

open Foundation

/-- The caller's buffer of `max_len` bytes and array of `max_packets` lengths, with what they
hold. -/
structure BatchArgs where
  buffer : Bytes
  lengths : List ℕ

/-- The loop's variables and what has been sent. -/
structure Batch where
  queue : RecvQueue
  buffer : Bytes
  lengths : List ℕ
  total : ℕ
  count : ℕ
  replies : List Bytes

section Loop

variable (conn : Conn) (maxLen maxPackets : ℕ)

/-- The loop of `softether_receive_batch`; a round takes a frame out of the queue, so as many
rounds as the queue has frames are enough. -/
def batchLoop : ℕ → Batch → Batch
  | 0, b => b
  | rounds + 1, b =>
    if b.count < maxPackets ∧ b.queue.count > 0 then
      let data := b.queue.entry.1
      if data.length ≥ 42 ∧ byteAt data 12 = 0x08 ∧ byteAt data 13 = 0x06 then
        batchLoop rounds { b with
          replies := b.replies ++ (softetherReplyArpRequest conn data).toList
          queue := b.queue.advance }
      else if data.length ≤ ethHeaderSize then
        batchLoop rounds { b with queue := b.queue.advance }
      else if ethertype data ≠ 0x0800 ∧ ethertype data ≠ 0x86DD then
        batchLoop rounds { b with queue := b.queue.advance }
      else if (b.total + (data.length - ethHeaderSize)) % 2 ^ 32 > maxLen then b
      else
        batchLoop rounds { b with
          buffer := splice b.buffer b.total (data.drop ethHeaderSize)
          lengths := b.lengths.set b.count (data.length - ethHeaderSize)
          total := (b.total + (data.length - ethHeaderSize)) % 2 ^ 32
          count := b.count + 1
          queue := b.queue.advance }
    else b

end Loop

/-- The return value, the caller's buffer and array, `*out_count`, what is sent, and the queue. -/
structure BatchResult where
  code : ℤ
  buffer : Bytes
  lengths : List ℕ
  count : ℕ
  replies : List Bytes
  queue : RecvQueue

def runBatch (conn : Conn) (args : BatchArgs) (q : RecvQueue) : BatchResult :=
  let b := batchLoop conn args.buffer.length args.lengths.length q.count
    ⟨q, args.buffer, args.lengths, 0, 0, []⟩
  { code := b.total
    buffer := b.buffer
    lengths := b.lengths.take b.count ++ List.replicate (args.lengths.length - b.count) 0
    count := b.count
    replies := b.replies
    queue := b.queue }

def softetherReceiveBatch (conn : Conn) (fill : ℤ × RecvQueue) (args : BatchArgs)
    (q : RecvQueue) : BatchResult :=
  if args.buffer.length = 0 ∨ args.lengths.length = 0 then
    ⟨0, args.buffer, args.lengths, 0, [], q⟩
  else if q.count = 0 then
    if fill.1 < 0 then ⟨-1, args.buffer, args.lengths, 0, [], fill.2⟩
    else runBatch conn args fill.2
  else runBatch conn args q

/-- The packets that the caller finds in the buffer. -/
def unpack : List ℕ → Bytes → List Bytes
  | [], _ => []
  | n :: ns, buffer => buffer.take n :: unpack ns (buffer.drop n)

/-- The packets and the replies of calls of `softether_receive_batch` until the queue is empty, or
the given number of them; `args` gives the arguments of each call. -/
def emptyByBatch (conn : Conn) (fill : ℤ × RecvQueue) :
    (ℕ → BatchArgs) → ℕ → RecvQueue → List Bytes × List Bytes × RecvQueue
  | _, 0, q => ([], [], q)
  | args, calls + 1, q =>
    if q.count = 0 then ([], [], q)
    else
      let r := softetherReceiveBatch conn fill (args 0) q
      let (packets, replies, q) := emptyByBatch conn fill (fun i => args (i + 1)) calls r.queue
      (unpack (r.lengths.take r.count) r.buffer ++ packets, r.replies ++ replies, q)

theorem unpack_flatten (packets : List Bytes) (rest : Bytes) :
    unpack (packets.map List.length) (packets.flatten ++ rest) = packets := by
  induction packets with
  | nil => rfl
  | cons p packets ih =>
    rw [List.map_cons, List.flatten_cons, List.append_assoc, unpack, List.take_left',
      List.drop_left', ih]
    · rfl
    · rfl

/-- The loop's variables after the frames `taken` of the queue. -/
structure Batched (conn : Conn) (args : BatchArgs) (taken : List QueuedFrame) (b : Batch) :
    Prop where
  replies : b.replies = arpReplies conn taken
  count : b.count = (ipPackets taken).length
  total : b.total = ((ipPackets taken).map List.length).sum
  lengths : b.lengths.take b.count = (ipPackets taken).map List.length
  buffer : b.buffer.take b.total = (ipPackets taken).flatten
  lengths_length : b.lengths.length = args.lengths.length
  buffer_length : b.buffer.length = args.buffer.length
  count_le : b.count ≤ args.lengths.length
  total_le : b.total ≤ args.buffer.length
  total_bound : b.total ≤ maxQueuedFrame * taken.length

section Steps

variable {conn : Conn} {args : BatchArgs} {taken : List QueuedFrame} {b : Batch} {f : QueuedFrame}

theorem Batched.start (conn : Conn) (args : BatchArgs) (q : RecvQueue) :
    Batched conn args [] ⟨q, args.buffer, args.lengths, 0, 0, []⟩ where
  replies := rfl
  count := rfl
  total := rfl
  lengths := rfl
  buffer := rfl
  lengths_length := rfl
  buffer_length := rfl
  count_le := Nat.zero_le _
  total_le := Nat.zero_le _
  total_bound := Nat.zero_le _

/-- A frame that is no IP packet changes the replies only. -/
theorem Batched.skip (h : Batched conn args taken b) (hkind : kind f ≠ .ip) (q : RecvQueue) :
    Batched conn args (taken ++ [f])
      { b with replies := b.replies ++ arpReplies conn [f], queue := q } := by
  have hpackets : ipPackets (taken ++ [f]) = ipPackets taken := by
    rw [ipPackets_append, ipPackets_of_ne hkind, List.append_nil]
  refine ⟨?_, ?_, ?_, ?_, ?_, h.lengths_length, h.buffer_length, h.count_le, h.total_le, ?_⟩
  · rw [arpReplies_append, h.replies]
  · rw [hpackets, h.count]
  · rw [hpackets, h.total]
  · rw [hpackets, h.lengths]
  · rw [hpackets, h.buffer]
  · have hbound := h.total_bound
    rw [List.length_append]
    exact hbound.trans (Nat.mul_le_mul_left _ (Nat.le_add_right _ _))

/-- An IP packet that fits is appended. -/
theorem Batched.packet (h : Batched conn args taken b) (hkind : kind f = .ip)
    (hcount : b.count < args.lengths.length)
    (hroom : b.total + (f.1.length - ethHeaderSize) ≤ args.buffer.length) (q : RecvQueue) :
    Batched conn args (taken ++ [f])
      { b with
        buffer := splice b.buffer b.total (f.1.drop ethHeaderSize)
        lengths := b.lengths.set b.count (f.1.length - ethHeaderSize)
        total := b.total + (f.1.length - ethHeaderSize)
        count := b.count + 1
        queue := q } := by
  have hpackets : ipPackets (taken ++ [f]) = ipPackets taken ++ [f.1.drop ethHeaderSize] := by
    rw [ipPackets_append, ipPackets_of_ip hkind]
  have hdata : (f.1.drop ethHeaderSize).length = f.1.length - ethHeaderSize := List.length_drop
  have hfits : b.total + (f.1.drop ethHeaderSize).length ≤ b.buffer.length := by
    rw [hdata, h.buffer_length]
    exact hroom
  refine ⟨?_, ?_, ?_, ?_, ?_, ?_, ?_, hcount, hroom, ?_⟩
  · rw [arpReplies_append, arpReplies_of_ne conn (by rw [hkind]; decide), List.append_nil,
      h.replies]
  · rw [hpackets, List.length_append, h.count, List.length_singleton]
  · rw [hpackets, List.map_append, List.sum_append, h.total, List.map_singleton,
      List.sum_singleton, hdata]
  · dsimp only
    rw [hpackets, List.map_append, ← h.lengths, List.take_add_one, List.take_set_of_le le_rfl,
      List.getElem?_set_self (by rw [h.lengths_length]; exact hcount), List.map_singleton, hdata]
    rfl
  · have htake : (b.buffer.take b.total).length = b.total := by
      rw [List.length_take]
      omega
    dsimp only
    rw [hpackets, List.flatten_append, ← h.buffer, splice, List.take_left', List.flatten_singleton]
    rw [List.length_append, htake, hdata]
  · rw [List.length_set, h.lengths_length]
  · rw [splice_length hfits, h.buffer_length]
  · have hbound := h.total_bound
    have hframe := f.2
    rw [List.length_append, List.length_singleton, mul_add, mul_one]
    dsimp only
    omega

theorem batchLoop_ip {maxLen maxPackets : ℕ} (rounds : ℕ)
    (hmore : b.count < maxPackets ∧ b.queue.count > 0) (hkind : kind b.queue.entry = .ip) :
    batchLoop conn maxLen maxPackets (rounds + 1) b =
      if (b.total + (b.queue.entry.1.length - ethHeaderSize)) % 2 ^ 32 > maxLen then b
      else
        batchLoop conn maxLen maxPackets rounds { b with
          buffer := splice b.buffer b.total (b.queue.entry.1.drop ethHeaderSize)
          lengths := b.lengths.set b.count (b.queue.entry.1.length - ethHeaderSize)
          total := (b.total + (b.queue.entry.1.length - ethHeaderSize)) % 2 ^ 32
          count := b.count + 1
          queue := b.queue.advance } := by
  unfold kind at hkind
  split_ifs at hkind with harp hshort hother
  rw [batchLoop, if_pos hmore]
  dsimp only
  rw [if_neg harp, if_neg hshort, if_neg hother]

theorem batchLoop_other {maxLen maxPackets : ℕ} (rounds : ℕ)
    (hmore : b.count < maxPackets ∧ b.queue.count > 0) (hkind : kind b.queue.entry ≠ .ip) :
    batchLoop conn maxLen maxPackets (rounds + 1) b =
      batchLoop conn maxLen maxPackets rounds { b with
        replies := b.replies ++ arpReplies conn [b.queue.entry]
        queue := b.queue.advance } := by
  rw [batchLoop, if_pos hmore]
  dsimp only
  by_cases harp : kind b.queue.entry = .arp
  · rw [arpReplies_of_arp conn harp]
    unfold kind at harp
    split_ifs at harp with hcond
    rw [if_pos hcond]
  · rw [arpReplies_of_ne conn harp, List.append_nil]
    unfold kind at hkind harp
    split_ifs at hkind harp with hcond hshort hother
    · contradiction
    · rw [if_neg hcond, if_pos hshort]
    · rw [if_neg hcond, if_neg hshort, if_pos hother]
    · contradiction

/-- The loop ends with a part of the frames taken, because the array is full, the queue is empty or
the next packet may not fit. -/
theorem batchLoop_spec {frames : List QueuedFrame} {rounds : ℕ} (h : Batched conn args taken b)
    (hframes : frames = taken ++ b.queue.frames) (hsize : frames.length ≤ recvQueueSize)
    (hrounds : b.queue.count ≤ rounds) :
    ∃ taken' b', batchLoop conn args.buffer.length args.lengths.length rounds b = b' ∧
      Batched conn args taken' b' ∧ frames = taken' ++ b'.queue.frames ∧
      (b'.count = args.lengths.length ∨ b'.queue.count = 0 ∨
        args.buffer.length < b'.total + (maxQueuedFrame - ethHeaderSize)) := by
  induction rounds generalizing taken b with
  | zero => exact ⟨taken, b, rfl, h, hframes, Or.inr (Or.inl (by omega))⟩
  | succ rounds ih =>
    by_cases hmore : b.count < args.lengths.length ∧ b.queue.count > 0
    swap
    · rw [batchLoop, if_neg hmore]
      have hcount := h.count_le
      exact ⟨taken, b, rfl, h, hframes, by omega⟩
    have htaken : frames = taken ++ [b.queue.entry] ++ b.queue.advance.frames := by
      rw [hframes, RecvQueue.frames_eq_cons hmore.2, List.append_assoc]
      rfl
    have hleft : b.queue.advance.count ≤ rounds := by
      rw [RecvQueue.advance_count]
      omega
    by_cases hkind : kind b.queue.entry = .ip
    swap
    · rw [batchLoop_other rounds hmore hkind]
      exact ih (h.skip hkind _) htaken hleft
    have hframe := b.queue.entry.2
    have hnowrap : (b.total + (b.queue.entry.1.length - ethHeaderSize)) % 2 ^ 32 =
        b.total + (b.queue.entry.1.length - ethHeaderSize) := by
      have hbound := h.total_bound
      have hlength := congrArg List.length htaken
      simp only [List.length_append, List.length_singleton] at hlength
      have htotal : b.total ≤ maxQueuedFrame * recvQueueSize :=
        hbound.trans (Nat.mul_le_mul_left _ (by omega))
      simp only [maxQueuedFrame, recvQueueSize] at htotal hframe
      omega
    rw [batchLoop_ip rounds hmore hkind, hnowrap]
    by_cases hroom : b.total + (b.queue.entry.1.length - ethHeaderSize) > args.buffer.length
    · rw [if_pos hroom]
      exact ⟨taken, b, rfl, h, hframes, by omega⟩
    · rw [if_neg hroom]
      exact ih (h.packet hkind hmore.1 (by omega) _) htaken hleft

end Steps

/-- At least one packet of any size fits, and the array has a place for it. -/
def BatchArgs.Fits (args : BatchArgs) : Prop :=
  maxQueuedFrame - ethHeaderSize ≤ args.buffer.length ∧ 1 ≤ args.lengths.length

instance (args : BatchArgs) : Decidable args.Fits := inferInstanceAs (Decidable (_ ∧ _))

/-- What a call leaves when it has taken the frames `taken`. -/
structure Packed (conn : Conn) (args : BatchArgs) (taken : List QueuedFrame) (r : BatchResult) :
    Prop where
  replies : r.replies = arpReplies conn taken
  count : r.count = (ipPackets taken).length
  lengths : r.lengths.take r.count = (ipPackets taken).map List.length
  positive : ∀ n ∈ r.lengths.take r.count, 0 < n
  sum : (((r.lengths.take r.count).sum : ℕ) : ℤ) = r.code
  unused : r.lengths.drop r.count = List.replicate (args.lengths.length - r.count) 0
  buffer : r.buffer.take r.code.toNat = (ipPackets taken).flatten

theorem length_pos_of_mem_ipPackets {frames : List QueuedFrame} {p : Bytes}
    (h : p ∈ ipPackets frames) : 0 < p.length := by
  obtain ⟨f, -, hf⟩ := List.mem_filterMap.mp h
  split_ifs at hf with hkind
  cases hf
  have hlength := length_of_ip hkind
  rw [List.length_drop]
  omega

section Calls

variable {conn : Conn} {args : BatchArgs}

theorem Batched.packed {taken : List QueuedFrame} {b : Batch} (h : Batched conn args taken b) :
    Packed conn args taken
      { code := b.total
        buffer := b.buffer
        lengths := b.lengths.take b.count ++ List.replicate (args.lengths.length - b.count) 0
        count := b.count
        replies := b.replies
        queue := b.queue } := by
  have hlength : (b.lengths.take b.count).length = b.count := by
    rw [List.length_take, h.lengths_length]
    exact min_eq_left h.count_le
  have htake : (b.lengths.take b.count ++
      List.replicate (args.lengths.length - b.count) 0).take b.count =
        (ipPackets taken).map List.length := by
    rw [List.take_left' hlength, h.lengths]
  refine ⟨h.replies, h.count, htake, ?_, ?_, List.drop_left' hlength, h.buffer⟩
  · intro n hn
    rw [htake] at hn
    obtain ⟨p, hp, rfl⟩ := List.mem_map.mp hn
    exact length_pos_of_mem_ipPackets hp
  · dsimp only
    rw [htake, h.total]

/-- A call takes frames from the head of the queue, at least one if there is any. -/
theorem runBatch_packed (conn : Conn) (args : BatchArgs) (q : RecvQueue) :
    ∃ taken, Packed conn args taken (runBatch conn args q) ∧
      q.frames = taken ++ (runBatch conn args q).queue.frames ∧
      (args.Fits → 0 < q.count → taken ≠ []) := by
  have hsize : q.frames.length ≤ recvQueueSize := by
    rw [RecvQueue.frames_length]
    exact q.count_le
  obtain ⟨taken, b, hb, hbatched, hframes, hstop⟩ :=
    batchLoop_spec (Batched.start conn args q) (List.nil_append q.frames).symm hsize le_rfl
  unfold runBatch
  dsimp only at hb ⊢
  rw [hb]
  refine ⟨taken, hbatched.packed, hframes, ?_⟩
  rintro ⟨hbuffer, hlengths⟩ hcount rfl
  have hzero : b.count = 0 := hbatched.count
  have htotal : b.total = 0 := hbatched.total
  have hlast := congrArg List.length hframes
  simp only [List.nil_append, RecvQueue.frames_length] at hlast
  omega

theorem Packed.unpack_eq {taken : List QueuedFrame} {r : BatchResult}
    (h : Packed conn args taken r) :
    unpack (r.lengths.take r.count) r.buffer = ipPackets taken := by
  have hsplit := List.take_append_drop r.code.toNat r.buffer
  rw [h.lengths, ← hsplit, h.buffer]
  exact unpack_flatten _ _

theorem softetherReceiveBatch_of_fits (hfits : args.Fits) {fill : ℤ × RecvQueue} {q : RecvQueue}
    (hfill : q.count = 0 → 0 ≤ fill.1) :
    softetherReceiveBatch conn fill args q =
      runBatch conn args (if q.count = 0 then fill.2 else q) := by
  have hbuffer : 2034 ≤ args.buffer.length := hfits.1
  have hlengths := hfits.2
  rw [softetherReceiveBatch, if_neg (by omega)]
  split_ifs with hempty hfailed
  · have := hfill hempty
    omega
  · rfl
  · rfl

/-- Emptying the queue by batches yields its IP packets and ARP replies, in order, in at most as
many calls as the queue has frames. -/
theorem emptyByBatch_eq {fill : ℤ × RecvQueue} {args : ℕ → BatchArgs}
    (hargs : ∀ i, (args i).Fits) {calls : ℕ} {q : RecvQueue} (hcalls : q.count ≤ calls) :
    ∃ q', emptyByBatch conn fill args calls q =
        (ipPackets q.frames, arpReplies conn q.frames, q') ∧ q'.count = 0 := by
  induction calls generalizing args q with
  | zero =>
    have hempty : q.count = 0 := by omega
    rw [RecvQueue.frames_eq_nil hempty]
    exact ⟨q, rfl, hempty⟩
  | succ calls ih =>
    by_cases hempty : q.count = 0
    · rw [RecvQueue.frames_eq_nil hempty, emptyByBatch, if_pos hempty]
      exact ⟨q, rfl, hempty⟩
    · obtain ⟨taken, hpacked, hframes, hprogress⟩ := runBatch_packed conn (args 0) q
      have hcall : softetherReceiveBatch conn fill (args 0) q = runBatch conn (args 0) q := by
        rw [softetherReceiveBatch_of_fits (hargs 0) fun h => absurd h hempty, if_neg hempty]
      have hleft : (runBatch conn (args 0) q).queue.count ≤ calls := by
        have hlength := congrArg List.length hframes
        have hsome := List.length_pos_of_ne_nil (hprogress (hargs 0) (by omega))
        simp only [List.length_append, RecvQueue.frames_length] at hlength
        omega
      obtain ⟨q', hrest, hdone⟩ := ih (fun i => hargs (i + 1)) hleft
      refine ⟨q', ?_, hdone⟩
      rw [emptyByBatch, if_neg hempty]
      dsimp only
      rw [hcall, hrest, hpacked.unpack_eq, hpacked.replies, hframes, ipPackets_append,
        arpReplies_append]

end Calls

/-- For every queue, address and MAC, whatever buffers the calls get as long as any one packet fits:
emptying the queue by batches and packet by packet yields the same packets and sends the same
ARP replies; and each batch call that does not fail packs the packets of the frames it
takes, with their lengths in front of zeros. -/
theorem receiveBatch_agrees (conn : Conn) (fill fill' : ℤ × RecvQueue) (q : RecvQueue)
    (args : ℕ → BatchArgs) (hargs : ∀ i, (args i).Fits) (maxLen : ℕ)
    (hmax : maxQueuedFrame - ethHeaderSize ≤ maxLen) :
    (∃ packets replies q₁ q₂,
      emptyByBatch conn fill args q.count q = (packets, replies, q₁) ∧ q₁.count = 0 ∧
      emptyBySingle conn fill' maxLen q.count q = (packets, replies, q₂) ∧ q₂.count = 0) ∧
    ∀ i (q : RecvQueue), (q.count = 0 → 0 ≤ fill.1) →
      ∃ taken, Packed conn (args i) taken (softetherReceiveBatch conn fill (args i) q) ∧
        (if q.count = 0 then fill.2 else q).frames =
          taken ++ (softetherReceiveBatch conn fill (args i) q).queue.frames := by
  constructor
  · obtain ⟨q₁, hbatch, hdone₁⟩ := emptyByBatch_eq hargs le_rfl
    obtain ⟨q₂, hsingle, hdone₂⟩ := emptyBySingle_eq hmax le_rfl
    exact ⟨_, _, q₁, q₂, hbatch, hdone₁, hsingle, hdone₂⟩
  · intro i q hfill
    rw [softetherReceiveBatch_of_fits (hargs i) hfill]
    obtain ⟨taken, hpacked, hframes, -⟩ :=
      runBatch_packed conn (args i) (if q.count = 0 then fill.2 else q)
    exact ⟨taken, hpacked, hframes⟩

/-- Two IPv4 frames at the end and the beginning of the ring. -/
def wrappedQueue : RecvQueue where
  slots := List.replicate recvQueueSize
    ⟨List.replicate 12 0 ++ [0x08, 0x00] ++ List.replicate 20 0x45, by decide⟩
  head := 63
  count := 2
  slots_length := List.length_replicate
  head_lt := by decide
  count_le := by decide

/-- Room for one packet of the largest size. -/
def tightArgs : BatchArgs := ⟨List.replicate 2034 0, [7]⟩

theorem tightArgs_fits : tightArgs.Fits := by
  refine ⟨?_, ?_⟩
  · rw [tightArgs, List.length_replicate]
    decide
  · decide

theorem receiveBatch_agrees_wrapped :
    tightArgs.Fits ∧ maxQueuedFrame - ethHeaderSize ≤ 2034 ∧
      ∃ packets replies q₁ q₂,
        emptyByBatch ⟨0x0A000002, [2, 0, 0, 0, 0, 1]⟩ (0, wrappedQueue) (fun _ => tightArgs)
          wrappedQueue.count wrappedQueue = (packets, replies, q₁) ∧ q₁.count = 0 ∧
        emptyBySingle ⟨0x0A000002, [2, 0, 0, 0, 0, 1]⟩ (0, wrappedQueue) 2034 wrappedQueue.count
          wrappedQueue = (packets, replies, q₂) ∧ q₂.count = 0 :=
  ⟨tightArgs_fits, by decide,
    (receiveBatch_agrees _ _ _ wrappedQueue (fun _ => tightArgs) (fun _ => tightArgs_fits) 2034
      (by decide)).1⟩

/-!
## Progress

A frame that is larger than the caller's buffer stays at the head of the queue, where
`softether_receive` discards it.
-/

/-- The packet of the oldest frame is larger than the whole buffer. -/
def Oversized (args : BatchArgs) (q : RecvQueue) : Prop :=
  kind q.entry = .ip ∧ args.buffer.length < q.entry.1.length - ethHeaderSize

instance (args : BatchArgs) (q : RecvQueue) : Decidable (Oversized args q) :=
  inferInstanceAs (Decidable (_ ∧ _))

section Progress

variable {conn : Conn} {fill : ℤ × RecvQueue} {args : BatchArgs} {q : RecvQueue}

/-- No round of the loop adds a frame to the queue. -/
theorem batchLoop_count_le (conn : Conn) (maxLen maxPackets rounds : ℕ) (b : Batch) :
    (batchLoop conn maxLen maxPackets rounds b).queue.count ≤ b.queue.count := by
  induction rounds generalizing b with
  | zero => exact le_rfl
  | succ rounds ih =>
    by_cases hmore : b.count < maxPackets ∧ b.queue.count > 0
    swap
    · rw [batchLoop, if_neg hmore]
    have hadvance : b.queue.advance.count ≤ b.queue.count := Nat.sub_le _ _
    by_cases hkind : kind b.queue.entry = .ip
    · rw [batchLoop_ip rounds hmore hkind]
      split_ifs
      · exact le_rfl
      · exact (ih _).trans hadvance
    · rw [batchLoop_other rounds hmore hkind]
      exact (ih _).trans hadvance

theorem runBatch_oversized (hlengths : 0 < args.lengths.length) (hcount : 0 < q.count)
    (h : Oversized args q) :
    runBatch conn args q =
      ⟨0, args.buffer, List.replicate args.lengths.length 0, 0, [], q⟩ := by
  obtain ⟨rounds, hrounds⟩ := Nat.exists_eq_succ_of_ne_zero hcount.ne'
  obtain ⟨hkind, hlarge⟩ := h
  have hframe : q.entry.1.length ≤ 2048 := q.entry.2
  have hwrap : (0 + (q.entry.1.length - ethHeaderSize)) % 2 ^ 32 > args.buffer.length := by
    rw [zero_add, Nat.mod_eq_of_lt (by omega)]
    exact hlarge
  have hloop : batchLoop conn args.buffer.length args.lengths.length q.count
      ⟨q, args.buffer, args.lengths, 0, 0, []⟩ = ⟨q, args.buffer, args.lengths, 0, 0, []⟩ := by
    rw [hrounds, batchLoop_ip rounds ⟨hlengths, hcount⟩ hkind, if_pos hwrap]
  unfold runBatch
  rw [hloop]
  rfl

theorem runBatch_count_lt (hlengths : 0 < args.lengths.length) (hcount : 0 < q.count)
    (h : ¬Oversized args q) : (runBatch conn args q).queue.count < q.count := by
  obtain ⟨rounds, hrounds⟩ := Nat.exists_eq_succ_of_ne_zero hcount.ne'
  have hadvance : q.advance.count < q.count := Nat.sub_lt hcount Nat.one_pos
  change (batchLoop _ _ _ _ _).queue.count < _
  rw [hrounds] at hadvance ⊢
  by_cases hkind : kind q.entry = .ip
  · have hfits : ¬(0 + (q.entry.1.length - ethHeaderSize)) % 2 ^ 32 > args.buffer.length := by
      have hroom : ¬args.buffer.length < q.entry.1.length - ethHeaderSize :=
        fun hlarge => h ⟨hkind, hlarge⟩
      have hmod := Nat.mod_le (0 + (q.entry.1.length - ethHeaderSize)) (2 ^ 32)
      omega
    rw [batchLoop_ip rounds ⟨hlengths, hcount⟩ hkind, if_neg hfits]
    exact (batchLoop_count_le conn _ _ rounds _).trans_lt hadvance
  · rw [batchLoop_other rounds ⟨hlengths, hcount⟩ hkind]
    exact (batchLoop_count_le conn _ _ rounds _).trans_lt hadvance

theorem softetherReceiveBatch_of_queued (hbuffer : 0 < args.buffer.length)
    (hlengths : 0 < args.lengths.length) (hcount : 0 < q.count) :
    softetherReceiveBatch conn fill args q = runBatch conn args q := by
  rw [softetherReceiveBatch, if_neg (by omega), if_neg (by omega)]

/-- However often it is called, nothing leaves a queue whose oldest frame is too large. -/
theorem emptyByBatch_oversized {args : ℕ → BatchArgs} (hbuffer : ∀ i, 0 < (args i).buffer.length)
    (hlengths : ∀ i, 0 < (args i).lengths.length) (hcount : 0 < q.count)
    (h : ∀ i, Oversized (args i) q) (calls : ℕ) :
    emptyByBatch conn fill args calls q = ([], [], q) := by
  induction calls generalizing args with
  | zero => rfl
  | succ calls ih =>
    have hrest := ih (fun i => hbuffer (i + 1)) (fun i => hlengths (i + 1)) fun i => h (i + 1)
    rw [emptyByBatch, if_neg hcount.ne',
      softetherReceiveBatch_of_queued (hbuffer 0) (hlengths 0) hcount,
      runBatch_oversized (hlengths 0) hcount (h 0)]
    dsimp only
    rw [hrest]
    rfl

end Progress

/-- A call on a queue with frames takes one out exactly if the oldest of them is no IP packet larger
than the buffer. -/
theorem receiveBatch_progress_iff (conn : Conn) (fill : ℤ × RecvQueue) (args : BatchArgs)
    (q : RecvQueue) (hbuffer : 1 ≤ args.buffer.length) (hlengths : 1 ≤ args.lengths.length)
    (hcount : 0 < q.count) :
    (softetherReceiveBatch conn fill args q).queue.count < q.count ↔ ¬Oversized args q := by
  rw [softetherReceiveBatch_of_queued hbuffer hlengths hcount]
  constructor
  · intro hless hlarge
    rw [runBatch_oversized hlengths hcount hlarge] at hless
    exact lt_irrefl _ hless
  · exact runBatch_count_lt hlengths hcount

/-- Room for a packet of twenty bytes, and for one of a byte less. -/
def twentyByteArgs : BatchArgs := ⟨List.replicate 20 0, [7]⟩

def nineteenByteArgs : BatchArgs := ⟨List.replicate 19 0, [7]⟩

theorem receiveBatch_progress_twentyBytes :
    1 ≤ twentyByteArgs.buffer.length ∧ 1 ≤ twentyByteArgs.lengths.length ∧
      0 < wrappedQueue.count ∧
      (softetherReceiveBatch ⟨0x0A000002, [2, 0, 0, 0, 0, 1]⟩ (0, wrappedQueue) twentyByteArgs
        wrappedQueue).queue.count < wrappedQueue.count :=
  ⟨by decide, by decide, by decide,
    (receiveBatch_progress_iff _ _ _ _ (by decide) (by decide) (by decide)).mpr (by decide)⟩

/-- The second frame of the queue never leaves it. -/
theorem receiveBatch_blocked :
    1 ≤ nineteenByteArgs.buffer.length ∧ 1 ≤ nineteenByteArgs.lengths.length ∧
      (∀ f ∈ wrappedQueue.frames, 1 ≤ f.1.length ∧ f.1.length ≤ 2048) ∧
      ¬(softetherReceiveBatch ⟨0x0A000002, [2, 0, 0, 0, 0, 1]⟩ (0, wrappedQueue) nineteenByteArgs
        wrappedQueue).queue.count < wrappedQueue.count ∧
      ∀ calls, emptyByBatch ⟨0x0A000002, [2, 0, 0, 0, 0, 1]⟩ (0, wrappedQueue)
        (fun _ => nineteenByteArgs) calls wrappedQueue = ([], [], wrappedQueue) := by
  have hlarge : Oversized nineteenByteArgs wrappedQueue := by decide
  refine ⟨by decide, by decide, by decide, ?_, fun calls => ?_⟩
  · rw [softetherReceiveBatch_of_queued (by decide) (by decide) (by decide),
      runBatch_oversized (by decide) (by decide) hlarge]
    exact lt_irrefl _
  · exact emptyByBatch_oversized (fun _ => by decide) (fun _ => by decide) (by decide)
      (fun _ => hlarge) calls

end SoftEtherVpn.Receive
