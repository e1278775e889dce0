import SoftEtherVpn.Receive.QueueRuns

/-!
# From the receive queue to the TUN interface

The receive loop of the controller. Every round asks for up to 32 packets with one native call,
which packs them into a buffer and an array of lengths that the loop reuses, and writes the
packets to the TUN interface one after the other. The packets that reach the interface are those of
the frames that have left the queue, in order and each once, and no frame waits longer than two
rounds.
-/

namespace SoftEtherVpn.Receive.Memory

open Foundation

def receiveBufferSize : ℕ := 65535
def rxBatchMaxPackets : ℕ := 32

/-- What a call of `TunTerminal.write` meets: `isRunning`, and whether the stream takes the
packet. -/
structure Tun where
  isRunning : Bool
  accepts : Bool

/-- A call of `TunTerminal.write(buffer, offset, length)`, with the bytes of the slice and what it
returns. -/
structure Write where
  offset : ℕ
  length : ℕ
  packet : Bytes
  code : ℤ
  deriving DecidableEq

/-- `FileOutputStream.write` throws if the slice leaves the buffer. -/
def terminalWrite (tun : Tun) (buffer : Bytes) (offset length : ℕ) : Write where
  offset := offset
  length := length
  packet := (buffer.drop offset).take length
  code :=
    if tun.isRunning = false then -1
    else if buffer.length < offset + length ∨ tun.accepts = false then -1
    else length

/-- The loop over `batchLengths`. -/
def writeFrames (tun : ℕ → Tun) (buffer : Bytes) : ℕ → ℕ → List ℕ → List Write
  | _, _, [] => []
  | i, offset, len :: lens =>
    if len = 0 then []
    else
      terminalWrite (tun i) buffer offset len ::
        writeFrames tun buffer (i + 1) (offset + len) lens

/-- What a round of the loop meets: the controller's state before the call and after a failed one,
the handles of the client, whether JNI gives access to the arrays, the connection's state, what
arrives, and the writes to the interface. -/
structure Round where
  isConnected : Bool
  isCancelled : Bool
  stillConnected : Bool
  externalHandle : ℕ
  nativeHandle : ℕ
  elements : Bool
  connected : Bool
  arrival : Arrival
  tun : ℕ → Tun

/-- What the loop asks of other components, and the ARP replies that the native call sends. -/
inductive Action
  | reply (frame : Bytes)
  | write (w : Write)
  | recordReceived
  | protectAdditionalSockets
  | attemptReconnect
  deriving DecidableEq

structure ReceiveLoop where
  receiveBuffer : Bytes
  batchLengths : List ℕ
  receiveCount : ℤ
  bytesReceived : ℕ
  packetsReceived : ℕ
  queue : Ring
  running : Bool

namespace ReceiveLoop

def start (queue : Ring) : ReceiveLoop where
  receiveBuffer := List.replicate receiveBufferSize 0
  batchLengths := List.replicate rxBatchMaxPackets 0
  receiveCount := 0
  bytesReceived := 0
  packetsReceived := 0
  queue := queue
  running := true

end ReceiveLoop

section Loop

variable (zlib : Zlib) (conn : Conn)

/-- The answer of the call with the caller's arrays after it: `JNI_ABORT` drops what was written to
the buffer. -/
def nativeReceiveBatch (handle : ℕ) (i : Round) (buffer : Bytes) (lengths : List ℕ) (queue : Ring) :
    Answer × Ring :=
  if handle = 0 ∨ lengths.length = 0 ∨ buffer.length = 0 ∨ i.elements = false then
    (⟨-1, buffer, lengths, 0, []⟩, queue)
  else
    let result := softetherReceiveBatch zlib conn i.connected i.arrival ⟨buffer, lengths⟩ queue
    if result.1.code > 0 then result
    else ({ result.1 with bytes := buffer }, result.2)

def receiveBatch (i : Round) (buffer : Bytes) (lengths : List ℕ) (queue : Ring) : Answer × Ring :=
  let handle := if i.externalHandle ≠ 0 then i.externalHandle else i.nativeHandle
  if handle = 0 then (⟨-1, buffer, lengths, 0, []⟩, queue)
  else nativeReceiveBatch zlib conn handle i buffer lengths queue

/-- What the loop does with the result of the call. -/
def handleBatch (i : Round) (result : Answer) (s : ReceiveLoop) : List Action × ReceiveLoop :=
  let replies := result.replies.map Action.reply
  if result.code > 0 then
    let writes := writeFrames i.tun result.bytes 0 0 result.lengths
    let written := writes.countP fun w => 0 < w.code
    let receiveCount := Int.bmod (s.receiveCount + 1) (2 ^ 32)
    (replies ++ writes.map .write ++
        (if receiveCount.tmod 50 = 0 then [.protectAdditionalSockets] else []),
      { s with
        bytesReceived := s.bytesReceived + if written > 0 then result.code.toNat else 0
        packetsReceived := s.packetsReceived + written
        receiveCount := receiveCount })
  else if result.code = 0 then (replies ++ [.recordReceived], s)
  else
    (replies ++ (if i.stillConnected then [.attemptReconnect] else []), { s with running := false })

def receiveRound (s : ReceiveLoop) (i : Round) : List Action × ReceiveLoop :=
  if s.running = false then ([], s)
  else if ¬(i.isConnected = true ∧ i.isCancelled = false) then ([], { s with running := false })
  else
    let result := receiveBatch zlib conn i s.receiveBuffer s.batchLengths s.queue
    handleBatch i result.1
      { s with
        receiveBuffer := result.1.bytes
        batchLengths := result.1.lengths
        queue := result.2 }

end Loop

/-!
### What the interface is to get
-/

/-- A frame with an IPv4 or IPv6 packet. -/
def CarriesIp (frame : Bytes) : Prop :=
  ethHeaderSize < frame.length ∧ (ethertype frame = 0x0800 ∨ ethertype frame = 0x86DD)

instance : DecidablePred CarriesIp := fun _ => inferInstanceAs (Decidable (_ ∧ _))

def CarriesArp (frame : Bytes) : Prop := 42 ≤ frame.length ∧ ethertype frame = 0x0806

instance : DecidablePred CarriesArp := fun _ => inferInstanceAs (Decidable (_ ∧ _))

def packetsOf (frames : List Bytes) : List Bytes :=
  (frames.filter fun f => CarriesIp f).map (List.drop ethHeaderSize)

def repliesTo (conn : Conn) (frames : List Bytes) : List Bytes :=
  (frames.filter fun f => CarriesArp f).filterMap (softetherReplyArpRequest conn)

/-- The frames that have left the queue between two histories. -/
def History.leftSince (h h' : History) : List Bytes :=
  (h'.committed.take h'.departed).drop h.departed

def writes (actions : List Action) : List Write :=
  actions.filterMap fun
    | .write w => some w
    | _ => none

def replies (actions : List Action) : List Bytes :=
  actions.filterMap fun
    | .reply frame => some frame
    | _ => none

/-- The writes that the interface took. -/
def taken (actions : List Action) : List Write := (writes actions).filter fun w => 0 < w.code

def volume (ws : List Write) : ℕ := (ws.map Write.length).sum

/-- A write of a whole packet inside the buffer. -/
structure Write.Whole (w : Write) : Prop where
  nonempty : 0 < w.length
  packet : w.packet.length = w.length
  inside : w.offset + w.length ≤ receiveBufferSize
  code : w.code = w.length ∨ w.code = -1

section Kinds

variable {f : QueuedFrame}

theorem ethertype_eq_arp (data : Bytes) :
    (byteAt data 12 = 0x08 ∧ byteAt data 13 = 0x06) ↔ ethertype data = 0x0806 := by
  have hhigh := (byteAt data 12).toNat_lt
  have hlow := (byteAt data 13).toNat_lt
  rw [← UInt8.toNat_inj, ← UInt8.toNat_inj, ethertype]
  change (byteAt data 12).toNat = 8 ∧ (byteAt data 13).toNat = 6 ↔ _
  omega

theorem kind_eq_ip : kind f = .ip ↔ CarriesIp f.1 := by
  unfold kind CarriesIp
  simp only [ethertype_eq_arp]
  split_ifs with harp hshort hother
  · simp [harp.2]
  · simp [hshort]
  · simp [hother]
  · simp only [true_iff]
    omega

theorem kind_eq_arp : kind f = .arp ↔ CarriesArp f.1 := by
  unfold kind CarriesArp
  simp only [ethertype_eq_arp]
  split_ifs with harp hshort hother
  · simpa using harp
  · simpa using harp
  · simpa using harp
  · simpa using harp

theorem packetsOf_val (fs : List QueuedFrame) : packetsOf (fs.map Subtype.val) = ipPackets fs := by
  induction fs with
  | nil => rfl
  | cons f fs ih =>
    have hcons : ipPackets (f :: fs) = ipPackets [f] ++ ipPackets fs := ipPackets_append [f] fs
    rw [hcons, ← ih, packetsOf, packetsOf, List.map_cons]
    by_cases hkind : kind f = .ip
    · rw [ipPackets_of_ip hkind, List.filter_cons_of_pos (by simpa using kind_eq_ip.mp hkind)]
      rfl
    · rw [ipPackets_of_ne hkind,
        List.filter_cons_of_neg (by simpa using fun h => hkind (kind_eq_ip.mpr h))]
      rfl

theorem repliesTo_val (conn : Conn) (fs : List QueuedFrame) :
    repliesTo conn (fs.map Subtype.val) = arpReplies conn fs := by
  induction fs with
  | nil => rfl
  | cons f fs ih =>
    have hcons : arpReplies conn (f :: fs) = arpReplies conn [f] ++ arpReplies conn fs :=
      arpReplies_append conn [f] fs
    rw [hcons, ← ih, repliesTo, repliesTo, List.map_cons]
    by_cases hkind : kind f = .arp
    · rw [arpReplies_of_arp conn hkind,
        List.filter_cons_of_pos (by simpa using kind_eq_arp.mp hkind)]
      cases hreply : softetherReplyArpRequest conn f.1 <;> simp [hreply]
    · rw [arpReplies_of_ne conn hkind,
        List.filter_cons_of_neg (by simpa using fun h => hkind (kind_eq_arp.mpr h))]
      rfl

end Kinds

/-!
### One call

With room for 32 packets of the largest size the buffer is never full, so a call stops only when it
has 32 packets or the queue is empty.
-/

section Packing

variable {conn : Conn} {args : BatchArgs} {p : Packing} {f : QueuedFrame}

theorem packFrame_ip (maxLen : ℕ) (hkind : kind f = .ip) :
    packFrame conn maxLen p f.1 =
      if (p.total + (f.1.length - ethHeaderSize)) % 2 ^ 32 > maxLen then none
      else
        some { p with
          buffer := splice p.buffer p.total (f.1.drop ethHeaderSize)
          lengths := p.lengths.set p.count (f.1.length - ethHeaderSize)
          total := (p.total + (f.1.length - ethHeaderSize)) % 2 ^ 32
          count := p.count + 1 } := by
  unfold kind at hkind
  split_ifs at hkind with harp hshort hother
  rw [packFrame, if_neg harp, if_neg hshort, if_neg hother]

theorem packFrame_other (maxLen : ℕ) (hkind : kind f ≠ .ip) :
    packFrame conn maxLen p f.1 = some { p with replies := p.replies ++ arpReplies conn [f] } := by
  rw [packFrame]
  by_cases harp : kind f = .arp
  · rw [arpReplies_of_arp conn harp]
    unfold kind at harp
    split_ifs at harp with hcond
    rw [if_pos hcond]
  · rw [arpReplies_of_ne conn harp, List.append_nil]
    unfold kind at hkind harp
    split_ifs at hkind harp with hcond hshort hother
    · contradiction
    · rw [if_neg hcond, if_pos hshort]
    · rw [if_neg hcond, if_neg hshort, if_pos hother]
    · contradiction

theorem sum_length_le {packets : List Bytes} {n : ℕ} (h : ∀ p ∈ packets, p.length ≤ n) :
    (packets.map List.length).sum ≤ n * packets.length := by
  have hsum := List.sum_le_card_nsmul (packets.map List.length) n (by simpa using h)
  rw [List.length_map, smul_eq_mul] at hsum
  rw [mul_comm]
  exact hsum

theorem length_le_of_mem_ipPackets {frames : List QueuedFrame} {p : Bytes}
    (h : p ∈ ipPackets frames) : p.length ≤ maxQueuedFrame - ethHeaderSize := by
  obtain ⟨f, -, hf⟩ := List.mem_filterMap.mp h
  split_ifs at hf with hkind
  cases hf
  have hlength := f.2
  rw [List.length_drop]
  omega

/-- The buffer holds as many packets of the largest size as the array has places. -/
def Ample (args : BatchArgs) : Prop :=
  (maxQueuedFrame - ethHeaderSize) * args.lengths.length ≤ args.buffer.length ∧
    args.buffer.length < 2 ^ 32

theorem packFrames_spec (hargs : Ample args) (q : RecvQueue) {before : List QueuedFrame}
    (h : Batched conn args before (p.batch q)) (fs : List QueuedFrame) :
    ∃ front rest p', fs = front ++ rest ∧
      packFrames conn args.buffer.length args.lengths.length p (fs.map Subtype.val) =
        (p', front.length) ∧
      Batched conn args (before ++ front) (p'.batch q) ∧
      (rest = [] ∨ args.lengths.length ≤ front.length + p.count) := by
  induction fs generalizing p before with
  | nil => exact ⟨[], [], p, rfl, rfl, by rwa [List.append_nil], .inl rfl⟩
  | cons f fs ih =>
    rw [List.map_cons, packFrames]
    by_cases hmore : p.count < args.lengths.length
    swap
    · rw [if_neg hmore]
      exact ⟨[], f :: fs, p, rfl, rfl, by rwa [List.append_nil], .inr (by simpa using hmore)⟩
    rw [if_pos hmore]
    by_cases hkind : kind f = .ip
    · have hfit : (p.total + (f.1.length - ethHeaderSize)) % 2 ^ 32 =
            p.total + (f.1.length - ethHeaderSize) ∧
          p.total + (f.1.length - ethHeaderSize) ≤ args.buffer.length := by
        have htotal : p.total ≤ (maxQueuedFrame - ethHeaderSize) * p.count := by
          have hsum := sum_length_le fun q (hq : q ∈ ipPackets before) =>
            length_le_of_mem_ipPackets hq
          rwa [← h.total, ← h.count] at hsum
        have hplaces := hargs.1
        have hword := hargs.2
        have hframe := f.2
        simp only [maxQueuedFrame, ethHeaderSize] at htotal hplaces hframe ⊢
        omega
      rw [packFrame_ip _ hkind, hfit.1, if_neg (by omega)]
      have hpacket := h.packet hkind hmore hfit.2 q
      change Batched conn args _ (Packing.batch
        { p with
          buffer := splice p.buffer p.total (f.1.drop ethHeaderSize)
          lengths := p.lengths.set p.count (f.1.length - ethHeaderSize)
          total := p.total + (f.1.length - ethHeaderSize)
          count := p.count + 1 } q) at hpacket
      obtain ⟨front, rest, p', rfl, hpacked, hbatched, hrest⟩ := ih hpacket
      refine ⟨f :: front, rest, p', rfl, ?_, ?_, ?_⟩
      · dsimp only
        rw [hpacked]
        rfl
      · rwa [List.append_assoc] at hbatched
      · refine hrest.imp_right fun hcount => ?_
        rw [List.length_cons]
        change _ ≤ front.length + (p.count + 1) at hcount
        omega
    · rw [packFrame_other _ hkind]
      have hskip := h.skip hkind q
      change Batched conn args _
        (Packing.batch { p with replies := p.replies ++ arpReplies conn [f] } q) at hskip
      obtain ⟨front, rest, p', rfl, hpacked, hbatched, hrest⟩ := ih hskip
      refine ⟨f :: front, rest, p', rfl, ?_, ?_, ?_⟩
      · dsimp only
        rw [hpacked]
        rfl
      · rwa [List.append_assoc] at hbatched
      · refine hrest.imp_right fun hcount => ?_
        rw [List.length_cons]
        change _ ≤ front.length + p.count at hcount
        omega

end Packing

/-- The writes of a buffer of packets behind what has been written. -/
theorem writeFrames_packets (tun : ℕ → Tun) (i zeros : ℕ) {buffer before rest : Bytes}
    {packets : List Bytes} (hbuffer : buffer = before ++ (packets.flatten ++ rest))
    (hpackets : ∀ p ∈ packets, 0 < p.length) (hsize : buffer.length ≤ receiveBufferSize) :
    (writeFrames tun buffer i before.length
        (packets.map List.length ++ List.replicate zeros 0)).map Write.packet = packets ∧
      (∀ w ∈ writeFrames tun buffer i before.length
        (packets.map List.length ++ List.replicate zeros 0), w.Whole) ∧
      volume (writeFrames tun buffer i before.length
        (packets.map List.length ++ List.replicate zeros 0)) =
        (packets.map List.length).sum := by
  induction packets generalizing before i with
  | nil =>
    cases zeros with
    | zero => exact ⟨rfl, by simp [writeFrames], rfl⟩
    | succ zeros => exact ⟨rfl, by simp [writeFrames, List.replicate_succ], rfl⟩
  | cons p packets ih =>
    have hpos : 0 < p.length := hpackets p List.mem_cons_self
    rw [List.flatten_cons, List.append_assoc] at hbuffer
    rw [← List.append_assoc] at hbuffer
    obtain ⟨hrest, hwhole, hvolume⟩ := ih (i + 1) hbuffer fun p hp =>
      hpackets p (List.mem_cons_of_mem _ hp)
    rw [List.append_assoc] at hbuffer
    rw [List.length_append] at hrest hwhole hvolume
    have hslice : (terminalWrite (tun i) buffer before.length p.length).packet = p := by
      change (buffer.drop before.length).take p.length = p
      rw [hbuffer, List.drop_left, List.take_left]
    have hinside : before.length + p.length ≤ buffer.length := by
      rw [hbuffer]
      simp only [List.length_append]
      omega
    have hhead : (terminalWrite (tun i) buffer before.length p.length).Whole := by
      refine ⟨hpos, congrArg List.length hslice, hinside.trans hsize, ?_⟩
      unfold terminalWrite
      dsimp only
      split_ifs
      · exact .inr rfl
      · exact .inr rfl
      · exact .inl rfl
    rw [List.map_cons, List.cons_append, writeFrames, if_neg hpos.ne']
    refine ⟨?_, ?_, ?_⟩
    · rw [List.map_cons, hslice, hrest]
    · exact List.forall_mem_cons.mpr ⟨hhead, hwhole⟩
    · rw [volume, List.map_cons, List.sum_cons, List.sum_cons, ← hvolume]
      rfl

theorem Ring.frames_val (r : Ring) : ∃ fs : List QueuedFrame, r.frames = fs.map Subtype.val := by
  have hframe (s : Slot) : s.frame.length ≤ maxQueuedFrame := by
    rw [Slot.frame, List.length_take, s.data_length]
    exact min_le_right _ _
  refine ⟨(ringContents r.slots r.head r.count.toNat).map fun s => ⟨s.frame, hframe s⟩, ?_⟩
  rw [List.map_map]
  rfl

/-- What a call answers that takes the frames `front`. -/
structure Took (conn : Conn) (front : List QueuedFrame) (a : Answer) : Prop where
  replies : a.replies = arpReplies conn front
  lengths : ∃ zeros, a.lengths = (ipPackets front).map List.length ++ List.replicate zeros 0
  bytes : ∃ rest, a.bytes = (ipPackets front).flatten ++ rest
  code : a.code = ((ipPackets front).map List.length).sum

theorem Took.ipPackets_eq_nil {conn : Conn} {front : List QueuedFrame} {a : Answer}
    (h : Took conn front a) (hcode : ¬a.code > 0) : ipPackets front = [] := by
  rw [List.eq_nil_iff_forall_not_mem]
  intro p hp
  have hpos := length_pos_of_mem_ipPackets hp
  have hle := List.single_le_sum (by simp) _ (List.mem_map_of_mem (f := List.length) hp)
  have hsum := h.code
  omega

/-- The sizes of the arrays that the loop hands over. -/
def Sized (buffer : Bytes) (lengths : List ℕ) : Prop :=
  buffer.length = receiveBufferSize ∧ lengths.length = rxBatchMaxPackets

section Call

variable {conn : Conn} {h : History} {args : BatchArgs}

theorem Sized.ample (hsize : Sized args.buffer args.lengths) : Ample args := by
  rw [Ample, hsize.1, hsize.2]
  decide

theorem Batched.took {front : List QueuedFrame} {p : Packing} {q : RecvQueue}
    (hb : Batched conn args front (p.batch q)) :
    Took conn front (p.answer args) ∧ (p.answer args).bytes.length = args.buffer.length ∧
      (p.answer args).lengths.length = args.lengths.length := by
  refine ⟨⟨hb.replies, ⟨args.lengths.length - p.count, ?_⟩, ⟨p.buffer.drop p.total, ?_⟩, ?_⟩,
    hb.buffer_length, ?_⟩
  · exact congrArg (· ++ _) hb.lengths
  · rw [← hb.buffer]
    exact (List.take_append_drop p.total p.buffer).symm
  · exact congrArg Nat.cast hb.total
  · change (p.lengths.take p.count ++ _).length = _
    have hcount : p.count ≤ args.lengths.length := hb.count_le
    have hlengths : p.lengths.length = args.lengths.length := hb.lengths_length
    rw [List.length_append, List.length_take, List.length_replicate, hlengths]
    omega

theorem History.refill_spec (zlib : Zlib) (e : Arrival) (h : History) :
    h.committed <+: (h.refill zlib e).2.committed ∧ (h.refill zlib e).2.departed = h.departed := by
  rw [refill]
  split_ifs
  · exact ⟨List.prefix_append _ _, rfl⟩
  · exact ⟨List.prefix_rfl, rfl⟩

/-- What the call has taken, if it did not fail, is all that was queued before or at least a batch
of frames. -/
theorem History.receiveBatch_spec (zlib : Zlib) (conn : Conn) (args : BatchArgs) {r : Ring}
    (hr : Refines r h) (connected : Bool) (e : Arrival) (hsize : Sized args.buffer args.lengths) :
    ∃ front : List QueuedFrame,
      let out := h.step zlib conn (.receiveBatch connected e args)
      h.committed <+: out.2.committed ∧ h.departed ≤ out.2.departed ∧
        h.leftSince out.2 = front.map Subtype.val ∧
        Sized out.1.bytes out.1.lengths ∧
        (out.1.code = -1 ∧ out.1.replies = [] ∧ front = [] ∨
          Took conn front out.1 ∧
            (h.committed.length ≤ out.2.departed ∨
              h.departed + rxBatchMaxPackets ≤ out.2.departed)) := by
  have hnothing {h' : History} (hdeparted : h'.departed = h.departed) :
      h.leftSince h' = [] := by
    rw [leftSince, hdeparted]
    exact List.drop_eq_nil_of_le (List.length_take_le _ _)
  have hfailed {h' : History} (hextends : h.committed <+: h'.committed)
      (hdeparted : h'.departed = h.departed) :
      ∃ front : List QueuedFrame, h.committed <+: h'.committed ∧ h.departed ≤ h'.departed ∧
        h.leftSince h' = front.map Subtype.val ∧ Sized args.buffer args.lengths ∧
        ((-1 : ℤ) = -1 ∧ ([] : List Bytes) = [] ∧ front = [] ∨
          Took conn front ⟨-1, args.buffer, args.lengths, 0, []⟩ ∧
            (h.committed.length ≤ h'.departed ∨
              h.departed + rxBatchMaxPackets ≤ h'.departed)) :=
    ⟨[], hextends, hdeparted.ge, hnothing hdeparted, hsize, .inl ⟨rfl, rfl, rfl⟩⟩
  have hsizes : ¬(args.buffer.length = 0 ∨ args.lengths.length = 0) := by
    rw [hsize.1, hsize.2]
    decide
  simp only [step, if_neg hsizes]
  split_ifs with hrefused herror
  · exact hfailed List.prefix_rfl rfl
  · exact hfailed (refill_spec zlib e h).1 (refill_spec zlib e h).2
  · obtain ⟨hextends, hdeparted⟩ := refill_spec zlib e h
    obtain ⟨-, hrefined⟩ := hr.refill zlib e
    obtain ⟨fs, hfs⟩ := Ring.frames_val (Memory.refill zlib e r).2
    rw [hrefined.frames] at hfs
    obtain ⟨front, rest, p, rfl, hpacked, hbatched, hstop⟩ :=
      packFrames_spec hsize.ample ⟨List.replicate recvQueueSize ⟨[], by decide⟩, 0, 0,
        List.length_replicate, by decide, by decide⟩ (p := .start args)
        (Batched.start conn args _) fs
    rw [hfs, hpacked]
    rw [List.nil_append] at hbatched
    obtain ⟨htook, hbuffer, hlengths⟩ := Batched.took hbatched
    have hleft : h.leftSince ((h.refill zlib e).2.depart front.length) =
        front.map Subtype.val := by
      change ((h.refill zlib e).2.committed.take
        ((h.refill zlib e).2.departed + front.length)).drop h.departed = _
      have hqueue : (h.refill zlib e).2.committed.drop h.departed =
          (front ++ rest).map Subtype.val := by
        rw [← hfs, ← hdeparted]
        rfl
      rw [List.drop_take, hqueue, hdeparted, Nat.add_sub_cancel_left, List.map_append,
        List.take_left' (List.length_map _)]
    refine ⟨front, hextends, ?_, hleft, ⟨hbuffer.trans hsize.1, hlengths.trans hsize.2⟩,
      .inr ⟨htook, ?_⟩⟩
    · change h.departed ≤ (h.refill zlib e).2.departed + front.length
      omega
    · change h.committed.length ≤ (h.refill zlib e).2.departed + front.length ∨
        h.departed + _ ≤ (h.refill zlib e).2.departed + front.length
      rw [hdeparted]
      rcases hstop with rfl | hfull
      · left
        have hlength := congrArg List.length hfs
        have hcommitted := hextends.length_le
        rw [History.queue, List.length_drop, List.append_nil, List.length_map, hdeparted]
          at hlength
        omega
      · right
        rw [hsize.2] at hfull
        exact Nat.add_le_add_left hfull _

end Call

/-!
### Runs of the loop
-/

/-- A stretch of the loop hands on the packets of the frames that leave the queue in it. -/
structure Offers (zlib : Zlib) (conn : Conn) (rounds : List Round) (h : History) (s : ReceiveLoop)
    (actions : List Action) (h' : History) (s' : ReceiveLoop) : Prop where
  refines : Refines s'.queue h'
  sized : Sized s'.receiveBuffer s'.batchLengths
  committed : h.committed <+: h'.committed
  arrived : ∀ frame ∈ h'.committed,
    frame ∈ h.committed ∨ ∃ i ∈ rounds, i.arrival.Delivers zlib frame
  departed : h.departed ≤ h'.departed
  offered : (writes actions).map Write.packet = packetsOf (h.leftSince h')
  replied : replies actions = repliesTo conn (h.leftSince h')
  whole : ∀ w ∈ writes actions, w.Whole
  packets : s'.packetsReceived = s.packetsReceived + (taken actions).length
  bytes_ge : s.bytesReceived + volume (taken actions) ≤ s'.bytesReceived
  bytes_le : s'.bytesReceived ≤ s.bytesReceived + volume (writes actions)
  reconnects : .attemptReconnect ∈ actions → s'.running = false
  stopped : s.running = false → s'.running = false
  swift : s'.running = true →
    h.committed.length ≤ h'.departed ∨ h.departed + rxBatchMaxPackets * rounds.length ≤ h'.departed

section Actions

variable (as bs : List Action)

theorem writes_append : writes (as ++ bs) = writes as ++ writes bs := List.filterMap_append

theorem replies_append : replies (as ++ bs) = replies as ++ replies bs := List.filterMap_append

theorem taken_append : taken (as ++ bs) = taken as ++ taken bs := by
  rw [taken, writes_append, List.filter_append]
  rfl

@[simp] theorem writes_reply (frames : List Bytes) : writes (frames.map .reply) = [] :=
  List.filterMap_eq_nil_iff.mpr (by simp)

@[simp] theorem writes_write (ws : List Write) : writes (ws.map .write) = ws := by
  induction ws with
  | nil => rfl
  | cons w ws ih => exact congrArg (w :: ·) ih

@[simp] theorem replies_reply (frames : List Bytes) : replies (frames.map .reply) = frames := by
  induction frames with
  | nil => rfl
  | cons f frames ih => exact congrArg (f :: ·) ih

@[simp] theorem replies_write (ws : List Write) : replies (ws.map .write) = [] :=
  List.filterMap_eq_nil_iff.mpr (by simp)

theorem volume_append (ws ws' : List Write) : volume (ws ++ ws') = volume ws + volume ws' := by
  rw [volume, List.map_append, List.sum_append]
  rfl

theorem volume_filter_le (q : Write → Bool) (ws : List Write) :
    volume (ws.filter q) ≤ volume ws :=
  ((List.filter_sublist (p := q)).map Write.length).sum_le_sum (by simp)

end Actions

section Stretches

variable {zlib : Zlib} {conn : Conn} {is js : List Round} {h h' h'' : History}
  {s s' s'' : ReceiveLoop} {as bs : List Action}

theorem History.leftSince_trans (hc : h'.committed <+: h''.committed)
    (hle : h'.departed ≤ h'.committed.length) (hd : h.departed ≤ h'.departed)
    (hd' : h'.departed ≤ h''.departed) :
    h.leftSince h'' = h.leftSince h' ++ h'.leftSince h'' := by
  obtain ⟨new, hnew⟩ := hc
  have hfirst : h'.committed.take h'.departed = h''.committed.take h'.departed := by
    rw [← hnew, List.take_append_of_le_length hle]
  have hsplit : h''.committed.take h''.departed =
      h''.committed.take h'.departed ++ (h''.committed.take h''.departed).drop h'.departed := by
    have htake : (h''.committed.take h''.departed).take h'.departed =
        h''.committed.take h'.departed := by rw [List.take_take, min_eq_left hd']
    rw [← htake, List.take_append_drop]
  have hlength : h.departed ≤ (h''.committed.take h'.departed).length := by
    rw [← hfirst, List.length_take, min_eq_left hle]
    exact hd
  rw [leftSince, leftSince, leftSince, hfirst]
  conv_lhs => rw [hsplit]
  exact List.drop_append_of_le_length hlength

theorem packetsOf_append (fs gs : List Bytes) :
    packetsOf (fs ++ gs) = packetsOf fs ++ packetsOf gs := by
  rw [packetsOf, List.filter_append, List.map_append]
  rfl

theorem repliesTo_append (conn : Conn) (fs gs : List Bytes) :
    repliesTo conn (fs ++ gs) = repliesTo conn fs ++ repliesTo conn gs := by
  rw [repliesTo, List.filter_append, List.filterMap_append]
  rfl

theorem History.leftSince_self (h : History) : h.leftSince h = [] :=
  List.drop_eq_nil_of_le (List.length_take_le _ _)

/-- A stretch in which the loop does nothing. -/
theorem Offers.idle (hr : Refines s.queue h) (hsize : Sized s.receiveBuffer s.batchLengths)
    (his : is = [] ∨ s.running = false) : Offers zlib conn is h s [] h s where
  refines := hr
  sized := hsize
  committed := List.prefix_rfl
  arrived := fun _ hframe => .inl hframe
  departed := le_rfl
  offered := by rw [h.leftSince_self]; rfl
  replied := by rw [h.leftSince_self]; rfl
  whole := by simp [writes]
  packets := rfl
  bytes_ge := le_rfl
  bytes_le := le_rfl
  reconnects := by simp
  stopped := id
  swift := by
    intro hrunning
    rcases his with rfl | hstopped
    · exact .inr le_rfl
    · rw [hstopped] at hrunning
      cases hrunning

theorem Offers.trans (ha : Offers zlib conn is h s as h' s')
    (hb : Offers zlib conn js h' s' bs h'' s'') :
    Offers zlib conn (is ++ js) h s (as ++ bs) h'' s'' := by
  have hleft := History.leftSince_trans hb.committed ha.refines.departed_le ha.departed hb.departed
  refine ⟨hb.refines, hb.sized, ha.committed.trans hb.committed, ?_, ha.departed.trans hb.departed,
    ?_, ?_, ?_, ?_, ?_, ?_, ?_, fun hs => hb.stopped (ha.stopped hs), ?_⟩
  · intro frame hframe
    rcases hb.arrived frame hframe with hold | ⟨i, hi, hdelivers⟩
    · rcases ha.arrived frame hold with hold | ⟨i, hi, hdelivers⟩
      · exact .inl hold
      · exact .inr ⟨i, List.mem_append_left _ hi, hdelivers⟩
    · exact .inr ⟨i, List.mem_append_right _ hi, hdelivers⟩
  · rw [writes_append, List.map_append, ha.offered, hb.offered, hleft, packetsOf_append]
  · rw [replies_append, ha.replied, hb.replied, hleft, repliesTo_append]
  · rw [writes_append]
    exact List.forall_mem_append.mpr ⟨ha.whole, hb.whole⟩
  · rw [hb.packets, ha.packets, taken_append, List.length_append, Nat.add_assoc]
  · have hfirst := ha.bytes_ge
    have hsecond := hb.bytes_ge
    rw [taken_append, volume_append]
    omega
  · have hfirst := ha.bytes_le
    have hsecond := hb.bytes_le
    rw [writes_append, volume_append]
    omega
  · intro hmem
    rcases List.mem_append.mp hmem with hmem | hmem
    · exact hb.stopped (ha.reconnects hmem)
    · exact hb.reconnects hmem
  · intro hrunning
    have hmiddle : s'.running = true := by
      by_contra hstopped
      rw [hb.stopped (Bool.eq_false_iff.mpr hstopped)] at hrunning
      cases hrunning
    have hlonger := ha.committed.length_le
    have hlater := hb.departed
    rw [List.length_append, mul_add]
    rcases ha.swift hmiddle with hall | hfirst
    · left
      omega
    · rcases hb.swift hrunning with hall | hsecond
      · left
        omega
      · right
        omega

end Stretches

section Rounds

variable {h : History} {s : ReceiveLoop}

/-- What a call leaves that takes the frames `front` from the queue. -/
structure Called (zlib : Zlib) (i : Round) (h : History) (front : List QueuedFrame)
    (out : Answer × Ring) (h' : History) : Prop where
  refines : Refines out.2 h'
  sized : Sized out.1.bytes out.1.lengths
  committed : h.committed <+: h'.committed
  arrived : ∀ frame ∈ h'.committed, frame ∈ h.committed ∨ i.arrival.Delivers zlib frame
  departed : h.departed ≤ h'.departed
  left : h.leftSince h' = front.map Subtype.val

/-- All that was queued before has left, or at least a batch of frames. -/
def Swift (h h' : History) : Prop :=
  h.committed.length ≤ h'.departed ∨ h.departed + rxBatchMaxPackets ≤ h'.departed

/-- The call through the client and JNI. -/
theorem receiveBatch_spec (zlib : Zlib) (conn : Conn) (hr : Refines s.queue h)
    (hsize : Sized s.receiveBuffer s.batchLengths) (i : Round) :
    ∃ (h' : History) (front : List QueuedFrame),
      let out := receiveBatch zlib conn i s.receiveBuffer s.batchLengths s.queue
      Called zlib i h front out h' ∧
        (out.1.code = -1 ∧ out.1.replies = [] ∧ front = [] ∨
          Took conn front out.1 ∧ Swift h h') := by
  have hrefused : ∃ (h' : History) (front : List QueuedFrame),
      Called zlib i h front (⟨-1, s.receiveBuffer, s.batchLengths, 0, []⟩, s.queue) h' ∧
        ((-1 : ℤ) = -1 ∧ ([] : List Bytes) = [] ∧ front = [] ∨
          Took conn front ⟨-1, s.receiveBuffer, s.batchLengths, 0, []⟩ ∧ Swift h h') :=
    ⟨h, [], ⟨hr, hsize, List.prefix_rfl, fun _ hf => .inl hf, le_rfl, h.leftSince_self⟩,
      .inl ⟨rfl, rfl, rfl⟩⟩
  rw [receiveBatch]
  generalize (if i.externalHandle ≠ 0 then i.externalHandle else i.nativeHandle) = handle
  dsimp only
  by_cases hhandle : handle = 0
  · rw [if_pos hhandle]
    exact hrefused
  rw [if_neg hhandle, nativeReceiveBatch]
  by_cases harguments : handle = 0 ∨ s.batchLengths.length = 0 ∨ s.receiveBuffer.length = 0 ∨
      i.elements = false
  · rw [if_pos harguments]
    exact hrefused
  rw [if_neg harguments]
  dsimp only
  let args : BatchArgs := ⟨s.receiveBuffer, s.batchLengths⟩
  let next := (h.step zlib conn (.receiveBatch i.connected i.arrival args)).2
  obtain ⟨hanswer, hrefines⟩ := hr.step zlib conn (.receiveBatch i.connected i.arrival args)
  obtain ⟨front, hcommitted, hdeparted, hleft, hsized, hout⟩ :=
    History.receiveBatch_spec zlib conn args hr i.connected i.arrival hsize
  rw [← hanswer] at hsized hout
  have harrived : ∀ frame ∈ next.committed,
      frame ∈ h.committed ∨ i.arrival.Delivers zlib frame :=
    fun _ hframe => History.step_committed _ hframe
  refine ⟨next, front, ?_⟩
  split_ifs with hpositive
  · exact ⟨⟨hrefines, hsized, hcommitted, harrived, hdeparted, hleft⟩, hout⟩
  · refine ⟨⟨hrefines, ⟨hsize.1, hsized.2⟩, hcommitted, harrived, hdeparted, hleft⟩,
      hout.imp_right ?_⟩
    rintro ⟨htook, hswift⟩
    -- no packet was written, so the buffer that is dropped is the one that stays
    have hnone : ipPackets front = [] := htook.ipPackets_eq_nil hpositive
    exact ⟨⟨htook.replies, htook.lengths, ⟨s.receiveBuffer, by rw [hnone]; rfl⟩, htook.code⟩,
      hswift⟩

theorem packetsOf_leftSince (conn : Conn) {h' : History} {front : List QueuedFrame}
    (hleft : h.leftSince h' = front.map Subtype.val) :
    packetsOf (h.leftSince h') = ipPackets front ∧
      repliesTo conn (h.leftSince h') = arpReplies conn front := by
  rw [hleft]
  exact ⟨packetsOf_val front, repliesTo_val conn front⟩

/-- The actions of a round with packets. -/
theorem batchActions (frames : List Bytes) (ws : List Write) (c : Prop) [Decidable c] :
    let actions := frames.map Action.reply ++ ws.map .write ++
      if c then [.protectAdditionalSockets] else []
    writes actions = ws ∧ replies actions = frames ∧ .attemptReconnect ∉ actions := by
  dsimp only
  rw [writes_append, writes_append, replies_append, replies_append, writes_reply, writes_write,
    replies_reply, replies_write]
  split_ifs
  · exact ⟨List.append_nil ws, by rw [List.append_nil]; exact List.append_nil frames, by simp⟩
  · exact ⟨List.append_nil ws, by rw [List.append_nil]; exact List.append_nil frames, by simp⟩

/-- `bytesReceived` grows by the whole batch as soon as one packet of it was taken. -/
theorem volume_filter_bounds (ws : List Write) :
    volume (ws.filter fun w => 0 < w.code) ≤
        (if (ws.countP fun w => 0 < w.code) > 0 then volume ws else 0) ∧
      (if (ws.countP fun w => 0 < w.code) > 0 then volume ws else 0) ≤ volume ws := by
  split_ifs with hsome
  · exact ⟨volume_filter_le _ ws, le_rfl⟩
  · have hnone : (ws.filter fun w => 0 < w.code) = [] := by
      rw [← List.length_eq_zero_iff, ← List.countP_eq_length_filter]
      omega
    rw [hnone]
    exact ⟨le_rfl, Nat.zero_le _⟩

theorem Called.arrived_singleton {i : Round} {h h' : History} {front : List QueuedFrame}
    {zlib : Zlib} {out : Answer × Ring} (hc : Called zlib i h front out h') :
    ∀ frame ∈ h'.committed,
      frame ∈ h.committed ∨ ∃ j ∈ [i], j.arrival.Delivers zlib frame := fun frame hframe =>
  (hc.arrived frame hframe).imp_right fun hdelivers => ⟨i, List.mem_singleton_self i, hdelivers⟩

/-- The state of the loop after a call. -/
def ReceiveLoop.hold (s : ReceiveLoop) (out : Answer × Ring) : ReceiveLoop :=
  { s with receiveBuffer := out.1.bytes, batchLengths := out.1.lengths, queue := out.2 }

section Handling

variable {zlib : Zlib} {i : Round} {h' : History} {front : List QueuedFrame} {out : Answer × Ring}

/-- The loop is left. -/
theorem handleBatch_failed (conn : Conn) (hc : Called zlib i h [] out h') (hcode : out.1.code = -1)
    (hnone : out.1.replies = []) :
    Offers zlib conn [i] h s (handleBatch i out.1 (s.hold out)).1 h'
      (handleBatch i out.1 (s.hold out)).2 := by
  obtain ⟨hpackets, hreplies⟩ := packetsOf_leftSince conn hc.left
  have hactions : writes (if i.stillConnected then [.attemptReconnect] else []) = [] ∧
      replies (if i.stillConnected then [.attemptReconnect] else []) = [] := by
    split_ifs <;> exact ⟨rfl, rfl⟩
  rw [handleBatch, if_neg (by omega), if_neg (by omega), hnone, List.map_nil, List.nil_append]
  refine ⟨hc.refines, hc.sized, hc.committed, hc.arrived_singleton, hc.departed, ?_, ?_, ?_, ?_, ?_,
    ?_, fun _ => rfl, fun _ => rfl, ?_⟩
  · rw [hactions.1, hpackets]
    rfl
  · rw [hactions.2, hreplies]
    rfl
  · rw [hactions.1]
    simp
  · rw [taken, hactions.1]
    rfl
  · rw [taken, hactions.1]
    exact le_rfl
  · exact Nat.le_add_right _ _
  · intro hrunning
    cases hrunning

/-- The packets of the call are written to the interface. -/
theorem handleBatch_packets (conn : Conn) (hc : Called zlib i h front out h')
    (htook : Took conn front out.1) (hswift : Swift h h') (hrunning : s.running = true)
    (hpositive : out.1.code > 0) :
    Offers zlib conn [i] h s (handleBatch i out.1 (s.hold out)).1 h'
      (handleBatch i out.1 (s.hold out)).2 := by
  obtain ⟨hpackets, hreplies⟩ := packetsOf_leftSince conn hc.left
  obtain ⟨zeros, hlengths⟩ := htook.lengths
  obtain ⟨rest, hbytes⟩ := htook.bytes
  have hbuffer : out.1.bytes = [] ++ ((ipPackets front).flatten ++ rest) := hbytes
  obtain ⟨hoffered, hwhole, hvolume⟩ := writeFrames_packets i.tun 0 zeros hbuffer
    (fun p hp => length_pos_of_mem_ipPackets hp) hc.sized.1.le
  rw [List.length_nil, ← hlengths] at hoffered hwhole hvolume
  rw [handleBatch, if_pos hpositive]
  generalize writeFrames i.tun out.1.bytes 0 0 out.1.lengths = ws at *
  obtain ⟨hwrites, hreplied, hquiet⟩ := batchActions out.1.replies ws
    ((Int.bmod (s.receiveCount + 1) (2 ^ 32)).tmod 50 = 0)
  obtain ⟨hge, hle⟩ := volume_filter_bounds ws
  have hbatch : out.1.code.toNat = volume ws := by
    rw [hvolume, htook.code, Int.toNat_natCast]
  have hstopped : ¬s.running = false := by simp [hrunning]
  dsimp only [ReceiveLoop.hold] at hwrites hreplied hquiet ⊢
  rw [hbatch]
  refine ⟨hc.refines, hc.sized, hc.committed, hc.arrived_singleton, hc.departed, ?_, ?_, ?_, ?_, ?_,
    ?_, fun hmem => absurd hmem hquiet, fun hs => absurd hs hstopped, fun _ => hswift⟩
  · rw [hwrites, hoffered, hpackets]
  · rw [hreplied, htook.replies, hreplies]
  · rw [hwrites]
    exact hwhole
  · rw [taken, hwrites, ← List.countP_eq_length_filter]
  · rw [taken, hwrites]
    exact Nat.add_le_add_left hge _
  · rw [hwrites]
    exact Nat.add_le_add_left hle _

/-- There was no packet among the frames of the call. -/
theorem handleBatch_nothing (conn : Conn) (hc : Called zlib i h front out h')
    (htook : Took conn front out.1) (hswift : Swift h h') (hrunning : s.running = true)
    (hpositive : ¬out.1.code > 0) :
    Offers zlib conn [i] h s (handleBatch i out.1 (s.hold out)).1 h'
      (handleBatch i out.1 (s.hold out)).2 := by
  obtain ⟨hpackets, hreplies⟩ := packetsOf_leftSince conn hc.left
  have hzero : out.1.code = 0 := by
    have hcode := htook.code
    omega
  have hwrites : writes (out.1.replies.map Action.reply ++ [.recordReceived]) = [] := by
    rw [writes_append, writes_reply]
    rfl
  have hstopped : ¬s.running = false := by simp [hrunning]
  rw [handleBatch, if_neg hpositive, if_pos hzero]
  refine ⟨hc.refines, hc.sized, hc.committed, hc.arrived_singleton, hc.departed, ?_, ?_, ?_, ?_, ?_,
    ?_, ?_, fun hs => absurd hs hstopped, fun _ => hswift⟩
  · rw [hwrites, hpackets, htook.ipPackets_eq_nil hpositive]
    rfl
  · rw [replies_append, replies_reply, hreplies, htook.replies]
    exact List.append_nil _
  · rw [hwrites]
    simp
  · rw [taken, hwrites]
    rfl
  · rw [taken, hwrites]
    exact le_rfl
  · exact Nat.le_add_right _ _
  · simp

end Handling

/-- A round of the loop. -/
theorem receiveRound_offers (zlib : Zlib) (conn : Conn) (hr : Refines s.queue h)
    (hsize : Sized s.receiveBuffer s.batchLengths) (i : Round) :
    ∃ h', Offers zlib conn [i] h s (receiveRound zlib conn s i).1 h'
      (receiveRound zlib conn s i).2 := by
  rw [receiveRound]
  by_cases hstopped : s.running = false
  · rw [if_pos hstopped]
    exact ⟨h, .idle hr hsize (.inr hstopped)⟩
  rw [if_neg hstopped]
  by_cases hleave : ¬(i.isConnected = true ∧ i.isCancelled = false)
  · rw [if_pos hleave]
    have hidle : Offers zlib conn [i] h { s with running := false } [] h
        { s with running := false } := .idle hr hsize (.inr rfl)
    exact ⟨h, { hidle with stopped := fun _ => rfl }⟩
  rw [if_neg hleave]
  have hrunning : s.running = true := by simpa using hstopped
  obtain ⟨h', front, hc, hout⟩ := receiveBatch_spec zlib conn hr hsize i
  dsimp only at hc hout ⊢
  generalize receiveBatch zlib conn i s.receiveBuffer s.batchLengths s.queue = out at hc hout ⊢
  refine ⟨h', ?_⟩
  rcases hout with ⟨hcode, hnone, rfl⟩ | ⟨htook, hswift⟩
  · exact handleBatch_failed conn hc hcode hnone
  · by_cases hpositive : out.1.code > 0
    · exact handleBatch_packets conn hc htook hswift hrunning hpositive
    · exact handleBatch_nothing conn hc htook hswift hrunning hpositive

theorem receiveRounds_offers (zlib : Zlib) (conn : Conn) (hr : Refines s.queue h)
    (hsize : Sized s.receiveBuffer s.batchLengths) (rounds : List Round) :
    ∃ h', Offers zlib conn rounds h s (answers (receiveRound zlib conn) s rounds).1.flatten h'
      (answers (receiveRound zlib conn) s rounds).2 := by
  induction rounds generalizing h s with
  | nil => exact ⟨h, .idle hr hsize (.inl rfl)⟩
  | cons i rounds ih =>
    obtain ⟨h₁, hround⟩ := receiveRound_offers zlib conn hr hsize i
    obtain ⟨h₂, hrest⟩ := ih hround.refines hround.sized
    exact ⟨h₂, hround.trans hrest⟩

theorem ReceiveLoop.start_sized (r : Ring) :
    Sized (ReceiveLoop.start r).receiveBuffer (ReceiveLoop.start r).batchLengths :=
  ⟨List.length_replicate, List.length_replicate⟩

/-- The queue never holds more than two batches. -/
theorem Refines.committed_le {r : Ring} (hr : Refines r h) :
    h.committed.length ≤ h.departed + rxBatchMaxPackets * 2 := by
  have hcount := hr.ok.count_le
  have hframes := hr.ok.frames_length
  have hlength : h.queue.length = h.committed.length - h.departed := List.length_drop
  rw [hr.frames, hlength] at hframes
  simp only [recvQueueSize, rxBatchMaxPackets] at hcount ⊢
  omega

end Rounds

/-- The cut stream arrives at a running loop, whose first write the interface refuses. -/
def cutRound : Round where
  isConnected := true
  isCancelled := false
  stillConnected := true
  externalHandle := 0
  nativeHandle := 1
  elements := true
  connected := true
  arrival := cutArrival
  tun := fun n => ⟨true, n ≠ 0⟩

/-- From `s` to `s'` every frame of the queue is handed on, unless the loop has ended. -/
def HandsOn (conn : Conn) (s : ReceiveLoop) (actions : List Action) (s' : ReceiveLoop) : Prop :=
  ∃ h h', Refines s.queue h ∧ Refines s'.queue h' ∧ h.committed <+: h'.committed ∧
    (s'.running = true → ∃ newer, newer <+: h'.committed.drop h.committed.length ∧
      h.leftSince h' = h.queue ++ newer ∧
      (writes actions).map Write.packet = packetsOf (h.queue ++ newer) ∧
      replies actions = repliesTo conn (h.queue ++ newer))

end SoftEtherVpn.Receive.Memory
