import SoftEtherVpn.Foundation.ChunkedStream

/-!
# Framing of the data channel

A message on the data channel is a keepalive (magic, size, that many bytes) or a block
list (count, then size and bytes of each block). `softether_fill_recv_queue` reads one
message per pass into the receive queue, `softether_receive_packet` reads one message per
call and returns its first block. zlib is a parameter.
-/

namespace SoftEtherVpn.Packet

open Foundation

def keepAliveMagic : ℕ := 0xFFFFFFFF
def maxBlockSize : ℕ := 1600 * 1600
def compressMagic : ℕ := 0xDEADBEEFCAFEFACE
def maxQueuedFrame : ℕ := 2048
def recvQueueSize : ℕ := 64
def skipBufSize : ℕ := 2048
def keepAliveCap : ℕ := 512

/-- `uncompress_data` on a block, with the room it may fill. -/
abbrev Uncompress := Bytes → ℕ → Option Bytes

/-- The part of `softether_connection_t` the receive path uses. The ring of queue slots is
the list of its frames. -/
structure Conn where
  recvQueue : List Bytes
  rxSkippedBlocks : ℕ
  serverUseCompress : Bool
  deriving DecidableEq

/-- Outcome of a pass: return value, what is left of the stream (`none` if the socket has
failed), and whether a keepalive was sent in answer. -/
structure Pass where
  ret : ℤ
  conn : Conn
  stream : Option ChunkedStream
  answered : Bool

def readUint32 (s : ChunkedStream) : Option (ℕ × ChunkedStream) :=
  (s.readAll 4).map fun r => (natBE r.1, r.2)

/-- Discards a block through the 2048-byte skip buffer. -/
def skipBlock (s : ChunkedStream) (remaining : ℕ) : Option ChunkedStream :=
  if _h : remaining = 0 then some s
  else
    let chunk := min remaining skipBufSize
    (s.readAll chunk).bind fun r => skipBlock r.2 (remaining - chunk)
termination_by remaining
decreasing_by
  unfold skipBufSize
  omega

def Conn.enqueue (conn : Conn) (frame : Bytes) : Conn :=
  { conn with recvQueue := conn.recvQueue ++ [frame] }

def Conn.countSkipped (conn : Conn) : Conn :=
  { conn with rxSkippedBlocks := (conn.rxSkippedBlocks + 1) % 2 ^ 32 }

/-- A block of a compressed session: raw zlib, zlib behind the magic, or plain. -/
def decompressBlock (uncompress : Uncompress) (room : ℕ) (block : Bytes) : Bytes :=
  match uncompress block room with
  | some raw => raw
  | none =>
    if 8 < block.length ∧ natBE (block.take 8) = compressMagic then
      (uncompress (block.drop 8) room).getD block
    else block

/-- What reaches the reader of a block. -/
def Conn.frame (conn : Conn) (uncompress : Uncompress) (room : ℕ) (block : Bytes) : Bytes :=
  if conn.serverUseCompress then decompressBlock uncompress room block else block

/-- The end of a pass whose read failed: an additional socket is closed and the
connection kept, a failing primary socket is an error. -/
def failedRead (isAdditional : Bool) (conn : Conn) : Pass :=
  ⟨if isAdditional then 0 else -1, conn, none, false⟩

/-- The block loop of `softether_fill_recv_queue`. -/
def fillBlocks (uncompress : Uncompress) (isAdditional : Bool) (conn : Conn)
    (s : ChunkedStream) : ℕ → Pass
  | 0 => ⟨if conn.recvQueue.length > 0 then 1 else 0, conn, some s, false⟩
  | count + 1 =>
    match readUint32 s with
    | none => failedRead isAdditional conn
    | some (blockSize, s) =>
      if blockSize > maxBlockSize then ⟨-1, conn, some s, false⟩
      else if blockSize = 0 then fillBlocks uncompress isAdditional conn s count
      else if blockSize ≤ maxQueuedFrame ∧ conn.recvQueue.length < recvQueueSize then
        match s.readAll blockSize with
        | none => failedRead isAdditional conn
        | some (block, s) =>
          fillBlocks uncompress isAdditional
            (conn.enqueue (conn.frame uncompress maxQueuedFrame block)) s count
      else
        match skipBlock s blockSize with
        | none => failedRead isAdditional conn
        | some s => fillBlocks uncompress isAdditional conn.countSkipped s count

/-- The bytes of a keepalive, as far as the cap on the size lets them be read. -/
def readKeepAlive (s : ChunkedStream) : Option ChunkedStream :=
  (readUint32 s).bind fun r => (r.2.readAll (min r.1 keepAliveCap)).map Prod.snd

/-- The message read of one `softether_fill_recv_queue` pass. -/
def fillRecvQueue (uncompress : Uncompress) (isAdditional : Bool) (conn : Conn)
    (s : ChunkedStream) : Pass :=
  match readUint32 s with
  | none => failedRead isAdditional conn
  | some (blockCount, s) =>
    if blockCount = keepAliveMagic then
      match readKeepAlive s with
      | none => failedRead isAdditional conn
      | some s => ⟨0, conn, some s, true⟩
    else if blockCount = 0 then ⟨0, conn, some s, false⟩
    else fillBlocks uncompress isAdditional conn s blockCount

/-- The buffer of the caller of `softether_receive_packet`, and whether `malloc` gives
memory for a block. -/
structure ReceiveArgs where
  payload : Bool
  maxPayload : ℕ
  malloc : ℕ → Bool

inductive Command
  | data
  | keepAlive
  deriving DecidableEq

/-- A successful `softether_receive_packet`. -/
structure Received where
  ret : ℤ
  command : Command
  payload : Option Bytes
  stream : ChunkedStream

/-- The block loop of `softether_receive_packet`; `stored` is the first block, once it is
in the buffer of the caller. -/
def receiveBlocks (uncompress : Uncompress) (conn : Conn) (args : ReceiveArgs)
    (stored : Option Bytes) (total : ℤ) (s : ChunkedStream) : ℕ → Option Received
  | 0 => some ⟨int32 total, .data, stored, s⟩
  | count + 1 =>
    match readUint32 s with
    | none => none
    | some (blockSize, s) =>
      if blockSize > maxBlockSize then none
      else if stored = none ∧ args.payload = true ∧ blockSize ≤ args.maxPayload then
        if blockSize = 0 then receiveBlocks uncompress conn args (some []) (total + 4) s count
        else if args.malloc blockSize = false then none
        else
          match s.readAll blockSize with
          | none => none
          | some (block, s) =>
            receiveBlocks uncompress conn args
              (some (conn.frame uncompress args.maxPayload block)) (total + 4 + blockSize) s count
      else
        match skipBlock s blockSize with
        | none => none
        | some s => receiveBlocks uncompress conn args stored (total + 4 + blockSize) s count

/-- One call of `softether_receive_packet` on a usable connection; `none` is the error
return. -/
def receivePacket (uncompress : Uncompress) (conn : Conn) (args : ReceiveArgs)
    (s : ChunkedStream) : Option Received :=
  match readUint32 s with
  | none => none
  | some (blockCount, s) =>
    if blockCount = keepAliveMagic then
      match readUint32 s with
      | none => none
      | some (kaSize, s) =>
        (s.readAll (min kaSize keepAliveCap)).map fun r =>
          ⟨8 + (min kaSize keepAliveCap : ℕ), .keepAlive, some [], r.2⟩
    else if blockCount = 0 then some ⟨4, .data, some [], s⟩
    else receiveBlocks uncompress conn args none 4 s blockCount

/-! ## Messages -/

inductive Message
  | keepAlive (data : Bytes) (size : data.length < 2 ^ 31)
  | blocks (bs : List Bytes) (count : bs.length < keepAliveMagic)
      (sizes : ∀ b ∈ bs, b.length ≤ maxBlockSize)

def encodeBlock (b : Bytes) : Bytes := bytesBE 4 b.length ++ b

def Message.encode : Message → Bytes
  | .keepAlive data _ => bytesBE 4 keepAliveMagic ++ bytesBE 4 data.length ++ data
  | .blocks bs _ _ => bytesBE 4 bs.length ++ bs.flatMap encodeBlock

/-- What a block does to the queue: appended if it is small enough and finds a free slot,
counted as skipped otherwise. -/
def Conn.receiveBlock (conn : Conn) (b : Bytes) : Conn :=
  if b = [] then conn
  else if b.length ≤ maxQueuedFrame ∧ conn.recvQueue.length < recvQueueSize then conn.enqueue b
  else conn.countSkipped

def Conn.receive (conn : Conn) : Message → Conn
  | .keepAlive _ _ => conn
  | .blocks bs _ _ => bs.foldl Conn.receiveBlock conn

/-! ## Passes over a stream of messages -/

/-- A pass over the queue, a call that returns one packet, or the application taking a
frame from the queue. -/
inductive Event
  | fill (isAdditional : Bool)
  | receive (args : ReceiveArgs)
  | take

/-- Every pass over the stream consumes exactly the next message, and does to the queue
what its blocks say. -/
def InStep (uncompress : Uncompress) : List Event → List Message → Conn → ChunkedStream → Prop
  | [], _, _, _ => True
  | .take :: es, ms, conn, s =>
    InStep uncompress es ms { conn with recvQueue := conn.recvQueue.tail } s
  | .fill _ :: _, [], _, _ => True
  | .receive _ :: _, [], _, _ => True
  | .fill isAdditional :: es, m :: ms, conn, s =>
    (fillRecvQueue uncompress isAdditional conn s).conn = conn.receive m ∧
    ∃ s', (fillRecvQueue uncompress isAdditional conn s).stream = some s' ∧
      s.bytes = m.encode ++ s'.bytes ∧ InStep uncompress es ms (conn.receive m) s'
  | .receive args :: es, m :: ms, conn, s =>
    ∃ r, receivePacket uncompress conn args s = some r ∧
      s.bytes = m.encode ++ r.stream.bytes ∧ InStep uncompress es ms conn r.stream

/-- The cap on keepalives does not cut this message short. -/
def Message.UnderCap : Message → Prop
  | .keepAlive data _ => data.length ≤ keepAliveCap
  | .blocks _ _ _ => True

/-- Memory is found for the block that goes to the caller, if it needs any. -/
def ReceiveArgs.CanStore (args : ReceiveArgs) : Message → Prop
  | .keepAlive _ _ => True
  | .blocks bs _ _ => args.payload = true →
    ∀ b, bs.find? (fun b => b.length ≤ args.maxPayload) = some b →
      b = [] ∨ args.malloc b.length = true

def Framed : List Event → List Message → Prop
  | [], _ => True
  | .take :: es, ms => Framed es ms
  | .fill _ :: _, [] => True
  | .receive _ :: _, [] => True
  | .fill _ :: es, m :: ms => m.UnderCap ∧ Framed es ms
  | .receive args :: es, m :: ms => (m.UnderCap ∧ args.CanStore m) ∧ Framed es ms

/-! ## Reading from a steady stream -/

section Reading

variable {s : ChunkedStream} {n k : ℕ} {rest : Bytes}

theorem readUint32_steady (hbytes : s.bytes = bytesBE 4 k ++ rest) (hk : k < 2 ^ 32)
    (h : s.Steady n) (hn : 4 ≤ n) :
    ∃ s', readUint32 s = some (k, s') ∧ s'.bytes = rest ∧ s'.Steady (n - 4) := by
  obtain ⟨s', hread, hrest, hsteady⟩ := ChunkedStream.Steady.readAll s 4 h hn
  have htake : s.bytes.take 4 = bytesBE 4 k := by
    rw [hbytes]
    exact List.take_left' (bytesBE_length 4 k)
  have hdrop : s.bytes.drop 4 = rest := by
    rw [hbytes]
    exact List.drop_left' (bytesBE_length 4 k)
  refine ⟨s', ?_, hrest.trans hdrop, hsteady⟩
  rw [readUint32, hread, Option.map_some, htake, natBE_bytesBE_of_lt (by omega)]

theorem readBlock_steady {b : Bytes} (hbytes : s.bytes = b ++ rest) (h : s.Steady n)
    (hn : b.length ≤ n) :
    ∃ s', s.readAll b.length = some (b, s') ∧ s'.bytes = rest ∧ s'.Steady (n - b.length) := by
  obtain ⟨s', hread, hrest, hsteady⟩ := ChunkedStream.Steady.readAll s b.length h hn
  refine ⟨s', ?_, ?_, hsteady⟩
  · rw [hread, hbytes, List.take_left]
  · rw [hrest, hbytes, List.drop_left]

theorem skipBlock_steady (s : ChunkedStream) (remaining : ℕ) (h : s.Steady n)
    (hn : remaining ≤ n) :
    ∃ s', skipBlock s remaining = some s' ∧ s'.bytes = s.bytes.drop remaining ∧
      s'.Steady (n - remaining) := by
  induction remaining using Nat.strong_induction_on generalizing s n with
  | _ remaining ih =>
    by_cases h0 : remaining = 0
    · rw [skipBlock, dif_pos h0, h0]
      exact ⟨s, rfl, rfl, h⟩
    · obtain ⟨v, hread, hvb, hvs⟩ :=
        ChunkedStream.Steady.readAll s (min remaining skipBufSize) h (by omega)
      have hpos : 0 < skipBufSize := by decide
      obtain ⟨s', hskip, hb, hs⟩ := ih (remaining - min remaining skipBufSize) (by omega) v hvs
        (by omega)
      refine ⟨s', ?_, ?_, ?_⟩
      · rw [skipBlock, dif_neg h0]
        dsimp only
        rw [hread, Option.bind_some, hskip]
      · rw [hb, hvb, List.drop_drop]
        congr 1
        omega
      · have hsub : n - min remaining skipBufSize - (remaining - min remaining skipBufSize) =
            n - remaining := by omega
        rwa [hsub] at hs

end Reading

theorem encodeBlock_length (b : Bytes) : (encodeBlock b).length = 4 + b.length := by
  simp [encodeBlock]

theorem encodeBlocks_cons_length (b : Bytes) (bs : List Bytes) :
    ((b :: bs).flatMap encodeBlock).length =
      4 + b.length + (bs.flatMap encodeBlock).length := by
  rw [List.flatMap_cons, List.length_append, encodeBlock_length]

/-- The size of the next block. -/
theorem readUint32_block {s : ChunkedStream} {n : ℕ} {b rest : Bytes} {bs : List Bytes}
    (hb : b.length ≤ maxBlockSize) (hbytes : s.bytes = (b :: bs).flatMap encodeBlock ++ rest)
    (hsteady : s.Steady n) (hn : ((b :: bs).flatMap encodeBlock).length ≤ n) :
    ∃ s₁, readUint32 s = some (b.length, s₁) ∧
      s₁.bytes = b ++ (bs.flatMap encodeBlock ++ rest) ∧ s₁.Steady (n - 4) := by
  rw [encodeBlocks_cons_length] at hn
  have hsplit : s.bytes = bytesBE 4 b.length ++ (b ++ (bs.flatMap encodeBlock ++ rest)) := by
    rw [hbytes, List.flatMap_cons, encodeBlock]
    simp only [List.append_assoc]
  exact readUint32_steady hsplit (by unfold maxBlockSize at hb; omega) hsteady (by omega)

/-- The block loop on the encoding of `bs`. -/
theorem fillBlocks_steady (uncompress : Uncompress) (isAdditional : Bool) (bs : List Bytes)
    (hsizes : ∀ b ∈ bs, b.length ≤ maxBlockSize) (rest : Bytes) :
    ∀ (conn : Conn) (s : ChunkedStream) (n : ℕ), conn.serverUseCompress = false →
      s.bytes = bs.flatMap encodeBlock ++ rest → s.Steady n →
      (bs.flatMap encodeBlock).length ≤ n →
      let r := fillBlocks uncompress isAdditional conn s bs.length
      r.conn = bs.foldl Conn.receiveBlock conn ∧
        ∃ s', r.stream = some s' ∧ s'.bytes = rest ∧
          s'.Steady (n - (bs.flatMap encodeBlock).length) := by
  induction bs with
  | nil =>
    intro conn s n _ hbytes hsteady _
    exact ⟨rfl, s, rfl, by simpa using hbytes, by simpa using hsteady⟩
  | cons b bs ih =>
    intro conn s n hoff hbytes hsteady hn
    have hb : b.length ≤ maxBlockSize := hsizes b (by simp)
    have ih := ih fun x hx => hsizes x (by simp [hx])
    obtain ⟨s₁, hread, hb₁, hs₁⟩ := readUint32_block hb hbytes hsteady hn
    rw [encodeBlocks_cons_length] at hn
    rw [encodeBlocks_cons_length, show n - (4 + b.length + (bs.flatMap encodeBlock).length) =
      n - 4 - b.length - (bs.flatMap encodeBlock).length by omega, List.foldl_cons, List.length_cons]
    simp only [fillBlocks, hread]
    rw [if_neg (by omega)]
    by_cases hnil : b = []
    · subst hnil
      rw [if_pos List.length_nil, Conn.receiveBlock, if_pos rfl]
      exact ih conn s₁ (n - 4) hoff hb₁ hs₁ (by omega)
    · have hpos : b.length ≠ 0 := by simpa using hnil
      rw [if_neg hpos, Conn.receiveBlock, if_neg hnil]
      by_cases hroom : b.length ≤ maxQueuedFrame ∧ conn.recvQueue.length < recvQueueSize
      · obtain ⟨s₂, hblock, hb₂, hs₂⟩ := readBlock_steady hb₁ hs₁ (by omega)
        rw [if_pos hroom, if_pos hroom, hblock]
        simp only [Conn.frame, hoff]
        exact ih (conn.enqueue b) s₂ (n - 4 - b.length) hoff hb₂ hs₂ (by omega)
      · obtain ⟨s₂, hskip, hb₂, hs₂⟩ := skipBlock_steady s₁ b.length hs₁ (by omega)
        rw [if_neg hroom, if_neg hroom, hskip]
        rw [hb₁, List.drop_left] at hb₂
        exact ih conn.countSkipped s₂ (n - 4 - b.length) hoff hb₂ hs₂ (by omega)

/-- Memory is found for the next block that goes to the caller. -/
def Storable (args : ReceiveArgs) (stored : Option Bytes) (bs : List Bytes) : Prop :=
  stored = none → args.payload = true →
    ∀ b, bs.find? (fun b => b.length ≤ args.maxPayload) = some b →
      b = [] ∨ args.malloc b.length = true

theorem storable_some (args : ReceiveArgs) (b : Bytes) (bs : List Bytes) :
    Storable args (some b) bs := by
  intro h
  cases h

/-- A block that does not go to the caller needs no memory. -/
theorem storable_cons_of_skipped {args : ReceiveArgs} {stored : Option Bytes} {b : Bytes}
    (h : ¬(stored = none ∧ args.payload = true ∧ b.length ≤ args.maxPayload)) (bs : List Bytes) :
    Storable args stored (b :: bs) ↔ Storable args stored bs := by
  have hfind : stored = none → args.payload = true →
      (b :: bs).find? (fun b => b.length ≤ args.maxPayload) =
        bs.find? (fun b => b.length ≤ args.maxPayload) := by
    intro h1 h2
    have hbig : ¬ b.length ≤ args.maxPayload := fun hfits => h ⟨h1, h2, hfits⟩
    simp [hbig]
  constructor
  · intro h h1 h2 x hx
    exact h h1 h2 x ((hfind h1 h2).trans hx)
  · intro h h1 h2 x hx
    exact h h1 h2 x ((hfind h1 h2).symm.trans hx)

/-- A block that goes to the caller is the one that memory is needed for. -/
theorem storable_cons_of_stored {args : ReceiveArgs} {stored : Option Bytes} {b : Bytes}
    (h : stored = none ∧ args.payload = true ∧ b.length ≤ args.maxPayload) (bs : List Bytes) :
    Storable args stored (b :: bs) ↔ b = [] ∨ args.malloc b.length = true := by
  have hfind : (b :: bs).find? (fun b => b.length ≤ args.maxPayload) = some b := by
    simp [h.2.2]
  constructor
  · intro hstorable
    exact hstorable h.1 h.2.1 b hfind
  · intro hmalloc _ _ x hx
    rw [hfind] at hx
    rw [← Option.some.inj hx]
    exact hmalloc

/-- The block loop of `softether_receive_packet` on the encoding of `bs`. -/
theorem receiveBlocks_steady (uncompress : Uncompress) (conn : Conn) (args : ReceiveArgs)
    (bs : List Bytes) (hsizes : ∀ b ∈ bs, b.length ≤ maxBlockSize) (rest : Bytes) :
    ∀ (stored : Option Bytes) (total : ℤ) (s : ChunkedStream) (n : ℕ),
      s.bytes = bs.flatMap encodeBlock ++ rest → s.Steady n →
      (bs.flatMap encodeBlock).length ≤ n →
      (Storable args stored bs → ∃ r,
        receiveBlocks uncompress conn args stored total s bs.length = some r ∧
          r.stream.bytes = rest ∧ r.stream.Steady (n - (bs.flatMap encodeBlock).length)) ∧
      (¬ Storable args stored bs →
        receiveBlocks uncompress conn args stored total s bs.length = none) := by
  induction bs with
  | nil =>
    intro stored total s n hbytes hsteady _
    refine ⟨fun _ => ⟨_, rfl, by simpa using hbytes, by simpa using hsteady⟩, fun h => ?_⟩
    exact absurd (fun _ _ b hb => by simp at hb) h
  | cons b bs ih =>
    intro stored total s n hbytes hsteady hn
    have hb : b.length ≤ maxBlockSize := hsizes b (by simp)
    have ih := ih fun x hx => hsizes x (by simp [hx])
    obtain ⟨s₁, hread, hb₁, hs₁⟩ := readUint32_block hb hbytes hsteady hn
    rw [encodeBlocks_cons_length] at hn
    rw [encodeBlocks_cons_length, show n - (4 + b.length + (bs.flatMap encodeBlock).length) =
      n - 4 - b.length - (bs.flatMap encodeBlock).length by omega, List.length_cons]
    simp only [receiveBlocks, hread]
    rw [if_neg (by omega)]
    by_cases hstore : stored = none ∧ args.payload = true ∧ b.length ≤ args.maxPayload
    · rw [if_pos hstore, storable_cons_of_stored hstore]
      by_cases hnil : b = []
      · subst hnil
        rw [if_pos List.length_nil]
        have hnext := ih (some []) (total + 4) s₁ (n - 4) hb₁ hs₁ (by omega)
        refine ⟨fun _ => hnext.1 (storable_some args [] bs), fun h => ?_⟩
        exact absurd (Or.inl rfl) h
      · rw [if_neg (by simpa using hnil)]
        by_cases hmalloc : args.malloc b.length = false
        · rw [if_pos hmalloc]
          refine ⟨fun h => ?_, fun _ => rfl⟩
          rcases h with h | h
          · exact absurd h hnil
          · rw [hmalloc] at h
            cases h
        · obtain ⟨s₂, hblock, hb₂, hs₂⟩ := readBlock_steady hb₁ hs₁ (by omega)
          rw [if_neg hmalloc, hblock]
          have hnext := ih (some (conn.frame uncompress args.maxPayload b))
            (total + 4 + b.length) s₂ (n - 4 - b.length) hb₂ hs₂ (by omega)
          refine ⟨fun _ => hnext.1 (storable_some args _ bs), fun h => ?_⟩
          exact absurd (Or.inr (by simpa using hmalloc)) h
    · obtain ⟨s₂, hskip, hb₂, hs₂⟩ := skipBlock_steady s₁ b.length hs₁ (by omega)
      rw [if_neg hstore, hskip, storable_cons_of_skipped hstore]
      rw [hb₁, List.drop_left] at hb₂
      exact ih stored (total + 4 + b.length) s₂ (n - 4 - b.length) hb₂ hs₂ (by omega)

/-! ## One pass -/

section OnePass

variable {s : ChunkedStream} {n : ℕ} {rest : Bytes}

theorem encode_keepAlive_length (data : Bytes) (h : data.length < 2 ^ 31) :
    (Message.keepAlive data h).encode.length = 8 + data.length := by
  simp [Message.encode]
  omega

/-- A keepalive: the size field and at most 512 of its bytes are read. -/
theorem keepAlive_steady {data : Bytes} (hsize : data.length < 2 ^ 31)
    (hbytes : s.bytes = bytesBE 4 keepAliveMagic ++ bytesBE 4 data.length ++ data ++ rest)
    (hs : s.Steady n) (hn : 8 + data.length ≤ n) :
    ∃ s₁ s₂ d s₃, readUint32 s = some (keepAliveMagic, s₁) ∧
      readUint32 s₁ = some (data.length, s₂) ∧
      s₂.readAll (min data.length keepAliveCap) = some (d, s₃) ∧
      s₃.bytes = data.drop keepAliveCap ++ rest ∧
      s₃.Steady (n - 8 - min data.length keepAliveCap) := by
  rw [List.append_assoc, List.append_assoc] at hbytes
  obtain ⟨s₁, h₁, hb₁, hs₁⟩ := readUint32_steady hbytes (by decide) hs (by omega)
  obtain ⟨s₂, h₂, hb₂, hs₂⟩ := readUint32_steady hb₁ (by omega) hs₁ (by omega)
  obtain ⟨s₃, h₃, hb₃, hs₃⟩ := ChunkedStream.Steady.readAll s₂ (min data.length keepAliveCap)
    hs₂ (by omega)
  refine ⟨s₁, s₂, _, s₃, h₁, h₂, h₃, ?_, ?_⟩
  · rw [hb₃, hb₂]
    rcases Nat.le_total data.length keepAliveCap with hle | hge
    · rw [min_eq_left hle, List.drop_left, List.drop_of_length_le hle, List.nil_append]
    · rw [min_eq_right hge, List.drop_append_of_le_length hge]
  · have hsub : n - 4 - 4 - min data.length keepAliveCap =
        n - 8 - min data.length keepAliveCap := by omega
    rwa [hsub] at hs₃

theorem drop_append_ne {data : Bytes} (h : keepAliveCap < data.length) (rest : Bytes) :
    data.drop keepAliveCap ++ rest ≠ rest := by
  intro heq
  have hlen := congrArg List.length heq
  rw [List.length_append, List.length_drop] at hlen
  omega

/-- A pass over the queue is in step with a message exactly when the cap does not cut
the message short. -/
theorem fillRecvQueue_steady (uncompress : Uncompress) (isAdditional : Bool) (conn : Conn)
    (m : Message) (hoff : conn.serverUseCompress = false) (hbytes : s.bytes = m.encode ++ rest)
    (hs : s.Steady n) (hn : m.encode.length ≤ n) :
    (fillRecvQueue uncompress isAdditional conn s).conn = conn.receive m ∧
    ∃ s', (fillRecvQueue uncompress isAdditional conn s).stream = some s' ∧
      (s'.bytes = rest ↔ m.UnderCap) ∧ (m.UnderCap → s'.Steady (n - m.encode.length)) := by
  cases m with
  | keepAlive data hsize =>
    rw [encode_keepAlive_length] at hn ⊢
    obtain ⟨s₁, s₂, d, s₃, h₁, h₂, h₃, hb₃, hs₃⟩ := keepAlive_steady hsize hbytes hs hn
    simp only [fillRecvQueue, h₁, readKeepAlive, h₂, Option.bind_some, h₃, Option.map_some,
      if_true]
    refine ⟨rfl, s₃, rfl, ?_, ?_⟩
    · rw [hb₃]
      constructor
      · intro heq
        by_contra hgt
        exact drop_append_ne (not_le.mp hgt) rest heq
      · intro hle
        rw [List.drop_of_length_le hle, List.nil_append]
    · intro hle
      have hmin : min data.length keepAliveCap = data.length := min_eq_left hle
      have hsub : n - 8 - data.length = n - (8 + data.length) := by omega
      rwa [hmin, hsub] at hs₃
  | blocks bs hcount hsizes =>
    rw [Message.encode, List.length_append, bytesBE_length] at hn
    rw [Message.encode, List.append_assoc] at hbytes
    obtain ⟨s₁, h₁, hb₁, hs₁⟩ := readUint32_steady hbytes
      (by unfold keepAliveMagic at hcount; omega) hs (by omega)
    have hlen : n - (Message.blocks bs hcount hsizes).encode.length =
        n - 4 - (bs.flatMap encodeBlock).length := by
      rw [Message.encode, List.length_append, bytesBE_length]
      omega
    simp only [fillRecvQueue, h₁]
    rw [if_neg (by omega), hlen]
    by_cases h0 : bs.length = 0
    · obtain rfl := List.length_eq_zero_iff.mp h0
      rw [if_pos List.length_nil]
      refine ⟨rfl, s₁, rfl, ?_, ?_⟩
      · simpa [Message.UnderCap] using hb₁
      · intro _
        simpa using hs₁
    · rw [if_neg h0]
      obtain ⟨hconn, s', hstream, hb', hs'⟩ := fillBlocks_steady uncompress isAdditional bs hsizes
        rest conn s₁ (n - 4) hoff hb₁ hs₁ (by omega)
      refine ⟨hconn, s', hstream, ?_, fun _ => hs'⟩
      simpa [Message.UnderCap] using hb'

theorem receivePacket_steady (uncompress : Uncompress) (conn : Conn) (args : ReceiveArgs)
    (m : Message) (hbytes : s.bytes = m.encode ++ rest) (hs : s.Steady n)
    (hn : m.encode.length ≤ n) :
    (∃ r, receivePacket uncompress conn args s = some r ∧ r.stream.bytes = rest ∧
        r.stream.Steady (n - m.encode.length)) ∧ (m.UnderCap ∧ args.CanStore m) ∨
      (¬ ∃ r, receivePacket uncompress conn args s = some r ∧ r.stream.bytes = rest) ∧
        ¬ (m.UnderCap ∧ args.CanStore m) := by
  cases m with
  | keepAlive data hsize =>
    rw [encode_keepAlive_length] at hn ⊢
    obtain ⟨s₁, s₂, d, s₃, h₁, h₂, h₃, hb₃, hs₃⟩ := keepAlive_steady hsize hbytes hs hn
    simp only [receivePacket, h₁, h₂, h₃, Option.map_some, if_true]
    rcases Nat.lt_or_ge keepAliveCap data.length with hgt | hle
    · right
      refine ⟨?_, fun h => absurd h.1 (not_le.mpr hgt)⟩
      rintro ⟨r, hr, hrb⟩
      rw [← Option.some.inj hr] at hrb
      exact drop_append_ne hgt rest (hb₃.symm.trans hrb)
    · left
      refine ⟨⟨_, rfl, ?_, ?_⟩, hle, trivial⟩
      · rw [hb₃, List.drop_of_length_le hle, List.nil_append]
      · have hmin : min data.length keepAliveCap = data.length := min_eq_left hle
        have hsub : n - 8 - data.length = n - (8 + data.length) := by omega
        rwa [hmin, hsub] at hs₃
  | blocks bs hcount hsizes =>
    rw [Message.encode, List.length_append, bytesBE_length] at hn
    rw [Message.encode, List.append_assoc] at hbytes
    obtain ⟨s₁, h₁, hb₁, hs₁⟩ := readUint32_steady hbytes
      (by unfold keepAliveMagic at hcount; omega) hs (by omega)
    have hlen : n - (Message.blocks bs hcount hsizes).encode.length =
        n - 4 - (bs.flatMap encodeBlock).length := by
      rw [Message.encode, List.length_append, bytesBE_length]
      omega
    simp only [receivePacket, h₁]
    rw [if_neg (by omega), hlen]
    by_cases h0 : bs.length = 0
    · obtain rfl := List.length_eq_zero_iff.mp h0
      rw [if_pos List.length_nil]
      left
      refine ⟨⟨_, rfl, by simpa using hb₁, by simpa using hs₁⟩, trivial, ?_⟩
      intro _ b hb
      simp at hb
    · rw [if_neg h0]
      obtain ⟨hsome, hnone⟩ := receiveBlocks_steady uncompress conn args bs hsizes rest none 4 s₁
        (n - 4) hb₁ hs₁ (by omega)
      by_cases hstore : Storable args none bs
      · left
        exact ⟨hsome hstore, trivial, fun h => hstore rfl h⟩
      · right
        rw [hnone hstore]
        refine ⟨by simp, fun h => hstore fun _ => h.2⟩

end OnePass

theorem receive_serverUseCompress (conn : Conn) (m : Message) :
    (conn.receive m).serverUseCompress = conn.serverUseCompress := by
  have hblock : ∀ (c : Conn) (b : Bytes),
      (c.receiveBlock b).serverUseCompress = c.serverUseCompress := by
    intro c b
    unfold Conn.receiveBlock
    split_ifs <;> rfl
  cases m with
  | keepAlive data hsize => rfl
  | blocks bs hcount hsizes =>
    simp only [Conn.receive]
    clear hcount hsizes
    induction bs generalizing conn with
    | nil => rfl
    | cons b bs ih => rw [List.foldl_cons, ih, hblock]

/-- Over a stream of well-formed messages every pass is in step exactly when no keepalive
is longer than the cap (and `softether_receive_packet` finds memory for its block). -/
theorem inStep_iff_framed (uncompress : Uncompress) (es : List Event) (ms : List Message)
    (conn : Conn) (s : ChunkedStream) (rest : Bytes) (hoff : conn.serverUseCompress = false)
    (hbytes : s.bytes = ms.flatMap Message.encode ++ rest)
    (hs : s.Steady (ms.flatMap Message.encode).length) :
    InStep uncompress es ms conn s ↔ Framed es ms := by
  induction es generalizing ms conn s with
  | nil => exact ⟨fun _ => trivial, fun _ => trivial⟩
  | cons ev es ih =>
    cases ev with
    | take => exact ih ms _ s hoff hbytes hs
    | fill isAdditional =>
      cases ms with
      | nil => exact ⟨fun _ => trivial, fun _ => trivial⟩
      | cons m ms =>
        rw [List.flatMap_cons] at hs hbytes
        rw [List.length_append] at hs
        rw [List.append_assoc] at hbytes
        obtain ⟨hconn, s', hstream, hiff, hsteady⟩ := fillRecvQueue_steady uncompress
          isAdditional conn m hoff hbytes hs (Nat.le_add_right _ _)
        rw [Nat.add_sub_cancel_left] at hsteady
        have hoff' := (receive_serverUseCompress conn m).trans hoff
        simp only [InStep, Framed]
        constructor
        · rintro ⟨-, v, hv, hvb, hnext⟩
          rw [hstream] at hv
          obtain rfl := Option.some.inj hv
          rw [hbytes] at hvb
          have hrest := (List.append_cancel_left hvb).symm
          have hcap := hiff.mp hrest
          exact ⟨hcap, (ih ms (conn.receive m) s' hoff' hrest (hsteady hcap)).mp hnext⟩
        · rintro ⟨hcap, hframed⟩
          have hrest := hiff.mpr hcap
          refine ⟨hconn, s', hstream, by rw [hbytes, hrest], ?_⟩
          exact (ih ms (conn.receive m) s' hoff' hrest (hsteady hcap)).mpr hframed
    | receive args =>
      cases ms with
      | nil => exact ⟨fun _ => trivial, fun _ => trivial⟩
      | cons m ms =>
        rw [List.flatMap_cons] at hs hbytes
        rw [List.length_append] at hs
        rw [List.append_assoc] at hbytes
        simp only [InStep, Framed]
        rcases receivePacket_steady uncompress conn args m hbytes hs (Nat.le_add_right _ _) with
          ⟨⟨r, hr, hrb, hrs⟩, hok⟩ | ⟨hno, hbad⟩
        · rw [Nat.add_sub_cancel_left] at hrs
          constructor
          · rintro ⟨r', hr', -, hnext⟩
            rw [hr] at hr'
            obtain rfl := Option.some.inj hr'
            exact ⟨hok, (ih ms conn r.stream hoff hrb hrs).mp hnext⟩
          · rintro ⟨-, hframed⟩
            exact ⟨r, hr, by rw [hbytes, hrb], (ih ms conn r.stream hoff hrb hrs).mpr hframed⟩
        · constructor
          · rintro ⟨r', hr', hrb, -⟩
            rw [hbytes] at hrb
            exact absurd ⟨r', hr', (List.append_cancel_left hrb).symm⟩ hno
          · rintro ⟨hok, -⟩
            exact absurd hok hbad

/-- A connection with an empty queue and without session compression. -/
def Conn.idle : Conn := ⟨[], 0, false⟩

/-- A message with one small block. -/
def smallMessage : Message := .blocks [[1, 2]] (by decide) (by decide)

/-- The bytes of the messages, arriving one at a time. -/
def trickle (ms : List Message) : ChunkedStream where
  bytes := ms.flatMap Message.encode
  chunks := List.replicate (ms.flatMap Message.encode).length 1

theorem trickle_steady (ms : List Message) :
    (trickle ms).Steady (ms.flatMap Message.encode).length where
  bytes := le_rfl
  reads := List.length_replicate.ge
  nonzero c hc := by
    rw [List.eq_of_mem_replicate hc]
    decide

theorem smallMessage_inStep :
    InStep (fun _ _ => none) [.fill false, .take] [smallMessage] .idle (trickle [smallMessage]) :=
  (inStep_iff_framed (fun _ _ => none) [.fill false, .take] [smallMessage] .idle
    (trickle [smallMessage]) [] rfl (List.append_nil _).symm (trickle_steady _)).mpr
    ⟨trivial, trivial⟩

/-- A keepalive of 513 bytes. -/
def longKeepAlive : Message :=
  .keepAlive (List.replicate 513 0) (by rw [List.length_replicate]; decide)

/-- One pass reads the first 512 bytes of the long keepalive; its last byte stays in the
stream in front of the next message. -/
theorem longKeepAlive_not_inStep :
    ¬ InStep (fun _ _ => none) [.fill false] [longKeepAlive] .idle (trickle [longKeepAlive]) := by
  have hbytes : (trickle [longKeepAlive]).bytes = longKeepAlive.encode ++ [] := by
    simp [trickle]
  have hs := trickle_steady [longKeepAlive]
  obtain ⟨-, s', hstream, hiff, -⟩ := fillRecvQueue_steady (fun _ _ => none) false .idle
    longKeepAlive rfl hbytes hs (by simp)
  rintro ⟨-, v, hv, hvb, -⟩
  rw [hstream] at hv
  obtain rfl := Option.some.inj hv
  rw [hbytes] at hvb
  have hcap := hiff.mp (List.append_cancel_left hvb).symm
  simp only [longKeepAlive, Message.UnderCap, List.length_replicate] at hcap
  exact absurd hcap (by decide)

end SoftEtherVpn.Packet
