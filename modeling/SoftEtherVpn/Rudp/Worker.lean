import SoftEtherVpn.Rudp.Wire

/-!
# The worker of the R-UDP transport

Sending a segment, handling a received datagram, and the periodic `rt_interrupt`:
drain the reorder buffer, exchange bytes with the application, cut segments,
keepalive, retransmission and pending acknowledgements, in the order of the source.
-/

namespace SoftEtherVpn.Rudp

open Foundation

/-- Hand a datagram to the socket. `sendto` failures are only logged. -/
def rtSendUdp (w : World) (t : RudpTransport) (data : Bytes) : RudpTransport :=
  let pos := w.rand t.calls % (if data.length > sha1Size then data.length - sha1Size else 1)
  { t with
    calls := t.calls + 1
    se := { t.se with
      lastSentTick := if data.length ≥ 1 then w.tick t.calls else t.se.lastSentTick
      nextIv := match t.transportMode with
        | .udp => (data.drop pos).take sha1Size
        | _ => w.randomBytes t.calls sha1Size }
    hist := { t.hist with sent := t.hist.sent ++ [data] } }

/-- The packet `rt_send_segment_now` builds from the session. -/
def segmentPacket (c : Crypto) (w : World) (t : RudpTransport) (seq : ℕ) (data : Bytes) : Bytes :=
  sealPacket c t.se.keySend t.se.nextIv
    (segmentBody
      { myTick := w.tick t.calls
        yourTick := t.se.yourTick
        maxAck := t.se.lastRecvCompleteSeq
        acks := t.se.replyAcks.take maxNumAck
        seq := seq
        payload := data }
      (w.padlen t.calls))

/-- Send one segment immediately, with all pending acknowledgements. -/
def rtSendSegmentNow (c : Crypto) (w : World) (t : RudpTransport) (seq : ℕ) (data : Bytes) :
    RudpTransport :=
  let pkt := segmentPacket c w t seq data
  let t := rtSendUdp w { t with
    calls := t.calls + 1
    se := { t.se with replyAcks := [] } } pkt
  let pos := w.rand t.calls % (pkt.length - sha1Size)
  { t with
    calls := t.calls + 1
    se := { t.se with
      lastSentTick := if data.length ≥ 1 then w.tick t.calls else t.se.lastSentTick
      nextIv := (pkt.drop pos).take sha1Size } }

def rtSignalResult (t : RudpTransport) (ok : Bool) : RudpTransport :=
  match t.result with
  | none => { t with result := some ok }
  | some _ => t

/-- Mark the session disconnected; five graceful segments go first when we initiate it. -/
def rtSetDisconnected (c : Crypto) (w : World) (t : RudpTransport) (byYou : Bool) :
    RudpTransport :=
  if t.se.status = .disconnected then t
  else
    let t := if byYou = false ∧ t.se.status = .established then
        (List.range 5).foldl (fun t _ => rtSendSegmentNow c w t t.se.magicDisconnect []) t
      else t
    rtSignalResult (t.withSe fun se => { se with status := .disconnected }) false

/-- The acknowledgements and ticks of a verified segment. -/
def rtApplyAcks (t : RudpTransport) (i : SegmentInfo) : RudpTransport :=
  let t := if i.maxAck ≥ 1 then rtProcessAck2 t i.maxAck else t
  let t := i.acks.foldl rtProcessAck t
  let myTick := if i.myTick ≥ 2 then i.myTick - 1 else i.myTick
  t.withSe fun se =>
    { se with
      yourTick := max se.yourTick myTick
      latestRecvMyTick := max se.latestRecvMyTick i.yourTick }

/-- The first segment of the server establishes the session. -/
def rtEstablish (t : RudpTransport) : RudpTransport :=
  if t.se.status = .connectSent then
    rtSignalResult (t.withSe fun se => { se with status := .established }) true
  else t

/-- The sequence number and payload of a verified segment. -/
def rtApplyPayload (c : Crypto) (w : World) (t : RudpTransport) (srcPort : ℕ)
    (i : SegmentInfo) : RudpTransport :=
  if i.seq = 0 then t
  else if i.seq = t.se.magicDisconnect then rtSetDisconnected c w t true
  else
    let payload := if i.payload.length > maxSegmentSize then [] else i.payload
    let t := if payload.length ≥ 1 then rtProcessRecvPayload t i.seq payload else t
    (rtEstablish t).withSe fun se => { se with yourPort := srcPort }

/-- What a verified segment does to the session. -/
def rtApplySegment (c : Crypto) (w : World) (t : RudpTransport) (srcPort : ℕ)
    (i : SegmentInfo) : RudpTransport :=
  if i.yourTick > w.tick t.calls then t
  else rtApplyPayload c w (rtApplyAcks t i) srcPort i

/-- Verify, decrypt and process an incoming datagram. -/
def rtHandleUdpPacket (c : Crypto) (w : World) (t : RudpTransport) (srcPort : ℕ)
    (buf : Bytes) : RudpTransport :=
  if t.se.status = .disconnected then t
  else if buf.length < sha1Size then t
  else
    match (openPacket c t.se.keyRecv buf).bind parseSegment with
    | none => t
    | some i => rtApplySegment c w t srcPort i

/-- Flush the receive FIFO into the application end, as far as `send` accepts it. -/
def pumpRecvLoop (c : Crypto) (w : World) (t : RudpTransport) : List SendResult → RudpTransport
  | [] => t
  | r :: rs =>
    if t.se.recvFifo.size = 0 then t
    else
      match r with
      | .failed => rtSetDisconnected c w t false
      | .accepted n =>
        let n := min n (min t.se.recvFifo.size maxSegmentSize)
        if n = 0 then t
        else
          pumpRecvLoop c w
            (t.withSe fun se => { se with recvFifo := rtFifoAdvance se.recvFifo n }) rs

def rtPumpRecvToPair (c : Crypto) (w : World) (t : RudpTransport) : RudpTransport :=
  pumpRecvLoop c w { t with calls := t.calls + 1 } (w.send t.calls)

/-- Read application data into the send FIFO. The result of the FIFO write is not
looked at: a chunk that does not fit is gone. -/
def pumpPairLoop (c : Crypto) (w : World) (t : RudpTransport) : List RecvResult → RudpTransport
  | [] => t
  | r :: rs =>
    if t.se.sendFifo.size ≥ maxFifoSize then t
    else
      match r with
      | .failed => rtSetDisconnected c w t false
      | .closed => rtSetDisconnected c w t false
      | .chunk bytes _ _ =>
        pumpPairLoop c w
          { t with
            se := { t.se with
              sendFifo := (rtFifoWrite t.se.sendFifo bytes).getD t.se.sendFifo }
            hist := { t.hist with read := t.hist.read ++ bytes } } rs

def rtPumpPairToSend (c : Crypto) (w : World) (t : RudpTransport) : RudpTransport :=
  pumpPairLoop c w { t with calls := t.calls + 1 } (w.recv t.calls)

/-- The periodic keepalive of `rt_interrupt`. -/
def rtPeriodicKeepalive (w : World) (now : ℕ) (t : RudpTransport) : RudpTransport :=
  if t.se.lastSentTick = 0 ∨ now ≥ wrap64 (t.se.lastSentTick + t.se.nextKeepaliveInterval) then
    let t := if t.se.sendSegments.length = 0 then
        rtQueueSegment t .keepAlive t.se.magicReq else t
    { t with
      calls := t.calls + 1
      se := { t.se with
        nextKeepaliveInterval :=
          keepaliveMin + w.rand t.calls % (keepaliveMax - keepaliveMin) } }
  else t

/-- Resend interval with exponential backoff, in 32-bit arithmetic. -/
def resendInterval (currentRtt numSent : ℕ) : ℕ :=
  let factor := 2 ^ min numSent 10
  let interval :=
    if currentRtt ≠ 0 then currentRtt * 120 % 2 ^ 32 / 100 * factor % 2 ^ 32
    else resendTimer * factor
  min interval resendTimerMax

/-- One round of the retransmission loop, for the segment in slot `j`. -/
def retransmitSlot (c : Crypto) (w : World) (now seqMin : ℕ) (t : RudpTransport) (j : ℕ) :
    RudpTransport :=
  match t.se.sendSegments[j]? with
  | none => t
  | some s =>
    if s.seq > wrap64 (seqMin + maxNumAck - 1) then t
    else if s.nextSendTick ≠ 0 ∧ now < s.nextSendTick then t
    else
      let s' := { s with
        numSent := s.numSent + 1
        nextSendTick := wrap64 (now + resendInterval t.se.currentRtt s.numSent) }
      rtSendSegmentNow c w
        (t.withSe fun se => { se with sendSegments := se.sendSegments.set j s' })
        s.seq s.data

/-- Retransmit due segments. -/
def rtRetransmit (c : Crypto) (w : World) (now : ℕ) (t : RudpTransport) : RudpTransport :=
  let seqMin := match t.se.sendSegments with | [] => 0 | s :: _ => s.seq
  (List.range t.se.sendSegments.length).foldl (retransmitSlot c w now seqMin) t

/-- Drain pending acknowledgements. Sending one packet empties the list, so the loop
of the source runs at most once. -/
def rtFlushAcks (c : Crypto) (w : World) (t : RudpTransport) : RudpTransport :=
  if t.se.replyAcks = [] then t else rtSendSegmentNow c w t t.se.nextSendSeq []

/-- Connection requests before the session is established. -/
def rtInterruptConnecting (c : Crypto) (w : World) (now : ℕ) (t : RudpTransport) :
    RudpTransport :=
  let t := if t.se.lastSentTick = 0 ∨ sub64 now t.se.lastSentTick ≥ resendTimer then
      (rtSendUdp w { t with calls := t.calls + 1 }
        (t.se.keyInit ++ w.randomBytes t.calls 19)).withSe
          fun se => { se with lastSentTick := now }
    else t
  if sub64 now t.se.createdTick ≥ t.connectTimeoutMs then
    rtSetDisconnected c w { t with errorCode := .timeout } false
  else t

/-- The established part of `rt_interrupt` after the timeout check. -/
def rtInterruptEstablished (c : Crypto) (w : World) (now : ℕ) (t : RudpTransport) :
    RudpTransport :=
  let t := (drainRecvSegments t).1
  let t := rtPumpRecvToPair c w t
  let t := rtPumpPairToSend c w t
  let t := rtSegmentSendFifo t
  let t := rtPeriodicKeepalive w now t
  let t := rtRetransmit c w now t
  rtFlushAcks c w t

def rtInterrupt (c : Crypto) (w : World) (now : ℕ) (t : RudpTransport) : RudpTransport :=
  match t.se.status with
  | .connectSent => rtInterruptConnecting c w now t
  | .disconnected => t
  | .established =>
    if now ≥ wrap64 (t.se.latestRecvMyTick + timeoutMs) then
      rtSetDisconnected c w { t with errorCode := .timeout } false
    else rtInterruptEstablished c w now t

/-! ## Session set-up in `rudp_transport_connect` -/

def rtDeriveKey (c : Crypto) (initKey s : Bytes) : Bytes :=
  c.sha1 (initKey ++ bytesBE 4 (s.length + 1) ++ s)

/-- `key1` and `key2` of `rt_derive_keys`. -/
def rtKey1 (c : Crypto) (initKey : Bytes) : Bytes := rtDeriveKey c initKey (ascii "zurukko")

def rtKey2 (c : Crypto) (initKey : Bytes) : Bytes :=
  rtDeriveKey c (initKey ++ rtKey1 c initKey) (ascii "yasushineko")

/-- What the surroundings supply to one `rudp_transport_connect`: configuration,
randomness, the clock, and the memory of the two FIFOs. -/
structure ConnectInputs where
  serverIp : ℕ
  serverPort : ℕ
  connectTimeoutMs : ℕ
  transportMode : TransportMode
  keyInit : Bytes
  keyInit_length : keyInit.length = sha1Size
  nextIv : Bytes
  nextIv_length : nextIv.length = sha1Size
  low : ℕ
  low_lt : low < 2 ^ 32
  interval : ℕ
  tick : ℕ
  sendMem : Bytes
  sendMem_length : sendMem.length = maxFifoSize
  recvMem : Bytes
  recvMem_length : recvMem.length = maxFifoSize

def ConnectInputs.magicDisconnect (i : ConnectInputs) : ℕ := 0xffffffff00000000 + i.low

/-- An empty FIFO over the given memory. -/
def emptyFifo (mem : Bytes) (h : mem.length = maxFifoSize) : RtFifo maxFifoSize where
  buf := mem
  head := 0
  size := 0
  buf_length := h
  head_lt := by decide
  size_le := Nat.zero_le _

@[simp] theorem emptyFifo_size (mem : Bytes) (h : mem.length = maxFifoSize) :
    (emptyFifo mem h).size = 0 := rfl

@[simp] theorem emptyFifo_contents (mem : Bytes) (h : mem.length = maxFifoSize) :
    (emptyFifo mem h).contents = [] := by
  apply List.eq_nil_of_length_eq_zero
  rw [RtFifo.contents_length, emptyFifo_size]

/-- The transport when the worker starts: the first payload is the big-endian
disconnect magic, already in the send FIFO. -/
def rudpTransportStart (c : Crypto) (i : ConnectInputs) : RudpTransport where
  errorCode := .unknown
  connectTimeoutMs := i.connectTimeoutMs
  transportMode := i.transportMode
  result := none
  calls := 0
  hist := {}
  se :=
    { status := .connectSent
      keyInit := i.keyInit
      keySend := rtKey2 c i.keyInit
      keyRecv := rtKey1 c i.keyInit
      magicReq := rtDeriveKey c i.keyInit (ascii "Magic_KeepAliveRequest")
      magicResp := rtDeriveKey c i.keyInit (ascii "Magic_KeepAliveResponse")
      magicDisconnect := i.magicDisconnect
      nextIv := i.nextIv
      nextSendSeq := 1
      lastRecvCompleteSeq := 0
      yourTick := 0
      latestRecvMyTick := i.tick
      currentRtt := 0
      lastSentTick := 0
      nextKeepaliveInterval := keepaliveMin + i.interval % (keepaliveMax - keepaliveMin)
      createdTick := i.tick
      yourIp := i.serverIp
      yourPort := i.serverPort
      sendSegments := []
      recvSegments := []
      replyAcks := []
      sendFifo :=
        let fifo := emptyFifo i.sendMem i.sendMem_length
        (rtFifoWrite fifo (bytesBE 8 i.magicDisconnect)).getD fifo
      recvFifo := emptyFifo i.recvMem i.recvMem_length }

theorem rudpTransportStart_sendFifo (c : Crypto) (i : ConnectInputs) :
    (rudpTransportStart c i).se.sendFifo.contents = bytesBE 8 i.magicDisconnect := by
  obtain ⟨g, hg⟩ : ∃ g, rtFifoWrite (emptyFifo i.sendMem i.sendMem_length)
      (bytesBE 8 i.magicDisconnect) = some g := by
    apply rtFifoWrite_isSome
    simp [rtFifoAvail, maxFifoSize]
  have hcap : maxFifoSize ≤ 2 ^ 31 := by decide
  simp only [rudpTransportStart, hg, Option.getD_some]
  rw [rtFifoWrite_contents hcap hg, emptyFifo_contents, List.nil_append]

/-- A world in which nothing happens: the clock stands and the sockets are idle. -/
def World.quiet : World where
  tick _ := 1000
  rand _ := 0
  randomBytes _ n := List.replicate n 0
  randomBytes_length _ _ := List.length_replicate
  recv _ := []
  send _ := []

/-- One connect over UDP with fixed random values. -/
def ConnectInputs.sample : ConnectInputs where
  serverIp := 0x7f000001
  serverPort := 5555
  connectTimeoutMs := 5000
  transportMode := .udp
  keyInit := List.replicate sha1Size 1
  keyInit_length := List.length_replicate
  nextIv := List.replicate sha1Size 2
  nextIv_length := List.length_replicate
  low := 7
  low_lt := by decide
  interval := 0
  tick := 1000
  sendMem := List.replicate maxFifoSize 0
  sendMem_length := List.length_replicate
  recvMem := List.replicate maxFifoSize 0
  recvMem_length := List.length_replicate

/-- The session of that connect once the server has answered. -/
def sampleSession : RudpTransport :=
  (rudpTransportStart .openssl .sample).withSe fun se => { se with status := .established }

end SoftEtherVpn.Rudp
