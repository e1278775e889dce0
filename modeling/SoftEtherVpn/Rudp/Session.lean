import SoftEtherVpn.Rudp.Fifo

/-!
# State of the R-UDP transport and its segment bookkeeping

`rudp_transport` and its embedded `rt_session_t`, with the functions that move
segments between the send window, the reorder buffer and the two FIFOs. The fixed
arrays with their counters are lists; sequence numbers and ticks are naturals with
the 64-bit wrap written out. `History` records what has happened so far (bytes read
from the application, segments queued, bytes delivered, datagrams sent); no
function of the transport reads it.
-/

namespace SoftEtherVpn.Rudp

open Foundation

def sha1Size : ℕ := 20
def resendTimer : ℕ := 200
def resendTimerMax : ℕ := 4792
def keepaliveMin : ℕ := 2500
def keepaliveMax : ℕ := 4792
def timeoutMs : ℕ := 12000
def maxSegmentSize : ℕ := 512
def maxNumAck : ℕ := 64
def maxFifoSize : ℕ := 512 * 1024
def maxPacketSize : ℕ := maxSegmentSize + 8 * maxNumAck + sha1Size * 2 + 8 * 4 + 4 + 255

def wrap64 (n : ℕ) : ℕ := n % 2 ^ 64

/-- Unsigned 64-bit subtraction. -/
def sub64 (a b : ℕ) : ℕ := wrap64 (a + 2 ^ 64 - b)

inductive RtStatus
  | connectSent
  | established
  | disconnected
  deriving DecidableEq

inductive RudpError
  | ok
  | unknown
  | timeout
  deriving DecidableEq

inductive TransportMode
  | udp
  | dns
  | icmp
  deriving DecidableEq

/-- `rt_segment_t`; the `size` field is the length of `data`. -/
structure RtSegment where
  seq : ℕ
  data : Bytes
  nextSendTick : ℕ := 0
  numSent : ℕ := 0
  deriving DecidableEq

/-- Why a segment was queued: application data, or one of the two keepalive payloads. -/
inductive SegmentKind
  | data
  | keepAlive
  deriving DecidableEq

structure Queued where
  kind : SegmentKind
  seq : ℕ
  payload : Bytes
  deriving DecidableEq

/-- The application bytes a queued segment carries. -/
def Queued.appBytes (q : Queued) : Bytes :=
  match q.kind with
  | .data => q.payload
  | .keepAlive => []

structure RtSession where
  status : RtStatus
  keyInit : Bytes
  keySend : Bytes
  keyRecv : Bytes
  magicReq : Bytes
  magicResp : Bytes
  magicDisconnect : ℕ
  nextIv : Bytes
  nextSendSeq : ℕ
  lastRecvCompleteSeq : ℕ
  yourTick : ℕ
  latestRecvMyTick : ℕ
  currentRtt : ℕ
  lastSentTick : ℕ
  nextKeepaliveInterval : ℕ
  createdTick : ℕ
  yourIp : ℕ
  yourPort : ℕ
  sendSegments : List RtSegment
  recvSegments : List RtSegment
  replyAcks : List ℕ
  sendFifo : RtFifo maxFifoSize
  recvFifo : RtFifo maxFifoSize

structure History where
  read : Bytes := []
  queued : List Queued := []
  delivered : Bytes := []
  sent : List Bytes := []

/-- Application bytes of all queued segments, in sequence order. -/
def History.appStream (h : History) : Bytes := h.queued.flatMap Queued.appBytes

structure RudpTransport where
  errorCode : RudpError
  connectTimeoutMs : ℕ
  transportMode : TransportMode
  result : Option Bool
  calls : ℕ
  se : RtSession
  hist : History

/-- One result of `recv` on the worker end of the socket pair. -/
inductive RecvResult
  | chunk (bytes : Bytes) (pos : 1 ≤ bytes.length) (le : bytes.length ≤ maxSegmentSize)
  | closed
  | failed

/-- One result of `send` on the worker end of the socket pair. -/
inductive SendResult
  | accepted (n : ℕ)
  | failed

/-- The outside world as the worker sees it: the answers of successive system and
library calls. A list of `recv` or `send` results ends where the socket would block. -/
structure World where
  tick : ℕ → ℕ
  rand : ℕ → ℕ
  randomBytes : ℕ → ℕ → Bytes
  randomBytes_length : ∀ i n, (randomBytes i n).length = n
  recv : ℕ → List RecvResult
  send : ℕ → List SendResult

def World.padlen (w : World) (i : ℕ) : ℕ := w.rand i % 255 + 1

namespace RudpTransport

def withSe (t : RudpTransport) (f : RtSession → RtSession) : RudpTransport :=
  { t with se := f t.se }

@[simp] theorem withSe_se (t : RudpTransport) (f : RtSession → RtSession) :
    (t.withSe f).se = f t.se := rfl

@[simp] theorem withSe_hist (t : RudpTransport) (f : RtSession → RtSession) :
    (t.withSe f).hist = t.hist := rfl

end RudpTransport

/-- A full send window drops the segment silently. -/
def rtQueueSegment (t : RudpTransport) (kind : SegmentKind) (data : Bytes) : RudpTransport :=
  if t.se.sendSegments.length ≥ maxNumAck then t
  else
    { t with
      se := { t.se with
        sendSegments := t.se.sendSegments ++ [{ seq := t.se.nextSendSeq, data := data }]
        nextSendSeq := wrap64 (t.se.nextSendSeq + 1) }
      hist := { t.hist with queued := t.hist.queued ++ [⟨kind, t.se.nextSendSeq, data⟩] } }

/-- Removes the first segment with exactly this number. -/
def rtProcessAck (t : RudpTransport) (seq : ℕ) : RudpTransport :=
  t.withSe fun se => { se with sendSegments := se.sendSegments.eraseP fun s => s.seq == seq }

/-- Cumulative acknowledgement: removes every segment up to `maxSeq`. -/
def rtProcessAck2 (t : RudpTransport) (maxSeq : ℕ) : RudpTransport :=
  t.withSe fun se =>
    { se with sendSegments := se.sendSegments.filter fun s => !decide (s.seq ≤ maxSeq) }

def rtAddAck (t : RudpTransport) (seq : ℕ) : RudpTransport :=
  t.withSe fun se =>
    if seq ∈ se.replyAcks then se
    else if se.replyAcks.length < maxNumAck then
      { se with replyAcks := se.replyAcks ++ [seq] }
    else se

def rtProcessRecvPayload (t : RudpTransport) (seq : ℕ) (payload : Bytes) : RudpTransport :=
  if seq > wrap64 (t.se.lastRecvCompleteSeq + maxNumAck) then t
  else if seq ≤ t.se.lastRecvCompleteSeq then rtAddAck t seq
  else if ∃ s ∈ t.se.recvSegments, s.seq = seq then rtAddAck t seq
  else if t.se.recvSegments.length ≥ maxNumAck then t
  else
    rtAddAck (t.withSe fun se =>
      { se with recvSegments := se.recvSegments ++ [{ seq := seq, data := payload }] }) seq

/-- The three ways the drain loop of `rt_interrupt` ends. -/
inductive DrainEnd
  | exhausted
  | gap
  | fifoFull
  deriving DecidableEq

/-- The drain loop over the slots that are left, `cur` being the last number consumed. -/
def drainLoop (t : RudpTransport) (cur drained : ℕ) :
    List RtSegment → RudpTransport × ℕ × DrainEnd
  | [] => (t, drained, .exhausted)
  | s :: rest =>
    let cur := wrap64 (cur + 1)
    let consume := fun (t : RudpTransport) =>
      drainLoop (t.withSe fun se => { se with lastRecvCompleteSeq := s.seq })
        cur (drained + 1) rest
    if s.seq ≠ cur then (t, drained, .gap)
    else if s.data.length = sha1Size ∧ s.data = t.se.magicReq then
      consume (if t.se.sendSegments.length = 0 then
        rtQueueSegment t .keepAlive t.se.magicResp else t)
    else if s.data.length = sha1Size ∧ s.data = t.se.magicResp then consume t
    else
      match rtFifoWrite t.se.recvFifo s.data with
      | none => (t, drained, .fifoFull)
      | some fifo => consume
          { t with
            se := { t.se with recvFifo := fifo }
            hist := { t.hist with delivered := t.hist.delivered ++ s.data } }

/-- Drain in-order received segments into the receive FIFO. -/
def drainRecvSegments (t : RudpTransport) : RudpTransport × DrainEnd :=
  let r := drainLoop t t.se.lastRecvCompleteSeq 0 t.se.recvSegments
  (r.1.withSe fun se => { se with recvSegments := se.recvSegments.drop r.2.1 }, r.2.2)

/-- Segment data from the send FIFO respecting the send window. Every round takes at
least one byte from the FIFO. -/
def rtSegmentSendFifo (t : RudpTransport) : RudpTransport :=
  let seqMin := match t.se.sendSegments with | [] => 0 | s :: _ => s.seq
  if seqMin ≠ 0 ∧ wrap64 (seqMin + maxNumAck - 1) < t.se.nextSendSeq then t
  else if _h : t.se.sendFifo.size = 0 then t
  else
    let size := min t.se.sendFifo.size maxSegmentSize
    let tmp := rtFifoPeek t.se.sendFifo size
    rtSegmentSendFifo ((rtQueueSegment t .data tmp).withSe fun se =>
      { se with sendFifo := rtFifoAdvance t.se.sendFifo size })
termination_by t.se.sendFifo.size
decreasing_by
  simp only [RudpTransport.withSe_se, rtFifoAdvance_size]
  unfold maxSegmentSize
  omega

end SoftEtherVpn.Rudp
