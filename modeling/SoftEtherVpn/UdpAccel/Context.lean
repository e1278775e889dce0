import SoftEtherVpn.Rudp.Wire

/-!
# UDP acceleration

The context of `softether_rudp.c` and its operations. The context is shared by the
receive and the send thread behind one recursive lock, so every operation is a function
from context to context. The clock, the random numbers, the datagrams that arrive and
the outcome of `sendto` come from the environment. The receive ring of 256 blocks is
the list of its blocks in order.
-/

namespace SoftEtherVpn.UdpAccel

open Foundation Rudp

def packetIvSizeV1 : ℕ := 20
def packetIvSizeV2 : ℕ := 12
def packetMacSizeV2 : ℕ := 16
def tmpBufSize : ℕ := 2048
def windowSizeMsec : ℕ := 30 * 1000
def maxPayloadSize : ℕ := 1600
def maxPaddingSize : ℕ := 32
def requireContinuous : ℕ := 10 * 1000
def kaIntervalMin : ℕ := 1000
def kaIntervalMax : ℕ := 3000
def kaTimeout : ℕ := 9000
def kaIntervalMinFast : ℕ := 500
def kaIntervalMaxFast : ℕ := 1000
def kaTimeoutFast : ℕ := 2100
def maxUdpPacketIpv4 : ℕ := 1472
def flagCompressed : UInt8 := 0x01
def recvQueueSize : ℕ := 256
def overflowSuspendThreshold : ℕ := 8
def udpSuspendMs : ℕ := 30 * 1000
def peerTickLossGap : ℕ := 10 * 1000
def cwinStart : ℕ := 256 * 1024
def cwinMin : ℕ := 32 * 1024
def cwinMax : ℕ := 8 * 1024 * 1024
def cwinGrowBps : ℕ := 4 * 1024 * 1024
def suspendBackoffMaxShift : ℤ := 3
def cleanResetMs : ℕ := 5 * 60 * 1000

/-- A reading of `CLOCK_MONOTONIC`, which the kernel keeps as a signed 64-bit count of
nanoseconds. -/
structure Timespec where
  sec : ℕ
  nsec : ℕ
  inRange : sec * 10 ^ 9 + nsec < 2 ^ 63

def tick64 (ts : Timespec) : ℕ := ts.sec * 1000 + ts.nsec / 1000000

theorem tick64_lt (ts : Timespec) : tick64 ts < 2 ^ 44 := by
  have h := ts.inRange
  have hdiv : ts.nsec / 1000000 * 1000000 ≤ ts.nsec := Nat.div_mul_le_self ts.nsec 1000000
  norm_num at h
  norm_num [tick64]
  linarith

/-- The crypto and compression libraries, as far as the code calls them. The compression
functions take the size of the output buffer. -/
structure Libs where
  crypto : Crypto
  aeadSeal : Bytes → Bytes → Bytes → Bytes × Bytes
  aeadOpen : Bytes → Bytes → Bytes → Bytes → Option Bytes
  compress2 : Bytes → ℕ → Option Bytes
  uncompress : Bytes → ℕ → Option Bytes
  aeadSeal_length : ∀ key iv plain, (aeadSeal key iv plain).1.length = plain.length
  aeadSeal_tag : ∀ key iv plain, (aeadSeal key iv plain).2.length = packetMacSizeV2

inductive Version
  | v1
  | v2
  deriving DecidableEq

structure SockAddr where
  ipv6 : Bool
  addr : Bytes
  port : ℕ
  deriving DecidableEq

/-- What the operations did, oldest first: the loss events, the changes of the suspension
state, the start of a stable reception, and each poll and readiness check with the clock
and the `last_recv_tick` it found. -/
inductive RudpEvent
  | gap (now : ℕ)
  | overflow (now : ℕ)
  | timeout (now : ℕ)
  | stable (now : ℕ)
  | polled (now lastRecvTick : ℕ)
  | evaluated (now lastRecvTick : ℕ)
  | backoffReset (now : ℕ)
  | resumed (now : ℕ)
  | suspended (now resumeTick : ℕ)
  | answered (now : ℕ) (ready : Bool)
  deriving DecidableEq

/-- `rudp_context_t`. `history` is not in the source. -/
structure RudpContext where
  inited : Bool
  version : Version
  myKey : Bytes
  yourKey : Bytes
  myKeyV2 : Bytes
  yourKeyV2 : Bytes
  nextIv : List.Vector UInt8 packetIvSizeV1
  nextIvV2 : List.Vector UInt8 packetIvSizeV2
  myCookie : UInt32
  yourCookie : UInt32
  peerAddr : SockAddr
  peerAddrSet : Bool
  isIpv6 : Bool
  now : ℕ
  lastRecvTick : ℕ
  lastRecvYourTick : ℕ
  lastRecvMyTick : ℕ
  nextSendKeepalive : ℕ
  firstStableReceiveTick : ℕ
  mss : ℕ
  maxUdpPacketSize : ℕ
  maxUdpPacketSize_le : maxUdpPacketSize ≤ maxUdpPacketIpv4
  useCompress : Bool
  recvQueue : List Bytes
  recvQueueOverflowCount : ℕ
  udpRxPackets : ℕ
  peerTickGapEvents : ℕ
  lastPeerTickSeen : ℕ
  recentOverflows : ℕ
  udpDataSuspended : Bool
  udpDataResumeTick : ℕ
  suspensionCount : ℕ
  lastLossEventTick : ℕ
  cwinBytes : ℕ
  cwinLastRefillTick : ℕ
  cwinInited : Bool
  history : List RudpEvent

namespace RudpContext

def record (ctx : RudpContext) (e : RudpEvent) : RudpContext :=
  { ctx with history := ctx.history ++ [e] }

/-- `ctx->now = tick64()`. -/
def readClock (clock : Timespec) (ctx : RudpContext) : RudpContext :=
  { ctx with now := tick64 clock }

/-- The fast-detect flag, kept in the top bit of `mss`. -/
def fastDetect (ctx : RudpContext) : Bool := ctx.mss.testBit 31

def timeoutValue (ctx : RudpContext) : ℕ := if ctx.fastDetect then kaTimeoutFast else kaTimeout

end RudpContext

/-- What `rudp_create`, `rudp_init_client` and the setters are given. -/
structure Setup where
  version : Version
  myKey : Bytes
  yourKey : Bytes
  myKeyV2 : Bytes
  yourKeyV2 : Bytes
  iv : List.Vector UInt8 packetIvSizeV1
  ivV2 : List.Vector UInt8 packetIvSizeV2
  myCookie : UInt32
  yourCookie : UInt32
  peer : SockAddr
  mss : ℕ
  useCompress : Bool
  clock : Timespec

/-- A context after `rudp_create` and `rudp_init_client`. -/
def rudpInit (i : Setup) : RudpContext where
  inited := true
  version := i.version
  myKey := i.myKey
  yourKey := i.yourKey
  myKeyV2 := i.myKeyV2
  yourKeyV2 := i.yourKeyV2
  nextIv := i.iv
  nextIvV2 := i.ivV2
  myCookie := i.myCookie
  yourCookie := i.yourCookie
  peerAddr := i.peer
  peerAddrSet := true
  isIpv6 := i.peer.ipv6
  now := tick64 i.clock
  lastRecvTick := 0
  lastRecvYourTick := 0
  lastRecvMyTick := 0
  nextSendKeepalive := 0
  firstStableReceiveTick := 0
  mss := i.mss
  maxUdpPacketSize := if i.peer.ipv6 then 1452 else maxUdpPacketIpv4
  maxUdpPacketSize_le := by split_ifs <;> simp [maxUdpPacketIpv4]
  useCompress := i.useCompress
  recvQueue := []
  recvQueueOverflowCount := 0
  udpRxPackets := 0
  peerTickGapEvents := 0
  lastPeerTickSeen := 0
  recentOverflows := 0
  udpDataSuspended := false
  udpDataResumeTick := 0
  suspensionCount := 0
  lastLossEventTick := 0
  cwinBytes := 0
  cwinLastRefillTick := 0
  cwinInited := false
  history := []

def rudpCwinRefill (ctx : RudpContext) : RudpContext :=
  if ctx.cwinInited = false then
    { ctx with cwinBytes := cwinStart, cwinLastRefillTick := ctx.now, cwinInited := true }
  else if ctx.now ≤ ctx.cwinLastRefillTick then ctx
  else
    let dt := ctx.now - ctx.cwinLastRefillTick
    let bytes := wrap64 (ctx.cwinBytes + wrap64 (cwinGrowBps * dt) / 1000)
    { ctx with
      cwinLastRefillTick := ctx.now
      cwinBytes := if bytes > cwinMax then cwinMax else bytes }

def rudpCwinOnLoss (ctx : RudpContext) : RudpContext :=
  { ctx with
    lastLossEventTick := ctx.now
    cwinBytes := if ctx.cwinBytes / 2 < cwinMin then cwinMin else ctx.cwinBytes / 2 }

/-- The clean-period reset of `rudp_is_send_ready_nolock`. -/
def cleanReset (ctx : RudpContext) : RudpContext :=
  if ctx.udpDataSuspended = false ∧ ctx.lastLossEventTick ≠ 0 ∧
      ctx.lastLossEventTick < ctx.now ∧ cleanResetMs ≤ ctx.now - ctx.lastLossEventTick then
    { ctx with suspensionCount := 0, recentOverflows := 0 }.record (.backoffReset ctx.now)
  else ctx

/-- The length of the next suspension after `suspensionCount` of them. -/
def suspendMs (suspensionCount : ℕ) : ℕ :=
  let shift := int32 suspensionCount
  let shift := if shift > suspendBackoffMaxShift then suspendBackoffMaxShift else shift
  udpSuspendMs * 2 ^ shift.toNat

def suspendData (ctx : RudpContext) : RudpContext :=
  let resume := wrap64 (ctx.now + suspendMs ctx.suspensionCount)
  { ctx with
    suspensionCount := (ctx.suspensionCount + 1) % 2 ^ 32
    udpDataSuspended := true
    udpDataResumeTick := resume }.record (.suspended ctx.now resume)

/-- The end of a suspension whose time is over. -/
def endSuspension (ctx : RudpContext) : RudpContext :=
  if ctx.udpDataSuspended then
    { ctx with udpDataSuspended := false, recentOverflows := 0 }.record (.resumed ctx.now)
  else ctx

/-- `last_recv_tick` is unset or older than the keep-alive timeout. -/
def receiveStale (ctx : RudpContext) : Prop :=
  ctx.lastRecvTick = 0 ∨ wrap64 (ctx.lastRecvTick + ctx.timeoutValue) < ctx.now

instance (ctx : RudpContext) : Decidable (receiveStale ctx) :=
  inferInstanceAs (Decidable (_ ∨ _))

/-- The end of `rudp_is_send_ready_nolock`, reached when data is not suspended. -/
def checkReception (checkKeepalive : Bool) (ctx : RudpContext) : RudpContext × Bool :=
  if checkKeepalive then
    if receiveStale ctx then ({ ctx with firstStableReceiveTick := 0 }, false)
    else if wrap64 (ctx.firstStableReceiveTick + requireContinuous) ≤ ctx.now then
      (ctx, ctx.cwinBytes ≠ 0)
    else (ctx, false)
  else (ctx, true)

def rudpIsSendReadyNolock (checkKeepalive : Bool) (ctx : RudpContext) : RudpContext × Bool :=
  let ctx := cleanReset (rudpCwinRefill ctx)
  if ctx.udpDataSuspended ∧ ctx.now < ctx.udpDataResumeTick then (ctx, false)
  else
    let ctx := endSuspension ctx
    if overflowSuspendThreshold ≤ ctx.recentOverflows then (suspendData ctx, false)
    else checkReception checkKeepalive ctx

/-- `rudp_is_send_ready`. -/
def rudpIsSendReady (checkKeepalive : Bool) (ctx : RudpContext) : RudpContext × Bool :=
  if ctx.inited = false ∨ ctx.peerAddrSet = false then (ctx, false)
  else
    let r := rudpIsSendReadyNolock checkKeepalive
      (ctx.record (.evaluated ctx.now ctx.lastRecvTick))
    (r.1.record (.answered r.1.now r.2), r.2)

/-- `compress_data`. -/
def compressData (lib : Libs) (src : Bytes) (destLen : ℕ) : Option Bytes :=
  if src = [] then some [] else lib.compress2 src destLen

/-- `uncompress_data`. -/
def uncompressData (lib : Libs) (src : Bytes) (destLen : ℕ) : Option Bytes :=
  if src = [] then some [] else lib.uncompress src destLen

/-- The fields of a decrypted packet behind the cookie. -/
structure Inner where
  myTick : ℕ
  yourTick : ℕ
  flag : UInt8
  data : Bytes
  deriving DecidableEq

/-- The parsing half of `rudp_process_inner`; `none` is a packet dropped without effect. -/
def parseInner (cookie : UInt32) (verifyPadding : Bool) (buf : Bytes) : Option Inner := do
  let (c, buf) ← readBE 4 buf
  guard (c = cookie.toNat)
  let (myTick, buf) ← readBE 8 buf
  let (yourTick, buf) ← readBE 8 buf
  let (innerSize, buf) ← readBE 2 buf
  let (flag, buf) ← readBE 1 buf
  guard (innerSize ≤ buf.length)
  let rest := buf.drop innerSize
  if verifyPadding then
    guard (packetIvSizeV1 ≤ rest.length)
    guard (rest.drop (rest.length - packetIvSizeV1) = List.replicate packetIvSizeV1 0)
  return ⟨myTick, yourTick, UInt8.ofNat flag, buf.take innerSize⟩

/-- The peer's tick is older than the receive window. -/
def outsideWindow (ctx : RudpContext) (myTick : ℕ) : Prop :=
  myTick < ctx.lastRecvYourTick ∧ windowSizeMsec ≤ ctx.lastRecvYourTick - myTick

instance (ctx : RudpContext) (myTick : ℕ) : Decidable (outsideWindow ctx myTick) :=
  inferInstanceAs (Decidable (_ ∧ _))

/-- A large forward jump of the peer's clock counts as a gap. -/
def noteGap (myTick : ℕ) (ctx : RudpContext) : RudpContext :=
  if ctx.lastPeerTickSeen ≠ 0 ∧ myTick > wrap64 (ctx.lastPeerTickSeen + peerTickLossGap) then
    (rudpCwinOnLoss { ctx with
      peerTickGapEvents := wrap64 (ctx.peerTickGapEvents + 1) }).record (.gap ctx.now)
  else ctx

/-- The tick, gap and peer-address updates of `rudp_process_inner`. -/
def notePacket (i : Inner) (fromAddr : SockAddr) (ctx : RudpContext) : RudpContext :=
  let ctx := noteGap i.myTick { ctx with
    lastRecvMyTick := max ctx.lastRecvMyTick i.yourTick
    lastRecvYourTick := max ctx.lastRecvYourTick i.myTick }
  { ctx with
    lastPeerTickSeen := i.myTick
    udpRxPackets := wrap64 (ctx.udpRxPackets + 1)
    peerAddr := fromAddr
    peerAddrSet := true
    isIpv6 := fromAddr.ipv6 }

/-- The receive timing of `rudp_process_inner`. -/
def noteReception (ctx : RudpContext) : RudpContext :=
  if ctx.lastRecvMyTick ≠ 0 ∧ ctx.now ≤ wrap64 (ctx.lastRecvMyTick + windowSizeMsec) then
    if ctx.firstStableReceiveTick = 0 then
      { ctx with lastRecvTick := ctx.now, firstStableReceiveTick := ctx.now }.record
        (.stable ctx.now)
    else { ctx with lastRecvTick := ctx.now }
  else ctx

/-- A received block goes to the queue; a full queue counts an overflow. -/
def queueBlock (block : Bytes) (ctx : RudpContext) : RudpContext :=
  if block.length ≤ maxPayloadSize then
    if ctx.recvQueue.length < recvQueueSize then
      { ctx with recvQueue := ctx.recvQueue ++ [block] }
    else
      (rudpCwinOnLoss { ctx with
        recvQueueOverflowCount := wrap64 (ctx.recvQueueOverflowCount + 1)
        recentOverflows := (ctx.recentOverflows + 1) % 2 ^ 32 }).record (.overflow ctx.now)
  else ctx

/-- The queueing half of `rudp_process_inner`, with the result the function returns. -/
def queueData (lib : Libs) (i : Inner) (ctx : RudpContext) : RudpContext × Bool :=
  if i.data = [] then (ctx, true)
  else if i.flag &&& flagCompressed ≠ 0 then
    match uncompressData lib i.data (maxPayloadSize + 256) with
    | none => (ctx, false)
    | some block => (queueBlock block ctx, true)
  else (queueBlock i.data ctx, true)

/-- `rudp_process_inner`: the new context, and whether the packet was accepted. -/
def rudpProcessInner (lib : Libs) (fromAddr : SockAddr) (verifyPadding : Bool) (buf : Bytes)
    (ctx : RudpContext) : RudpContext × Bool :=
  match parseInner ctx.myCookie verifyPadding buf with
  | none => (ctx, false)
  | some i =>
    if outsideWindow ctx i.myTick then (ctx, false)
    else queueData lib i (noteReception (notePacket i fromAddr ctx))

/-- One packet that `recvfrom` returned, and the clock reading after it. -/
structure Datagram where
  clock : Timespec
  fromAddr : SockAddr
  data : Bytes

/-- `calc_key`. -/
def calcKey (lib : Libs) (commonKey iv : Bytes) : Bytes := lib.crypto.sha1 (commonKey ++ iv)

/-- The body of the receive loop of `rudp_poll_nolock`. -/
def recvPacket (lib : Libs) (d : Datagram) (ctx : RudpContext) : RudpContext :=
  let tmp := d.data.take tmpBufSize
  if tmp.length < packetIvSizeV1 + 4 + 1 then ctx
  else
    let ctx := ctx.readClock d.clock
    match ctx.version with
    | .v1 =>
      let key := calcKey lib ctx.yourKey (tmp.take packetIvSizeV1)
      let buf := rc4Crypt key (tmp.drop packetIvSizeV1)
      (rudpProcessInner lib d.fromAddr true buf ctx).1
    | .v2 =>
      if tmp.length < packetIvSizeV2 + packetMacSizeV2 + 4 + 1 then ctx
      else
        let buf := tmp.drop packetIvSizeV2
        let size := buf.length - packetMacSizeV2
        match lib.aeadOpen ctx.yourKeyV2 (tmp.take packetIvSizeV2) (buf.take size)
            (buf.drop size) with
        | none => ctx
        | some plain => (rudpProcessInner lib d.fromAddr false plain ctx).1

/-- The receive loop of `rudp_poll_nolock`: it ends with the datagrams, or at an empty one. -/
def recvLoop (lib : Libs) : List Datagram → RudpContext → RudpContext
  | [], ctx => ctx
  | d :: ds, ctx => if d.data = [] then ctx else recvLoop lib ds (recvPacket lib d ctx)

/-- What one `rudp_send` takes from the environment. -/
structure SendInput where
  clock : Timespec
  rand : ℕ
  sendto : Bool

structure SendOutcome where
  ctx : RudpContext
  ret : ℤ
  sent : Option Bytes

/-- The bytes behind the IV, up to the padding. -/
def innerBytes (ctx : RudpContext) (flag : UInt8) (data : Bytes) : Bytes :=
  bytesBE 4 ctx.yourCookie.toNat ++ bytesBE 8 (if ctx.now = 0 then 1 else ctx.now) ++
    bytesBE 8 ctx.lastRecvYourTick ++ bytesBE 2 data.length ++ [flag] ++ data

/-- The number of padding bytes for a packet of `currentSize` bytes. -/
def paddingSize (ctx : RudpContext) (rand currentSize : ℕ) : ℕ :=
  if currentSize < ctx.maxUdpPacketSize then
    let padSize := ctx.maxUdpPacketSize - currentSize
    rand % ((if padSize > maxPaddingSize then maxPaddingSize else padSize) + 1)
  else 0

theorem innerBytes_length (ctx : RudpContext) (flag : UInt8) (data : Bytes) :
    (innerBytes ctx flag data).length = 23 + data.length := by
  simp [innerBytes]
  omega

/-- The padding and encryption half of `rudp_send_nolock`: the packet and the context with
the next IV, or `none` if it does not fit. -/
def sealDatagram (lib : Libs) (rand : ℕ) (flag : UInt8) (data : Bytes) (ctx : RudpContext) :
    Option (RudpContext × Bytes) :=
  match ctx.version with
  | .v1 =>
    let padSize := paddingSize ctx rand (packetIvSizeV1 + 23 + data.length + packetIvSizeV1)
    let body := innerBytes ctx flag data ++ List.replicate padSize 0 ++
      List.replicate packetIvSizeV1 0
    let enc := rc4Crypt (calcKey lib ctx.myKey ctx.nextIv.toList) body
    some ({ ctx with nextIv := ⟨enc.drop (enc.length - packetIvSizeV1), by
              simp [enc, body, innerBytes_length]; omega⟩ },
      ctx.nextIv.toList ++ enc)
  | .v2 =>
    let currentSize := packetIvSizeV2 + 23 + data.length + packetMacSizeV2
    let padSize := paddingSize ctx rand currentSize
    if currentSize + padSize > tmpBufSize then none
    else
      let body := innerBytes ctx flag data ++ List.replicate padSize 0
      let enc := lib.aeadSeal ctx.myKeyV2 ctx.nextIvV2.toList body
      some ({ ctx with nextIvV2 := ⟨enc.1.take packetIvSizeV2, by
                simp [enc, body, lib.aeadSeal_length, innerBytes_length, packetIvSizeV2]
                omega⟩ },
        ctx.nextIvV2.toList ++ enc.1 ++ enc.2)

def ivSize (ctx : RudpContext) : ℕ :=
  match ctx.version with
  | .v1 => packetIvSizeV1
  | .v2 => packetIvSizeV2

/-- The bytes and the flag that `rudp_send_nolock` sends for a payload. -/
def sendPayload (lib : Libs) (data : Bytes) (flag : UInt8) (ctx : RudpContext) :
    Bytes × UInt8 :=
  if ctx.useCompress ∧ 1 < data.length then
    match compressData lib data (maxPayloadSize + 256) with
    | some comp => (comp, flag ||| flagCompressed)
    | none => (data, flag)
  else (data, flag)

/-- The send-window budget a payload of `n` bytes takes; keepalives are free. -/
def consumeBudget (n : ℕ) (ctx : RudpContext) : RudpContext :=
  if n > 0 then
    let ctx := rudpCwinRefill ctx
    { ctx with cwinBytes := if n ≤ ctx.cwinBytes then ctx.cwinBytes - n else 0 }
  else ctx

def rudpSendNolock (lib : Libs) (inp : SendInput) (data : Bytes) (flag : UInt8)
    (ctx : RudpContext) : SendOutcome :=
  let ctx := ctx.readClock inp.clock
  let (sendData, sendFlag) := sendPayload lib data flag ctx
  if sendData ≠ [] ∧
      ivSize ctx + 23 + sendData.length > tmpBufSize - packetIvSizeV1 - 8 then
    ⟨ctx, -1, none⟩
  else
    match sealDatagram lib inp.rand sendFlag sendData ctx with
    | none => ⟨ctx, -1, none⟩
    | some (ctx, packet) =>
      if inp.sendto then ⟨consumeBudget data.length ctx, packet.length, some packet⟩
      else ⟨ctx, -1, none⟩

/-- `rudp_send`; a payload of no bytes is a keepalive. -/
def rudpSend (lib : Libs) (inp : SendInput) (data : Bytes) (flag : UInt8) (ctx : RudpContext) :
    SendOutcome :=
  if ctx.inited = false ∨ ctx.peerAddrSet = false then ⟨ctx, -1, none⟩
  else rudpSendNolock lib inp data flag ctx

/-- The timeout check at the start of `rudp_poll_nolock`. -/
def pollTimeout (ctx : RudpContext) : RudpContext :=
  if ctx.lastRecvTick ≠ 0 ∧ wrap64 (ctx.lastRecvTick + ctx.timeoutValue) < ctx.now then
    { ctx with firstStableReceiveTick := 0, lastLossEventTick := ctx.now }.record
      (.timeout ctx.now)
  else ctx

/-- What one `rudp_poll` takes from the environment. -/
structure PollInput where
  clock : Timespec
  keepalive : SendInput
  rand : ℕ
  datagrams : List Datagram

/-- The keep-alive of `rudp_poll_nolock`. -/
def pollKeepalive (lib : Libs) (inp : PollInput) (ctx : RudpContext) : RudpContext :=
  if ctx.nextSendKeepalive = 0 ∨ ctx.nextSendKeepalive ≤ ctx.now then
    let ctx := if ctx.peerAddrSet then (rudpSend lib inp.keepalive [] 0 ctx).ctx else ctx
    let (kaMin, kaMax) :=
      if ctx.fastDetect then (kaIntervalMinFast, kaIntervalMaxFast)
      else (kaIntervalMin, kaIntervalMax)
    { ctx with nextSendKeepalive := wrap64 (ctx.now + (kaMin + inp.rand % (kaMax - kaMin))) }
  else ctx

/-- `rudp_poll`. -/
def rudpPoll (lib : Libs) (inp : PollInput) (ctx : RudpContext) : RudpContext :=
  if ctx.inited = false then ctx
  else
    let ctx := ctx.readClock inp.clock
    let ctx := ctx.record (.polled ctx.now ctx.lastRecvTick)
    recvLoop lib inp.datagrams (pollKeepalive lib inp (pollTimeout ctx))

/-- `rudp_recv`: the block handed out, if there is one and it fits. -/
def rudpRecv (maxLen : ℕ) (ctx : RudpContext) : RudpContext × Option Bytes :=
  match ctx.recvQueue with
  | [] => (ctx, none)
  | block :: rest =>
    if block.length > maxLen then (ctx, none)
    else ({ ctx with recvQueue := rest }, some block)

end SoftEtherVpn.UdpAccel
