import SoftEtherVpn.Connect.Hub
import SoftEtherVpn.Foundation.Ring
import SoftEtherVpn.Login.Acceptance
import SoftEtherVpn.Pack.Reader

/-!
# One connection object through several sessions

`softether_connection_t` with the fields that belong to a session, and the functions that
write them: connecting, disconnecting, the user's options and the data path. What happens on
the transports is given by the outcomes of the calls; the server's replies are given by their
contents and are read with the PACK getters.
-/

namespace SoftEtherVpn.Reconnect

open Foundation Connect Pack
open Login (errorName)

def directionBoth : ℕ := 0
def directionServerToClient : ℕ := 1
def directionClientToServer : ℕ := 2
def maxSeConnections : ℕ := 8
def recvQueueSize : ℕ := 64
def maxQueuedFrame : ℕ := 2048

structure QueuedFrame where
  data : Bytes
  len : ℕ
  deriving DecidableEq

/-- The fields that belong to one session. -/
structure Session where
  recvQueue : List QueuedFrame
  recvQueueHead : ℕ
  recvQueueTail : ℕ
  recvQueueCount : ℕ
  primaryDirection : ℕ
  hasServerRandom : Bool
  serverRandom : Bytes
  sessionEstablished : Bool
  gatewayMacResolved : Bool
  assignedIp : ℕ
  serverUseCompress : ℕ
  serverTimeout : ℕ
  maxConnection : ℕ
  rudpServerCookie : ℕ
  rudpServerKey : Bytes
  rudpServerKeySize : ℕ
  rudpServerKeyV2 : Bytes
  rudpServerKeyV2Size : ℕ
  rudpServerIp : Bytes
  rudpServerPort : ℕ
  sendRrIdx : ℕ
  nextTcpKeepaliveTime : ℕ
  deriving DecidableEq

/-- The primary link. -/
structure Link where
  state : ConnState
  socketFd : Bool
  ssl : Bool
  sslCtx : Bool
  usingNatT : Bool
  deriving DecidableEq

structure Slot where
  active : Bool
  direction : ℕ
  deriving DecidableEq

/-- What the user has set. -/
structure Options where
  maxConnection : ℕ
  halfConnection : ℕ
  udpOnly : Bool
  deriving DecidableEq

structure Conn where
  link : Link
  additional : List Slot
  serverIp : Bytes
  usernameStored : Bool
  halfConnection : ℕ
  serverMaxConnection : ℕ
  session : Session
  options : Options
  deriving DecidableEq

def Session.created : Session where
  recvQueue := List.replicate recvQueueSize ⟨List.replicate maxQueuedFrame 0, 0⟩
  recvQueueHead := 0
  recvQueueTail := 0
  recvQueueCount := 0
  primaryDirection := directionBoth
  hasServerRandom := false
  serverRandom := List.replicate 20 0
  sessionEstablished := false
  gatewayMacResolved := false
  assignedIp := 0
  serverUseCompress := 0
  serverTimeout := 0
  maxConnection := 4
  rudpServerCookie := 0
  rudpServerKey := List.replicate 128 0
  rudpServerKeySize := 0
  rudpServerKeyV2 := List.replicate 128 0
  rudpServerKeyV2Size := 0
  rudpServerIp := List.replicate 64 0
  rudpServerPort := 0
  sendRrIdx := 0
  nextTcpKeepaliveTime := 0

def Link.closed : Link := ⟨.disconnected, false, false, false, false⟩

def softetherCreate : Conn where
  link := .closed
  additional := List.replicate maxSeConnections ⟨false, directionBoth⟩
  serverIp := []
  usernameStored := false
  halfConnection := 0
  serverMaxConnection := 0
  session := .created
  options := ⟨4, 0, false⟩

/-! ### The user's options -/

def nativeSetMaxConnection (n : ℤ) (c : Conn) : Conn :=
  let n := if n < 1 then 1 else if n > maxSeConnections then maxSeConnections else n.toNat
  { c with
    session := { c.session with maxConnection := n }
    options := { c.options with maxConnection := n } }

def nativeSetHalfConnection (half : Bool) (c : Conn) : Conn :=
  let half := if half then 1 else 0
  { c with halfConnection := half, options := { c.options with halfConnection := half } }

def setUdpOnly (udpOnly : Bool) (c : Conn) : Conn :=
  { c with options := { c.options with udpOnly := udpOnly } }

/-- A new connection with the options. -/
def freshConn (o : Options) : Conn :=
  { softetherCreate with
    halfConnection := o.halfConnection
    session := { Session.created with maxConnection := o.maxConnection }
    options := o }

/-! ### The server's replies -/

/-- The answer to the watermark; a Hello may carry the server's random. -/
inductive WatermarkReply
  | failed
  | noHello
  | hello (random : Option Bytes)
  deriving DecidableEq

/-- The two answers of a login; `none` for an exchange that fails before there is a body. -/
structure LoginReply where
  watermark : WatermarkReply
  welcome : Option Buffer

/-- What the calls of one connect give. -/
structure Replies where
  resolved : Bool
  tcp : Bool
  tls : HandshakeOutcome
  raceWon : Bool
  serverIp : Bytes
  first : LoginReply
  natT : Bool
  natTTls : HandshakeOutcome
  second : LoginReply
  additional : Option ℕ

def fieldInt (b : Buffer) (name : CString) : Option ℕ :=
  (packGetInt b name).toOption.map Prod.fst

def fieldStr (b : Buffer) (name : CString) (outSize : ℕ) : Option Bytes :=
  (packGetStr b name outSize).toOption.map Prod.fst

def fieldData (b : Buffer) (name : CString) (outSize : ℕ) : Option Bytes :=
  (packGetData b name outSize).toOption.map fun r => r.1.1

def bufferContainsToken (body token : Bytes) : Bool := decide (token <:+: body)

/-- The checks of `perform_authentication_http` on the body of the login response. -/
def welcomeAccepted (b : Buffer) : Bool :=
  if b.body.length < 4 then false
  else
    match fieldInt b errorName with
    | some err => err = 0
    | none =>
      bufferContainsToken b.body (ascii "session_key") ||
        bufferContainsToken b.body (ascii "session_name") ||
          bufferContainsToken b.body (ascii "connection_name")

namespace Welcome

variable (b : Buffer)

def maxConnection : Option ℕ := fieldInt b ⟨ascii "max_connection", by decide⟩
def useCompress : Option ℕ := fieldInt b ⟨ascii "use_compress", by decide⟩
def timeout : Option ℕ := fieldInt b ⟨ascii "timeout", by decide⟩
def halfConnection : Option ℕ := fieldInt b ⟨ascii "half_connection", by decide⟩

/-- The server offers UDP acceleration. -/
def usesUdp : Bool := 0 < (fieldInt b ⟨ascii "use_udp_acceleration", by decide⟩).getD 0

def serverIp : Option Bytes := fieldStr b ⟨ascii "udp_acceleration_server_ip", by decide⟩ 64

/-- A port that is accepted. -/
def serverPort : Option ℕ :=
  (fieldInt b ⟨ascii "udp_acceleration_server_port", by decide⟩).filter
    fun port => 0 < port ∧ port ≤ 65535

def serverKeyName : CString := ⟨ascii "udp_acceleration_server_key", by decide⟩
def serverKeyV2Name : CString := ⟨ascii "udp_acceleration_server_key_v2", by decide⟩

def serverKey : Bytes := (fieldData b serverKeyName 128).getD []
def serverKeyV2 : Bytes := (fieldData b serverKeyV2Name 128).getD []

def serverCookie : Option ℕ := fieldInt b ⟨ascii "udp_acceleration_server_cookie", by decide⟩

end Welcome

/-- The string an `snprintf` or `pack_get_str` leaves in a 64-byte field. -/
def ipText (serverIp : Bytes) (b : Buffer) : Bytes :=
  (Welcome.serverIp b).getD (serverIp.take 63 ++ [0])

/-- The parameters of the UDP acceleration. -/
def Session.applyUdp (b : Buffer) (serverIp : Bytes) (s : Session) : Session :=
  if Welcome.usesUdp b then
    { s with
      rudpServerIp := splice s.rudpServerIp 0 (ipText serverIp b)
      rudpServerPort := (Welcome.serverPort b).getD s.rudpServerPort
      rudpServerKey := splice s.rudpServerKey 0 (Welcome.serverKey b)
      rudpServerKeySize :=
        if 0 < (Welcome.serverKey b).length then (Welcome.serverKey b).length
        else s.rudpServerKeySize
      rudpServerKeyV2 := splice s.rudpServerKeyV2 0 (Welcome.serverKeyV2 b)
      rudpServerKeyV2Size :=
        if 0 < (Welcome.serverKeyV2 b).length then (Welcome.serverKeyV2 b).length
        else s.rudpServerKeyV2Size
      rudpServerCookie := (Welcome.serverCookie b).getD s.rudpServerCookie }
  else s

/-- The session fields of an accepted Welcome. -/
def Session.applyWelcome (b : Buffer) (serverIp : Bytes) (s : Session) : Session :=
  { ({ s with
      serverUseCompress := (Welcome.useCompress b).getD s.serverUseCompress
      serverTimeout := (Welcome.timeout b).getD s.serverTimeout }).applyUdp b serverIp with
    sessionEstablished := true }

/-- The Hello of the watermark's answer. -/
def Session.applyHello (reply : WatermarkReply) (s : Session) : Session :=
  match reply with
  | .hello (some random) => { s with hasServerRandom := true, serverRandom := random }
  | _ => s

/-! ### Connecting -/

def Link.disconnect (l : Link) : Link :=
  if l.state = .disconnected ∨ l.state = .disconnecting then l
  else ⟨.disconnected, false, l.ssl && !l.sslCtx, l.sslCtx && !l.ssl, false⟩

def softetherDisconnect (c : Conn) : Conn :=
  if c.link.state = .disconnected ∨ c.link.state = .disconnecting then c
  else
    { c with
      link := c.link.disconnect
      additional := c.additional.map fun slot => { slot with active := false } }

def performTlsHandshake (o : HandshakeOutcome) (l : Link) : Bool × Link :=
  if l.socketFd then
    let l := { l with state := .tlsHandshake }
    match o with
    | .createFailed => (false, l)
    | .connectFailed => (false, { l with sslCtx := false })
    | .done => (true, { l with ssl := true, sslCtx := true })
  else (false, l)

/-- `softether_connect_parallel_race`: the winner always brings a transport. -/
def parallelRace (won : Bool) (c : Conn) : Conn :=
  if won then
    { c with link :=
      { c.link with socketFd := true, ssl := true, sslCtx := true, usingNatT := true } }
  else c

/-- The transport of a connect: the race, or TCP with the race behind it. -/
def openTransport (r : Replies) (c : Conn) : Conn :=
  if c.options.udpOnly then parallelRace r.raceWon c
  else if r.tcp then
    match performTlsHandshake r.tls { c.link with socketFd := true } with
    | (true, l) => { c with link := l }
    | (false, l) =>
      parallelRace r.raceWon (softetherDisconnect { c with link := { l with socketFd := false } })
  else parallelRace r.raceWon (softetherDisconnect c)

def performAuthenticationHttp (welcome : Option Buffer) (c : Conn) : Err × Conn :=
  let c := { c with link := { c.link with state := .authenticating }, usernameStored := true }
  match welcome with
  | none => (.authentication, c)
  | some b =>
    if welcomeAccepted b then
      (.none,
        { c with
          session := c.session.applyWelcome b c.serverIp
          serverMaxConnection := (Welcome.maxConnection b).getD c.serverMaxConnection
          halfConnection := (Welcome.halfConnection b).getD c.halfConnection })
    else (.authentication, c)

def softetherProtocolLogin (reply : LoginReply) (c : Conn) : Err × Conn :=
  if c.link.ssl = false ∨ reply.watermark = .failed then (.tlsHandshake, c)
  else
    performAuthenticationHttp reply.welcome
      { c with session := c.session.applyHello reply.watermark }

/-- The NAT-T fallback after a failed login. -/
def natTLogin (r : Replies) (c : Conn) : Err × Conn :=
  if r.natT then
    match performTlsHandshake r.natTTls { c.link with socketFd := true, usingNatT := true } with
    | (true, l) => softetherProtocolLogin r.second { c with link := l }
    | (false, l) => (.tlsHandshake, { c with link := l })
  else (.tcpConnect, c)

/-- `max_connection` as the server's answer leaves it. -/
def clampConnections (serverMax target : ℕ) : ℕ :=
  min maxSeConnections (if 0 < serverMax ∧ serverMax < target then serverMax else target)

/-- `softether_additional_connect`; the server names a direction or the attempt fails. -/
def softetherAdditionalConnect (direction : Option ℕ) (c : Conn) : Bool × Conn :=
  if c.link.state ≠ .connected then (false, c)
  else
    match c.additional.findIdx? (fun slot => !slot.active), direction with
    | some i, some d => (true, { c with additional := c.additional.set i ⟨true, d⟩ })
    | _, _ => (false, c)

def softetherEstablishFirstAdditional (direction : Option ℕ) (c : Conn) : Conn :=
  match softetherAdditionalConnect direction c with
  | (true, c) =>
    if c.additional.any (fun slot => slot.active && slot.direction == directionServerToClient) then
      { c with session := { c.session with primaryDirection := directionClientToServer } }
    else c
  | (false, c) => c

/-- The end of `softether_connect_with_hub`. -/
def finishConnect (r : Replies) (c : Conn) : Err × Conn :=
  let maxConnection :=
    if c.link.usingNatT then 1
    else clampConnections c.serverMaxConnection c.session.maxConnection
  let c :=
    { c with
      link := { c.link with state := .connected }
      session := { c.session with maxConnection := maxConnection } }
  if c.link.socketFd then
    (.none,
      if c.halfConnection ≠ 0 then softetherEstablishFirstAdditional r.additional c else c)
  else (.tcpConnect, softetherDisconnect c)

/-- After the last login: the connect succeeds, or everything is closed. -/
def endConnect (r : Replies) : Err × Conn → Err × Conn
  | (.none, c) => finishConnect r c
  | (err, c) => (err, softetherDisconnect c)

/-- After the first login: a failed one is tried again over NAT-T. -/
def afterFirstLogin (r : Replies) : Err × Conn → Err × Conn
  | (.none, c) => finishConnect r c
  | (err, c) =>
    if c.link.usingNatT then (err, softetherDisconnect c)
    else endConnect r (natTLogin r (softetherDisconnect c))

def softetherConnectWithHub (r : Replies) (c : Conn) : Err × Conn :=
  let c := { c with link := { c.link with usingNatT := false, state := .connecting } }
  if r.resolved = false then
    (.tcpConnect, { c with link := { c.link with state := .disconnected } })
  else
    let c := { openTransport r c with serverIp := r.serverIp }
    afterFirstLogin r (softetherProtocolLogin r.first c)

def softetherReconnect (r : Replies) (c : Conn) : Err × Conn :=
  if c.serverIp = [] ∨ c.usernameStored = false then (.unknown, c)
  else
    let c := if c.link.state ≠ .disconnected then softetherDisconnect c else c
    softetherConnectWithHub r c

/-! ### The data path -/

/-- A received block goes into the queue, if it fits and there is room. -/
def enqueueFrame (frame : Bytes) (s : Session) : Session :=
  if frame.length ≤ maxQueuedFrame ∧ s.recvQueueCount < recvQueueSize then
    { s with
      recvQueue := s.recvQueue.modify s.recvQueueTail fun entry =>
        ⟨splice entry.data 0 frame, frame.length⟩
      recvQueueTail := (s.recvQueueTail + 1) % recvQueueSize
      recvQueueCount := s.recvQueueCount + 1 }
  else s

/-- The front of the queue is handed to the reader. -/
def dequeueFrame (s : Session) : Session :=
  if s.recvQueueCount = 0 then s
  else
    { s with
      recvQueueHead := (s.recvQueueHead + 1) % recvQueueSize
      recvQueueCount := s.recvQueueCount - 1 }

def sends (direction : ℕ) : Bool :=
  direction == directionBoth || direction == directionClientToServer

/-- `softether_select_send_socket` moves the round-robin index on. -/
def softetherSelectSendSocket (c : Conn) : Conn :=
  let primary := c.link.socketFd && c.link.ssl && sends c.session.primaryDirection
  let count := (if primary then 1 else 0) +
    c.additional.countP fun slot => slot.active && sends slot.direction
  if count = 0 then c
  else { c with session := { c.session with sendRrIdx := (c.session.sendRrIdx + 1) % count } }

/-- The schedule of `softether_send_keepalive_all`. -/
def keepaliveSweep (now : ℕ) (s : Session) : Session :=
  if s.nextTcpKeepaliveTime = 0 then { s with nextTcpKeepaliveTime := now }
  else if now < s.nextTcpKeepaliveTime then s
  else
    let timeout := if s.serverTimeout ≠ 0 then s.serverTimeout else 30000
    { s with nextTcpKeepaliveTime := now + min (max (timeout / 3) 2000) 12000 }

/-- What happens to a connection object over its life. -/
inductive Op
  | setMaxConnection (n : ℤ)
  | setHalfConnection (half : Bool)
  | setUdpOnly (udpOnly : Bool)
  | connect (r : Replies)
  | reconnect (r : Replies)
  | disconnect
  | received (frame : Bytes)
  | taken
  | sent
  | keepalive (now : ℕ)
  | dhcp (ip : ℕ)
  | gatewayResolved
  | additionalOpened (direction : ℕ)
  | retired (slot : ℕ)

def runOp (c : Conn) : Op → Conn
  | .setMaxConnection n => nativeSetMaxConnection n c
  | .setHalfConnection half => nativeSetHalfConnection half c
  | .setUdpOnly udpOnly => setUdpOnly udpOnly c
  | .connect r => (softetherConnectWithHub r c).2
  | .reconnect r => (softetherReconnect r c).2
  | .disconnect => softetherDisconnect c
  | .received frame => { c with session := enqueueFrame frame c.session }
  | .taken => { c with session := dequeueFrame c.session }
  | .sent => softetherSelectSendSocket c
  | .keepalive now => { c with session := keepaliveSweep now c.session }
  | .dhcp ip => { c with session := { c.session with assignedIp := ip } }
  | .gatewayResolved => { c with session := { c.session with gatewayMacResolved := true } }
  | .additionalOpened direction => (softetherAdditionalConnect (some direction) c).2
  | .retired slot =>
    { c with additional := c.additional.modify slot fun s => { s with active := false } }

/-- The connection after a history that begins with `softether_create`. -/
def history (ops : List Op) : Conn := ops.foldl runOp softetherCreate

end SoftEtherVpn.Reconnect
