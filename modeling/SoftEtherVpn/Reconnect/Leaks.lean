import SoftEtherVpn.Pack.Soundness
import SoftEtherVpn.Reconnect.Session

/-!
# What a session leaves to the next one

Of the session fields a connect writes some, and of those most only if the server's replies
hold them; `softether_disconnect` resets none. `Outcome` says which Hello and which Welcome
a connect gets to use, and `Outcome.apply` what it then does to the session. A second session
is like a first one exactly if every field that is not overwritten still has its first value.
-/

namespace SoftEtherVpn.Reconnect

open Foundation Connect Pack

/-- The server's random and the Welcome a connect gets, and whether it ends on NAT-T. -/
structure Outcome where
  random : Option Bytes
  welcome : Option Buffer
  natT : Bool

/-- Whether a transport comes up before the first login, and whether it is a NAT-T one. -/
def Replies.transport (r : Replies) (udpOnly : Bool) : Option Bool :=
  if udpOnly = false ∧ r.tcp = true ∧ r.tls = .done then some false
  else if r.raceWon then some true
  else none

def WatermarkReply.random : WatermarkReply → Option Bytes
  | .hello random => random
  | _ => none

/-- The random and the accepted Welcome of a login over a link. -/
def LoginReply.use (reply : LoginReply) : Option Bytes × Option Buffer :=
  if reply.watermark = .failed then (none, none)
  else (reply.watermark.random, reply.welcome.filter welcomeAccepted)

def Replies.outcome (r : Replies) (udpOnly : Bool) : Outcome :=
  if r.resolved = false then ⟨none, none, false⟩
  else
    let first := match r.transport udpOnly with
      | none => (none, none)
      | some _ => r.first.use
    if first.2.isSome ∨ r.transport udpOnly = some true then
      ⟨first.1, first.2, r.transport udpOnly = some true⟩
    else if r.natT = true ∧ r.natTTls = .done then
      ⟨r.second.use.1 <|> first.1, r.second.use.2, true⟩
    else ⟨first.1, none, false⟩

def Session.storeRandom (random : Option Bytes) (s : Session) : Session :=
  match random with
  | some random => { s with hasServerRandom := true, serverRandom := random }
  | none => s

/-- The primary is switched to sending only: the server asks for half connections and gives
the first additional one the other direction. -/
def Replies.Switches (r : Replies) (half : ℕ) : Prop :=
  half ≠ 0 ∧ r.additional = some directionServerToClient

instance (r : Replies) (half : ℕ) : Decidable (r.Switches half) :=
  inferInstanceAs (Decidable (_ ∧ _))

/-- What a connect does to the session fields. -/
def Outcome.apply (o : Outcome) (r : Replies) (c : Conn) : Session :=
  let s := c.session.storeRandom o.random
  match o.welcome with
  | none => s
  | some b =>
    let s := s.applyWelcome b r.serverIp
    { s with
      maxConnection :=
        if o.natT then 1
        else clampConnections ((Welcome.maxConnection b).getD c.serverMaxConnection) s.maxConnection
      primaryDirection :=
        if r.Switches ((Welcome.halfConnection b).getD c.halfConnection) then
          directionClientToServer
        else s.primaryDirection }

/-- Nothing of an earlier link is left. -/
structure Gone (c : Conn) : Prop where
  link : c.link = .closed
  slots : ∀ slot ∈ c.additional, slot.active = false
  free : c.additional ≠ []

theorem map_inactive {slots : List Slot} (h : ∀ slot ∈ slots, slot.active = false) :
    slots.map (fun slot => { slot with active := false }) = slots := by
  conv_rhs => rw [← List.map_id slots]
  apply List.map_congr_left
  intro slot hslot
  cases slot with
  | mk active direction =>
    have : active = false := h _ hslot
    simp [this]

theorem applyHello_eq (reply : WatermarkReply) (s : Session) :
    s.applyHello reply = s.storeRandom reply.random := by
  cases reply with
  | failed => rfl
  | noHello => rfl
  | hello random => cases random <;> rfl

/-- The link over which the first login goes. -/
def loginLink (udpOnly : Bool) (r : Replies) : Link :=
  match r.transport udpOnly with
  | some natT =>
    ⟨if natT then (if udpOnly then .connecting else .disconnected) else .tlsHandshake,
      true, true, true, natT⟩
  | none => ⟨if udpOnly then .connecting else .disconnected, false, false, false, false⟩

theorem openTransport_eq (r : Replies) (c : Conn)
    (hlink : c.link = { Link.closed with state := .connecting })
    (hslots : ∀ slot ∈ c.additional, slot.active = false) :
    openTransport r c = { c with link := loginLink c.options.udpOnly r } := by
  have hmap := map_inactive hslots
  obtain ⟨link, additional, serverIp, stored, half, smax, session, options⟩ := c
  obtain ⟨omax, ohalf, udpOnly⟩ := options
  dsimp only at hlink hmap ⊢
  subst hlink
  unfold openTransport loginLink Replies.transport
  cases udpOnly with
  | true => cases r.raceWon <;> rfl
  | false =>
    cases r.tcp with
    | false =>
      cases r.raceWon <;>
        simp [parallelRace, softetherDisconnect, Link.disconnect, Link.closed, hmap]
    | true =>
      cases r.tls with
      | createFailed =>
        cases r.raceWon <;>
          simp [performTlsHandshake, parallelRace, softetherDisconnect, Link.disconnect,
            Link.closed, hmap]
      | connectFailed =>
        cases r.raceWon <;>
          simp [performTlsHandshake, parallelRace, softetherDisconnect, Link.disconnect,
            Link.closed, hmap]
      | done => simp [performTlsHandshake, Link.closed]

/-- What a failed login and a disconnect leave alone. -/
structure Keeps (c c' : Conn) : Prop where
  additional : c'.additional = c.additional
  serverIp : c'.serverIp = c.serverIp
  halfConnection : c'.halfConnection = c.halfConnection
  serverMaxConnection : c'.serverMaxConnection = c.serverMaxConnection

theorem Keeps.trans {c c' c'' : Conn} (h : Keeps c c') (h' : Keeps c' c'') : Keeps c c'' :=
  ⟨h'.additional.trans h.additional, h'.serverIp.trans h.serverIp,
    h'.halfConnection.trans h.halfConnection,
    h'.serverMaxConnection.trans h.serverMaxConnection⟩

/-- The connection after a Welcome was read. -/
def Conn.welcomed (c : Conn) (b : Buffer) : Conn :=
  { c with
    link := { c.link with state := .authenticating }
    usernameStored := true
    session := c.session.applyWelcome b c.serverIp
    serverMaxConnection := (Welcome.maxConnection b).getD c.serverMaxConnection
    halfConnection := (Welcome.halfConnection b).getD c.halfConnection }

theorem login_of_accepted {reply : LoginReply} {c : Conn} {b : Buffer}
    (hssl : c.link.ssl = true) (hb : reply.use.2 = some b) :
    softetherProtocolLogin reply c =
      (.none, ({ c with session := c.session.storeRandom reply.use.1 }).welcomed b) := by
  unfold LoginReply.use at hb ⊢
  split_ifs at hb ⊢ with hfailed
  obtain ⟨hwelcome, haccepted⟩ := Option.filter_eq_some_iff.mp hb
  simp [softetherProtocolLogin, hssl, hfailed, performAuthenticationHttp, hwelcome, haccepted,
    applyHello_eq, Conn.welcomed]

/-- A login that fails leaves the link as it was, or in the state of the authentication. -/
theorem login_of_refused {reply : LoginReply} {c : Conn} (hssl : c.link.ssl = true)
    (hb : reply.use.2 = none) :
    ∃ err c', err ≠ Err.none ∧ softetherProtocolLogin reply c = (err, c') ∧ Keeps c c' ∧
      c'.session = c.session.storeRandom reply.use.1 ∧
      (c'.link = c.link ∨ c'.link = { c.link with state := .authenticating }) := by
  unfold LoginReply.use at hb ⊢
  split_ifs at hb ⊢ with hfailed
  · refine ⟨.tlsHandshake, c, by decide, ?_, ⟨rfl, rfl, rfl, rfl⟩, rfl, Or.inl rfl⟩
    simp [softetherProtocolLogin, hfailed]
  · refine ⟨.authentication, { c with
        link := { c.link with state := .authenticating }
        usernameStored := true
        session := c.session.storeRandom reply.watermark.random }, by decide, ?_,
      ⟨rfl, rfl, rfl, rfl⟩, rfl, Or.inr rfl⟩
    have hrefused : ∀ b, reply.welcome = some b → welcomeAccepted b = false := by
      intro b hb'
      simpa [hb'] using hb
    simp only [softetherProtocolLogin, hssl, hfailed, performAuthenticationHttp, applyHello_eq]
    cases hwelcome : reply.welcome with
    | none => simp
    | some b => simp [hrefused b hwelcome]

theorem login_of_down {reply : LoginReply} {c : Conn} (hssl : c.link.ssl = false) :
    softetherProtocolLogin reply c = (.tlsHandshake, c) := by
  simp [softetherProtocolLogin, hssl]

theorem establish_session {direction : Option ℕ} {c : Conn} (hstate : c.link.state = .connected)
    (hslots : ∀ slot ∈ c.additional, slot.active = false) (hfree : c.additional ≠ []) :
    (softetherEstablishFirstAdditional direction c).session =
      if direction = some directionServerToClient then
        { c.session with primaryDirection := directionClientToServer }
      else c.session := by
  obtain ⟨slot, slots, hcons⟩ := List.exists_cons_of_ne_nil hfree
  rw [hcons] at hslots
  obtain ⟨hslot, hslots⟩ := List.forall_mem_cons.mp hslots
  have hfind : c.additional.findIdx? (fun slot => !slot.active) = some 0 := by
    simp [hcons, List.findIdx?_cons, hslot]
  cases direction with
  | none => simp [softetherEstablishFirstAdditional, softetherAdditionalConnect, hstate, hfind]
  | some d =>
    have hrest : slots.any (fun slot => slot.active && slot.direction == directionServerToClient) =
        false := by
      rw [List.any_eq_false]
      intro slot hmem
      simp [hslots slot hmem]
    simp only [softetherEstablishFirstAdditional, softetherAdditionalConnect, hstate, hfind]
    by_cases hd : d = directionServerToClient
    · simp [hcons, hd]
    · simp [hcons, hd, hrest]

theorem finishConnect_session (r : Replies) {c : Conn} (hfd : c.link.socketFd = true)
    (hslots : ∀ slot ∈ c.additional, slot.active = false) (hfree : c.additional ≠ []) :
    (finishConnect r c).2.session =
      { c.session with
        maxConnection :=
          if c.link.usingNatT then 1
          else clampConnections c.serverMaxConnection c.session.maxConnection
        primaryDirection :=
          if r.Switches c.halfConnection then directionClientToServer
          else c.session.primaryDirection } := by
  simp only [finishConnect, hfd, if_true]
  by_cases hhalf : c.halfConnection = 0
  · simp [hhalf, Replies.Switches]
  · simp only [ne_eq, hhalf, not_false_eq_true, if_true]
    refine (establish_session rfl (by exact hslots) (by exact hfree)).trans ?_
    simp only [Replies.Switches, ne_eq, hhalf, not_false_eq_true, true_and]
    split_ifs <;> rfl

/-- A successful login and the end of the connect, over a link that is up. -/
theorem finish_welcomed (r : Replies) (b : Buffer) {c : Conn} (hfd : c.link.socketFd = true)
    (hslots : ∀ slot ∈ c.additional, slot.active = false) (hfree : c.additional ≠ [])
    (hip : c.serverIp = r.serverIp) (random : Option Bytes) :
    (finishConnect r (({ c with session := c.session.storeRandom random }).welcomed b)).2.session =
      (Outcome.mk random (some b) c.link.usingNatT).apply r c := by
  refine (finishConnect_session r (by exact hfd) (by exact hslots) (by exact hfree)).trans ?_
  simp only [Outcome.apply, Conn.welcomed, hip]

theorem disconnect_session (c : Conn) : (softetherDisconnect c).session = c.session := by
  unfold softetherDisconnect
  split_ifs <;> rfl

/-- After a failed first login without NAT-T the link is closed again. -/
theorem disconnect_gone {c : Conn} {state : ConnState} {up : Bool}
    (hlink : c.link = ⟨state, up, up, up, false⟩) (hstate : up = true → state ≠ .disconnected)
    (hstate' : state ≠ .disconnecting) (hslots : ∀ slot ∈ c.additional, slot.active = false)
    (hfree : c.additional ≠ []) :
    Gone (softetherDisconnect c) ∧ Keeps c (softetherDisconnect c) := by
  have hmap := map_inactive hslots
  unfold softetherDisconnect
  split_ifs with hidle
  · refine ⟨⟨?_, hslots, hfree⟩, rfl, rfl, rfl, rfl⟩
    have hdisconnected : state = .disconnected := by simpa [hlink, hstate'] using hidle
    cases up with
    | true => exact absurd hdisconnected (hstate rfl)
    | false => rw [hlink, hdisconnected, Link.closed]
  · refine ⟨⟨?_, ?_, ?_⟩, hmap, rfl, rfl, rfl⟩
    · rw [hlink] at hidle
      simp [Link.disconnect, hlink, hidle, Link.closed]
    · simpa [hmap] using hslots
    · simpa using hfree

theorem endConnect_of_err (r : Replies) {err : Err} (c : Conn) (h : err ≠ .none) :
    (endConnect r (err, c)).2.session = c.session := by
  cases err with
  | none => exact absurd rfl h
  | _ => exact disconnect_session c

/-- A login over a link that is up, and the end of the connect. -/
theorem endConnect_login (r : Replies) (reply : LoginReply) {c : Conn} (hssl : c.link.ssl = true)
    (hfd : c.link.socketFd = true) (hslots : ∀ slot ∈ c.additional, slot.active = false)
    (hfree : c.additional ≠ []) (hip : c.serverIp = r.serverIp) :
    (endConnect r (softetherProtocolLogin reply c)).2.session =
      (Outcome.mk reply.use.1 reply.use.2 c.link.usingNatT).apply r c := by
  cases hb : reply.use.2 with
  | some b =>
    rw [login_of_accepted hssl hb]
    exact finish_welcomed r b hfd hslots hfree hip reply.use.1
  | none =>
    obtain ⟨err, c', herr, hlogin, -, hsession, -⟩ := login_of_refused hssl hb
    rw [hlogin, endConnect_of_err r _ herr, hsession]
    rfl

/-- The NAT-T fallback from a closed link. -/
theorem endConnect_natTLogin (r : Replies) {c : Conn} (hc : Gone c)
    (hip : c.serverIp = r.serverIp) :
    (endConnect r (natTLogin r c)).2.session =
      if r.natT = true ∧ r.natTTls = .done then
        (Outcome.mk r.second.use.1 r.second.use.2 true).apply r c
      else c.session := by
  unfold natTLogin
  cases hnat : r.natT with
  | false =>
    simp only [Bool.false_eq_true, if_false, false_and]
    exact endConnect_of_err r c (by decide)
  | true =>
    cases htls : r.natTTls with
    | done =>
      simp only [performTlsHandshake, if_true, and_self]
      exact endConnect_login r r.second rfl rfl hc.slots hc.free hip
    | createFailed =>
      simp only [performTlsHandshake, if_true]
      exact endConnect_of_err r _ (by decide)
    | connectFailed =>
      simp only [performTlsHandshake, if_true]
      exact endConnect_of_err r _ (by decide)

theorem storeRandom_storeRandom (random random' : Option Bytes) (s : Session) :
    (s.storeRandom random).storeRandom random' = s.storeRandom (random' <|> random) := by
  cases random' <;> cases random <;> rfl

theorem Outcome.apply_of_keeps {r : Replies} {c c' : Conn} {random : Option Bytes}
    (hkeeps : Keeps c c') (hsession : c'.session = c.session.storeRandom random) (o : Outcome) :
    o.apply r c' = (Outcome.mk (o.random <|> random) o.welcome o.natT).apply r c := by
  simp only [Outcome.apply, hsession, storeRandom_storeRandom, hkeeps.halfConnection,
    hkeeps.serverMaxConnection]

theorem afterFirstLogin_of_err (r : Replies) {err : Err} (c : Conn) (h : err ≠ .none) :
    afterFirstLogin r (err, c) =
      if c.link.usingNatT then (err, softetherDisconnect c)
      else endConnect r (natTLogin r (softetherDisconnect c)) := by
  cases err with
  | none => exact absurd rfl h
  | _ => rfl

/-- The first login over a link that is up. -/
theorem afterFirstLogin_up (r : Replies) {c : Conn} {state : ConnState} {natT : Bool}
    (hlink : c.link = ⟨state, true, true, true, natT⟩)
    (hstate : natT = false → state = .tlsHandshake)
    (hslots : ∀ slot ∈ c.additional, slot.active = false) (hfree : c.additional ≠ [])
    (hip : c.serverIp = r.serverIp) :
    (afterFirstLogin r (softetherProtocolLogin r.first c)).2.session =
      (if r.first.use.2.isSome ∨ natT = true then
        Outcome.mk r.first.use.1 r.first.use.2 natT
      else if r.natT = true ∧ r.natTTls = .done then
        ⟨r.second.use.1 <|> r.first.use.1, r.second.use.2, true⟩
      else ⟨r.first.use.1, none, false⟩).apply r c := by
  have hssl : c.link.ssl = true := by rw [hlink]
  have hfd : c.link.socketFd = true := by rw [hlink]
  have hnat : c.link.usingNatT = natT := by rw [hlink]
  cases hb : r.first.use.2 with
  | some b =>
    rw [login_of_accepted hssl hb, ← hnat]
    simp only [Option.isSome_some, true_or, if_true]
    exact finish_welcomed r b hfd hslots hfree hip r.first.use.1
  | none =>
    obtain ⟨err, c', herr, hlogin, hkeeps, hsession, hlink'⟩ := login_of_refused hssl hb
    have hnat' : c'.link.usingNatT = natT := by
      rcases hlink' with h | h <;> rw [h, ← hnat]
    rw [hlogin, afterFirstLogin_of_err r _ herr]
    simp only [Option.isSome_none, Bool.false_eq_true, false_or, hnat']
    cases natT with
    | true =>
      simp only [if_true, disconnect_session, hsession]
      rfl
    | false =>
      obtain ⟨state', hstate', hlink'⟩ : ∃ state', (state' = .tlsHandshake ∨
          state' = .authenticating) ∧ c'.link = ⟨state', true, true, true, false⟩ := by
        rcases hlink' with h | h
        · exact ⟨.tlsHandshake, Or.inl rfl, by rw [h, hlink, hstate rfl]⟩
        · exact ⟨.authenticating, Or.inr rfl, by rw [h, hlink]⟩
      obtain ⟨hgone, hkeeps'⟩ := disconnect_gone hlink'
        (fun _ => by rcases hstate' with rfl | rfl <;> decide)
        (by rcases hstate' with rfl | rfl <;> decide) (hkeeps.additional ▸ hslots)
        (hkeeps.additional ▸ hfree)
      have hall := hkeeps.trans hkeeps'
      have hsession' := (disconnect_session c').trans hsession
      simp only [Bool.false_eq_true, if_false]
      rw [endConnect_natTLogin r hgone (hall.serverIp.trans hip)]
      split_ifs
      · exact Outcome.apply_of_keeps hall hsession' _
      · rw [hsession']
        rfl

/-- The first login without a link. -/
theorem afterFirstLogin_down (r : Replies) {c : Conn} {state : ConnState}
    (hlink : c.link = ⟨state, false, false, false, false⟩) (hstate : state ≠ .disconnecting)
    (hslots : ∀ slot ∈ c.additional, slot.active = false) (hfree : c.additional ≠ [])
    (hip : c.serverIp = r.serverIp) :
    (afterFirstLogin r (softetherProtocolLogin r.first c)).2.session =
      (if r.natT = true ∧ r.natTTls = .done then
        Outcome.mk r.second.use.1 r.second.use.2 true
      else ⟨none, none, false⟩).apply r c := by
  have hssl : c.link.ssl = false := by rw [hlink]
  have hnat : c.link.usingNatT = false := by rw [hlink]
  obtain ⟨hgone, hkeeps⟩ := disconnect_gone hlink (by simp) hstate hslots hfree
  rw [login_of_down hssl, afterFirstLogin_of_err r c (by decide)]
  simp only [hnat, Bool.false_eq_true, if_false]
  rw [endConnect_natTLogin r hgone (hkeeps.serverIp.trans hip)]
  have hsession : (softetherDisconnect c).session = c.session.storeRandom none :=
    disconnect_session c
  split_ifs
  · rw [Outcome.apply_of_keeps hkeeps hsession]
    cases r.second.use.1 <;> rfl
  · exact hsession

/-- A connect on a connection without a link does to the session what its replies say. -/
theorem connect_session (r : Replies) {c : Conn} (hc : Gone c) :
    (softetherConnectWithHub r c).2.session = (r.outcome c.options.udpOnly).apply r c := by
  unfold softetherConnectWithHub Replies.outcome
  dsimp only
  by_cases hresolved : r.resolved = false
  · rw [if_pos hresolved, if_pos hresolved]
    rfl
  · rw [if_neg hresolved, if_neg hresolved]
    have hopen := openTransport_eq r
      { c with link := { c.link with usingNatT := false, state := .connecting } }
      (by simp [hc.link, Link.closed]) hc.slots
    rw [hopen]
    cases htransport : r.transport c.options.udpOnly with
    | none =>
      have hlink : loginLink c.options.udpOnly r =
          ⟨if c.options.udpOnly then .connecting else .disconnected, false, false, false,
            false⟩ := by
        simp [loginLink, htransport]
      refine (afterFirstLogin_down r hlink (by split_ifs <;> decide) (by exact hc.slots)
        (by exact hc.free) rfl).trans ?_
      simp only [Option.isSome_none, Bool.false_eq_true, reduceCtorEq, or_self, if_false]
      split_ifs
      · cases r.second.use.1 <;> rfl
      · rfl
    | some natT =>
      have hlink : loginLink c.options.udpOnly r =
          ⟨if natT then (if c.options.udpOnly then .connecting else .disconnected)
            else .tlsHandshake, true, true, true, natT⟩ := by
        simp [loginLink, htransport]
      have hstate : natT = false → (if natT then
          (if c.options.udpOnly then ConnState.connecting else .disconnected)
          else .tlsHandshake) = .tlsHandshake := by
        rintro rfl
        rfl
      refine (afterFirstLogin_up r hlink hstate (by exact hc.slots) (by exact hc.free)
        rfl).trans (congrArg (fun o : Outcome => o.apply r c) ?_)
      cases natT <;> simp

/-! ### The exact condition -/

/-- The fields that no connect writes. -/
structure Session.Untouched (s : Session) : Prop where
  recvQueue : s.recvQueue = Session.created.recvQueue
  recvQueueHead : s.recvQueueHead = 0
  recvQueueTail : s.recvQueueTail = 0
  recvQueueCount : s.recvQueueCount = 0
  gatewayMacResolved : s.gatewayMacResolved = false
  assignedIp : s.assignedIp = 0
  sendRrIdx : s.sendRrIdx = 0
  nextTcpKeepaliveTime : s.nextTcpKeepaliveTime = 0

/-- The Welcome's UDP parameters, if the server offers UDP acceleration. -/
def Outcome.udp (o : Outcome) : Option Buffer := o.welcome.filter fun b => Welcome.usesUdp b

/-- Beyond the bytes that are written the field still holds its zeros. -/
def ZeroBeyond (field : Bytes) (size : ℕ) (written : Option Bytes) : Prop :=
  field.drop (written.getD []).length = (List.replicate size 0).drop (written.getD []).length

def Outcome.Switches (o : Outcome) (r : Replies) (half : ℕ) : Prop :=
  ∃ b, o.welcome = some b ∧ r.Switches ((Welcome.halfConnection b).getD half)

/-- Each field of an earlier session is overwritten with what the replies hold, or it has
the value that it has in a new connection. -/
structure NoLeak (r : Replies) (o : Outcome) (c : Conn) : Prop where
  untouched : c.session.Untouched
  random : o.random = none →
    c.session.hasServerRandom = false ∧ c.session.serverRandom = List.replicate 20 0
  established : o.welcome = none → c.session.sessionEstablished = false
  useCompress : o.welcome.bind Welcome.useCompress = none → c.session.serverUseCompress = 0
  timeout : o.welcome.bind Welcome.timeout = none → c.session.serverTimeout = 0
  ip : ZeroBeyond c.session.rudpServerIp 64 (o.udp.map (ipText r.serverIp))
  port : o.udp.bind Welcome.serverPort = none → c.session.rudpServerPort = 0
  key : ZeroBeyond c.session.rudpServerKey 128 (o.udp.map Welcome.serverKey)
  keySize : (o.udp.map Welcome.serverKey).getD [] = [] → c.session.rudpServerKeySize = 0
  keyV2 : ZeroBeyond c.session.rudpServerKeyV2 128 (o.udp.map Welcome.serverKeyV2)
  keyV2Size : (o.udp.map Welcome.serverKeyV2).getD [] = [] → c.session.rudpServerKeyV2Size = 0
  cookie : o.udp.bind Welcome.serverCookie = none → c.session.rudpServerCookie = 0
  maxConnection : o.welcome = none → c.session.maxConnection = c.options.maxConnection
  clamp : ∀ b, o.welcome = some b → o.natT = false →
    clampConnections ((Welcome.maxConnection b).getD c.serverMaxConnection)
        c.session.maxConnection =
      clampConnections ((Welcome.maxConnection b).getD 0) c.options.maxConnection
  switched : o.Switches r c.halfConnection → o.Switches r c.options.halfConnection
  directionBoth : ¬o.Switches r c.halfConnection → ¬o.Switches r c.options.halfConnection →
    c.session.primaryDirection = directionBoth
  directionSend : ¬o.Switches r c.halfConnection → o.Switches r c.options.halfConnection →
    c.session.primaryDirection = directionClientToServer

theorem getD_eq_iff {α : Type*} (o : Option α) (a b : α) :
    o.getD a = o.getD b ↔ (o = none → a = b) := by
  cases o <;> simp

theorem splice_zero_eq_iff {α : Type*} (a b written : List α) :
    splice a 0 written = splice b 0 written ↔ a.drop written.length = b.drop written.length := by
  simp [splice]

theorem size_eq_iff (written : Bytes) (a b : ℕ) :
    ((if 0 < written.length then written.length else a) =
      if 0 < written.length then written.length else b) ↔ (written = [] → a = b) := by
  cases written <;> simp

/-- `max_connection` after a connect. -/
def Outcome.maxConnection (o : Outcome) (serverMax target : ℕ) : ℕ :=
  match o.welcome with
  | none => target
  | some b =>
    if o.natT then 1 else clampConnections ((Welcome.maxConnection b).getD serverMax) target

open Classical in
/-- The session after a connect, field by field. -/
theorem Outcome.apply_eq (o : Outcome) (r : Replies) (c : Conn) :
    o.apply r c =
      { c.session with
        hasServerRandom := (o.random.map fun _ => true).getD c.session.hasServerRandom
        serverRandom := o.random.getD c.session.serverRandom
        sessionEstablished := (o.welcome.map fun _ => true).getD c.session.sessionEstablished
        serverUseCompress :=
          (o.welcome.bind Welcome.useCompress).getD c.session.serverUseCompress
        serverTimeout := (o.welcome.bind Welcome.timeout).getD c.session.serverTimeout
        rudpServerIp :=
          splice c.session.rudpServerIp 0 ((o.udp.map (ipText r.serverIp)).getD [])
        rudpServerPort := (o.udp.bind Welcome.serverPort).getD c.session.rudpServerPort
        rudpServerKey :=
          splice c.session.rudpServerKey 0 ((o.udp.map Welcome.serverKey).getD [])
        rudpServerKeySize :=
          if 0 < ((o.udp.map Welcome.serverKey).getD []).length then
            ((o.udp.map Welcome.serverKey).getD []).length
          else c.session.rudpServerKeySize
        rudpServerKeyV2 :=
          splice c.session.rudpServerKeyV2 0 ((o.udp.map Welcome.serverKeyV2).getD [])
        rudpServerKeyV2Size :=
          if 0 < ((o.udp.map Welcome.serverKeyV2).getD []).length then
            ((o.udp.map Welcome.serverKeyV2).getD []).length
          else c.session.rudpServerKeyV2Size
        rudpServerCookie := (o.udp.bind Welcome.serverCookie).getD c.session.rudpServerCookie
        maxConnection := o.maxConnection c.serverMaxConnection c.session.maxConnection
        primaryDirection :=
          if o.Switches r c.halfConnection then directionClientToServer
          else c.session.primaryDirection } := by
  obtain ⟨random, welcome, natT⟩ := o
  cases welcome with
  | none =>
    cases random <;>
      simp [Outcome.apply, Session.storeRandom, Outcome.udp, Outcome.maxConnection,
        Outcome.Switches, splice]
  | some b =>
    by_cases hudp : Welcome.usesUdp b = true
    · have hoffer : (Outcome.mk random (some b) natT).udp = some b := by
        simp [Outcome.udp, Option.filter_some, hudp]
      rw [hoffer]
      cases random <;>
        simp [Outcome.apply, Session.storeRandom, Outcome.maxConnection, Outcome.Switches,
          Session.applyWelcome, Session.applyUdp, hudp]
    · have hoffer : (Outcome.mk random (some b) natT).udp = none := by
        simp [Outcome.udp, Option.filter_some, hudp]
      rw [hoffer]
      cases random <;>
        simp [Outcome.apply, Session.storeRandom, Outcome.maxConnection, Outcome.Switches,
          Session.applyWelcome, Session.applyUdp, hudp, splice]

theorem Outcome.maxConnection_eq_iff (o : Outcome) (serverMax target target' : ℕ) :
    o.maxConnection serverMax target = o.maxConnection 0 target' ↔
      (o.welcome = none → target = target') ∧
        ∀ b, o.welcome = some b → o.natT = false →
          clampConnections ((Welcome.maxConnection b).getD serverMax) target =
            clampConnections ((Welcome.maxConnection b).getD 0) target' := by
  unfold Outcome.maxConnection
  cases o.welcome with
  | none => simp
  | some b => cases o.natT <;> simp

theorem direction_eq_iff (switches switches' : Prop) [Decidable switches] [Decidable switches']
    (direction : ℕ) :
    ((if switches then directionClientToServer else direction) =
      if switches' then directionClientToServer else directionBoth) ↔
      (switches → switches') ∧ (¬switches → ¬switches' → direction = directionBoth) ∧
        (¬switches → switches' → direction = directionClientToServer) := by
  have hne : directionClientToServer ≠ directionBoth := by decide
  by_cases h : switches <;> by_cases h' : switches' <;> simp [h, h', hne]

/-- On two connections with the same options a connect ends in the same session exactly if
nothing of the first one's session is left. -/
theorem apply_eq_fresh_iff (o : Outcome) (r : Replies) (c : Conn) :
    o.apply r c = o.apply r (freshConn c.options) ↔ NoLeak r o c := by
  rw [Outcome.apply_eq, Outcome.apply_eq, Session.mk.injEq]
  have hboth : (freshConn c.options).session.primaryDirection = directionBoth := rfl
  have hmax : (freshConn c.options).serverMaxConnection = 0 := rfl
  rw [hboth, direction_eq_iff, hmax, Outcome.maxConnection_eq_iff]
  simp only [getD_eq_iff, splice_zero_eq_iff, size_eq_iff, Option.map_eq_none_iff]
  constructor
  · rintro ⟨hqueue, hhead, htail, hcount, ⟨hswitched, hboth, hsend⟩, hhas, hrandom, hestablished,
      hgateway, hassigned, hcompress, htimeout, ⟨hmax, hclamp⟩, hcookie, hkey, hkeySize, hkeyV2,
      hkeyV2Size, hip, hport, hindex, hkeepalive⟩
    exact ⟨⟨hqueue, hhead, htail, hcount, hgateway, hassigned, hindex, hkeepalive⟩,
      fun h => ⟨hhas h, hrandom h⟩, hestablished, hcompress, htimeout, hip, hport, hkey, hkeySize,
      hkeyV2, hkeyV2Size, hcookie, hmax, hclamp, hswitched, hboth, hsend⟩
  · intro h
    exact ⟨h.untouched.recvQueue, h.untouched.recvQueueHead, h.untouched.recvQueueTail,
      h.untouched.recvQueueCount, ⟨h.switched, h.directionBoth, h.directionSend⟩,
      fun hr => (h.random hr).1, fun hr => (h.random hr).2, h.established,
      h.untouched.gatewayMacResolved, h.untouched.assignedIp, h.useCompress, h.timeout,
      ⟨h.maxConnection, h.clamp⟩, h.cookie, h.key, h.keySize, h.keyV2, h.keyV2Size, h.ip, h.port,
      h.untouched.sendRrIdx, h.untouched.nextTcpKeepaliveTime⟩

/-! ### The slots over a history -/

theorem disconnect_length (c : Conn) :
    (softetherDisconnect c).additional.length = c.additional.length := by
  unfold softetherDisconnect
  split_ifs <;> simp

theorem parallelRace_additional (won : Bool) (c : Conn) :
    (parallelRace won c).additional = c.additional := by
  cases won <;> rfl

theorem openTransport_length (r : Replies) (c : Conn) :
    (openTransport r c).additional.length = c.additional.length := by
  unfold openTransport
  split_ifs
  · rw [parallelRace_additional]
  · split
    · rfl
    · rw [parallelRace_additional, disconnect_length]
  · rw [parallelRace_additional, disconnect_length]

theorem login_additional (reply : LoginReply) (c : Conn) :
    (softetherProtocolLogin reply c).2.additional = c.additional := by
  unfold softetherProtocolLogin performAuthenticationHttp
  split_ifs
  · rfl
  · cases reply.welcome with
    | none => rfl
    | some b => cases h : welcomeAccepted b <;> simp [h]

theorem natTLogin_additional (r : Replies) (c : Conn) :
    (natTLogin r c).2.additional = c.additional := by
  unfold natTLogin
  split_ifs
  · split
    · exact login_additional _ _
    · rfl
  · rfl

theorem additionalConnect_length (direction : Option ℕ) (c : Conn) :
    (softetherAdditionalConnect direction c).2.additional.length = c.additional.length := by
  unfold softetherAdditionalConnect
  split_ifs
  · rfl
  · split <;> simp

theorem establish_length (direction : Option ℕ) (c : Conn) :
    (softetherEstablishFirstAdditional direction c).additional.length = c.additional.length := by
  have hlength := additionalConnect_length direction c
  unfold softetherEstablishFirstAdditional
  split <;> rename_i hopened
  · rw [hopened] at hlength
    split_ifs <;> exact hlength
  · rw [hopened] at hlength
    exact hlength

theorem finishConnect_length (r : Replies) (c : Conn) :
    (finishConnect r c).2.additional.length = c.additional.length := by
  unfold finishConnect
  dsimp only
  by_cases hfd : c.link.socketFd = true
  · rw [if_pos hfd]
    by_cases hhalf : c.halfConnection ≠ 0
    · rw [if_pos hhalf]
      exact establish_length _ _
    · rw [if_neg hhalf]
  · rw [if_neg hfd]
    exact disconnect_length _

theorem endConnect_length (r : Replies) (login : Err × Conn) :
    (endConnect r login).2.additional.length = login.2.additional.length := by
  obtain ⟨err, c⟩ := login
  cases err with
  | none => exact finishConnect_length r c
  | _ => exact disconnect_length c

theorem afterFirstLogin_length (r : Replies) (login : Err × Conn) :
    (afterFirstLogin r login).2.additional.length = login.2.additional.length := by
  obtain ⟨err, c⟩ := login
  by_cases herr : err = .none
  · subst herr
    exact finishConnect_length r c
  · rw [afterFirstLogin_of_err r c herr]
    split_ifs
    · exact disconnect_length c
    · rw [endConnect_length, natTLogin_additional, disconnect_length]

theorem connect_length (r : Replies) (c : Conn) :
    (softetherConnectWithHub r c).2.additional.length = c.additional.length := by
  unfold softetherConnectWithHub
  dsimp only
  split_ifs
  · rfl
  · rw [afterFirstLogin_length, login_additional]
    exact openTransport_length r _

/-- `softether_reconnect` is a disconnect and a connect, if there is a session to resume. -/
theorem reconnect_eq (r : Replies) {c : Conn} (hip : c.serverIp ≠ [])
    (hstored : c.usernameStored = true) :
    softetherReconnect r c = softetherConnectWithHub r (softetherDisconnect c) := by
  simp only [softetherReconnect, hip, hstored, Bool.true_eq_false, or_self, if_false]
  split_ifs with hstate
  · rfl
  · have hidle : softetherDisconnect c = c := by
      simp only [softetherDisconnect, not_not.mp hstate, true_or, if_true]
    rw [hidle]

theorem runOp_length (c : Conn) (op : Op) :
    (runOp c op).additional.length = c.additional.length := by
  cases op with
  | connect r => exact connect_length r c
  | reconnect r =>
    by_cases hip : c.serverIp = [] ∨ c.usernameStored = false
    · simp [runOp, softetherReconnect, hip]
    · obtain ⟨hip, hstored⟩ := not_or.mp hip
      rw [runOp, reconnect_eq r hip (by simpa using hstored), connect_length, disconnect_length]
  | disconnect => exact disconnect_length c
  | sent =>
    simp only [runOp, softetherSelectSendSocket]
    split_ifs <;> rfl
  | additionalOpened direction => exact additionalConnect_length _ c
  | retired slot => simp [runOp]
  | _ => rfl

theorem history_length (ops : List Op) : (history ops).additional.length = maxSeConnections := by
  induction ops using List.reverseRecOn with
  | nil => rfl
  | append_singleton ops op ih =>
    rw [history, List.foldl_append, List.foldl_cons, List.foldl_nil, ← history, runOp_length, ih]

/-! ### The second session -/

/-- A disconnect leaves no link behind: one that has nothing to do finds everything closed,
and one that closes finds a whole TLS object or none. -/
structure Closes (c : Conn) : Prop where
  idle : c.link.state = .disconnected ∨ c.link.state = .disconnecting →
    c.link = .closed ∧ ∀ slot ∈ c.additional, slot.active = false
  whole : c.link.ssl = c.link.sslCtx

theorem Closes.gone {c : Conn} (h : Closes c) (hfree : c.additional ≠ []) :
    Gone (softetherDisconnect c) := by
  unfold softetherDisconnect
  split_ifs with hidle
  · obtain ⟨hlink, hslots⟩ := h.idle hidle
    exact ⟨hlink, hslots, hfree⟩
  · refine ⟨?_, ?_, by simpa using hfree⟩
    · simp [Link.disconnect, hidle, h.whole, Link.closed]
    · intro slot hmem
      obtain ⟨_, _, rfl⟩ := List.mem_map.mp hmem
      rfl

theorem freshConn_gone (o : Options) : Gone (freshConn o) := by
  refine ⟨rfl, ?_, by simp [freshConn, softetherCreate, maxSeConnections]⟩
  intro slot hmem
  rw [List.eq_of_mem_replicate hmem]

theorem disconnect_options (c : Conn) : (softetherDisconnect c).options = c.options := by
  unfold softetherDisconnect
  split_ifs <;> rfl

theorem noLeak_disconnect_iff (r : Replies) (o : Outcome) (c : Conn) :
    NoLeak r o (softetherDisconnect c) ↔ NoLeak r o c := by
  rw [← apply_eq_fresh_iff, ← apply_eq_fresh_iff]
  unfold softetherDisconnect
  split_ifs <;> rfl

/-- A Welcome that only says that there is no error. -/
def plainWelcome : Buffer := Buffer.ofBody (intBody (ascii "error") 0) (by decide)

/-- A connect over TCP whose login is accepted at once. -/
def plainReplies : Replies where
  resolved := true
  tcp := true
  tls := .done
  raceWon := false
  serverIp := ascii "10.0.0.1"
  first := ⟨.noHello, some plainWelcome⟩
  natT := false
  natTTls := .done
  second := ⟨.failed, none⟩
  additional := none

theorem plainReplies_outcome : plainReplies.outcome false = ⟨none, some plainWelcome, false⟩ := by
  have haccepted : welcomeAccepted plainWelcome = true := by decide +kernel
  simp [Replies.outcome, Replies.transport, LoginReply.use, plainReplies, haccepted,
    Option.filter_some, WatermarkReply.random]

theorem plainHistory_session :
    (history [.connect plainReplies]).session = { Session.created with sessionEstablished := true } := by
  have hgone : Gone softetherCreate := freshConn_gone ⟨4, 0, false⟩
  have hudp : Welcome.usesUdp plainWelcome = false := by decide +kernel
  have hcompress : Welcome.useCompress plainWelcome = none := by decide +kernel
  have htimeout : Welcome.timeout plainWelcome = none := by decide +kernel
  have hmax : Welcome.maxConnection plainWelcome = none := by decide +kernel
  have hclamp : clampConnections 0 4 = 4 := by decide
  refine (connect_session plainReplies hgone).trans ?_
  have hoption : softetherCreate.options.udpOnly = false := rfl
  rw [hoption, plainReplies_outcome]
  simp [Outcome.apply, Session.storeRandom, Session.applyWelcome, Session.applyUdp, hudp, hcompress,
    htimeout, hmax, hclamp, Replies.Switches, plainReplies, softetherCreate, Session.created]

end SoftEtherVpn.Reconnect
