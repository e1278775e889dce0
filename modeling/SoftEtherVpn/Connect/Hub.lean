import SoftEtherVpn.Connect.Race

/-!
# Connecting with a hub name

`softether_connect_with_hub` as a machine over its stages: name resolution, TCP and its
retry with the other address family, TLS, the parallel race, the login, the NAT-T
fallback, the second TLS and the second login. Every stage is the source's code between
two answers of the outside world; a call of `softether_disconnect` on the way is a stage
of its own, so that the state it meets can be named.
-/

namespace SoftEtherVpn.Connect

open Foundation

inductive Err
  | none
  | tcpConnect
  | tlsHandshake
  | protocolVersion
  | authentication
  | session
  | dataTransmission
  | timeout
  | unknown
  deriving DecidableEq, Repr

/-- A resolved server address; the IPv4 address is the number `inet_pton` makes of it. -/
inductive Ip
  | v4 (addr : ℕ)
  | v6
  deriving DecidableEq, Repr

def Ip.inetPton : Ip → Option ℕ
  | .v4 addr => some addr
  | .v6 => none

/-- The arguments of a call and the address it works with. -/
structure Call where
  useTcp : Bool
  forceNatT : Bool
  ip : Ip
  deriving DecidableEq, Repr

inductive HubPc
  | resolving
  | tcpConnecting
  | tlsOverTcp
  | dropTcp
  | racing (fallback : Bool) (race : Race)
  | dropRace
  | loginFirst
  | dropLogin
  | natTFallback
  | tlsOverNatT
  | loginSecond
  | finishing
  | abort (err : Err)
  | returned (err : Err)
  deriving DecidableEq, Repr

def HubPc.race? : HubPc → Option Race
  | .racing _ race => some race
  | _ => none

structure Hub where
  world : World
  call : Call
  pc : HubPc

/-- The TCP stage: whether the socket was created, what each re-creation of it for another
address family gave, whether one of the attempts connected, and to which address. -/
structure TcpAnswers where
  created : Bool
  recreated : List Bool
  connected : Bool
  ip : Ip
  deriving DecidableEq, Repr

/-- The outcome of `softether_additional_connect`. -/
inductive AdditionalOutcome
  | socketFailed
  | connectFailed
  | sslCreateFailed
  | refused
  | opened
  deriving DecidableEq, Repr

/-- What the calls of the current stage answer. -/
structure StageAnswers where
  resolved : Option Ip
  tcp : TcpAnswers
  tls : HandshakeOutcome
  rendezvous : NatTOutcome
  allocated : Bool
  opening : OpenOutcome
  established : Bool
  watermark : ℤ
  rudpCreated : Bool
  rudpFamilySet : Bool
  auth : Err
  additional : Option AdditionalOutcome
  deriving DecidableEq, Repr

/-- `socket_recreate_for_family`. -/
def socketRecreate (p : Option ℕ × Resources) (ok : Bool) : Option ℕ × Resources :=
  let L := p.2.releaseAll (tokens .fd p.1)
  if ok then (some L.next, L.acquire .fd) else (none, L)

/-- `socket_create` and the attempts of `socket_connect_timeout`. -/
def tcpSocket (a : TcpAnswers) (L : Resources) : Option ℕ × Resources :=
  if a.created then a.recreated.foldl socketRecreate (some L.next, L.acquire .fd)
  else (none, L)

/-- The TCP stage; `true` when the connection took the descriptor over. -/
def tcpStage (forceNatT : Bool) (a : TcpAnswers) (w : World) : Bool × World :=
  if forceNatT then (false, w)
  else
    let (fd, L) := tcpSocket a w.ledger
    if a.connected ∧ fd ≠ none then (true, ⟨L, { w.conn with socketFd := fd }⟩)
    else (false, ⟨L.releaseAll (tokens .fd fd), w.conn⟩)

def performTlsHandshake (o : HandshakeOutcome) (w : World) : Err × World :=
  if w.conn.socketFd = none then (.tlsHandshake, w)
  else
    let c := { w.conn with state := .tlsHandshake }
    let L := w.ledger
    match o with
    | .createFailed => (.tlsHandshake, ⟨L, c⟩)
    | .connectFailed =>
      (.tlsHandshake, ⟨(L.acquire .ssl).releaseAll [(.ssl, L.next)], { c with sslCtx := none }⟩)
    | .done => (.none, ⟨L.acquire .ssl, { c with sslCtx := some L.next, ssl := some L.next }⟩)

/-- The acceleration context of a login in UDP mode. -/
def loginRudp (useTcp : Bool) (a : StageAnswers) (w : World) : World :=
  if ¬ useTcp ∧ ¬ w.conn.usingNatT then
    if a.rudpCreated then
      if w.conn.isIpv6 ∧ ¬ a.rudpFamilySet then
        ⟨(w.ledger.acquire .rudp).releaseAll [(.rudp, w.ledger.next)],
          { w.conn with rudp := none }⟩
      else ⟨w.ledger.acquire .rudp, { w.conn with rudp := some w.ledger.next }⟩
    else ⟨w.ledger, { w.conn with rudp := none }⟩
  else ⟨w.ledger, { w.conn with rudp := none }⟩

/-- `send_vpnconnect_watermark` returns a negative number. -/
def WatermarkFails (a : StageAnswers) (c : Connection) : Prop :=
  c.ssl = none ∨ a.watermark < 0

instance (a : StageAnswers) (c : Connection) : Decidable (WatermarkFails a c) :=
  inferInstanceAs (Decidable (_ ∨ _))

def softetherProtocolLogin (useTcp : Bool) (a : StageAnswers) (w : World) : Err × World :=
  if WatermarkFails a w.conn then (.tlsHandshake, w)
  else
    let w := loginRudp useTcp a w
    (a.auth, { w with conn := { w.conn with state := .authenticating, usernameStored := true } })

/-- The rendezvous and the transport of the NAT-T fallback, as far as they come. -/
def natTTransport (a : StageAnswers) (cfg : TransportConfig) (L : Resources) :
    Option RudpTransport × Resources :=
  if ¬ a.allocated then (none, L.releaseAll (tokens .fd cfg.udpFd))
  else
    let (t, L) := rudpTransportCreate L
    match rudpTransportOpen t cfg a.opening L with
    | (false, t, L) => (none, rudpTransportDestroy t L)
    | (true, t, L) =>
      if a.established then (some t, L)
      else
        let (t, L) := rtFail t L
        (none, rudpTransportDestroy t L)

def softetherTryNatTConnect (ip : Ip) (a : StageAnswers) (w : World) : Err × World :=
  match ip.inetPton with
  | none => (.tcpConnect, w)
  | some _ =>
    match natTConnect a.rendezvous w.ledger with
    | (none, L) => (.tcpConnect, { w with ledger := L })
    | (some cfg, L) =>
      match natTTransport a cfg L with
      | (none, L) => (.tcpConnect, { w with ledger := L })
      | (some t, L) =>
        (.none,
          ⟨L, { w.conn with natTTransport := some t, usingNatT := true, socketFd := t.appFd }⟩)

/-- `softether_additional_connect`. -/
def softetherAdditionalConnect (o : AdditionalOutcome) (w : World) : World :=
  if w.conn.state ≠ .connected then w
  else
    match w.conn.additional.findIdx? (fun s => !s.active) with
    | none => w
    | some i =>
      let L := w.ledger
      match o with
      | .socketFailed => w
      | .connectFailed => { w with ledger := (L.acquire .fd).releaseAll [(.fd, L.next)] }
      | .sslCreateFailed => { w with ledger := (L.acquire .fd).releaseAll [(.fd, L.next)] }
      | .refused =>
        { w with
          ledger := ((L.acquire .fd).acquire .ssl).releaseAll [(.ssl, L.next + 1), (.fd, L.next)] }
      | .opened =>
        ⟨(L.acquire .fd).acquire .ssl,
          { w.conn with additional :=
            w.conn.additional.set i ⟨true, some L.next, some (L.next + 1), some (L.next + 1)⟩ }⟩

/-- The entry of `softether_connect_with_hub`, up to the name resolution. -/
def enterConnect (useTcp forceNatT : Bool) (w : World) : Hub :=
  let w :=
    if w.conn.socketFd = none then
      ⟨w.ledger.releaseAll w.conn.transportResources, { w.conn with natTTransport := none }⟩
    else w
  { world := { w with conn := { w.conn with usingNatT := false, state := .connecting } }
    call := ⟨useTcp, forceNatT, .v6⟩
    pc := .resolving }

/-- "Store server info", on the way to the login. -/
def storeServer (ip : Ip) (c : Connection) : Connection :=
  { c with serverIpStored := true, isIpv6 := ip.inetPton = none }

def Hub.toLogin (s : Hub) : Hub :=
  { s with
    world := { s.world with conn := storeServer s.call.ip s.world.conn }
    pc := .loginFirst }

def Hub.startRace (s : Hub) (fallback : Bool) : Hub :=
  { s with pc := .racing fallback (Connect.startRace s.world).race }

/-- The stage after a login. -/
def afterLogin (first : Bool) (r : Err × World) (s : Hub) : Hub :=
  let s := { s with world := r.2 }
  if r.1 = .none then { s with pc := .finishing }
  else if first ∧ ¬ r.2.conn.usingNatT then { s with pc := .dropLogin }
  else { s with pc := .abort r.1 }

/-- One stage of a call. -/
def stageStep (s : Hub) (a : StageAnswers) : Option Hub :=
  let w := s.world
  match s.pc with
  | .resolving =>
    match a.resolved with
    | none =>
      some { s with
        world := { w with conn := { w.conn with state := .disconnected } }
        pc := .returned .tcpConnect }
    | some ip =>
      let s := { s with call := { s.call with ip := ip } }
      if w.conn.udpOnly then some (s.startRace false) else some { s with pc := .tcpConnecting }
  | .tcpConnecting =>
    match tcpStage s.call.forceNatT a.tcp w with
    | (true, w) =>
      some { s with world := w, call := { s.call with ip := a.tcp.ip }, pc := .tlsOverTcp }
    | (false, w) => some { s with world := w, pc := .dropTcp }
  | .tlsOverTcp =>
    match performTlsHandshake a.tls w with
    | (.none, w) => some ({ s with world := w }).toLogin
    | (_, w) =>
      some { s with
        world := ⟨w.ledger.releaseAll (tokens .fd w.conn.socketFd), { w.conn with socketFd := none }⟩
        pc := .dropTcp }
  | .dropTcp => some (({ s with world := softetherDisconnect w }).startRace true)
  | .racing fallback race =>
    match race.main with
    | .returned code =>
      if fallback ∧ code = 0 ∧ (w.conn.socketFd = none ∨ w.conn.ssl = none) then
        some { s with pc := .dropRace }
      else some s.toLogin
    | _ => none
  | .dropRace => some ({ s with world := softetherDisconnect w }).toLogin
  | .loginFirst => some (afterLogin true (softetherProtocolLogin s.call.useTcp a w) s)
  | .dropLogin => some { s with world := softetherDisconnect w, pc := .natTFallback }
  | .natTFallback =>
    match softetherTryNatTConnect s.call.ip a w with
    | (.none, w) => some { s with world := w, pc := .tlsOverNatT }
    | (err, w) => some { s with world := w, pc := .abort err }
  | .tlsOverNatT =>
    match performTlsHandshake a.tls w with
    | (.none, w) => some { s with world := w, pc := .loginSecond }
    | (err, w) => some { s with world := w, pc := .abort err }
  | .loginSecond => some (afterLogin false (softetherProtocolLogin s.call.useTcp a w) s)
  | .finishing =>
    let w := { w with conn := { w.conn with state := .connected } }
    if w.conn.socketFd = none then some { s with world := w, pc := .abort .tcpConnect }
    else
      let w := match a.additional with
        | none => w
        | some o => softetherAdditionalConnect o w
      some { s with world := w, pc := .returned .none }
  | .abort err => some { s with world := softetherDisconnect w, pc := .returned err }
  | .returned _ => none

inductive HubEvent
  | stage (a : StageAnswers)
  | race (e : RaceEvent)
  deriving DecidableEq, Repr

def raceConfig (s : Hub) : RaceConfig := ⟨s.call.ip.inetPton, s.world.conn.udpPort⟩

def hubStep (s : Hub) : HubEvent → Option Hub
  | .stage a => stageStep s a
  | .race e =>
    match s.pc with
    | .racing fallback race =>
      (raceStep (raceConfig s) ⟨s.world, race⟩ e).map fun t =>
        { s with world := t.world, pc := .racing fallback t.race }
    | _ => none

/-! ### What the stages do to the ledger -/

theorem socketRecreate_transfers (p : Option ℕ × Resources) (ok : Bool) :
    p.2.Transfers (tokens .fd p.1) (socketRecreate p ok).2 (tokens .fd (socketRecreate p ok).1) := by
  have hclose := Ledger.Transfers.releaseAll p.2 (tokens .fd p.1)
  cases ok with
  | true => exact hclose.trans (.acquire _ ResourceKind.fd)
  | false => exact hclose

theorem socketRecreate_next (p : Option ℕ × Resources) (ok : Bool) :
    p.2.next ≤ (socketRecreate p ok).2.next ∧ ∀ n ∈ (socketRecreate p ok).1, p.2.next ≤ n := by
  cases ok <;> simp [socketRecreate]

theorem recreate_spec (oks : List Bool) (p : Option ℕ × Resources) {m : ℕ} (hm : m ≤ p.2.next)
    (hp : ∀ n ∈ p.1, m ≤ n) :
    p.2.Transfers (tokens .fd p.1) (oks.foldl socketRecreate p).2
        (tokens .fd (oks.foldl socketRecreate p).1) ∧
      ∀ n ∈ (oks.foldl socketRecreate p).1, m ≤ n := by
  induction oks generalizing p with
  | nil => exact ⟨.refl _ _, hp⟩
  | cons ok oks ih =>
    obtain ⟨hnext, hfd⟩ := socketRecreate_next p ok
    obtain ⟨ht, hn⟩ := ih (socketRecreate p ok) (hm.trans hnext) fun n hn => hm.trans (hfd n hn)
    exact ⟨(socketRecreate_transfers p ok).trans ht, hn⟩

theorem tcpSocket_spec (a : TcpAnswers) (L : Resources) :
    L.Transfers 0 (tcpSocket a L).2 (tokens .fd (tcpSocket a L).1) ∧
      ∀ n ∈ (tcpSocket a L).1, L.next ≤ n := by
  unfold tcpSocket
  split_ifs
  · obtain ⟨ht, hn⟩ := recreate_spec a.recreated (some L.next, L.acquire .fd) (m := L.next)
      (Nat.le_succ _) (by simp)
    exact ⟨(Ledger.Transfers.acquire L .fd).trans ht, hn⟩
  · exact ⟨.refl L 0, by simp⟩

theorem tcpStage_spec (forceNatT : Bool) (a : TcpAnswers) (w : World) :
    let r := tcpStage forceNatT a w
    ∃ fd, w.ledger.Transfers 0 r.2.ledger (tokens .fd fd) ∧ (∀ n ∈ fd, w.ledger.next ≤ n) ∧
      (r.1 = true ∧ fd ≠ none ∧ r.2.conn = { w.conn with socketFd := fd } ∨
        r.1 = false ∧ fd = none ∧ r.2.conn = w.conn) := by
  unfold tcpStage
  obtain ⟨ht, hn⟩ := tcpSocket_spec a w.ledger
  split_ifs with hforce
  · exact ⟨none, .refl _ 0, by simp, .inr ⟨rfl, rfl, rfl⟩⟩
  · dsimp only
    split_ifs with hok
    · exact ⟨_, ht, hn, .inl ⟨rfl, hok.2, rfl⟩⟩
    · exact ⟨none, ht.trans (.releaseAll _ _), by simp, .inr ⟨rfl, rfl, rfl⟩⟩

theorem ssl_create_destroy_transfers (L : Resources) :
    L.Transfers 0 ((L.acquire .ssl).releaseAll [(.ssl, L.next)]) 0 :=
  (Ledger.Transfers.acquire L .ssl).trans (.releaseAll _ [(ResourceKind.ssl, L.next)])

theorem performTlsHandshake_spec (o : HandshakeOutcome) {w : World} (h : w.conn.socketFd ≠ none) :
    let r := performTlsHandshake o w
    let c := { w.conn with state := .tlsHandshake }
    (∃ n, r.1 = .none ∧ w.ledger.Transfers 0 r.2.ledger (tokens .ssl (some n)) ∧
      r.2.conn = { c with sslCtx := some n, ssl := some n }) ∨
      (r.1 = .tlsHandshake ∧ w.ledger.Transfers 0 r.2.ledger 0 ∧
        (r.2.conn = c ∨ r.2.conn = { c with sslCtx := none })) := by
  unfold performTlsHandshake
  rw [if_neg h]
  cases o with
  | createFailed => exact .inr ⟨rfl, .refl _ 0, .inl rfl⟩
  | connectFailed => exact .inr ⟨rfl, ssl_create_destroy_transfers _, .inr rfl⟩
  | done => exact .inl ⟨_, rfl, .acquire _ ResourceKind.ssl, rfl⟩

theorem loginRudp_spec (useTcp : Bool) (a : StageAnswers) (w : World) :
    ∃ rudp, w.ledger.Transfers 0 (loginRudp useTcp a w).ledger (tokens .rudp rudp) ∧
      (loginRudp useTcp a w).conn = { w.conn with rudp := rudp } ∧
      (w.conn.usingNatT = true → rudp = none) := by
  unfold loginRudp
  split_ifs with hmode hcreated hfamily
  · exact ⟨none, (Ledger.Transfers.acquire _ ResourceKind.rudp).trans
      (.releaseAll _ [(ResourceKind.rudp, w.ledger.next)]), rfl, fun _ => rfl⟩
  · exact ⟨_, .acquire _ ResourceKind.rudp, rfl, fun h => absurd h hmode.2⟩
  · exact ⟨none, .refl _ 0, rfl, fun _ => rfl⟩
  · exact ⟨none, .refl _ 0, rfl, fun _ => rfl⟩

theorem softetherProtocolLogin_spec (useTcp : Bool) (a : StageAnswers) {w : World}
    (h : ¬ WatermarkFails a w.conn) :
    let r := softetherProtocolLogin useTcp a w
    ∃ rudp, r.1 = a.auth ∧ w.ledger.Transfers 0 r.2.ledger (tokens .rudp rudp) ∧
      r.2.conn = { w.conn with rudp := rudp, state := .authenticating, usernameStored := true } ∧
      (w.conn.usingNatT = true → rudp = none) := by
  obtain ⟨rudp, ht, hconn, hnone⟩ := loginRudp_spec useTcp a w
  unfold softetherProtocolLogin
  rw [if_neg h]
  refine ⟨rudp, rfl, ht, ?_, hnone⟩
  dsimp only
  rw [hconn]

/-- The NAT-T fallback gets as far as its transport and leaves a descriptor behind there. -/
def NatTLeaks (ip : Ip) (a : StageAnswers) : Prop :=
  ip.inetPton ≠ none ∧ a.allocated = true ∧
    (a.opening = .pairNonblockFailed ∧ a.rendezvous.accepted = true ∨
      a.opening = .udpNonblockFailed ∧ a.rendezvous.relayed = true)

instance (ip : Ip) (a : StageAnswers) : Decidable (NatTLeaks ip a) :=
  inferInstanceAs (Decidable (_ ≠ _ ∧ _ ∧ (_ ∨ _)))

theorem natTTransport_spec (a : StageAnswers) (cfg : TransportConfig) (L : Resources) :
    let r := natTTransport a cfg L
    ∃ orphans : Multiset Resource,
      L.Transfers (tokens .fd cfg.udpFd) r.2
        (orphans + r.1.toList.flatMap RudpTransport.resources) ∧
      (orphans = 0 ↔ ¬ (a.allocated = true ∧ a.opening.Leaks cfg)) ∧
      ∀ t ∈ r.1, t.appFd ≠ none := by
  unfold natTTransport
  cases ha : a.allocated with
  | false => exact ⟨0, .releaseAll _ _, by simp, by simp⟩
  | true =>
    have hcreate := (rudpTransportCreate_transfers L).frame (tokens .fd cfg.udpFd)
    rw [add_zero, add_comm] at hcreate
    obtain ⟨orphans, hopen, horphans⟩ :=
      rudpTransportOpen_transfers L.next cfg a.opening (L.acquire .transport)
    have happ := @rudpTransportOpen_appFd ⟨L.next, none, none, none⟩ cfg a.opening
      (L.acquire .transport)
    have hsofar := hcreate.trans hopen
    simp only [rudpTransportCreate, not_true_eq_false, if_false, true_and]
    cases hr : rudpTransportOpen ⟨L.next, none, none, none⟩ cfg a.opening (L.acquire .transport) with
    | mk opened p =>
      obtain ⟨t, L'⟩ := p
      rw [hr] at hsofar happ
      cases opened with
      | false =>
        exact ⟨orphans, hsofar.trans ((rudpTransportDestroy_transfers t L').frame orphans),
          horphans, by simp⟩
      | true =>
        cases a.established with
        | true =>
          refine ⟨orphans, ?_, horphans, ?_⟩
          · simpa using hsofar
          · simpa using happ
        | false =>
          have hfail := (rtFail_transfers t L').frame orphans
          exact ⟨orphans, (hsofar.trans hfail).trans
            ((rudpTransportDestroy_transfers _ _).frame orphans), horphans, by simp⟩

theorem natTConnect_leaks {a : StageAnswers} {cfg : TransportConfig} {L L' : Resources} {ip : Ip}
    (hip : ip.inetPton ≠ none) (h : natTConnect a.rendezvous L = (some cfg, L')) :
    a.allocated = true ∧ a.opening.Leaks cfg ↔ NatTLeaks ip a := by
  simp only [NatTLeaks, hip, ne_eq, not_false_eq_true, true_and]
  cases ho : a.rendezvous with
  | noRelay => simp [natTConnect, ho] at h
  | noAnswer => simp [natTConnect, ho] at h
  | sameLan e =>
    simp only [natTConnect, ho, Prod.mk.injEq, Option.some.injEq] at h
    simp [← h.1, OpenOutcome.Leaks, NatTOutcome.accepted, NatTOutcome.relayed, e.ip_ne_zero,
      e.port_ne_zero]
  | relay e =>
    simp only [natTConnect, ho, Prod.mk.injEq, Option.some.injEq] at h
    simp [← h.1, OpenOutcome.Leaks, NatTOutcome.accepted, NatTOutcome.relayed, e.ip_ne_zero,
      e.port_ne_zero]

theorem softetherTryNatTConnect_spec (ip : Ip) (a : StageAnswers) (w : World) :
    let r := softetherTryNatTConnect ip a w
    ∃ orphans : Multiset Resource, (orphans = 0 ↔ ¬ NatTLeaks ip a) ∧
      ((∃ t : RudpTransport, r.1 = .none ∧ t.appFd ≠ none ∧
          w.ledger.Transfers 0 r.2.ledger (orphans + t.resources) ∧
          r.2.conn =
            { w.conn with natTTransport := some t, usingNatT := true, socketFd := t.appFd }) ∨
        (r.1 = .tcpConnect ∧ w.ledger.Transfers 0 r.2.ledger orphans ∧ r.2.conn = w.conn)) := by
  unfold softetherTryNatTConnect
  cases hip : ip.inetPton with
  | none => exact ⟨0, by simp [NatTLeaks, hip], .inr ⟨rfl, .refl _ 0, rfl⟩⟩
  | some addr =>
    have hne : ip.inetPton ≠ none := by simp [hip]
    have hconnect := natTConnect_transfers a.rendezvous w.ledger
    dsimp only
    cases hr : natTConnect a.rendezvous w.ledger with
    | mk cfg L =>
      rw [hr] at hconnect
      cases cfg with
      | none =>
        refine ⟨0, ?_, .inr ⟨rfl, hconnect, rfl⟩⟩
        cases ho : a.rendezvous <;> simp [natTConnect, ho] at hr <;>
          simp [NatTLeaks, ho, NatTOutcome.accepted, NatTOutcome.relayed]
      | some cfg =>
        obtain ⟨orphans, ht, horphans, happ⟩ := natTTransport_spec a cfg L
        rw [natTConnect_leaks hne hr] at horphans
        refine ⟨orphans, horphans, ?_⟩
        dsimp only
        cases hn : natTTransport a cfg L with
        | mk t L' =>
          rw [hn] at ht happ
          have hall := hconnect.trans ht
          cases t with
          | none => exact .inr ⟨rfl, by simpa using hall, rfl⟩
          | some t => exact .inl ⟨t, rfl, happ t rfl, by simpa using hall, rfl⟩

/-- What a slot of the additional connections owns. -/
def AdditionalSock.held (s : AdditionalSock) : Multiset Resource :=
  (if s.active then tokens .fd s.socketFd else []) + tokens .ssl s.sslCtx

theorem closeAdditional_set {slots : List AdditionalSock} {i : ℕ} {old : AdditionalSock}
    (h : slots[i]? = some old) (new : AdditionalSock) :
    ((closeAdditional (slots.set i new)).1 + old.held : Multiset Resource) =
      (closeAdditional slots).1 + new.held := by
  obtain ⟨a, b, hsplit, hset⟩ := getElem?_split h
  rw [hset, hsplit]
  simp only [closeAdditional, AdditionalSock.held, List.flatMap_append, List.flatMap_cons,
    ← Multiset.coe_add]
  abel

theorem findIdx?_inactive {slots : List AdditionalSock} {i : ℕ}
    (h : slots.findIdx? (fun s => !s.active) = some i) :
    ∃ old, slots[i]? = some old ∧ old.active = false := by
  obtain ⟨hlt, hold, -⟩ := List.findIdx?_eq_some_iff_getElem.mp h
  exact ⟨slots[i], List.getElem?_eq_getElem hlt, by simpa using hold⟩

theorem AdditionalSock.held_eq_zero {slots : List AdditionalSock} {s : AdditionalSock}
    (h : (closeAdditional slots).1 = []) (hs : s ∈ slots) : s.held = 0 := by
  simp only [closeAdditional, List.append_eq_nil_iff, List.flatMap_eq_nil_iff] at h
  rw [AdditionalSock.held, h.1 s hs, h.2 s hs]
  rfl

/-- The fields outside the slots are as they were. -/
theorem Connection.held_set_additional (c : Connection) {i : ℕ} {old : AdditionalSock}
    (h : c.additional[i]? = some old) (new : AdditionalSock) :
    (({ c with additional := c.additional.set i new } : Connection).held + old.held :
      Multiset Resource) = c.held + new.held := by
  rw [Connection.coe_held, Connection.coe_held, add_right_comm, closeAdditional_set h new,
    add_right_comm]
  rfl

/-- An additional connection is kept or closed again; a context left in its slot is dropped. -/
theorem softetherAdditionalConnect_transfers (o : AdditionalOutcome) (w : World) :
    let w' := softetherAdditionalConnect o w
    ∃ d : Multiset Resource,
      w.ledger.Transfers w.conn.held w'.ledger (d + w'.conn.held) ∧
      ((closeAdditional w.conn.additional).1 = [] → d = 0) := by
  have hkeep : ∃ d : Multiset Resource, w.ledger.Transfers w.conn.held w.ledger
      (d + w.conn.held) ∧ ((closeAdditional w.conn.additional).1 = [] → d = 0) :=
    ⟨0, by rw [zero_add]; exact .refl _ _, fun _ => rfl⟩
  have hsocket : ∃ d : Multiset Resource, w.ledger.Transfers w.conn.held
      ((w.ledger.acquire .fd).releaseAll [(.fd, w.ledger.next)]) (d + w.conn.held) ∧
      ((closeAdditional w.conn.additional).1 = [] → d = 0) := by
    refine ⟨0, ?_, fun _ => rfl⟩
    simpa using (open_close_transfers w.ledger).frame w.conn.held
  have hpair : w.ledger.Transfers 0 ((w.ledger.acquire .fd).acquire .ssl)
      ([(.fd, w.ledger.next), (.ssl, w.ledger.next + 1)] : List Resource) :=
    (Ledger.Transfers.acquire w.ledger .fd).trans
      ((Ledger.Transfers.acquire (w.ledger.acquire .fd) .ssl).frame {(ResourceKind.fd, w.ledger.next)})
  intro w'
  simp only [w', softetherAdditionalConnect]
  split_ifs with hstate
  · exact hkeep
  · cases hi : w.conn.additional.findIdx? (fun s => !s.active) with
    | none => exact hkeep
    | some i =>
      cases o with
      | socketFailed => exact hkeep
      | connectFailed => exact hsocket
      | sslCreateFailed => exact hsocket
      | refused =>
        refine ⟨0, ?_, fun _ => rfl⟩
        have hback := Ledger.Transfers.releaseAll ((w.ledger.acquire .fd).acquire .ssl)
          [(ResourceKind.ssl, w.ledger.next + 1), (ResourceKind.fd, w.ledger.next)]
        rw [Multiset.coe_eq_coe.mpr (List.Perm.swap _ _ [])] at hback
        simpa using (hpair.trans hback).frame w.conn.held
      | opened =>
        obtain ⟨old, hold, -⟩ := findIdx?_inactive hi
        refine ⟨old.held, ?_, fun h => AdditionalSock.held_eq_zero h (List.mem_of_getElem? hold)⟩
        have hframe := hpair.frame w.conn.held
        dsimp only
        rw [add_comm old.held, Connection.held_set_additional w.conn hold]
        rw [add_zero] at hframe
        exact hframe

end SoftEtherVpn.Connect
