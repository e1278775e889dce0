import SoftEtherVpn.Foundation.Custody

/-!
# Descriptors, TLS contexts and transports of a connection

The functions that open and close descriptors are modelled on a ledger of fresh tokens.
What a system call or a peer answers is an argument, named after the call that fails; the
rest is computed as in the source. The session a transport carries is not part of this
view.
-/

namespace SoftEtherVpn.Connect

open Foundation

inductive ResourceKind
  | fd
  | ssl
  | transport
  | rudp
  deriving DecidableEq, Repr

abbrev Resource := ResourceKind × ℕ

abbrev Resources := Ledger ResourceKind

/-- What a descriptor field (`-1` is `none`) or a pointer field stands for. -/
def tokens (k : ResourceKind) (o : Option ℕ) : List Resource := o.toList.map fun n => (k, n)

@[simp] theorem tokens_none (k : ResourceKind) : tokens k none = [] := rfl

@[simp] theorem tokens_some (k : ResourceKind) (n : ℕ) : tokens k (some n) = [(k, n)] := rfl

/-- The object `rudp_transport_t` and its descriptors. -/
structure RudpTransport where
  id : ℕ
  udpFd : Option ℕ
  workerFd : Option ℕ
  appFd : Option ℕ
  deriving DecidableEq, Repr

/-- What `rudp_transport_destroy` gives back, in its order. -/
def RudpTransport.resources (t : RudpTransport) : List Resource :=
  tokens .fd t.workerFd ++ tokens .fd t.appFd ++ tokens .fd t.udpFd ++ [(.transport, t.id)]

def rudpTransportCreate (L : Resources) : RudpTransport × Resources :=
  (⟨L.next, none, none, none⟩, L.acquire .transport)

def rudpTransportDestroy (t : RudpTransport) (L : Resources) : Resources :=
  L.releaseAll t.resources

inductive TransportMode
  | udp
  | dns
  | icmp
  deriving DecidableEq, Repr

structure TransportConfig where
  serverIp : ℕ
  serverPort : ℕ
  udpFd : Option ℕ
  mode : TransportMode
  deriving DecidableEq, Repr

/-- The first call of `rudp_transport_connect` that fails before its wait loop. A failure of
the random source, of a fifo allocation or of `pthread_create` is a `sessionFailed`. -/
inductive OpenOutcome
  | socketFailed
  | bindFailed
  | udpNonblockFailed
  | pairFailed
  | pairNonblockFailed
  | sessionFailed
  | started
  deriving DecidableEq, Repr

/-- The label `fail` of `rudp_transport_connect`. -/
def rtFail (t : RudpTransport) (L : Resources) : RudpTransport × Resources :=
  ({ t with udpFd := none, workerFd := none, appFd := none },
    L.releaseAll (tokens .fd t.udpFd ++ tokens .fd t.workerFd ++ tokens .fd t.appFd))

/-- The UDP socket of the session: the caller's, or a new one. -/
def rtUdpSocket (cfg : TransportConfig) (o : OpenOutcome) (L : Resources) :
    Option ℕ × Resources :=
  match cfg.udpFd with
  | some fd => (some fd, L)
  | none =>
    if o = .socketFailed then (none, L)
    else if o = .bindFailed ∧ cfg.mode ≠ .icmp then
      (none, (L.acquire .fd).releaseAll [(.fd, L.next)])
    else (some L.next, L.acquire .fd)

/-- From the UDP socket to the started worker. -/
def rtStart (t : RudpTransport) (cfg : TransportConfig) (udpFd : ℕ) (o : OpenOutcome)
    (L : Resources) : Bool × RudpTransport × Resources :=
  if o = .udpNonblockFailed then
    (false, t, if cfg.udpFd = none then L.releaseAll [(.fd, udpFd)] else L)
  else
    let t := { t with udpFd := some udpFd }
    if o = .pairFailed then (false, rtFail t L)
    else
      let workerFd := L.next
      let appFd := L.next + 1
      let L := (L.acquire .fd).acquire .fd
      -- the pair is still only in the local array here
      if o = .pairNonblockFailed then (false, rtFail t L)
      else
        let t := { t with workerFd := some workerFd, appFd := some appFd }
        if o = .sessionFailed then (false, rtFail t L) else (true, t, L)

/-- `rudp_transport_connect` up to its wait loop; `false` is a return of `-1`. -/
def rudpTransportOpen (t : RudpTransport) (cfg : TransportConfig) (o : OpenOutcome)
    (L : Resources) : Bool × RudpTransport × Resources :=
  if cfg.serverIp = 0 ∨ cfg.serverPort = 0 then (false, t, L)
  else
    match rtUdpSocket cfg o L with
    | (none, L) => (false, t, L)
    | (some udpFd, L) => rtStart t cfg udpFd o L

/-- The calls that leave a descriptor behind: the ends of a socket pair that could not be
made non-blocking, and a UDP socket of the caller that was not taken over. -/
def OpenOutcome.Leaks (cfg : TransportConfig) (o : OpenOutcome) : Prop :=
  if cfg.serverIp = 0 ∨ cfg.serverPort = 0 then cfg.udpFd ≠ none
  else o = .pairNonblockFailed ∨ o = .udpNonblockFailed ∧ cfg.udpFd ≠ none

instance (cfg : TransportConfig) (o : OpenOutcome) : Decidable (o.Leaks cfg) :=
  inferInstanceAs (Decidable (if cfg.serverIp = 0 ∨ cfg.serverPort = 0 then _ ≠ _ else _ ∨ _))

/-- The public endpoint a relay names; `nat_t_parse_response` ignores an answer whose
address or port is zero. -/
structure Endpoint where
  ip : ℕ
  port : ℕ
  ip_ne_zero : ip ≠ 0
  port_ne_zero : port ≠ 0
  deriving DecidableEq, Repr

inductive NatTOutcome
  | noRelay
  | noAnswer
  | sameLan (e : Endpoint)
  | relay (e : Endpoint)
  deriving DecidableEq, Repr

/-- The relay named an endpoint. -/
def NatTOutcome.accepted : NatTOutcome → Bool
  | .sameLan _ => true
  | .relay _ => true
  | _ => false

/-- The relay named an endpoint outside the local network. -/
def NatTOutcome.relayed : NatTOutcome → Bool
  | .relay _ => true
  | _ => false

/-- `nat_t_connect`: its socket is handed over only for a relayed session. -/
def natTConnect (o : NatTOutcome) (L : Resources) : Option TransportConfig × Resources :=
  match o with
  | .noRelay => (none, L)
  | .noAnswer => (none, (L.acquire .fd).releaseAll [(.fd, L.next)])
  | .sameLan e => (some ⟨e.ip, e.port, none, .udp⟩, (L.acquire .fd).releaseAll [(.fd, L.next)])
  | .relay e => (some ⟨e.ip, e.port, some L.next, .udp⟩, L.acquire .fd)

theorem RudpTransport.coe_resources (t : RudpTransport) :
    (t.resources : Multiset Resource) =
      tokens .fd t.workerFd + tokens .fd t.appFd + tokens .fd t.udpFd + {(.transport, t.id)} := by
  simp only [RudpTransport.resources, ← Multiset.coe_add, Multiset.coe_singleton]

theorem rudpTransportCreate_transfers (L : Resources) :
    L.Transfers 0 (rudpTransportCreate L).2 (rudpTransportCreate L).1.resources :=
  Ledger.Transfers.acquire L .transport

theorem rudpTransportDestroy_transfers (t : RudpTransport) (L : Resources) :
    L.Transfers t.resources (rudpTransportDestroy t L) 0 :=
  Ledger.Transfers.releaseAll L t.resources

/-- A socket that is opened and closed again on the spot. -/
theorem open_close_transfers (L : Resources) :
    L.Transfers 0 ((L.acquire .fd).releaseAll [(.fd, L.next)]) 0 :=
  (Ledger.Transfers.acquire L .fd).trans (Ledger.Transfers.releaseAll _ [(ResourceKind.fd, L.next)])

theorem rtFail_transfers (t : RudpTransport) (L : Resources) :
    L.Transfers t.resources (rtFail t L).2 (rtFail t L).1.resources := by
  have h := (Ledger.Transfers.releaseAll L
    (tokens .fd t.udpFd ++ tokens .fd t.workerFd ++ tokens .fd t.appFd)).frame
    {(.transport, t.id)}
  have heq : (t.resources : Multiset Resource) = {(ResourceKind.transport, t.id)} +
      (tokens ResourceKind.fd t.udpFd ++ tokens .fd t.workerFd ++ tokens .fd t.appFd :
        List Resource) := by
    rw [RudpTransport.coe_resources, ← Multiset.coe_add, ← Multiset.coe_add]
    abel
  rw [heq]
  exact h

theorem rtUdpSocket_transfers (cfg : TransportConfig) (o : OpenOutcome) (L : Resources) :
    L.Transfers (tokens .fd cfg.udpFd) (rtUdpSocket cfg o L).2
      (tokens .fd (rtUdpSocket cfg o L).1) := by
  unfold rtUdpSocket
  cases cfg.udpFd with
  | some fd => exact .refl L _
  | none =>
    dsimp only
    split_ifs
    · exact .refl L _
    · exact open_close_transfers L
    · exact .acquire L .fd

theorem rtUdpSocket_eq_none {cfg : TransportConfig} {o : OpenOutcome} {L : Resources}
    (h : (rtUdpSocket cfg o L).1 = none) :
    cfg.udpFd = none ∧ (o = .socketFailed ∨ o = .bindFailed) := by
  unfold rtUdpSocket at h
  cases hfd : cfg.udpFd with
  | some fd => simp [hfd] at h
  | none =>
    rw [hfd] at h
    dsimp only at h
    split_ifs at h with hs hb
    · exact ⟨rfl, .inl hs⟩
    · exact ⟨rfl, .inr hb.1⟩

theorem socketpair_transfers (L : Resources) :
    L.Transfers 0 ((L.acquire .fd).acquire .fd)
      ([(.fd, L.next), (.fd, L.next + 1)] : List Resource) :=
  (Ledger.Transfers.acquire L .fd).trans
    ((Ledger.Transfers.acquire (L.acquire .fd) .fd).frame {(ResourceKind.fd, L.next)})

/-- Past the UDP socket: the transport takes it over unless it stays blocking. -/
theorem rtStart_transfers (id : ℕ) (cfg : TransportConfig) (udpFd : ℕ) (o : OpenOutcome)
    (L : Resources) :
    let t : RudpTransport := ⟨id, none, none, none⟩
    let r := rtStart t cfg udpFd o L
    ∃ orphans : Multiset Resource,
      L.Transfers (t.resources + tokens .fd (some udpFd)) r.2.2 (orphans + r.2.1.resources) ∧
      (orphans = 0 ↔ ¬ (o = .pairNonblockFailed ∨ o = .udpNonblockFailed ∧ cfg.udpFd ≠ none)) := by
  intro t r
  let tu : RudpTransport := { t with udpFd := some udpFd }
  let tp : RudpTransport := { tu with workerFd := some L.next, appFd := some (L.next + 1) }
  let pair : List Resource := [(.fd, L.next), (.fd, L.next + 1)]
  have htu : (t.resources + tokens .fd (some udpFd) : Multiset Resource) = tu.resources := by
    simp only [RudpTransport.coe_resources, t, tu, tokens_none, Multiset.coe_nil]
    abel
  have htp : (tu.resources + pair : Multiset Resource) = tp.resources := by
    simp only [RudpTransport.coe_resources, t, tu, tp, pair, tokens_none, tokens_some,
      Multiset.coe_nil, ← Multiset.cons_coe, ← Multiset.singleton_add]
    abel
  have hpair := (socketpair_transfers L).frame tu.resources
  rw [add_zero] at hpair
  simp only [r, rtStart]
  split_ifs with hu hc hp hn hs
  · refine ⟨0, ?_, by simp [hu, hc]⟩
    rw [zero_add]
    exact (Ledger.Transfers.releaseAll L (tokens .fd (some udpFd))).frame t.resources
  · refine ⟨tokens .fd (some udpFd), ?_, by simp [hu, hc]⟩
    rw [add_comm]
    exact .refl L _
  · refine ⟨0, ?_, by simp [hp]⟩
    rw [htu, zero_add]
    exact rtFail_transfers tu L
  · refine ⟨pair, ?_, by simp [hn, pair]⟩
    rw [htu]
    refine hpair.trans ?_
    rw [add_comm]
    exact (rtFail_transfers tu _).frame pair
  · refine ⟨0, ?_, by simp [hs]⟩
    rw [htu, zero_add]
    refine hpair.trans ?_
    rw [htp]
    exact rtFail_transfers tp _
  · refine ⟨0, ?_, by simp [hu, hn]⟩
    rw [htu, zero_add]
    refine hpair.trans ?_
    rw [htp]
    exact .refl _ _

/-- `rudp_transport_connect` before its wait loop: apart from what it leaks, everything is in
the transport. -/
theorem rudpTransportOpen_transfers (id : ℕ) (cfg : TransportConfig) (o : OpenOutcome)
    (L : Resources) :
    let t : RudpTransport := ⟨id, none, none, none⟩
    let r := rudpTransportOpen t cfg o L
    ∃ orphans : Multiset Resource,
      L.Transfers (t.resources + tokens .fd cfg.udpFd) r.2.2 (orphans + r.2.1.resources) ∧
      (orphans = 0 ↔ ¬ o.Leaks cfg) := by
  intro t r
  by_cases hzero : cfg.serverIp = 0 ∨ cfg.serverPort = 0
  · refine ⟨tokens .fd cfg.udpFd, ?_, ?_⟩
    · rw [add_comm]
      simp only [r, rudpTransportOpen, if_pos hzero]
      exact .refl L _
    · rw [OpenOutcome.Leaks, if_pos hzero]
      cases cfg.udpFd <;> simp
  · have hsock := (rtUdpSocket_transfers cfg o L).frame t.resources
    simp only [r, rudpTransportOpen, OpenOutcome.Leaks, if_neg hzero]
    cases hr : rtUdpSocket cfg o L with
    | mk udpFd L' =>
      rw [hr] at hsock
      cases udpFd with
      | none =>
        obtain ⟨hfd, ho⟩ := rtUdpSocket_eq_none (congrArg Prod.fst hr)
        refine ⟨0, ?_, by rcases ho with rfl | rfl <;> simp⟩
        rw [zero_add]
        exact hsock
      | some udpFd =>
        obtain ⟨orphans, hstart, horphans⟩ := rtStart_transfers id cfg udpFd o L'
        exact ⟨orphans, hsock.trans hstart, horphans⟩

theorem rtStart_appFd {t : RudpTransport} {cfg : TransportConfig} {udpFd : ℕ} {o : OpenOutcome}
    {L : Resources} (h : (rtStart t cfg udpFd o L).1 = true) :
    (rtStart t cfg udpFd o L).2.1.appFd ≠ none := by
  unfold rtStart at h ⊢
  split_ifs at h ⊢
  simp

/-- A transport that came up has an application end. -/
theorem rudpTransportOpen_appFd {t : RudpTransport} {cfg : TransportConfig} {o : OpenOutcome}
    {L : Resources} (h : (rudpTransportOpen t cfg o L).1 = true) :
    (rudpTransportOpen t cfg o L).2.1.appFd ≠ none := by
  unfold rudpTransportOpen at h ⊢
  split_ifs at h ⊢
  cases hr : rtUdpSocket cfg o L with
  | mk udpFd L' =>
    rw [hr] at h
    cases udpFd with
    | none => cases h
    | some udpFd => exact rtStart_appFd h

theorem natTConnect_transfers (o : NatTOutcome) (L : Resources) :
    L.Transfers 0 (natTConnect o L).2 (tokens .fd ((natTConnect o L).1.bind (·.udpFd))) := by
  cases o with
  | noRelay => exact .refl L 0
  | noAnswer => exact open_close_transfers L
  | sameLan e => exact open_close_transfers L
  | relay e => exact .acquire L .fd

end SoftEtherVpn.Connect
