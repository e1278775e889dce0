import SoftEtherVpn.Connect.Transport

/-!
# The connection record and its teardown

`softether_connection_t` with the fields that own something or decide what is torn down.
The descriptor in `socketFd` may be the application end of the transport next to it; it
is then one token behind two fields.
-/

namespace SoftEtherVpn.Connect

open Foundation

inductive ConnState
  | disconnected
  | connecting
  | tlsHandshake
  | protocolHandshake
  | authenticating
  | sessionSetup
  | connected
  | disconnecting
  deriving DecidableEq, Repr

structure AdditionalSock where
  active : Bool
  socketFd : Option ℕ
  ssl : Option ℕ
  sslCtx : Option ℕ
  deriving DecidableEq, Repr

structure Connection where
  state : ConnState
  socketFd : Option ℕ
  ssl : Option ℕ
  sslCtx : Option ℕ
  natTTransport : Option RudpTransport
  usingNatT : Bool
  rudp : Option ℕ
  additional : List AdditionalSock
  udpOnly : Bool
  udpPort : ℕ
  isIpv6 : Bool
  serverIpStored : Bool
  usernameStored : Bool
  deriving DecidableEq, Repr

structure World where
  ledger : Resources
  conn : Connection

/-- `softether_close_additional`: what it releases, and the slots it leaves. -/
def closeAdditional (slots : List AdditionalSock) : List Resource × List AdditionalSock :=
  (slots.flatMap (fun s => if s.active then tokens .fd s.socketFd else []) ++
      slots.flatMap (fun s => tokens .ssl s.sslCtx),
    slots.map fun s =>
      if s.active then ⟨false, none, none, none⟩ else { s with sslCtx := none })

theorem closeAdditional_twice (slots : List AdditionalSock) :
    (closeAdditional (closeAdditional slots).2).1 = [] := by
  simp only [closeAdditional, List.append_eq_nil_iff, List.flatMap_eq_nil_iff, List.mem_map]
  constructor <;> rintro s ⟨s', -, rfl⟩ <;> cases s'.active <;> simp

/-- The primary context goes only if both fields are set. -/
def Connection.primarySsl (c : Connection) : Option ℕ :=
  if c.sslCtx = none then none else c.ssl

def Connection.transportResources (c : Connection) : List Resource :=
  c.natTTransport.toList.flatMap RudpTransport.resources

/-- Everything `softether_disconnect` gives back, in its order. -/
def Connection.teardown (c : Connection) : List Resource :=
  tokens .fd c.socketFd ++ (closeAdditional c.additional).1 ++ tokens .ssl c.primarySsl ++
    c.transportResources ++ tokens .rudp c.rudp

def Connection.idle (c : Connection) : Bool :=
  c.state = .disconnected ∨ c.state = .disconnecting

def softetherDisconnect (w : World) : World :=
  let c := w.conn
  if c.idle then w
  else
    { ledger := w.ledger.releaseAll c.teardown
      conn := { c with
        state := .disconnected
        socketFd := none
        ssl := if c.sslCtx = none then c.ssl else none
        sslCtx := if c.ssl ≠ none ∧ c.sslCtx = c.ssl then none else c.sslCtx
        natTTransport := none
        usingNatT := false
        rudp := none
        additional := (closeAdditional c.additional).2 } }

/-- The primary descriptor is the application end of the connection's own transport. -/
def Connection.SharesFd (c : Connection) : Prop :=
  c.socketFd ≠ none ∧ c.natTTransport.bind (·.appFd) = c.socketFd

instance (c : Connection) : Decidable c.SharesFd := inferInstanceAs (Decidable (_ ∧ _))

/-- What the connection owns besides its primary descriptor. -/
def Connection.besides (c : Connection) : List Resource :=
  (closeAdditional c.additional).1 ++ tokens .ssl c.primarySsl ++ c.transportResources ++
    tokens .rudp c.rudp

/-- The primary descriptor as far as it is its own. -/
def Connection.primaryFd (c : Connection) : List Resource :=
  if c.SharesFd then [] else tokens .fd c.socketFd

/-- What the connection owns, each token once. -/
def Connection.held (c : Connection) : List Resource := c.primaryFd ++ c.besides

theorem Connection.coe_held (c : Connection) :
    (c.held : Multiset Resource) = (closeAdditional c.additional).1 +
      (c.primaryFd + tokens .ssl c.primarySsl + c.transportResources + tokens .rudp c.rudp) := by
  simp only [Connection.held, Connection.besides, ← Multiset.coe_add]
  abel

theorem Connection.coe_teardown (c : Connection) :
    (c.teardown : Multiset Resource) = tokens .fd c.socketFd + c.besides := by
  rw [Multiset.coe_add]
  simp only [Connection.teardown, Connection.besides, List.append_assoc]

theorem Connection.coe_held_of_not_shares {c : Connection} (h : ¬ c.SharesFd) :
    (c.held : Multiset Resource) = tokens .fd c.socketFd + c.besides := by
  rw [Multiset.coe_add, Connection.held, Connection.primaryFd, if_neg h]

theorem Connection.held_of_shares {c : Connection} (h : c.SharesFd) : c.held = c.besides := by
  rw [Connection.held, Connection.primaryFd, if_pos h, List.nil_append]

/-- A shared descriptor is among the transport's. -/
theorem Connection.SharesFd.mem_besides {c : Connection} (h : c.SharesFd) :
    ∃ fd, c.socketFd = some fd ∧ (ResourceKind.fd, fd) ∈ c.besides := by
  obtain ⟨hne, happ⟩ := h
  obtain ⟨fd, hfd⟩ := Option.ne_none_iff_exists'.mp hne
  rw [hfd] at happ
  obtain ⟨t, ht, htapp⟩ := Option.bind_eq_some_iff.mp happ
  refine ⟨fd, hfd, ?_⟩
  simp [Connection.besides, Connection.transportResources, ht, RudpTransport.resources, htapp]

theorem softetherDisconnect_ledger {w : World} (h : w.conn.idle = false) :
    (softetherDisconnect w).ledger = w.ledger.releaseAll w.conn.teardown := by
  simp [softetherDisconnect, h]

theorem softetherDisconnect_of_idle {w : World} (h : w.conn.idle = true) :
    softetherDisconnect w = w := by
  simp [softetherDisconnect, h]

theorem softetherDisconnect_fresh {w : World} (h : w.ledger.Fresh) :
    (softetherDisconnect w).ledger.Fresh := by
  cases hidle : w.conn.idle with
  | true => rwa [softetherDisconnect_of_idle hidle]
  | false =>
    rw [softetherDisconnect_ledger hidle]
    exact h.releaseAll _

/-- As long as the primary descriptor is its own, the teardown gives back what is held. -/
theorem softetherDisconnect_transfers {w : World} (h : w.conn.idle = false)
    (hfd : ¬ w.conn.SharesFd) :
    w.ledger.Transfers w.conn.held (softetherDisconnect w).ledger 0 := by
  rw [softetherDisconnect_ledger h, Connection.coe_held_of_not_shares hfd,
    ← Connection.coe_teardown]
  exact .releaseAll w.ledger w.conn.teardown

/-- After the teardown nothing of it is live, whether or not a descriptor was closed twice. -/
theorem softetherDisconnect_live {w : World} {X : Multiset Resource} (hfresh : w.ledger.Fresh)
    (h : w.conn.idle = false) (hX : w.ledger.live = X + w.conn.held) :
    (softetherDisconnect w).ledger.live = X := by
  by_cases hfd : w.conn.SharesFd
  · obtain ⟨fd, hsock, hmem⟩ := hfd.mem_besides
    rw [Connection.held_of_shares hfd] at hX
    have hnodup := hfresh.nodup
    rw [hX, Multiset.nodup_add] at hnodup
    have hX' : (ResourceKind.fd, fd) ∉ X := fun h => Multiset.disjoint_left.mp hnodup.2.2 h hmem
    rw [softetherDisconnect_ledger h, Ledger.releaseAll_live, Connection.coe_teardown, hX, hsock,
      add_comm, tsub_add_eq_tsub_tsub_swap, add_tsub_cancel_left]
    rw [tokens_some, Multiset.coe_singleton, Multiset.sub_singleton,
      Multiset.erase_of_notMem hX']
  · have ht := (softetherDisconnect_transfers h hfd X hX).1
    rwa [add_zero] at ht

/-- A teardown that runs leaves nothing in the connection. -/
theorem softetherDisconnect_held {w : World} (h : w.conn.idle = false) :
    (softetherDisconnect w).conn.held = [] := by
  have hssl : (softetherDisconnect w).conn.primarySsl = none := by
    simp only [softetherDisconnect, h, Bool.false_eq_true, if_false, Connection.primarySsl]
    split_ifs <;> simp_all
  have hfd : (softetherDisconnect w).conn.primaryFd = [] := by
    simp [softetherDisconnect, h, Connection.primaryFd]
  have hbesides : (softetherDisconnect w).conn.besides = [] := by
    rw [Connection.besides, hssl]
    simp [softetherDisconnect, h, closeAdditional_twice, Connection.transportResources]
  rw [Connection.held, hfd, hbesides]
  rfl

end SoftEtherVpn.Connect
