import SoftEtherVpn.Connect.Hub

/-!
# Descriptors are closed once

A connection over its life: connects, disconnects, reconnects and additional connections
in any order. `softether_disconnect` closes `socketFd` and then destroys the transport,
which closes its own descriptors; when `socketFd` is the transport's application end, that
descriptor is closed twice. No other step closes a descriptor that it does not own.
-/

namespace SoftEtherVpn.Connect

open Foundation

inductive SessionEvent
  | configure (udpOnly : Bool) (udpPort : ℕ)
  | connect (useTcp forceNatT : Bool)
  | disconnect
  | reconnect (forceNatT : Bool)
  | additional (o : AdditionalOutcome)
  | call (e : HubEvent)
  deriving DecidableEq, Repr

/-- No call is running. -/
def HubPc.between : HubPc → Bool
  | .returned _ => true
  | _ => false

/-- `softether_reconnect` has what it needs. -/
def Connection.canReconnect (c : Connection) : Bool := c.serverIpStored && c.usernameStored

def sessionStep (s : Hub) : SessionEvent → Option Hub
  | .configure udpOnly udpPort =>
    if s.pc.between then
      some { s with
        world := { s.world with conn := { s.world.conn with udpOnly := udpOnly, udpPort := udpPort } } }
    else none
  | .connect useTcp forceNatT =>
    if s.pc.between then some (enterConnect useTcp forceNatT s.world) else none
  | .disconnect =>
    if s.pc.between then some { s with world := softetherDisconnect s.world } else none
  | .reconnect forceNatT =>
    if s.pc.between then
      if s.world.conn.canReconnect then
        some (enterConnect true forceNatT (softetherDisconnect s.world))
      else some { s with pc := .returned .unknown }
    else none
  | .additional o =>
    if s.pc.between then some { s with world := softetherAdditionalConnect o s.world } else none
  | .call e => hubStep s e

/-- The stages of a call that run `softether_disconnect`. -/
def HubPc.drops : HubPc → Bool
  | .dropTcp => true
  | .dropRace => true
  | .dropLogin => true
  | .abort _ => true
  | _ => false

/-- The step calls `softether_disconnect`. -/
def Hub.disconnects (s : Hub) : SessionEvent → Bool
  | .disconnect => true
  | .reconnect _ => s.world.conn.canReconnect
  | .call (.stage _) => s.pc.drops
  | _ => false

/-- A teardown does not meet a primary descriptor that is its transport's application end. -/
def SessionStepOk (s : Hub) (e : SessionEvent) : Prop :=
  s.disconnects e = true → s.world.conn.idle = false → ¬ s.world.conn.SharesFd

instance (s : Hub) (e : SessionEvent) : Decidable (SessionStepOk s e) :=
  inferInstanceAs (Decidable (_ → _ → ¬ _))

/-- The descriptors passed to `close`, in order. -/
def closedFds (L : Resources) : List Resource := L.released.filter fun r => r.1 = .fd

/-- No descriptor has been closed twice. -/
def ClosedOnce (L : Resources) : Prop := (closedFds L).Nodup

instance (L : Resources) : Decidable (ClosedOnce L) :=
  inferInstanceAs (Decidable (closedFds L).Nodup)

theorem closedOnce_of_sound {L : Resources} (h : L.Sound) : ClosedOnce L := h.once.filter _

theorem ClosedOnce.of_prefix {L L' : Resources} (h : ClosedOnce L')
    (hlog : L.released <+: L'.released) : ClosedOnce L :=
  h.sublist (hlog.filter _).sublist

/-- What the connection owns is live. -/
def World.Holds (w : World) : Prop := ∃ X, w.ledger.live = X + w.conn.held

/-- What a step does to the ledger: it closes nothing twice if `ok` holds, and something if
not. -/
structure Passes (w w' : World) (ok : Prop) : Prop where
  fresh : w'.ledger.Fresh
  holds : w'.Holds
  log : w.ledger.released <+: w'.ledger.released
  sound : ok → w.ledger.Sound → w'.ledger.Sound
  twice : ¬ ok → ¬ ClosedOnce w'.ledger

/-- The step takes from and gives to the connection only. -/
def Keeps (w w' : World) : Prop :=
  ∃ d, w.ledger.Transfers w.conn.held w'.ledger (d + w'.conn.held)

theorem Keeps.passes {w w' : World} (h : Keeps w w') (hfresh : w.ledger.Fresh) (hw : w.Holds) :
    Passes w w' True := by
  obtain ⟨d, ht⟩ := h
  obtain ⟨X, hX⟩ := hw
  obtain ⟨hlive, hf, hsound, hlog⟩ := ht X hX
  refine ⟨hf hfresh, ⟨X + d, ?_⟩, hlog, fun _ => hsound, fun h => absurd trivial h⟩
  rw [hlive, add_assoc]

theorem Passes.trans_keeps {w w' w'' : World} {ok : Prop} (h : Passes w w' ok)
    (hkeeps : Keeps w' w'') : Passes w w'' ok := by
  have h' := hkeeps.passes h.fresh h.holds
  refine ⟨h'.fresh, h'.holds, h.log.trans h'.log, ?_, ?_⟩
  · intro hok hsound
    exact h'.sound trivial (h.sound hok hsound)
  · intro hbad honce
    exact h.twice hbad (honce.of_prefix h'.log)

theorem Keeps.refl (w : World) : Keeps w w := ⟨0, by rw [zero_add]; exact .refl _ _⟩

theorem Keeps.trans {w w' w'' : World} (h : Keeps w w') (h' : Keeps w' w'') : Keeps w w'' := by
  obtain ⟨d, ht⟩ := h
  obtain ⟨d', ht'⟩ := h'
  refine ⟨d + d', ht.trans ?_⟩
  rw [add_assoc]
  exact ht'.frame d

/-- A change of the record that does not name anything new. -/
theorem Keeps.of_ledger_eq {w w' : World} (hledger : w'.ledger = w.ledger)
    (hle : (w'.conn.held : Multiset Resource) ≤ w.conn.held) : Keeps w w' := by
  have ht := Ledger.Transfers.refl w.ledger 0
  rw [Keeps, hledger]
  exact ht.drop (by rwa [add_zero])

theorem softetherDisconnect_passes {w : World} (hfresh : w.ledger.Fresh) (hw : w.Holds) :
    Passes w (softetherDisconnect w) (w.conn.idle = false → ¬ w.conn.SharesFd) := by
  cases hidle : w.conn.idle with
  | true =>
    rw [softetherDisconnect_of_idle hidle]
    exact ⟨hfresh, hw, List.prefix_rfl, fun _ => id, fun h => absurd (by simp) h⟩
  | false =>
    obtain ⟨X, hX⟩ := hw
    have hheld := softetherDisconnect_held hidle
    have hlog := softetherDisconnect_ledger hidle
    refine ⟨softetherDisconnect_fresh hfresh, ⟨X, ?_⟩, ?_, ?_, ?_⟩
    · rw [softetherDisconnect_live hfresh hidle hX, hheld]
      simp
    · rw [hlog, Ledger.releaseAll_released]
      exact List.prefix_append _ _
    · intro hok
      exact (softetherDisconnect_transfers hidle (hok rfl) X hX).2.2.1
    · intro hbad honce
      have hshares : w.conn.SharesFd := by simpa using hbad
      obtain ⟨fd, hsock, hmem⟩ := hshares.mem_besides
      have hteardown : w.conn.teardown = (ResourceKind.fd, fd) :: w.conn.besides := by
        simp [Connection.teardown, Connection.besides, hsock]
      rw [ClosedOnce, closedFds, hlog, Ledger.releaseAll_released, hteardown, List.filter_append,
        List.filter_cons_of_pos (by simp)] at honce
      have hnodup := (List.nodup_append'.mp honce).2.1
      exact (List.nodup_cons.mp hnodup).1 (List.mem_filter.mpr ⟨hmem, by simp⟩)

/-! ### The stages only take from and give to the connection -/

/-- What a changed record names, measured by its parts. -/
theorem Connection.held_le {c c' : Connection} (f s t r : Multiset Resource)
    (hadd : c'.additional = c.additional)
    (hfd : (c'.primaryFd : Multiset Resource) ≤ c.primaryFd + f)
    (hssl : (tokens .ssl c'.primarySsl : Multiset Resource) ≤ tokens .ssl c.primarySsl + s)
    (htr : (c'.transportResources : Multiset Resource) ≤ c.transportResources + t)
    (hrudp : (tokens .rudp c'.rudp : Multiset Resource) ≤ tokens .rudp c.rudp + r) :
    (c'.held : Multiset Resource) ≤ c.held + (f + s + t + r) := by
  rw [Connection.coe_held, Connection.coe_held, hadd]
  calc ((closeAdditional c.additional).1 + (c'.primaryFd + tokens .ssl c'.primarySsl +
          c'.transportResources + tokens .rudp c'.rudp) : Multiset Resource)
      ≤ (closeAdditional c.additional).1 + ((c.primaryFd + f) + (tokens .ssl c.primarySsl + s) +
          (c.transportResources + t) + (tokens .rudp c.rudp + r)) := by gcongr
    _ = _ := by abel

theorem Connection.primaryFd_le (c : Connection) :
    (c.primaryFd : Multiset Resource) ≤ tokens .fd c.socketFd := by
  unfold Connection.primaryFd
  split_ifs
  · simp
  · exact le_rfl

/-- A primary descriptor that is the application end of the transport is not counted. -/
theorem Connection.primaryFd_app {c : Connection} {t : RudpTransport}
    (hsock : c.socketFd = t.appFd) (htr : c.natTTransport = some t) : c.primaryFd = [] := by
  unfold Connection.primaryFd
  split_ifs with hshares
  · rfl
  · have hnone : t.appFd = none := by
      by_contra hne
      exact hshares ⟨by rwa [hsock], by rw [htr, hsock]; rfl⟩
    rw [hsock, hnone]
    rfl

theorem tcpStage_keeps (forceNatT : Bool) (a : TcpAnswers) (w : World) :
    Keeps w (tcpStage forceNatT a w).2 := by
  obtain ⟨fd, ht, -, ⟨-, -, hconn⟩ | ⟨-, rfl, hconn⟩⟩ := tcpStage_spec forceNatT a w
  · refine ht.drop ?_
    have hle : (({ w.conn with socketFd := fd } : Connection).held : Multiset Resource) ≤
        w.conn.held + (tokens .fd fd + 0 + 0 + 0) :=
      Connection.held_le _ 0 0 0 rfl ((Connection.primaryFd_le _).trans le_add_self) le_self_add
        le_self_add le_self_add
    rw [hconn]
    simpa using hle
  · refine ht.drop ?_
    rw [hconn]
    simp

theorem performTlsHandshake_keeps (o : HandshakeOutcome) (w : World) :
    Keeps w (performTlsHandshake o w).2 := by
  by_cases hsock : w.conn.socketFd = none
  · rw [performTlsHandshake, if_pos hsock]
    exact .refl w
  · rcases performTlsHandshake_spec o hsock with ⟨n, -, ht, hconn⟩ | ⟨-, ht, hconn | hconn⟩
    · refine ht.drop ?_
      have hle : ((performTlsHandshake o w).2.conn.held : Multiset Resource) ≤
          w.conn.held + (0 + tokens .ssl (some n) + 0 + 0) := by
        rw [hconn]
        exact Connection.held_le 0 _ 0 0 rfl le_self_add le_add_self le_self_add le_self_add
      simpa using hle
    · refine ht.drop ?_
      rw [hconn, add_zero]
      exact le_rfl
    · refine ht.drop ?_
      have hle : ((performTlsHandshake o w).2.conn.held : Multiset Resource) ≤
          w.conn.held + (0 + 0 + 0 + 0) := by
        rw [hconn]
        exact Connection.held_le 0 0 0 0 rfl le_self_add (by simp [Connection.primarySsl])
          le_self_add le_self_add
      simpa using hle

theorem softetherProtocolLogin_keeps (useTcp : Bool) (a : StageAnswers) (w : World) :
    Keeps w (softetherProtocolLogin useTcp a w).2 := by
  by_cases hfails : WatermarkFails a w.conn
  · rw [softetherProtocolLogin, if_pos hfails]
    exact .refl w
  · obtain ⟨rudp, -, ht, hconn, -⟩ := softetherProtocolLogin_spec useTcp a hfails
    refine ht.drop ?_
    have hle : ((softetherProtocolLogin useTcp a w).2.conn.held : Multiset Resource) ≤
        w.conn.held + (0 + 0 + 0 + tokens .rudp rudp) := by
      rw [hconn]
      exact Connection.held_le 0 0 0 _ rfl le_self_add le_self_add le_self_add le_add_self
    simpa using hle

theorem softetherTryNatTConnect_keeps (ip : Ip) (a : StageAnswers) (w : World) :
    Keeps w (softetherTryNatTConnect ip a w).2 := by
  obtain ⟨orphans, -, ⟨t, -, -, ht, hconn⟩ | ⟨-, ht, hconn⟩⟩ := softetherTryNatTConnect_spec ip a w
  · refine ht.drop ?_
    have hle : ((softetherTryNatTConnect ip a w).2.conn.held : Multiset Resource) ≤
        w.conn.held + (0 + 0 + t.resources + 0) := by
      rw [hconn]
      refine Connection.held_le 0 0 _ 0 rfl ?_ le_self_add ?_ le_self_add
      · rw [Connection.primaryFd_app (t := t) rfl rfl]
        simp
      · change (([t].flatMap RudpTransport.resources : List Resource) : Multiset Resource) ≤ _
        rw [List.flatMap_singleton]
        exact le_add_self
    refine hle.trans ?_
    rw [zero_add, zero_add, add_zero]
    gcongr
    exact le_add_self
  · refine ht.drop ?_
    rw [hconn]
    exact le_self_add

theorem softetherAdditionalConnect_keeps (o : AdditionalOutcome) (w : World) :
    Keeps w (softetherAdditionalConnect o w) := by
  obtain ⟨d, ht, -⟩ := softetherAdditionalConnect_transfers o w
  exact ⟨d, ht⟩

/-- The connection without its transport. -/
theorem Connection.held_drop_transport {c : Connection} (h : c.socketFd = none) :
    (c.held : Multiset Resource) =
      ({ c with natTTransport := none } : Connection).held + c.transportResources := by
  have hfd : ∀ tr, ({ c with natTTransport := tr } : Connection).primaryFd = [] := by
    intro tr
    simp [Connection.primaryFd, h]
  have hfd' : c.primaryFd = [] := hfd c.natTTransport
  rw [Connection.coe_held, Connection.coe_held, hfd none, hfd']
  change _ = (closeAdditional c.additional).1 + ((([] : List Resource) : Multiset Resource) +
    tokens .ssl c.primarySsl + 0 + tokens .rudp c.rudp) + (c.transportResources : Multiset Resource)
  abel

theorem enterConnect_keeps (useTcp forceNatT : Bool) (w : World) :
    Keeps w (enterConnect useTcp forceNatT w).world := by
  unfold enterConnect
  split_ifs with hsock
  · refine ⟨0, ?_⟩
    rw [Connection.held_drop_transport hsock]
    have ht := (Ledger.Transfers.releaseAll w.ledger w.conn.transportResources).frame
      ({ w.conn with natTTransport := none } : Connection).held
    rw [add_zero] at ht
    rw [zero_add]
    exact ht
  · exact .of_ledger_eq rfl le_rfl

/-- A failed TLS handshake over TCP closes the primary descriptor. -/
theorem closePrimary_keeps {w : World} (h : ¬ w.conn.SharesFd) :
    Keeps w ⟨w.ledger.releaseAll (tokens .fd w.conn.socketFd),
      { w.conn with socketFd := none }⟩ := by
  have hheld : ({ w.conn with socketFd := none } : Connection).held = w.conn.besides := by
    rw [Connection.held, Connection.primaryFd]
    simp
    rfl
  refine ⟨0, ?_⟩
  have ht := (Ledger.Transfers.releaseAll w.ledger (tokens .fd w.conn.socketFd)).frame
    w.conn.besides
  rw [add_zero, add_comm] at ht
  rw [Connection.coe_held_of_not_shares h, hheld, zero_add]
  exact ht

/-! ### Runs -/

/-- What holds between any two steps of a connection's life. -/
structure SessionInv (s : Hub) : Prop where
  fresh : s.world.ledger.Fresh
  tls : s.pc = .tlsOverTcp → ¬ s.world.conn.SharesFd
  holds : match s.pc with
    | .racing _ race => ∃ X c, RaceInv (X + c.held) c ⟨s.world, race⟩
    | _ => s.world.Holds

/-- What a step does to the invariant and to the log of closed descriptors. -/
structure SessionMove (s : Hub) (e : SessionEvent) (t : Hub) : Prop where
  inv : SessionInv t
  log : s.world.ledger.released <+: t.world.ledger.released
  sound : SessionStepOk s e → s.world.ledger.Sound → t.world.ledger.Sound
  twice : ¬ SessionStepOk s e → ¬ ClosedOnce t.world.ledger

section

variable {s t : Hub} {e : SessionEvent} {a : StageAnswers}

theorem SessionInv.world_holds (h : SessionInv s) (hpc : s.pc.race? = none) : s.world.Holds := by
  have hholds := h.holds
  cases hs : s.pc <;> rw [hs] at hholds hpc <;> first | exact hholds | cases hpc

theorem holds_of_not_racing (hpc : t.pc.race? = none) (h : t.world.Holds) :
    match t.pc with
    | .racing _ race => ∃ X c, RaceInv (X + c.held) c ⟨t.world, race⟩
    | _ => t.world.Holds := by
  cases hs : t.pc <;> rw [hs] at hpc <;> first | exact h | cases hpc

/-- A step outside the race. -/
theorem Passes.move {ok : Prop} (h : Passes s.world t.world ok) (ht : t.pc.race? = none)
    (htls : t.pc = .tlsOverTcp → ¬ t.world.conn.SharesFd) (hok : SessionStepOk s e ↔ ok) :
    SessionMove s e t :=
  ⟨⟨h.fresh, htls, holds_of_not_racing ht h.holds⟩, h.log, fun ho => h.sound (hok.mp ho),
    fun ho => h.twice (mt hok.mpr ho)⟩

/-- A step into the race. -/
theorem Passes.move_race {ok : Prop} {w : World} {call : Call} {fallback : Bool}
    (h : Passes s.world w ok) (hok : SessionStepOk s e ↔ ok) :
    SessionMove s e ⟨w, call, .racing fallback (startRace w).race⟩ := by
  obtain ⟨X, hX⟩ := h.holds
  have hrace : RaceInv (X + w.conn.held) w.conn (startRace w) :=
    startRace_inv (hX.trans (add_zero _).symm)
  exact ⟨⟨h.fresh, by simp, X, w.conn, hrace⟩, h.log, fun ho => h.sound (hok.mp ho),
    fun ho => h.twice (mt hok.mpr ho)⟩

/-- A stage that takes from and gives to the connection only. -/
theorem SessionInv.move_keeps (hinv : SessionInv s) (hs : s.pc.race? = none)
    (h : Keeps s.world t.world) (ht : t.pc.race? = none)
    (htls : t.pc = .tlsOverTcp → ¬ t.world.conn.SharesFd) (hok : SessionStepOk s e) :
    SessionMove s e t :=
  (h.passes hinv.fresh (hinv.world_holds hs)).move ht htls (iff_of_true hok trivial)

theorem resolving_closes (hinv : SessionInv s) (hpc : s.pc = .resolving)
    (h : stageStep s a = some t) : SessionMove s (.call (.stage a)) t := by
  have hs : s.pc.race? = none := by rw [hpc]; rfl
  have hok : SessionStepOk s (.call (.stage a)) := by
    simp [SessionStepOk, Hub.disconnects, hpc, HubPc.drops]
  simp only [stageStep, hpc] at h
  cases hr : a.resolved with
  | none =>
    rw [hr] at h
    obtain rfl := Option.some.inj h
    exact hinv.move_keeps hs (.of_ledger_eq rfl le_rfl) rfl nofun hok
  | some ip =>
    rw [hr] at h
    dsimp only at h
    split_ifs at h
    · obtain rfl := Option.some.inj h
      have hpasses := (Keeps.refl s.world).passes hinv.fresh (hinv.world_holds hs)
      exact hpasses.move_race (iff_of_true hok trivial)
    · obtain rfl := Option.some.inj h
      exact hinv.move_keeps hs (.refl _) rfl nofun hok

/-- A descriptor that is not handed out yet is not the transport's. -/
theorem not_sharesFd_of_new {w : World} (hfresh : w.ledger.Fresh) (hw : w.Holds) {fd : Option ℕ}
    (hnew : ∀ n ∈ fd, w.ledger.next ≤ n) :
    ¬ ({ w.conn with socketFd := fd } : Connection).SharesFd := by
  rintro ⟨hne, happ⟩
  obtain ⟨n, rfl⟩ := Option.ne_none_iff_exists'.mp hne
  obtain ⟨tr, htr, htapp⟩ := Option.bind_eq_some_iff.mp happ
  obtain ⟨X, hX⟩ := hw
  have hmem : (ResourceKind.fd, n) ∈ w.conn.held := by
    have htr' : w.conn.natTTransport = some tr := htr
    simp [Connection.held, Connection.besides, Connection.transportResources, htr',
      RudpTransport.resources, htapp]
  have hlive : (ResourceKind.fd, n) ∈ w.ledger.live := by
    rw [hX]
    exact Multiset.mem_add.mpr (.inr hmem)
  have hlt : n < w.ledger.next := hfresh.bound _ hlive
  exact absurd (hnew n rfl) (not_le.mpr hlt)

theorem tcpConnecting_closes (hinv : SessionInv s) (hpc : s.pc = .tcpConnecting)
    (h : stageStep s a = some t) : SessionMove s (.call (.stage a)) t := by
  have hs : s.pc.race? = none := by rw [hpc]; rfl
  have hok : SessionStepOk s (.call (.stage a)) := by
    simp [SessionStepOk, Hub.disconnects, hpc, HubPc.drops]
  have hkeeps := tcpStage_keeps s.call.forceNatT a.tcp s.world
  obtain ⟨fd, -, hnew, hcases⟩ := tcpStage_spec s.call.forceNatT a.tcp s.world
  simp only [stageStep, hpc] at h
  cases hr : tcpStage s.call.forceNatT a.tcp s.world with
  | mk ok w =>
    rw [hr] at h hkeeps hcases
    cases ok with
    | true =>
      obtain rfl := Option.some.inj h
      rcases hcases with ⟨-, -, hconn⟩ | ⟨hfalse, -⟩
      · refine hinv.move_keeps hs hkeeps rfl ?_ hok
        intro _
        change ¬ w.conn.SharesFd
        rw [hconn]
        exact not_sharesFd_of_new hinv.fresh (hinv.world_holds hs) hnew
      · cases hfalse
    | false =>
      obtain rfl := Option.some.inj h
      exact hinv.move_keeps hs hkeeps rfl nofun hok

theorem performTlsHandshake_sharesFd (o : HandshakeOutcome) (w : World) :
    (performTlsHandshake o w).2.conn.SharesFd ↔ w.conn.SharesFd := by
  unfold performTlsHandshake
  split_ifs
  · rfl
  · cases o <;> rfl

theorem tlsOverTcp_closes (hinv : SessionInv s) (hpc : s.pc = .tlsOverTcp)
    (h : stageStep s a = some t) : SessionMove s (.call (.stage a)) t := by
  have hs : s.pc.race? = none := by rw [hpc]; rfl
  have hok : SessionStepOk s (.call (.stage a)) := by
    simp [SessionStepOk, Hub.disconnects, hpc, HubPc.drops]
  have hkeeps := performTlsHandshake_keeps a.tls s.world
  have hfd := mt (performTlsHandshake_sharesFd a.tls s.world).mp (hinv.tls hpc)
  simp only [stageStep, hpc] at h
  cases hr : performTlsHandshake a.tls s.world with
  | mk err w =>
    rw [hr] at h hkeeps hfd
    cases err with
    | none =>
      obtain rfl := Option.some.inj h
      exact hinv.move_keeps hs (hkeeps.trans (.of_ledger_eq rfl le_rfl)) rfl nofun hok
    | _ =>
      obtain rfl := Option.some.inj h
      exact hinv.move_keeps hs (hkeeps.trans (closePrimary_keeps hfd)) rfl nofun hok

/-- A stage that runs the teardown and then only takes from and gives to the connection. -/
theorem SessionInv.move_disconnect (hinv : SessionInv s) (hs : s.pc.race? = none)
    (h : Keeps (softetherDisconnect s.world) t.world) (ht : t.pc.race? = none)
    (htls : t.pc ≠ .tlsOverTcp) (hdrops : s.disconnects e = true) : SessionMove s e t := by
  have hpasses := softetherDisconnect_passes hinv.fresh (hinv.world_holds hs)
  refine (hpasses.trans_keeps h).move ht (fun hpc => absurd hpc htls) ?_
  simp [SessionStepOk, hdrops]

theorem dropTcp_closes (hinv : SessionInv s) (hpc : s.pc = .dropTcp)
    (h : stageStep s a = some t) : SessionMove s (.call (.stage a)) t := by
  have hs : s.pc.race? = none := by rw [hpc]; rfl
  simp only [stageStep, hpc] at h
  obtain rfl := Option.some.inj h
  refine (softetherDisconnect_passes hinv.fresh (hinv.world_holds hs)).move_race ?_
  simp [SessionStepOk, Hub.disconnects, hpc, HubPc.drops]

/-- The race hands over what its winner holds; what the connection held before stays live. -/
theorem RaceInv.returned_holds {X : Multiset Resource} {c : Connection} {r : RaceState} {code : ℤ}
    (hinv : RaceInv (X + c.held) c r) (hret : r.race.main = .returned code) : r.world.Holds := by
  obtain ⟨orphans, hlive⟩ := hinv.covers
  have hconn := hinv.conn
  rw [hret] at hconn
  rcases hconn with ⟨-, q, hq, hok, hconn⟩ | ⟨-, hconn⟩
  · obtain ⟨tr, ssl, hwon, -⟩ := hinv.won hret hq hok
    obtain ⟨rest, hrest, -⟩ := hinv.held_split hret hq hok
    have hle : (r.world.conn.held : Multiset Resource) ≤
        c.held + (0 + tokens .ssl (some ssl) + tr.resources + 0) := by
      rw [hconn, hwon]
      refine Connection.held_le 0 _ _ 0 rfl ?_ le_add_self ?_ le_self_add
      · rw [Connection.primaryFd_app (t := tr) rfl rfl]
        simp
      · change (([tr].flatMap RudpTransport.resources : List Resource) : Multiset Resource) ≤ _
        rw [List.flatMap_singleton]
        exact le_add_self
    obtain ⟨d, hd⟩ := Multiset.le_iff_exists_add.mp hle
    refine ⟨X + orphans + rest + d, ?_⟩
    have hheld : c.held + q.result.held = d + r.world.conn.held := by
      rw [hwon, TransportResult.held_won, add_comm d, ← hd]
      simp [add_comm]
    calc r.world.ledger.live = X + orphans + rest + (c.held + q.result.held) := by
          rw [hlive, hrest]
          abel
      _ = X + orphans + rest + d + r.world.conn.held := by
          rw [hheld]
          abel
  · refine ⟨X + orphans + r.race.held, ?_⟩
    rw [hlive, hconn]
    abel

/-- The ledger as the race left it, with the fields it handed over. -/
theorem racing_closes {fallback : Bool} {race : Race} (hinv : SessionInv s)
    (hpc : s.pc = .racing fallback race) (h : stageStep s a = some t) :
    SessionMove s (.call (.stage a)) t := by
  have hok : SessionStepOk s (.call (.stage a)) := by
    simp [SessionStepOk, Hub.disconnects, hpc, HubPc.drops]
  obtain ⟨X, c, hrace⟩ : ∃ X c, RaceInv (X + c.held) c ⟨s.world, race⟩ := by
    simpa only [hpc] using hinv.holds
  simp only [stageStep, hpc] at h
  cases hmain : race.main with
  | returned code =>
    rw [hmain] at h
    have hw : s.world.Holds := hrace.returned_holds hmain
    have hpasses := (Keeps.refl s.world).passes hinv.fresh hw
    have hlogin : Keeps s.world s.toLogin.world := .of_ledger_eq rfl le_rfl
    dsimp only at h
    split_ifs at h
    · obtain rfl := Option.some.inj h
      exact Passes.move hpasses rfl (fun hpc => by cases hpc) (iff_of_true hok trivial)
    · obtain rfl := Option.some.inj h
      exact Passes.move (hpasses.trans_keeps hlogin) rfl (fun hpc => by cases hpc)
        (iff_of_true hok trivial)
  | _ =>
    rw [hmain] at h
    cases h

theorem raceEvent_closes {e : RaceEvent} (hinv : SessionInv s)
    (h : hubStep s (.race e) = some t) : SessionMove s (.call (.race e)) t := by
  have hok : SessionStepOk s (.call (.race e)) := by simp [SessionStepOk, Hub.disconnects]
  simp only [hubStep] at h
  cases hpc : s.pc with
  | racing fallback race =>
    rw [hpc] at h
    obtain ⟨r, hr, rfl⟩ := Option.map_eq_some_iff.mp h
    obtain ⟨X, c, hrace⟩ : ∃ X c, RaceInv (X + c.held) c ⟨s.world, race⟩ := by
      simpa only [hpc] using hinv.holds
    obtain ⟨hfresh, hsound, hlog⟩ := raceStep_ledger hrace hr
    exact ⟨⟨hfresh hinv.fresh, nofun, X, c, raceStep_inv hrace hr⟩, hlog, fun _ => hsound,
      fun hbad => absurd hok hbad⟩
  | _ =>
    rw [hpc] at h
    cases h

theorem afterLogin_closes {first : Bool} {r : Err × World} (hinv : SessionInv s)
    (hs : s.pc.race? = none) (h : Keeps s.world r.2) (hok : SessionStepOk s e) :
    SessionMove s e (afterLogin first r s) := by
  simp only [afterLogin]
  split_ifs <;> exact hinv.move_keeps hs h rfl nofun hok

theorem natTFallback_closes (hinv : SessionInv s) (hpc : s.pc = .natTFallback)
    (h : stageStep s a = some t) : SessionMove s (.call (.stage a)) t := by
  have hs : s.pc.race? = none := by rw [hpc]; rfl
  have hok : SessionStepOk s (.call (.stage a)) := by
    simp [SessionStepOk, Hub.disconnects, hpc, HubPc.drops]
  have hkeeps := softetherTryNatTConnect_keeps s.call.ip a s.world
  simp only [stageStep, hpc] at h
  cases hr : softetherTryNatTConnect s.call.ip a s.world with
  | mk err w =>
    rw [hr] at h hkeeps
    cases err <;> obtain rfl := Option.some.inj h <;>
      exact hinv.move_keeps hs hkeeps rfl nofun hok

theorem tlsOverNatT_closes (hinv : SessionInv s) (hpc : s.pc = .tlsOverNatT)
    (h : stageStep s a = some t) : SessionMove s (.call (.stage a)) t := by
  have hs : s.pc.race? = none := by rw [hpc]; rfl
  have hok : SessionStepOk s (.call (.stage a)) := by
    simp [SessionStepOk, Hub.disconnects, hpc, HubPc.drops]
  have hkeeps := performTlsHandshake_keeps a.tls s.world
  simp only [stageStep, hpc] at h
  cases hr : performTlsHandshake a.tls s.world with
  | mk err w =>
    rw [hr] at h hkeeps
    cases err <;> obtain rfl := Option.some.inj h <;>
      exact hinv.move_keeps hs hkeeps rfl nofun hok

theorem finishing_closes (hinv : SessionInv s) (hpc : s.pc = .finishing)
    (h : stageStep s a = some t) : SessionMove s (.call (.stage a)) t := by
  have hs : s.pc.race? = none := by rw [hpc]; rfl
  have hok : SessionStepOk s (.call (.stage a)) := by
    simp [SessionStepOk, Hub.disconnects, hpc, HubPc.drops]
  have hstate : Keeps s.world
      { s.world with conn := { s.world.conn with state := .connected } } :=
    .of_ledger_eq rfl le_rfl
  simp only [stageStep, hpc] at h
  split_ifs at h
  · obtain rfl := Option.some.inj h
    exact hinv.move_keeps hs hstate rfl nofun hok
  · obtain rfl := Option.some.inj h
    refine hinv.move_keeps hs ?_ rfl nofun hok
    cases a.additional with
    | none => exact hstate
    | some o => exact hstate.trans (softetherAdditionalConnect_keeps o _)

/-- What any stage of a call does. -/
theorem stageStep_closes (hinv : SessionInv s) (h : stageStep s a = some t) :
    SessionMove s (.call (.stage a)) t := by
  cases hpc : s.pc with
  | resolving => exact resolving_closes hinv hpc h
  | tcpConnecting => exact tcpConnecting_closes hinv hpc h
  | tlsOverTcp => exact tlsOverTcp_closes hinv hpc h
  | dropTcp => exact dropTcp_closes hinv hpc h
  | racing fallback race => exact racing_closes hinv hpc h
  | natTFallback => exact natTFallback_closes hinv hpc h
  | tlsOverNatT => exact tlsOverNatT_closes hinv hpc h
  | finishing => exact finishing_closes hinv hpc h
  | loginFirst =>
    simp only [stageStep, hpc] at h
    obtain rfl := Option.some.inj h
    exact afterLogin_closes hinv (by rw [hpc]; rfl) (softetherProtocolLogin_keeps _ _ _)
      (by simp [SessionStepOk, Hub.disconnects, hpc, HubPc.drops])
  | loginSecond =>
    simp only [stageStep, hpc] at h
    obtain rfl := Option.some.inj h
    exact afterLogin_closes hinv (by rw [hpc]; rfl) (softetherProtocolLogin_keeps _ _ _)
      (by simp [SessionStepOk, Hub.disconnects, hpc, HubPc.drops])
  | dropRace =>
    simp only [stageStep, hpc] at h
    obtain rfl := Option.some.inj h
    exact hinv.move_disconnect (by rw [hpc]; rfl) (.of_ledger_eq rfl le_rfl) rfl nofun
      (by simp [Hub.disconnects, hpc, HubPc.drops])
  | dropLogin =>
    simp only [stageStep, hpc] at h
    obtain rfl := Option.some.inj h
    exact hinv.move_disconnect (by rw [hpc]; rfl) (.refl _) rfl nofun
      (by simp [Hub.disconnects, hpc, HubPc.drops])
  | abort err =>
    simp only [stageStep, hpc] at h
    obtain rfl := Option.some.inj h
    exact hinv.move_disconnect (by rw [hpc]; rfl) (.refl _) rfl nofun
      (by simp [Hub.disconnects, hpc, HubPc.drops])
  | returned err => simp [stageStep, hpc] at h

theorem HubPc.not_busy {pc : HubPc} (h : pc.between = true) :
    pc.race? = none ∧ pc ≠ .tlsOverTcp := by
  cases pc <;> simp_all [HubPc.between, HubPc.race?]

/-- What any step of a connection's life does. -/
theorem sessionStep_move (hinv : SessionInv s) (h : sessionStep s e = some t) :
    SessionMove s e t := by
  cases e with
  | call e =>
    cases e with
    | stage a => exact stageStep_closes hinv h
    | race e => exact raceEvent_closes hinv h
  | configure udpOnly udpPort =>
    simp only [sessionStep] at h
    split_ifs at h with hbetween
    obtain rfl := Option.some.inj h
    exact hinv.move_keeps (HubPc.not_busy hbetween).1 (.of_ledger_eq rfl le_rfl)
      (HubPc.not_busy hbetween).1 (fun hpc => absurd hpc (HubPc.not_busy hbetween).2)
      (by simp [SessionStepOk, Hub.disconnects])
  | connect useTcp forceNatT =>
    simp only [sessionStep] at h
    split_ifs at h with hbetween
    obtain rfl := Option.some.inj h
    exact hinv.move_keeps (HubPc.not_busy hbetween).1 (enterConnect_keeps _ _ _) rfl nofun
      (by simp [SessionStepOk, Hub.disconnects])
  | disconnect =>
    simp only [sessionStep] at h
    split_ifs at h with hbetween
    obtain rfl := Option.some.inj h
    exact hinv.move_disconnect (HubPc.not_busy hbetween).1 (.refl _) (HubPc.not_busy hbetween).1 (HubPc.not_busy hbetween).2 rfl
  | reconnect forceNatT =>
    simp only [sessionStep] at h
    split_ifs at h with hbetween hcan
    · obtain rfl := Option.some.inj h
      exact hinv.move_disconnect (HubPc.not_busy hbetween).1 (enterConnect_keeps _ _ _) rfl nofun hcan
    · obtain rfl := Option.some.inj h
      exact hinv.move_keeps (HubPc.not_busy hbetween).1 (.refl _) rfl nofun
        (by simp [SessionStepOk, Hub.disconnects, hcan])
  | additional o =>
    simp only [sessionStep] at h
    split_ifs at h with hbetween
    obtain rfl := Option.some.inj h
    exact hinv.move_keeps (HubPc.not_busy hbetween).1 (softetherAdditionalConnect_keeps o _)
      (HubPc.not_busy hbetween).1 (fun hpc => absurd hpc (HubPc.not_busy hbetween).2)
      (by simp [SessionStepOk, Hub.disconnects])

end

/-- A log with a repetition stays so; one without comes from a sound ledger. -/
theorem SessionMove.closedOnce_iff {s t : Hub} {e : SessionEvent} (h : SessionMove s e t)
    (hsound : ClosedOnce s.world.ledger → s.world.ledger.Sound) :
    (ClosedOnce t.world.ledger ↔ ClosedOnce s.world.ledger ∧ SessionStepOk s e) ∧
      (ClosedOnce t.world.ledger → t.world.ledger.Sound) := by
  have hback : ClosedOnce t.world.ledger → ClosedOnce s.world.ledger ∧ SessionStepOk s e := by
    intro honce
    exact ⟨honce.of_prefix h.log, by_contra fun hbad => h.twice hbad honce⟩
  have hforth : ClosedOnce s.world.ledger ∧ SessionStepOk s e → t.world.ledger.Sound := by
    rintro ⟨honce, hok⟩
    exact h.sound hok (hsound honce)
  exact ⟨⟨hback, fun hs => closedOnce_of_sound (hforth hs)⟩, fun honce => hforth (hback honce)⟩

/-- A connection between two calls. -/
def Hub.resting (w : World) (err : Err) : Hub := ⟨w, ⟨true, false, .v6⟩, .returned err⟩

/-- Over any life of a connection, no descriptor is closed twice if and only if no teardown
meets a primary descriptor that is its transport's application end. -/
theorem sessionRun_closedOnce_iff {w : World} {err : Err} (hsound : w.ledger.Sound) (hw : w.Holds)
    {es : List SessionEvent} {s : Hub} (hrun : exec sessionStep (Hub.resting w err) es = some s) :
    ClosedOnce s.world.ledger ↔ Along sessionStep SessionStepOk (Hub.resting w err) es := by
  have hstart : SessionInv (Hub.resting w err) := ⟨hsound.toFresh, nofun, hw⟩
  have hiff := exec_iff_along
    (I := fun s => SessionInv s ∧ (ClosedOnce s.world.ledger → s.world.ledger.Sound))
    (P := fun s => ClosedOnce s.world.ledger) (C := SessionStepOk)
    (fun _ _ _ hi h => ⟨(sessionStep_move hi.1 h).inv,
      ((sessionStep_move hi.1 h).closedOnce_iff hi.2).2⟩)
    (fun _ _ _ hi h => ((sessionStep_move hi.1 h).closedOnce_iff hi.2).1)
    ⟨hstart, fun _ => hsound⟩ hrun
  exact hiff.trans (and_iff_right (closedOnce_of_sound hsound))

/-- A server that answers on every transport and accepts the login. -/
def StageAnswers.welcome : StageAnswers :=
  { resolved := some (.v4 1), tcp := ⟨true, [], true, .v4 1⟩, tls := .done, rendezvous := .noRelay
    allocated := true, opening := .started, established := true, watermark := 1
    rudpCreated := true, rudpFamilySet := true, auth := .none, additional := some .opened }

def answered (n : ℕ) : List SessionEvent := List.replicate n (.call (.stage .welcome))

/-- A connect over TCP, a reconnect and a disconnect. -/
def tcpLife : List SessionEvent :=
  [.configure false 0, .connect false false] ++ answered 5 ++ [.reconnect false] ++ answered 5 ++
    [.disconnect, .disconnect]

theorem tcpLife_closedOnce : ∃ s,
    exec sessionStep (Hub.resting freshWorld .none) tcpLife = some s ∧
      s.world.ledger.released ≠ [] ∧ ClosedOnce s.world.ledger := by
  have h : (exec sessionStep (Hub.resting freshWorld .none) tcpLife).map
      (fun s => s.world.ledger.released.isEmpty) = some false := by decide
  obtain ⟨s, hs, hne⟩ := Option.map_eq_some_iff.mp h
  have hsound : freshWorld.ledger.Sound := ⟨⟨by decide, by decide⟩, by decide, by decide⟩
  have hw : freshWorld.Holds := ⟨0, by decide⟩
  refine ⟨s, hs, ?_, (sessionRun_closedOnce_iff hsound hw hs).mpr (by decide)⟩
  intro hnil
  rw [hnil] at hne
  cases hne

/-- The direct transport wins the race, the login succeeds, the user disconnects. -/
def raceLife : List SessionEvent :=
  .connect true false :: answered 1 ++ soloRun.map (fun e => .call (.race e)) ++ answered 3 ++
    [.disconnect]

theorem raceLife_closed_twice : ∃ s,
    exec sessionStep (Hub.resting freshWorld .none) raceLife = some s ∧
      ¬ ClosedOnce s.world.ledger := by
  have h : (exec sessionStep (Hub.resting freshWorld .none) raceLife).map
      (fun s => decide (ClosedOnce s.world.ledger)) = some false := by decide
  obtain ⟨s, hs, hdup⟩ := Option.map_eq_some_iff.mp h
  exact ⟨s, hs, of_decide_eq_false hdup⟩

end SoftEtherVpn.Connect
