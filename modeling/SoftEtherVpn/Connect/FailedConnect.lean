import SoftEtherVpn.Connect.Hub

/-!
# What a failed connect leaves behind

`softether_disconnect` does nothing in the state DISCONNECTED. After a failed TCP or TLS
attempt the connection is in that state while the race runs, so a race winner whose login
ends at the watermark stays in the connection. Every other path of the call gives back
what it opened, apart from what the race and the transports themselves leave behind.
-/

namespace SoftEtherVpn.Connect

open Foundation

/-- What the fields of a connection name. -/
structure Connection.Owns (c : Connection) (sock tls : Option ℕ) (tr : Option RudpTransport)
    (accel : Option ℕ) : Prop where
  socketFd : c.socketFd = sock
  ssl : c.ssl = tls
  sslCtx : c.sslCtx = tls
  natTTransport : c.natTTransport = tr
  usingNatT : c.usingNatT = tr.isSome
  rudp : c.rudp = accel
  additional : (closeAdditional c.additional).1 = []

abbrev Connection.OwnsNothing (c : Connection) : Prop := c.Owns none none none none

/-- A failed call has to leave the connection so, with everything it opened released. -/
structure CleanAfter (base : Multiset Resource) (w : World) : Prop where
  state : w.conn.state = .disconnected
  fields : w.conn.OwnsNothing
  released : w.ledger.live = base

section

variable {c : Connection} {sock ssl rudp : Option ℕ} {t : RudpTransport}

theorem Connection.Owns.primarySsl {tr : Option RudpTransport} (h : c.Owns sock ssl tr rudp) :
    c.primarySsl = ssl := by
  rw [Connection.primarySsl, h.ssl, h.sslCtx]
  cases ssl <;> rfl

theorem Connection.Owns.besides {tr : Option RudpTransport} (h : c.Owns sock ssl tr rudp) :
    (c.besides : Multiset Resource) =
      tokens .ssl ssl + tr.toList.flatMap RudpTransport.resources + tokens .rudp rudp := by
  simp only [Connection.besides, h.additional, h.primarySsl, Connection.transportResources,
    h.natTTransport, h.rudp, List.nil_append, ← Multiset.coe_add]

theorem Connection.Owns.held (h : c.Owns sock ssl none rudp) :
    (c.held : Multiset Resource) = tokens .fd sock + tokens .ssl ssl + tokens .rudp rudp := by
  have hfd : ¬ c.SharesFd := by
    rintro ⟨hne, happ⟩
    rw [h.natTTransport] at happ
    exact hne happ.symm
  rw [Connection.coe_held_of_not_shares hfd, h.socketFd, h.besides]
  simp

theorem Connection.Owns.held_transport (h : c.Owns t.appFd ssl (some t) rudp)
    (happ : t.appFd ≠ none) :
    (c.held : Multiset Resource) = tokens .ssl ssl + t.resources + tokens .rudp rudp := by
  have hfd : c.SharesFd := by
    refine ⟨by rw [h.socketFd]; exact happ, ?_⟩
    rw [h.natTTransport, h.socketFd]
    rfl
  rw [Connection.held_of_shares hfd, h.besides]
  simp

theorem Connection.OwnsNothing.held (h : c.OwnsNothing) : (c.held : Multiset Resource) = 0 := by
  rw [Connection.Owns.held h]
  rfl

theorem Connection.Owns.congr {tr : Option RudpTransport} {c' : Connection}
    (h : c.Owns sock ssl tr rudp) (hsock : c'.socketFd = c.socketFd) (hssl : c'.ssl = c.ssl)
    (hctx : c'.sslCtx = c.sslCtx) (htr : c'.natTTransport = c.natTTransport)
    (hnat : c'.usingNatT = c.usingNatT) (hrudp : c'.rudp = c.rudp)
    (hadd : c'.additional = c.additional) : c'.Owns sock ssl tr rudp :=
  ⟨hsock.trans h.socketFd, hssl.trans h.ssl, hctx.trans h.sslCtx, htr.trans h.natTTransport,
    hnat.trans h.usingNatT, hrudp.trans h.rudp, by rw [hadd]; exact h.additional⟩

end

/-- A teardown that runs leaves nothing in the connection. -/
theorem softetherDisconnect_owns {w : World} {sock ssl rudp : Option ℕ} {tr : Option RudpTransport}
    (h : w.conn.Owns sock ssl tr rudp) (hidle : w.conn.idle = false) :
    (softetherDisconnect w).conn.OwnsNothing ∧
      (softetherDisconnect w).conn.state = .disconnected := by
  simp only [softetherDisconnect, hidle, Bool.false_eq_true, if_false]
  refine ⟨⟨rfl, ?_, ?_, rfl, rfl, rfl, closeAdditional_twice _⟩, trivial⟩
  · rw [h.ssl, h.sslCtx]
    cases ssl <;> rfl
  · rw [h.ssl, h.sslCtx]
    cases ssl <;> simp

/-! ### The stages -/

/-- The tokens in the hands of the call: the race's while it runs, else the connection's. -/
def Hub.held (s : Hub) : Multiset Resource :=
  match s.pc with
  | .racing _ race => race.held
  | _ => s.world.conn.held

/-- What a connection may look like before its first login. -/
def Connection.BeforeLogin (c : Connection) : Prop :=
  (c.OwnsNothing ∧ (c.state = .connecting ∨ c.state = .disconnected)) ∨
    (∃ fd ssl, c.Owns (some fd) (some ssl) none none ∧ c.state = .tlsHandshake) ∨
    ∃ t ssl, t.appFd ≠ none ∧ c.Owns t.appFd (some ssl) (some t) none ∧
      (c.state = .connecting ∨ c.state = .disconnected)

/-- What the connection looks like at each stage of the call. -/
def Hub.Shape (base : Multiset Resource) (s : Hub) : Prop :=
  let c := s.world.conn
  match s.pc with
  | .resolving => c.OwnsNothing ∧ c.state = .connecting
  | .tcpConnecting => c.OwnsNothing ∧ c.state = .connecting
  | .tlsOverTcp => ∃ fd, c.Owns (some fd) none none none ∧ c.state = .connecting
  | .dropTcp => c.OwnsNothing ∧ c.idle = false
  | .racing _ race =>
    ∃ c₀, c₀.OwnsNothing ∧ (c₀.state = .connecting ∨ c₀.state = .disconnected) ∧
      RaceInv base c₀ ⟨s.world, race⟩
  | .dropRace => False
  | .loginFirst => c.BeforeLogin
  | .dropLogin =>
    ∃ sock tls accel, c.Owns sock tls none accel ∧
      (c.idle = true → c.OwnsNothing ∧ c.state = .disconnected)
  | .natTFallback => c.OwnsNothing ∧ c.state = .disconnected
  | .tlsOverNatT => ∃ t, t.appFd ≠ none ∧ c.Owns t.appFd none (some t) none ∧
      c.state = .disconnected
  | .loginSecond => ∃ t ssl, t.appFd ≠ none ∧ c.Owns t.appFd (some ssl) (some t) none ∧
      c.state = .tlsHandshake
  | .finishing => ∃ sock tls tr accel, sock ≠ none ∧ c.Owns sock tls tr accel
  | .abort err => err ≠ .none ∧ c.state ≠ .disconnecting ∧
      ∃ sock tls tr accel, c.Owns sock tls tr accel
  | .returned err => err ≠ .none → c.state = .disconnected ∧
      ∃ sock tls tr accel, c.Owns sock tls tr accel

structure HubInv (base : Multiset Resource) (s : Hub) : Prop where
  fresh : s.world.ledger.Fresh
  shape : s.Shape base
  covers : ∃ orphans, s.world.ledger.live = base + orphans + s.held

/-- Nothing has been left behind so far, and what a failing call still holds is going to be
torn down. -/
def HubTidy (base : Multiset Resource) (s : Hub) : Prop :=
  let c := s.world.conn
  match s.pc with
  | .racing _ race => Tidy base ⟨s.world, race⟩
  | .abort _ => s.world.ledger.live = base + c.held ∧ (c.state = .disconnected → c.OwnsNothing)
  | .returned err => s.world.ledger.live = base + c.held ∧ (err ≠ .none → c.OwnsNothing)
  | _ => s.world.ledger.live = base + c.held

/-- The race is tidy, the NAT-T transport leaves nothing behind, and the first login does not
end at the watermark over a race winner while the connection counts as disconnected. -/
def HubStepOk (s : Hub) : HubEvent → Prop
  | .race e => ∀ race ∈ s.pc.race?, RaceStepOk ⟨s.world, race⟩ e
  | .stage a =>
    (s.pc = .loginFirst → ¬ (WatermarkFails a s.world.conn ∧ s.world.conn.usingNatT = true ∧
      s.world.conn.state = .disconnected)) ∧
    (s.pc = .natTFallback → ¬ NatTLeaks s.call.ip a)

instance (s : Hub) (e : HubEvent) : Decidable (HubStepOk s e) :=
  match e with
  | .race e => inferInstanceAs (Decidable (∀ race ∈ s.pc.race?, RaceStepOk ⟨s.world, race⟩ e))
  | .stage _ => inferInstanceAs (Decidable ((_ → ¬ (_ ∧ _ ∧ _)) ∧ (_ → ¬ _)))

/-- A step keeps the invariant, and keeps the call tidy exactly when it meets the condition. -/
structure HubMove (base : Multiset Resource) (s : Hub) (e : HubEvent) (t : Hub) : Prop where
  inv : HubInv base t
  tidy : HubTidy base t ↔ HubTidy base s ∧ HubStepOk s e

section

variable {base : Multiset Resource} {s t : Hub} {a : StageAnswers}

/-- The stages at which only the live tokens matter. -/
def HubPc.Plain : HubPc → Prop
  | .racing _ _ => False
  | .abort _ => False
  | .returned _ => False
  | _ => True

theorem Hub.held_of_plain (h : s.pc.Plain) : s.held = s.world.conn.held := by
  unfold Hub.held
  cases hpc : s.pc <;> first | rfl | exact (hpc ▸ h).elim

theorem hubTidy_of_plain (h : s.pc.Plain) :
    HubTidy base s ↔ s.world.ledger.live = base + s.world.conn.held := by
  unfold HubTidy
  cases hpc : s.pc <;> first | rfl | exact (hpc ▸ h).elim

/-- A step from a plain stage to one that is not the race; `Q` is what the later stage asks for
besides the live tokens, `d` is what the step leaves behind. -/
theorem HubInv.move {e : HubEvent} {d : Multiset Resource} {Q : Prop} (hinv : HubInv base s)
    (hs : s.pc.Plain) (ht : t.held = t.world.conn.held)
    (httidy : HubTidy base t ↔ t.world.ledger.live = base + t.world.conn.held ∧ Q)
    (htransfers : s.world.ledger.Transfers s.world.conn.held t.world.ledger
      (d + t.world.conn.held))
    (hshape : t.Shape base) (hok : HubStepOk s e ↔ d = 0 ∧ Q) : HubMove base s e t := by
  obtain ⟨orphans, hlive⟩ := hinv.covers
  rw [Hub.held_of_plain hs] at hlive
  obtain ⟨hlive', hexact⟩ := htransfers.orphans hlive
  refine ⟨⟨(htransfers _ hlive).2.1 hinv.fresh, hshape, _, by rw [ht]; exact hlive'⟩, ?_⟩
  rw [httidy, hubTidy_of_plain hs, hok, hexact, and_assoc]

theorem HubInv.move_plain {e : HubEvent} {d : Multiset Resource} (hinv : HubInv base s)
    (hs : s.pc.Plain) (ht : t.pc.Plain)
    (htransfers : s.world.ledger.Transfers s.world.conn.held t.world.ledger
      (d + t.world.conn.held))
    (hshape : t.Shape base) (hok : HubStepOk s e ↔ d = 0) : HubMove base s e t :=
  hinv.move (Q := True) hs (Hub.held_of_plain ht) (by rw [hubTidy_of_plain ht, and_true])
    htransfers hshape (by rw [hok, and_true])

/-- The call enters the race with a connection that owns nothing. -/
theorem HubInv.move_race {e : HubEvent} (hinv : HubInv base s) (hs : s.pc.Plain) {w : World}
    {call : Call} {fallback : Bool} (hfresh : w.ledger.Fresh)
    (hlive : ∀ X, s.world.ledger.live = X + s.world.conn.held → w.ledger.live = X)
    (howns : w.conn.OwnsNothing) (hstate : w.conn.state = .connecting ∨ w.conn.state = .disconnected)
    (hok : HubStepOk s e) :
    HubMove base s e ⟨w, call, .racing fallback (startRace w).race⟩ := by
  obtain ⟨orphans, hcovers⟩ := hinv.covers
  rw [Hub.held_of_plain hs] at hcovers
  have hlive' := hlive _ hcovers
  have hrace := startRace_inv hlive'
  refine ⟨⟨hfresh, ⟨w.conn, howns, hstate, hrace⟩, hrace.covers⟩, ?_⟩
  change Tidy base (startRace w) ↔ _
  rw [startRace_tidy, hubTidy_of_plain hs, and_iff_left hok, hlive', hcovers, add_left_inj]

theorem resolving_move (hinv : HubInv base s) (hpc : s.pc = .resolving)
    (h : stageStep s a = some t) : HubMove base s (.stage a) t := by
  have hplain : s.pc.Plain := by rw [hpc]; trivial
  have hok : HubStepOk s (.stage a) := by simp [HubStepOk, hpc]
  obtain ⟨howns, hstate⟩ : s.world.conn.OwnsNothing ∧ s.world.conn.state = .connecting := by
    simpa only [Hub.Shape, hpc] using hinv.shape
  simp only [stageStep, hpc] at h
  cases hr : a.resolved with
  | none =>
    rw [hr] at h
    obtain rfl := Option.some.inj h
    refine hinv.move (d := 0) (Q := True) hplain rfl ?_ ?_ ?_ (by simp [hok])
    · refine and_congr_right fun _ => iff_true_intro ?_
      intro _
      exact howns.congr rfl rfl rfl rfl rfl rfl rfl
    · rw [zero_add]
      exact .refl _ _
    · intro _
      exact ⟨rfl, _, _, _, _, howns.congr rfl rfl rfl rfl rfl rfl rfl⟩
  | some ip =>
    rw [hr] at h
    dsimp only at h
    split_ifs at h
    · obtain rfl := Option.some.inj h
      refine hinv.move_race hplain hinv.fresh ?_ howns (.inl hstate) hok
      intro X hX
      rwa [Connection.OwnsNothing.held howns, add_zero] at hX
    · obtain rfl := Option.some.inj h
      refine hinv.move_plain (d := 0) hplain trivial ?_ ⟨howns, hstate⟩ (by simp [hok])
      rw [zero_add]
      exact .refl _ _

theorem tcpConnecting_move (hinv : HubInv base s) (hpc : s.pc = .tcpConnecting)
    (h : stageStep s a = some t) : HubMove base s (.stage a) t := by
  have hplain : s.pc.Plain := by rw [hpc]; trivial
  have hok : HubStepOk s (.stage a) := by simp [HubStepOk, hpc]
  obtain ⟨howns, hstate⟩ : s.world.conn.OwnsNothing ∧ s.world.conn.state = .connecting := by
    simpa only [Hub.Shape, hpc] using hinv.shape
  obtain ⟨fd, ht, -, hcases⟩ := tcpStage_spec s.call.forceNatT a.tcp s.world
  simp only [stageStep, hpc] at h
  cases hr : tcpStage s.call.forceNatT a.tcp s.world with
  | mk ok w =>
    rw [hr] at h ht hcases
    rcases hcases with ⟨hok', hfd, hconn⟩ | ⟨hok', hfd, hconn⟩
    · dsimp only at hok' hconn
      subst hok'
      obtain rfl := Option.some.inj h
      obtain ⟨n, rfl⟩ := Option.ne_none_iff_exists'.mp hfd
      have howns' : w.conn.Owns (some n) none none none := by
        rw [hconn]
        exact ⟨rfl, howns.ssl, howns.sslCtx, howns.natTTransport, howns.usingNatT, howns.rudp,
          howns.additional⟩
      refine hinv.move_plain (d := 0) hplain trivial ?_ ⟨n, howns', ?_⟩ (by simp [hok])
      · rw [Connection.OwnsNothing.held howns, zero_add, howns'.held]
        exact ht
      · dsimp only
        rw [hconn]
        exact hstate
    · dsimp only at hok' hconn
      subst hok' hfd
      obtain rfl := Option.some.inj h
      refine hinv.move_plain (d := 0) hplain trivial ?_ ?_ (by simp [hok])
      · dsimp only
        rw [zero_add, hconn, Connection.OwnsNothing.held howns]
        exact ht
      · change w.conn.OwnsNothing ∧ w.conn.idle = false
        rw [hconn]
        exact ⟨howns, by simp [Connection.idle, hstate]⟩

theorem tlsOverTcp_move (hinv : HubInv base s) (hpc : s.pc = .tlsOverTcp)
    (h : stageStep s a = some t) : HubMove base s (.stage a) t := by
  have hplain : s.pc.Plain := by rw [hpc]; trivial
  have hok : HubStepOk s (.stage a) := by simp [HubStepOk, hpc]
  obtain ⟨fd, howns, -⟩ : ∃ fd, s.world.conn.Owns (some fd) none none none ∧
      s.world.conn.state = .connecting := by
    simpa only [Hub.Shape, hpc] using hinv.shape
  have hspec := performTlsHandshake_spec a.tls (w := s.world) (by rw [howns.socketFd]; simp)
  simp only [stageStep, hpc] at h
  cases hr : performTlsHandshake a.tls s.world with
  | mk err w =>
    rw [hr] at h hspec
    rcases hspec with ⟨n, herr, ht, hconn⟩ | ⟨herr, ht, hconn⟩
    · dsimp only at herr hconn
      subst herr
      obtain rfl := Option.some.inj h
      have howns' : (storeServer s.call.ip w.conn).Owns (some fd) (some n) none none := by
        rw [hconn]
        exact ⟨howns.socketFd, rfl, rfl, howns.natTTransport, howns.usingNatT, howns.rudp,
          howns.additional⟩
      refine hinv.move_plain (d := 0) hplain trivial ?_ ?_ (by simp [hok])
      · have hframe := ht.frame (tokens .fd (some fd))
        change s.world.ledger.Transfers _ w.ledger (0 + (storeServer s.call.ip w.conn).held)
        rw [howns.held, howns'.held]
        simpa using hframe
      · refine .inr (.inl ⟨fd, n, howns', ?_⟩)
        change w.conn.state = .tlsHandshake
        rw [hconn]
    · dsimp only at herr hconn
      subst herr
      obtain rfl := Option.some.inj h
      have hsock : w.conn.socketFd = some fd := by
        rcases hconn with hconn | hconn <;> rw [hconn] <;> exact howns.socketFd
      have howns' : ({ w.conn with socketFd := none } : Connection).OwnsNothing := by
        rcases hconn with hconn | hconn <;> rw [hconn]
        · exact ⟨rfl, howns.ssl, howns.sslCtx, howns.natTTransport, howns.usingNatT, howns.rudp,
            howns.additional⟩
        · exact ⟨rfl, howns.ssl, rfl, howns.natTTransport, howns.usingNatT, howns.rudp,
            howns.additional⟩
      refine hinv.move_plain (d := 0) hplain trivial ?_ ⟨howns', ?_⟩ (by simp [hok])
      · have hframe := ht.frame (tokens .fd (some fd))
        dsimp only
        rw [howns.held, zero_add, Connection.OwnsNothing.held howns', hsock]
        simpa using hframe.trans (.releaseAll _ _)
      · rcases hconn with hconn | hconn <;> simp [Connection.idle, hconn]

theorem dropTcp_move (hinv : HubInv base s) (hpc : s.pc = .dropTcp) (h : stageStep s a = some t) :
    HubMove base s (.stage a) t := by
  have hplain : s.pc.Plain := by rw [hpc]; trivial
  have hok : HubStepOk s (.stage a) := by simp [HubStepOk, hpc]
  obtain ⟨howns, hidle⟩ : s.world.conn.OwnsNothing ∧ s.world.conn.idle = false := by
    simpa only [Hub.Shape, hpc] using hinv.shape
  obtain ⟨howns', hstate⟩ := softetherDisconnect_owns howns hidle
  simp only [stageStep, hpc] at h
  obtain rfl := Option.some.inj h
  refine hinv.move_race hplain (softetherDisconnect_fresh hinv.fresh) ?_ howns' (.inr hstate) hok
  intro X hX
  exact softetherDisconnect_live hinv.fresh hidle hX

/-- The connection after a won race. -/
theorem promote_owns {c : Connection} (h : c.OwnsNothing) (tr : RudpTransport) (ssl : ℕ) :
    (promote c (.won tr ssl)).Owns tr.appFd (some ssl) (some tr) none :=
  ⟨rfl, rfl, rfl, rfl, rfl, h.rudp, h.additional⟩

/-- What the race hands over when it returns, and when that is all there is. -/
theorem RaceInv.returned {c : Connection} {r : RaceState} {code : ℤ} (hinv : RaceInv base c r)
    (hret : r.race.main = .returned code) (howns : c.OwnsNothing) :
    ((∃ tr ssl, tr.appFd ≠ none ∧ r.world.conn.Owns tr.appFd (some ssl) (some tr) none) ∨
        code ≠ 0 ∧ r.world.conn.OwnsNothing) ∧
      r.world.conn.state = c.state ∧
      (∃ orphans, r.world.ledger.live = base + orphans + r.world.conn.held) ∧
      (Tidy base r ↔ r.world.ledger.live = base + r.world.conn.held) := by
  obtain ⟨orphans, hlive⟩ := hinv.covers
  rcases hinv.tidy_iff_live hret with ⟨rfl, q, hq, hok, hconn, htidy⟩ | ⟨rfl, hconn, htidy⟩
  · obtain ⟨tr, ssl, hwon, happ, -⟩ := hinv.won hret hq hok
    obtain ⟨rest, hrest, -⟩ := hinv.held_split hret hq hok
    rw [hwon] at hconn
    have howns' := promote_owns howns tr ssl
    have hheld : q.result.held = r.world.conn.held := by
      rw [hwon, TransportResult.held_won, hconn, howns'.held_transport happ, add_comm]
      simp
    rw [← hheld]
    refine ⟨.inl ⟨tr, ssl, happ, hconn ▸ howns'⟩, by rw [hconn]; rfl, ⟨orphans + rest, ?_⟩, htidy⟩
    rw [hlive, hrest]
    abel
  · rw [hconn, howns.held]
    refine ⟨.inr ⟨by decide, howns⟩, rfl, ⟨orphans + r.race.held, ?_⟩, ?_⟩
    · rw [hlive]
      simp [add_assoc]
    · simpa using htidy

theorem racing_move {fallback : Bool} {race : Race} (hinv : HubInv base s)
    (hpc : s.pc = .racing fallback race) (h : stageStep s a = some t) :
    HubMove base s (.stage a) t := by
  have hok : HubStepOk s (.stage a) := by simp [HubStepOk, hpc]
  have htidy : HubTidy base s ↔ Tidy base ⟨s.world, race⟩ := by simp only [HubTidy, hpc]
  obtain ⟨c, howns, hstate, hrace⟩ : ∃ c₀ : Connection, c₀.OwnsNothing ∧
      (c₀.state = .connecting ∨ c₀.state = .disconnected) ∧ RaceInv base c₀ ⟨s.world, race⟩ := by
    simpa only [Hub.Shape, hpc] using hinv.shape
  simp only [stageStep, hpc] at h
  cases hmain : race.main with
  | returned code =>
    rw [hmain] at h
    obtain ⟨hcases, hstate', hcovers, htidy'⟩ := hrace.returned hmain howns
    dsimp only at h hcases hstate' hcovers htidy'
    have hvalid : ¬ (fallback = true ∧ code = 0 ∧
        (s.world.conn.socketFd = none ∨ s.world.conn.ssl = none)) := by
      rintro ⟨-, hcode, hnone⟩
      rcases hcases with ⟨tr, ssl, happ, ho⟩ | ⟨hne, -⟩
      · rw [ho.socketFd, ho.ssl] at hnone
        simp [happ] at hnone
      · exact hne hcode
    rw [if_neg hvalid] at h
    obtain rfl := Option.some.inj h
    refine ⟨⟨hinv.fresh, ?_, hcovers⟩, ?_⟩
    · rw [← hstate'] at hstate
      rcases hcases with ⟨tr, ssl, happ, ho⟩ | ⟨-, ho⟩
      · exact .inr (.inr ⟨tr, ssl, happ, ho.congr rfl rfl rfl rfl rfl rfl rfl, hstate⟩)
      · exact .inl ⟨ho.congr rfl rfl rfl rfl rfl rfl rfl, hstate⟩
    · rw [htidy, and_iff_left hok, htidy']
      rfl
  | _ =>
    rw [hmain] at h
    cases h

/-- A step of the race inside the call. -/
theorem race_move {e : RaceEvent} (hinv : HubInv base s) (h : hubStep s (.race e) = some t) :
    HubMove base s (.race e) t := by
  simp only [hubStep] at h
  cases hpc : s.pc with
  | racing fallback race =>
    rw [hpc] at h
    obtain ⟨r, hr, rfl⟩ := Option.map_eq_some_iff.mp h
    obtain ⟨c, howns, hstate, hrace⟩ : ∃ c₀ : Connection, c₀.OwnsNothing ∧
        (c₀.state = .connecting ∨ c₀.state = .disconnected) ∧ RaceInv base c₀ ⟨s.world, race⟩ := by
      simpa only [Hub.Shape, hpc] using hinv.shape
    have hrace' := raceStep_inv hrace hr
    refine ⟨⟨(raceStep_ledger hrace hr).1 hinv.fresh, ⟨c, howns, hstate, hrace'⟩,
      hrace'.covers⟩, ?_⟩
    have hok : HubStepOk s (.race e) ↔ RaceStepOk ⟨s.world, race⟩ e := by
      simp [HubStepOk, HubPc.race?, hpc]
    simp only [HubTidy, hpc, hok]
    exact raceStep_tidy hrace hr
  | _ =>
    rw [hpc] at h
    cases h

/-- A login over a connection that is not idle, whatever it answers. -/
theorem afterLogin_move {e : HubEvent} {first : Bool} {err : Err} {w : World}
    {sock tls accel : Option ℕ} {tr : Option RudpTransport} (hinv : HubInv base s)
    (hs : s.pc.Plain) (howns : w.conn.Owns sock tls tr accel) (hsock : sock ≠ none)
    (hidle : w.conn.idle = false)
    (ht : s.world.ledger.Transfers s.world.conn.held w.ledger w.conn.held)
    (hok : HubStepOk s e) : HubMove base s e (afterLogin first (err, w) s) := by
  have hstate : w.conn.state ≠ .disconnected ∧ w.conn.state ≠ .disconnecting := by
    simpa [Connection.idle] using hidle
  have ht' := ht
  rw [← zero_add (w.conn.held : Multiset Resource)] at ht'
  simp only [afterLogin]
  split_ifs with hnone hretry
  · exact hinv.move_plain hs trivial ht' ⟨sock, tls, tr, accel, hsock, howns⟩ (by simp [hok])
  · have htr : tr = none := by
      have hnat := howns.usingNatT
      rw [Bool.eq_false_of_not_eq_true hretry.2] at hnat
      cases tr with
      | none => rfl
      | some tr => cases hnat
    subst htr
    refine hinv.move_plain hs trivial ht' ⟨sock, tls, accel, howns, ?_⟩ (by simp [hok])
    intro h
    exact absurd (hidle.symm.trans h) (by decide)
  · refine hinv.move (Q := True) hs rfl ?_ ht' ⟨hnone, hstate.2, sock, tls, tr, accel, howns⟩
      (by simp [hok])
    exact and_congr_right fun _ => iff_true_intro fun h => absurd h hstate.1

/-- A login that gets past the watermark keeps what the connection owns. -/
theorem login_owns {w : World} {useTcp : Bool} {sock tls : Option ℕ} {tr : Option RudpTransport}
    (h : ¬ WatermarkFails a w.conn) (howns : w.conn.Owns sock tls tr none)
    (happ : ∀ t ∈ tr, sock = t.appFd ∧ t.appFd ≠ none) :
    let r := softetherProtocolLogin useTcp a w
    ∃ accel, r.2.conn.Owns sock tls tr accel ∧ r.2.conn.idle = false ∧
      w.ledger.Transfers w.conn.held r.2.ledger r.2.conn.held := by
  intro r
  obtain ⟨accel, -, ht, hconn, hnone⟩ := softetherProtocolLogin_spec useTcp a h
  have howns' : r.2.conn.Owns sock tls tr accel := by
    rw [hconn]
    exact ⟨howns.socketFd, howns.ssl, howns.sslCtx, howns.natTTransport, howns.usingNatT, rfl,
      howns.additional⟩
  refine ⟨accel, howns', by rw [hconn]; rfl, ?_⟩
  cases tr with
  | none =>
    have hframe := ht.frame (tokens .fd sock + tokens .ssl tls)
    rw [howns.held, howns'.held]
    simpa using hframe
  | some t =>
    obtain ⟨rfl, hne⟩ := happ t rfl
    obtain rfl := hnone howns.usingNatT
    rw [howns.held_transport hne, howns'.held_transport hne]
    simpa using ht.frame (tokens .ssl tls + t.resources)

theorem loginFirst_move (hinv : HubInv base s) (hpc : s.pc = .loginFirst)
    (h : stageStep s a = some t) : HubMove base s (.stage a) t := by
  have hplain : s.pc.Plain := by rw [hpc]; trivial
  have hokiff : HubStepOk s (.stage a) ↔ ¬ (WatermarkFails a s.world.conn ∧
      s.world.conn.usingNatT = true ∧ s.world.conn.state = .disconnected) := by
    simp [HubStepOk, hpc]
  have hshape : s.world.conn.BeforeLogin := by simpa only [Hub.Shape, hpc] using hinv.shape
  simp only [stageStep, hpc] at h
  obtain rfl := Option.some.inj h
  by_cases hfails : WatermarkFails a s.world.conn
  · have hlogin : softetherProtocolLogin s.call.useTcp a s.world = (.tlsHandshake, s.world) := by
      rw [softetherProtocolLogin, if_pos hfails]
    rw [hlogin]
    rcases hshape with ⟨howns, hstate⟩ | ⟨fd, ssl, howns, hstate⟩ | ⟨tr, ssl, happ, howns, hstate⟩
    · have hok : HubStepOk s (.stage a) := by simp [hokiff, howns.usingNatT]
      have hnext : afterLogin true (.tlsHandshake, s.world) s = { s with pc := .dropLogin } := by
        simp [afterLogin, howns.usingNatT]
      rw [hnext]
      refine hinv.move_plain (d := 0) hplain trivial ?_ ⟨_, _, _, howns, ?_⟩ (by simp [hok])
      · rw [zero_add]
        exact .refl _ _
      · intro hidle
        rcases hstate with hstate | hstate
        · simp [Connection.idle, hstate] at hidle
        · exact ⟨howns, hstate⟩
    · have hok : HubStepOk s (.stage a) := by simp [hokiff, howns.usingNatT]
      exact afterLogin_move hinv hplain howns (by simp) (by simp [Connection.idle, hstate])
        (.refl _ _) hok
    · rcases hstate with hstate | hstate
      · have hok : HubStepOk s (.stage a) := by simp [hokiff, hstate]
        exact afterLogin_move hinv hplain howns happ (by simp [Connection.idle, hstate])
          (.refl _ _) hok
      · have hbad : ¬ HubStepOk s (.stage a) := by
          simp [hokiff, hfails, howns.usingNatT, hstate]
        have hnext : afterLogin true (.tlsHandshake, s.world) s =
            { s with pc := .abort .tlsHandshake } := by
          simp [afterLogin, howns.usingNatT]
        have hssl : ¬ s.world.conn.OwnsNothing := by
          intro hnothing
          exact absurd (howns.ssl.symm.trans hnothing.ssl) (by simp)
        rw [hnext]
        refine hinv.move (d := 0) (Q := False) hplain rfl ?_ ?_ ?_ (by simp [hbad])
        · exact and_congr_right fun _ => iff_false_intro fun h => hssl (h hstate)
        · rw [zero_add]
          exact .refl _ _
        · refine ⟨by decide, ?_, _, _, _, _, howns⟩
          simp [hstate]
  · have hok : HubStepOk s (.stage a) := by simp [hokiff, hfails]
    rcases hshape with ⟨howns, hstate⟩ | ⟨fd, ssl, howns, hstate⟩ | ⟨tr, ssl, happ, howns, hstate⟩
    · exact absurd (.inl howns.ssl) hfails
    · obtain ⟨accel, howns', hidle, ht⟩ := login_owns hfails howns (by simp)
      exact afterLogin_move hinv hplain howns' (by simp) hidle ht hok
    · obtain ⟨accel, howns', hidle, ht⟩ := login_owns hfails howns (by simpa using happ)
      exact afterLogin_move hinv hplain howns' happ hidle ht hok

theorem loginSecond_move (hinv : HubInv base s) (hpc : s.pc = .loginSecond)
    (h : stageStep s a = some t) : HubMove base s (.stage a) t := by
  have hplain : s.pc.Plain := by rw [hpc]; trivial
  have hok : HubStepOk s (.stage a) := by simp [HubStepOk, hpc]
  obtain ⟨tr, ssl, happ, howns, hstate⟩ : ∃ tr ssl, tr.appFd ≠ none ∧
      s.world.conn.Owns tr.appFd (some ssl) (some tr) none ∧
      s.world.conn.state = .tlsHandshake := by
    simpa only [Hub.Shape, hpc] using hinv.shape
  simp only [stageStep, hpc] at h
  obtain rfl := Option.some.inj h
  by_cases hfails : WatermarkFails a s.world.conn
  · rw [softetherProtocolLogin, if_pos hfails]
    exact afterLogin_move hinv hplain howns happ (by simp [Connection.idle, hstate]) (.refl _ _) hok
  · obtain ⟨accel, howns', hidle, ht⟩ := login_owns hfails howns (by simpa using happ)
    exact afterLogin_move hinv hplain howns' happ hidle ht hok

theorem dropLogin_move (hinv : HubInv base s) (hpc : s.pc = .dropLogin)
    (h : stageStep s a = some t) : HubMove base s (.stage a) t := by
  have hplain : s.pc.Plain := by rw [hpc]; trivial
  have hok : HubStepOk s (.stage a) := by simp [HubStepOk, hpc]
  obtain ⟨sock, tls, accel, howns, hnothing⟩ : ∃ sock tls accel,
      s.world.conn.Owns sock tls none accel ∧ (s.world.conn.idle = true →
        s.world.conn.OwnsNothing ∧ s.world.conn.state = .disconnected) := by
    simpa only [Hub.Shape, hpc] using hinv.shape
  simp only [stageStep, hpc] at h
  obtain rfl := Option.some.inj h
  cases hidle : s.world.conn.idle with
  | true =>
    refine hinv.move_plain (d := 0) hplain trivial ?_ ?_ (by simp [hok])
    · rw [zero_add, softetherDisconnect_of_idle hidle]
      exact .refl _ _
    · change (softetherDisconnect s.world).conn.OwnsNothing ∧ _
      rw [softetherDisconnect_of_idle hidle]
      exact hnothing hidle
  | false =>
    obtain ⟨howns', hstate⟩ := softetherDisconnect_owns howns hidle
    have hfd : ¬ s.world.conn.SharesFd := by
      rintro ⟨hne, happ⟩
      rw [howns.natTTransport] at happ
      exact hne happ.symm
    refine hinv.move_plain (d := 0) hplain trivial ?_ ⟨howns', hstate⟩ (by simp [hok])
    dsimp only
    rw [Connection.OwnsNothing.held howns', zero_add]
    exact softetherDisconnect_transfers hidle hfd

theorem natTFallback_move (hinv : HubInv base s) (hpc : s.pc = .natTFallback)
    (h : stageStep s a = some t) : HubMove base s (.stage a) t := by
  have hplain : s.pc.Plain := by rw [hpc]; trivial
  have hok : HubStepOk s (.stage a) ↔ ¬ NatTLeaks s.call.ip a := by simp [HubStepOk, hpc]
  obtain ⟨howns, hstate⟩ : s.world.conn.OwnsNothing ∧ s.world.conn.state = .disconnected := by
    simpa only [Hub.Shape, hpc] using hinv.shape
  obtain ⟨orphans, horphans, hcases⟩ := softetherTryNatTConnect_spec s.call.ip a s.world
  rw [← horphans] at hok
  simp only [stageStep, hpc] at h
  cases hr : softetherTryNatTConnect s.call.ip a s.world with
  | mk err w =>
    rw [hr] at h hcases
    rcases hcases with ⟨tr, herr, happ, ht, hconn⟩ | ⟨herr, ht, hconn⟩
    · dsimp only at herr hconn
      subst herr
      obtain rfl := Option.some.inj h
      have howns' : w.conn.Owns tr.appFd none (some tr) none := by
        rw [hconn]
        exact ⟨rfl, howns.ssl, howns.sslCtx, rfl, rfl, howns.rudp, howns.additional⟩
      refine hinv.move_plain hplain trivial ?_ ⟨tr, happ, howns', ?_⟩ hok
      · dsimp only
        rw [Connection.OwnsNothing.held howns, howns'.held_transport happ]
        simpa using ht
      · dsimp only
        rw [hconn]
        exact hstate
    · dsimp only at herr hconn
      subst herr
      obtain rfl := Option.some.inj h
      have howns' : w.conn.OwnsNothing := by rw [hconn]; exact howns
      refine hinv.move (Q := True) hplain rfl ?_ ?_ ⟨by decide, ?_, _, _, _, _, howns'⟩
        (by rw [hok, and_true])
      · exact and_congr_right fun _ => iff_true_intro fun _ => howns'
      · dsimp only
        rw [Connection.OwnsNothing.held howns, Connection.OwnsNothing.held howns', add_zero]
        exact ht
      · dsimp only
        rw [hconn, hstate]
        decide

theorem tlsOverNatT_move (hinv : HubInv base s) (hpc : s.pc = .tlsOverNatT)
    (h : stageStep s a = some t) : HubMove base s (.stage a) t := by
  have hplain : s.pc.Plain := by rw [hpc]; trivial
  have hok : HubStepOk s (.stage a) := by simp [HubStepOk, hpc]
  obtain ⟨tr, happ, howns, -⟩ : ∃ tr, tr.appFd ≠ none ∧
      s.world.conn.Owns tr.appFd none (some tr) none ∧ s.world.conn.state = .disconnected := by
    simpa only [Hub.Shape, hpc] using hinv.shape
  have hspec := performTlsHandshake_spec a.tls (w := s.world) (by rw [howns.socketFd]; exact happ)
  simp only [stageStep, hpc] at h
  cases hr : performTlsHandshake a.tls s.world with
  | mk err w =>
    rw [hr] at h hspec
    rcases hspec with ⟨n, herr, ht, hconn⟩ | ⟨herr, ht, hconn⟩
    · dsimp only at herr hconn
      subst herr
      obtain rfl := Option.some.inj h
      have howns' : w.conn.Owns tr.appFd (some n) (some tr) none := by
        rw [hconn]
        exact ⟨howns.socketFd, rfl, rfl, howns.natTTransport, howns.usingNatT, howns.rudp,
          howns.additional⟩
      refine hinv.move_plain (d := 0) hplain trivial ?_ ⟨tr, n, happ, howns', ?_⟩ (by simp [hok])
      · have hframe := ht.frame tr.resources
        dsimp only
        rw [howns.held_transport happ, howns'.held_transport happ]
        simpa [add_comm] using hframe
      · dsimp only
        rw [hconn]
    · dsimp only at herr hconn
      subst herr
      obtain rfl := Option.some.inj h
      have howns' : w.conn.Owns tr.appFd none (some tr) none := by
        rcases hconn with hconn | hconn <;> rw [hconn]
        · exact howns.congr rfl rfl rfl rfl rfl rfl rfl
        · exact ⟨howns.socketFd, howns.ssl, rfl, howns.natTTransport, howns.usingNatT, howns.rudp,
            howns.additional⟩
      have hstate : w.conn.state = .tlsHandshake := by
        rcases hconn with hconn | hconn <;> rw [hconn]
      refine hinv.move (d := 0) (Q := True) hplain rfl ?_ ?_
        ⟨by decide, by simp [hstate], _, _, _, _, howns'⟩ (by simp [hok])
      · exact and_congr_right fun _ => iff_true_intro fun h => absurd h (by simp [hstate])
      · dsimp only
        rw [howns.held_transport happ, howns'.held_transport happ, zero_add]
        simpa using ht.frame tr.resources

theorem finishing_move (hinv : HubInv base s) (hpc : s.pc = .finishing)
    (h : stageStep s a = some t) : HubMove base s (.stage a) t := by
  have hplain : s.pc.Plain := by rw [hpc]; trivial
  have hok : HubStepOk s (.stage a) := by simp [HubStepOk, hpc]
  obtain ⟨sock, tls, tr, accel, hsock, howns⟩ : ∃ sock tls tr accel, sock ≠ none ∧
      s.world.conn.Owns sock tls tr accel := by
    simpa only [Hub.Shape, hpc] using hinv.shape
  simp only [stageStep, hpc] at h
  rw [if_neg (by rw [howns.socketFd]; exact hsock)] at h
  obtain rfl := Option.some.inj h
  cases a.additional with
  | none =>
    refine hinv.move (d := 0) (Q := True) hplain rfl ?_ ?_ ?_ (by simp [hok])
    · exact and_congr_right fun _ => iff_true_intro fun h => absurd rfl h
    · rw [zero_add]
      exact .refl _ _
    · exact fun h => absurd rfl h
  | some o =>
    obtain ⟨d, ht, hd⟩ := softetherAdditionalConnect_transfers o
      { s.world with conn := { s.world.conn with state := .connected } }
    obtain rfl := hd howns.additional
    refine hinv.move (d := 0) (Q := True) hplain rfl ?_ ht ?_ (by simp [hok])
    · exact and_congr_right fun _ => iff_true_intro fun h => absurd rfl h
    · exact fun h => absurd rfl h

theorem abort_move {err : Err} (hinv : HubInv base s) (hpc : s.pc = .abort err)
    (h : stageStep s a = some t) : HubMove base s (.stage a) t := by
  have hok : HubStepOk s (.stage a) := by simp [HubStepOk, hpc]
  have htidy : HubTidy base s ↔ s.world.ledger.live = base + s.world.conn.held ∧
      (s.world.conn.state = .disconnected → s.world.conn.OwnsNothing) := by
    simp only [HubTidy, hpc]
  obtain ⟨herr, hstate, sock, tls, tr, accel, howns⟩ : err ≠ .none ∧
      s.world.conn.state ≠ .disconnecting ∧
      ∃ sock tls tr accel, s.world.conn.Owns sock tls tr accel := by
    simpa only [Hub.Shape, hpc] using hinv.shape
  obtain ⟨orphans, hlive⟩ : ∃ orphans,
      s.world.ledger.live = base + orphans + s.world.conn.held := by
    simpa only [Hub.held, hpc] using hinv.covers
  simp only [stageStep, hpc] at h
  obtain rfl := Option.some.inj h
  cases hidle : s.world.conn.idle with
  | true =>
    have hdisc : s.world.conn.state = .disconnected := by
      simpa [Connection.idle, hstate] using hidle
    rw [softetherDisconnect_of_idle hidle]
    refine ⟨⟨hinv.fresh, fun _ => ⟨hdisc, _, _, _, _, howns⟩, orphans, hlive⟩, ?_⟩
    rw [htidy, and_iff_left hok]
    exact and_congr_right fun _ => ⟨fun h _ => h herr, fun h _ => h hdisc⟩
  | false =>
    have hactive : s.world.conn.state ≠ .disconnected := by
      intro hdisc
      simp [Connection.idle, hdisc] at hidle
    obtain ⟨howns', hstate'⟩ := softetherDisconnect_owns howns hidle
    have hlive' := softetherDisconnect_live hinv.fresh hidle hlive
    have hheld := Connection.OwnsNothing.held howns'
    refine ⟨⟨softetherDisconnect_fresh hinv.fresh, fun _ => ⟨hstate', _, _, _, _, howns'⟩,
      orphans, ?_⟩, ?_⟩
    · change (softetherDisconnect s.world).ledger.live =
        base + orphans + (softetherDisconnect s.world).conn.held
      rw [hlive', hheld, add_zero]
    · have hexact : (softetherDisconnect s.world).ledger.live =
          base + (softetherDisconnect s.world).conn.held ↔
          s.world.ledger.live = base + s.world.conn.held := by
        rw [hlive', hheld, hlive, add_left_inj, add_zero]
      rw [htidy, and_iff_left hok]
      exact and_congr hexact ⟨fun _ h => absurd h hactive, fun _ _ => howns'⟩

/-- What any step of the call does. -/
theorem hubStep_move {e : HubEvent} (hinv : HubInv base s) (h : hubStep s e = some t) :
    HubMove base s e t := by
  cases e with
  | race e => exact race_move hinv h
  | stage a =>
    cases hpc : s.pc with
    | resolving => exact resolving_move hinv hpc h
    | tcpConnecting => exact tcpConnecting_move hinv hpc h
    | tlsOverTcp => exact tlsOverTcp_move hinv hpc h
    | dropTcp => exact dropTcp_move hinv hpc h
    | racing fallback race => exact racing_move hinv hpc h
    | dropRace =>
      have hshape := hinv.shape
      simp only [Hub.Shape, hpc] at hshape
    | loginFirst => exact loginFirst_move hinv hpc h
    | dropLogin => exact dropLogin_move hinv hpc h
    | natTFallback => exact natTFallback_move hinv hpc h
    | tlsOverNatT => exact tlsOverNatT_move hinv hpc h
    | loginSecond => exact loginSecond_move hinv hpc h
    | finishing => exact finishing_move hinv hpc h
    | abort err => exact abort_move hinv hpc h
    | returned err => simp [hubStep, stageStep, hpc] at h

end

/-- The call starts with nothing in its hands. -/
theorem enterConnect_inv {w : World} (useTcp forceNatT : Bool) (hfresh : w.ledger.Fresh)
    (howns : w.conn.OwnsNothing) :
    HubInv w.ledger.live (enterConnect useTcp forceNatT w) ∧
      HubTidy w.ledger.live (enterConnect useTcp forceNatT w) := by
  have hnone : w.conn.transportResources = [] := by
    simp [Connection.transportResources, howns.natTTransport]
  have hledger : (enterConnect useTcp forceNatT w).world.ledger = w.ledger := by
    simp [enterConnect, howns.socketFd, hnone]
  have hconn : (enterConnect useTcp forceNatT w).world.conn =
      { w.conn with natTTransport := none, usingNatT := false, state := .connecting } := by
    simp [enterConnect, howns.socketFd]
  have howns' : (enterConnect useTcp forceNatT w).world.conn.OwnsNothing := by
    rw [hconn]
    exact ⟨howns.socketFd, howns.ssl, howns.sslCtx, rfl, rfl, howns.rudp, howns.additional⟩
  have hlive : (enterConnect useTcp forceNatT w).world.ledger.live =
      w.ledger.live + (enterConnect useTcp forceNatT w).world.conn.held := by
    rw [hledger, Connection.OwnsNothing.held howns', add_zero]
  refine ⟨⟨by rw [hledger]; exact hfresh, ⟨howns', by rw [hconn]⟩, 0, ?_⟩, hlive⟩
  rw [add_zero]
  exact hlive

/-- A call that starts from a connection that owns nothing, and fails, leaves it clean if and
only if every step of the call met the condition. -/
theorem failedConnect_clean_iff {w : World} (hfresh : w.ledger.Fresh) (howns : w.conn.OwnsNothing)
    {useTcp forceNatT : Bool} {es : List HubEvent} {s : Hub} {err : Err}
    (hrun : exec hubStep (enterConnect useTcp forceNatT w) es = some s)
    (hret : s.pc = .returned err) (herr : err ≠ .none) :
    CleanAfter w.ledger.live s.world ↔
      Along hubStep HubStepOk (enterConnect useTcp forceNatT w) es := by
  obtain ⟨hinv, htidy⟩ := enterConnect_inv useTcp forceNatT hfresh howns
  have hend := exec_invariant (fun _ _ _ hi h => (hubStep_move hi h).inv) hinv hrun
  have hiff := exec_iff_along (fun _ _ _ hi h => (hubStep_move hi h).inv)
    (fun _ _ _ hi h => (hubStep_move hi h).tidy) hinv hrun
  rw [and_iff_right htidy] at hiff
  rw [← hiff]
  have hshape := hend.shape
  simp only [Hub.Shape, hret] at hshape
  simp only [HubTidy, hret]
  constructor
  · rintro ⟨-, hfields, hlive⟩
    refine ⟨?_, fun _ => hfields⟩
    rw [hlive, Connection.OwnsNothing.held hfields, add_zero]
  · rintro ⟨hlive, hfields⟩
    have hnothing := hfields herr
    refine ⟨(hshape herr).1, hnothing, ?_⟩
    rw [hlive, Connection.OwnsNothing.held hnothing, add_zero]

/-- Nothing goes wrong, but no server answers. -/
def StageAnswers.quiet : StageAnswers :=
  { resolved := some (.v4 1), tcp := ⟨false, [], false, .v4 1⟩, tls := .done, rendezvous := .noRelay
    allocated := true, opening := .started, established := false, watermark := 1
    rudpCreated := false, rudpFamilySet := false, auth := .authentication, additional := none }

/-- A call to a server without a TCP port: the race is won, the login refused. -/
def refusedCall : List HubEvent :=
  .stage .quiet :: soloRun.map .race ++ List.replicate 3 (.stage .quiet)

theorem refusedCall_clean : ∃ s,
    exec hubStep (enterConnect true false freshWorld) refusedCall = some s ∧
      s.pc = .returned .authentication ∧ CleanAfter freshWorld.ledger.live s.world := by
  have h : (exec hubStep (enterConnect true false freshWorld) refusedCall).map (·.pc) =
      some (.returned .authentication) := by decide
  obtain ⟨s, hs, hret⟩ := Option.map_eq_some_iff.mp h
  have hfresh : freshWorld.ledger.Fresh := ⟨by decide, by decide⟩
  have howns : freshWorld.conn.OwnsNothing := ⟨rfl, rfl, rfl, rfl, rfl, rfl, rfl⟩
  exact ⟨s, hs, hret, (failedConnect_clean_iff hfresh howns hs hret (by decide)).mpr (by decide)⟩

/-- The same server reached over the fallback of a connection that tried TCP first. -/
def tcpFirstWorld : World := { freshWorld with conn := { freshWorld.conn with udpOnly := false } }

/-- TCP fails, the race is won, the watermark fails. -/
def watermarkCall : List HubEvent :=
  List.replicate 3 (.stage .quiet) ++ soloRun.map .race ++
    [.stage .quiet, .stage { StageAnswers.quiet with watermark := -1 }, .stage .quiet]

theorem watermarkCall_not_clean : ∃ s,
    exec hubStep (enterConnect true false tcpFirstWorld) watermarkCall = some s ∧
      s.pc = .returned .tlsHandshake ∧ ¬ CleanAfter tcpFirstWorld.ledger.live s.world := by
  have h : (exec hubStep (enterConnect true false tcpFirstWorld) watermarkCall).map
      (fun s => (s.pc, s.world.conn.socketFd.isSome)) = some (.returned .tlsHandshake, true) := by
    decide
  obtain ⟨s, hs, hpair⟩ := Option.map_eq_some_iff.mp h
  refine ⟨s, hs, congrArg Prod.fst hpair, ?_⟩
  intro hclean
  have hsome : s.world.conn.socketFd.isSome = true := congrArg Prod.snd hpair
  rw [hclean.fields.socketFd] at hsome
  cases hsome

end SoftEtherVpn.Connect
