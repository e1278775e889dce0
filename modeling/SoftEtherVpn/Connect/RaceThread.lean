import SoftEtherVpn.Connect.Connection

/-!
# The threads of the parallel transport race

A transport thread of `softether_connect_parallel_race` takes one shared access at a time:
a read of the cancel flag, the compare-and-swap on its own `finished` flag, a store to its
result. What lies between two accesses is private to the thread and happens in the same
step. A thread's step moves what the thread holds and, where a connect call goes wrong in
one of two places, leaves a descriptor behind.
-/

namespace SoftEtherVpn.Connect

open Foundation

inductive TransportType
  | rudpDirect
  | natt
  | dns
  | icmp
  deriving DecidableEq, Repr

/-- `transport_result_t`. -/
structure TransportResult where
  socketFd : Option ℕ
  sslCtx : Option ℕ
  ssl : Option ℕ
  transport : Option RudpTransport
  finished : Bool
  ok : Bool
  deriving DecidableEq, Repr

/-- After the `memset`. -/
def TransportResult.zero : TransportResult := ⟨none, none, none, none, false, false⟩

/-- Where a transport thread is, with the objects it has in its local variables. -/
inductive ThreadPc
  | start
  | delayed
  | rendezvous
  | rendezvoused (cfg : TransportConfig)
  | opening (t : RudpTransport) (cfg : TransportConfig)
  | waiting (t : RudpTransport)
  | established (t : RudpTransport)
  | handshaking (t : RudpTransport)
  | claiming (t : RudpTransport) (ssl : ℕ)
  | publishing (t : RudpTransport) (ssl : ℕ)
  | storing (t : RudpTransport) (ssl : ℕ)
  | done
  deriving DecidableEq, Repr

structure Racer where
  type : TransportType
  pc : ThreadPc
  result : TransportResult
  deriving DecidableEq, Repr

inductive HandshakeOutcome
  | createFailed
  | connectFailed
  | done
  deriving DecidableEq, Repr

/-- What the calls of a thread's next step answer. -/
structure Answers where
  allocated : Bool
  rendezvous : NatTOutcome
  opening : OpenOutcome
  ready : Option Bool
  handshake : HandshakeOutcome
  deriving DecidableEq, Repr

/-- `resolvedIp` is what `inet_pton` makes of the resolved address: `none` unless it is IPv4. -/
structure RaceConfig where
  resolvedIp : Option ℕ
  udpPort : ℕ
  deriving DecidableEq, Repr

/-- The configuration a thread other than the NAT-T one hands to its transport. -/
def TransportType.config (type : TransportType) (cfg : RaceConfig) (ip : ℕ) : TransportConfig :=
  match type with
  | .rudpDirect => ⟨ip, cfg.udpPort % 2 ^ 16, none, .udp⟩
  | .dns => ⟨ip, 53, none, .dns⟩
  | .icmp => ⟨ip, 0, none, .icmp⟩
  | .natt => ⟨ip, 0, none, .udp⟩

/-- `rudp_transport_create`, then the connect call; on a failed allocation the UDP socket the
rendezvous may have handed over is closed. -/
def createTransport (r : Racer) (cfg : TransportConfig) (allocated : Bool) (L : Resources) :
    Racer × Resources :=
  if allocated then
    let (t, L) := rudpTransportCreate L
    ({ r with pc := .opening t cfg }, L)
  else ({ r with pc := .done }, L.releaseAll (tokens .fd cfg.udpFd))

/-- The end of a thread that lost its transport. -/
def abandon (r : Racer) (t : RudpTransport) (L : Resources) : Racer × Resources :=
  ({ r with pc := .done }, rudpTransportDestroy t L)

/-- The TLS handshake over the transport's application end. -/
def handshake (r : Racer) (t : RudpTransport) (o : HandshakeOutcome) (L : Resources) :
    Racer × Resources :=
  match o with
  | .createFailed => abandon r t L
  | .connectFailed =>
    abandon r t ((L.acquire .ssl).releaseAll [(.ssl, L.next)])
  | .done => ({ r with pc := .claiming t L.next }, L.acquire .ssl)

/-- One step of a transport thread. -/
def stepThread (cfg : RaceConfig) (cancel : Bool) (r : Racer) (a : Answers) (L : Resources) :
    Racer × Resources :=
  match r.pc with
  | .start =>
    if r.type = .rudpDirect ∧ cfg.udpPort = 0 then
      ({ r with pc := .done, result := .zero }, L)
    else ({ r with pc := .delayed, result := .zero }, L)
  | .delayed =>
    if cancel then ({ r with pc := .done }, L)
    else
      match cfg.resolvedIp with
      | none => ({ r with pc := .done }, L)
      | some ip =>
        if r.type = .natt then ({ r with pc := .rendezvous }, L)
        else createTransport r (r.type.config cfg ip) a.allocated L
  | .rendezvous =>
    match natTConnect a.rendezvous L with
    | (none, L) => ({ r with pc := .done }, L)
    | (some c, L) => ({ r with pc := .rendezvoused c }, L)
  | .rendezvoused c =>
    if cancel then ({ r with pc := .done }, L.releaseAll (tokens .fd c.udpFd))
    else createTransport r c a.allocated L
  | .opening t c =>
    match rudpTransportOpen t c a.opening L with
    | (true, t, L) => ({ r with pc := .waiting t }, L)
    | (false, t, L) => abandon r t L
  | .waiting t =>
    -- `result_ready` is tested before the cancel flag
    match a.ready with
    | some true => ({ r with pc := .established t }, L)
    | some false => let (t, L) := rtFail t L; abandon r t L
    | none =>
      if cancel then let (t, L) := rtFail t L; abandon r t L
      else (r, L)
  | .established t =>
    if cancel then abandon r t L else ({ r with pc := .handshaking t }, L)
  | .handshaking t => handshake r t a.handshake L
  | .claiming t ssl =>
    -- the compare-and-swap is on the thread's own flag
    if r.result.finished then abandon r t (L.releaseAll [(.ssl, ssl)])
    else ({ r with pc := .publishing t ssl, result := { r.result with finished := true } }, L)
  | .publishing t ssl =>
    ({ r with pc := .storing t ssl, result := { r.result with ok := true } }, L)
  | .storing t ssl =>
    ({ r with
        pc := .done
        result := { r.result with
          socketFd := t.appFd
          sslCtx := some ssl
          ssl := some ssl
          transport := some t } }, L)
  | .done => (r, L)

/-! ### What a thread holds -/

def ThreadPc.held : ThreadPc → Multiset Resource
  | .rendezvoused c => tokens .fd c.udpFd
  | .opening t c => t.resources + tokens .fd c.udpFd
  | .waiting t => t.resources
  | .established t => t.resources
  | .handshaking t => t.resources
  | .claiming t ssl => t.resources + tokens .ssl (some ssl)
  | .publishing t ssl => t.resources + tokens .ssl (some ssl)
  | .storing t ssl => t.resources + tokens .ssl (some ssl)
  | _ => 0

def TransportResult.held (r : TransportResult) : Multiset Resource :=
  r.transport.toList.flatMap RudpTransport.resources + tokens .ssl r.ssl

def Racer.held (r : Racer) : Multiset Resource := r.pc.held + r.result.held

/-- The result of a thread that has stored everything. -/
def TransportResult.won (t : RudpTransport) (ssl : ℕ) : TransportResult :=
  ⟨t.appFd, some ssl, some ssl, some t, true, true⟩

/-- The result belongs to the place the thread is at, and a transport past its connect call
has an application end. -/
def Racer.Wf (r : Racer) : Prop :=
  match r.pc with
  | .opening t _ => r.result = .zero ∧ t.udpFd = none ∧ t.workerFd = none ∧ t.appFd = none
  | .waiting t => r.result = .zero ∧ t.appFd ≠ none
  | .established t => r.result = .zero ∧ t.appFd ≠ none
  | .handshaking t => r.result = .zero ∧ t.appFd ≠ none
  | .claiming t _ => r.result = .zero ∧ t.appFd ≠ none
  | .publishing t _ => r.result = { TransportResult.zero with finished := true } ∧ t.appFd ≠ none
  | .storing t _ =>
    r.result = { TransportResult.zero with finished := true, ok := true } ∧ t.appFd ≠ none
  | .done => r.result = .zero ∨ ∃ t ssl, r.result = .won t ssl ∧ t.appFd ≠ none
  | _ => r.result = .zero

/-- The next step of the thread is the compare-and-swap. -/
def Racer.claims (r : Racer) : Bool :=
  match r.pc with
  | .claiming _ _ => true
  | _ => false

/-- The next step of the thread leaves a descriptor behind. -/
def Racer.Leaks (r : Racer) (a : Answers) : Prop :=
  match r.pc with
  | .opening _ c => a.opening.Leaks c
  | _ => False

instance (r : Racer) (a : Answers) : Decidable (r.Leaks a) :=
  match r with
  | ⟨_, .opening _ c, _⟩ => inferInstanceAs (Decidable (a.opening.Leaks c))
  | ⟨_, .start, _⟩ | ⟨_, .delayed, _⟩ | ⟨_, .rendezvous, _⟩ | ⟨_, .rendezvoused _, _⟩
  | ⟨_, .waiting _, _⟩ | ⟨_, .established _, _⟩ | ⟨_, .handshaking _, _⟩ | ⟨_, .claiming _ _, _⟩
  | ⟨_, .publishing _ _, _⟩ | ⟨_, .storing _ _, _⟩ | ⟨_, .done, _⟩ =>
    inferInstanceAs (Decidable False)

/-- What a step of a thread does to the things it holds and to its result. -/
structure StepsTo (r : Racer) (L : Resources) (leaks : Prop) (r' : Racer) (L' : Resources) :
    Prop where
  wf : r'.Wf
  finished : r'.result.finished = (r.result.finished || r.claims)
  transfers : ∃ orphans, L.Transfers r.held L' (orphans + r'.held) ∧ (orphans = 0 ↔ ¬ leaks)

@[simp] theorem TransportResult.held_zero : TransportResult.zero.held = 0 := rfl

@[simp] theorem TransportResult.held_won (t : RudpTransport) (ssl : ℕ) :
    (TransportResult.won t ssl).held = t.resources + tokens .ssl (some ssl) := by
  simp [TransportResult.held, TransportResult.won]

/-- A step that keeps the result, leaves nothing behind and does not claim. -/
theorem StepsTo.quiet {r r' : Racer} {L L' : Resources} (hres : r.result = .zero)
    (hres' : r'.result = .zero) (hclaims : r.claims = false) (hwf : r'.Wf)
    (ht : L.Transfers r.pc.held L' r'.pc.held) : StepsTo r L False r' L' where
  wf := hwf
  finished := by rw [hres, hres', hclaims]; rfl
  transfers := by
    refine ⟨0, ?_, by simp⟩
    simpa [Racer.held, hres, hres'] using ht

/-- A step that opens and closes nothing. -/
theorem StepsTo.still {r r' : Racer} {L : Resources} (hres : r.result = .zero)
    (hres' : r'.result = .zero) (hclaims : r.claims = false) (hwf : r'.Wf)
    (hheld : r.pc.held = r'.pc.held) : StepsTo r L False r' L :=
  .quiet hres hres' hclaims hwf (hheld ▸ .refl L _)

theorem Racer.wf_done {r : Racer} (h : r.result = .zero) : ({ r with pc := .done } : Racer).Wf :=
  .inl h

theorem abandon_stepsTo {r : Racer} {t : RudpTransport} {L L' : Resources}
    (hres : r.result = .zero) (hclaims : r.claims = false)
    (ht : L.Transfers r.pc.held L' t.resources) :
    StepsTo r L False (abandon r t L').1 (abandon r t L').2 :=
  .quiet hres hres hclaims (Racer.wf_done hres)
    (ht.trans (rudpTransportDestroy_transfers t L'))

theorem createTransport_stepsTo {r : Racer} {c : TransportConfig} (allocated : Bool)
    {L : Resources} (hres : r.result = .zero) (hclaims : r.claims = false)
    (hheld : r.pc.held = tokens .fd c.udpFd) :
    StepsTo r L False (createTransport r c allocated L).1 (createTransport r c allocated L).2 := by
  unfold createTransport
  cases allocated with
  | false =>
    refine .quiet hres hres hclaims (Racer.wf_done hres) ?_
    rw [hheld]
    exact .releaseAll L _
  | true =>
    refine .quiet hres hres hclaims ⟨hres, rfl, rfl, rfl⟩ ?_
    have h := (rudpTransportCreate_transfers L).frame (tokens .fd c.udpFd)
    rw [add_zero, add_comm] at h
    rw [hheld]
    exact h

theorem handshake_stepsTo {r : Racer} {t : RudpTransport} (o : HandshakeOutcome) {L : Resources}
    (hpc : r.pc = .handshaking t) (hwf : r.Wf) :
    StepsTo r L False (handshake r t o L).1 (handshake r t o L).2 := by
  simp only [Racer.Wf, hpc] at hwf
  have hclaims : r.claims = false := by simp [Racer.claims, hpc]
  have hheld : r.pc.held = t.resources := by rw [hpc]; rfl
  have hssl := (Ledger.Transfers.acquire L ResourceKind.ssl).frame t.resources
  rw [add_zero, ← hheld] at hssl
  cases o with
  | createFailed =>
    refine abandon_stepsTo hwf.1 hclaims ?_
    rw [hheld]
    exact .refl L _
  | connectFailed =>
    refine abandon_stepsTo hwf.1 hclaims ?_
    have hback := (Ledger.Transfers.releaseAll (L.acquire .ssl)
      [(ResourceKind.ssl, L.next)]).frame t.resources
    rw [add_zero] at hback
    exact hssl.trans (hheld ▸ hback)
  | done =>
    refine .quiet hwf.1 hwf.1 hclaims hwf ?_
    rw [hheld] at hssl ⊢
    exact hssl

/-- The wait loop ends without a session. -/
theorem rtFail_stepsTo {r : Racer} {t : RudpTransport} {L : Resources} (hpc : r.pc = .waiting t)
    (hwf : r.Wf) :
    StepsTo r L False (abandon r (rtFail t L).1 (rtFail t L).2).1
      (abandon r (rtFail t L).1 (rtFail t L).2).2 := by
  simp only [Racer.Wf, hpc] at hwf
  refine abandon_stepsTo hwf.1 (by simp [Racer.claims, hpc]) ?_
  rw [hpc]
  exact rtFail_transfers t L

theorem opening_stepsTo {r : Racer} {t : RudpTransport} {c : TransportConfig} (cfg : RaceConfig)
    (cancel : Bool) (a : Answers) {L : Resources} (hpc : r.pc = .opening t c) (hwf : r.Wf) :
    StepsTo r L (a.opening.Leaks c) (stepThread cfg cancel r a L).1
      (stepThread cfg cancel r a L).2 := by
  simp only [Racer.Wf, hpc] at hwf
  obtain ⟨hres, hudp, hworker, happ⟩ := hwf
  obtain ⟨orphans, hopen, hleaks⟩ := rudpTransportOpen_transfers t.id c a.opening L
  have ht : (⟨t.id, none, none, none⟩ : RudpTransport) = t := by
    cases t
    simp_all
  simp only [ht] at hopen
  have hheld : r.held = t.resources + tokens .fd c.udpFd := by
    rw [Racer.held, hres, hpc]
    simp [ThreadPc.held]
  have happ := @rudpTransportOpen_appFd t c a.opening L
  simp only [stepThread, hpc]
  cases hr : rudpTransportOpen t c a.opening L with
  | mk opened p =>
    obtain ⟨t', L'⟩ := p
    rw [hr] at hopen happ
    have hfin : r.result.finished = (r.result.finished || r.claims) := by
      simp [Racer.claims, hpc]
    cases opened with
    | true =>
      refine ⟨⟨hres, happ rfl⟩, hfin, orphans, ?_, hleaks⟩
      rw [hheld]
      simpa [Racer.held, hres, ThreadPc.held] using hopen
    | false =>
      refine ⟨Racer.wf_done hres, hfin, orphans, ?_, hleaks⟩
      rw [hheld]
      have hback := (rudpTransportDestroy_transfers t' L').frame orphans
      simpa [Racer.held, hres, ThreadPc.held, abandon] using hopen.trans hback

theorem start_stepsTo {r : Racer} (cfg : RaceConfig) (cancel : Bool) (a : Answers) (L : Resources)
    (hpc : r.pc = .start ∨ r.pc = .delayed) (hwf : r.Wf) :
    StepsTo r L False (stepThread cfg cancel r a L).1 (stepThread cfg cancel r a L).2 := by
  have hres : r.result = .zero := by
    rcases hpc with hpc | hpc <;> simpa only [Racer.Wf, hpc] using hwf
  have hclaims : r.claims = false := by
    rcases hpc with hpc | hpc <;> simp [Racer.claims, hpc]
  have hheld : r.pc.held = 0 := by
    rcases hpc with hpc | hpc <;> simp [ThreadPc.held, hpc]
  have hquit : StepsTo r L False { r with pc := .done } L :=
    .still hres hres hclaims (Racer.wf_done hres) hheld
  rcases hpc with hpc | hpc
  · simp only [stepThread, hpc]
    split_ifs
    · exact .still hres rfl hclaims (.inl rfl) hheld
    · exact .still hres rfl hclaims rfl hheld
  · simp only [stepThread, hpc]
    cases cancel with
    | true => exact hquit
    | false =>
      cases cfg.resolvedIp with
      | none => exact hquit
      | some ip =>
        by_cases hty : r.type = .natt
        · simp only [hty, Bool.false_eq_true, if_false, if_true]
          exact .still hres hres hclaims hres hheld
        · simp only [hty, Bool.false_eq_true, if_false]
          refine createTransport_stepsTo a.allocated hres hclaims ?_
          rw [hheld]
          cases r.type <;> rfl

theorem rendezvous_stepsTo {r : Racer} (cfg : RaceConfig) (cancel : Bool) (a : Answers)
    (L : Resources) (hpc : r.pc = .rendezvous) (hwf : r.Wf) :
    StepsTo r L False (stepThread cfg cancel r a L).1 (stepThread cfg cancel r a L).2 := by
  have hres : r.result = .zero := by simpa only [Racer.Wf, hpc] using hwf
  have hclaims : r.claims = false := by simp [Racer.claims, hpc]
  have hheld : r.pc.held = 0 := by simp [ThreadPc.held, hpc]
  have ht := natTConnect_transfers a.rendezvous L
  simp only [stepThread, hpc]
  cases hr : natTConnect a.rendezvous L with
  | mk c L' =>
    rw [hr] at ht
    cases c with
    | none => exact .quiet hres hres hclaims (Racer.wf_done hres) (hheld ▸ ht)
    | some c => exact .quiet hres hres hclaims hres (hheld ▸ ht)

theorem rendezvoused_stepsTo {r : Racer} {c : TransportConfig} (cfg : RaceConfig) (cancel : Bool)
    (a : Answers) (L : Resources) (hpc : r.pc = .rendezvoused c) (hwf : r.Wf) :
    StepsTo r L False (stepThread cfg cancel r a L).1 (stepThread cfg cancel r a L).2 := by
  have hres : r.result = .zero := by simpa only [Racer.Wf, hpc] using hwf
  have hclaims : r.claims = false := by simp [Racer.claims, hpc]
  have hheld : r.pc.held = tokens .fd c.udpFd := by simp [ThreadPc.held, hpc]
  simp only [stepThread, hpc]
  cases cancel with
  | true => exact .quiet hres hres hclaims (Racer.wf_done hres) (hheld ▸ .releaseAll L _)
  | false => exact createTransport_stepsTo a.allocated hres hclaims hheld

theorem waiting_stepsTo {r : Racer} {t : RudpTransport} (cfg : RaceConfig) (cancel : Bool)
    (a : Answers) (L : Resources) (hpc : r.pc = .waiting t) (hwf : r.Wf) :
    StepsTo r L False (stepThread cfg cancel r a L).1 (stepThread cfg cancel r a L).2 := by
  have hfail := rtFail_stepsTo (L := L) hpc hwf
  have hwf' := hwf
  simp only [Racer.Wf, hpc] at hwf'
  have hclaims : r.claims = false := by simp [Racer.claims, hpc]
  simp only [stepThread, hpc]
  cases a.ready with
  | some ready =>
    cases ready with
    | true => exact .still hwf'.1 hwf'.1 hclaims hwf' (by rw [hpc]; rfl)
    | false => exact hfail
  | none =>
    cases cancel with
    | true => exact hfail
    | false => exact .still hwf'.1 hwf'.1 hclaims hwf rfl

theorem established_stepsTo {r : Racer} {t : RudpTransport} (cfg : RaceConfig) (cancel : Bool)
    (a : Answers) (L : Resources) (hpc : r.pc = .established t) (hwf : r.Wf) :
    StepsTo r L False (stepThread cfg cancel r a L).1 (stepThread cfg cancel r a L).2 := by
  simp only [Racer.Wf, hpc] at hwf
  have hclaims : r.claims = false := by simp [Racer.claims, hpc]
  have hheld : r.pc.held = t.resources := by rw [hpc]; rfl
  simp only [stepThread, hpc]
  cases cancel with
  | true => exact abandon_stepsTo hwf.1 hclaims (hheld ▸ .refl L _)
  | false => exact .still hwf.1 hwf.1 hclaims hwf hheld

/-- What any step of a thread does. -/
theorem stepThread_stepsTo (cfg : RaceConfig) (cancel : Bool) {r : Racer} (a : Answers)
    (L : Resources) (hwf : r.Wf) :
    StepsTo r L (r.Leaks a) (stepThread cfg cancel r a L).1 (stepThread cfg cancel r a L).2 := by
  cases hpc : r.pc with
  | start => simpa only [Racer.Leaks, hpc] using start_stepsTo cfg cancel a L (.inl hpc) hwf
  | delayed => simpa only [Racer.Leaks, hpc] using start_stepsTo cfg cancel a L (.inr hpc) hwf
  | rendezvous => simpa only [Racer.Leaks, hpc] using rendezvous_stepsTo cfg cancel a L hpc hwf
  | rendezvoused c =>
    simpa only [Racer.Leaks, hpc] using rendezvoused_stepsTo cfg cancel a L hpc hwf
  | opening t c => simpa only [Racer.Leaks, hpc] using opening_stepsTo cfg cancel a hpc hwf
  | waiting t => simpa only [Racer.Leaks, hpc] using waiting_stepsTo cfg cancel a L hpc hwf
  | established t => simpa only [Racer.Leaks, hpc] using established_stepsTo cfg cancel a L hpc hwf
  | handshaking t =>
    simp only [stepThread, Racer.Leaks, hpc]
    exact handshake_stepsTo a.handshake hpc hwf
  | claiming t ssl =>
    simp only [Racer.Wf, hpc] at hwf
    simp only [stepThread, Racer.Leaks, hpc, hwf.1]
    refine ⟨⟨rfl, hwf.2⟩, by simp [Racer.claims, hpc, TransportResult.zero], 0, ?_, by simp⟩
    rw [zero_add, Racer.held, hwf.1, hpc]
    exact .refl L _
  | publishing t ssl =>
    simp only [Racer.Wf, hpc] at hwf
    simp only [stepThread, Racer.Leaks, hpc, hwf.1]
    refine ⟨⟨rfl, hwf.2⟩, by simp [hwf.1], 0, ?_, by simp⟩
    rw [zero_add, Racer.held, hwf.1, hpc]
    exact .refl L _
  | storing t ssl =>
    simp only [Racer.Wf, hpc] at hwf
    simp only [stepThread, Racer.Leaks, hpc, hwf.1]
    refine ⟨.inr ⟨t, ssl, rfl, hwf.2⟩, by simp [hwf.1], 0, ?_, by simp⟩
    have hheld : r.held = t.resources + tokens .ssl (some ssl) := by
      rw [Racer.held, hwf.1, hpc]
      exact add_zero _
    rw [zero_add, hheld, ← TransportResult.held_won]
    exact .refl L _
  | done =>
    simp only [stepThread, Racer.Leaks, hpc]
    refine ⟨hwf, by simp [Racer.claims, hpc], 0, ?_, by simp⟩
    rw [zero_add]
    exact .refl L _

end SoftEtherVpn.Connect
