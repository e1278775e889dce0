import SoftEtherVpn.Foundation.Runs
import SoftEtherVpn.UdpAccel.Context

/-!
# The health of the UDP path

The fields of the context that decide whether data rides UDP, and the few ways in which
they change. `PacketStep` is what the reception of a packet can do, `EvalStep` what a
readiness check can do; every operation of the context is a chain of them, so a property
of the path is proved once for each of these steps.
-/

namespace SoftEtherVpn.UdpAccel

open Foundation Rudp Relation

structure Health where
  inited : Bool
  peerAddrSet : Bool
  timeoutValue : ℕ
  now : ℕ
  lastRecvTick : ℕ
  firstStableReceiveTick : ℕ
  recentOverflows : ℕ
  suspended : Bool
  resumeTick : ℕ
  suspensionCount : ℕ
  lastLossEventTick : ℕ
  history : List RudpEvent

namespace Health

def record (h : Health) (e : RudpEvent) : Health := { h with history := h.history ++ [e] }

/-- Nothing was received for the length of the timeout. -/
def Stale (h : Health) : Prop := h.lastRecvTick = 0 ∨ h.lastRecvTick + h.timeoutValue < h.now

end Health

def RudpContext.health (ctx : RudpContext) : Health where
  inited := ctx.inited
  peerAddrSet := ctx.peerAddrSet
  timeoutValue := ctx.timeoutValue
  now := ctx.now
  lastRecvTick := ctx.lastRecvTick
  firstStableReceiveTick := ctx.firstStableReceiveTick
  recentOverflows := ctx.recentOverflows
  suspended := ctx.udpDataSuspended
  resumeTick := ctx.udpDataResumeTick
  suspensionCount := ctx.suspensionCount
  lastLossEventTick := ctx.lastLossEventTick
  history := ctx.history

/-- What happens to the path while a packet is received, and at each clock reading. -/
inductive PacketStep : Health → Health → Prop
  | tick (h : Health) {t : ℕ} (hle : h.now ≤ t) (hlt : t < 2 ^ 44) :
      PacketStep h { h with now := t }
  | addressed (h : Health) : PacketStep h { h with peerAddrSet := true }
  | gap (h : Health) :
      PacketStep h ({ h with lastLossEventTick := h.now }.record (.gap h.now))
  | overflow (h : Health) :
      PacketStep h ({ h with
        recentOverflows := (h.recentOverflows + 1) % 2 ^ 32
        lastLossEventTick := h.now }.record (.overflow h.now))
  | opened (h : Health) (hfirst : h.firstStableReceiveTick = 0) :
      PacketStep h ({ h with
        lastRecvTick := h.now
        firstStableReceiveTick := h.now }.record (.stable h.now))
  | renewed (h : Health) (hfirst : h.firstStableReceiveTick ≠ 0) :
      PacketStep h { h with lastRecvTick := h.now }

/-- What a readiness check does to the path. -/
inductive EvalStep : Health → Health → Prop
  | evaluated (h : Health) : EvalStep h (h.record (.evaluated h.now h.lastRecvTick))
  | reset (h : Health) (hsusp : h.suspended = false) (hloss : h.lastLossEventTick ≠ 0)
      (hclean : h.lastLossEventTick + cleanResetMs ≤ h.now) :
      EvalStep h ({ h with suspensionCount := 0, recentOverflows := 0 }.record
        (.backoffReset h.now))
  | resumed (h : Health) (hsusp : h.suspended = true) (hle : h.resumeTick ≤ h.now) :
      EvalStep h ({ h with suspended := false, recentOverflows := 0 }.record (.resumed h.now))
  | suspend (h : Health) (hsusp : h.suspended = false)
      (hover : overflowSuspendThreshold ≤ h.recentOverflows) :
      EvalStep h ({ h with
        suspensionCount := (h.suspensionCount + 1) % 2 ^ 32
        suspended := true
        resumeTick := h.now + suspendMs h.suspensionCount }.record
          (.suspended h.now (h.now + suspendMs h.suspensionCount)))
  | unstable (h : Health)
      (hstale : h.lastRecvTick = 0 ∨ wrap64 (h.lastRecvTick + h.timeoutValue) < h.now) :
      EvalStep h { h with firstStableReceiveTick := 0 }
  | answered (h : Health) (ready : Bool)
      (hsusp : h.suspended = true → ready = false ∧ h.now < h.resumeTick) :
      EvalStep h (h.record (.answered h.now ready))

/-- What a poll does on entry: it reads the clock and looks for a timeout. -/
def pollEntry (t : ℕ) (h : Health) : Health :=
  let h := { h with now := t }.record (.polled t h.lastRecvTick)
  if h.lastRecvTick ≠ 0 ∧ wrap64 (h.lastRecvTick + h.timeoutValue) < h.now then
    { h with firstStableReceiveTick := 0, lastLossEventTick := h.now }.record (.timeout h.now)
  else h

section Simulation

variable {lib : Libs} {ctx : RudpContext}

@[simp] theorem rudpCwinRefill_health (ctx : RudpContext) :
    (rudpCwinRefill ctx).health = ctx.health := by
  unfold rudpCwinRefill
  split_ifs <;> rfl

@[simp] theorem consumeBudget_health (n : ℕ) (ctx : RudpContext) :
    (consumeBudget n ctx).health = ctx.health := by
  unfold consumeBudget
  split_ifs
  · exact rudpCwinRefill_health ctx
  · rfl

theorem notePacket_health (i : Inner) (a : SockAddr) (ctx : RudpContext) :
    ReflTransGen PacketStep ctx.health (notePacket i a ctx).health := by
  by_cases hgap : ctx.lastPeerTickSeen ≠ 0 ∧
      i.myTick > wrap64 (ctx.lastPeerTickSeen + peerTickLossGap)
  · simp only [notePacket, noteGap, if_pos hgap]
    exact .tail (.single (.gap ctx.health)) (.addressed _)
  · simp only [notePacket, noteGap, if_neg hgap]
    exact .single (.addressed ctx.health)

theorem noteReception_health (ctx : RudpContext) :
    (noteReception ctx).health = ctx.health ∨ PacketStep ctx.health (noteReception ctx).health := by
  unfold noteReception
  split_ifs with hfresh hfirst
  · right
    exact .opened ctx.health hfirst
  · right
    exact .renewed ctx.health hfirst
  · left
    rfl

theorem queueBlock_health (block : Bytes) (ctx : RudpContext) :
    (queueBlock block ctx).health = ctx.health ∨
      PacketStep ctx.health (queueBlock block ctx).health := by
  unfold queueBlock
  split_ifs
  · left
    rfl
  · right
    exact .overflow ctx.health
  · left
    rfl

theorem queueData_health (i : Inner) (ctx : RudpContext) :
    (queueData lib i ctx).1.health = ctx.health ∨
      PacketStep ctx.health (queueData lib i ctx).1.health := by
  unfold queueData
  split_ifs
  · left
    rfl
  · split
    · left
      rfl
    · exact queueBlock_health _ ctx
  · exact queueBlock_health _ ctx

theorem reflTransGen_of_eq_or {h h' : Health} (hstep : h' = h ∨ PacketStep h h') :
    ReflTransGen PacketStep h h' := by
  rcases hstep with rfl | hstep
  · exact .refl
  · exact .single hstep

theorem rudpProcessInner_health (a : SockAddr) (verify : Bool) (buf : Bytes)
    (ctx : RudpContext) :
    ReflTransGen PacketStep ctx.health (rudpProcessInner lib a verify buf ctx).1.health := by
  unfold rudpProcessInner
  split
  · exact .refl
  · split_ifs
    · exact .refl
    · apply ReflTransGen.trans (notePacket_health _ a ctx)
      apply ReflTransGen.trans (reflTransGen_of_eq_or (noteReception_health _))
      exact reflTransGen_of_eq_or (queueData_health _ _)

theorem tick_health {clock : Timespec} (hle : ctx.now ≤ tick64 clock) :
    PacketStep ctx.health (ctx.readClock clock).health :=
  .tick ctx.health hle (tick64_lt clock)

theorem recvPacket_health (d : Datagram) (hle : ctx.now ≤ tick64 d.clock) :
    ReflTransGen PacketStep ctx.health (recvPacket lib d ctx).health := by
  have htick : ReflTransGen PacketStep ctx.health (ctx.readClock d.clock).health :=
    .single (tick_health hle)
  simp only [recvPacket]
  split
  · exact .refl
  · split
    · exact htick.trans (rudpProcessInner_health _ _ _ _)
    · split
      · exact htick
      · split
        · exact htick
        · exact htick.trans (rudpProcessInner_health _ _ _ _)

theorem sealDatagram_health {rand : ℕ} {flag : UInt8} {data packet : Bytes} {ctx' : RudpContext}
    (h : sealDatagram lib rand flag data ctx = some (ctx', packet)) :
    ctx'.health = ctx.health := by
  unfold sealDatagram at h
  split at h
  · cases h
    rfl
  · dsimp only at h
    split_ifs at h
    cases h
    rfl

theorem rudpSend_health (lib : Libs) (ctx : RudpContext) (inp : SendInput) (data : Bytes) (flag : UInt8) :
    (rudpSend lib inp data flag ctx).ctx.health = ctx.health ∨
      (rudpSend lib inp data flag ctx).ctx.health = (ctx.readClock inp.clock).health := by
  unfold rudpSend
  split
  · left
    rfl
  · right
    simp only [rudpSendNolock]
    split
    · rfl
    · split
      · rfl
      · rename_i hseal
        split
        · rw [consumeBudget_health, sealDatagram_health hseal]
        · exact sealDatagram_health hseal

/-- The clock readings of a poll come in order. -/
def PollInput.InOrder (inp : PollInput) (now : ℕ) : Prop :=
  now ≤ tick64 inp.clock ∧ tick64 inp.clock ≤ tick64 inp.keepalive.clock ∧
    (tick64 inp.keepalive.clock :: inp.datagrams.map fun d => tick64 d.clock).Pairwise (· ≤ ·)

theorem notePacket_now (i : Inner) (a : SockAddr) (ctx : RudpContext) :
    (notePacket i a ctx).now = ctx.now := by
  simp only [notePacket, noteGap]
  split <;> rfl

theorem noteReception_now (ctx : RudpContext) : (noteReception ctx).now = ctx.now := by
  unfold noteReception
  split_ifs <;> rfl

theorem queueBlock_now (block : Bytes) (ctx : RudpContext) :
    (queueBlock block ctx).now = ctx.now := by
  unfold queueBlock
  split_ifs <;> rfl

theorem queueData_now (i : Inner) (ctx : RudpContext) :
    (queueData lib i ctx).1.now = ctx.now := by
  unfold queueData
  split_ifs
  · rfl
  · split
    · rfl
    · exact queueBlock_now _ ctx
  · exact queueBlock_now _ ctx

theorem rudpProcessInner_now (a : SockAddr) (verify : Bool) (buf : Bytes) (ctx : RudpContext) :
    (rudpProcessInner lib a verify buf ctx).1.now = ctx.now := by
  unfold rudpProcessInner
  split
  · rfl
  · split_ifs
    · rfl
    · rw [queueData_now, noteReception_now, notePacket_now]

theorem recvPacket_now (d : Datagram) (hle : ctx.now ≤ tick64 d.clock) :
    (recvPacket lib d ctx).now ≤ tick64 d.clock := by
  simp only [recvPacket]
  split
  · exact hle
  · split
    · exact (rudpProcessInner_now _ _ _ _).le
    · split
      · exact le_rfl
      · split
        · exact le_rfl
        · exact (rudpProcessInner_now _ _ _ _).le

theorem recvLoop_health (ds : List Datagram) :
    ∀ ctx : RudpContext, (∀ d ∈ ds, ctx.now ≤ tick64 d.clock) →
      (ds.map fun d => tick64 d.clock).Pairwise (· ≤ ·) →
      ReflTransGen PacketStep ctx.health (recvLoop lib ds ctx).health := by
  induction ds with
  | nil =>
    intro ctx _ _
    exact .refl
  | cons d ds ih =>
    intro ctx hnow hsorted
    have hd := hnow d List.mem_cons_self
    rw [List.map_cons, List.pairwise_cons] at hsorted
    unfold recvLoop
    split
    · exact .refl
    · apply (recvPacket_health d hd).trans
      apply ih _ _ hsorted.2
      intro e he
      exact (recvPacket_now d hd).trans (hsorted.1 _ (List.mem_map_of_mem he))

theorem rudpSend_tick (inp : SendInput) (data : Bytes) (flag : UInt8)
    (hle : ctx.now ≤ tick64 inp.clock) :
    ReflTransGen PacketStep ctx.health (rudpSend lib inp data flag ctx).ctx.health ∧
      (rudpSend lib inp data flag ctx).ctx.now ≤ tick64 inp.clock := by
  rcases rudpSend_health lib ctx inp data flag with h | h
  · rw [h]
    exact ⟨.refl, (congrArg Health.now h).le.trans hle⟩
  · rw [h]
    exact ⟨.single (tick_health hle), (congrArg Health.now h).le⟩

theorem pollKeepalive_health (inp : PollInput) (hle : ctx.now ≤ tick64 inp.keepalive.clock) :
    ReflTransGen PacketStep ctx.health (pollKeepalive lib inp ctx).health ∧
      (pollKeepalive lib inp ctx).now ≤ tick64 inp.keepalive.clock := by
  simp only [pollKeepalive]
  split
  · split
    · exact rudpSend_tick _ _ _ hle
    · exact ⟨.refl, hle⟩
  · exact ⟨.refl, hle⟩

theorem pollTimeout_health (ctx : RudpContext) (clock : Timespec) :
    (pollTimeout ((ctx.readClock clock).record (.polled (tick64 clock) ctx.lastRecvTick))).health =
      pollEntry (tick64 clock) ctx.health := by
  unfold pollTimeout pollEntry
  split
  · rename_i h
    exact (if_pos h).symm
  · rename_i h
    exact (if_neg h).symm

theorem pollEntry_now (t : ℕ) (h : Health) : (pollEntry t h).now = t := by
  simp only [pollEntry]
  split <;> rfl

theorem rudpPoll_health (inp : PollInput) (hinit : ctx.inited = true)
    (horder : inp.InOrder ctx.now) :
    ReflTransGen PacketStep (pollEntry (tick64 inp.clock) ctx.health)
      (rudpPoll lib inp ctx).health := by
  obtain ⟨-, hka, hsorted⟩ := horder
  rw [List.pairwise_cons] at hsorted
  have hentry := pollTimeout_health ctx inp.clock
  have hnow : (pollTimeout ((ctx.readClock inp.clock).record
      (.polled (tick64 inp.clock) ctx.lastRecvTick))).now = tick64 inp.clock :=
    (congrArg Health.now hentry).trans (pollEntry_now _ _)
  obtain ⟨hsteps, hle⟩ := pollKeepalive_health inp (hnow.le.trans hka)
  rw [← hentry]
  simp only [rudpPoll, hinit, Bool.true_eq_false, if_false]
  apply hsteps.trans
  apply recvLoop_health _ _ _ hsorted.2
  intro d hd
  exact hle.trans (hsorted.1 _ (List.mem_map_of_mem hd))

theorem suspendMs_le (n : ℕ) : 0 < suspendMs n ∧ suspendMs n ≤ 240000 := by
  have hshift : (if int32 n > suspendBackoffMaxShift then suspendBackoffMaxShift
      else int32 n).toNat ≤ 3 := by
    unfold suspendBackoffMaxShift
    split_ifs <;> omega
  have hpow := Nat.pow_le_pow_right (show 0 < 2 by decide) hshift
  constructor
  · exact Nat.mul_pos (by decide) (Nat.pow_pos (by decide))
  · exact Nat.mul_le_mul_left udpSuspendMs hpow

theorem wrap64_suspend {now : ℕ} (hnow : now < 2 ^ 44) (n : ℕ) :
    wrap64 (now + suspendMs n) = now + suspendMs n := by
  have hms := suspendMs_le n
  apply Nat.mod_eq_of_lt
  norm_num at hnow ⊢
  linarith

theorem cleanReset_health (ctx : RudpContext) :
    ReflTransGen EvalStep ctx.health (cleanReset ctx).health := by
  unfold cleanReset
  split_ifs with h
  · obtain ⟨hsusp, hloss, hlt, hclean⟩ := h
    have hle : ctx.lastLossEventTick + cleanResetMs ≤ ctx.now := by omega
    exact .single (.reset ctx.health hsusp hloss hle)
  · exact .refl

theorem cleanReset_now (ctx : RudpContext) : (cleanReset ctx).now = ctx.now := by
  unfold cleanReset
  split_ifs <;> rfl

theorem checkReception_health (check : Bool) (ctx : RudpContext) :
    ReflTransGen EvalStep ctx.health (checkReception check ctx).1.health := by
  unfold checkReception
  split_ifs with hcheck hstale
  · exact .single (.unstable ctx.health hstale)
  · exact .refl
  · exact .refl
  · exact .refl

theorem checkReception_suspended (check : Bool) (ctx : RudpContext) :
    (checkReception check ctx).1.udpDataSuspended = ctx.udpDataSuspended := by
  unfold checkReception
  split_ifs <;> rfl

theorem suspendData_health (hnow : ctx.now < 2 ^ 44) (hsusp : ctx.udpDataSuspended = false)
    (hover : overflowSuspendThreshold ≤ ctx.recentOverflows) :
    EvalStep ctx.health (suspendData ctx).health ∧
      (suspendData ctx).now < (suspendData ctx).udpDataResumeTick := by
  have hms := suspendMs_le ctx.suspensionCount
  have hwrap := wrap64_suspend hnow ctx.suspensionCount
  have hstep := EvalStep.suspend ctx.health hsusp hover
  constructor
  · simp only [suspendData, hwrap]
    exact hstep
  · simp only [suspendData, hwrap, RudpContext.record]
    omega

theorem endSuspension_health (hresume : ctx.udpDataSuspended = true →
    ctx.udpDataResumeTick ≤ ctx.now) :
    ReflTransGen EvalStep ctx.health (endSuspension ctx).health := by
  unfold endSuspension
  split_ifs with hsusp
  · exact .single (.resumed ctx.health hsusp (hresume hsusp))
  · exact .refl

@[simp] theorem endSuspension_suspended (ctx : RudpContext) :
    (endSuspension ctx).udpDataSuspended = false := by
  unfold endSuspension
  split_ifs with hsusp
  · rfl
  · simpa using hsusp

@[simp] theorem endSuspension_now (ctx : RudpContext) : (endSuspension ctx).now = ctx.now := by
  unfold endSuspension
  split_ifs <;> rfl

theorem rudpIsSendReadyNolock_health (check : Bool) (hnow : ctx.now < 2 ^ 44) :
    let r := rudpIsSendReadyNolock check ctx
    ReflTransGen EvalStep ctx.health r.1.health ∧
      (r.1.udpDataSuspended = true → r.2 = false ∧ r.1.now < r.1.udpDataResumeTick) := by
  have hreset : ReflTransGen EvalStep ctx.health (cleanReset (rudpCwinRefill ctx)).health := by
    rw [← rudpCwinRefill_health ctx]
    exact cleanReset_health _
  have hnow' : (cleanReset (rudpCwinRefill ctx)).now < 2 ^ 44 := by
    have hrefill : (rudpCwinRefill ctx).now = ctx.now :=
      congrArg Health.now (rudpCwinRefill_health ctx)
    rwa [cleanReset_now, hrefill]
  simp only [rudpIsSendReadyNolock]
  generalize cleanReset (rudpCwinRefill ctx) = c at hreset hnow'
  split
  · rename_i h
    exact ⟨hreset, fun _ => ⟨rfl, h.2⟩⟩
  · rename_i h
    have hresume : c.udpDataSuspended = true → c.udpDataResumeTick ≤ c.now := by
      intro hsusp
      by_contra hlt
      exact h ⟨hsusp, not_le.mp hlt⟩
    have hprobe := hreset.trans (endSuspension_health hresume)
    split
    · rename_i hover
      obtain ⟨hstep, hlt⟩ := suspendData_health ((endSuspension_now c).trans_lt hnow')
        (endSuspension_suspended c) hover
      exact ⟨hprobe.tail hstep, fun _ => ⟨rfl, hlt⟩⟩
    · refine ⟨hprobe.trans (checkReception_health check _), ?_⟩
      rw [checkReception_suspended, endSuspension_suspended]
      simp

theorem rudpIsSendReady_health (check : Bool) (hnow : ctx.now < 2 ^ 44) :
    ReflTransGen EvalStep ctx.health (rudpIsSendReady check ctx).1.health := by
  unfold rudpIsSendReady
  split
  · exact .refl
  · have heval : ReflTransGen EvalStep ctx.health
        (ctx.record (.evaluated ctx.now ctx.lastRecvTick)).health :=
      .single (.evaluated ctx.health)
    obtain ⟨hsteps, hsusp⟩ := rudpIsSendReadyNolock_health check
      (show (ctx.record (.evaluated ctx.now ctx.lastRecvTick)).now < 2 ^ 44 from hnow)
    exact (heval.trans hsteps).tail (.answered _ _ hsusp)

theorem rudpRecv_health (n : ℕ) (ctx : RudpContext) :
    (rudpRecv n ctx).1.health = ctx.health := by
  unfold rudpRecv
  split
  · rfl
  · split <;> rfl

end Simulation

/-- One call on the context. -/
inductive Call
  | poll (inp : PollInput)
  | send (inp : SendInput) (data : Bytes) (flag : UInt8)
  | ready (checkKeepalive : Bool)
  | recv (maxLen : ℕ)

/-- The clock never goes back. -/
def Call.InOrder (now : ℕ) : Call → Prop
  | .poll inp => inp.InOrder now
  | .send inp _ _ => now ≤ tick64 inp.clock
  | .ready _ => True
  | .recv _ => True

instance (now : ℕ) : ∀ c : Call, Decidable (c.InOrder now)
  | .poll _ => inferInstanceAs (Decidable (_ ∧ _ ∧ List.Pairwise _ _))
  | .send inp _ _ => inferInstanceAs (Decidable (now ≤ tick64 inp.clock))
  | .ready _ => inferInstanceAs (Decidable True)
  | .recv _ => inferInstanceAs (Decidable True)

def call (lib : Libs) (ctx : RudpContext) : Call → RudpContext
  | .poll inp => rudpPoll lib inp ctx
  | .send inp data flag => (rudpSend lib inp data flag ctx).ctx
  | .ready check => (rudpIsSendReady check ctx).1
  | .recv maxLen => (rudpRecv maxLen ctx).1

def callStep (lib : Libs) (ctx : RudpContext) (c : Call) : Option RudpContext :=
  if c.InOrder ctx.now then some (call lib ctx c) else none

theorem callStep_eq_some {lib : Libs} {ctx ctx' : RudpContext} {c : Call} :
    callStep lib ctx c = some ctx' ↔ c.InOrder ctx.now ∧ call lib ctx c = ctx' := by
  unfold callStep
  split_ifs with h <;> simp [h]

/-- `P` holds of the path between calls and `Q` while a poll receives packets. -/
structure HealthInvariant (P Q : Health → Prop) : Prop where
  inited : ∀ h, P h → h.inited = true
  now_lt : ∀ h, P h → h.now < 2 ^ 44
  tick : ∀ h t, P h → h.now ≤ t → t < 2 ^ 44 → P { h with now := t }
  eval : ∀ h h', P h → EvalStep h h' → P h'
  enter : ∀ h t, P h → h.now ≤ t → t < 2 ^ 44 → Q (pollEntry t h)
  packet : ∀ h h', Q h → PacketStep h h' → Q h'
  leave : ∀ h, Q h → P h

namespace HealthInvariant

variable {P Q : Health → Prop} {lib : Libs} {ctx ctx' : RudpContext}

theorem evals (I : HealthInvariant P Q) {h h' : Health} (hP : P h)
    (hsteps : ReflTransGen EvalStep h h') : P h' := by
  induction hsteps with
  | refl => exact hP
  | tail _ hstep ih => exact I.eval _ _ ih hstep

theorem packets (I : HealthInvariant P Q) {h h' : Health} (hQ : Q h)
    (hsteps : ReflTransGen PacketStep h h') : Q h' := by
  induction hsteps with
  | refl => exact hQ
  | tail _ hstep ih => exact I.packet _ _ ih hstep

theorem step (I : HealthInvariant P Q) {c : Call} (hP : P ctx.health)
    (hstep : callStep lib ctx c = some ctx') : P ctx'.health := by
  obtain ⟨horder, rfl⟩ := callStep_eq_some.mp hstep
  cases c with
  | poll inp =>
    have hQ := I.enter _ _ hP horder.1 (tick64_lt inp.clock)
    exact I.leave _ (I.packets hQ (rudpPoll_health inp (I.inited _ hP) horder))
  | send inp data flag =>
    change P (rudpSend lib inp data flag ctx).ctx.health
    rcases rudpSend_health lib ctx inp data flag with h | h
    · rw [h]
      exact hP
    · rw [h]
      exact I.tick _ _ hP horder (tick64_lt inp.clock)
  | ready check => exact I.evals hP (rudpIsSendReady_health check (I.now_lt _ hP))
  | recv maxLen =>
    change P (rudpRecv maxLen ctx).1.health
    rw [rudpRecv_health]
    exact hP

/-- A property of the path that every step keeps holds after every run of calls. -/
theorem run (I : HealthInvariant P Q) {cs : List Call} (hP : P ctx.health)
    (hrun : exec (callStep lib) ctx cs = some ctx') : P ctx'.health :=
  exec_invariant (fun _ _ _ hP hstep => I.step hP hstep) hP hrun

end HealthInvariant


end SoftEtherVpn.UdpAccel
