import SoftEtherVpn.Foundation.Backoff
import SoftEtherVpn.Foundation.Runs
import SoftEtherVpn.Rudp.Timers
import SoftEtherVpn.Rudp.WireFraming

/-!
# The worker from its start to its end

The loop of `rt_worker` drains the socket, runs an interrupt and sleeps, until the session has
ended. A session that never got an answer has touched nothing of the application. The worker
ends a session in time, sleeps through no deadline of it, and sends a segment to a peer that has
fallen silent seven times at most.
-/

namespace SoftEtherVpn.Rudp

open Foundation

/-- The worker between two turns of its loop; it sleeps until `wake`. -/
structure RtWorker where
  framing : Framing
  t : RudpTransport
  wake : ℕ

/-- What one turn finds: the datagrams in the socket, each with its source port, and the ticks of
the interrupt and of the poll. -/
structure Turn where
  w : World
  datagrams : List (ℕ × Bytes)
  now : ℕ
  pollTick : ℕ

/-- One turn of the loop of `rt_worker`. After the one in which the session ends there is none. -/
def rtWorkerTurn (c : Crypto) (s : RtWorker) (r : Turn) : Option RtWorker :=
  if s.t.se.status = .disconnected ∧ s.t.result ≠ none then none
  else
    let d := drainSocket c r.w (s.framing, s.t) r.datagrams
    let t := if d.2.se.status ≠ .disconnected then rtInterrupt c r.w r.now d.2 else d.2
    some
      { framing := d.1
        t := t
        wake := r.pollTick + rtComputePollTimeout t r.pollTick }

/-- The worker when its thread starts. -/
def rtWorkerStart (c : Crypto) (i : ConnectInputs) (f : Framing) : RtWorker where
  framing := f
  t := rudpTransportStart c i
  wake := i.tick

/-! ## What an interrupt does to the clocks and to the verdict -/

/-- The ticks that deadlines are computed from. -/
def RudpTransport.clockView (t : RudpTransport) : ℕ × ℕ × ℕ × ℕ :=
  (t.se.currentRtt, t.se.latestRecvMyTick, t.se.createdTick, t.connectTimeoutMs)

/-- The status and the verdict. -/
def RudpTransport.life (t : RudpTransport) : RtStatus × Option Bool := (t.se.status, t.result)

/-- What holds of a new segment, and stays true when a segment is sent at `now`. -/
structure SegmentRule (currentRtt now : ℕ) (P : RtSegment → Prop) : Prop where
  fresh : ∀ seq data, P { seq := seq, data := data }
  sent : ∀ s seqMin, P s → P (retransmitSegment currentRtt now seqMin s)

/-- The clocks stand, and the session may have ended. -/
structure Works (now : ℕ) (t u : RudpTransport) : Prop where
  clock : u.clockView = t.clockView
  key : u.keyView = t.keyView
  life : u.life = t.life ∨ u.life = (.disconnected, some (t.result.getD false))
  segments : ∀ P, SegmentRule t.se.currentRtt now P →
    (∀ s ∈ t.se.sendSegments, P s) → ∀ s ∈ u.se.sendSegments, P s

namespace Works

variable {now : ℕ} {t u v : RudpTransport}

theorem of_same (hclock : u.clockView = t.clockView) (hkey : u.keyView = t.keyView)
    (hlife : u.life = t.life) (hsegs : u.se.sendSegments = t.se.sendSegments) : Works now t u where
  clock := hclock
  key := hkey
  life := Or.inl hlife
  segments P _ h := by rwa [hsegs]

theorem refl (t : RudpTransport) : Works now t t := of_same rfl rfl rfl rfl

theorem rtt (h : Works now t u) : u.se.currentRtt = t.se.currentRtt := congrArg Prod.fst h.clock

theorem trans (h : Works now t u) (h' : Works now u v) : Works now t v where
  clock := h'.clock.trans h.clock
  key := h'.key.trans h.key
  life := by
    have hresult : u.result.getD false = t.result.getD false := by
      rcases h.life with hl | hl
      · rw [show u.result = t.result from congrArg Prod.snd hl]
      · rw [show u.result = _ from congrArg Prod.snd hl]
        rfl
    rcases h'.life with hl' | hl'
    · rw [hl']
      exact h.life
    · right
      rw [hl', hresult]
  segments P hP ht := h'.segments P (by rwa [h.rtt]) (h.segments P hP ht)

theorem foldl {α : Type*} {f : RudpTransport → α → RudpTransport}
    (hf : ∀ t a, Works now t (f t a)) (xs : List α) (t : RudpTransport) :
    Works now t (xs.foldl f t) := by
  induction xs generalizing t with
  | nil => exact refl t
  | cons x xs ih => exact (hf t x).trans (ih (f t x))

end Works

section Interrupt

variable (c : Crypto) (w : World) (now : ℕ)

theorem rtSignalResult_life (u : RudpTransport) :
    (rtSignalResult (u.withSe fun se => { se with status := .disconnected }) false).life =
      (.disconnected, some (u.result.getD false)) := by
  obtain ⟨e, timeout, mode, result, calls, se, hist⟩ := u
  cases result with
  | none => rfl
  | some b => rfl

theorem rtSignalResult_works (u : RudpTransport) :
    Works now u
      (rtSignalResult (u.withSe fun se => { se with status := .disconnected }) false) := by
  obtain ⟨e, timeout, mode, result, calls, se, hist⟩ := u
  cases result with
  | none => exact ⟨rfl, rfl, Or.inr rfl, fun P _ h => h⟩
  | some b => exact ⟨rfl, rfl, Or.inr rfl, fun P _ h => h⟩

/-- The segments that announce the end. -/
def rtFarewell (t : RudpTransport) : RudpTransport :=
  (List.range 5).foldl (fun t _ => rtSendSegmentNow c w t t.se.magicDisconnect []) t

theorem rtFarewell_works (t : RudpTransport) : Works now t (rtFarewell c w t) := by
  apply Works.foldl
  intro u _
  exact Works.of_same rfl rfl rfl rfl

theorem rtFarewell_same (t : RudpTransport) : (rtFarewell c w t).result = t.result ∧
    (rtFarewell c w t).se.sendSegments = t.se.sendSegments := by
  have hall : ∀ (xs : List ℕ) (u : RudpTransport),
      let v := xs.foldl (fun t _ => rtSendSegmentNow c w t t.se.magicDisconnect []) u
      v.result = u.result ∧ v.se.sendSegments = u.se.sendSegments := by
    intro xs
    induction xs with
    | nil => exact fun u => ⟨rfl, rfl⟩
    | cons x xs ih => exact fun u => ih (rtSendSegmentNow c w u u.se.magicDisconnect [])
  exact hall _ t

theorem rtSetDisconnected_eq (t : RudpTransport) (byYou : Bool) :
    rtSetDisconnected c w t byYou =
      if t.se.status = .disconnected then t
      else rtSignalResult ((if byYou = false ∧ t.se.status = .established
        then rtFarewell c w t else t).withSe fun se => { se with status := .disconnected }) false :=
  rfl

theorem rtSetDisconnected_life (t : RudpTransport) (byYou : Bool)
    (h : t.se.status ≠ .disconnected) :
    (rtSetDisconnected c w t byYou).life = (.disconnected, some (t.result.getD false)) := by
  rw [rtSetDisconnected_eq, if_neg h, rtSignalResult_life]
  split_ifs
  · rw [(rtFarewell_same c w t).1]
  · rfl

theorem rtSetDisconnected_works (t : RudpTransport) (byYou : Bool) :
    Works now t (rtSetDisconnected c w t byYou) := by
  rw [rtSetDisconnected_eq]
  split_ifs
  · exact Works.refl t
  · exact (rtFarewell_works c w now t).trans (rtSignalResult_works now _)
  · exact rtSignalResult_works now t

theorem rtQueueSegment_works (t : RudpTransport) (kind : SegmentKind) (data : Bytes) :
    Works now t (rtQueueSegment t kind data) := by
  unfold rtQueueSegment
  split_ifs
  · exact Works.refl t
  · refine ⟨rfl, rfl, Or.inl rfl, ?_⟩
    intro P hP ht s hs
    rcases List.mem_append.mp hs with hs | hs
    · exact ht s hs
    · obtain rfl := List.mem_singleton.mp hs
      exact hP.fresh _ _

theorem rtSegmentSendFifo_works (t : RudpTransport) : Works now t (rtSegmentSendFifo t) := by
  induction t using rtSegmentSendFifo.induct with
  | case1 t seqMin hfull =>
    rw [rtSegmentSendFifo, if_pos hfull]
    exact Works.refl t
  | case2 t seqMin hopen h0 =>
    rw [rtSegmentSendFifo, if_neg hopen, dif_pos h0]
    exact Works.refl t
  | case3 t seqMin hopen h0 size tmp ih =>
    rw [rtSegmentSendFifo, if_neg hopen, dif_neg h0]
    refine ((rtQueueSegment_works now t .data tmp).trans ?_).trans ih
    exact Works.of_same rfl rfl rfl rfl

theorem rtPeriodicKeepalive_works (t : RudpTransport) :
    Works now t (rtPeriodicKeepalive w now t) := by
  unfold rtPeriodicKeepalive
  split_ifs
  · exact (rtQueueSegment_works now t _ _).trans (Works.of_same rfl rfl rfl rfl)
  · exact Works.of_same rfl rfl rfl rfl
  · exact Works.refl t

theorem retransmitSlot_works (seqMin : ℕ) (t : RudpTransport) (j : ℕ) :
    Works now t (retransmitSlot c w now seqMin t j) := by
  obtain ⟨hsegs, -⟩ := retransmitSlot_segments c w now seqMin t j
  have hviews : (retransmitSlot c w now seqMin t j).clockView = t.clockView ∧
      (retransmitSlot c w now seqMin t j).keyView = t.keyView ∧
      (retransmitSlot c w now seqMin t j).life = t.life := by
    unfold retransmitSlot
    split
    · exact ⟨rfl, rfl, rfl⟩
    · split_ifs <;> exact ⟨rfl, rfl, rfl⟩
  obtain ⟨hclock, hkey, hlife⟩ := hviews
  refine ⟨hclock, hkey, Or.inl hlife, ?_⟩
  intro P hP ht s hs
  rw [hsegs] at hs
  obtain ⟨i, hi⟩ := List.getElem?_of_mem hs
  rw [List.getElem?_modify] at hi
  obtain ⟨s₀, hs₀, rfl⟩ := Option.map_eq_some_iff.mp hi
  have hmem := ht s₀ (List.mem_of_getElem? hs₀)
  split_ifs
  · exact hP.sent s₀ seqMin hmem
  · exact hmem

theorem rtRetransmit_works (t : RudpTransport) : Works now t (rtRetransmit c w now t) :=
  Works.foldl (retransmitSlot_works c w now _) _ t

theorem rtFlushAcks_works (t : RudpTransport) : Works now t (rtFlushAcks c w t) := by
  unfold rtFlushAcks
  split_ifs
  · exact Works.refl t
  · exact Works.of_same rfl rfl rfl rfl

theorem pumpRecvLoop_works (rs : List SendResult) (t : RudpTransport) :
    Works now t (pumpRecvLoop c w t rs) := by
  induction rs generalizing t with
  | nil => exact Works.refl t
  | cons r rs ih =>
    unfold pumpRecvLoop
    split_ifs
    · exact Works.refl t
    · cases r with
      | failed => exact rtSetDisconnected_works c w now t false
      | accepted n =>
        dsimp only
        split_ifs
        · exact Works.refl t
        · refine Works.trans ?_ (ih _)
          exact Works.of_same rfl rfl rfl rfl

theorem pumpPairLoop_works (rs : List RecvResult) (t : RudpTransport) :
    Works now t (pumpPairLoop c w t rs) := by
  induction rs generalizing t with
  | nil => exact Works.refl t
  | cons r rs ih =>
    unfold pumpPairLoop
    split_ifs
    · exact Works.refl t
    · cases r with
      | failed => exact rtSetDisconnected_works c w now t false
      | closed => exact rtSetDisconnected_works c w now t false
      | chunk bytes pos le =>
        refine Works.trans ?_ (ih _)
        exact Works.of_same rfl rfl rfl rfl

theorem drainLoop_works (segs : List RtSegment) (t : RudpTransport) (cur d : ℕ) :
    Works now t (drainLoop t cur d segs).1 := by
  induction segs generalizing t cur d with
  | nil => exact Works.refl t
  | cons s rest ih =>
    have hconsume : ∀ v, Works now t v → Works now t (drainLoop
        (v.withSe fun se => { se with lastRecvCompleteSeq := s.seq })
        (wrap64 (cur + 1)) (d + 1) rest).1 := by
      intro v hv
      refine (hv.trans ?_).trans (ih _ _ _)
      exact Works.of_same rfl rfl rfl rfl
    unfold drainLoop
    dsimp only
    split_ifs
    · exact Works.refl t
    · exact hconsume _ (rtQueueSegment_works now t .keepAlive _)
    · exact hconsume t (Works.refl t)
    · exact hconsume t (Works.refl t)
    · cases rtFifoWrite t.se.recvFifo s.data with
      | none => exact Works.refl t
      | some fifo => exact hconsume _ (Works.of_same rfl rfl rfl rfl)

/-- What comes before the retransmission. -/
theorem rtInterruptPrepare_works (t : RudpTransport) :
    Works now t (rtPeriodicKeepalive w now (rtSegmentSendFifo (rtPumpPairToSend c w
      (rtPumpRecvToPair c w (drainRecvSegments t).1)))) := by
  have hcall : ∀ u : RudpTransport, Works now u { u with calls := u.calls + 1 } := fun u =>
    Works.of_same rfl rfl rfl rfl
  have hdrain : Works now t (drainRecvSegments t).1 := by
    refine (drainLoop_works now t.se.recvSegments t t.se.lastRecvCompleteSeq 0).trans ?_
    exact Works.of_same rfl rfl rfl rfl
  have hrecv : ∀ u, Works now u (rtPumpRecvToPair c w u) := fun u =>
    (hcall u).trans (pumpRecvLoop_works c w now (w.send u.calls) _)
  have hread : ∀ u, Works now u (rtPumpPairToSend c w u) := fun u =>
    (hcall u).trans (pumpPairLoop_works c w now (w.recv u.calls) _)
  refine (hdrain.trans (hrecv _)).trans ((hread _).trans ?_)
  exact (rtSegmentSendFifo_works now _).trans (rtPeriodicKeepalive_works w now _)

theorem rtInterruptEstablished_works (t : RudpTransport) :
    Works now t (rtInterruptEstablished c w now t) :=
  (rtInterruptPrepare_works c w now t).trans
    ((rtRetransmit_works c w now _).trans (rtFlushAcks_works c w now _))

theorem rtInterruptConnecting_works (t : RudpTransport) :
    Works now t (rtInterruptConnecting c w now t) := by
  have hend : ∀ u, Works now t u → Works now t
      (if sub64 now u.se.createdTick ≥ u.connectTimeoutMs then
        rtSetDisconnected c w { u with errorCode := .timeout } false else u) := by
    intro u hu
    split_ifs
    · refine hu.trans (Works.trans ?_ (rtSetDisconnected_works c w now _ false))
      exact Works.of_same rfl rfl rfl rfl
    · exact hu
  unfold rtInterruptConnecting
  apply hend
  split_ifs
  · exact Works.of_same rfl rfl rfl rfl
  · exact Works.refl t

theorem rtInterrupt_works (t : RudpTransport) : Works now t (rtInterrupt c w now t) := by
  unfold rtInterrupt
  cases t.se.status with
  | connectSent => exact rtInterruptConnecting_works c w now t
  | disconnected => exact Works.refl t
  | established =>
    dsimp only
    split_ifs
    · refine Works.trans ?_ (rtSetDisconnected_works c w now _ false)
      exact Works.of_same rfl rfl rfl rfl
    · exact rtInterruptEstablished_works c w now t

/-- Segments are sent only before the session is given up. -/
theorem rtInterrupt_segments (t : RudpTransport) {P : RtSegment → Prop}
    (hP : now < wrap64 (t.se.latestRecvMyTick + timeoutMs) → SegmentRule t.se.currentRtt now P)
    (ht : ∀ s ∈ t.se.sendSegments, P s) : ∀ s ∈ (rtInterrupt c w now t).se.sendSegments, P s := by
  have hdisc : ∀ u : RudpTransport, (rtSetDisconnected c w u false).se.sendSegments =
      u.se.sendSegments := by
    intro u
    have hsignal : ∀ v : RudpTransport, (rtSignalResult (v.withSe fun se =>
        { se with status := .disconnected }) false).se.sendSegments = v.se.sendSegments := by
      intro v
      unfold rtSignalResult
      split <;> rfl
    rw [rtSetDisconnected_eq]
    split_ifs
    · rfl
    · rw [hsignal]
      exact (rtFarewell_same c w u).2
    · rw [hsignal]
  by_cases hest : t.se.status = .established ∧ now < wrap64 (t.se.latestRecvMyTick + timeoutMs)
  · exact (rtInterrupt_works c w now t).segments P (hP hest.2) ht
  · have hsame : (rtInterrupt c w now t).se.sendSegments = t.se.sendSegments := by
      unfold rtInterrupt
      cases hstatus : t.se.status with
      | disconnected => rfl
      | connectSent =>
        unfold rtInterruptConnecting
        dsimp only
        split_ifs
        · exact hdisc _
        · rfl
        · exact hdisc _
        · rfl
      | established =>
        dsimp only
        rw [if_pos (not_lt.mp fun hlt => hest ⟨hstatus, hlt⟩)]
        exact hdisc _
    rwa [hsame]

end Interrupt

/-! ## What a datagram does to them -/

/-- The datagram was sealed under the receive key, and its segment establishes a session. -/
def Opens (c : Crypto) (t : RudpTransport) (buf : Bytes) : Prop :=
  ∃ i, (openPacket c t.se.keyRecv buf).bind parseSegment = some i ∧
    i.seq ≠ 0 ∧ i.seq ≠ t.se.magicDisconnect

/-- Nothing was sent, and the session may have been established or ended by the peer. -/
structure Hears (c : Crypto) (w : World) (buf : Bytes) (t u : RudpTransport) : Prop where
  hist : u.hist = t.hist
  key : u.keyView = t.keyView
  clock : ∃ m, t.se.latestRecvMyTick ≤ m ∧ m ≤ max t.se.latestRecvMyTick (w.tick t.calls) ∧
    u.clockView = (t.se.currentRtt, m, t.se.createdTick, t.connectTimeoutMs)
  segments : u.se.sendSegments.Sublist t.se.sendSegments
  life : u.life = t.life ∨
    (t.se.status ≠ .disconnected ∧ u.life = (.disconnected, some (t.result.getD false))) ∨
    (t.se.status = .connectSent ∧ Opens c t buf ∧
      u.life = (.established, some (t.result.getD true)))

theorem Hears.refl {c : Crypto} {w : World} {buf : Bytes} (t : RudpTransport) :
    Hears c w buf t t :=
  ⟨rfl, rfl, ⟨_, le_rfl, le_max_left _ _, rfl⟩, List.Sublist.refl _, Or.inl rfl⟩

theorem rtApplyAcks_eq_withWindow (t : RudpTransport) (i : SegmentInfo) :
    ∃ segs y, rtApplyAcks t i = t.withWindow segs y (max t.se.latestRecvMyTick i.yourTick) ∧
      segs.Sublist t.se.sendSegments := by
  obtain ⟨segs, y, m, heq, hgave⟩ := rtApplyAcks_eq t i
  have hecho : (rtApplyAcks t i).se.latestRecvMyTick = max t.se.latestRecvMyTick i.yourTick := by
    obtain ⟨segs', hacks, -⟩ :=
      foldl_rtProcessAck_eq i.acks (if i.maxAck ≥ 1 then rtProcessAck2 t i.maxAck else t)
    unfold rtApplyAcks
    dsimp only
    rw [hacks]
    split_ifs <;> rfl
  obtain rfl : m = max t.se.latestRecvMyTick i.yourTick := by
    rw [← hecho, heq]
    rfl
  exact ⟨segs, y, heq, hgave.sublist⟩

theorem rtProcessRecvPayload_same (t : RudpTransport) (seq : ℕ) (payload : Bytes) :
    let u := rtProcessRecvPayload t seq payload
    u.hist = t.hist ∧ u.keyView = t.keyView ∧ u.clockView = t.clockView ∧
      u.se.sendSegments = t.se.sendSegments ∧ u.life = t.life := by
  have hack : ∀ v : RudpTransport, (rtAddAck v seq).hist = v.hist ∧
      (rtAddAck v seq).keyView = v.keyView ∧ (rtAddAck v seq).clockView = v.clockView ∧
      (rtAddAck v seq).se.sendSegments = v.se.sendSegments ∧ (rtAddAck v seq).life = v.life := by
    intro v
    unfold rtAddAck RudpTransport.withSe RudpTransport.keyView RudpTransport.clockView
      RudpTransport.life
    dsimp only
    split_ifs <;> exact ⟨rfl, rfl, rfl, rfl, rfl⟩
  dsimp only
  unfold rtProcessRecvPayload
  split_ifs
  · exact ⟨rfl, rfl, rfl, rfl, rfl⟩
  · exact hack t
  · exact hack t
  · exact ⟨rfl, rfl, rfl, rfl, rfl⟩
  · exact hack _

theorem rtEstablish_same (t : RudpTransport) :
    (rtEstablish t).hist = t.hist ∧ (rtEstablish t).keyView = t.keyView ∧
      (rtEstablish t).clockView = t.clockView ∧
      (rtEstablish t).se.sendSegments = t.se.sendSegments ∧
      (rtEstablish t).life = if t.se.status = .connectSent
        then (.established, some (t.result.getD true)) else t.life := by
  obtain ⟨e, timeout, mode, result, calls, se, hist⟩ := t
  unfold rtEstablish
  split_ifs
  · cases result with
    | none => exact ⟨rfl, rfl, rfl, rfl, rfl⟩
    | some b => exact ⟨rfl, rfl, rfl, rfl, rfl⟩
  · exact ⟨rfl, rfl, rfl, rfl, rfl⟩

theorem rtSetDisconnected_hears (c : Crypto) (w : World) (t : RudpTransport)
    (h : t.se.status ≠ .disconnected) :
    let u := rtSetDisconnected c w t true
    u.hist = t.hist ∧ u.keyView = t.keyView ∧ u.clockView = t.clockView ∧
      u.se.sendSegments = t.se.sendSegments ∧
      u.life = (.disconnected, some (t.result.getD false)) := by
  obtain ⟨e, timeout, mode, result, calls, se, hist⟩ := t
  dsimp only
  rw [rtSetDisconnected_eq, if_neg h, if_neg fun hbye => Bool.noConfusion hbye.1]
  cases result with
  | none => exact ⟨rfl, rfl, rfl, rfl, rfl⟩
  | some b => exact ⟨rfl, rfl, rfl, rfl, rfl⟩

theorem rtHandleUdpPacket_hears (c : Crypto) (w : World) (t : RudpTransport) (srcPort : ℕ)
    (buf : Bytes) : Hears c w buf t (rtHandleUdpPacket c w t srcPort buf) := by
  unfold rtHandleUdpPacket
  split_ifs with hdisc hshort
  · exact Hears.refl t
  · exact Hears.refl t
  · cases hopen : (openPacket c t.se.keyRecv buf).bind parseSegment with
    | none => exact Hears.refl t
    | some i =>
      dsimp only
      unfold rtApplySegment
      split_ifs with hfuture
      · exact Hears.refl t
      · obtain ⟨segs, y, heq, hsub⟩ := rtApplyAcks_eq_withWindow t i
        rw [heq]
        obtain ⟨v, hv⟩ : ∃ v, v = t.withWindow segs y (max t.se.latestRecvMyTick i.yourTick) :=
          ⟨_, rfl⟩
        have hlife : v.life = t.life := by rw [hv]; rfl
        -- what the rest of the function leaves alone after the acknowledgements
        have hrest : ∀ u : RudpTransport, u.hist = v.hist → u.keyView = v.keyView →
            u.clockView = v.clockView → u.se.sendSegments = v.se.sendSegments →
            (u.life = t.life ∨
              (t.se.status ≠ .disconnected ∧
                u.life = (.disconnected, some (t.result.getD false))) ∨
              (t.se.status = .connectSent ∧ Opens c t buf ∧
                u.life = (.established, some (t.result.getD true)))) → Hears c w buf t u := by
          intro u hhist hkey hclock hsegs hl
          rw [hv] at hhist hkey hclock hsegs
          refine ⟨hhist, hkey, ⟨_, le_max_left _ _, ?_, hclock⟩, ?_, hl⟩
          · exact max_le_max le_rfl (not_lt.mp hfuture)
          · rw [hsegs]
            exact hsub
        rw [← hv]
        unfold rtApplyPayload
        by_cases hzero : i.seq = 0
        · rw [if_pos hzero]
          exact hrest v rfl rfl rfl rfl (Or.inl hlife)
        rw [if_neg hzero]
        by_cases hbye : i.seq = v.se.magicDisconnect
        · rw [if_pos hbye]
          have hstatus : v.se.status ≠ .disconnected := by
            rw [show v.se.status = t.se.status from congrArg Prod.fst hlife]
            exact hdisc
          obtain ⟨hhist, hkey, hclock, hsegs, hl⟩ := rtSetDisconnected_hears c w v hstatus
          refine hrest _ hhist hkey hclock hsegs (Or.inr (Or.inl ⟨hdisc, ?_⟩))
          rw [hl, show v.result = t.result from congrArg Prod.snd hlife]
        rw [if_neg hbye]
        have hopens : Opens c t buf := by
          refine ⟨i, hopen, hzero, ?_⟩
          rw [show t.se.magicDisconnect = v.se.magicDisconnect by rw [hv]; rfl]
          exact hbye
        have hend : ∀ u : RudpTransport, u.hist = v.hist → u.keyView = v.keyView →
            u.clockView = v.clockView → u.se.sendSegments = v.se.sendSegments →
            u.life = v.life → Hears c w buf t
              ((rtEstablish u).withSe fun se => { se with yourPort := srcPort }) := by
          intro u hhist hkey hclock hsegs hl
          obtain ⟨hhist', hkey', hclock', hsegs', hl'⟩ := rtEstablish_same u
          refine hrest _ (hhist'.trans hhist) (hkey'.trans hkey) (hclock'.trans hclock)
            (hsegs'.trans hsegs) ?_
          have hboth := hl.trans hlife
          rw [show u.se.status = t.se.status from congrArg Prod.fst hboth,
            show u.result = t.result from congrArg Prod.snd hboth] at hl'
          split_ifs at hl' with hconn
          · exact Or.inr (Or.inr ⟨hconn, hopens, hl'⟩)
          · exact Or.inl (hl'.trans hboth)
        generalize (if i.payload.length > maxSegmentSize then [] else i.payload) = payload
        dsimp only
        split_ifs
        · obtain ⟨hhist, hkey, hclock, hsegs, hl⟩ := rtProcessRecvPayload_same v i.seq payload
          exact hend _ hhist hkey hclock hsegs hl
        · exact hend v rfl rfl rfl rfl rfl

/-! ## Turns of the loop -/

/-- The datagram `d` was received as a packet with this payload. -/
def Carried (mode : TransportMode) (d payload : Bytes) : Prop :=
  ∃ f : Framing, f.mode = mode ∧ (stripFraming f (recvfrom d)).2 = some payload

/-- What every payload keeps, the loop over the datagrams keeps. -/
theorem drainSocket_invariant {c : Crypto} {w : World} {mode : TransportMode}
    {I : RudpTransport → Prop} {ds : List (ℕ × Bytes)}
    (hstep : ∀ d ∈ ds, ∀ payload t, Carried mode d.2 payload → I t →
      I (rtHandleUdpPacket c w t d.1 payload)) {s : Framing × RudpTransport}
    (hmode : s.1.mode = mode) (hs : I s.2) :
    (drainSocket c w s ds).1.mode = mode ∧ I (drainSocket c w s ds).2 := by
  induction ds generalizing s with
  | nil => exact ⟨hmode, hs⟩
  | cons d ds ih =>
    obtain ⟨f, t⟩ := s
    obtain ⟨srcPort, datagram⟩ := d
    have hrest := fun e he => hstep e (List.mem_cons_of_mem _ he)
    have hkeep : (stripFraming f (recvfrom datagram)).1.mode = mode :=
      (stripFraming_mode f _).trans hmode
    unfold drainSocket
    dsimp only
    split_ifs
    · exact ⟨hmode, hs⟩
    · cases hstrip : (stripFraming f (recvfrom datagram)).2 with
      | none => exact ih hrest (s := (_, t)) hkeep hs
      | some payload =>
        apply ih hrest (s := (_, _)) hkeep
        exact hstep (srcPort, datagram) List.mem_cons_self payload t ⟨f, hmode, hstrip⟩ hs

/-- What datagrams and interrupts keep, a turn keeps. -/
theorem rtWorkerTurn_invariant {c : Crypto} {r : Turn} {mode : TransportMode}
    {I : RudpTransport → Prop}
    (hhear : ∀ d ∈ r.datagrams, ∀ payload t, Carried mode d.2 payload → I t →
      I (rtHandleUdpPacket c r.w t d.1 payload))
    (hwork : ∀ t, I t → I (rtInterrupt c r.w r.now t)) {s u : RtWorker}
    (hmode : s.framing.mode = mode) (hs : I s.t) (hstep : rtWorkerTurn c s r = some u) :
    u.framing.mode = mode ∧ I u.t := by
  obtain ⟨hmode', hdrained⟩ := drainSocket_invariant hhear (s := (s.framing, s.t)) hmode hs
  unfold rtWorkerTurn at hstep
  split_ifs at hstep
  obtain rfl := Option.some.inj hstep
  refine ⟨hmode', ?_⟩
  dsimp only
  split_ifs
  · exact hwork _ hdrained
  · exact hdrained

/-! ## The verdict -/

/-- Only connection requests were sent, and nothing was exchanged with the application. -/
structure Untouched (i : ConnectInputs) (h : History) : Prop where
  read : h.read = []
  queued : h.queued = []
  delivered : h.delivered = []
  sent : ∀ d ∈ h.sent, d.length = 39 ∧ d.take sha1Size = i.keyInit

/-- Status, verdict and history agree. -/
def Verdict (i : ConnectInputs) (answered : Prop) (t : RudpTransport) : Prop :=
  match t.life with
  | (.connectSent, none) => Untouched i t.hist
  | (.established, some true) => answered
  | (.disconnected, some true) => answered
  | (.disconnected, some false) => Untouched i t.hist
  | _ => False

/-- A datagram of the run was sealed by someone who knows the key. -/
def Answered (c : Crypto) (i : ConnectInputs) (mode : TransportMode) (turns : List Turn) : Prop :=
  ∃ r ∈ turns, ∃ d ∈ r.datagrams, ∃ payload, Carried mode d.2 payload ∧
    Opens c (rudpTransportStart c i) payload

theorem verdict_cases {i : ConnectInputs} {p : Prop} {t : RudpTransport} (h : Verdict i p t) :
    (t.life = (.connectSent, none) ∧ Untouched i t.hist) ∨
      (t.life = (.established, some true) ∧ p) ∨ (t.life = (.disconnected, some true) ∧ p) ∨
      (t.life = (.disconnected, some false) ∧ Untouched i t.hist) := by
  unfold Verdict at h
  split at h
  · exact Or.inl ⟨‹_›, h⟩
  · exact Or.inr (Or.inl ⟨‹_›, h⟩)
  · exact Or.inr (Or.inr (Or.inl ⟨‹_›, h⟩))
  · exact Or.inr (Or.inr (Or.inr ⟨‹_›, h⟩))
  · exact h.elim

/-- Only an established session says farewell. -/
theorem rtSetDisconnected_hist (c : Crypto) (w : World) {t : RudpTransport} (byYou : Bool)
    (h : t.se.status ≠ .established) : (rtSetDisconnected c w t byYou).hist = t.hist := by
  rw [rtSetDisconnected_eq]
  split_ifs with hdisc hbye
  · rfl
  · exact absurd hbye.2 h
  · unfold rtSignalResult
    split <;> rfl

/-- The state of a session with the constants of its connect. -/
structure SessionInv (c : Crypto) (i : ConnectInputs) (answered : Prop) (t : RudpTransport) :
    Prop where
  key : t.keyView = (rudpTransportStart c i).keyView
  rtt : t.se.currentRtt = 0
  created : t.se.createdTick = i.tick
  timeout : t.connectTimeoutMs = i.connectTimeoutMs
  verdict : Verdict i answered t

namespace SessionInv

variable {c : Crypto} {i : ConnectInputs} {p : Prop} {t u : RudpTransport}

theorem opens (h : SessionInv c i p t) {buf : Bytes} (ho : Opens c t buf) :
    Opens c (rudpTransportStart c i) buf := by
  have hkey := h.key
  simp only [RudpTransport.keyView, Prod.mk.injEq] at hkey
  unfold Opens at ho ⊢
  rwa [← hkey.2.2.1, ← hkey.2.2.2.2.2]

theorem hears (h : SessionInv c i p t) {w : World} {buf : Bytes} (hh : Hears c w buf t u)
    (hp : Opens c (rudpTransportStart c i) buf → p) : SessionInv c i p u := by
  obtain ⟨m, -, -, hclock⟩ := hh.clock
  simp only [RudpTransport.clockView, Prod.mk.injEq] at hclock
  refine ⟨hh.key.trans h.key, hclock.1.trans h.rtt, hclock.2.2.1.trans h.created,
    hclock.2.2.2.trans h.timeout, ?_⟩
  have hv := verdict_cases h.verdict
  have hend : ∀ life, u.life = life → (match life with
      | (.connectSent, none) => Untouched i t.hist
      | (.established, some true) => p
      | (.disconnected, some true) => p
      | (.disconnected, some false) => Untouched i t.hist
      | _ => False : Prop) → Verdict i p u := by
    rintro life rfl hl
    rwa [Verdict, hh.hist]
  rcases hh.life with hl | ⟨hne, hl⟩ | ⟨hconn, ho, hl⟩
  · exact hend _ hl h.verdict
  · apply hend _ hl
    rcases hv with ⟨hlife, hun⟩ | ⟨hlife, hans⟩ | ⟨hlife, hans⟩ | ⟨hlife, hun⟩
    all_goals rw [show t.result = _ from congrArg Prod.snd hlife]
    · exact hun
    · exact hans
    · exact hans
    · exact hun
  · apply hend _ hl
    rcases hv with ⟨hlife, hun⟩ | ⟨hlife, hans⟩ | ⟨hlife, hans⟩ | ⟨hlife, hun⟩
    · rw [show t.result = _ from congrArg Prod.snd hlife]
      exact hp (h.opens ho)
    all_goals
      rw [show t.se.status = _ from congrArg Prod.fst hlife] at hconn
      exact RtStatus.noConfusion hconn

theorem imp (h : SessionInv c i p t) {q : Prop} (hpq : p → q) : SessionInv c i q t := by
  refine ⟨h.key, h.rtt, h.created, h.timeout, ?_⟩
  unfold Verdict
  rcases verdict_cases h.verdict with ⟨hlife, hun⟩ | ⟨hlife, hans⟩ | ⟨hlife, hans⟩ | ⟨hlife, hun⟩
  all_goals rw [hlife]
  · exact hun
  · exact hpq hans
  · exact hpq hans
  · exact hun

theorem connecting_untouched (c : Crypto) (w : World) (now : ℕ)
    (hstatus : t.se.status = .connectSent) (hkey : t.se.keyInit = i.keyInit)
    (h : Untouched i t.hist) : Untouched i (rtInterruptConnecting c w now t).hist := by
  have hend : ∀ u : RudpTransport, u.se.status = .connectSent → Untouched i u.hist → Untouched i
      (if sub64 now u.se.createdTick ≥ u.connectTimeoutMs then
        rtSetDisconnected c w { u with errorCode := .timeout } false else u).hist := by
    intro u hu hun
    split_ifs
    · rwa [rtSetDisconnected_hist c w false]
      exact fun hest => RtStatus.noConfusion (hu.symm.trans hest)
    · exact hun
  unfold rtInterruptConnecting
  apply hend
  · split_ifs <;> exact hstatus
  · split_ifs
    · refine ⟨h.read, h.queued, h.delivered, ?_⟩
      intro d hd
      rcases List.mem_append.mp hd with hd | hd
      · exact h.sent d hd
      · obtain rfl := List.mem_singleton.mp hd
        have hlen : t.se.keyInit.length = sha1Size := by rw [hkey, i.keyInit_length]
        constructor
        · rw [List.length_append, hlen, w.randomBytes_length]
          rfl
        · rw [← hlen, List.take_left]
          exact hkey
    · exact h

theorem interrupt (h : SessionInv c i p t) (w : World) (now : ℕ) :
    SessionInv c i p (rtInterrupt c w now t) := by
  have hw := rtInterrupt_works c w now t
  have hclock := hw.clock
  simp only [RudpTransport.clockView, Prod.mk.injEq] at hclock
  have hkey := h.key
  simp only [RudpTransport.keyView, Prod.mk.injEq] at hkey
  refine ⟨hw.key.trans h.key, hclock.1.trans h.rtt, hclock.2.2.1.trans h.created,
    hclock.2.2.2.trans h.timeout, ?_⟩
  have hlife' := hw.life
  have hverdict := h.verdict
  rcases verdict_cases hverdict with ⟨hlife, hun⟩ | ⟨hlife, hans⟩ | ⟨hlife, -⟩ | ⟨hlife, -⟩
  · have hstatus : t.se.status = .connectSent := congrArg Prod.fst hlife
    have hun' : Untouched i (rtInterrupt c w now t).hist := by
      unfold rtInterrupt
      rw [hstatus]
      exact connecting_untouched c w now hstatus hkey.1 hun
    rw [hlife, show t.result = none from congrArg Prod.snd hlife] at hlife'
    unfold Verdict
    rcases hlife' with hl | hl
    · rw [hl]
      exact hun'
    · rw [hl]
      exact hun'
  · rw [hlife, show t.result = some true from congrArg Prod.snd hlife] at hlife'
    unfold Verdict
    rcases hlife' with hl | hl
    · rw [hl]
      exact hans
    · rw [hl]
      exact hans
  all_goals
    have hidle : rtInterrupt c w now t = t := by
      unfold rtInterrupt
      rw [show t.se.status = .disconnected from congrArg Prod.fst hlife]
    rwa [hidle]

end SessionInv

theorem rtWorkerTurn_sessionInv {c : Crypto} {i : ConnectInputs} {mode : TransportMode}
    {turns : List Turn} {r : Turn} {s u : RtWorker}
    (h : s.framing.mode = mode ∧ SessionInv c i (Answered c i mode turns) s.t)
    (hstep : rtWorkerTurn c s r = some u) :
    u.framing.mode = mode ∧ SessionInv c i (Answered c i mode (turns ++ [r])) u.t := by
  obtain ⟨hmode, hinv⟩ := h
  refine rtWorkerTurn_invariant (I := SessionInv c i (Answered c i mode (turns ++ [r]))) ?_ ?_ hmode
    ?_ hstep
  · intro d hd payload t hcarried ht
    refine ht.hears (rtHandleUdpPacket_hears c r.w t d.1 payload) ?_
    intro ho
    exact ⟨r, List.mem_append_right _ (List.mem_singleton_self r), d, hd, payload, hcarried, ho⟩
  · exact fun t ht => ht.interrupt r.w r.now
  · apply hinv.imp
    rintro ⟨r', hr', hrest⟩
    exact ⟨r', List.mem_append_left _ hr', hrest⟩

theorem rtWorkerStart_sessionInv (c : Crypto) (i : ConnectInputs) (p : Prop) :
    SessionInv c i p (rudpTransportStart c i) where
  key := rfl
  rtt := rfl
  created := rfl
  timeout := rfl
  verdict := ⟨rfl, rfl, rfl, fun _ hd => absurd hd List.not_mem_nil⟩

theorem rtWorker_sessionInv {c : Crypto} {i : ConnectInputs} {f : Framing} {turns : List Turn}
    {s : RtWorker} (hrun : exec (rtWorkerTurn c) (rtWorkerStart c i f) turns = some s) :
    SessionInv c i (Answered c i f.mode turns) s.t := by
  have h := exec_trace_invariant
    (I := fun turns s => s.framing.mode = f.mode ∧ SessionInv c i (Answered c i f.mode turns) s.t)
    (fun turns s r u hs hstep => rtWorkerTurn_sessionInv hs hstep)
    ⟨rfl, rtWorkerStart_sessionInv c i _⟩ hrun
  exact h.2

/-- The worker ends the session when its loop has ended. -/
def rtWorkerExit (c : Crypto) (w : World) (s : RtWorker) : RudpTransport :=
  rtSetDisconnected c w s.t false

/-- When the worker has ended there is a verdict. It is positive only if a datagram was sealed under
the receive key; if it is negative, only connection requests were sent and the application's bytes
are untouched. -/
theorem worker_verdict (c : Crypto) (i : ConnectInputs) (f : Framing) (turns : List Turn)
    (s : RtWorker) (w : World)
    (hrun : exec (rtWorkerTurn c) (rtWorkerStart c i f) turns = some s) :
    Verdict i (Answered c i f.mode turns) s.t ∧
      Verdict i (Answered c i f.mode turns) (rtWorkerExit c w s) ∧
      (rtWorkerExit c w s).se.status = .disconnected ∧
      ((rtWorkerExit c w s).result = some true ↔ s.t.result = some true) := by
  have hverdict := (rtWorker_sessionInv hrun).verdict
  refine ⟨hverdict, ?_⟩
  unfold rtWorkerExit
  by_cases hdisc : s.t.se.status = .disconnected
  · rw [rtSetDisconnected_eq, if_pos hdisc]
    exact ⟨hverdict, hdisc, Iff.rfl⟩
  · have hlife := rtSetDisconnected_life c w s.t false hdisc
    have hresult : (rtSetDisconnected c w s.t false).result = some (s.t.result.getD false) :=
      congrArg Prod.snd hlife
    refine ⟨?_, congrArg Prod.fst hlife, ?_⟩
    · unfold Verdict
      rw [hlife]
      rcases verdict_cases hverdict with ⟨hl, hun⟩ | ⟨hl, hans⟩ | ⟨hl, -⟩ | ⟨hl, -⟩
      · rw [show s.t.result = none from congrArg Prod.snd hl]
        have hhist : (rtSetDisconnected c w s.t false).hist = s.t.hist := by
          apply rtSetDisconnected_hist
          rw [show s.t.se.status = .connectSent from congrArg Prod.fst hl]
          exact RtStatus.noConfusion
        rwa [← hhist] at hun
      · rw [show s.t.result = some true from congrArg Prod.snd hl]
        exact hans
      · exact absurd (congrArg Prod.fst hl) hdisc
      · exact absurd (congrArg Prod.fst hl) hdisc
    · rw [hresult]
      cases s.t.result with
      | none => simp
      | some b => simp

/-- A turn at the tick `now` in which nothing has come in. -/
def Turn.idle (now : ℕ) : Turn := ⟨.quiet, [], now, now⟩

def sampleStart : RtWorker := rtWorkerStart .openssl .sample (plainFraming .udp)

/-- Nobody answers, and the second turn is past the timeout. -/
theorem worker_verdict_unanswered :
    ∃ s, exec (rtWorkerTurn .openssl) sampleStart [.idle 1000, .idle 6000] = some s ∧
      s.t.result = some false ∧
      Verdict .sample (Answered .openssl .sample .udp [.idle 1000, .idle 6000]) s.t := by
  refine ⟨_, rfl, by rfl, ?_⟩
  exact (worker_verdict .openssl .sample (plainFraming .udp) [.idle 1000, .idle 6000] _ .quiet
    rfl).1

/-! ## The end comes in time -/

/-- The tick from which on an interrupt ends the session. -/
def RudpTransport.alarm (t : RudpTransport) : ℕ :=
  match t.se.status with
  | .connectSent => t.se.createdTick + t.connectTimeoutMs
  | .established => t.se.latestRecvMyTick + timeoutMs
  | .disconnected => 0

/-- The thread runs on at most `δ` after each tick it waits for, and no tick is near the end of
the 64-bit clock. -/
structure OnTime (δ : ℕ) (s : RtWorker) (r : Turn) : Prop where
  woken : r.now ≤ s.wake + δ
  polls : r.pollTick ≤ r.now + δ
  now_lt : r.now < 2 ^ 64
  ticks : ∀ i, r.w.tick i + timeoutMs < 2 ^ 64

/-- No deadline of the session wraps around. -/
structure Small (t : RudpTransport) : Prop where
  connect : t.se.createdTick + t.connectTimeoutMs < 2 ^ 64
  echo : t.se.latestRecvMyTick + timeoutMs < 2 ^ 64

theorem Small.hears {c : Crypto} {w : World} {buf : Bytes} {t u : RudpTransport} (h : Small t)
    (hh : Hears c w buf t u) (htick : ∀ i, w.tick i + timeoutMs < 2 ^ 64) : Small u := by
  obtain ⟨m, -, hle, hclock⟩ := hh.clock
  simp only [RudpTransport.clockView, Prod.mk.injEq] at hclock
  obtain ⟨-, hecho, hcreated, htimeout⟩ := hclock
  constructor
  · rw [hcreated, htimeout]
    exact h.connect
  · rw [hecho]
    have hold := h.echo
    have hnew := htick t.calls
    rcases le_max_iff.mp hle with hm | hm
    · omega
    · omega

theorem Small.works {now : ℕ} {t u : RudpTransport} (h : Small t) (hw : Works now t u) :
    Small u := by
  have hclock := hw.clock
  simp only [RudpTransport.clockView, Prod.mk.injEq] at hclock
  obtain ⟨-, hecho, hcreated, htimeout⟩ := hclock
  constructor
  · rw [hcreated, htimeout]
    exact h.connect
  · rw [hecho]
    exact h.echo

/-- An interrupt from the alarm on ends the session. -/
theorem rtInterrupt_lt_alarm (c : Crypto) (w : World) {now : ℕ} {t : RudpTransport} (h : Small t)
    (hnow : now < 2 ^ 64) (hlive : (rtInterrupt c w now t).se.status ≠ .disconnected) :
    now < (rtInterrupt c w now t).alarm := by
  have hworks := rtInterrupt_works c w now t
  have hclock := hworks.clock
  simp only [RudpTransport.clockView, Prod.mk.injEq] at hclock
  obtain ⟨-, hecho, hcreated, htimeout⟩ := hclock
  have hstatus : (rtInterrupt c w now t).se.status = t.se.status := by
    rcases hworks.life with hl | hl
    · exact congrArg Prod.fst hl
    · exact absurd (congrArg Prod.fst hl) hlive
  have hdisc : ∀ u : RudpTransport,
      (rtSetDisconnected c w u false).se.status = .disconnected := by
    intro u
    by_cases hu : u.se.status = .disconnected
    · rw [rtSetDisconnected_eq, if_pos hu]
      exact hu
    · exact congrArg Prod.fst (rtSetDisconnected_life c w u false hu)
  unfold RudpTransport.alarm
  rw [hstatus, hecho, hcreated, htimeout]
  cases hs : t.se.status with
  | disconnected =>
    rw [hs] at hstatus
    exact absurd hstatus hlive
  | established =>
    dsimp only
    by_contra hdead
    apply hlive
    unfold rtInterrupt
    rw [hs]
    dsimp only
    have hecho := h.echo
    rw [if_pos]
    · exact hdisc _
    · unfold wrap64
      omega
  | connectSent =>
    dsimp only
    by_contra hdead
    apply hlive
    have hconnect := h.connect
    have hover : sub64 now t.se.createdTick ≥ t.connectTimeoutMs := by
      unfold sub64 wrap64
      omega
    unfold rtInterrupt
    rw [hs]
    dsimp only
    unfold rtInterruptConnecting
    dsimp only
    split_ifs with hresend hlate
    · exact hdisc _
    · exact absurd hover hlate
    · exact hdisc _

/-- The worker wakes at the alarm at the latest. -/
theorem rtComputePollTimeout_le_alarm {t : RudpTransport} (h : Small t) (p : ℕ)
    (hlive : t.se.status ≠ .disconnected) : p + rtComputePollTimeout t p ≤ max p t.alarm := by
  have hsleep : ∀ deadline, deadline ≤ t.alarm ∨ deadline = p →
      p + (if p ≥ deadline then 0
        else if deadline - p > 1000 then 1000 else deadline - p) ≤ max p t.alarm := by
    intro deadline hd
    split_ifs <;> omega
  unfold rtComputePollTimeout
  apply hsleep
  have hconnect := h.connect
  have hecho := h.echo
  unfold RudpTransport.alarm
  cases hs : t.se.status with
  | disconnected => exact absurd hs hlive
  | connectSent =>
    left
    dsimp only
    rw [← min_def_lt]
    refine (min_le_left _ _).trans ?_
    exact Nat.mod_le _ _
  | established =>
    dsimp only
    by_cases hbusy : t.se.replyAcks.length ≥ 1 ∨ t.se.recvFifo.size ≥ 1 ∨ t.se.sendFifo.size ≥ 1
    · rw [if_pos hbusy]
      exact Or.inr rfl
    · rw [if_neg hbusy, ← min_def_lt, ← min_def_lt]
      exact Or.inl ((min_le_left _ _).trans (Nat.mod_le _ _))

theorem rtWorkerTurn_small {c : Crypto} {r : Turn} {s u : RtWorker} (h : Small s.t)
    (htick : ∀ i, r.w.tick i + timeoutMs < 2 ^ 64) (hstep : rtWorkerTurn c s r = some u) :
    Small u.t := by
  refine (rtWorkerTurn_invariant (I := Small) ?_ ?_ rfl h hstep).2
  · exact fun d _ payload t _ ht => ht.hears (rtHandleUdpPacket_hears c r.w t d.1 payload) htick
  · exact fun t ht => ht.works (rtInterrupt_works c r.w r.now t)

/-- A session that is still alive after a turn has its alarm ahead. -/
theorem rtWorkerTurn_lt_alarm {c : Crypto} {δ : ℕ} {r : Turn} {s u : RtWorker} (h : Small s.t)
    (hr : OnTime δ s r) (hstep : rtWorkerTurn c s r = some u)
    (hlive : u.t.se.status ≠ .disconnected) :
    r.now < u.t.alarm ∧ u.wake ≤ u.t.alarm + δ := by
  have hdrained : Small (drainSocket c r.w (s.framing, s.t) r.datagrams).2 :=
    (drainSocket_invariant (I := Small) (fun d _ payload t _ ht =>
      ht.hears (rtHandleUdpPacket_hears c r.w t d.1 payload) hr.ticks) rfl h).2
  have hsmall := rtWorkerTurn_small h hr.ticks hstep
  have hlt : r.now < u.t.alarm := by
    unfold rtWorkerTurn at hstep
    split_ifs at hstep
    obtain rfl := Option.some.inj hstep
    dsimp only at hlive ⊢
    split_ifs at hlive ⊢ with hdisc
    · exact rtInterrupt_lt_alarm c r.w hdrained hr.now_lt hlive
    · exact absurd hlive hdisc
  have hwake : u.wake = r.pollTick + rtComputePollTimeout u.t r.pollTick := by
    unfold rtWorkerTurn at hstep
    split_ifs at hstep
    obtain rfl := Option.some.inj hstep
    rfl
  have hpoll := rtComputePollTimeout_le_alarm hsmall r.pollTick hlive
  have hpolls := hr.polls
  refine ⟨hlt, ?_⟩
  rw [hwake]
  omega

/-- A worker that is never held up by more than `δ` gives up a session that nobody answers, and one
whose peer has fallen silent, at most `2 δ` after the timeout. -/
theorem worker_endsInTime (c : Crypto) (i : ConnectInputs) (f : Framing) (δ : ℕ)
    (hconnect : i.tick + i.connectTimeoutMs < 2 ^ 64) (htick : i.tick + timeoutMs < 2 ^ 64)
    (turns : List Turn) (s u : RtWorker) (r : Turn)
    (hrun : exec (rtWorkerTurn c) (rtWorkerStart c i f) turns = some s)
    (htime : Along (rtWorkerTurn c) (OnTime δ) (rtWorkerStart c i f) turns) (hr : OnTime δ s r)
    (hstep : rtWorkerTurn c s r = some u) (hlive : s.t.se.status ≠ .disconnected) :
    r.now ≤ s.t.alarm + 2 * δ ∧ (u.t.alarm ≤ r.now → u.t.se.status = .disconnected) := by
  have hinv : Small s.t ∧ (s.t.se.status ≠ .disconnected → s.wake ≤ s.t.alarm + δ) := by
    refine exec_invariant_along (C := OnTime δ) (I := fun s =>
      Small s.t ∧ (s.t.se.status ≠ .disconnected → s.wake ≤ s.t.alarm + δ)) ?_ ?_ htime hrun
    · rintro s r u ⟨hsmall, -⟩ hr hstep
      exact ⟨rtWorkerTurn_small hsmall hr.ticks hstep,
        fun hlive => (rtWorkerTurn_lt_alarm hsmall hr hstep hlive).2⟩
    · refine ⟨⟨hconnect, htick⟩, ?_⟩
      rintro -
      exact (Nat.le_add_right i.tick i.connectTimeoutMs).trans (Nat.le_add_right _ δ)
  obtain ⟨hsmall, hwake⟩ := hinv
  constructor
  · have hwoken := hr.woken
    have hle := hwake hlive
    omega
  · intro hdue
    by_contra hu
    exact absurd (rtWorkerTurn_lt_alarm hsmall hr hstep hu).1 (not_lt.mpr hdue)

theorem idle_onTime {δ now : ℕ} {s : RtWorker} (hnow : now < 2 ^ 64) (h : now ≤ s.wake + δ) :
    OnTime δ s (.idle now) :=
  ⟨h, Nat.le_add_right now δ, hnow, fun _ => (by decide : 1000 + timeoutMs < 2 ^ 64)⟩

theorem sampleStart_turn : ∃ s, rtWorkerTurn .openssl sampleStart (.idle 1000) = some s ∧
    s.wake = 1100 ∧ s.t.se.status = .connectSent ∧ s.t.se.lastSentTick = 1000 :=
  ⟨_, rfl, by rfl, by rfl, by rfl⟩

/-- A second turn ten ticks late. -/
theorem worker_endsInTime_second :
    ∃ s u, exec (rtWorkerTurn .openssl) sampleStart [.idle 1000] = some s ∧
      rtWorkerTurn .openssl s (.idle 1110) = some u ∧
      1110 ≤ s.t.alarm + 2 * 10 ∧ (u.t.alarm ≤ 1110 → u.t.se.status = .disconnected) := by
  obtain ⟨s, hs, hwake, hstatus, -⟩ := sampleStart_turn
  have hrun : exec (rtWorkerTurn .openssl) sampleStart [.idle 1000] = some s := by
    rw [exec_cons, hs]
    rfl
  have hlive : s.t.se.status ≠ .disconnected := by
    rw [hstatus]
    exact RtStatus.noConfusion
  obtain ⟨u, hu⟩ : ∃ u, rtWorkerTurn .openssl s (.idle 1110) = some u :=
    ⟨_, if_neg fun h => hlive h.1⟩
  refine ⟨s, u, hrun, hu, ?_⟩
  refine worker_endsInTime .openssl .sample (plainFraming .udp) 10 (by decide) (by decide)
    [.idle 1000] s u (.idle 1110) hrun ⟨?_, fun _ _ => trivial⟩ ?_ hu hlive
  · exact idle_onTime (by decide) (by decide)
  · exact idle_onTime (by decide) (by rw [hwake])

/-! ## Sleep -/

/-- After an interrupt that leaves the session established, all there is to do has been done. -/
theorem rtInterrupt_served (c : Crypto) (w : World) {now : ℕ} {t : RudpTransport}
    (hrtt : t.se.currentRtt = 0) (hnow : now + resendTimerMax < 2 ^ 64)
    (hdrain : (drainRecvSegments t).2 ≠ .fifoFull)
    (hstatus : (rtInterrupt c w now t).se.status = .established) :
    Served (rtInterrupt c w now t) ∧ NoneReady (rtInterrupt c w now t) := by
  have hbefore : t.se.status = .established := by
    rcases (rtInterrupt_works c w now t).life with hl | hl
    · exact (congrArg Prod.fst hl).symm.trans hstatus
    · exact RtStatus.noConfusion (hstatus.symm.trans (congrArg Prod.fst hl))
  have hlive : now < wrap64 (t.se.latestRecvMyTick + timeoutMs) := by
    by_contra hdead
    unfold rtInterrupt at hstatus
    rw [hbefore] at hstatus
    dsimp only at hstatus
    have hge : now ≥ wrap64 (t.se.latestRecvMyTick + timeoutMs) := not_lt.mp hdead
    rw [if_pos hge] at hstatus
    have hlife := rtSetDisconnected_life c w { t with errorCode := .timeout } false
      (by rw [hbefore]; exact RtStatus.noConfusion)
    exact RtStatus.noConfusion (hstatus.symm.trans (congrArg Prod.fst hlife))
  refine ⟨?_, rtInterrupt_ready c w hbefore hlive hdrain⟩
  have hflush : ∀ v : RudpTransport, Served v → Served (rtFlushAcks c w v) := by
    intro v hv
    unfold rtFlushAcks
    split_ifs <;> exact hv
  obtain ⟨v, hv⟩ : ∃ v, v = rtPeriodicKeepalive w now (rtSegmentSendFifo (rtPumpPairToSend c w
      (rtPumpRecvToPair c w (drainRecvSegments t).1))) := ⟨_, rfl⟩
  have hrttv : v.se.currentRtt = 0 := by
    rw [hv, (rtInterruptPrepare_works c w now t).rtt, hrtt]
  have heq : rtInterrupt c w now t = rtFlushAcks c w (rtRetransmit c w now v) := by
    unfold rtInterrupt
    rw [hbefore]
    dsimp only
    rw [if_neg (not_le.mpr hlive), hv]
    rfl
  rw [heq]
  exact hflush _ (rtRetransmit_served c w hrttv hnow)

/-- The worker sleeps through nothing: however often it is woken before the end of its sleep, as
long as nothing has come in, it does nothing. -/
theorem worker_asleep (c : Crypto) (i : ConnectInputs) (f : Framing) (turns : List Turn)
    (s u : RtWorker) (r : Turn) (wakes : List (World × ℕ))
    (hrun : exec (rtWorkerTurn c) (rtWorkerStart c i f) turns = some s)
    (hstep : rtWorkerTurn c s r = some u) (hnow : r.now + resendTimerMax < 2 ^ 64)
    (hdrain : (drainRecvSegments (drainSocket c r.w (s.framing, s.t) r.datagrams).2).2 ≠ .fifoFull)
    (hsent : u.t.se.lastSentTick ≠ 0)
    (hwakes : ∀ e ∈ wakes, (∀ j, e.1.recv j = []) ∧ r.pollTick ≤ e.2 ∧ e.2 < u.wake ∧
      u.t.se.lastSentTick ≤ e.2 ∧ i.tick ≤ e.2 ∧ e.2 < 2 ^ 64) :
    ∃ k, wakes.foldl (fun t e => rtInterrupt c e.1 e.2 t) u.t =
      { u.t with calls := u.t.calls + k } := by
  have hinv := rtWorker_sessionInv hrun
  have hdrained : SessionInv c i True (drainSocket c r.w (s.framing, s.t) r.datagrams).2 :=
    (drainSocket_invariant (I := SessionInv c i True) (fun d _ payload t _ ht =>
      ht.hears (rtHandleUdpPacket_hears c r.w t d.1 payload) fun _ => trivial) rfl
      (hinv.imp fun _ => trivial)).2
  have hrun' : exec (rtWorkerTurn c) (rtWorkerStart c i f) (turns ++ [r]) = some u := by
    rw [exec_append, hrun, Option.bind_some, exec_cons, hstep]
    rfl
  have hcreated : u.t.se.createdTick = i.tick := (rtWorker_sessionInv hrun').created
  have hready : u.t.se.status = .established → Served u.t ∧ NoneReady u.t := by
    intro hstatus
    unfold rtWorkerTurn at hstep
    split_ifs at hstep
    obtain rfl := Option.some.inj hstep
    dsimp only at hstatus ⊢
    split_ifs at hstatus ⊢ with hdisc
    · exact rtInterrupt_served c r.w hdrained.rtt hnow hdrain hstatus
    · exact absurd (hstatus.trans_ne RtStatus.noConfusion) hdisc
  have hwake : u.wake = r.pollTick + rtComputePollTimeout u.t r.pollTick := by
    unfold rtWorkerTurn at hstep
    split_ifs at hstep
    obtain rfl := Option.some.inj hstep
    rfl
  rw [hwake] at hwakes
  have hall : ∀ k, ∃ k', wakes.foldl (fun t e => rtInterrupt c e.1 e.2 t)
      { u.t with calls := u.t.calls + k } = { u.t with calls := u.t.calls + k' } := by
    induction wakes with
    | nil => exact fun k => ⟨k, rfl⟩
    | cons e wakes ih =>
      intro k
      obtain ⟨hquiet, hle, hlt, hsentLe, hcreatedLe, hx⟩ := hwakes e List.mem_cons_self
      have hone := rtInterrupt_asleep c (w := e.1) (t := { u.t with calls := u.t.calls + k })
        hready hsent hsentLe (hcreated.trans_le hcreatedLe) hx hquiet hle hlt
      obtain ⟨k', hk'⟩ := hone
      rw [List.foldl_cons, hk', Nat.add_assoc]
      exact ih (fun e he => hwakes e (List.mem_cons_of_mem _ he)) (k + k')
  exact hall 0

/-- Between the first request and the end of the first sleep. -/
theorem worker_asleep_connecting :
    ∃ u, rtWorkerTurn .openssl sampleStart (.idle 1000) = some u ∧
      ∃ k, [(World.quiet, 1050), (World.quiet, 1070)].foldl
        (fun t e => rtInterrupt .openssl e.1 e.2 t) u.t = { u.t with calls := u.t.calls + k } := by
  obtain ⟨u, hu, hwake, -, hsent⟩ := sampleStart_turn
  refine ⟨u, hu, ?_⟩
  refine worker_asleep .openssl .sample (plainFraming .udp) [] sampleStart u (.idle 1000) _ rfl hu
    (by decide) (fun h => DrainEnd.noConfusion h) (by rw [hsent]; decide) ?_
  intro e he
  rw [hwake, hsent]
  have htick : ConnectInputs.sample.tick = 1000 := rfl
  have hpoll : (Turn.idle 1000).pollTick = 1000 := rfl
  rw [htick, hpoll]
  rcases List.mem_pair.mp he with rfl | rfl
  · exact ⟨fun _ => rfl, by decide, by decide, by decide, by decide, by decide⟩
  · exact ⟨fun _ => rfl, by decide, by decide, by decide, by decide, by decide⟩

/-! ## A peer that has fallen silent -/

/-- The timer of a segment: when it is sent next, and how often it was sent. -/
def RtSegment.timer (s : RtSegment) : Backoff := ⟨s.nextSendTick, s.numSent⟩

/-- A segment of the numbers `old`, or one that was sent only after the tick `echo` and before the
session is given up. -/
def SentSince (old : List ℕ) (echo : ℕ) (s : RtSegment) : Prop :=
  s.seq ∈ old ∨ s.timer.Within (resendInterval 0) echo (echo + timeoutMs)

theorem sentSince_rule {old : List ℕ} {echo now : ℕ} (hlo : echo ≤ now)
    (hhi : now < echo + timeoutMs) (hroom : echo + timeoutMs + resendTimerMax < 2 ^ 64) :
    SegmentRule 0 now (SentSince old echo) where
  fresh _ _ := Or.inr (Or.inl ⟨rfl, rfl⟩)
  sent s seqMin hs := by
    rcases hs with hold | hwithin
    · left
      rwa [retransmitSegment_seq]
    · right
      have hpoll := hwithin.poll hlo hhi
      unfold retransmitSegment
      split_ifs with hfar hwait
      · exact hwithin
      · exact hwithin
      · have hinterval := (resendInterval_bounds s.numSent).2
        have hwrap : wrap64 (now + resendInterval 0 s.numSent) =
            now + resendInterval 0 s.numSent := Nat.mod_eq_of_lt (by omega)
        rw [Backoff.poll, if_neg (show ¬(s.timer.due ≠ 0 ∧ now < s.timer.due) from hwait)] at hpoll
        unfold RtSegment.timer
        dsimp only
        rwa [hwrap]

/-- Once the peer has shown a later tick, nothing is said. -/
def QuietSince (old : List ℕ) (echo : ℕ) (t : RudpTransport) : Prop :=
  t.se.currentRtt = 0 ∧
    (t.se.latestRecvMyTick ≤ echo → ∀ s ∈ t.se.sendSegments, SentSince old echo s)

theorem rtWorkerTurn_quietSince {c : Crypto} {old : List ℕ} {echo : ℕ} {r : Turn} {s u : RtWorker}
    (hroom : echo + timeoutMs + resendTimerMax < 2 ^ 64) (hnow : echo ≤ r.now)
    (h : QuietSince old echo s.t) (hstep : rtWorkerTurn c s r = some u) :
    QuietSince old echo u.t := by
  refine (rtWorkerTurn_invariant (I := QuietSince old echo) ?_ ?_ rfl h hstep).2
  · rintro d - payload t - ⟨hrtt, hsegs⟩
    have hh := rtHandleUdpPacket_hears c r.w t d.1 payload
    obtain ⟨m, hle, -, hclock⟩ := hh.clock
    simp only [RudpTransport.clockView, Prod.mk.injEq] at hclock
    refine ⟨hclock.1.trans hrtt, ?_⟩
    intro hecho seg hseg
    rw [hclock.2.1] at hecho
    exact hsegs (hle.trans hecho) seg (hh.segments.subset hseg)
  · rintro t ⟨hrtt, hsegs⟩
    have hclock := (rtInterrupt_works c r.w r.now t).clock
    simp only [RudpTransport.clockView, Prod.mk.injEq] at hclock
    refine ⟨hclock.1.trans hrtt, ?_⟩
    intro hecho
    rw [hclock.2.1] at hecho
    refine rtInterrupt_segments c r.w r.now t ?_ (hsegs hecho)
    intro hlive
    rw [hrtt]
    refine sentSince_rule hnow (hlive.trans_le ?_) hroom
    exact (Nat.mod_le _ _).trans (Nat.add_le_add_right hecho _)

/-- While the peer shows no tick after `echo`, a segment queued since then is sent seven times at
most, whatever else arrives. -/
theorem silentPeer_numSent (c : Crypto) (turns : List Turn) (s t : RtWorker) (echo : ℕ)
    (hrtt : s.t.se.currentRtt = 0) (hroom : echo + timeoutMs + resendTimerMax < 2 ^ 64)
    (hrun : exec (rtWorkerTurn c) s turns = some t) (hecho : t.t.se.latestRecvMyTick ≤ echo)
    (hnow : ∀ r ∈ turns, echo ≤ r.now) :
    ∀ seg ∈ t.t.se.sendSegments,
      seg.seq ∈ s.t.se.sendSegments.map RtSegment.seq ∨ seg.numSent ≤ 7 := by
  obtain ⟨old, hold⟩ : ∃ old, old = s.t.se.sendSegments.map RtSegment.seq := ⟨_, rfl⟩
  have hstart : QuietSince old echo s.t := by
    refine ⟨hrtt, ?_⟩
    intro _ seg hseg
    left
    rw [hold]
    exact List.mem_map_of_mem hseg
  have hend : QuietSince old echo t.t :=
    exec_invariant_along (C := fun _ r => echo ≤ r.now) (I := fun u => QuietSince old echo u.t)
      (fun u r v hu hr hstep => rtWorkerTurn_quietSince hroom hr hu hstep) hstart
      (along_of_forall hnow) hrun
  intro seg hseg
  rw [← hold]
  rcases hend.2 hecho seg hseg with hmem | hwithin
  · exact Or.inl hmem
  · right
    apply hwithin.fired_le
    have hsum : ∑ i ∈ Finset.range 7, resendInterval 0 i = 15784 := by decide
    rw [hsum]
    unfold timeoutMs
    omega

theorem rtWorkerTurn_idle (c : Crypto) (s : RtWorker) (now : ℕ)
    (hlive : s.t.se.status ≠ .disconnected) :
    ∃ t, rtWorkerTurn c s (.idle now) = some t ∧ t.t = rtInterrupt c .quiet now s.t := by
  refine ⟨_, if_neg fun h => hlive h.1, ?_⟩
  exact if_pos hlive

/-- The first turn of a session whose peer says nothing. -/
theorem silentPeer_numSent_first :
    ∃ t, exec (rtWorkerTurn .openssl) ⟨plainFraming .udp, sampleSession, 1000⟩ [.idle 1000] =
        some t ∧
      ∀ seg ∈ t.t.se.sendSegments,
        seg.seq ∈ sampleSession.se.sendSegments.map RtSegment.seq ∨ seg.numSent ≤ 7 := by
  obtain ⟨t, ht, heq⟩ := rtWorkerTurn_idle .openssl ⟨plainFraming .udp, sampleSession, 1000⟩ 1000
    RtStatus.noConfusion
  have hrun : exec (rtWorkerTurn .openssl) ⟨plainFraming .udp, sampleSession, 1000⟩
      [.idle 1000] = some t := by
    rw [exec_cons, ht]
    rfl
  refine ⟨t, hrun, ?_⟩
  refine silentPeer_numSent .openssl [.idle 1000] ⟨plainFraming .udp, sampleSession, 1000⟩ t 1000
    rfl (by decide) hrun ?_ ?_
  · have hclock := (rtInterrupt_works .openssl .quiet 1000 sampleSession).clock
    simp only [RudpTransport.clockView, Prod.mk.injEq] at hclock
    rw [heq, hclock.2.1]
    exact le_rfl
  · intro r hr
    obtain rfl := List.mem_singleton.mp hr
    exact le_rfl

end SoftEtherVpn.Rudp
