import SoftEtherVpn.Rudp.Moves

/-!
# The timers of the worker

Between two interrupts the worker sleeps in `poll`, for a time computed from the deadlines of the
session. No deadline passes in its sleep: an interrupt that came earlier would find nothing to do.
-/

namespace SoftEtherVpn.Rudp

open Foundation

def loopWaitMs : ℕ := 100

/-- `rt_compute_poll_timeout`. -/
def rtComputePollTimeout (t : RudpTransport) (now : ℕ) : ℕ :=
  let deadline := wrap64 (now + loopWaitMs)
  let deadline :=
    match t.se.status with
    | .connectSent =>
      let nx := wrap64 (t.se.lastSentTick + resendTimer)
      let deadline := if nx < deadline then nx else deadline
      let cto := wrap64 (t.se.createdTick + t.connectTimeoutMs)
      if cto < deadline then cto else deadline
    | .established =>
      let ka := wrap64 (t.se.lastSentTick + t.se.nextKeepaliveInterval)
      let deadline := if ka < deadline then ka else deadline
      let deadline := t.se.sendSegments.foldl
        (fun deadline s =>
          if s.nextSendTick ≠ 0 ∧ s.nextSendTick < deadline then s.nextSendTick else deadline)
        deadline
      let dead := wrap64 (t.se.latestRecvMyTick + timeoutMs)
      let deadline := if dead < deadline then dead else deadline
      if t.se.replyAcks.length ≥ 1 ∨ t.se.recvFifo.size ≥ 1 ∨ t.se.sendFifo.size ≥ 1 then now
      else deadline
    | .disconnected => deadline
  if now ≥ deadline then 0
  else if deadline - now > 1000 then 1000 else deadline - now

/-- The number of the first segment in the send window. -/
def RudpTransport.seqMin (t : RudpTransport) : ℕ :=
  match t.se.sendSegments with
  | [] => 0
  | s :: _ => s.seq

/-! ## The retransmission loop -/

/-- What the retransmission loop does to one segment. -/
def retransmitSegment (currentRtt now seqMin : ℕ) (s : RtSegment) : RtSegment :=
  if s.seq > wrap64 (seqMin + maxNumAck - 1) then s
  else if s.nextSendTick ≠ 0 ∧ now < s.nextSendTick then s
  else
    { s with
      numSent := s.numSent + 1
      nextSendTick := wrap64 (now + resendInterval currentRtt s.numSent) }

/-- The ticks and the round-trip time of the session are as before. -/
def SameTicks (t u : RudpTransport) : Prop :=
  u.se.currentRtt = t.se.currentRtt ∧ u.se.latestRecvMyTick = t.se.latestRecvMyTick

theorem modify_of_getElem? {α : Type*} {xs : List α} {j : ℕ} {x : α} (hj : xs[j]? = some x)
    (f : α → α) : xs.modify j f = xs.set j (f x) := by
  obtain ⟨hlt, rfl⟩ := List.getElem?_eq_some_iff.mp hj
  apply List.ext_getElem?
  intro i
  rw [List.getElem?_modify, List.getElem?_set]
  rcases eq_or_ne j i with rfl | hne
  · simp [hlt]
  · simp [hne]

theorem retransmitSlot_segments (c : Crypto) (w : World) (now seqMin : ℕ) (t : RudpTransport)
    (j : ℕ) : (retransmitSlot c w now seqMin t j).se.sendSegments =
        t.se.sendSegments.modify j (retransmitSegment t.se.currentRtt now seqMin) ∧
      SameTicks t (retransmitSlot c w now seqMin t j) := by
  unfold retransmitSlot
  cases hj : t.se.sendSegments[j]? with
  | none =>
    have hlen := List.getElem?_eq_none_iff.mp hj
    exact ⟨(List.modify_eq_self hlen).symm, rfl, rfl⟩
  | some s =>
    obtain ⟨hlt, hs⟩ := List.getElem?_eq_some_iff.mp hj
    have hkeep : retransmitSegment t.se.currentRtt now seqMin s = s →
        t.se.sendSegments.modify j (retransmitSegment t.se.currentRtt now seqMin) =
          t.se.sendSegments := by
      intro hsame
      rw [modify_of_getElem? hj, hsame, ← hs, List.set_getElem_self]
    dsimp only
    split_ifs with hfar hwait
    · exact ⟨(hkeep (if_pos hfar)).symm, rfl, rfl⟩
    · refine ⟨(hkeep ?_).symm, rfl, rfl⟩
      rw [retransmitSegment, if_neg hfar, if_pos hwait]
    · refine ⟨?_, rfl, rfl⟩
      rw [modify_of_getElem? hj, retransmitSegment, if_neg hfar, if_neg hwait]
      rfl

theorem foldl_retransmitSlot (c : Crypto) (w : World) (now seqMin : ℕ) (t : RudpTransport) (n : ℕ) :
    SameTicks t ((List.range n).foldl (retransmitSlot c w now seqMin) t) ∧
      ∀ i, ((List.range n).foldl (retransmitSlot c w now seqMin) t).se.sendSegments[i]? =
        if i < n then t.se.sendSegments[i]?.map (retransmitSegment t.se.currentRtt now seqMin)
        else t.se.sendSegments[i]? := by
  induction n with
  | zero => exact ⟨⟨rfl, rfl⟩, fun i => rfl⟩
  | succ n ih =>
    obtain ⟨⟨hrtt, hecho⟩, hsegs⟩ := ih
    rw [List.range_succ, List.foldl_append, List.foldl_cons, List.foldl_nil]
    obtain ⟨hslot, hrtt', hecho'⟩ := retransmitSlot_segments c w now seqMin
      ((List.range n).foldl (retransmitSlot c w now seqMin) t) n
    refine ⟨⟨hrtt'.trans hrtt, hecho'.trans hecho⟩, ?_⟩
    intro i
    rw [hslot, hrtt, List.getElem?_modify, hsegs]
    rcases Nat.lt_trichotomy i n with hlt | rfl | hgt
    · rw [if_pos hlt, if_pos (by omega)]
      simp [hlt.ne']
    · rw [if_neg (lt_irrefl _), if_pos (Nat.lt_succ_self _)]
      simp
    · rw [if_neg (by omega), if_neg (by omega)]
      simp [hgt.ne]

/-- The loop looks at each segment once. -/
theorem rtRetransmit_segments (c : Crypto) (w : World) (now : ℕ) (t : RudpTransport) :
    (rtRetransmit c w now t).se.sendSegments =
        t.se.sendSegments.map (retransmitSegment t.se.currentRtt now t.seqMin) ∧
      SameTicks t (rtRetransmit c w now t) := by
  obtain ⟨hticks, hsegs⟩ :=
    foldl_retransmitSlot c w now t.seqMin t t.se.sendSegments.length
  refine ⟨?_, hticks⟩
  apply List.ext_getElem?
  intro i
  rw [List.getElem?_map]
  refine (hsegs i).trans ?_
  split_ifs with hlt
  · rfl
  · rw [List.getElem?_eq_none (not_lt.mp hlt)]
    rfl

/-! ## Sleeping -/

/-- Every segment that may be sent has been sent. -/
def Served (t : RudpTransport) : Prop :=
  ∀ s ∈ t.se.sendSegments, s.seq ≤ wrap64 (t.seqMin + maxNumAck - 1) → s.nextSendTick ≠ 0

/-- The segment that comes next is not in the reorder buffer. -/
def NoneReady (t : RudpTransport) : Prop :=
  ∀ s rest, t.se.recvSegments = s :: rest → s.seq ≠ wrap64 (t.se.lastRecvCompleteSeq + 1)

theorem foldl_deadline (segs : List RtSegment) (d : ℕ) :
    let r := segs.foldl (fun deadline s =>
      if s.nextSendTick ≠ 0 ∧ s.nextSendTick < deadline then s.nextSendTick else deadline) d
    r ≤ d ∧ ∀ s ∈ segs, s.nextSendTick ≠ 0 → r ≤ s.nextSendTick := by
  induction segs generalizing d with
  | nil => exact ⟨le_rfl, by simp⟩
  | cons s segs ih =>
    obtain ⟨hle, hall⟩ := ih
      (if s.nextSendTick ≠ 0 ∧ s.nextSendTick < d then s.nextSendTick else d)
    rw [List.foldl_cons]
    constructor
    · refine hle.trans ?_
      split_ifs with h
      · exact h.2.le
      · exact le_rfl
    · intro r hr hne
      rcases List.mem_cons.mp hr with rfl | hr
      · refine hle.trans ?_
        split_ifs with h
        · exact le_rfl
        · exact not_lt.mp fun hlt => h ⟨hne, hlt⟩
      · exact hall r hr hne

/-- The deadlines that the timeout of an established session stays before. -/
structure Asleep (t : RudpTransport) (x : ℕ) : Prop where
  keepalive : x < wrap64 (t.se.lastSentTick + t.se.nextKeepaliveInterval)
  segments : ∀ s ∈ t.se.sendSegments, s.nextSendTick ≠ 0 → x < s.nextSendTick
  alive : x < wrap64 (t.se.latestRecvMyTick + timeoutMs)
  acks : t.se.replyAcks = []
  recvFifo : t.se.recvFifo.size = 0
  sendFifo : t.se.sendFifo.size = 0

theorem lt_deadline {now x deadline : ℕ} (hle : now ≤ x)
    (hlt : x < now + if now ≥ deadline then 0
      else if deadline - now > 1000 then 1000 else deadline - now) : x < deadline := by
  split_ifs at hlt <;> omega

theorem asleep_of_lt {t : RudpTransport} {now x : ℕ} (hstatus : t.se.status = .established)
    (hle : now ≤ x) (hlt : x < now + rtComputePollTimeout t now) : Asleep t x := by
  unfold rtComputePollTimeout at hlt
  rw [hstatus] at hlt
  dsimp only at hlt
  have hx := lt_deadline hle hlt
  by_cases hbusy : t.se.replyAcks.length ≥ 1 ∨ t.se.recvFifo.size ≥ 1 ∨ t.se.sendFifo.size ≥ 1
  · rw [if_pos hbusy] at hx
    omega
  · rw [if_neg hbusy] at hx
    rw [← min_def_lt, ← min_def_lt, lt_min_iff] at hx
    obtain ⟨hdead, hfold⟩ := hx
    obtain ⟨hfirst, hall⟩ := foldl_deadline t.se.sendSegments
      (min (wrap64 (t.se.lastSentTick + t.se.nextKeepaliveInterval)) (wrap64 (now + loopWaitMs)))
    rw [not_or, not_or, not_le, not_le, not_le] at hbusy
    obtain ⟨hacks, hrecv, hsend⟩ := hbusy
    constructor
    · exact (hfold.trans_le hfirst).trans_le (min_le_left _ _)
    · exact fun s hs hne => hfold.trans_le (hall s hs hne)
    · exact hdead
    · exact List.length_eq_zero_iff.mp (by omega)
    · omega
    · omega

theorem drainRecvSegments_of_noneReady {t : RudpTransport} (h : NoneReady t) :
    (drainRecvSegments t).1 = t := by
  obtain ⟨e, cto, mode, result, calls, se, hist⟩ := t
  obtain ⟨segs, hsegs⟩ : ∃ segs, segs = se.recvSegments := ⟨_, rfl⟩
  unfold drainRecvSegments
  cases segs with
  | nil =>
    rw [← hsegs, drainLoop]
    cases se
    subst hsegs
    rfl
  | cons s rest =>
    rw [← hsegs, drainLoop]
    dsimp only
    rw [if_pos (h s rest hsegs.symm)]
    cases se
    subst hsegs
    rfl

theorem rtSegmentSendFifo_of_empty {t : RudpTransport} (h : t.se.sendFifo.size = 0) :
    rtSegmentSendFifo t = t := by
  rw [rtSegmentSendFifo]
  split_ifs <;> rfl

theorem rtRetransmit_of_waiting (c : Crypto) (w : World) {x : ℕ} {t : RudpTransport}
    (hserved : Served t)
    (hwait : ∀ s ∈ t.se.sendSegments, s.nextSendTick ≠ 0 → x < s.nextSendTick) :
    rtRetransmit c w x t = t := by
  have hslot : ∀ js : List ℕ, js.foldl (retransmitSlot c w x t.seqMin) t = t := by
    intro js
    induction js with
    | nil => rfl
    | cons j js ih =>
      have hone : retransmitSlot c w x t.seqMin t j = t := by
        unfold retransmitSlot
        cases hj : t.se.sendSegments[j]? with
        | none => rfl
        | some s =>
          have hs : s ∈ t.se.sendSegments := List.mem_of_getElem? hj
          dsimp only
          split_ifs with hfar hdue
          · rfl
          · rfl
          · have hne := hserved s hs (not_lt.mp hfar)
            exact absurd ⟨hne, hwait s hs hne⟩ hdue
      rw [List.foldl_cons, hone]
      exact ih
  exact hslot _

/-- The worker sleeps through no deadline: an interrupt before the end of the timeout, when nothing
has arrived, does nothing. -/
theorem rtInterrupt_asleep (c : Crypto) {w : World} {t : RudpTransport} {now x : ℕ}
    (hready : t.se.status = .established → Served t ∧ NoneReady t) (hsent : t.se.lastSentTick ≠ 0)
    (hsentLe : t.se.lastSentTick ≤ x) (hcreated : t.se.createdTick ≤ x) (hx : x < 2 ^ 64)
    (hquiet : ∀ i, w.recv i = []) (hle : now ≤ x) (hlt : x < now + rtComputePollTimeout t now) :
    ∃ k, rtInterrupt c w x t = { t with calls := t.calls + k } := by
  cases hstatus : t.se.status with
  | disconnected =>
    refine ⟨0, ?_⟩
    unfold rtInterrupt
    rw [hstatus]
    rfl
  | connectSent =>
    refine ⟨0, ?_⟩
    unfold rtComputePollTimeout at hlt
    rw [hstatus] at hlt
    dsimp only at hlt
    have hdeadline := lt_deadline hle hlt
    rw [← min_def_lt, ← min_def_lt, lt_min_iff, lt_min_iff] at hdeadline
    obtain ⟨hcto, hnx, -⟩ := hdeadline
    unfold wrap64 at hcto
    unfold wrap64 resendTimer at hnx
    have hresend : ¬(t.se.lastSentTick = 0 ∨ sub64 x t.se.lastSentTick ≥ resendTimer) := by
      unfold sub64 wrap64 resendTimer
      omega
    have hconnect : ¬sub64 x t.se.createdTick ≥ t.connectTimeoutMs := by
      unfold sub64 wrap64
      omega
    unfold rtInterrupt
    rw [hstatus]
    dsimp only
    unfold rtInterruptConnecting
    rw [if_neg hresend]
    dsimp only
    rw [if_neg hconnect]
    rfl
  | established =>
    refine ⟨2, ?_⟩
    obtain ⟨hserved, hnone⟩ := hready hstatus
    have hsleep := asleep_of_lt hstatus hle hlt
    unfold rtInterrupt
    rw [hstatus]
    dsimp only
    rw [if_neg (not_le.mpr hsleep.alive)]
    unfold rtInterruptEstablished
    rw [drainRecvSegments_of_noneReady hnone]
    have hrecv : rtPumpRecvToPair c w t = { t with calls := t.calls + 1 } := by
      unfold rtPumpRecvToPair
      cases w.send t.calls with
      | nil => rfl
      | cons r rs => exact if_pos hsleep.recvFifo
    have hsend : rtPumpPairToSend c w { t with calls := t.calls + 1 } =
        { t with calls := t.calls + 2 } := by
      unfold rtPumpPairToSend
      rw [hquiet]
      rfl
    have hkeepalive : rtPeriodicKeepalive w x { t with calls := t.calls + 2 } =
        { t with calls := t.calls + 2 } := by
      apply if_neg
      rintro (hzero | hdue)
      · exact hsent hzero
      · exact absurd hsleep.keepalive (not_lt.mpr hdue)
    have hsegment : rtSegmentSendFifo { t with calls := t.calls + 2 } =
        { t with calls := t.calls + 2 } := rtSegmentSendFifo_of_empty hsleep.sendFifo
    have hretransmit : rtRetransmit c w x { t with calls := t.calls + 2 } =
        { t with calls := t.calls + 2 } := rtRetransmit_of_waiting c w hserved hsleep.segments
    dsimp only
    rw [hrecv, hsend, hsegment, hkeepalive, hretransmit]
    exact if_pos hsleep.acks

/-! ## After an interrupt -/

theorem retransmitSegment_seq (currentRtt now seqMin : ℕ) (s : RtSegment) :
    (retransmitSegment currentRtt now seqMin s).seq = s.seq := by
  unfold retransmitSegment
  split_ifs <;> rfl

theorem resendInterval_bounds (n : ℕ) :
    resendTimer ≤ resendInterval 0 n ∧ resendInterval 0 n ≤ resendTimerMax := by
  have hfactor : 1 ≤ 2 ^ min n 10 := Nat.one_le_two_pow
  unfold resendInterval
  dsimp only
  rw [if_neg (not_not.mpr rfl)]
  refine ⟨le_min ?_ (by decide), min_le_right _ _⟩
  exact Nat.le_mul_of_pos_right _ hfactor

theorem rtRetransmit_served (c : Crypto) (w : World) {now : ℕ} {t : RudpTransport}
    (hrtt : t.se.currentRtt = 0) (hnow : now + resendTimerMax < 2 ^ 64) :
    Served (rtRetransmit c w now t) := by
  obtain ⟨hsegs, -⟩ := rtRetransmit_segments c w now t
  have hmin : (rtRetransmit c w now t).seqMin = t.seqMin := by
    unfold RudpTransport.seqMin
    rw [hsegs]
    cases t.se.sendSegments with
    | nil => rfl
    | cons s rest => exact retransmitSegment_seq _ _ _ s
  intro s' hs' hle
  rw [hsegs] at hs'
  obtain ⟨s, -, rfl⟩ := List.mem_map.mp hs'
  rw [hmin, retransmitSegment_seq] at hle
  unfold retransmitSegment
  rw [if_neg (not_lt.mpr hle)]
  split_ifs with hwait
  · exact hwait.1
  · obtain ⟨hlo, hhi⟩ := resendInterval_bounds s.numSent
    rw [hrtt]
    dsimp only
    unfold wrap64 resendTimer at *
    omega

theorem drainLoop_noneReady (segs : List RtSegment) (t : RudpTransport) (cur d : ℕ)
    (hcur : t.se.lastRecvCompleteSeq = cur) :
    let r := drainLoop t cur d segs
    r.1.se.recvSegments = t.se.recvSegments ∧ d ≤ r.2.1 ∧
      (r.2.2 ≠ .fifoFull → ∀ s rest, segs.drop (r.2.1 - d) = s :: rest →
        s.seq ≠ wrap64 (r.1.se.lastRecvCompleteSeq + 1)) := by
  induction segs generalizing t cur d with
  | nil => exact ⟨rfl, le_rfl, by simp⟩
  | cons s rest ih =>
    have hconsume : ∀ v : RudpTransport, v.se.recvSegments = t.se.recvSegments →
        s.seq = wrap64 (cur + 1) →
        let r := drainLoop (v.withSe fun se => { se with lastRecvCompleteSeq := s.seq })
          (wrap64 (cur + 1)) (d + 1) rest
        r.1.se.recvSegments = t.se.recvSegments ∧ d ≤ r.2.1 ∧
          (r.2.2 ≠ .fifoFull → ∀ x xs, (s :: rest).drop (r.2.1 - d) = x :: xs →
            x.seq ≠ wrap64 (r.1.se.lastRecvCompleteSeq + 1)) := by
      intro v hv hseq r
      obtain ⟨hsame, hle, hnone⟩ := ih
        (v.withSe fun se => { se with lastRecvCompleteSeq := s.seq }) (wrap64 (cur + 1)) (d + 1)
        hseq
      have hcount : d + 1 ≤ r.2.1 := hle
      refine ⟨hsame.trans hv, (Nat.le_succ d).trans hcount, ?_⟩
      intro hfull x xs hx
      obtain ⟨k, hk⟩ : ∃ k, r.2.1 = d + 1 + k := ⟨r.2.1 - (d + 1), by omega⟩
      apply hnone hfull x xs
      rw [show r.2.1 - d = k + 1 by omega, List.drop_succ_cons] at hx
      rwa [show r.2.1 - (d + 1) = k by omega]
    unfold drainLoop
    dsimp only
    split_ifs with hgap hreq hempty hresp
    · refine ⟨rfl, le_rfl, ?_⟩
      rintro - x xs hx
      rw [Nat.sub_self, List.drop_zero] at hx
      obtain ⟨rfl, -⟩ := List.cons.inj hx
      rwa [hcur]
    · exact hconsume _ (rtQueueSegment_sameRecv t .keepAlive _).recvSegments_eq (not_not.mp hgap)
    · exact hconsume t rfl (not_not.mp hgap)
    · exact hconsume t rfl (not_not.mp hgap)
    · cases rtFifoWrite t.se.recvFifo s.data with
      | none => exact ⟨rfl, le_rfl, fun h => absurd rfl h⟩
      | some fifo => exact hconsume _ rfl (not_not.mp hgap)

/-- Unless the receive FIFO was full, everything that could be consumed has been. -/
theorem drainRecvSegments_noneReady {t : RudpTransport} (h : (drainRecvSegments t).2 ≠ .fifoFull) :
    NoneReady (drainRecvSegments t).1 := by
  obtain ⟨hsame, -, hnone⟩ := drainLoop_noneReady t.se.recvSegments t _ 0 rfl
  intro s rest hs
  apply hnone h s rest
  rw [Nat.sub_zero, ← hs]
  exact congrArg (List.drop _) hsame.symm

theorem rtInterrupt_ready (c : Crypto) (w : World) {now : ℕ} {t : RudpTransport}
    (hstatus : t.se.status = .established)
    (hlive : now < wrap64 (t.se.latestRecvMyTick + timeoutMs))
    (hdrain : (drainRecvSegments t).2 ≠ .fifoFull) : NoneReady (rtInterrupt c w now t) := by
  have hsame := rtInterrupt_sameRecv c w hstatus hlive
  unfold NoneReady
  rw [hsame.recvSegments_eq, hsame.last_eq]
  exact drainRecvSegments_noneReady hdrain

end SoftEtherVpn.Rudp
