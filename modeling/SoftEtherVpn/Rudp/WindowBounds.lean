import SoftEtherVpn.Rudp.SendStream

/-!
# The windows of a session never overflow

The send window and the reorder buffer have 64 slots each, and a segment that finds no slot is
dropped without a word. Neither happens: the numbers in the window stay within 64 of the next
one because the check against the oldest segment comes before the queueing, and the numbers in the
buffer are distinct numbers of the receive window. The dropping branches are cut out in `Checked`
copies of the functions, which have a result wherever the branch is not taken.
-/

namespace SoftEtherVpn.Rudp

open Foundation

/-! ### The functions without the dropping branches -/

section Checked

variable (c : Crypto) (w : World)

/-- `rt_queue_segment` that does not get to its silent return. -/
def rtQueueSegmentChecked (t : RudpTransport) (kind : SegmentKind) (data : Bytes) :
    Option RudpTransport :=
  if t.se.sendSegments.length ≥ maxNumAck then none else some (rtQueueSegment t kind data)

/-- `rt_process_recv_payload` that does not find the buffer full for a new segment. -/
def rtProcessRecvPayloadChecked (t : RudpTransport) (seq : ℕ) (payload : Bytes) :
    Option RudpTransport :=
  if seq > wrap64 (t.se.lastRecvCompleteSeq + maxNumAck) then some t
  else if seq ≤ t.se.lastRecvCompleteSeq then some (rtAddAck t seq)
  else if ∃ s ∈ t.se.recvSegments, s.seq = seq then some (rtAddAck t seq)
  else if t.se.recvSegments.length ≥ maxNumAck then none
  else
    some (rtAddAck (t.withSe fun se =>
      { se with recvSegments := se.recvSegments ++ [{ seq := seq, data := payload }] }) seq)

def rtApplyPayloadChecked (t : RudpTransport) (srcPort : ℕ) (i : SegmentInfo) :
    Option RudpTransport :=
  if i.seq = 0 then some t
  else if i.seq = t.se.magicDisconnect then some (rtSetDisconnected c w t true)
  else do
    let payload := if i.payload.length > maxSegmentSize then [] else i.payload
    let t ← if payload.length ≥ 1 then rtProcessRecvPayloadChecked t i.seq payload else some t
    some ((rtEstablish t).withSe fun se => { se with yourPort := srcPort })

def rtHandleUdpPacketChecked (t : RudpTransport) (srcPort : ℕ) (buf : Bytes) :
    Option RudpTransport :=
  if t.se.status = .disconnected then some t
  else if buf.length < sha1Size then some t
  else
    match (openPacket c t.se.keyRecv buf).bind parseSegment with
    | none => some t
    | some i =>
      if i.yourTick > w.tick t.calls then some t
      else rtApplyPayloadChecked c w (rtApplyAcks t i) srcPort i

def drainLoopChecked (t : RudpTransport) (cur drained : ℕ) :
    List RtSegment → Option (RudpTransport × ℕ × DrainEnd)
  | [] => some (t, drained, .exhausted)
  | s :: rest =>
    let cur := wrap64 (cur + 1)
    let consume := fun (t : RudpTransport) =>
      drainLoopChecked (t.withSe fun se => { se with lastRecvCompleteSeq := s.seq })
        cur (drained + 1) rest
    if s.seq ≠ cur then some (t, drained, .gap)
    else if s.data.length = sha1Size ∧ s.data = t.se.magicReq then
      if t.se.sendSegments.length = 0 then
        (rtQueueSegmentChecked t .keepAlive t.se.magicResp).bind consume
      else consume t
    else if s.data.length = sha1Size ∧ s.data = t.se.magicResp then consume t
    else
      match rtFifoWrite t.se.recvFifo s.data with
      | none => some (t, drained, .fifoFull)
      | some fifo => consume
          { t with
            se := { t.se with recvFifo := fifo }
            hist := { t.hist with delivered := t.hist.delivered ++ s.data } }

def drainRecvSegmentsChecked (t : RudpTransport) : Option RudpTransport :=
  (drainLoopChecked t t.se.lastRecvCompleteSeq 0 t.se.recvSegments).map fun r =>
    r.1.withSe fun se => { se with recvSegments := se.recvSegments.drop r.2.1 }

def rtSegmentSendFifoChecked (t : RudpTransport) : Option RudpTransport :=
  let seqMin := match t.se.sendSegments with | [] => 0 | s :: _ => s.seq
  if seqMin ≠ 0 ∧ wrap64 (seqMin + maxNumAck - 1) < t.se.nextSendSeq then some t
  else if _h : t.se.sendFifo.size = 0 then some t
  else
    let size := min t.se.sendFifo.size maxSegmentSize
    let tmp := rtFifoPeek t.se.sendFifo size
    (rtQueueSegmentChecked t .data tmp).bind fun u =>
      rtSegmentSendFifoChecked (u.withSe fun se =>
        { se with sendFifo := rtFifoAdvance t.se.sendFifo size })
termination_by t.se.sendFifo.size
decreasing_by
  simp only [RudpTransport.withSe_se, rtFifoAdvance_size]
  unfold maxSegmentSize
  omega

def rtPeriodicKeepaliveChecked (now : ℕ) (t : RudpTransport) : Option RudpTransport :=
  if t.se.lastSentTick = 0 ∨ now ≥ wrap64 (t.se.lastSentTick + t.se.nextKeepaliveInterval) then do
    let t ← if t.se.sendSegments.length = 0 then
        rtQueueSegmentChecked t .keepAlive t.se.magicReq else some t
    some { t with
      calls := t.calls + 1
      se := { t.se with
        nextKeepaliveInterval :=
          keepaliveMin + w.rand t.calls % (keepaliveMax - keepaliveMin) } }
  else some t

def rtInterruptChecked (now : ℕ) (t : RudpTransport) : Option RudpTransport :=
  match t.se.status with
  | .connectSent => some (rtInterruptConnecting c w now t)
  | .disconnected => some t
  | .established =>
    if now ≥ wrap64 (t.se.latestRecvMyTick + timeoutMs) then
      some (rtSetDisconnected c w { t with errorCode := .timeout } false)
    else do
      let t ← drainRecvSegmentsChecked t
      let t := rtPumpRecvToPair c w t
      let t := rtPumpPairToSend c w t
      let t ← rtSegmentSendFifoChecked t
      let t ← rtPeriodicKeepaliveChecked w now t
      let t := rtRetransmit c w now t
      some (rtFlushAcks c w t)

end Checked

/-- A round of the worker, or one of its actions in any order. -/
inductive WorkerEvent
  | datagram (w : World) (srcPort : ℕ) (buf : Bytes)
  | interrupt (w : World) (now : ℕ)
  | action (ev : SendEvent)

section Events

variable (c : Crypto)

def workerStep (t : RudpTransport) : WorkerEvent → Option RudpTransport
  | .datagram w srcPort buf => some (rtHandleUdpPacket c w t srcPort buf)
  | .interrupt w now => some (rtInterrupt c w now t)
  | .action ev => sendStep c t ev

/-- The same with the checked functions. -/
def workerStepChecked (t : RudpTransport) : WorkerEvent → Option RudpTransport
  | .datagram w srcPort buf => rtHandleUdpPacketChecked c w t srcPort buf
  | .interrupt w now => rtInterruptChecked c w now t
  | .action (.datagram w srcPort buf) => rtHandleUdpPacketChecked c w t srcPort buf
  | .action .drain => drainRecvSegmentsChecked t
  | .action .segmentSendFifo => rtSegmentSendFifoChecked t
  | .action (.periodicKeepalive w now) => rtPeriodicKeepaliveChecked w now t
  | .action ev => sendStep c t ev

end Events

/-- The sequence numbers of both directions are below `2 ^ 63`. -/
def SeqsBelow (t : RudpTransport) (_ev : WorkerEvent) : Prop :=
  t.se.nextSendSeq < 2 ^ 63 ∧ t.se.lastRecvCompleteSeq < 2 ^ 63

namespace RudpTransport

def sendSeqs (t : RudpTransport) : List ℕ := t.se.sendSegments.map RtSegment.seq

def recvSeqs (t : RudpTransport) : List ℕ := t.se.recvSegments.map RtSegment.seq

end RudpTransport

/-- The windows of the session. -/
structure WindowBounds (t : RudpTransport) : Prop where
  sendSorted : t.sendSeqs.Pairwise (· < ·)
  sendRange : ∀ q ∈ t.sendSeqs, t.se.nextSendSeq ≤ q + maxNumAck ∧ q < t.se.nextSendSeq
  sendCount : t.se.sendSegments.length ≤ maxNumAck
  recvDistinct : t.recvSeqs.Nodup
  recvRange : ∀ q ∈ t.recvSeqs,
    t.se.lastRecvCompleteSeq < q ∧ q ≤ t.se.lastRecvCompleteSeq + maxNumAck
  recvCount : t.se.recvSegments.length ≤ maxNumAck
  acksDistinct : t.se.replyAcks.Nodup
  acksCount : t.se.replyAcks.length ≤ maxNumAck

/-!
## Windows of numbers
-/

/-- Distinct numbers of an interval are no more than the interval has. -/
theorem length_le_of_nodup {l : List ℕ} {a b : ℕ} (h : l.Nodup) (hl : ∀ x ∈ l, a ≤ x ∧ x < b) :
    l.length ≤ b - a := by
  rw [← List.toFinset_card_of_nodup h, ← Nat.card_Ico]
  apply Finset.card_le_card
  intro x hx
  exact Finset.mem_Ico.mpr (hl x (List.mem_toFinset.mp hx))

/-- What holds of the send side. -/
structure SendBounds (t : RudpTransport) : Prop where
  first : 1 ≤ t.se.nextSendSeq
  sorted : t.sendSeqs.Pairwise (· < ·)
  range : ∀ q ∈ t.sendSeqs,
    1 ≤ q ∧ t.se.nextSendSeq ≤ q + maxNumAck ∧ q < t.se.nextSendSeq

structure RecvBounds (t : RudpTransport) : Prop where
  distinct : t.recvSeqs.Nodup
  range : ∀ q ∈ t.recvSeqs,
    t.se.lastRecvCompleteSeq < q ∧ q ≤ t.se.lastRecvCompleteSeq + maxNumAck

structure AckBounds (t : RudpTransport) : Prop where
  distinct : t.se.replyAcks.Nodup
  count : t.se.replyAcks.length ≤ maxNumAck

namespace SendBounds

variable {t u : RudpTransport}

/-- Numbers not further than `n` behind the next one take at most `n` slots. -/
theorem length_le (h : SendBounds t) {n : ℕ} (hnear : ∀ q ∈ t.sendSeqs, t.se.nextSendSeq ≤ q + n) :
    t.se.sendSegments.length ≤ n := by
  have hlength := length_le_of_nodup (h.sorted.imp fun h => h.ne) (a := t.se.nextSendSeq - n)
    (b := t.se.nextSendSeq) fun q hq => by
      have hq' := hnear q hq
      have hlt := (h.range q hq).2.2
      omega
  rw [RudpTransport.sendSeqs, List.length_map] at hlength
  omega

/-- A segment that is queued while all numbers are near the next one finds a slot. -/
theorem queue (h : SendBounds t) (kind : SegmentKind) (data : Bytes)
    (hlt : t.se.nextSendSeq + 1 < 2 ^ 64)
    (hnear : ∀ q ∈ t.sendSeqs, t.se.nextSendSeq + 1 ≤ q + maxNumAck) :
    rtQueueSegmentChecked t kind data = some (rtQueueSegment t kind data) ∧
      SendBounds (rtQueueSegment t kind data) ∧
      (rtQueueSegment t kind data).se.nextSendSeq = t.se.nextSendSeq + 1 := by
  have hroom : t.se.sendSegments.length ≤ 63 := by
    apply h.length_le
    intro q hq
    have := hnear q hq
    unfold maxNumAck at this
    omega
  have hslot : ¬t.se.sendSegments.length ≥ maxNumAck := by
    unfold maxNumAck
    omega
  have hnext : (rtQueueSegment t kind data).se.nextSendSeq = t.se.nextSendSeq + 1 := by
    rw [rtQueueSegment, if_neg hslot]
    exact Nat.mod_eq_of_lt hlt
  have hseqs : (rtQueueSegment t kind data).sendSeqs = t.sendSeqs ++ [t.se.nextSendSeq] := by
    rw [rtQueueSegment, if_neg hslot, RudpTransport.sendSeqs, List.map_append]
    rfl
  refine ⟨if_neg hslot, ⟨?_, ?_, ?_⟩, hnext⟩
  · rw [hnext]
    omega
  · rw [hseqs, List.pairwise_append]
    refine ⟨h.sorted, List.pairwise_singleton _ _, ?_⟩
    intro q hq x hx
    obtain rfl := List.mem_singleton.mp hx
    exact (h.range q hq).2.2
  · intro q hq
    rw [hseqs] at hq
    rw [hnext]
    obtain hq | hq := List.mem_append.mp hq
    · have hrange := h.range q hq
      exact ⟨hrange.1, hnear q hq, by omega⟩
    · obtain rfl := List.mem_singleton.mp hq
      have := h.first
      unfold maxNumAck
      omega

/-- Queueing into an empty window. -/
theorem queue_of_empty (h : SendBounds t) (kind : SegmentKind) (data : Bytes)
    (hlt : t.se.nextSendSeq + 1 < 2 ^ 64) (hempty : t.se.sendSegments.length = 0) :
    rtQueueSegmentChecked t kind data = some (rtQueueSegment t kind data) ∧
      SendBounds (rtQueueSegment t kind data) ∧
      (rtQueueSegment t kind data).se.nextSendSeq = t.se.nextSendSeq + 1 := by
  apply h.queue kind data hlt
  intro q hq
  rw [RudpTransport.sendSeqs, List.length_eq_zero_iff.mp hempty] at hq
  cases hq

/-- Acknowledgements only take numbers out. -/
theorem of_sublist (h : SendBounds t) (hseqs : u.sendSeqs.Sublist t.sendSeqs)
    (hnext : u.se.nextSendSeq = t.se.nextSendSeq) : SendBounds u := by
  refine ⟨?_, h.sorted.sublist hseqs, ?_⟩
  · rw [hnext]
    exact h.first
  · intro q hq
    rw [hnext]
    exact h.range q (hseqs.subset hq)

end SendBounds

/-! ### Queueing -/

theorem drainLoop_sendBounds (segs : List RtSegment) {t : RudpTransport} (cur d : ℕ)
    (h : SendBounds t) (hroom : t.se.nextSendSeq + segs.length < 2 ^ 64) :
    drainLoopChecked t cur d segs = some (drainLoop t cur d segs) ∧
      SendBounds (drainLoop t cur d segs).1 ∧
      (drainLoop t cur d segs).1.se.nextSendSeq ≤ t.se.nextSendSeq + segs.length := by
  induction segs generalizing t cur d with
  | nil => exact ⟨rfl, h, le_rfl⟩
  | cons s rest ih =>
    rw [List.length_cons] at hroom ⊢
    have consume : ∀ v, SendBounds v → v.se.nextSendSeq ≤ t.se.nextSendSeq + 1 →
        let next := v.withSe fun se => { se with lastRecvCompleteSeq := s.seq }
        drainLoopChecked next (wrap64 (cur + 1)) (d + 1) rest =
            some (drainLoop next (wrap64 (cur + 1)) (d + 1) rest) ∧
          SendBounds (drainLoop next (wrap64 (cur + 1)) (d + 1) rest).1 ∧
          (drainLoop next (wrap64 (cur + 1)) (d + 1) rest).1.se.nextSendSeq ≤
            t.se.nextSendSeq + (rest.length + 1) := by
      intro v hv hnext next
      have hnext' : next.se.nextSendSeq = v.se.nextSendSeq := rfl
      obtain ⟨hchecked, hbounds, hle⟩ := ih (t := next) (wrap64 (cur + 1)) (d + 1)
        (hv.of_sublist (List.Sublist.refl _) rfl) (by omega)
      exact ⟨hchecked, hbounds, by omega⟩
    have hsame : ∀ r : RudpTransport × ℕ × DrainEnd, r.1 = t →
        SendBounds r.1 ∧ r.1.se.nextSendSeq ≤ t.se.nextSendSeq + (rest.length + 1) := by
      rintro r rfl
      exact ⟨h, by omega⟩
    unfold drainLoop drainLoopChecked
    dsimp only
    by_cases hgap : s.seq ≠ wrap64 (cur + 1)
    · rw [if_pos hgap, if_pos hgap]
      exact ⟨rfl, hsame _ rfl⟩
    rw [if_neg hgap, if_neg hgap]
    by_cases hreq : s.data.length = sha1Size ∧ s.data = t.se.magicReq
    · rw [if_pos hreq, if_pos hreq]
      by_cases hempty : t.se.sendSegments.length = 0
      · obtain ⟨hqueue, hbounds, hnext⟩ :=
          h.queue_of_empty .keepAlive t.se.magicResp (by omega) hempty
        rw [if_pos hempty, if_pos hempty, hqueue]
        exact consume _ hbounds (by omega)
      · rw [if_neg hempty, if_neg hempty]
        exact consume t h (by omega)
    rw [if_neg hreq, if_neg hreq]
    by_cases hresp : s.data.length = sha1Size ∧ s.data = t.se.magicResp
    · rw [if_pos hresp, if_pos hresp]
      exact consume t h (by omega)
    rw [if_neg hresp, if_neg hresp]
    cases rtFifoWrite t.se.recvFifo s.data with
    | none => exact ⟨rfl, hsame _ rfl⟩
    | some fifo =>
      exact consume _ (h.of_sublist (List.Sublist.refl _) rfl) (Nat.le_succ t.se.nextSendSeq)

/-- While the window check passes, all numbers are near the next one. -/
theorem SendBounds.near {t : RudpTransport} (h : SendBounds t)
    (hopen : ¬((match t.se.sendSegments with | [] => 0 | s :: _ => s.seq) ≠ 0 ∧
      wrap64 ((match t.se.sendSegments with | [] => 0 | s :: _ => s.seq) + maxNumAck - 1) <
        t.se.nextSendSeq)) : ∀ q ∈ t.sendSeqs, t.se.nextSendSeq + 1 ≤ q + maxNumAck := by
  intro q hq
  have hsorted := h.sorted
  have hrange := h.range
  unfold RudpTransport.sendSeqs at hq hsorted hrange
  cases hsegs : t.se.sendSegments with
  | nil =>
    rw [hsegs] at hq
    cases hq
  | cons s rest =>
    rw [hsegs, List.map_cons] at hq hsorted hrange
    simp only [hsegs] at hopen
    have hfirst := (hrange s.seq List.mem_cons_self).1
    have hmod : wrap64 (s.seq + maxNumAck - 1) ≤ s.seq + maxNumAck - 1 := Nat.mod_le _ _
    have hle : s.seq ≤ q := by
      obtain rfl | hq := List.mem_cons.mp hq
      · exact le_rfl
      · exact ((List.pairwise_cons.mp hsorted).1 q hq).le
    unfold maxNumAck at *
    omega

theorem rtSegmentSendFifo_sendBounds (t : RudpTransport) (h : SendBounds t)
    (hroom : t.se.nextSendSeq + t.se.sendFifo.size < 2 ^ 64) :
    rtSegmentSendFifoChecked t = some (rtSegmentSendFifo t) ∧ SendBounds (rtSegmentSendFifo t) ∧
      (rtSegmentSendFifo t).se.nextSendSeq ≤ t.se.nextSendSeq + t.se.sendFifo.size := by
  induction t using rtSegmentSendFifo.induct with
  | case1 t seqMin hfull =>
    rw [rtSegmentSendFifo, if_pos hfull, rtSegmentSendFifoChecked]
    exact ⟨if_pos hfull, h, by omega⟩
  | case2 t seqMin hopen h0 =>
    rw [rtSegmentSendFifo, if_neg hopen, dif_pos h0, rtSegmentSendFifoChecked]
    exact ⟨(if_neg hopen).trans (dif_pos h0), h, by omega⟩
  | case3 t seqMin hopen h0 size tmp ih =>
    have hsize : 1 ≤ size := by
      simp only [size, maxSegmentSize]
      omega
    have hle : size ≤ t.se.sendFifo.size := min_le_left _ _
    obtain ⟨hqueue, hbounds, hnext⟩ := h.queue .data tmp (by omega) (h.near hopen)
    obtain ⟨hchecked, hend, hbound⟩ := ih (hbounds.of_sublist (List.Sublist.refl _) rfl) (by
      simp only [RudpTransport.withSe_se, hnext, rtFifoAdvance_size]
      omega)
    simp only [RudpTransport.withSe_se, hnext, rtFifoAdvance_size] at hbound
    rw [rtSegmentSendFifo, if_neg hopen, dif_neg h0, rtSegmentSendFifoChecked]
    refine ⟨(if_neg hopen).trans ((dif_neg h0).trans ?_), hend, hbound.trans (by omega)⟩
    exact (congrArg (Option.bind · _) hqueue).trans hchecked

theorem rtPeriodicKeepalive_sendBounds (w : World) (now : ℕ) {t : RudpTransport}
    (h : SendBounds t) (hroom : t.se.nextSendSeq + 1 < 2 ^ 64) :
    rtPeriodicKeepaliveChecked w now t = some (rtPeriodicKeepalive w now t) ∧
      SendBounds (rtPeriodicKeepalive w now t) := by
  unfold rtPeriodicKeepaliveChecked rtPeriodicKeepalive
  split_ifs with hdue hempty
  · obtain ⟨hqueue, hbounds, -⟩ := h.queue_of_empty .keepAlive t.se.magicReq hroom hempty
    rw [hqueue]
    exact ⟨rfl, hbounds.of_sublist (List.Sublist.refl _) rfl⟩
  · exact ⟨rfl, h.of_sublist (List.Sublist.refl _) rfl⟩
  · exact ⟨rfl, h⟩

/-! ### Receiving -/

theorem AckBounds.add {t : RudpTransport} (h : AckBounds t) (seq : ℕ) :
    AckBounds (rtAddAck t seq) := by
  have hmax : maxNumAck = 64 := rfl
  unfold rtAddAck RudpTransport.withSe
  dsimp only
  split_ifs with hmem hroom
  · exact h
  · constructor
    · exact h.distinct.append (List.nodup_singleton seq) (List.disjoint_singleton.mpr hmem)
    · rw [List.length_append, List.length_singleton]
      omega
  · exact h

/-- A new number of the receive window finds a slot. -/
theorem RecvBounds.length_lt {t : RudpTransport} (h : RecvBounds t) {q : ℕ}
    (hlast : t.se.lastRecvCompleteSeq < q) (hwin : q ≤ t.se.lastRecvCompleteSeq + maxNumAck)
    (hnew : q ∉ t.recvSeqs) : t.se.recvSegments.length < maxNumAck := by
  have hlength := length_le_of_nodup (l := q :: t.recvSeqs)
    (a := t.se.lastRecvCompleteSeq + 1) (b := t.se.lastRecvCompleteSeq + maxNumAck + 1)
    (List.nodup_cons.mpr ⟨hnew, h.distinct⟩) (by
      intro x hx
      obtain rfl | hx := List.mem_cons.mp hx
      · omega
      · have := h.range x hx
        omega)
  rw [List.length_cons, RudpTransport.recvSeqs, List.length_map] at hlength
  omega

theorem RecvBounds.push {t : RudpTransport} (h : RecvBounds t) {q : ℕ} (payload : Bytes)
    (hlast : t.se.lastRecvCompleteSeq < q) (hwin : q ≤ t.se.lastRecvCompleteSeq + maxNumAck)
    (hnew : q ∉ t.recvSeqs) :
    RecvBounds (t.withSe fun se =>
      { se with recvSegments := se.recvSegments ++ [{ seq := q, data := payload }] }) := by
  have hseqs : RudpTransport.recvSeqs (t.withSe fun se =>
      { se with recvSegments := se.recvSegments ++ [{ seq := q, data := payload }] }) =
        t.recvSeqs ++ [q] := by
    simp [RudpTransport.recvSeqs]
  constructor
  · rw [hseqs]
    exact h.distinct.append (List.nodup_singleton q) (List.disjoint_singleton.mpr hnew)
  · intro x hx
    rw [hseqs] at hx
    obtain hx | hx := List.mem_append.mp hx
    · exact h.range x hx
    · obtain rfl := List.mem_singleton.mp hx
      exact ⟨hlast, hwin⟩

theorem RecvBounds.of_eq {t u : RudpTransport} (h : RecvBounds t)
    (hsegs : u.se.recvSegments = t.se.recvSegments)
    (hlast : u.se.lastRecvCompleteSeq = t.se.lastRecvCompleteSeq) : RecvBounds u := by
  have hseqs : u.recvSeqs = t.recvSeqs := congrArg (List.map RtSegment.seq) hsegs
  constructor
  · rw [hseqs]
    exact h.distinct
  · rw [hseqs, hlast]
    exact h.range

/-- A drain pass takes out the numbers it moves past. -/
theorem RecvBounds.drain {t u : RudpTransport} (h : RecvBounds t) {e : DrainEnd} {m : ℕ}
    (hm : DrainSpec t u e m) : RecvBounds u := by
  have hsplit : t.recvSeqs =
      List.range' (t.se.lastRecvCompleteSeq + 1) m ++ u.recvSeqs := by
    rw [RudpTransport.recvSeqs, RudpTransport.recvSeqs, hm.recv, ← hm.seqs, ← List.map_append,
      List.take_append_drop]
  have hdistinct := h.distinct
  rw [hsplit, List.nodup_append] at hdistinct
  refine ⟨hdistinct.2.1, ?_⟩
  intro q hq
  have hrange := h.range q (hsplit ▸ List.mem_append_right _ hq)
  rw [hm.last]
  refine ⟨?_, by omega⟩
  by_contra hle
  have hmem : q ∈ List.range' (t.se.lastRecvCompleteSeq + 1) m := by
    rw [List.mem_range'_1]
    omega
  exact hdistinct.2.2 q hmem q hq rfl

/-!
## The session
-/

/-- What holds between any two actions of the worker. -/
structure Bounded (t : RudpTransport) : Prop where
  key : t.se.keyInit.length = sha1Size
  send : SendBounds t
  recv : RecvBounds t
  acks : AckBounds t

namespace Bounded

variable {t u : RudpTransport}

theorem recv_length (h : Bounded t) : t.se.recvSegments.length ≤ maxNumAck := by
  have hlength := length_le_of_nodup h.recv.distinct (a := t.se.lastRecvCompleteSeq + 1)
    (b := t.se.lastRecvCompleteSeq + maxNumAck + 1) fun q hq => by
      have := h.recv.range q hq
      omega
  rw [RudpTransport.recvSeqs, List.length_map] at hlength
  omega

theorem windowBounds (h : Bounded t) : WindowBounds t where
  sendSorted := h.send.sorted
  sendRange q hq := (h.send.range q hq).2
  sendCount := h.send.length_le fun q hq => (h.send.range q hq).2.1
  recvDistinct := h.recv.distinct
  recvRange := h.recv.range
  recvCount := h.recv_length
  acksDistinct := h.acks.distinct
  acksCount := h.acks.count

theorem of_sameSegments (h : Bounded t) (hsame : SameSegments t u) (hacks : AckBounds u) :
    Bounded u := by
  have hkey := hsame.key
  have hsend := hsame.send
  have hrecv := hsame.recv
  simp only [RudpTransport.keyView, RudpTransport.sendView, RudpTransport.recvView,
    Prod.mk.injEq] at hkey hsend hrecv
  have hseqs : u.sendSeqs = t.sendSeqs := by
    have hmap := congrArg (List.map Prod.fst) hsend.1
    simpa [RudpTransport.window, RudpTransport.sendSeqs, Function.comp_def] using hmap
  refine ⟨?_, ?_, h.recv.of_eq hrecv.1 hrecv.2.1, hacks⟩
  · rw [hkey.1]
    exact h.key
  · exact h.send.of_sublist (hseqs ▸ List.Sublist.refl _) hsend.2.1

/-- Sending packets empties the list of acknowledgements or leaves it. -/
theorem transmits {c : Crypto} (h : Bounded t) (ht : Transmits c t u) : Bounded u := by
  apply h.of_sameSegments ht.same
  obtain hacks | hacks := ht.acks
  · constructor
    · rw [hacks]
      exact h.acks.distinct
    · rw [hacks]
      exact h.acks.count
  · constructor <;> simp [hacks]

theorem of_queues (h : Bounded t) (hq : Queues t u) (hsend : SendBounds u)
    (hrecv : RecvBounds u) : Bounded u := by
  have hkey := hq.key
  have hwire := hq.wire
  simp only [RudpTransport.keyView, RudpTransport.wireView, Prod.mk.injEq] at hkey hwire
  refine ⟨?_, hsend, hrecv, ?_, ?_⟩
  · rw [hkey.1]
    exact h.key
  · rw [hwire.1]
    exact h.acks.distinct
  · rw [hwire.1]
    exact h.acks.count

/-- Acknowledgements give up slots of the send window. -/
theorem acked (h : Bounded t) {segs : List RtSegment} (hsegs : segs.Sublist t.se.sendSegments)
    (yourTick myTick : ℕ) : Bounded (t.withWindow segs yourTick myTick) :=
  ⟨h.key, h.send.of_sublist (hsegs.map RtSegment.seq) rfl, h.recv.of_eq rfl rfl,
    ⟨h.acks.distinct, h.acks.count⟩⟩

theorem drain (h : Bounded t) (hnext : t.se.nextSendSeq + maxNumAck < 2 ^ 64)
    (hlast : t.se.lastRecvCompleteSeq + maxNumAck < 2 ^ 64) :
    drainRecvSegmentsChecked t = some (drainRecvSegments t).1 ∧
      Bounded (drainRecvSegments t).1 ∧
      (drainRecvSegments t).1.se.nextSendSeq ≤ t.se.nextSendSeq + maxNumAck := by
  have hlength := h.recv_length
  obtain ⟨hchecked, hsend, hle⟩ := drainLoop_sendBounds t.se.recvSegments
    t.se.lastRecvCompleteSeq 0 h.send (by omega)
  have hpos : ∀ s ∈ t.se.recvSegments, 0 < s.seq ∧ s.seq < 2 ^ 64 := by
    intro s hs
    have hrange := h.recv.range s.seq (List.mem_map_of_mem hs)
    omega
  obtain ⟨m, hm⟩ := drainRecvSegments_spec t hpos (by omega)
  have hsend' : SendBounds (drainRecvSegments t).1 :=
    hsend.of_sublist (List.Sublist.refl _) rfl
  refine ⟨?_, h.of_queues (drainRecvSegments_queues t) hsend' (h.recv.drain hm), ?_⟩
  · rw [drainRecvSegmentsChecked, hchecked]
    rfl
  · exact hle.trans (by omega)

theorem segment (h : Bounded t) (hroom : t.se.nextSendSeq + t.se.sendFifo.size < 2 ^ 64) :
    rtSegmentSendFifoChecked t = some (rtSegmentSendFifo t) ∧ Bounded (rtSegmentSendFifo t) ∧
      (rtSegmentSendFifo t).se.nextSendSeq ≤ t.se.nextSendSeq + t.se.sendFifo.size := by
  obtain ⟨hchecked, hsend, hle⟩ := rtSegmentSendFifo_sendBounds t h.send hroom
  have hsame := rtSegmentSendFifo_sameRecv t
  exact ⟨hchecked, h.of_queues (rtSegmentSendFifo_queues t) hsend
    (h.recv.of_eq hsame.recvSegments_eq hsame.last_eq), hle⟩

theorem keepalive (h : Bounded t) (w : World) (now : ℕ) (hroom : t.se.nextSendSeq + 1 < 2 ^ 64) :
    rtPeriodicKeepaliveChecked w now t = some (rtPeriodicKeepalive w now t) ∧
      Bounded (rtPeriodicKeepalive w now t) := by
  obtain ⟨hchecked, hsend⟩ := rtPeriodicKeepalive_sendBounds w now h.send hroom
  have hsame := rtPeriodicKeepalive_sameRecv w now t
  exact ⟨hchecked, h.of_queues (rtPeriodicKeepalive_queues w now t) hsend
    (h.recv.of_eq hsame.recvSegments_eq hsame.last_eq)⟩

/-- A received segment is stored, acknowledged again or ignored, and is never dropped for want
of a slot. -/
theorem payload (h : Bounded t) (hlast : t.se.lastRecvCompleteSeq + maxNumAck < 2 ^ 64) (seq : ℕ)
    (payload : Bytes) :
    rtProcessRecvPayloadChecked t seq payload = some (rtProcessRecvPayload t seq payload) ∧
      Bounded (rtProcessRecvPayload t seq payload) := by
  have hwrap : wrap64 (t.se.lastRecvCompleteSeq + maxNumAck) =
      t.se.lastRecvCompleteSeq + maxNumAck := Nat.mod_eq_of_lt hlast
  have hack : ∀ v, Bounded v → Bounded (rtAddAck v seq) := fun v hv =>
    hv.of_sameSegments (rtAddAck_sameViews v seq).sameSegments (hv.acks.add seq)
  unfold rtProcessRecvPayloadChecked rtProcessRecvPayload
  rw [hwrap]
  split_ifs with hbeyond hold hbuffered hfull
  · exact ⟨rfl, h⟩
  · exact ⟨rfl, hack t h⟩
  · exact ⟨rfl, hack t h⟩
  · have hnew : seq ∉ t.recvSeqs := fun hmem => hbuffered (List.mem_map.mp hmem)
    have hlt := h.recv.length_lt (by omega) (by omega) hnew
    omega
  · have hnew : seq ∉ t.recvSeqs := fun hmem => hbuffered (List.mem_map.mp hmem)
    refine ⟨rfl, hack _ ⟨h.key, ?_, h.recv.push payload (by omega) (by omega) hnew, ?_⟩⟩
    · exact h.send.of_sublist (List.Sublist.refl _) rfl
    · exact ⟨h.acks.distinct, h.acks.count⟩

theorem applyPayload (c : Crypto) (w : World) (h : Bounded t)
    (hlast : t.se.lastRecvCompleteSeq + maxNumAck < 2 ^ 64) (srcPort : ℕ) (i : SegmentInfo) :
    rtApplyPayloadChecked c w t srcPort i = some (rtApplyPayload c w t srcPort i) ∧
      Bounded (rtApplyPayload c w t srcPort i) := by
  have hend : ∀ v, Bounded v →
      Bounded ((rtEstablish v).withSe fun se => { se with yourPort := srcPort }) := by
    intro v hv
    apply (hv.transmits (rtEstablish_transmits c v)).transmits (c := c)
    exact Transmits.of_silent ⟨rfl, rfl, rfl⟩ rfl
  unfold rtApplyPayloadChecked rtApplyPayload
  by_cases hzero : i.seq = 0
  · rw [if_pos hzero, if_pos hzero]
    exact ⟨rfl, h⟩
  rw [if_neg hzero, if_neg hzero]
  by_cases hmagic : i.seq = t.se.magicDisconnect
  · rw [if_pos hmagic, if_pos hmagic]
    exact ⟨rfl, h.transmits (rtSetDisconnected_transmits c w t true)⟩
  rw [if_neg hmagic, if_neg hmagic]
  dsimp only
  generalize (if i.payload.length > maxSegmentSize then [] else i.payload) = payload
  by_cases hdata : payload.length ≥ 1
  · obtain ⟨hchecked, hbounded⟩ := h.payload hlast i.seq payload
    rw [if_pos hdata, if_pos hdata, hchecked]
    exact ⟨rfl, hend _ hbounded⟩
  · rw [if_neg hdata, if_neg hdata]
    exact ⟨rfl, hend t h⟩

theorem handle (c : Crypto) (w : World) (h : Bounded t)
    (hlast : t.se.lastRecvCompleteSeq + maxNumAck < 2 ^ 64) (srcPort : ℕ) (buf : Bytes) :
    rtHandleUdpPacketChecked c w t srcPort buf = some (rtHandleUdpPacket c w t srcPort buf) ∧
      Bounded (rtHandleUdpPacket c w t srcPort buf) := by
  unfold rtHandleUdpPacketChecked rtHandleUdpPacket
  split_ifs with hstatus hshort
  · exact ⟨rfl, h⟩
  · exact ⟨rfl, h⟩
  · cases (openPacket c t.se.keyRecv buf).bind parseSegment with
    | none => exact ⟨rfl, h⟩
    | some i =>
      dsimp only [rtApplySegment]
      split_ifs with htick
      · exact ⟨rfl, h⟩
      · obtain ⟨segs, yourTick, myTick, heq, hgave⟩ := rtApplyAcks_eq t i
        rw [heq]
        exact (h.acked hgave.sublist yourTick myTick).applyPayload c w hlast srcPort i

theorem interrupt (c : Crypto) (w : World) (now : ℕ) (h : Bounded t)
    (hnext : t.se.nextSendSeq < 2 ^ 63) (hlast : t.se.lastRecvCompleteSeq < 2 ^ 63) :
    rtInterruptChecked c w now t = some (rtInterrupt c w now t) ∧
      Bounded (rtInterrupt c w now t) := by
  have hmax : maxNumAck = 64 := rfl
  unfold rtInterruptChecked rtInterrupt
  cases t.se.status with
  | connectSent => exact ⟨rfl, h.transmits (rtInterruptConnecting_transmits c w now h.key)⟩
  | disconnected => exact ⟨rfl, h⟩
  | established =>
    dsimp only
    split_ifs with htimeout
    · refine ⟨rfl, ?_⟩
      have hnote : Transmits c t { t with errorCode := .timeout } :=
        Transmits.of_silent ⟨rfl, rfl, rfl⟩ rfl
      exact h.transmits (hnote.trans (rtSetDisconnected_transmits c w _ false))
    · obtain ⟨hdrain, h1, hle1⟩ := h.drain (by omega) (by omega)
      have hpump : Transmits c (drainRecvSegments t).1
          (rtPumpPairToSend c w (rtPumpRecvToPair c w (drainRecvSegments t).1)) :=
        (rtPumpRecvToPair_transmits c w _).trans (rtPumpPairToSend_transmits c w _)
      have hsame := hpump.same.send
      simp only [RudpTransport.sendView, Prod.mk.injEq] at hsame
      have hsize := (rtPumpPairToSend c w
        (rtPumpRecvToPair c w (drainRecvSegments t).1)).se.sendFifo.size_le
      have hfifo : maxFifoSize = 524288 := rfl
      obtain ⟨hsegment, h3, hle3⟩ := (h1.transmits hpump).segment (by omega)
      obtain ⟨hkeepalive, h4⟩ := h3.keepalive w now (by omega)
      have hend := (h4.transmits (rtRetransmit_transmits c w now _)).transmits
        (rtFlushAcks_transmits c w _)
      refine ⟨?_, hend⟩
      rw [hdrain]
      simp only [Option.bind_eq_bind, Option.bind_some, hsegment, hkeepalive]
      rfl

end Bounded

/-- Every event gets past the dropping branches and keeps the bounds. -/
theorem workerStep_bounded (c : Crypto) {t : RudpTransport} (h : Bounded t) {ev : WorkerEvent}
    (hbelow : SeqsBelow t ev) :
    workerStepChecked c t ev = workerStep c t ev ∧ ∀ u, workerStep c t ev = some u → Bounded u := by
  obtain ⟨hnext, hlast⟩ := hbelow
  have hmax : maxNumAck = 64 := rfl
  have hfifo := t.se.sendFifo.size_le
  have hcap : maxFifoSize = 524288 := rfl
  have hdone : ∀ {o : Option RudpTransport} {v : RudpTransport}, o = some v ∧ Bounded v →
      o = some v ∧ ∀ u, some v = some u → Bounded u := by
    rintro o v ⟨ho, hv⟩
    refine ⟨ho, ?_⟩
    rintro u ⟨⟩
    exact hv
  cases ev with
  | datagram w srcPort buf => exact hdone (h.handle c w (by omega) srcPort buf)
  | interrupt w now => exact hdone (h.interrupt c w now hnext hlast)
  | action ev =>
    cases ev with
    | connecting w now =>
      exact hdone ⟨rfl, h.transmits (rtInterruptConnecting_transmits c w now h.key)⟩
    | datagram w srcPort buf => exact hdone (h.handle c w (by omega) srcPort buf)
    | ack seq => exact hdone ⟨rfl, h.acked (rtProcessAck_gaveUp t seq).sublist _ _⟩
    | ack2 maxSeq => exact hdone ⟨rfl, h.acked (rtProcessAck2_gaveUp t maxSeq).sublist _ _⟩
    | drain =>
      obtain ⟨hchecked, hbounded, -⟩ := h.drain (by omega) (by omega)
      exact hdone ⟨hchecked, hbounded⟩
    | pumpRecvToPair w => exact hdone ⟨rfl, h.transmits (rtPumpRecvToPair_transmits c w t)⟩
    | pumpPairToSend w => exact hdone ⟨rfl, h.transmits (rtPumpPairToSend_transmits c w t)⟩
    | segmentSendFifo =>
      obtain ⟨hchecked, hbounded, -⟩ := h.segment (by omega)
      exact hdone ⟨hchecked, hbounded⟩
    | periodicKeepalive w now => exact hdone (h.keepalive w now (by omega))
    | retransmit w now => exact hdone ⟨rfl, h.transmits (rtRetransmit_transmits c w now t)⟩
    | flushAcks w => exact hdone ⟨rfl, h.transmits (rtFlushAcks_transmits c w t)⟩

theorem rudpTransportStart_bounded (c : Crypto) (i : ConnectInputs) :
    Bounded (rudpTransportStart c i) where
  key := i.keyInit_length
  send := ⟨le_rfl, List.Pairwise.nil, by simp [rudpTransportStart, RudpTransport.sendSeqs]⟩
  recv := ⟨List.nodup_nil, by simp [rudpTransportStart, RudpTransport.recvSeqs]⟩
  acks := ⟨List.nodup_nil, Nat.zero_le _⟩

theorem workerRun_bounded (c : Crypto) {s : RudpTransport} {evs : List WorkerEvent}
    (h : Bounded s) (hbelow : Along (workerStep c) SeqsBelow s evs) :
    ∃ t, exec (workerStep c) s evs = some t ∧ exec (workerStepChecked c) s evs = some t ∧
      Bounded t := by
  induction evs generalizing s with
  | nil => exact ⟨s, rfl, rfl, h⟩
  | cons ev evs ih =>
    obtain ⟨hchecked, hkeep⟩ := workerStep_bounded c h hbelow.1
    obtain ⟨u, hu⟩ : ∃ u, workerStep c s ev = some u := by
      cases ev <;> exact ⟨_, rfl⟩
    obtain ⟨t, hrun, hrunChecked, ht⟩ := ih (hkeep u hu) (hbelow.2 u hu)
    refine ⟨t, exec_cons_eq_some.mpr ⟨u, hu, hrun⟩, ?_, ht⟩
    exact exec_cons_eq_some.mpr ⟨u, hchecked.trans hu, hrunChecked⟩

/-- In every run with sequence numbers below `2 ^ 63` the windows keep their bounds, and neither
dropping branch is taken. -/
theorem windows_bounded (c : Crypto) (i : ConnectInputs) (evs : List WorkerEvent)
    (hbelow : Along (workerStep c) SeqsBelow (rudpTransportStart c i) evs) :
    ∃ t, exec (workerStep c) (rudpTransportStart c i) evs = some t ∧
      exec (workerStepChecked c) (rudpTransportStart c i) evs = some t ∧ WindowBounds t := by
  obtain ⟨t, hrun, hchecked, ht⟩ := workerRun_bounded c (rudpTransportStart_bounded c i) hbelow
  exact ⟨t, hrun, hchecked, ht.windowBounds⟩

theorem windows_bounded_segmenting :
    ∃ t, exec (workerStepChecked .openssl) (rudpTransportStart .openssl .sample)
        [.action .segmentSendFifo] = some t ∧ WindowBounds t := by
  obtain ⟨t, -, hchecked, ht⟩ := windows_bounded .openssl .sample [.action .segmentSendFifo]
    ⟨⟨by decide, by decide⟩, fun _ _ => trivial⟩
  exact ⟨t, hchecked, ht⟩

end SoftEtherVpn.Rudp
