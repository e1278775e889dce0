import SoftEtherVpn.Foundation.Runs
import SoftEtherVpn.Rudp.Moves

/-!
# The byte stream of the send side

Bytes read from the application go through the send FIFO into numbered segments. The
stream of a session is what its data segments carry followed by what is still in the
FIFO. Segmenting, keepalives and acknowledgements leave it as it is; reading appends
each chunk that fits the FIFO, and loses each one that does not, because
`rt_pump_pair_to_send` ignores the result of the FIFO write.
-/

namespace SoftEtherVpn.Rudp

open Foundation

/-- What has gone into data segments, and what still waits in the FIFO. -/
def RudpTransport.stream (t : RudpTransport) : Bytes :=
  t.hist.appStream ++ t.se.sendFifo.contents

/-- The actions of the worker on one session, in any order. -/
inductive SendEvent
  | connecting (w : World) (now : ℕ)
  | datagram (w : World) (srcPort : ℕ) (buf : Bytes)
  | ack (seq : ℕ)
  | ack2 (maxSeq : ℕ)
  | drain
  | pumpRecvToPair (w : World)
  | pumpPairToSend (w : World)
  | segmentSendFifo
  | periodicKeepalive (w : World) (now : ℕ)
  | retransmit (w : World) (now : ℕ)
  | flushAcks (w : World)

def sendAction (c : Crypto) (t : RudpTransport) : SendEvent → RudpTransport
  | .connecting w now => rtInterruptConnecting c w now t
  | .datagram w srcPort buf => rtHandleUdpPacket c w t srcPort buf
  | .ack seq => rtProcessAck t seq
  | .ack2 maxSeq => rtProcessAck2 t maxSeq
  | .drain => (drainRecvSegments t).1
  | .pumpRecvToPair w => rtPumpRecvToPair c w t
  | .pumpPairToSend w => rtPumpPairToSend c w t
  | .segmentSendFifo => rtSegmentSendFifo t
  | .periodicKeepalive w now => rtPeriodicKeepalive w now t
  | .retransmit w now => rtRetransmit c w now t
  | .flushAcks w => rtFlushAcks c w t

/-- No action is ever disabled. -/
def sendStep (c : Crypto) (t : RudpTransport) (ev : SendEvent) : Option RudpTransport :=
  some (sendAction c t ev)

/-- An established interrupt is one particular order of these actions. -/
theorem rtInterruptEstablished_eq_exec (c : Crypto) (w : World) (now : ℕ) (t : RudpTransport) :
    exec (sendStep c) t [.drain, .pumpRecvToPair w, .pumpPairToSend w, .segmentSendFifo,
      .periodicKeepalive w now, .retransmit w now, .flushAcks w] =
      some (rtInterruptEstablished c w now t) := rfl

/-- Every chunk the read loop takes fits the room that is left at that moment. -/
def ChunksFit (size : ℕ) : List RecvResult → Prop
  | [] => True
  | .chunk bytes _ _ :: rs =>
    size ≥ maxFifoSize ∨
      (size + bytes.length ≤ maxFifoSize ∧ ChunksFit (size + bytes.length) rs)
  | .closed :: _ => True
  | .failed :: _ => True

def ReadsFit (t : RudpTransport) : SendEvent → Prop
  | .pumpPairToSend w => ChunksFit t.se.sendFifo.size (w.recv t.calls)
  | _ => True

/-- The 64-bit segment counter cannot wrap in the next action. -/
def SeqRoom (t : RudpTransport) (_ev : SendEvent) : Prop :=
  t.se.nextSendSeq + t.se.sendFifo.size + 1 < 2 ^ 64

/-- Nothing lost, duplicated or reordered between the application and the segments. -/
def StreamConserved (i : ConnectInputs) (t : RudpTransport) : Prop :=
  (t.hist.queued.map Queued.seq).Pairwise (· < ·) ∧
    bytesBE 8 i.magicDisconnect ++ t.hist.read = t.stream

/-! ## Actions that leave the stream alone -/

/-- The stream and the bytes read are what they were. -/
def SameStream (t u : RudpTransport) : Prop :=
  u.stream = t.stream ∧ u.hist.read = t.hist.read

namespace SameStream

variable {t u v : RudpTransport}

theorem refl (t : RudpTransport) : SameStream t t := ⟨rfl, rfl⟩

theorem trans (h : SameStream t u) (h' : SameStream u v) : SameStream t v :=
  ⟨h'.1.trans h.1, h'.2.trans h.2⟩

end SameStream

theorem Shrinks.sameStream {t u : RudpTransport} (h : Shrinks t u) : SameStream t u := by
  have happ := h.app
  simp only [RudpTransport.appView, Prod.mk.injEq] at happ
  refine ⟨?_, happ.2⟩
  rw [RudpTransport.stream, RudpTransport.stream, History.appStream, History.appStream, happ.1,
    h.queued]

theorem rtQueueSegment_keepAlive_sameStream (t : RudpTransport) (data : Bytes) :
    SameStream t (rtQueueSegment t .keepAlive data) := by
  unfold rtQueueSegment
  split_ifs
  · exact SameStream.refl t
  · refine ⟨?_, rfl⟩
    simp [RudpTransport.stream, History.appStream, Queued.appBytes]

theorem drainLoop_sameStream (segs : List RtSegment) (t : RudpTransport) (cur d : ℕ) :
    SameStream t (drainLoop t cur d segs).1 := by
  induction segs generalizing t cur d with
  | nil => exact SameStream.refl t
  | cons s rest ih =>
    have consume : ∀ v, SameStream t v → SameStream t (drainLoop
        (v.withSe fun se => { se with lastRecvCompleteSeq := s.seq })
        (wrap64 (cur + 1)) (d + 1) rest).1 := by
      intro v hv
      refine (hv.trans ?_).trans (ih _ _ _)
      exact ⟨rfl, rfl⟩
    unfold drainLoop
    dsimp only
    split_ifs
    · exact SameStream.refl t
    · exact consume _ (rtQueueSegment_keepAlive_sameStream t _)
    · exact consume t (SameStream.refl t)
    · exact consume t (SameStream.refl t)
    · cases rtFifoWrite t.se.recvFifo s.data with
      | none => exact SameStream.refl t
      | some fifo => exact consume _ ⟨rfl, rfl⟩

theorem drainRecvSegments_sameStream (t : RudpTransport) :
    SameStream t (drainRecvSegments t).1 :=
  (drainLoop_sameStream t.se.recvSegments t t.se.lastRecvCompleteSeq 0).trans ⟨rfl, rfl⟩

theorem rtPeriodicKeepalive_sameStream (w : World) (now : ℕ) (t : RudpTransport) :
    SameStream t (rtPeriodicKeepalive w now t) := by
  unfold rtPeriodicKeepalive
  split_ifs
  · exact (rtQueueSegment_keepAlive_sameStream t _).trans ⟨rfl, rfl⟩
  · exact ⟨rfl, rfl⟩
  · exact SameStream.refl t

/-- A segment cut from the FIFO carries exactly the bytes that leave it. -/
theorem queue_advance_sameStream {t : RudpTransport} {size : ℕ}
    (hroom : t.se.sendSegments.length < maxNumAck) :
    SameStream t ((rtQueueSegment t .data (rtFifoPeek t.se.sendFifo size)).withSe fun se =>
      { se with sendFifo := rtFifoAdvance t.se.sendFifo size }) := by
  have hcap : maxFifoSize ≤ 2 ^ 31 := by decide
  unfold rtQueueSegment
  rw [if_neg (by omega)]
  refine ⟨?_, rfl⟩
  simp only [RudpTransport.stream, RudpTransport.withSe, History.appStream, List.flatMap_append,
    List.flatMap_singleton, Queued.appBytes, rtFifoPeek_eq, rtFifoAdvance_contents hcap]
  rw [List.append_assoc, List.take_append_drop]

/-- While the window check passes, the window has a free slot. -/
theorem WindowInv.segment_room {t : RudpTransport} (h : WindowInv t)
    (hlt : t.se.nextSendSeq < 2 ^ 64)
    (hopen : ¬ ((match t.se.sendSegments with | [] => 0 | s :: _ => s.seq) ≠ 0 ∧
      wrap64 ((match t.se.sendSegments with | [] => 0 | s :: _ => s.seq) + maxNumAck - 1) <
        t.se.nextSendSeq)) : t.se.sendSegments.length < maxNumAck := by
  cases hsegs : t.se.sendSegments with
  | nil => decide
  | cons s rest =>
    rw [← hsegs]
    apply h.window_lt hsegs
    have hmem : s.seq ∈ t.window.map Prod.fst := by
      rw [RudpTransport.window, hsegs]
      simp
    have hrange := List.mem_range'_1.mp (h.window_seqs.subset hmem)
    have hnext := h.next
    simp only [hsegs] at hopen
    unfold wrap64 maxNumAck at hopen
    unfold maxNumAck
    omega

theorem rtQueueSegment_queued_length (t : RudpTransport) (k : SegmentKind) (data : Bytes) :
    (rtQueueSegment t k data).hist.queued.length ≤ t.hist.queued.length + 1 := by
  unfold rtQueueSegment
  split_ifs
  · omega
  · simp

theorem rtSegmentSendFifo_stream (t : RudpTransport) (h : WindowInv t)
    (hroom : t.se.nextSendSeq + t.se.sendFifo.size < 2 ^ 64) :
    SameStream t (rtSegmentSendFifo t) ∧ WindowInv (rtSegmentSendFifo t) := by
  induction t using rtSegmentSendFifo.induct with
  | case1 t seqMin hfull =>
    rw [rtSegmentSendFifo, if_pos hfull]
    exact ⟨SameStream.refl t, h⟩
  | case2 t seqMin hopen h0 =>
    rw [rtSegmentSendFifo, if_neg hopen, dif_pos h0]
    exact ⟨SameStream.refl t, h⟩
  | case3 t seqMin hopen h0 size tmp ih =>
    rw [rtSegmentSendFifo, if_neg hopen, dif_neg h0]
    have hslot : t.se.sendSegments.length < maxNumAck := h.segment_room (by omega) hopen
    have hsize : 1 ≤ size := by
      simp only [size, maxSegmentSize]
      omega
    have hle : size ≤ t.se.sendFifo.size := min_le_left _ _
    have hlen : tmp.length ≤ maxSegmentSize := by
      have htmp : tmp = t.se.sendFifo.contents.take size := rtFifoPeek_eq _ _
      rw [htmp, List.length_take]
      exact (min_le_left _ _).trans (min_le_right _ _)
    have hqueue : Queues t (rtQueueSegment t .data tmp) := rtQueueSegment_queues hlen
    have hwin : WindowInv (rtQueueSegment t .data tmp) :=
      h.queues_of_room hqueue (rtQueueSegment_queued_length t .data tmp) (by omega)
    have hnext : (rtQueueSegment t .data tmp).se.nextSendSeq = t.se.nextSendSeq + 1 := by
      unfold rtQueueSegment
      rw [if_neg (by omega)]
      exact Nat.mod_eq_of_lt (by omega)
    obtain ⟨hsame, hinv⟩ := ih (hwin.sameSend rfl) (by
      simp only [RudpTransport.withSe_se, hnext, rtFifoAdvance_size]
      omega)
    exact ⟨(queue_advance_sameStream hslot).trans hsame, hinv⟩

/-- A drain pass answers at most one keepalive: then the window is not empty any more. -/
theorem drainLoop_queued_length (segs : List RtSegment) (t : RudpTransport) (cur d : ℕ) :
    (drainLoop t cur d segs).1.hist.queued.length ≤ t.hist.queued.length + 1 ∧
      (t.se.sendSegments ≠ [] → (drainLoop t cur d segs).1.hist.queued.length =
        t.hist.queued.length) := by
  induction segs generalizing t cur d with
  | nil => exact ⟨Nat.le_succ _, fun _ => rfl⟩
  | cons s rest ih =>
    unfold drainLoop
    dsimp only
    split_ifs with hseq hreq hempty hresp
    · exact ⟨Nat.le_succ _, fun _ => rfl⟩
    · have hnil : t.se.sendSegments = [] := List.length_eq_zero_iff.mp hempty
      have hqueue : ∀ x, rtQueueSegment t .keepAlive x =
          { t with
            se := { t.se with
              sendSegments := t.se.sendSegments ++ [{ seq := t.se.nextSendSeq, data := x }]
              nextSendSeq := wrap64 (t.se.nextSendSeq + 1) }
            hist := { t.hist with
              queued := t.hist.queued ++ [⟨.keepAlive, t.se.nextSendSeq, x⟩] } } := by
        intro x
        unfold rtQueueSegment
        rw [if_neg (by rw [hempty]; decide)]
      rw [hqueue]
      refine ⟨?_, fun hne => absurd hnil hne⟩
      refine ((ih _ _ _).2 ?_).trans_le ?_
      · simp
      · simp
    · exact ih (t.withSe fun se => { se with lastRecvCompleteSeq := s.seq }) _ _
    · exact ih (t.withSe fun se => { se with lastRecvCompleteSeq := s.seq }) _ _
    · cases rtFifoWrite t.se.recvFifo s.data with
      | none => exact ⟨Nat.le_succ _, fun _ => rfl⟩
      | some fifo => exact ih _ _ _

/-! ## Reading from the application -/

/-- `taken` was read from the application and `kept` added to the stream. -/
structure Moved (t u : RudpTransport) (taken kept : Bytes) : Prop where
  read : u.hist.read = t.hist.read ++ taken
  stream : u.stream = t.stream ++ kept

theorem SameStream.moved {t u : RudpTransport} (h : SameStream t u) : Moved t u [] [] where
  read := by rw [h.2, List.append_nil]
  stream := by rw [h.1, List.append_nil]

theorem Moved.trans {t u v : RudpTransport} {taken kept taken' kept' : Bytes}
    (h : Moved t u taken kept) (h' : Moved u v taken' kept') :
    Moved t v (taken ++ taken') (kept ++ kept') where
  read := by rw [h'.read, h.read, List.append_assoc]
  stream := by rw [h'.stream, h.stream, List.append_assoc]

/-- All bytes were kept when `fits` holds, and some were lost when it does not. -/
def Accounts (t u : RudpTransport) (fits : Prop) : Prop :=
  ∃ taken kept, Moved t u taken kept ∧ (fits → kept = taken) ∧
    (¬ fits → kept.length < taken.length)

namespace Accounts

variable {t u v : RudpTransport} {p q : Prop}

theorem of_sameStream (h : SameStream t u) (hp : p) : Accounts t u p :=
  ⟨[], [], h.moved, fun _ => rfl, fun hn => absurd hp hn⟩

theorem length_le (h : Accounts t u p) : ∃ taken kept, Moved t u taken kept ∧
    (p → kept = taken) ∧ (¬ p → kept.length < taken.length) ∧ kept.length ≤ taken.length := by
  obtain ⟨taken, kept, hm, hfit, hlost⟩ := h
  refine ⟨taken, kept, hm, hfit, hlost, ?_⟩
  by_cases hp : p
  · exact (congrArg List.length (hfit hp)).le
  · exact (hlost hp).le

theorem trans (h : Accounts t u p) (h' : Accounts u v q) : Accounts t v (p ∧ q) := by
  obtain ⟨taken, kept, hm, hfit, hlost, hle⟩ := h.length_le
  obtain ⟨taken', kept', hm', hfit', hlost', hle'⟩ := h'.length_le
  refine ⟨_, _, hm.trans hm', ?_, ?_⟩
  · rintro ⟨hp, hq⟩
    rw [hfit hp, hfit' hq]
  · intro hn
    rw [List.length_append, List.length_append]
    by_cases hp : p
    · have := hlost' fun hq => hn ⟨hp, hq⟩
      omega
    · have := hlost hp
      omega

theorem congr (h : Accounts t u p) (hpq : p ↔ q) : Accounts t u q := by
  rwa [propext hpq] at h

end Accounts

/-- One chunk: it is appended if it fits, and lost as a whole if it does not. -/
theorem readChunk_accounts {t : RudpTransport} {bytes : Bytes} (hpos : 1 ≤ bytes.length) :
    Accounts t
      { t with
        se := { t.se with sendFifo := (rtFifoWrite t.se.sendFifo bytes).getD t.se.sendFifo }
        hist := { t.hist with read := t.hist.read ++ bytes } }
      (t.se.sendFifo.size + bytes.length ≤ maxFifoSize) := by
  have hle := t.se.sendFifo.size_le
  cases hwrite : rtFifoWrite t.se.sendFifo bytes with
  | none =>
    have hfull : rtFifoAvail t.se.sendFifo < bytes.length := rtFifoWrite_eq_none.mp hwrite
    unfold rtFifoAvail at hfull
    refine ⟨bytes, [], ⟨rfl, ?_⟩, ?_, ?_⟩
    · exact (List.append_nil _).symm
    · intro hfit
      omega
    · intro _
      exact hpos
  | some fifo =>
    have hfit : ¬ rtFifoAvail t.se.sendFifo < bytes.length := by
      rw [← rtFifoWrite_eq_none, hwrite]
      simp
    unfold rtFifoAvail at hfit
    refine ⟨bytes, bytes, ⟨rfl, ?_⟩, fun _ => rfl, ?_⟩
    · simp only [RudpTransport.stream, Option.getD_some]
      rw [rtFifoWrite_contents (by decide) hwrite, List.append_assoc]
      rfl
    · intro hn
      omega

theorem pumpPairLoop_accounts (c : Crypto) (w : World) (rs : List RecvResult)
    (t : RudpTransport) :
    Accounts t (pumpPairLoop c w t rs) (ChunksFit t.se.sendFifo.size rs) := by
  induction rs generalizing t with
  | nil => exact Accounts.of_sameStream (SameStream.refl t) trivial
  | cons r rs ih =>
    have hdisc : SameStream t (rtSetDisconnected c w t false) :=
      (rtSetDisconnected_sameViews c w t false).shrinks.sameStream
    unfold pumpPairLoop
    split_ifs with hfull
    · apply Accounts.of_sameStream (SameStream.refl t)
      cases r with
      | chunk bytes pos le => exact Or.inl hfull
      | closed => trivial
      | failed => trivial
    · cases r with
      | closed => exact Accounts.of_sameStream hdisc trivial
      | failed => exact Accounts.of_sameStream hdisc trivial
      | chunk bytes pos le =>
        refine ((readChunk_accounts pos).trans (ih _)).congr ?_
        simp only [ChunksFit, hfull, false_or]
        constructor
        · rintro ⟨hfit, hrest⟩
          obtain ⟨g, hg⟩ : ∃ g, rtFifoWrite t.se.sendFifo bytes = some g :=
            rtFifoWrite_isSome (by unfold rtFifoAvail; omega)
          rw [hg, Option.getD_some, rtFifoWrite_size hg] at hrest
          exact ⟨hfit, hrest⟩
        · rintro ⟨hfit, hrest⟩
          obtain ⟨g, hg⟩ : ∃ g, rtFifoWrite t.se.sendFifo bytes = some g :=
            rtFifoWrite_isSome (by unfold rtFifoAvail; omega)
          rw [hg, Option.getD_some, rtFifoWrite_size hg]
          exact ⟨hfit, hrest⟩

theorem rtPumpPairToSend_accounts (c : Crypto) (w : World) (t : RudpTransport) :
    Accounts t (rtPumpPairToSend c w t) (ChunksFit t.se.sendFifo.size (w.recv t.calls)) := by
  have hcall : Accounts t { t with calls := t.calls + 1 } True :=
    Accounts.of_sameStream ⟨rfl, rfl⟩ trivial
  exact (hcall.trans (pumpPairLoop_accounts c w (w.recv t.calls) _)).congr
    (iff_of_eq (true_and _))

/-! ## Whole runs -/

theorem rtPeriodicKeepalive_queued_length (w : World) (now : ℕ) (t : RudpTransport) :
    (rtPeriodicKeepalive w now t).hist.queued.length ≤ t.hist.queued.length + 1 := by
  unfold rtPeriodicKeepalive
  split_ifs
  · exact rtQueueSegment_queued_length t _ _
  · exact Nat.le_succ _
  · exact Nat.le_succ _

theorem Shrinks.accounts {t u : RudpTransport} (h : Shrinks t u) (hwin : WindowInv t) {p : Prop}
    (hp : p) : WindowInv u ∧ Accounts t u p :=
  ⟨hwin.acked h.next h.queued h.window, Accounts.of_sameStream h.sameStream hp⟩

/-- One action keeps the window and accounts for every byte it reads. -/
theorem sendAction_accounts (c : Crypto) {t : RudpTransport} {ev : SendEvent}
    (h : WindowInv t) (hroom : SeqRoom t ev) :
    WindowInv (sendAction c t ev) ∧ Accounts t (sendAction c t ev) (ReadsFit t ev) := by
  unfold SeqRoom at hroom
  cases ev with
  | connecting w now =>
    exact (rtInterruptConnecting_sameViews c w now t).shrinks.accounts h trivial
  | datagram w srcPort buf =>
    exact (rtHandleUdpPacket_shrinks c w t srcPort buf).accounts h trivial
  | ack seq => exact (rtProcessAck_shrinks t seq).accounts h trivial
  | ack2 maxSeq => exact (rtProcessAck2_shrinks t maxSeq).accounts h trivial
  | pumpRecvToPair w => exact (rtPumpRecvToPair_sameViews c w t).shrinks.accounts h trivial
  | retransmit w now => exact (rtRetransmit_sameViews c w now t).shrinks.accounts h trivial
  | flushAcks w => exact (rtFlushAcks_sameViews c w t).shrinks.accounts h trivial
  | drain =>
    have hlen := (drainLoop_queued_length t.se.recvSegments t t.se.lastRecvCompleteSeq 0).1
    exact ⟨h.queues_of_room (drainRecvSegments_queues t) hlen (by omega),
      Accounts.of_sameStream (drainRecvSegments_sameStream t) trivial⟩
  | periodicKeepalive w now =>
    exact ⟨h.queues_of_room (rtPeriodicKeepalive_queues w now t)
        (rtPeriodicKeepalive_queued_length w now t) (by omega),
      Accounts.of_sameStream (rtPeriodicKeepalive_sameStream w now t) trivial⟩
  | segmentSendFifo =>
    obtain ⟨hsame, hwin⟩ := rtSegmentSendFifo_stream t h (by omega)
    exact ⟨hwin, Accounts.of_sameStream hsame trivial⟩
  | pumpPairToSend w =>
    exact ⟨h.sameSend (rtPumpPairToSend_sameSegments c w t).send,
      rtPumpPairToSend_accounts c w t⟩

theorem sendRun_accounts (c : Crypto) {s t : RudpTransport} {evs : List SendEvent}
    (h : WindowInv s) (hroom : Along (sendStep c) SeqRoom s evs)
    (hrun : exec (sendStep c) s evs = some t) :
    WindowInv t ∧ Accounts s t (Along (sendStep c) ReadsFit s evs) := by
  induction evs generalizing s with
  | nil =>
    cases hrun
    exact ⟨h, Accounts.of_sameStream (SameStream.refl t) trivial⟩
  | cons ev evs ih =>
    obtain ⟨u, hu, hrun⟩ := exec_cons_eq_some.mp hrun
    obtain rfl := Option.some.inj hu
    obtain ⟨hwin, hacc⟩ := sendAction_accounts c h hroom.1
    obtain ⟨hend, hrest⟩ := ih hwin (hroom.2 _ hu) hrun
    refine ⟨hend, (hacc.trans hrest).congr ?_⟩
    constructor
    · rintro ⟨hfit, hfits⟩
      refine ⟨hfit, ?_⟩
      intro v hv
      obtain rfl := Option.some.inj hv
      exact hfits
    · rintro ⟨hfit, hfits⟩
      exact ⟨hfit, hfits _ rfl⟩

theorem rudpTransportStart_windowInv (c : Crypto) (i : ConnectInputs) :
    WindowInv (rudpTransportStart c i) where
  seqs := rfl
  next := rfl
  window := List.Sublist.refl _

theorem rudpTransportStart_stream (c : Crypto) (i : ConnectInputs) :
    (rudpTransportStart c i).stream = bytesBE 8 i.magicDisconnect := by
  rw [RudpTransport.stream, rudpTransportStart_sendFifo]
  rfl

section Run

variable {c : Crypto} {i : ConnectInputs} {evs : List SendEvent} {t : RudpTransport}

theorem streamConserved_of_readsFit
    (hroom : Along (sendStep c) SeqRoom (rudpTransportStart c i) evs)
    (hrun : exec (sendStep c) (rudpTransportStart c i) evs = some t)
    (hfits : Along (sendStep c) ReadsFit (rudpTransportStart c i) evs) : StreamConserved i t := by
  obtain ⟨hwin, taken, kept, hmoved, hfit, -⟩ :=
    sendRun_accounts c (rudpTransportStart_windowInv c i) hroom hrun
  constructor
  · rw [hwin.seqs]
    exact List.pairwise_lt_range' 1
  · rw [hmoved.read, hmoved.stream, rudpTransportStart_stream, hfit hfits]
    rfl

theorem not_streamConserved_of_not_readsFit
    (hroom : Along (sendStep c) SeqRoom (rudpTransportStart c i) evs)
    (hrun : exec (sendStep c) (rudpTransportStart c i) evs = some t)
    (hfits : ¬ Along (sendStep c) ReadsFit (rudpTransportStart c i) evs) :
    ¬ StreamConserved i t := by
  obtain ⟨-, taken, kept, hmoved, -, hlost⟩ :=
    sendRun_accounts c (rudpTransportStart_windowInv c i) hroom hrun
  have hread : t.hist.read = taken := hmoved.read
  rintro ⟨-, heq⟩
  rw [hread, hmoved.stream, rudpTransportStart_stream] at heq
  have hlen := congrArg List.length (List.append_cancel_left heq)
  have := hlost hfits
  omega

end Run

/-- No application byte is lost, exactly as long as every chunk read from the
application fits the room left in the send FIFO. -/
theorem streamConserved_iff_readsFit (c : Crypto) (i : ConnectInputs) (evs : List SendEvent)
    (t : RudpTransport) (hroom : Along (sendStep c) SeqRoom (rudpTransportStart c i) evs)
    (hrun : exec (sendStep c) (rudpTransportStart c i) evs = some t) :
    StreamConserved i t ↔ Along (sendStep c) ReadsFit (rudpTransportStart c i) evs := by
  constructor
  · intro hcons
    by_contra hfits
    exact not_streamConserved_of_not_readsFit hroom hrun hfits hcons
  · exact streamConserved_of_readsFit hroom hrun

/-- The application writes these chunks, and the worker reads them in one go. -/
def readOnce (rs : List RecvResult) : List SendEvent :=
  [.pumpPairToSend { World.quiet with recv := fun _ => rs }]

theorem readOnce_seqRoom (rs : List RecvResult) :
    Along (sendStep .openssl) SeqRoom (rudpTransportStart .openssl .sample) (readOnce rs) := by
  refine ⟨?_, fun _ _ => trivial⟩
  unfold SeqRoom
  decide

theorem streamConserved_small_chunk :
    ∃ t, exec (sendStep .openssl) (rudpTransportStart .openssl .sample)
        (readOnce [.chunk [1, 2, 3] (by decide) (by decide)]) = some t ∧
      StreamConserved .sample t := by
  refine ⟨_, rfl, ?_⟩
  refine (streamConserved_iff_readsFit .openssl .sample
    (readOnce [.chunk [1, 2, 3] (by decide) (by decide)]) _ (readOnce_seqRoom _) rfl).mpr ?_
  refine ⟨Or.inr ⟨?_, trivial⟩, fun _ _ => trivial⟩
  decide

/-- A full-sized chunk of the application. -/
def fullChunk : RecvResult :=
  .chunk (List.replicate maxSegmentSize 0) (by rw [List.length_replicate]; decide)
    (by rw [List.length_replicate])

theorem not_chunksFit_fullChunk (n size : ℕ) (hlt : size + (n - 1) * maxSegmentSize < maxFifoSize)
    (hpos : 1 ≤ n) (hgt : maxFifoSize < size + n * maxSegmentSize) :
    ¬ ChunksFit size (List.replicate n fullChunk) := by
  induction n generalizing size with
  | zero => omega
  | succ n ih =>
    rw [List.replicate_succ]
    simp only [fullChunk, ChunksFit, List.length_replicate]
    unfold maxSegmentSize maxFifoSize at *
    rintro (hfull | ⟨hfit, hrest⟩)
    · omega
    · exact ih (size + 512) (by omega) (by omega) (by omega) hrest

/-- The FIFO starts with the eight bytes of the disconnect magic, so 1023 full chunks
leave 504 bytes of room and the next full chunk is lost. -/
theorem full_chunk_lost :
    ∃ t, exec (sendStep .openssl) (rudpTransportStart .openssl .sample)
        (readOnce (List.replicate 1024 fullChunk)) = some t ∧ ¬ StreamConserved .sample t := by
  refine ⟨_, rfl, not_streamConserved_of_not_readsFit (readOnce_seqRoom _) rfl ?_⟩
  rintro ⟨hfits, -⟩
  exact not_chunksFit_fullChunk 1024 8 (by decide) (by decide) (by decide) hfits

end SoftEtherVpn.Rudp
