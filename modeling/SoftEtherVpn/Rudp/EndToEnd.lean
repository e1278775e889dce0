import SoftEtherVpn.Rudp.SendStream
import SoftEtherVpn.Rudp.TwoParty

/-!
# From one application to the other

What a worker writes to its end of the socket pair comes from the receive FIFO, what it reads there
goes into the send FIFO. Over the network of two sessions, the bytes that one application gets
are a front part of the bytes that the other one wrote, behind what the send FIFO held
at the start, as far as the send FIFO took them.
-/

namespace SoftEtherVpn.Rudp

open Foundation

/-- The bytes that `send` accepts in `rt_pump_recv_to_pair`. -/
def pumpRecvBytes (fifo : RtFifo maxFifoSize) : List SendResult → Bytes
  | [] => []
  | r :: rs =>
    if fifo.size = 0 then []
    else
      match r with
      | .failed => []
      | .accepted n =>
        let n := min n (min fifo.size maxSegmentSize)
        if n = 0 then [] else rtFifoPeek fifo n ++ pumpRecvBytes (rtFifoAdvance fifo n) rs

/-- An interrupt gets as far as the exchange with the application. -/
def Exchanges (now : ℕ) (t : RudpTransport) : Prop :=
  t.se.status = .established ∧ ¬now ≥ wrap64 (t.se.latestRecvMyTick + timeoutMs)

instance (now : ℕ) (t : RudpTransport) : Decidable (Exchanges now t) :=
  inferInstanceAs (Decidable (_ ∧ _))

/-- What an interrupt hands to the application. -/
def handedBytes (w : World) (now : ℕ) (t : RudpTransport) : Bytes :=
  if Exchanges now t then
    let u := (drainRecvSegments t).1
    pumpRecvBytes u.se.recvFifo (w.send u.calls)
  else []

/-- The chunks that an interrupt reads from the application fit the send FIFO. -/
def InterruptFits (c : Crypto) (w : World) (now : ℕ) (t : RudpTransport) : Prop :=
  Exchanges now t →
    let u := rtPumpRecvToPair c w (drainRecvSegments t).1
    ChunksFit u.se.sendFifo.size (w.recv u.calls)

/-! ## The receive FIFO -/

/-- `handed` has left the receive FIFO, and `added` has been put into it. -/
structure Handed (t u : RudpTransport) (handed added : Bytes) : Prop where
  fifo : handed ++ u.se.recvFifo.contents = t.se.recvFifo.contents ++ added
  delivered : u.hist.delivered = t.hist.delivered ++ added

namespace Handed

variable {t u v : RudpTransport} {a b a' b' : Bytes}

theorem of_same (hfifo : u.se.recvFifo = t.se.recvFifo)
    (hdelivered : u.hist.delivered = t.hist.delivered) : Handed t u [] [] where
  fifo := by rw [hfifo, List.nil_append, List.append_nil]
  delivered := by rw [hdelivered, List.append_nil]

theorem refl (t : RudpTransport) : Handed t t [] [] := of_same rfl rfl

theorem trans (h : Handed t u a b) (h' : Handed u v a' b') : Handed t v (a ++ a') (b ++ b') where
  fifo := by rw [List.append_assoc, h'.fifo, ← List.append_assoc, h.fifo, List.append_assoc]
  delivered := by rw [h'.delivered, h.delivered, List.append_assoc]

theorem trans_same (h : Handed t u a b) (h' : Handed u v [] []) : Handed t v a b := by
  have hboth := h.trans h'
  rwa [List.append_nil, List.append_nil] at hboth

theorem foldl {α : Type*} {f : RudpTransport → α → RudpTransport}
    (hf : ∀ t a, Handed t (f t a) [] []) (xs : List α) (t : RudpTransport) :
    Handed t (xs.foldl f t) [] [] := by
  induction xs generalizing t with
  | nil => exact refl t
  | cons x xs ih => exact (hf t x).trans_same (ih (f t x))

end Handed

section Keeps

variable (c : Crypto) (w : World)

theorem rtSignalResult_handed (t : RudpTransport) (ok : Bool) :
    Handed t (rtSignalResult t ok) [] [] := by
  unfold rtSignalResult
  split <;> exact Handed.of_same rfl rfl

theorem rtSetDisconnected_handed (t : RudpTransport) (byYou : Bool) :
    Handed t (rtSetDisconnected c w t byYou) [] [] := by
  have hend : ∀ u : RudpTransport,
      Handed u (rtSignalResult (u.withSe fun se => { se with status := .disconnected }) false)
        [] [] := by
    intro u
    refine Handed.trans_same ?_ (rtSignalResult_handed _ false)
    exact Handed.of_same rfl rfl
  unfold rtSetDisconnected
  dsimp only
  split_ifs
  · exact Handed.refl t
  · refine Handed.trans_same ?_ (hend _)
    apply Handed.foldl
    intro u _
    exact Handed.of_same rfl rfl
  · exact hend t

theorem rtQueueSegment_handed (t : RudpTransport) (kind : SegmentKind) (data : Bytes) :
    Handed t (rtQueueSegment t kind data) [] [] := by
  unfold rtQueueSegment
  split_ifs
  · exact Handed.refl t
  · exact Handed.of_same rfl rfl

theorem rtSegmentSendFifo_handed (t : RudpTransport) : Handed t (rtSegmentSendFifo t) [] [] := by
  induction t using rtSegmentSendFifo.induct with
  | case1 t seqMin hfull =>
    rw [rtSegmentSendFifo, if_pos hfull]
    exact Handed.refl t
  | case2 t seqMin hopen h0 =>
    rw [rtSegmentSendFifo, if_neg hopen, dif_pos h0]
    exact Handed.refl t
  | case3 t seqMin hopen h0 size tmp ih =>
    rw [rtSegmentSendFifo, if_neg hopen, dif_neg h0]
    have hqueue : Handed t ((rtQueueSegment t .data tmp).withSe fun se =>
        { se with sendFifo := rtFifoAdvance t.se.sendFifo size }) [] [] :=
      (rtQueueSegment_handed t .data tmp).trans_same (Handed.of_same rfl rfl)
    exact hqueue.trans_same ih

theorem rtPeriodicKeepalive_handed (now : ℕ) (t : RudpTransport) :
    Handed t (rtPeriodicKeepalive w now t) [] [] := by
  unfold rtPeriodicKeepalive
  split_ifs
  · exact (rtQueueSegment_handed t _ _).trans_same (Handed.of_same rfl rfl)
  · exact Handed.of_same rfl rfl
  · exact Handed.refl t

theorem retransmitSlot_handed (now seqMin : ℕ) (t : RudpTransport) (j : ℕ) :
    Handed t (retransmitSlot c w now seqMin t j) [] [] := by
  unfold retransmitSlot
  split
  · exact Handed.refl t
  · split_ifs
    · exact Handed.refl t
    · exact Handed.refl t
    · exact Handed.of_same rfl rfl

theorem rtRetransmit_handed (now : ℕ) (t : RudpTransport) :
    Handed t (rtRetransmit c w now t) [] [] :=
  Handed.foldl (retransmitSlot_handed c w now _) _ t

theorem rtFlushAcks_handed (t : RudpTransport) : Handed t (rtFlushAcks c w t) [] [] := by
  unfold rtFlushAcks
  split_ifs
  · exact Handed.refl t
  · exact Handed.of_same rfl rfl

theorem pumpPairLoop_handed (rs : List RecvResult) (t : RudpTransport) :
    Handed t (pumpPairLoop c w t rs) [] [] := by
  induction rs generalizing t with
  | nil => exact Handed.refl t
  | cons r rs ih =>
    unfold pumpPairLoop
    split_ifs
    · exact Handed.refl t
    · cases r with
      | failed => exact rtSetDisconnected_handed c w t false
      | closed => exact rtSetDisconnected_handed c w t false
      | chunk bytes pos le =>
        refine Handed.trans_same ?_ (ih _)
        exact Handed.of_same rfl rfl

theorem rtInterruptConnecting_handed (now : ℕ) (t : RudpTransport) :
    Handed t (rtInterruptConnecting c w now t) [] [] := by
  have hend : ∀ u, Handed t u [] [] → Handed t
      (if sub64 now u.se.createdTick ≥ u.connectTimeoutMs then
        rtSetDisconnected c w { u with errorCode := .timeout } false else u) [] [] := by
    intro u hu
    split_ifs
    · refine (hu.trans_same ?_).trans_same (rtSetDisconnected_handed c w _ false)
      exact Handed.of_same rfl rfl
    · exact hu
  unfold rtInterruptConnecting
  apply hend
  split_ifs
  · exact Handed.of_same rfl rfl
  · exact Handed.refl t

theorem rtProcessRecvPayload_handed (t : RudpTransport) (seq : ℕ) (payload : Bytes) :
    Handed t (rtProcessRecvPayload t seq payload) [] [] := by
  have hack : ∀ u : RudpTransport, Handed u (rtAddAck u seq) [] [] := by
    intro u
    unfold rtAddAck
    refine Handed.of_same ?_ rfl
    rw [RudpTransport.withSe_se]
    split_ifs <;> rfl
  unfold rtProcessRecvPayload
  split_ifs
  · exact Handed.refl t
  · exact hack t
  · exact hack t
  · exact Handed.refl t
  · refine Handed.trans_same ?_ (hack _)
    exact Handed.of_same rfl rfl

theorem rtApplyAcks_handed (t : RudpTransport) (i : SegmentInfo) :
    Handed t (rtApplyAcks t i) [] [] := by
  obtain ⟨segs, y, m, heq, -⟩ := rtApplyAcks_eq t i
  rw [heq]
  exact Handed.of_same rfl rfl

theorem rtHandleUdpPacket_handed (t : RudpTransport) (srcPort : ℕ) (buf : Bytes) :
    Handed t (rtHandleUdpPacket c w t srcPort buf) [] [] := by
  have hestablish : ∀ u : RudpTransport, Handed u (rtEstablish u) [] [] := by
    intro u
    unfold rtEstablish
    split_ifs
    · refine Handed.trans_same ?_ (rtSignalResult_handed _ true)
      exact Handed.of_same rfl rfl
    · exact Handed.refl u
  have hpayload : ∀ (u : RudpTransport) (i : SegmentInfo),
      Handed u (rtApplyPayload c w u srcPort i) [] [] := by
    intro u i
    have hend : ∀ v, Handed u v [] [] → Handed u
        ((rtEstablish v).withSe fun se => { se with yourPort := srcPort }) [] [] := by
      intro v hv
      refine (hv.trans_same (hestablish v)).trans_same ?_
      exact Handed.of_same rfl rfl
    unfold rtApplyPayload
    dsimp only
    split_ifs with h0 hdisc hbig hpos hpos
    · exact Handed.refl u
    · exact rtSetDisconnected_handed c w u true
    · cases hpos
    · exact hend u (Handed.refl u)
    · exact hend _ (rtProcessRecvPayload_handed u i.seq i.payload)
    · exact hend u (Handed.refl u)
  unfold rtHandleUdpPacket
  split_ifs
  · exact Handed.refl t
  · exact Handed.refl t
  · cases (openPacket c t.se.keyRecv buf).bind parseSegment with
    | none => exact Handed.refl t
    | some i =>
      dsimp only
      unfold rtApplySegment
      split_ifs
      · exact Handed.refl t
      · exact (rtApplyAcks_handed t i).trans_same (hpayload _ i)

theorem pumpRecvLoop_handed (rs : List SendResult) (t : RudpTransport) :
    Handed t (pumpRecvLoop c w t rs) (pumpRecvBytes t.se.recvFifo rs) [] := by
  have hcap : maxFifoSize ≤ 2 ^ 31 := by decide
  induction rs generalizing t with
  | nil => exact Handed.refl t
  | cons r rs ih =>
    unfold pumpRecvLoop pumpRecvBytes
    split_ifs with hempty
    · exact Handed.refl t
    · cases r with
      | failed => exact rtSetDisconnected_handed c w t false
      | accepted n =>
        dsimp only
        obtain ⟨k, hk⟩ : ∃ k, k = min n (min t.se.recvFifo.size maxSegmentSize) := ⟨_, rfl⟩
        rw [← hk]
        split_ifs with h0
        · exact Handed.refl t
        · have hfront : Handed t (t.withSe fun se =>
              { se with recvFifo := rtFifoAdvance se.recvFifo k })
              (rtFifoPeek t.se.recvFifo k) [] := by
            refine ⟨?_, (List.append_nil _).symm⟩
            rw [RudpTransport.withSe_se, rtFifoAdvance_contents hcap, rtFifoPeek_eq,
              List.take_append_drop, List.append_nil]
          exact hfront.trans (ih _)

theorem drainLoop_handed (segs : List RtSegment) (t : RudpTransport) (cur d : ℕ) :
    ∃ added, Handed t (drainLoop t cur d segs).1 [] added := by
  have hcap : maxFifoSize ≤ 2 ^ 31 := by decide
  induction segs generalizing t cur d with
  | nil => exact ⟨[], Handed.refl t⟩
  | cons s rest ih =>
    have consume : ∀ v added, Handed t v [] added → ∃ added, Handed t (drainLoop
        (v.withSe fun se => { se with lastRecvCompleteSeq := s.seq })
        (wrap64 (cur + 1)) (d + 1) rest).1 [] added := by
      intro v added hv
      obtain ⟨more, hmore⟩ := ih (v.withSe fun se => { se with lastRecvCompleteSeq := s.seq })
        (wrap64 (cur + 1)) (d + 1)
      have hseq : Handed v (v.withSe fun se => { se with lastRecvCompleteSeq := s.seq }) [] [] :=
        Handed.of_same rfl rfl
      exact ⟨added ++ more, (hv.trans_same hseq).trans hmore⟩
    unfold drainLoop
    dsimp only
    split_ifs
    · exact ⟨[], Handed.refl t⟩
    · exact consume _ [] (rtQueueSegment_handed t .keepAlive _)
    · exact consume t [] (Handed.refl t)
    · exact consume t [] (Handed.refl t)
    · cases hwrite : rtFifoWrite t.se.recvFifo s.data with
      | none => exact ⟨[], Handed.refl t⟩
      | some fifo =>
        refine consume _ s.data ⟨?_, rfl⟩
        exact rtFifoWrite_contents hcap hwrite

theorem drainRecvSegments_handed (t : RudpTransport) :
    ∃ added, Handed t (drainRecvSegments t).1 [] added := by
  obtain ⟨added, hadded⟩ := drainLoop_handed t.se.recvSegments t t.se.lastRecvCompleteSeq 0
  exact ⟨added, hadded.trans_same (Handed.of_same rfl rfl)⟩

variable {w} {now : ℕ} {t : RudpTransport}

theorem rtInterrupt_of_exchanges (h : Exchanges now t) :
    rtInterrupt c w now t = rtInterruptEstablished c w now t := by
  obtain ⟨hstatus, hlive⟩ := h
  unfold rtInterrupt
  rw [hstatus]
  exact if_neg hlive

/-- Without the exchange, an interrupt connects, does nothing, or gives up. -/
theorem rtInterrupt_of_not_exchanges (h : ¬Exchanges now t) :
    rtInterrupt c w now t = rtInterruptConnecting c w now t ∨ rtInterrupt c w now t = t ∨
      rtInterrupt c w now t = rtSetDisconnected c w { t with errorCode := .timeout } false := by
  unfold rtInterrupt
  cases hstatus : t.se.status with
  | connectSent => exact Or.inl rfl
  | disconnected => exact Or.inr (Or.inl rfl)
  | established =>
    have hdead : now ≥ wrap64 (t.se.latestRecvMyTick + timeoutMs) := by
      by_contra hlive
      exact h ⟨hstatus, hlive⟩
    exact Or.inr (Or.inr (if_pos hdead))

/-- What an interrupt hands over, and what it puts into the receive FIFO. -/
theorem rtInterrupt_handed (w : World) (now : ℕ) (t : RudpTransport) :
    ∃ added, Handed t (rtInterrupt c w now t) (handedBytes w now t) added := by
  by_cases hex : Exchanges now t
  · rw [rtInterrupt_of_exchanges c hex, handedBytes, if_pos hex]
    unfold rtInterruptEstablished
    dsimp only
    obtain ⟨u, hu⟩ : ∃ u, u = (drainRecvSegments t).1 := ⟨_, rfl⟩
    obtain ⟨added, hadded⟩ := drainRecvSegments_handed t
    rw [← hu] at hadded ⊢
    have hpump : Handed u (rtPumpRecvToPair c w u)
        (pumpRecvBytes u.se.recvFifo (w.send u.calls)) [] := by
      have hpump := pumpRecvLoop_handed c w (w.send u.calls) { u with calls := u.calls + 1 }
      exact ⟨hpump.fifo, hpump.delivered⟩
    have hread : ∀ v, Handed v (rtPumpPairToSend c w v) [] [] := by
      intro v
      have hpump := pumpPairLoop_handed c w (w.recv v.calls) { v with calls := v.calls + 1 }
      exact ⟨hpump.fifo, hpump.delivered⟩
    refine ⟨added, ?_⟩
    have hboth := hadded.trans hpump
    rw [List.nil_append, List.append_nil] at hboth
    refine hboth.trans_same ((hread _).trans_same ?_)
    refine (rtSegmentSendFifo_handed _).trans_same ?_
    refine (rtPeriodicKeepalive_handed w now _).trans_same ?_
    exact (rtRetransmit_handed c w now _).trans_same (rtFlushAcks_handed c w _)
  · rw [handedBytes, if_neg hex]
    refine ⟨[], ?_⟩
    rcases rtInterrupt_of_not_exchanges c hex with heq | heq | heq
    · rw [heq]
      exact rtInterruptConnecting_handed c w now t
    · rw [heq]
      exact Handed.refl t
    · rw [heq]
      refine Handed.trans_same ?_ (rtSetDisconnected_handed c w _ false)
      exact Handed.of_same rfl rfl

end Keeps

/-! ## The send FIFO -/

/-- Some bytes were read from the application, and those of them that were kept, in their order,
went to the end of the stream. -/
def Carries (t u : RudpTransport) (fits : Prop) : Prop :=
  ∃ taken kept, Moved t u taken kept ∧ kept.Sublist taken ∧ (kept = taken ↔ fits)

namespace Carries

variable {t u v : RudpTransport} {p q : Prop}

theorem of_sameStream (h : SameStream t u) (hp : p) : Carries t u p :=
  ⟨[], [], h.moved, List.Sublist.refl _, iff_of_true rfl hp⟩

theorem congr (h : Carries t u p) (hpq : p ↔ q) : Carries t u q := by
  rwa [propext hpq] at h

/-- Nothing is missing from two stretches exactly when nothing is missing from either. -/
theorem append_eq_append {a a' b b' : Bytes} (ha : a.Sublist a') (hb : b.Sublist b') :
    a ++ b = a' ++ b' ↔ a = a' ∧ b = b' := by
  constructor
  · intro h
    have hlen := congrArg List.length h
    rw [List.length_append, List.length_append] at hlen
    have hle := ha.length_le
    have hle' := hb.length_le
    exact ⟨ha.eq_of_length (by omega), hb.eq_of_length (by omega)⟩
  · rintro ⟨rfl, rfl⟩
    rfl

theorem trans (h : Carries t u p) (h' : Carries u v q) : Carries t v (p ∧ q) := by
  obtain ⟨taken, kept, hm, hsub, hp⟩ := h
  obtain ⟨taken', kept', hm', hsub', hq⟩ := h'
  exact ⟨_, _, hm.trans hm', hsub.append hsub',
    (append_eq_append hsub hsub').trans (and_congr hp hq)⟩

theorem trans_same (h : Carries t u p) (h' : SameStream u v) : Carries t v p :=
  (h.trans (of_sameStream h' trivial)).congr (iff_of_eq (and_true p))

theorem same_trans (h : SameStream t u) (h' : Carries u v p) : Carries t v p :=
  ((of_sameStream h trivial).trans h').congr (iff_of_eq (true_and p))

end Carries

theorem readChunk_moved (t : RudpTransport) (bytes : Bytes) :
    ∃ kept, Moved t
      { t with
        se := { t.se with sendFifo := (rtFifoWrite t.se.sendFifo bytes).getD t.se.sendFifo }
        hist := { t.hist with read := t.hist.read ++ bytes } } bytes kept ∧
      kept.Sublist bytes := by
  cases hwrite : rtFifoWrite t.se.sendFifo bytes with
  | none => exact ⟨[], ⟨rfl, (List.append_nil _).symm⟩, List.nil_sublist _⟩
  | some fifo =>
    refine ⟨bytes, ⟨rfl, ?_⟩, List.Sublist.refl _⟩
    simp only [RudpTransport.stream, Option.getD_some]
    rw [rtFifoWrite_contents (by decide) hwrite, List.append_assoc]
    rfl

theorem pumpPairLoop_moved (c : Crypto) (w : World) (rs : List RecvResult) (t : RudpTransport) :
    ∃ taken kept, Moved t (pumpPairLoop c w t rs) taken kept ∧ kept.Sublist taken := by
  induction rs generalizing t with
  | nil => exact ⟨[], [], (SameStream.refl t).moved, List.Sublist.refl _⟩
  | cons r rs ih =>
    have hdisc : SameStream t (rtSetDisconnected c w t false) :=
      (rtSetDisconnected_sameViews c w t false).shrinks.sameStream
    unfold pumpPairLoop
    split_ifs
    · exact ⟨[], [], (SameStream.refl t).moved, List.Sublist.refl _⟩
    · cases r with
      | closed => exact ⟨[], [], hdisc.moved, List.Sublist.refl _⟩
      | failed => exact ⟨[], [], hdisc.moved, List.Sublist.refl _⟩
      | chunk bytes pos le =>
        obtain ⟨kept, hfront, hsub⟩ := readChunk_moved t bytes
        obtain ⟨taken', kept', hrest, hsub'⟩ := ih
          { t with
            se := { t.se with sendFifo := (rtFifoWrite t.se.sendFifo bytes).getD t.se.sendFifo }
            hist := { t.hist with read := t.hist.read ++ bytes } }
        exact ⟨bytes ++ taken', kept ++ kept', hfront.trans hrest, hsub.append hsub'⟩

theorem Moved.unique {t u : RudpTransport} {a b a' b' : Bytes} (h : Moved t u a b)
    (h' : Moved t u a' b') : a = a' ∧ b = b' :=
  ⟨List.append_cancel_left (h.read.symm.trans h'.read),
    List.append_cancel_left (h.stream.symm.trans h'.stream)⟩

theorem rtPumpPairToSend_carries (c : Crypto) (w : World) (t : RudpTransport) :
    Carries t (rtPumpPairToSend c w t) (ChunksFit t.se.sendFifo.size (w.recv t.calls)) := by
  obtain ⟨taken, kept, hm, hfit, hlost⟩ := rtPumpPairToSend_accounts c w t
  obtain ⟨taken', kept', hm', hsub⟩ :=
    pumpPairLoop_moved c w (w.recv t.calls) { t with calls := t.calls + 1 }
  obtain ⟨rfl, rfl⟩ := hm.unique (⟨hm'.read, hm'.stream⟩ : Moved t _ taken' kept')
  refine ⟨taken, kept, hm, hsub, ?_, hfit⟩
  intro heq
  by_contra hn
  have := hlost hn
  rw [heq] at this
  exact absurd this (lt_irrefl _)

theorem WellBehaved.length_lt {t : RudpTransport} (h : WellBehaved t) (hwin : WindowInv t) :
    t.hist.queued.length < 0xffffffff00000000 := by
  by_contra hge
  have hmem : 0xffffffff00000000 ∈ t.hist.queued.map Queued.seq := by
    rw [hwin.seqs, List.mem_range'_1]
    omega
  obtain ⟨e, he, hseq⟩ := List.mem_map.mp hmem
  have := (h e he).1
  omega

theorem rtInterruptEstablished_carries (c : Crypto) (w : World) (now : ℕ) {t : RudpTransport}
    (hwin : WindowInv t) (hwell : WellBehaved (rtInterruptEstablished c w now t)) :
    let u := rtPumpRecvToPair c w (drainRecvSegments t).1
    Carries t (rtInterruptEstablished c w now t)
      (ChunksFit u.se.sendFifo.size (w.recv u.calls)) := by
  unfold rtInterruptEstablished at hwell ⊢
  dsimp only at hwell ⊢
  obtain ⟨u1, hu1⟩ : ∃ u1, u1 = (drainRecvSegments t).1 := ⟨_, rfl⟩
  have hq1 := drainRecvSegments_queues t
  have hs1 := drainRecvSegments_sameStream t
  rw [← hu1] at hwell hq1 hs1 ⊢
  obtain ⟨u2, hu2⟩ : ∃ u2, u2 = rtPumpRecvToPair c w u1 := ⟨_, rfl⟩
  have hv2 := (rtPumpRecvToPair_sameViews c w u1).shrinks
  rw [← hu2] at hwell hv2 ⊢
  obtain ⟨u3, hu3⟩ : ∃ u3, u3 = rtPumpPairToSend c w u2 := ⟨_, rfl⟩
  have hv3 := rtPumpPairToSend_sameSegments c w u2
  have hread := rtPumpPairToSend_carries c w u2
  rw [← hu3] at hwell hv3 hread ⊢
  have hrest : Extends (rtSegmentSendFifo u3)
      (rtFlushAcks c w (rtRetransmit c w now (rtPeriodicKeepalive w now (rtSegmentSendFifo u3)))) :=
    (rtPeriodicKeepalive_queues w now _).extends.trans
      ((rtRetransmit_sameViews c w now _).sameSegments.extends.trans
        (rtFlushAcks_sameViews c w _).sameSegments.extends)
  have hw4 := hwell.of_extends hrest
  have hw3 := hw4.of_extends (rtSegmentSendFifo_queues u3).extends
  have hw1 := (hw3.of_extends hv3.extends).of_extends ⟨hv2.key, hv2.queued ▸ List.prefix_refl _⟩
  have hwin1 := hwin.queues hq1 hw1.seq_lt
  have hwin3 := (hwin1.acked hv2.next hv2.queued hv2.window).sameSend hv3.send
  have hsegment := (rtSegmentSendFifo_stream u3 hwin3 (by
    have := hw3.length_lt hwin3
    have := u3.se.sendFifo.size_le
    have := hwin3.next
    unfold maxFifoSize at *
    omega)).1
  refine Carries.same_trans (hs1.trans hv2.sameStream) ?_
  refine hread.trans_same (hsegment.trans ?_)
  refine (rtPeriodicKeepalive_sameStream w now _).trans ?_
  exact (rtRetransmit_sameViews c w now _).shrinks.sameStream.trans
    (rtFlushAcks_sameViews c w _).shrinks.sameStream

/-- What an interrupt reads goes to the end of the stream, all of it exactly when it fits. -/
theorem rtInterrupt_carries (c : Crypto) (w : World) (now : ℕ) {t : RudpTransport}
    (hwin : WindowInv t) (hwell : WellBehaved (rtInterrupt c w now t)) :
    Carries t (rtInterrupt c w now t) (InterruptFits c w now t) := by
  by_cases hex : Exchanges now t
  · rw [rtInterrupt_of_exchanges c hex] at hwell ⊢
    refine (rtInterruptEstablished_carries c w now hwin hwell).congr ?_
    exact ⟨fun h _ => h, fun h => h hex⟩
  · have hfits : InterruptFits c w now t := fun h => absurd h hex
    rcases rtInterrupt_of_not_exchanges c hex with heq | heq | heq
    · rw [heq]
      exact Carries.of_sameStream (rtInterruptConnecting_sameViews c w now t).shrinks.sameStream
        hfits
    · rw [heq]
      exact Carries.of_sameStream (SameStream.refl t) hfits
    · rw [heq]
      have hset : SameStream t { t with errorCode := .timeout } := ⟨rfl, rfl⟩
      exact Carries.of_sameStream
        (hset.trans (rtSetDisconnected_sameViews c w _ false).shrinks.sameStream) hfits

/-! ## Both ends -/

/-- The two sessions, and what their applications have got so far. -/
structure Ends where
  peers : Peers
  gotA : Bytes
  gotB : Bytes

/-- What a step hands to the application of each side. -/
def handedA (s : Peers) : PeerEvent → Bytes
  | .interruptA w now => handedBytes w now s.a
  | _ => []

def handedB (s : Peers) : PeerEvent → Bytes
  | .interruptB w now => handedBytes w now s.b
  | _ => []

def endsStep (c : Crypto) (s : Ends) (ev : PeerEvent) : Option Ends :=
  (peerStep c s.peers ev).map fun peers =>
    { peers := peers
      gotA := s.gotA ++ handedA s.peers ev
      gotB := s.gotB ++ handedB s.peers ev }

/-- What this step reads from the application of one side fits its send FIFO. -/
def FitsA (c : Crypto) (s : Ends) : PeerEvent → Prop
  | .interruptA w now => InterruptFits c w now s.peers.a
  | _ => True

def FitsB (c : Crypto) (s : Ends) : PeerEvent → Prop
  | .interruptB w now => InterruptFits c w now s.peers.b
  | _ => True

/-- From the application of `x` to that of `y`, which has got the bytes `got`. Besides `front`,
the stream carries what `x` has read, as far as the send FIFO took it. It is the bytes handed over,
those in the receive FIFO of `y`, those of the segments that `y` has not consumed, and those in
the send FIFO of `x`, in this order; each of the segments is in the window of `x` or in the
reorder buffer of `y`. -/
structure Conserved (front : Bytes) (x y : RudpTransport) (got : Bytes) (fits : Prop) : Prop where
  bytes : ∃ kept, kept.Sublist x.hist.read ∧ (kept = x.hist.read ↔ fits) ∧
    front ++ kept = got ++ y.se.recvFifo.contents ++
      (x.hist.queued.drop y.se.lastRecvCompleteSeq).flatMap Queued.appBytes ++
        x.se.sendFifo.contents
  segments : ∀ e ∈ x.hist.queued.drop y.se.lastRecvCompleteSeq,
    e.slot ∈ x.window ∨ ∃ s ∈ y.se.recvSegments, (s.seq, s.data) = e.slot

/-- Nothing is in the FIFOs of a session before its first packet, except for the first bytes to
send. -/
structure FreshEnd (x : RudpTransport) : Prop extends FreshPeer x where
  read : x.hist.read = []
  recvFifo : x.se.recvFifo.contents = []

/-- What holds of one side, whose application has got the bytes `got`. -/
structure EndInv (front : Bytes) (x : RudpTransport) (got : Bytes) : Prop where
  carried : ∃ kept, x.stream = front ++ kept ∧ kept.Sublist x.hist.read
  handed : got ++ x.se.recvFifo.contents = x.hist.delivered

/-- Everything read from the application is in the stream. -/
def ReadKept (front : Bytes) (x : RudpTransport) : Prop := x.stream = front ++ x.hist.read

theorem FreshEnd.endInv {x : RudpTransport} (h : FreshEnd x) :
    EndInv x.se.sendFifo.contents x [] ∧ ReadKept x.se.sendFifo.contents x := by
  have hstream : x.stream = x.se.sendFifo.contents := by
    rw [RudpTransport.stream, History.appStream, h.queued]
    rfl
  refine ⟨⟨⟨[], ?_, List.nil_sublist _⟩, ?_⟩, ?_⟩
  · rw [hstream, List.append_nil]
  · rw [h.recvFifo, h.delivered]
    rfl
  · rw [ReadKept, hstream, h.read, List.append_nil]

namespace EndInv

variable {c : Crypto} {front : Bytes} {x u : RudpTransport} {got handed added : Bytes} {fits : Prop}

theorem step (h : EndInv front x got) (hcarries : Carries x u fits)
    (hhanded : Handed x u handed added) :
    EndInv front u (got ++ handed) ∧ (ReadKept front u ↔ ReadKept front x ∧ fits) := by
  obtain ⟨kept, hstream, hsub⟩ := h.carried
  obtain ⟨taken, kept', hm, hsub', hfits⟩ := hcarries
  have hstream' : u.stream = front ++ (kept ++ kept') := by
    rw [hm.stream, hstream, List.append_assoc]
  refine ⟨⟨⟨kept ++ kept', hstream', ?_⟩, ?_⟩, ?_⟩
  · rw [hm.read]
    exact hsub.append hsub'
  · rw [List.append_assoc, hhanded.fifo, ← List.append_assoc, h.handed, hhanded.delivered]
  · unfold ReadKept
    rw [hstream', hstream, hm.read, List.append_cancel_left_eq, List.append_cancel_left_eq,
      Carries.append_eq_append hsub hsub', hfits]

theorem idle (h : EndInv front x got) : EndInv front x (got ++ []) := by
  rwa [List.append_nil]

theorem interrupt (h : EndInv front x got) (w : World) (now : ℕ) (hwin : WindowInv x)
    (hwell : WellBehaved (rtInterrupt c w now x)) :
    EndInv front (rtInterrupt c w now x) (got ++ handedBytes w now x) ∧
      (ReadKept front (rtInterrupt c w now x) ↔ ReadKept front x ∧ InterruptFits c w now x) := by
  obtain ⟨added, hadded⟩ := rtInterrupt_handed c w now x
  exact h.step (rtInterrupt_carries c w now hwin hwell) hadded

theorem handleUdpPacket (h : EndInv front x got) (w : World) (srcPort : ℕ) (d : Bytes) :
    EndInv front (rtHandleUdpPacket c w x srcPort d) (got ++ []) ∧
      (ReadKept front (rtHandleUdpPacket c w x srcPort d) ↔ ReadKept front x ∧ True) :=
  h.step (Carries.of_sameStream (rtHandleUdpPacket_shrinks c w x srcPort d).sameStream trivial)
    (rtHandleUdpPacket_handed c w x srcPort d)

end EndInv

/-- What holds of both sides and the network between them. -/
structure EndsInv (c : Crypto) (frontA frontB : Bytes) (s : Ends) : Prop where
  pair : PairInv c s.peers.a s.peers.b
  a : EndInv frontA s.peers.a s.gotA
  b : EndInv frontB s.peers.b s.gotB

def Ends.WellBehaved (s : Ends) : Prop :=
  Rudp.WellBehaved s.peers.a ∧ Rudp.WellBehaved s.peers.b

theorem endsStep_wellBehaved {c : Crypto} (s : Ends) (ev : PeerEvent) (t : Ends)
    (hstep : endsStep c s ev = some t) (h : t.WellBehaved) : s.WellBehaved := by
  obtain ⟨peers, hpeers, rfl⟩ := Option.map_eq_some_iff.mp hstep
  obtain ⟨ha, hb⟩ := h
  cases ev with
  | interruptA w now =>
    obtain rfl := Option.some.inj hpeers
    exact ⟨ha.of_extends (rtInterrupt_extends c w now s.peers.a), hb⟩
  | interruptB w now =>
    obtain rfl := Option.some.inj hpeers
    exact ⟨ha, hb.of_extends (rtInterrupt_extends c w now s.peers.b)⟩
  | deliverA w srcPort d =>
    simp only [peerStep] at hpeers
    split_ifs at hpeers
    obtain rfl := Option.some.inj hpeers
    exact ⟨ha.of_extends (rtHandleUdpPacket_extends c w s.peers.a srcPort d), hb⟩
  | deliverB w srcPort d =>
    simp only [peerStep] at hpeers
    split_ifs at hpeers
    obtain rfl := Option.some.inj hpeers
    exact ⟨ha, hb.of_extends (rtHandleUdpPacket_extends c w s.peers.b srcPort d)⟩

/-- One step keeps the invariant, and what it reads is kept exactly when it fits. -/
theorem endsStep_inv {c : Crypto} {frontA frontB : Bytes} (s : Ends) (ev : PeerEvent) (t : Ends)
    (h : EndsInv c frontA frontB s) (hwell : t.WellBehaved) (hstep : endsStep c s ev = some t) :
    EndsInv c frontA frontB t ∧
      (ReadKept frontA t.peers.a ↔ ReadKept frontA s.peers.a ∧ FitsA c s ev) ∧
      (ReadKept frontB t.peers.b ↔ ReadKept frontB s.peers.b ∧ FitsB c s ev) := by
  obtain ⟨peers, hpeers, rfl⟩ := Option.map_eq_some_iff.mp hstep
  have hpair : PairInv c peers.a peers.b :=
    peerStep_inv (fun _ _ => h.pair) hpeers hwell.1 hwell.2
  cases ev with
  | interruptA w now =>
    obtain rfl := Option.some.inj hpeers
    obtain ⟨ha, hkept⟩ := h.a.interrupt w now h.pair.left.window hwell.1
    exact ⟨⟨hpair, ha, h.b.idle⟩, hkept,
      (iff_of_eq (and_true _)).symm⟩
  | interruptB w now =>
    obtain rfl := Option.some.inj hpeers
    obtain ⟨hb, hkept⟩ := h.b.interrupt w now h.pair.right.window hwell.2
    exact ⟨⟨hpair, h.a.idle, hb⟩,
      (iff_of_eq (and_true _)).symm, hkept⟩
  | deliverA w srcPort d =>
    simp only [peerStep] at hpeers
    split_ifs at hpeers
    obtain rfl := Option.some.inj hpeers
    obtain ⟨ha, hkept⟩ := h.a.handleUdpPacket (c := c) w srcPort d
    exact ⟨⟨hpair, ha, h.b.idle⟩, hkept,
      (iff_of_eq (and_true _)).symm⟩
  | deliverB w srcPort d =>
    simp only [peerStep] at hpeers
    split_ifs at hpeers
    obtain rfl := Option.some.inj hpeers
    obtain ⟨hb, hkept⟩ := h.b.handleUdpPacket (c := c) w srcPort d
    exact ⟨⟨hpair, h.a.idle, hb⟩,
      (iff_of_eq (and_true _)).symm, hkept⟩

/-- The delivered bytes are those of the consumed segments. -/
theorem LinkInv.conserved {front got : Bytes} {x y : RudpTransport} {fits : Prop}
    (h : LinkInv x y) (hwin : WindowInv x)
    (hcarried : ∃ kept, x.stream = front ++ kept ∧ kept.Sublist x.hist.read)
    (hhanded : got ++ y.se.recvFifo.contents = y.hist.delivered)
    (hkept : ReadKept front x ↔ fits) : Conserved front x y got fits where
  bytes := by
    obtain ⟨kept, hstream, hsub⟩ := hcarried
    refine ⟨kept, hsub, ?_, ?_⟩
    · rw [← hkept, ReadKept, hstream, List.append_cancel_left_eq]
    · rw [← hstream, hhanded, h.delivered, ← List.flatMap_append, List.take_append_drop]
      rfl
  segments e he := by
    rcases h.kept e (List.mem_of_mem_drop he) with hw | hle | hs
    · exact Or.inl hw
    · exfalso
      have hseqs : (x.hist.queued.drop y.se.lastRecvCompleteSeq).map Queued.seq =
          List.range' (1 + y.se.lastRecvCompleteSeq)
            (x.hist.queued.length - y.se.lastRecvCompleteSeq) := by
        rw [List.map_drop, hwin.seqs, List.drop_range', Nat.mul_one]
      have hmem : e.seq ∈ (x.hist.queued.drop y.se.lastRecvCompleteSeq).map Queued.seq :=
        List.mem_map_of_mem he
      rw [hseqs, List.mem_range'_1] at hmem
      omega
    · exact Or.inr hs

/-- The bytes handed over are only recorded: every run of the two sessions is a run here. -/
theorem exec_endsStep {c : Crypto} {s : Ends} {p : Peers} {evs : List PeerEvent}
    (hrun : exec (peerStep c) s.peers evs = some p) :
    ∃ t, exec (endsStep c) s evs = some t ∧ t.peers = p := by
  induction evs generalizing s with
  | nil =>
    cases hrun
    exact ⟨s, rfl, rfl⟩
  | cons ev evs ih =>
    obtain ⟨q, hq, hrun⟩ := exec_cons_eq_some.mp hrun
    obtain ⟨t, ht, hp⟩ := ih (s := ⟨q, s.gotA ++ handedA s.peers ev, s.gotB ++ handedB s.peers ev⟩)
      hrun
    refine ⟨t, exec_cons_eq_some.mpr ⟨_, ?_, ht⟩, hp⟩
    rw [endsStep, hq]
    rfl

end SoftEtherVpn.Rudp
