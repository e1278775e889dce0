import SoftEtherVpn.Rudp.Worker

/-!
# What each worker function leaves alone

The session splits into the keys, which never change; the receive side, which only
`rt_process_recv_payload` and the drain of `rt_interrupt` change; the send window, which
only queueing and acknowledgement processing change; and the bytes that come from the
application. Every other function of the worker preserves these views.
-/

namespace SoftEtherVpn.Rudp

open Foundation

namespace RudpTransport

/-- The constants of a session. -/
def keyView (t : RudpTransport) : Bytes × Bytes × Bytes × Bytes × Bytes × ℕ :=
  (t.se.keyInit, t.se.keySend, t.se.keyRecv, t.se.magicReq, t.se.magicResp,
    t.se.magicDisconnect)

/-- Reorder buffer, last consumed number, and the bytes put into the receive FIFO so far. -/
def recvView (t : RudpTransport) : List RtSegment × ℕ × Bytes :=
  (t.se.recvSegments, t.se.lastRecvCompleteSeq, t.hist.delivered)

/-- The send window without its timers. -/
def window (t : RudpTransport) : List (ℕ × Bytes) :=
  t.se.sendSegments.map fun s => (s.seq, s.data)

/-- Send window, next number, and all segments queued so far. -/
def sendView (t : RudpTransport) : List (ℕ × Bytes) × ℕ × List Queued :=
  (t.window, t.se.nextSendSeq, t.hist.queued)

/-- Send FIFO and the bytes read from the application so far. -/
def appView (t : RudpTransport) : RtFifo maxFifoSize × Bytes := (t.se.sendFifo, t.hist.read)

end RudpTransport

/-- All four views agree. -/
structure SameViews (t u : RudpTransport) : Prop where
  key : u.keyView = t.keyView
  recv : u.recvView = t.recvView
  send : u.sendView = t.sendView
  app : u.appView = t.appView

namespace SameViews

variable {t u v : RudpTransport}

theorem refl (t : RudpTransport) : SameViews t t := ⟨rfl, rfl, rfl, rfl⟩

theorem trans (h : SameViews t u) (h' : SameViews u v) : SameViews t v :=
  ⟨h'.key.trans h.key, h'.recv.trans h.recv, h'.send.trans h.send, h'.app.trans h.app⟩

/-- A loop whose rounds keep the views keeps them. -/
theorem foldl {α : Type*} {f : RudpTransport → α → RudpTransport}
    (hf : ∀ t a, SameViews t (f t a)) (xs : List α) (t : RudpTransport) :
    SameViews t (xs.foldl f t) := by
  induction xs generalizing t with
  | nil => exact refl t
  | cons a xs ih => exact (hf t a).trans (ih (f t a))

end SameViews

variable (c : Crypto) (w : World)

theorem rtSendUdp_sameViews (t : RudpTransport) (data : Bytes) :
    SameViews t (rtSendUdp w t data) := ⟨rfl, rfl, rfl, rfl⟩

theorem rtSendSegmentNow_sameViews (t : RudpTransport) (seq : ℕ) (data : Bytes) :
    SameViews t (rtSendSegmentNow c w t seq data) := ⟨rfl, rfl, rfl, rfl⟩

theorem rtAddAck_sameViews (t : RudpTransport) (q : ℕ) : SameViews t (rtAddAck t q) := by
  unfold rtAddAck RudpTransport.withSe
  dsimp only
  split_ifs
  · exact SameViews.refl t
  · exact ⟨rfl, rfl, rfl, rfl⟩
  · exact SameViews.refl t

theorem rtSignalResult_sameViews (t : RudpTransport) (ok : Bool) :
    SameViews t (rtSignalResult t ok) := by
  unfold rtSignalResult
  split
  · exact ⟨rfl, rfl, rfl, rfl⟩
  · exact SameViews.refl t

theorem withSe_status_sameViews (t : RudpTransport) (s : RtStatus) :
    SameViews t (t.withSe fun se => { se with status := s }) := ⟨rfl, rfl, rfl, rfl⟩

theorem rtEstablish_sameViews (t : RudpTransport) : SameViews t (rtEstablish t) := by
  unfold rtEstablish
  split_ifs
  · exact (withSe_status_sameViews t _).trans (rtSignalResult_sameViews _ _)
  · exact SameViews.refl t

theorem rtSetDisconnected_sameViews (t : RudpTransport) (byYou : Bool) :
    SameViews t (rtSetDisconnected c w t byYou) := by
  unfold rtSetDisconnected
  split_ifs with h1 h2
  · exact SameViews.refl t
  · refine SameViews.trans ?_ (rtSignalResult_sameViews _ _)
    refine SameViews.trans ?_ (withSe_status_sameViews _ _)
    exact SameViews.foldl (fun t _ => rtSendSegmentNow_sameViews c w t _ _) _ t
  · exact (withSe_status_sameViews t _).trans (rtSignalResult_sameViews _ _)

theorem pumpRecvLoop_sameViews (t : RudpTransport) (rs : List SendResult) :
    SameViews t (pumpRecvLoop c w t rs) := by
  induction rs generalizing t with
  | nil => exact SameViews.refl t
  | cons r rs ih =>
    unfold pumpRecvLoop
    split_ifs
    · exact SameViews.refl t
    · cases r with
      | failed => exact rtSetDisconnected_sameViews c w t false
      | accepted n =>
        dsimp only
        split_ifs
        · exact SameViews.refl t
        · refine SameViews.trans ?_ (ih _)
          exact ⟨rfl, rfl, rfl, rfl⟩

theorem rtPumpRecvToPair_sameViews (t : RudpTransport) :
    SameViews t (rtPumpRecvToPair c w t) := by
  refine SameViews.trans ?_ (pumpRecvLoop_sameViews c w _ _)
  exact ⟨rfl, rfl, rfl, rfl⟩

theorem map_set_of_getElem? {α β : Type*} (f : α → β) {xs : List α} {j : ℕ} {x y : α}
    (hx : xs[j]? = some x) (hf : f y = f x) : (xs.set j y).map f = xs.map f := by
  rw [List.map_set, hf]
  apply List.ext_getElem?
  intro k
  by_cases hk : j = k
  · subst hk
    rw [List.getElem?_set_self', List.getElem?_map, hx]
    rfl
  · rw [List.getElem?_set_ne hk]

theorem retransmitSlot_sameViews (now seqMin : ℕ) (t : RudpTransport) (j : ℕ) :
    SameViews t (retransmitSlot c w now seqMin t j) := by
  unfold retransmitSlot
  cases hj : t.se.sendSegments[j]? with
  | none => exact SameViews.refl t
  | some s =>
    dsimp only
    split_ifs
    · exact SameViews.refl t
    · exact SameViews.refl t
    · refine SameViews.trans ?_ (rtSendSegmentNow_sameViews c w _ _ _)
      refine ⟨rfl, rfl, ?_, rfl⟩
      exact congrArg (fun l => (l, t.se.nextSendSeq, t.hist.queued))
        (map_set_of_getElem? (fun s : RtSegment => (s.seq, s.data)) hj rfl)

theorem rtRetransmit_sameViews (now : ℕ) (t : RudpTransport) :
    SameViews t (rtRetransmit c w now t) :=
  SameViews.foldl (retransmitSlot_sameViews c w now _) _ t

theorem rtFlushAcks_sameViews (t : RudpTransport) : SameViews t (rtFlushAcks c w t) := by
  unfold rtFlushAcks
  split_ifs
  · exact SameViews.refl t
  · exact rtSendSegmentNow_sameViews c w t _ _

theorem rtInterruptConnecting_sameViews (now : ℕ) (t : RudpTransport) :
    SameViews t (rtInterruptConnecting c w now t) := by
  unfold rtInterruptConnecting
  dsimp only
  split_ifs
  · refine SameViews.trans ?_ (rtSetDisconnected_sameViews c w _ false)
    exact ⟨rfl, rfl, rfl, rfl⟩
  · exact ⟨rfl, rfl, rfl, rfl⟩
  · refine SameViews.trans ?_ (rtSetDisconnected_sameViews c w _ false)
    exact ⟨rfl, rfl, rfl, rfl⟩
  · exact SameViews.refl t

/-! ## Reading from the application changes only its bytes -/

/-- Keys, receive side and send window agree. -/
structure SameSegments (t u : RudpTransport) : Prop where
  key : u.keyView = t.keyView
  recv : u.recvView = t.recvView
  send : u.sendView = t.sendView

theorem SameSegments.refl (t : RudpTransport) : SameSegments t t := ⟨rfl, rfl, rfl⟩

theorem SameSegments.trans {t u v : RudpTransport} (h : SameSegments t u)
    (h' : SameSegments u v) : SameSegments t v :=
  ⟨h'.key.trans h.key, h'.recv.trans h.recv, h'.send.trans h.send⟩

theorem SameViews.sameSegments {t u : RudpTransport} (h : SameViews t u) : SameSegments t u :=
  ⟨h.key, h.recv, h.send⟩

theorem pumpPairLoop_sameSegments (t : RudpTransport) (rs : List RecvResult) :
    SameSegments t (pumpPairLoop c w t rs) := by
  induction rs generalizing t with
  | nil => exact SameSegments.refl t
  | cons r rs ih =>
    unfold pumpPairLoop
    split_ifs
    · exact SameSegments.refl t
    · cases r with
      | failed => exact (rtSetDisconnected_sameViews c w t false).sameSegments
      | closed => exact (rtSetDisconnected_sameViews c w t false).sameSegments
      | chunk bytes pos le =>
        refine SameSegments.trans ?_ (ih _)
        exact ⟨rfl, rfl, rfl⟩

theorem rtPumpPairToSend_sameSegments (t : RudpTransport) :
    SameSegments t (rtPumpPairToSend c w t) := by
  refine SameSegments.trans ?_ (pumpPairLoop_sameSegments c w _ _)
  exact ⟨rfl, rfl, rfl⟩

/-! ## Queueing changes only the send side -/

/-- Keys and receive side agree. -/
structure SameRecv (t u : RudpTransport) : Prop where
  key : u.keyView = t.keyView
  recv : u.recvView = t.recvView

theorem SameRecv.refl (t : RudpTransport) : SameRecv t t := ⟨rfl, rfl⟩

theorem SameRecv.trans {t u v : RudpTransport} (h : SameRecv t u) (h' : SameRecv u v) :
    SameRecv t v := ⟨h'.key.trans h.key, h'.recv.trans h.recv⟩

theorem SameSegments.sameRecv {t u : RudpTransport} (h : SameSegments t u) : SameRecv t u :=
  ⟨h.key, h.recv⟩

theorem SameViews.sameRecv {t u : RudpTransport} (h : SameViews t u) : SameRecv t u :=
  h.sameSegments.sameRecv

theorem rtQueueSegment_sameRecv (t : RudpTransport) (k : SegmentKind) (data : Bytes) :
    SameRecv t (rtQueueSegment t k data) := by
  unfold rtQueueSegment
  split_ifs
  · exact SameRecv.refl t
  · exact ⟨rfl, rfl⟩

theorem rtSegmentSendFifo_sameRecv (t : RudpTransport) : SameRecv t (rtSegmentSendFifo t) := by
  induction t using rtSegmentSendFifo.induct with
  | case1 t seqMin h =>
    rw [rtSegmentSendFifo, if_pos h]
    exact SameRecv.refl t
  | case2 t seqMin h h0 =>
    rw [rtSegmentSendFifo, if_neg h, dif_pos h0]
    exact SameRecv.refl t
  | case3 t seqMin h h0 size tmp ih =>
    rw [rtSegmentSendFifo, if_neg h, dif_neg h0]
    refine SameRecv.trans ?_ ih
    exact (rtQueueSegment_sameRecv t _ _).trans ⟨rfl, rfl⟩

theorem rtPeriodicKeepalive_sameRecv (now : ℕ) (t : RudpTransport) :
    SameRecv t (rtPeriodicKeepalive w now t) := by
  unfold rtPeriodicKeepalive
  split_ifs
  · exact (rtQueueSegment_sameRecv t _ _).trans ⟨rfl, rfl⟩
  · exact ⟨rfl, rfl⟩
  · exact SameRecv.refl t

/-- In an established interrupt only the drain touches the receive side. -/
theorem rtInterruptEstablished_sameRecv (now : ℕ) (t : RudpTransport) :
    SameRecv (drainRecvSegments t).1 (rtInterruptEstablished c w now t) := by
  unfold rtInterruptEstablished
  refine (rtPumpRecvToPair_sameViews c w _).sameRecv.trans ?_
  refine (rtPumpPairToSend_sameSegments c w _).sameRecv.trans ?_
  refine (rtSegmentSendFifo_sameRecv _).trans ?_
  refine (rtPeriodicKeepalive_sameRecv w now _).trans ?_
  refine (rtRetransmit_sameViews c w now _).sameRecv.trans ?_
  exact (rtFlushAcks_sameViews c w _).sameRecv

theorem rtInterrupt_sameRecv {now : ℕ} {t : RudpTransport} (hstatus : t.se.status = .established)
    (hlive : now < wrap64 (t.se.latestRecvMyTick + timeoutMs)) :
    SameRecv (drainRecvSegments t).1 (rtInterrupt c w now t) := by
  have heq : rtInterrupt c w now t = rtInterruptEstablished c w now t := by
    simp only [rtInterrupt, hstatus]
    exact if_neg (by omega)
  rw [heq]
  exact rtInterruptEstablished_sameRecv c w now t

theorem SameRecv.last_eq {t u : RudpTransport} (h : SameRecv t u) :
    u.se.lastRecvCompleteSeq = t.se.lastRecvCompleteSeq := by
  have hrecv := h.recv
  simp only [RudpTransport.recvView, Prod.mk.injEq] at hrecv
  exact hrecv.2.1

theorem SameRecv.recvSegments_eq {t u : RudpTransport} (h : SameRecv t u) :
    u.se.recvSegments = t.se.recvSegments := by
  have hrecv := h.recv
  simp only [RudpTransport.recvView, Prod.mk.injEq] at hrecv
  exact hrecv.1

theorem SameRecv.delivered_eq {t u : RudpTransport} (h : SameRecv t u) :
    u.hist.delivered = t.hist.delivered := by
  have hrecv := h.recv
  simp only [RudpTransport.recvView, Prod.mk.injEq] at hrecv
  exact hrecv.2.2

end SoftEtherVpn.Rudp
