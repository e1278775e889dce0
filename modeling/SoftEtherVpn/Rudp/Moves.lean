import SoftEtherVpn.Rudp.Drain

/-!
# What the worker can do to a session

Besides consuming from the reorder buffer, `rt_interrupt` does two things: it queues
segments under fresh numbers, and it transmits packets. `Queues` and `Transmits` say
what such a stretch of work may change; both compose, and every function of the worker
is an instance of one of them.
-/

namespace SoftEtherVpn.Rudp

open Foundation

namespace RudpTransport

/-- Pending acknowledgements, the next initialisation vector, and the datagrams sent. -/
def wireView (t : RudpTransport) : List ℕ × Bytes × List Bytes :=
  (t.se.replyAcks, t.se.nextIv, t.hist.sent)

/-- What may be queued: application data cut to size, or one of the keepalive payloads. -/
def CanQueue (t : RudpTransport) (e : Queued) : Prop :=
  match e.kind with
  | .data => e.payload.length ≤ maxSegmentSize
  | .keepAlive => e.payload = t.se.magicReq ∨ e.payload = t.se.magicResp

end RudpTransport

/-- The slot of the send window a queued segment occupies. -/
def Queued.slot (e : Queued) : ℕ × Bytes := (e.seq, e.payload)

/-- The entries carry consecutive numbers from `n` on, and `m` is the next one. -/
def Numbered (n : ℕ) : List Queued → ℕ → Prop
  | [], m => n = m
  | e :: es, m => e.seq = n ∧ Numbered (wrap64 (n + 1)) es m

theorem Numbered.append {n m k : ℕ} {es fs : List Queued} (h : Numbered n es m)
    (h' : Numbered m fs k) : Numbered n (es ++ fs) k := by
  induction es generalizing n with
  | nil =>
    cases h
    exact h'
  | cons e es ih => exact ⟨h.1, ih h.2⟩

/-- Without a wrap the numbers are an interval. -/
theorem Numbered.eq_range' {n m : ℕ} {es : List Queued} (h : Numbered n es m)
    (hlt : ∀ e ∈ es, e.seq + 1 < 2 ^ 64) :
    es.map Queued.seq = List.range' n es.length ∧ m = n + es.length := by
  induction es generalizing n with
  | nil =>
    cases h
    exact ⟨rfl, rfl⟩
  | cons e es ih =>
    obtain ⟨rfl, h⟩ := h
    have hw : wrap64 (e.seq + 1) = e.seq + 1 := Nat.mod_eq_of_lt (hlt e (by simp))
    rw [hw] at h
    obtain ⟨hseqs, hm⟩ := ih h fun x hx => hlt x (by simp [hx])
    constructor
    · rw [List.map_cons, hseqs, List.length_cons, List.range'_succ]
    · rw [hm, List.length_cons]
      ring

theorem Numbered.seq_lt {n m : ℕ} {es : List Queued} (h : Numbered n es m)
    (hlt : n + es.length < 2 ^ 64) : ∀ e ∈ es, e.seq + 1 < 2 ^ 64 := by
  induction es generalizing n with
  | nil => simp
  | cons e es ih =>
    obtain ⟨rfl, h⟩ := h
    rw [List.length_cons] at hlt
    have hw : wrap64 (e.seq + 1) = e.seq + 1 := Nat.mod_eq_of_lt (by omega)
    rw [hw] at h
    intro x hx
    rcases List.mem_cons.mp hx with rfl | hx
    · omega
    · exact ih h (by omega) x hx

/-! ## Queueing -/

/-- New segments were queued and nothing was put on the wire. -/
structure Queues (t u : RudpTransport) : Prop where
  key : u.keyView = t.keyView
  wire : u.wireView = t.wireView
  entries : ∃ es, u.hist.queued = t.hist.queued ++ es ∧
    u.window = t.window ++ es.map Queued.slot ∧
    Numbered t.se.nextSendSeq es u.se.nextSendSeq ∧ ∀ e ∈ es, t.CanQueue e

theorem RudpTransport.CanQueue.congr {t u : RudpTransport} {e : Queued}
    (h : u.keyView = t.keyView) (he : u.CanQueue e) : t.CanQueue e := by
  simp only [RudpTransport.keyView, Prod.mk.injEq] at h
  unfold RudpTransport.CanQueue at he ⊢
  rw [h.2.2.2.1, h.2.2.2.2.1] at he
  exact he

namespace Queues

variable {t u v : RudpTransport}

theorem of_sameSend (hkey : u.keyView = t.keyView) (hwire : u.wireView = t.wireView)
    (hsend : u.sendView = t.sendView) : Queues t u := by
  simp only [RudpTransport.sendView, Prod.mk.injEq] at hsend
  obtain ⟨hwin, hnext, hq⟩ := hsend
  exact ⟨hkey, hwire, [], by simpa using hq, by simpa using hwin, hnext.symm, by simp⟩

theorem refl (t : RudpTransport) : Queues t t := of_sameSend rfl rfl rfl

theorem trans (h : Queues t u) (h' : Queues u v) : Queues t v := by
  obtain ⟨es, hq, hwin, hnum, hcan⟩ := h.entries
  obtain ⟨fs, hq', hwin', hnum', hcan'⟩ := h'.entries
  refine ⟨h'.key.trans h.key, h'.wire.trans h.wire, es ++ fs, ?_, ?_, hnum.append hnum', ?_⟩
  · rw [hq', hq, List.append_assoc]
  · rw [hwin', hwin, List.map_append, List.append_assoc]
  · intro e he
    rcases List.mem_append.mp he with he | he
    · exact hcan e he
    · exact (hcan' e he).congr h.key

end Queues

theorem rtQueueSegment_queues {t : RudpTransport} {kind : SegmentKind} {data : Bytes}
    (h : t.CanQueue ⟨kind, t.se.nextSendSeq, data⟩) :
    Queues t (rtQueueSegment t kind data) := by
  unfold rtQueueSegment
  split_ifs
  · exact Queues.refl t
  · refine ⟨rfl, rfl, [⟨kind, t.se.nextSendSeq, data⟩], rfl, ?_, ⟨rfl, rfl⟩, ?_⟩
    · simp [RudpTransport.window, Queued.slot]
    · intro e he
      obtain rfl := List.mem_singleton.mp he
      exact h

theorem rtSegmentSendFifo_queues (t : RudpTransport) : Queues t (rtSegmentSendFifo t) := by
  induction t using rtSegmentSendFifo.induct with
  | case1 t seqMin h =>
    rw [rtSegmentSendFifo, if_pos h]
    exact Queues.refl t
  | case2 t seqMin h h0 =>
    rw [rtSegmentSendFifo, if_neg h, dif_pos h0]
    exact Queues.refl t
  | case3 t seqMin h h0 size tmp ih =>
    rw [rtSegmentSendFifo, if_neg h, dif_neg h0]
    have hlen : tmp.length ≤ maxSegmentSize := by
      have htmp : tmp = t.se.sendFifo.contents.take size := rtFifoPeek_eq _ _
      rw [htmp, List.length_take]
      exact (min_le_left _ _).trans (min_le_right _ _)
    have hqueue : Queues t (rtQueueSegment t .data tmp) := rtQueueSegment_queues hlen
    refine (hqueue.trans ?_).trans ih
    exact Queues.of_sameSend rfl rfl rfl

theorem rtPeriodicKeepalive_queues (w : World) (now : ℕ) (t : RudpTransport) :
    Queues t (rtPeriodicKeepalive w now t) := by
  unfold rtPeriodicKeepalive
  split_ifs
  · have hqueue : Queues t (rtQueueSegment t .keepAlive t.se.magicReq) :=
      rtQueueSegment_queues (Or.inl rfl)
    exact hqueue.trans (Queues.of_sameSend rfl rfl rfl)
  · exact Queues.of_sameSend rfl rfl rfl
  · exact Queues.refl t

theorem drainLoop_queues (segs : List RtSegment) (t : RudpTransport) (cur d : ℕ) :
    Queues t (drainLoop t cur d segs).1 := by
  induction segs generalizing t cur d with
  | nil => exact Queues.refl t
  | cons s rest ih =>
    have consume : ∀ v, Queues t v → Queues t (drainLoop
        (v.withSe fun se => { se with lastRecvCompleteSeq := s.seq })
        (wrap64 (cur + 1)) (d + 1) rest).1 := by
      intro v hv
      refine (hv.trans ?_).trans (ih _ _ _)
      exact Queues.of_sameSend rfl rfl rfl
    unfold drainLoop
    dsimp only
    split_ifs
    · exact Queues.refl t
    · exact consume _ (rtQueueSegment_queues (Or.inr rfl))
    · exact consume t (Queues.refl t)
    · exact consume t (Queues.refl t)
    · cases rtFifoWrite t.se.recvFifo s.data with
      | none => exact Queues.refl t
      | some fifo => exact consume _ (Queues.of_sameSend rfl rfl rfl)

theorem drainRecvSegments_queues (t : RudpTransport) : Queues t (drainRecvSegments t).1 := by
  refine (drainLoop_queues t.se.recvSegments t t.se.lastRecvCompleteSeq 0).trans ?_
  exact Queues.of_sameSend rfl rfl rfl

/-! ## The send window -/

/-- Segments are numbered from one on as they are queued, and the window holds those
that are not acknowledged yet. -/
structure WindowInv (t : RudpTransport) : Prop where
  seqs : t.hist.queued.map Queued.seq = List.range' 1 t.hist.queued.length
  next : t.se.nextSendSeq = t.hist.queued.length + 1
  window : t.window.Sublist (t.hist.queued.map Queued.slot)

namespace WindowInv

variable {t u : RudpTransport}

theorem queues (h : WindowInv t) (hq : Queues t u)
    (hlt : ∀ e ∈ u.hist.queued, e.seq + 1 < 2 ^ 64) : WindowInv u := by
  obtain ⟨es, hqueued, hwin, hnum, -⟩ := hq.entries
  rw [hqueued] at hlt
  obtain ⟨hseqs, hnext⟩ := hnum.eq_range' fun e he => hlt e (List.mem_append_right _ he)
  refine ⟨?_, ?_, ?_⟩
  · rw [hqueued, List.map_append, h.seqs, hseqs, h.next, List.length_append, Nat.add_comm _ 1,
      List.range'_append_1]
  · rw [hnext, h.next, hqueued, List.length_append]
    ring
  · rw [hqueued, hwin, List.map_append]
    exact h.window.append (List.Sublist.refl _)

theorem seq_lt_next (h : WindowInv t) {e : Queued} (he : e ∈ t.hist.queued) :
    1 ≤ e.seq ∧ e.seq < t.se.nextSendSeq := by
  have hmem : e.seq ∈ t.hist.queued.map Queued.seq := List.mem_map_of_mem he
  rw [h.seqs, List.mem_range'_1] at hmem
  rw [h.next]
  omega

/-- The same when the counter has room for the new segments. -/
theorem queues_of_room (h : WindowInv t) (hq : Queues t u) {n : ℕ}
    (hlen : u.hist.queued.length ≤ t.hist.queued.length + n)
    (hroom : t.se.nextSendSeq + n < 2 ^ 64) : WindowInv u := by
  apply h.queues hq
  obtain ⟨es, hqueued, -, hnum, -⟩ := hq.entries
  rw [hqueued, List.length_append] at hlen
  rw [hqueued]
  intro e he
  rcases List.mem_append.mp he with he | he
  · have := (h.seq_lt_next he).2
    omega
  · exact hnum.seq_lt (by omega) e he

/-- Acknowledgements only take slots out. -/
theorem acked (h : WindowInv t) (hnext : u.se.nextSendSeq = t.se.nextSendSeq)
    (hqueued : u.hist.queued = t.hist.queued) (hwin : u.window.Sublist t.window) :
    WindowInv u := by
  refine ⟨?_, ?_, ?_⟩
  · rw [hqueued]
    exact h.seqs
  · rw [hnext, hqueued]
    exact h.next
  · rw [hqueued]
    exact hwin.trans h.window

theorem sameSend (h : WindowInv t) (hsend : u.sendView = t.sendView) : WindowInv u := by
  simp only [RudpTransport.sendView, Prod.mk.injEq] at hsend
  obtain ⟨hwin, hnext, hqueued⟩ := hsend
  exact h.acked hnext hqueued (hwin ▸ List.Sublist.refl _)

theorem window_seqs (h : WindowInv t) :
    (t.window.map Prod.fst).Sublist (List.range' 1 t.hist.queued.length) := by
  have hsub := h.window.map Prod.fst
  rw [List.map_map] at hsub
  rw [← h.seqs]
  exact hsub

/-- A window whose numbers lie within 63 of its first one has a free slot. -/
theorem window_lt (h : WindowInv t) {s : RtSegment} {rest : List RtSegment}
    (hhead : t.se.sendSegments = s :: rest) (hnear : t.se.nextSendSeq < s.seq + maxNumAck) :
    t.se.sendSegments.length < maxNumAck := by
  have hsub := h.window_seqs
  have hsorted : (t.window.map Prod.fst).Pairwise (· < ·) :=
    (List.pairwise_lt_range' 1).sublist hsub
  have hmap : t.window.map Prod.fst = s.seq :: rest.map RtSegment.seq := by
    rw [RudpTransport.window, hhead]
    simp
  have hrange : ∀ x ∈ t.window.map Prod.fst, x ∈ Finset.Ico s.seq t.se.nextSendSeq := by
    intro x hx
    have hup := List.mem_range'_1.mp (hsub.subset hx)
    rw [Finset.mem_Ico, h.next]
    refine ⟨?_, by omega⟩
    rw [hmap] at hx hsorted
    rcases List.mem_cons.mp hx with rfl | hx
    · exact le_rfl
    · exact ((List.pairwise_cons.mp hsorted).1 x hx).le
  have hcard : (t.window.map Prod.fst).length ≤ t.se.nextSendSeq - s.seq := by
    rw [← List.toFinset_card_of_nodup (hsorted.imp fun h => h.ne), ← Nat.card_Ico]
    exact Finset.card_le_card fun x hx => hrange x (List.mem_toFinset.mp hx)
  rw [RudpTransport.window, List.length_map, List.length_map] at hcard
  unfold maxNumAck at hnear ⊢
  omega

end WindowInv

/-! ## Acknowledgements -/

/-- The session with another send window and other ticks. -/
def RudpTransport.withWindow (t : RudpTransport) (segs : List RtSegment) (yourTick myTick : ℕ) :
    RudpTransport :=
  t.withSe fun se =>
    { se with sendSegments := segs, yourTick := yourTick, latestRecvMyTick := myTick }

/-- The slots `segs` are left, and each one given up satisfies `p`. -/
structure GaveUp (old segs : List RtSegment) (p : ℕ → Prop) : Prop where
  sublist : segs.Sublist old
  lost : ∀ s ∈ old, s ∈ segs ∨ p s.seq

theorem GaveUp.trans {old mid segs : List RtSegment} {p q : ℕ → Prop} (h : GaveUp old mid p)
    (h' : GaveUp mid segs q) : GaveUp old segs fun n => p n ∨ q n where
  sublist := h'.sublist.trans h.sublist
  lost s hs := by
    rcases h.lost s hs with hmid | hp
    · rcases h'.lost s hmid with hsegs | hq
      · exact Or.inl hsegs
      · exact Or.inr (Or.inr hq)
    · exact Or.inr (Or.inl hp)

theorem rtProcessAck2_gaveUp (t : RudpTransport) (maxSeq : ℕ) :
    GaveUp t.se.sendSegments (rtProcessAck2 t maxSeq).se.sendSegments (· ≤ maxSeq) where
  sublist := List.filter_sublist
  lost s hs := by
    by_cases hle : s.seq ≤ maxSeq
    · exact Or.inr hle
    · exact Or.inl (List.mem_filter.mpr ⟨hs, by simpa using hle⟩)

theorem rtProcessAck_gaveUp (t : RudpTransport) (seq : ℕ) :
    GaveUp t.se.sendSegments (rtProcessAck t seq).se.sendSegments (· = seq) where
  sublist := List.eraseP_sublist
  lost s hs := by
    by_cases heq : s.seq = seq
    · exact Or.inr heq
    · exact Or.inl ((List.mem_eraseP_of_neg (by simpa using heq)).mpr hs)

theorem foldl_rtProcessAck_eq (acks : List ℕ) (t : RudpTransport) :
    ∃ segs, acks.foldl rtProcessAck t = (t.withSe fun se => { se with sendSegments := segs }) ∧
      GaveUp t.se.sendSegments segs (· ∈ acks) := by
  induction acks generalizing t with
  | nil => exact ⟨t.se.sendSegments, rfl, List.Sublist.refl _, fun s hs => Or.inl hs⟩
  | cons a acks ih =>
    obtain ⟨segs, heq, hgave⟩ := ih (rtProcessAck t a)
    have hboth := (rtProcessAck_gaveUp t a).trans hgave
    refine ⟨segs, heq, hboth.sublist, ?_⟩
    intro s hs
    rw [List.mem_cons]
    exact hboth.lost s hs

/-- All the acknowledgements of a segment do is to give up acknowledged slots. -/
theorem rtApplyAcks_eq (t : RudpTransport) (i : SegmentInfo) :
    ∃ segs y m, rtApplyAcks t i = t.withWindow segs y m ∧
      GaveUp t.se.sendSegments segs fun n => n ≤ i.maxAck ∨ n ∈ i.acks := by
  have hgave2 : GaveUp t.se.sendSegments
      (if i.maxAck ≥ 1 then rtProcessAck2 t i.maxAck else t).se.sendSegments (· ≤ i.maxAck) := by
    split_ifs
    · exact rtProcessAck2_gaveUp t i.maxAck
    · exact ⟨List.Sublist.refl _, fun s hs => Or.inl hs⟩
  obtain ⟨segs, heq, hgave⟩ :=
    foldl_rtProcessAck_eq i.acks (if i.maxAck ≥ 1 then rtProcessAck2 t i.maxAck else t)
  refine ⟨segs, max t.se.yourTick (if i.myTick ≥ 2 then i.myTick - 1 else i.myTick),
    max t.se.latestRecvMyTick i.yourTick, ?_, hgave2.trans hgave⟩
  unfold rtApplyAcks
  dsimp only
  rw [heq]
  split_ifs <;> rfl

/-! ## Receiving a datagram -/

/-- Only slots of the send window were given up. -/
structure Shrinks (t u : RudpTransport) : Prop where
  key : u.keyView = t.keyView
  app : u.appView = t.appView
  next : u.se.nextSendSeq = t.se.nextSendSeq
  queued : u.hist.queued = t.hist.queued
  window : u.window.Sublist t.window

theorem SameViews.shrinks {t u : RudpTransport} (h : SameViews t u) : Shrinks t u := by
  have hsend := h.send
  simp only [RudpTransport.sendView, Prod.mk.injEq] at hsend
  exact ⟨h.key, h.app, hsend.2.1, hsend.2.2, hsend.1 ▸ List.Sublist.refl _⟩

namespace Shrinks

variable {t u v : RudpTransport}

theorem refl (t : RudpTransport) : Shrinks t t := (SameViews.refl t).shrinks

theorem trans (h : Shrinks t u) (h' : Shrinks u v) : Shrinks t v :=
  ⟨h'.key.trans h.key, h'.app.trans h.app, h'.next.trans h.next, h'.queued.trans h.queued,
    h'.window.trans h.window⟩

end Shrinks

theorem rtProcessAck_shrinks (t : RudpTransport) (seq : ℕ) : Shrinks t (rtProcessAck t seq) :=
  ⟨rfl, rfl, rfl, rfl, List.eraseP_sublist.map _⟩

theorem rtProcessAck2_shrinks (t : RudpTransport) (maxSeq : ℕ) :
    Shrinks t (rtProcessAck2 t maxSeq) :=
  ⟨rfl, rfl, rfl, rfl, List.filter_sublist.map _⟩

theorem rtProcessRecvPayload_shrinks (t : RudpTransport) (seq : ℕ) (payload : Bytes) :
    Shrinks t (rtProcessRecvPayload t seq payload) := by
  unfold rtProcessRecvPayload
  split_ifs
  · exact Shrinks.refl t
  · exact (rtAddAck_sameViews t seq).shrinks
  · exact (rtAddAck_sameViews t seq).shrinks
  · exact Shrinks.refl t
  · refine Shrinks.trans ?_ (rtAddAck_sameViews _ seq).shrinks
    exact ⟨rfl, rfl, rfl, rfl, List.Sublist.refl _⟩

theorem rtApplyAcks_shrinks (t : RudpTransport) (i : SegmentInfo) :
    Shrinks t (rtApplyAcks t i) := by
  obtain ⟨segs, y, m, heq, hgave⟩ := rtApplyAcks_eq t i
  rw [heq]
  exact ⟨rfl, rfl, rfl, rfl, hgave.sublist.map _⟩

theorem rtApplyPayload_shrinks (c : Crypto) (w : World) (t : RudpTransport) (srcPort : ℕ)
    (i : SegmentInfo) : Shrinks t (rtApplyPayload c w t srcPort i) := by
  have hend : ∀ v : RudpTransport, Shrinks v
      ((rtEstablish v).withSe fun se => { se with yourPort := srcPort }) :=
    fun v => (rtEstablish_sameViews v).shrinks.trans ⟨rfl, rfl, rfl, rfl, List.Sublist.refl _⟩
  unfold rtApplyPayload
  dsimp only
  split_ifs
  · exact Shrinks.refl t
  · exact (rtSetDisconnected_sameViews c w t true).shrinks
  · exact (rtProcessRecvPayload_shrinks t _ _).trans (hend _)
  · exact hend t
  · exact (rtProcessRecvPayload_shrinks t _ _).trans (hend _)
  · exact hend t

theorem rtHandleUdpPacket_shrinks (c : Crypto) (w : World) (t : RudpTransport) (srcPort : ℕ)
    (buf : Bytes) : Shrinks t (rtHandleUdpPacket c w t srcPort buf) := by
  unfold rtHandleUdpPacket
  split_ifs
  · exact Shrinks.refl t
  · exact Shrinks.refl t
  · cases (openPacket c t.se.keyRecv buf).bind parseSegment with
    | none => exact Shrinks.refl t
    | some i =>
      dsimp only [rtApplySegment]
      split_ifs
      · exact Shrinks.refl t
      · exact (rtApplyAcks_shrinks t i).trans (rtApplyPayload_shrinks c w _ srcPort i)

/-! ## Transmission -/

/-- A datagram the session may send in state `t`: a connection request, which is too
short to be a segment, or a sealed segment that acknowledges what has been received and
carries nothing or a slot of the send window. -/
def Genuine (c : Crypto) (t : RudpTransport) (pkt : Bytes) : Prop :=
  pkt.length < sha1Size * 2 ∨
  ∃ iv i padlen, iv.length = sha1Size ∧ 1 ≤ padlen ∧ padlen ≤ 255 ∧
    pkt = sealPacket c t.se.keySend iv (segmentBody i padlen) ∧
    i.maxAck = t.se.lastRecvCompleteSeq ∧ i.acks.length ≤ maxNumAck ∧
    (∀ a ∈ i.acks, a ∈ t.se.replyAcks) ∧ (i.payload = [] ∨ (i.seq, i.payload) ∈ t.window)

/-- Packets were sent; each clears the pending acknowledgements it carries. -/
structure Transmits (c : Crypto) (t u : RudpTransport) : Prop where
  same : SameSegments t u
  acks : u.se.replyAcks = t.se.replyAcks ∨ u.se.replyAcks = []
  iv : t.se.nextIv.length = sha1Size → u.se.nextIv.length = sha1Size
  sent : t.se.nextIv.length = sha1Size →
    ∃ pkts, u.hist.sent = t.hist.sent ++ pkts ∧ ∀ p ∈ pkts, Genuine c t p

theorem SameSegments.genuine {c : Crypto} {t u : RudpTransport} (h : SameSegments t u)
    (hacks : ∀ a ∈ u.se.replyAcks, a ∈ t.se.replyAcks) {pkt : Bytes} (hp : Genuine c u pkt) :
    Genuine c t pkt := by
  have hkey := h.key
  have hrecv := h.recv
  have hsend := h.send
  simp only [RudpTransport.keyView, RudpTransport.recvView, RudpTransport.sendView,
    Prod.mk.injEq] at hkey hrecv hsend
  rcases hp with hp | ⟨iv, i, padlen, hiv, h1, h255, hpkt, hmax, hnum, hin, hpay⟩
  · exact Or.inl hp
  · refine Or.inr ⟨iv, i, padlen, hiv, h1, h255, ?_, ?_, hnum, ?_, ?_⟩
    · rw [hpkt, hkey.2.1]
    · rw [hmax, hrecv.2.1]
    · exact fun a ha => hacks a (hin a ha)
    · rw [hsend.1] at hpay
      exact hpay

namespace Transmits

variable {c : Crypto} {t u v : RudpTransport}

/-- Nothing was sent. -/
theorem of_silent (hsame : SameSegments t u) (hwire : u.wireView = t.wireView) :
    Transmits c t u := by
  simp only [RudpTransport.wireView, Prod.mk.injEq] at hwire
  obtain ⟨hacks, hiv, hsent⟩ := hwire
  refine ⟨hsame, Or.inl hacks, fun h => hiv ▸ h, fun _ => ⟨[], ?_, by simp⟩⟩
  rw [hsent, List.append_nil]

theorem refl (t : RudpTransport) : Transmits c t t := of_silent (SameSegments.refl t) rfl

theorem acks_subset (h : Transmits c t u) : ∀ a ∈ u.se.replyAcks, a ∈ t.se.replyAcks := by
  intro a ha
  rcases h.acks with heq | hnil
  · rwa [heq] at ha
  · rw [hnil] at ha
    cases ha

theorem trans (h : Transmits c t u) (h' : Transmits c u v) : Transmits c t v := by
  refine ⟨h.same.trans h'.same, ?_, fun hiv => h'.iv (h.iv hiv), ?_⟩
  · rcases h'.acks with heq | hnil
    · rw [heq]
      exact h.acks
    · exact Or.inr hnil
  · intro hiv
    obtain ⟨ps, hps, hgen⟩ := h.sent hiv
    obtain ⟨qs, hqs, hgen'⟩ := h'.sent (h.iv hiv)
    refine ⟨ps ++ qs, by rw [hqs, hps, List.append_assoc], ?_⟩
    intro p hp
    rcases List.mem_append.mp hp with hp | hp
    · exact hgen p hp
    · exact h.same.genuine h.acks_subset (hgen' p hp)

theorem foldl {α : Type*} {f : RudpTransport → α → RudpTransport}
    (hf : ∀ t a, Transmits c t (f t a)) (xs : List α) (t : RudpTransport) :
    Transmits c t (xs.foldl f t) := by
  induction xs generalizing t with
  | nil => exact refl t
  | cons a xs ih => exact (hf t a).trans (ih (f t a))

end Transmits

variable (c : Crypto) (w : World)

/-- Twenty bytes are left behind every position an IV is taken from. -/
theorem take_drop_mod_length {data : Bytes} (n : ℕ) (h : sha1Size < data.length) :
    ((data.drop (n % (data.length - sha1Size))).take sha1Size).length = sha1Size := by
  have hpos : n % (data.length - sha1Size) < data.length - sha1Size := Nat.mod_lt _ (by omega)
  rw [List.length_take, List.length_drop]
  omega

theorem segmentBody_length (i : SegmentInfo) (padlen : ℕ) :
    (segmentBody i padlen).length = 36 + 8 * i.acks.length + i.payload.length + padlen := by
  simp only [segmentBody, List.length_append, bytesBE_length, acks_flatMap_length,
    List.length_replicate]
  ring

theorem sealPacket_length {key iv body : Bytes} (hiv : iv.length = sha1Size) :
    (sealPacket c key iv body).length = body.length + sha1Size * 2 := by
  simp only [sealPacket, List.length_append, c.sha1_length, hiv, rc4Crypt_length]
  ring

theorem segmentPacket_genuine {t : RudpTransport} {seq : ℕ} {data : Bytes}
    (hiv : t.se.nextIv.length = sha1Size) (h : data = [] ∨ (seq, data) ∈ t.window) :
    Genuine c t (segmentPacket c w t seq data) := by
  have hpad : w.padlen t.calls ≤ 255 := by
    have := Nat.mod_lt (w.rand t.calls) (show 0 < 255 by decide)
    unfold World.padlen
    omega
  exact Or.inr ⟨_, _, _, hiv, Nat.le_add_left _ _, hpad, rfl, rfl, List.length_take_le _ _,
    fun a ha => List.mem_of_mem_take ha, h⟩

theorem segmentPacket_length_gt {t : RudpTransport} (seq : ℕ) (data : Bytes)
    (hiv : t.se.nextIv.length = sha1Size) :
    sha1Size < (segmentPacket c w t seq data).length := by
  rw [segmentPacket, sealPacket_length c hiv, segmentBody_length]
  omega

theorem rtSendSegmentNow_transmits {t : RudpTransport} {seq : ℕ} {data : Bytes}
    (h : data = [] ∨ (seq, data) ∈ t.window) :
    Transmits c t (rtSendSegmentNow c w t seq data) where
  same := (rtSendSegmentNow_sameViews c w t seq data).sameSegments
  acks := Or.inr rfl
  iv hiv := take_drop_mod_length _ (segmentPacket_length_gt c w seq data hiv)
  sent hiv := by
    refine ⟨[segmentPacket c w t seq data], rfl, ?_⟩
    intro p hp
    obtain rfl := List.mem_singleton.mp hp
    exact segmentPacket_genuine c w hiv h

theorem rtSignalResult_transmits (t : RudpTransport) (ok : Bool) :
    Transmits c t (rtSignalResult t ok) := by
  refine Transmits.of_silent (rtSignalResult_sameViews t ok).sameSegments ?_
  unfold rtSignalResult
  split <;> rfl

theorem rtEstablish_transmits (t : RudpTransport) : Transmits c t (rtEstablish t) := by
  unfold rtEstablish
  split_ifs
  · refine Transmits.trans ?_ (rtSignalResult_transmits c _ _)
    exact Transmits.of_silent (withSe_status_sameViews t _).sameSegments rfl
  · exact Transmits.refl t

theorem rtSetDisconnected_transmits (t : RudpTransport) (byYou : Bool) :
    Transmits c t (rtSetDisconnected c w t byYou) := by
  have hend : ∀ v : RudpTransport, Transmits c v
      (rtSignalResult (v.withSe fun se => { se with status := .disconnected }) false) := by
    intro v
    refine Transmits.trans ?_ (rtSignalResult_transmits c _ _)
    exact Transmits.of_silent (withSe_status_sameViews v _).sameSegments rfl
  unfold rtSetDisconnected
  split_ifs
  · exact Transmits.refl t
  · refine Transmits.trans ?_ (hend _)
    exact Transmits.foldl (fun t _ => rtSendSegmentNow_transmits c w (Or.inl rfl)) _ t
  · exact hend t

theorem pumpRecvLoop_transmits (t : RudpTransport) (rs : List SendResult) :
    Transmits c t (pumpRecvLoop c w t rs) := by
  induction rs generalizing t with
  | nil => exact Transmits.refl t
  | cons r rs ih =>
    unfold pumpRecvLoop
    split_ifs
    · exact Transmits.refl t
    · cases r with
      | failed => exact rtSetDisconnected_transmits c w t false
      | accepted n =>
        dsimp only
        split_ifs
        · exact Transmits.refl t
        · refine Transmits.trans ?_ (ih _)
          exact Transmits.of_silent ⟨rfl, rfl, rfl⟩ rfl

theorem rtPumpRecvToPair_transmits (t : RudpTransport) :
    Transmits c t (rtPumpRecvToPair c w t) := by
  refine Transmits.trans ?_ (pumpRecvLoop_transmits c w _ _)
  exact Transmits.of_silent ⟨rfl, rfl, rfl⟩ rfl

theorem pumpPairLoop_transmits (t : RudpTransport) (rs : List RecvResult) :
    Transmits c t (pumpPairLoop c w t rs) := by
  induction rs generalizing t with
  | nil => exact Transmits.refl t
  | cons r rs ih =>
    unfold pumpPairLoop
    split_ifs
    · exact Transmits.refl t
    · cases r with
      | failed => exact rtSetDisconnected_transmits c w t false
      | closed => exact rtSetDisconnected_transmits c w t false
      | chunk bytes pos le =>
        refine Transmits.trans ?_ (ih _)
        exact Transmits.of_silent ⟨rfl, rfl, rfl⟩ rfl

theorem rtPumpPairToSend_transmits (t : RudpTransport) :
    Transmits c t (rtPumpPairToSend c w t) := by
  refine Transmits.trans ?_ (pumpPairLoop_transmits c w _ _)
  exact Transmits.of_silent ⟨rfl, rfl, rfl⟩ rfl

theorem retransmitSlot_transmits (now seqMin : ℕ) (t : RudpTransport) (j : ℕ) :
    Transmits c t (retransmitSlot c w now seqMin t j) := by
  unfold retransmitSlot
  cases hj : t.se.sendSegments[j]? with
  | none => exact Transmits.refl t
  | some s =>
    dsimp only
    split_ifs
    · exact Transmits.refl t
    · exact Transmits.refl t
    · have hwin : ∀ s', (s'.seq, s'.data) = (s.seq, s.data) →
          (t.se.sendSegments.set j s').map (fun s => (s.seq, s.data)) = t.window :=
        fun s' hs' => map_set_of_getElem? (fun s : RtSegment => (s.seq, s.data)) hj hs'
      refine Transmits.trans ?_ (rtSendSegmentNow_transmits c w (Or.inr ?_))
      · refine Transmits.of_silent ⟨rfl, rfl, ?_⟩ rfl
        exact congrArg (fun l => (l, t.se.nextSendSeq, t.hist.queued)) (hwin _ rfl)
      · have hmem : (s.seq, s.data) ∈ t.window := List.mem_map_of_mem (List.mem_of_getElem? hj)
        convert hmem using 1
        exact hwin _ rfl

theorem rtRetransmit_transmits (now : ℕ) (t : RudpTransport) :
    Transmits c t (rtRetransmit c w now t) :=
  Transmits.foldl (retransmitSlot_transmits c w now _) _ t

theorem rtFlushAcks_transmits (t : RudpTransport) : Transmits c t (rtFlushAcks c w t) := by
  unfold rtFlushAcks
  split_ifs
  · exact Transmits.refl t
  · exact rtSendSegmentNow_transmits c w (Or.inl rfl)

/-- A connection request is 39 bytes long, one less than the shortest segment header. -/
theorem rtSendUdp_transmits {t : RudpTransport} {data : Bytes} (hlen : data.length = 39) :
    Transmits c t (rtSendUdp w t data) where
  same := (rtSendUdp_sameViews w t data).sameSegments
  acks := Or.inl rfl
  iv _ := by
    simp only [rtSendUdp]
    cases t.transportMode with
    | udp =>
      rw [if_pos (by rw [hlen]; decide)]
      exact take_drop_mod_length _ (by rw [hlen]; decide)
    | dns => exact w.randomBytes_length _ _
    | icmp => exact w.randomBytes_length _ _
  sent _ := by
    refine ⟨[data], rfl, ?_⟩
    intro p hp
    obtain rfl := List.mem_singleton.mp hp
    exact Or.inl (by rw [hlen]; decide)

theorem rtInterruptConnecting_transmits (now : ℕ) {t : RudpTransport}
    (hkey : t.se.keyInit.length = sha1Size) :
    Transmits c t (rtInterruptConnecting c w now t) := by
  have hrequest : Transmits c t ((rtSendUdp w { t with calls := t.calls + 1 }
      (t.se.keyInit ++ w.randomBytes t.calls 19)).withSe
        fun se => { se with lastSentTick := now }) := by
    have hlen : (t.se.keyInit ++ w.randomBytes t.calls 19).length = 39 := by
      rw [List.length_append, hkey, w.randomBytes_length]
      rfl
    have hcalls : Transmits c t { t with calls := t.calls + 1 } :=
      Transmits.of_silent ⟨rfl, rfl, rfl⟩ rfl
    refine (hcalls.trans (rtSendUdp_transmits c w hlen)).trans ?_
    exact Transmits.of_silent ⟨rfl, rfl, rfl⟩ rfl
  have htimeout : ∀ v : RudpTransport,
      Transmits c v (rtSetDisconnected c w { v with errorCode := .timeout } false) := by
    intro v
    refine Transmits.trans ?_ (rtSetDisconnected_transmits c w _ false)
    exact Transmits.of_silent ⟨rfl, rfl, rfl⟩ rfl
  unfold rtInterruptConnecting
  dsimp only
  split_ifs
  · exact hrequest.trans (htimeout _)
  · exact hrequest
  · exact htimeout t
  · exact Transmits.refl t

end SoftEtherVpn.Rudp
