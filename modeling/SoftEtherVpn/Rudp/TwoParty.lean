import SoftEtherVpn.Foundation.Runs
import SoftEtherVpn.Rudp.Moves

/-!
# Two sessions over a lossy network

Two sessions with mirrored keys run the worker code. The network keeps every datagram
ever sent and may deliver any of them at any time, any number of times or never; it may
also deliver forged datagrams, as long as they fail the signature check. What one side
has delivered is then always a front part of what the other side has queued, and a
segment leaves the send window only when the other side has it.
-/

namespace SoftEtherVpn.Rudp

open Foundation

/-- The session `x` has received this number: consumed, or in the reorder buffer. -/
def RudpTransport.Has (x : RudpTransport) (a : ℕ) : Prop :=
  a ≤ x.se.lastRecvCompleteSeq ∨ ∃ s ∈ x.se.recvSegments, s.seq = a

/-- What the two parties are assumed to do: numbers stay below the disconnect magics, and
application segments do not look like keepalives. -/
def WellBehaved (x : RudpTransport) : Prop :=
  ∀ e ∈ x.hist.queued, e.seq < 0xffffffff00000000 ∧
    (e.kind = .data → ¬ x.IsKeepalive e.payload)

/-- A datagram passes the signature check only if the peer sent it. -/
def Authentic (c : Crypto) (x peer : RudpTransport) (d : Bytes) : Prop :=
  signOk c x.se.keyRecv (d.take maxPacketSize) → d.take maxPacketSize ∈ peer.hist.sent

instance (c : Crypto) (x peer : RudpTransport) (d : Bytes) : Decidable (Authentic c x peer d) :=
  inferInstanceAs (Decidable (_ → _))

structure Peers where
  a : RudpTransport
  b : RudpTransport

inductive PeerEvent
  | interruptA (w : World) (now : ℕ)
  | interruptB (w : World) (now : ℕ)
  | deliverA (w : World) (srcPort : ℕ) (d : Bytes)
  | deliverB (w : World) (srcPort : ℕ) (d : Bytes)

def peerStep (c : Crypto) (s : Peers) : PeerEvent → Option Peers
  | .interruptA w now => some { s with a := rtInterrupt c w now s.a }
  | .interruptB w now => some { s with b := rtInterrupt c w now s.b }
  | .deliverA w srcPort d =>
    if Authentic c s.a s.b d then some { s with a := rtHandleUdpPacket c w s.a srcPort d }
    else none
  | .deliverB w srcPort d =>
    if Authentic c s.b s.a d then some { s with b := rtHandleUdpPacket c w s.b srcPort d }
    else none

/-- A session before its first packet. -/
structure FreshPeer (x : RudpTransport) : Prop where
  next : x.se.nextSendSeq = 1
  last : x.se.lastRecvCompleteSeq = 0
  sendEmpty : x.se.sendSegments = []
  recvEmpty : x.se.recvSegments = []
  acksEmpty : x.se.replyAcks = []
  queued : x.hist.queued = []
  delivered : x.hist.delivered = []
  sent : x.hist.sent = []
  keyInit : x.se.keyInit.length = sha1Size
  magicReq : x.se.magicReq.length = sha1Size
  magicResp : x.se.magicResp.length = sha1Size
  iv : x.se.nextIv.length = sha1Size

/-- What one side sends with, the other receives with; the keepalive payloads agree. -/
structure Mirrored (x y : RudpTransport) : Prop where
  send : x.se.keySend = y.se.keyRecv
  recv : x.se.keyRecv = y.se.keySend
  req : x.se.magicReq = y.se.magicReq
  resp : x.se.magicResp = y.se.magicResp

/-- Safety of one direction: `y` has delivered a front part of what `x` has queued, and
what is not in the send window of `x` any more has reached `y`. -/
structure PrefixSafe (x y : RudpTransport) : Prop where
  order : (x.hist.queued.map Queued.seq).Pairwise (· < ·)
  delivered : y.hist.delivered <+: x.hist.appStream
  kept : ∀ e ∈ x.hist.queued, e.slot ∉ x.window →
    e.seq ≤ y.se.lastRecvCompleteSeq ∨ ∃ s ∈ y.se.recvSegments, (s.seq, s.data) = e.slot

/-! ## The invariant -/

/-- A datagram in the sent history: like `Genuine`, but stable under further steps. -/
def Sound (c : Crypto) (x : RudpTransport) (pkt : Bytes) : Prop :=
  pkt.length < sha1Size * 2 ∨
  ∃ iv i padlen, iv.length = sha1Size ∧ 1 ≤ padlen ∧ padlen ≤ 255 ∧
    pkt = sealPacket c x.se.keySend iv (segmentBody i padlen) ∧
    i.maxAck ≤ x.se.lastRecvCompleteSeq ∧ i.acks.length ≤ maxNumAck ∧
    (∀ a ∈ i.acks, x.Has a) ∧
    (i.payload = [] ∨ ∃ e ∈ x.hist.queued, e.slot = (i.seq, i.payload))

/-- What holds of one session by itself. -/
structure PeerInv (c : Crypto) (x : RudpTransport) : Prop where
  window : WindowInv x
  keyInit : x.se.keyInit.length = sha1Size
  magicReq : x.se.magicReq.length = sha1Size
  magicResp : x.se.magicResp.length = sha1Size
  iv : x.se.nextIv.length = sha1Size
  can : ∀ e ∈ x.hist.queued, x.CanQueue e
  acks : ∀ a ∈ x.se.replyAcks, x.Has a
  sent : ∀ p ∈ x.hist.sent, Sound c x p

/-- What holds between the sender `x` and the receiver `y`. -/
structure LinkInv (x y : RudpTransport) : Prop where
  buffer : ∀ s ∈ y.se.recvSegments, ∃ e ∈ x.hist.queued, e.slot = (s.seq, s.data)
  last : y.se.lastRecvCompleteSeq ≤ x.hist.queued.length
  delivered : y.hist.delivered =
    (x.hist.queued.take y.se.lastRecvCompleteSeq).flatMap Queued.appBytes
  kept : ∀ e ∈ x.hist.queued, e.slot ∈ x.window ∨ e.seq ≤ y.se.lastRecvCompleteSeq ∨
    ∃ s ∈ y.se.recvSegments, (s.seq, s.data) = e.slot

structure PairInv (c : Crypto) (x y : RudpTransport) : Prop where
  mirrored : Mirrored x y
  left : PeerInv c x
  right : PeerInv c y
  forth : LinkInv x y
  back : LinkInv y x

theorem Mirrored.symm {x y : RudpTransport} (h : Mirrored x y) : Mirrored y x :=
  ⟨h.recv.symm, h.send.symm, h.req.symm, h.resp.symm⟩

theorem PairInv.symm {c : Crypto} {x y : RudpTransport} (h : PairInv c x y) : PairInv c y x :=
  ⟨h.mirrored.symm, h.right, h.left, h.back, h.forth⟩

/-- What a session can only gain. -/
structure Grows (x u : RudpTransport) : Prop where
  key : u.keyView = x.keyView
  queued : x.hist.queued <+: u.hist.queued
  last : x.se.lastRecvCompleteSeq ≤ u.se.lastRecvCompleteSeq
  has : ∀ a, x.Has a → u.Has a

section Key

variable {x u : RudpTransport} (h : u.keyView = x.keyView)

include h

theorem keySend_congr : u.se.keySend = x.se.keySend := by
  simp only [RudpTransport.keyView, Prod.mk.injEq] at h
  exact h.2.1

theorem Mirrored.congr {y : RudpTransport} (hm : Mirrored x y) : Mirrored u y := by
  simp only [RudpTransport.keyView, Prod.mk.injEq] at h
  obtain ⟨-, hs, hr, hq, hp, -⟩ := h
  exact ⟨hs.trans hm.send, hr.trans hm.recv, hq.trans hm.req, hp.trans hm.resp⟩

end Key

theorem Sound.grows {c : Crypto} {x u : RudpTransport} {pkt : Bytes} (h : Sound c x pkt)
    (hu : Grows x u) : Sound c u pkt := by
  rcases h with h | ⟨iv, i, padlen, hiv, h1, h255, hpkt, hmax, hnum, hacks, hpay⟩
  · exact Or.inl h
  · refine Or.inr ⟨iv, i, padlen, hiv, h1, h255, ?_, hmax.trans hu.last, hnum, ?_, ?_⟩
    · rw [hpkt, keySend_congr hu.key]
    · exact fun a ha => hu.has a (hacks a ha)
    · rcases hpay with hpay | ⟨e, he, hslot⟩
      · exact Or.inl hpay
      · exact Or.inr ⟨e, hu.queued.subset he, hslot⟩

/-- A packet that may be sent now stays sound. -/
theorem PeerInv.sound_of_genuine {c : Crypto} {x : RudpTransport} (h : PeerInv c x) {pkt : Bytes}
    (hp : Genuine c x pkt) : Sound c x pkt := by
  rcases hp with hp | ⟨iv, i, padlen, hiv, h1, h255, hpkt, hmax, hnum, hacks, hpay⟩
  · exact Or.inl hp
  · refine Or.inr ⟨iv, i, padlen, hiv, h1, h255, hpkt, hmax.le, hnum, ?_, ?_⟩
    · exact fun a ha => h.acks a (hacks a ha)
    · rcases hpay with hpay | hpay
      · exact Or.inl hpay
      · obtain ⟨e, he, hslot⟩ := List.mem_map.mp (h.window.window.subset hpay)
        exact Or.inr ⟨e, he, hslot⟩

/-! ## Transmitting and queueing -/

theorem Grows.of_sameRecv {x u : RudpTransport} (h : SameRecv x u)
    (hq : x.hist.queued <+: u.hist.queued) : Grows x u := by
  refine ⟨h.key, hq, h.last_eq.ge, ?_⟩
  intro a ha
  unfold RudpTransport.Has at ha ⊢
  rw [h.last_eq, h.recvSegments_eq]
  exact ha

theorem LinkInv.congr {x y u v : RudpTransport} (h : LinkInv x y) (hx : u.sendView = x.sendView)
    (hy : SameRecv y v) : LinkInv u v := by
  simp only [RudpTransport.sendView, Prod.mk.injEq] at hx
  obtain ⟨hwin, -, hqueued⟩ := hx
  refine ⟨?_, ?_, ?_, ?_⟩
  · rw [hy.recvSegments_eq, hqueued]
    exact h.buffer
  · rw [hy.last_eq, hqueued]
    exact h.last
  · rw [hy.delivered_eq, hy.last_eq, hqueued]
    exact h.delivered
  · rw [hy.last_eq, hy.recvSegments_eq, hqueued, hwin]
    exact h.kept

/-- The parts of `PeerInv` that never change. -/
theorem PeerInv.key_lengths {c : Crypto} {x u : RudpTransport} (h : PeerInv c x)
    (hkey : u.keyView = x.keyView) : u.se.keyInit.length = sha1Size ∧
      u.se.magicReq.length = sha1Size ∧ u.se.magicResp.length = sha1Size := by
  simp only [RudpTransport.keyView, Prod.mk.injEq] at hkey
  obtain ⟨hi, -, -, hq, hp, -⟩ := hkey
  rw [hi, hq, hp]
  exact ⟨h.keyInit, h.magicReq, h.magicResp⟩

theorem PairInv.transmits {c : Crypto} {x y u : RudpTransport} (h : PairInv c x y)
    (ht : Transmits c x u) : PairInv c u y := by
  have hkey := ht.same.key
  have hsend := ht.same.send
  simp only [RudpTransport.sendView, Prod.mk.injEq] at hsend
  have hgrows : Grows x u :=
    Grows.of_sameRecv ht.same.sameRecv (hsend.2.2 ▸ List.prefix_refl _)
  obtain ⟨hi, hq, hp⟩ := h.left.key_lengths hkey
  obtain ⟨pkts, hsent, hgen⟩ := ht.sent h.left.iv
  refine ⟨h.mirrored.congr hkey, ?_, h.right, ?_, ?_⟩
  · refine ⟨h.left.window.sameSend ht.same.send, hi, hq, hp, ht.iv h.left.iv, ?_, ?_, ?_⟩
    · rw [hsend.2.2]
      exact fun e he => (h.left.can e he).congr hkey.symm
    · exact fun a ha => hgrows.has a (h.left.acks a (ht.acks_subset a ha))
    · rw [hsent]
      intro p hp
      rcases List.mem_append.mp hp with hp | hp
      · exact (h.left.sent p hp).grows hgrows
      · exact (h.left.sound_of_genuine (hgen p hp)).grows hgrows
  · exact h.forth.congr ht.same.send (SameRecv.refl y)
  · exact h.back.congr rfl ht.same.sameRecv

theorem LinkInv.queues {x y u : RudpTransport} (h : LinkInv x y) (hq : Queues x u) :
    LinkInv u y := by
  obtain ⟨es, hqueued, hwin, -, -⟩ := hq.entries
  refine ⟨?_, ?_, ?_, ?_⟩
  · intro s hs
    obtain ⟨e, he, hslot⟩ := h.buffer s hs
    exact ⟨e, hqueued ▸ List.mem_append_left _ he, hslot⟩
  · rw [hqueued, List.length_append]
    exact h.last.trans (Nat.le_add_right _ _)
  · rw [hqueued, List.take_append_of_le_length h.last]
    exact h.delivered
  · rw [hqueued, hwin]
    intro e he
    rcases List.mem_append.mp he with he | he
    · rcases h.kept e he with hw | hw
      · exact Or.inl (List.mem_append_left _ hw)
      · exact Or.inr hw
    · exact Or.inl (List.mem_append_right _ (List.mem_map_of_mem he))

theorem WellBehaved.seq_lt {x : RudpTransport} (h : WellBehaved x) :
    ∀ e ∈ x.hist.queued, e.seq + 1 < 2 ^ 64 := by
  intro e he
  have := (h e he).1
  omega

/-- Queueing, together with whatever the step did to the receive side. -/
theorem PairInv.queues {c : Crypto} {x y u : RudpTransport} (h : PairInv c x y)
    (hq : Queues x u) (hgrows : Grows x u) (hback : LinkInv y u) (hu : WellBehaved u) :
    PairInv c u y := by
  obtain ⟨hi, hr, hp⟩ := h.left.key_lengths hq.key
  obtain ⟨es, hqueued, -, -, hcan⟩ := hq.entries
  have hwire := hq.wire
  simp only [RudpTransport.wireView, Prod.mk.injEq] at hwire
  obtain ⟨hacks, hiv, hsent⟩ := hwire
  refine ⟨h.mirrored.congr hq.key, ?_, h.right, h.forth.queues hq, hback⟩
  refine ⟨h.left.window.queues hq hu.seq_lt, hi, hr, hp, hiv ▸ h.left.iv, ?_, ?_, ?_⟩
  · rw [hqueued]
    intro e he
    rcases List.mem_append.mp he with he | he
    · exact (h.left.can e he).congr hq.key.symm
    · exact (hcan e he).congr hq.key.symm
  · rw [hacks]
    exact fun a ha => hgrows.has a (h.left.acks a ha)
  · rw [hsent]
    exact fun p hp => (h.left.sent p hp).grows hgrows

theorem Queues.queued_prefix {x u : RudpTransport} (h : Queues x u) :
    x.hist.queued <+: u.hist.queued := by
  obtain ⟨es, hqueued, -⟩ := h.entries
  exact hqueued ▸ List.prefix_append _ _

theorem PairInv.queues_sameRecv {c : Crypto} {x y u : RudpTransport} (h : PairInv c x y)
    (hq : Queues x u) (hr : SameRecv x u) (hu : WellBehaved u) : PairInv c u y :=
  h.queues hq (Grows.of_sameRecv hr hq.queued_prefix) (h.back.congr rfl hr) hu

/-! ## Draining -/

/-- The entry with number `k + 1` stands at position `k`. -/
theorem WindowInv.drop_eq_cons {x : RudpTransport} (h : WindowInv x) {e : Queued} {k : ℕ}
    (he : e ∈ x.hist.queued) (hseq : e.seq = k + 1) :
    x.hist.queued.drop k = e :: x.hist.queued.drop (k + 1) := by
  obtain ⟨j, hj, hje⟩ := List.getElem_of_mem he
  have hjseq : (x.hist.queued.map Queued.seq)[j]? = some e.seq := by
    rw [List.getElem?_map, List.getElem?_eq_getElem hj, hje]
    rfl
  rw [h.seqs, List.getElem?_range' hj, Option.some.injEq] at hjseq
  obtain rfl : j = k := by omega
  rw [List.drop_eq_getElem_cons hj, hje]

/-- Buffered segments with consecutive numbers are the next entries of the sender. -/
theorem WindowInv.consumed {x : RudpTransport} (h : WindowInv x) {f : RtSegment → Bytes}
    (segs : List RtSegment) (k : ℕ)
    (hseqs : segs.map RtSegment.seq = List.range' (k + 1) segs.length)
    (hmem : ∀ s ∈ segs, ∃ e ∈ x.hist.queued, e.slot = (s.seq, s.data) ∧ f s = e.appBytes)
    (hk : k ≤ x.hist.queued.length) :
    k + segs.length ≤ x.hist.queued.length ∧
      segs.flatMap f = ((x.hist.queued.drop k).take segs.length).flatMap Queued.appBytes := by
  induction segs generalizing k with
  | nil => simp [hk]
  | cons s segs ih =>
    rw [List.map_cons, List.length_cons, List.range'_succ, List.cons.injEq] at hseqs
    obtain ⟨e, he, hslot, hf⟩ := hmem s (by simp)
    simp only [Queued.slot, Prod.mk.injEq] at hslot
    have hdrop := h.drop_eq_cons he (hslot.1.trans hseqs.1)
    have hlen := congrArg List.length hdrop
    rw [List.length_cons, List.length_drop, List.length_drop] at hlen
    obtain ⟨hle, hflat⟩ := ih (k + 1) hseqs.2 (fun s hs => hmem s (by simp [hs])) (by omega)
    constructor
    · rw [List.length_cons]
      omega
    · rw [List.flatMap_cons, hdrop, List.length_cons, List.take_succ_cons, List.flatMap_cons, hf,
        hflat]

/-- Receiver and sender agree on what a segment contributes to the stream. -/
theorem appPart_eq_appBytes {c : Crypto} {x y : RudpTransport} (hm : Mirrored x y)
    (hy : PeerInv c y) (hwell : WellBehaved y) {e : Queued} (he : e ∈ y.hist.queued)
    {s : RtSegment} (hslot : e.slot = (s.seq, s.data)) : x.appPart s = e.appBytes := by
  simp only [Queued.slot, Prod.mk.injEq] at hslot
  have hiff : x.IsKeepalive s.data ↔ y.IsKeepalive e.payload := by
    rw [RudpTransport.IsKeepalive, RudpTransport.IsKeepalive, hm.req, hm.resp, hslot.2]
  have hcan := hy.can e he
  unfold RudpTransport.CanQueue at hcan
  unfold RudpTransport.appPart Queued.appBytes
  cases hkind : e.kind with
  | data =>
    rw [if_neg (hiff.not.mpr ((hwell e he).2 hkind))]
    exact hslot.2.symm
  | keepAlive =>
    rw [hkind] at hcan
    apply if_pos
    rw [hiff]
    refine ⟨?_, hcan⟩
    rcases hcan with hcan | hcan
    · rw [hcan]
      exact hy.magicReq
    · rw [hcan]
      exact hy.magicResp

theorem DrainSpec.grows {x u : RudpTransport} {e : DrainEnd} {m : ℕ} (h : DrainSpec x u e m)
    (hq : Queues x u) : Grows x u := by
  refine ⟨h.key, hq.queued_prefix, by rw [h.last]; omega, ?_⟩
  rintro a (ha | ⟨s, hs, rfl⟩)
  · exact Or.inl (by rw [h.last]; omega)
  · rw [← List.take_append_drop m x.se.recvSegments, List.mem_append] at hs
    rcases hs with hs | hs
    · left
      have hmem : s.seq ∈ (x.se.recvSegments.take m).map RtSegment.seq := List.mem_map_of_mem hs
      rw [h.seqs, List.mem_range'_1] at hmem
      rw [h.last]
      omega
    · right
      exact ⟨s, h.recv ▸ hs, rfl⟩

theorem LinkInv.drain {c : Crypto} {x y u : RudpTransport} (hy : LinkInv y x)
    (hm : Mirrored x y) (hpeer : PeerInv c y) (hwell : WellBehaved y) {e : DrainEnd} {m : ℕ}
    (h : DrainSpec x u e m) : LinkInv y u := by
  have hlen : (x.se.recvSegments.take m).length = m := List.length_take_of_le h.le
  have hseqs := h.seqs
  rw [← hlen] at hseqs
  obtain ⟨hle, hflat⟩ := hpeer.window.consumed (f := x.appPart) (x.se.recvSegments.take m)
    x.se.lastRecvCompleteSeq (by rw [hlen] at hseqs ⊢; exact hseqs)
    (fun s hs => by
      obtain ⟨e, he, hslot⟩ := hy.buffer s (List.mem_of_mem_take hs)
      exact ⟨e, he, hslot, appPart_eq_appBytes hm hpeer hwell he hslot⟩) hy.last
  rw [hlen] at hle hflat
  refine ⟨?_, ?_, ?_, ?_⟩
  · rw [h.recv]
    exact fun s hs => hy.buffer s (List.mem_of_mem_drop hs)
  · rw [h.last]
    exact hle
  · rw [h.delivered, h.last, hy.delivered, hflat, List.take_add, List.flatMap_append]
  · intro e he
    rcases hy.kept e he with hw | hw | ⟨s, hs, hslot⟩
    · exact Or.inl hw
    · exact Or.inr (Or.inl (by rw [h.last]; omega))
    · right
      rw [← List.take_append_drop m x.se.recvSegments, List.mem_append] at hs
      rcases hs with hs | hs
      · left
        have hmem : s.seq ∈ (x.se.recvSegments.take m).map RtSegment.seq :=
          List.mem_map_of_mem hs
        rw [h.seqs, List.mem_range'_1] at hmem
        have hseq : s.seq = e.seq := congrArg Prod.fst hslot
        rw [h.last]
        omega
      · exact Or.inr ⟨s, h.recv ▸ hs, hslot⟩

theorem PairInv.drain {c : Crypto} {x y : RudpTransport} (h : PairInv c x y)
    (hy : WellBehaved y) (hu : WellBehaved (drainRecvSegments x).1) :
    PairInv c (drainRecvSegments x).1 y := by
  have hpos : ∀ s ∈ x.se.recvSegments, 0 < s.seq ∧ s.seq < 2 ^ 64 := by
    intro s hs
    obtain ⟨e, he, hslot⟩ := h.back.buffer s hs
    simp only [Queued.slot, Prod.mk.injEq] at hslot
    have hb := h.right.window.seq_lt_next he
    have := hy.seq_lt e he
    omega
  have hlast : x.se.lastRecvCompleteSeq < 2 ^ 64 := by
    have hle := h.back.last
    by_contra hge
    have hmem : 2 ^ 64 ∈ y.hist.queued.map Queued.seq := by
      rw [h.right.window.seqs, List.mem_range'_1]
      omega
    obtain ⟨e, he, hseq⟩ := List.mem_map.mp hmem
    have := hy.seq_lt e he
    omega
  obtain ⟨m, hm⟩ := drainRecvSegments_spec x hpos hlast
  have hq := drainRecvSegments_queues x
  exact h.queues hq (hm.grows hq) (h.back.drain h.mirrored h.right hy hm) hu

/-! ## Interrupts -/

/-- Constants kept, and nothing taken back from the queue history. -/
structure Extends (x u : RudpTransport) : Prop where
  key : u.keyView = x.keyView
  queued : x.hist.queued <+: u.hist.queued

theorem Queues.extends {x u : RudpTransport} (h : Queues x u) : Extends x u :=
  ⟨h.key, h.queued_prefix⟩

theorem SameSegments.extends {x u : RudpTransport} (h : SameSegments x u) : Extends x u := by
  have hsend := h.send
  simp only [RudpTransport.sendView, Prod.mk.injEq] at hsend
  exact ⟨h.key, hsend.2.2 ▸ List.prefix_refl _⟩

theorem Extends.trans {x u v : RudpTransport} (h : Extends x u) (h' : Extends u v) :
    Extends x v := ⟨h'.key.trans h.key, h.queued.trans h'.queued⟩

theorem rtInterruptEstablished_extends (c : Crypto) (w : World) (now : ℕ) (x : RudpTransport) :
    Extends x (rtInterruptEstablished c w now x) := by
  unfold rtInterruptEstablished
  refine (drainRecvSegments_queues x).extends.trans ?_
  refine (rtPumpRecvToPair_sameViews c w _).sameSegments.extends.trans ?_
  refine (rtPumpPairToSend_sameSegments c w _).extends.trans ?_
  refine (rtSegmentSendFifo_queues _).extends.trans ?_
  refine (rtPeriodicKeepalive_queues w now _).extends.trans ?_
  refine (rtRetransmit_sameViews c w now _).sameSegments.extends.trans ?_
  exact (rtFlushAcks_sameViews c w _).sameSegments.extends

theorem rtInterrupt_extends (c : Crypto) (w : World) (now : ℕ) (x : RudpTransport) :
    Extends x (rtInterrupt c w now x) := by
  unfold rtInterrupt
  cases x.se.status with
  | connectSent => exact (rtInterruptConnecting_sameViews c w now x).sameSegments.extends
  | disconnected => exact (SameSegments.refl x).extends
  | established =>
    dsimp only
    split_ifs
    · refine Extends.trans ?_ (rtSetDisconnected_sameViews c w _ false).sameSegments.extends
      exact ⟨rfl, List.prefix_refl _⟩
    · exact rtInterruptEstablished_extends c w now x

theorem rtHandleUdpPacket_extends (c : Crypto) (w : World) (x : RudpTransport) (srcPort : ℕ)
    (d : Bytes) : Extends x (rtHandleUdpPacket c w x srcPort d) := by
  have h := rtHandleUdpPacket_shrinks c w x srcPort d
  exact ⟨h.key, h.queued ▸ List.prefix_refl _⟩

/-- What the parties are assumed to do is assumed of every earlier state too. -/
theorem WellBehaved.of_extends {x u : RudpTransport} (hu : WellBehaved u) (h : Extends x u) :
    WellBehaved x := by
  have hkey := h.key
  simp only [RudpTransport.keyView, Prod.mk.injEq] at hkey
  obtain ⟨-, -, -, hreq, hresp, -⟩ := hkey
  intro e he
  have := hu e (h.queued.subset he)
  unfold RudpTransport.IsKeepalive at this ⊢
  rw [hreq, hresp] at this
  exact this

theorem PairInv.interruptEstablished {c : Crypto} {x y : RudpTransport} (h : PairInv c x y)
    (w : World) (now : ℕ) (hy : WellBehaved y)
    (hu : WellBehaved (rtInterruptEstablished c w now x)) :
    PairInv c (rtInterruptEstablished c w now x) y := by
  unfold rtInterruptEstablished at hu ⊢
  dsimp only at hu ⊢
  obtain ⟨x1, hx1⟩ : ∃ x1, x1 = (drainRecvSegments x).1 := ⟨_, rfl⟩
  have h12 := rtPumpRecvToPair_transmits c w x1
  have h23 := rtPumpPairToSend_transmits c w (rtPumpRecvToPair c w x1)
  have h34 := rtSegmentSendFifo_queues (rtPumpPairToSend c w (rtPumpRecvToPair c w x1))
  rw [← hx1] at hu ⊢
  obtain ⟨x4, hx4⟩ : ∃ x4, x4 = rtSegmentSendFifo
      (rtPumpPairToSend c w (rtPumpRecvToPair c w x1)) := ⟨_, rfl⟩
  have hr34 := rtSegmentSendFifo_sameRecv (rtPumpPairToSend c w (rtPumpRecvToPair c w x1))
  rw [← hx4] at hu h34 hr34 ⊢
  have h45 := rtPeriodicKeepalive_queues w now x4
  have h67 := (rtRetransmit_transmits c w now (rtPeriodicKeepalive w now x4)).trans
    (rtFlushAcks_transmits c w _)
  have hu5 := hu.of_extends h67.same.extends
  have hu4 := hu5.of_extends h45.extends
  have hu1 := ((hu4.of_extends h34.extends).of_extends h23.same.extends).of_extends h12.same.extends
  have hp1 : PairInv c x1 y := by
    rw [hx1] at hu1 ⊢
    exact h.drain hy hu1
  have hp4 := ((hp1.transmits h12).transmits h23).queues_sameRecv h34 hr34 hu4
  have hp5 := hp4.queues_sameRecv h45 (rtPeriodicKeepalive_sameRecv w now x4) hu5
  exact hp5.transmits h67

theorem PairInv.interrupt {c : Crypto} {x y : RudpTransport} (h : PairInv c x y) (w : World)
    (now : ℕ) (hy : WellBehaved y) (hu : WellBehaved (rtInterrupt c w now x)) :
    PairInv c (rtInterrupt c w now x) y := by
  have htimeout : Transmits c x (rtSetDisconnected c w { x with errorCode := .timeout } false) := by
    refine Transmits.trans ?_ (rtSetDisconnected_transmits c w _ false)
    exact Transmits.of_silent ⟨rfl, rfl, rfl⟩ rfl
  unfold rtInterrupt at hu ⊢
  cases hstatus : x.se.status with
  | connectSent => exact h.transmits (rtInterruptConnecting_transmits c w now h.left.keyInit)
  | disconnected => exact h
  | established =>
    rw [hstatus] at hu
    dsimp only at hu ⊢
    split_ifs at hu ⊢ with hdead
    · exact h.transmits htimeout
    · exact h.interruptEstablished w now hy hu

/-! ## Deliveries -/

/-- What the peer `y` can have said in a segment. -/
structure FromPeer (y : RudpTransport) (i : SegmentInfo) : Prop where
  maxAck : i.maxAck ≤ y.se.lastRecvCompleteSeq
  acks : ∀ a ∈ i.acks, y.Has a
  payload : i.payload = [] ∨ ∃ e ∈ y.hist.queued, e.slot = (i.seq, i.payload)

theorem openPacket_take (c : Crypto) (key d : Bytes) :
    openPacket c key (d.take maxPacketSize) = openPacket c key d := by
  simp only [openPacket, List.take_take, min_self]

theorem PeerInv.payload_length {c : Crypto} {y : RudpTransport} (h : PeerInv c y) {e : Queued}
    (he : e ∈ y.hist.queued) : e.payload.length ≤ maxSegmentSize := by
  have hcan := h.can e he
  have hsha : sha1Size ≤ maxSegmentSize := by decide
  unfold RudpTransport.CanQueue at hcan
  cases hkind : e.kind with
  | data =>
    rw [hkind] at hcan
    exact hcan
  | keepAlive =>
    rw [hkind] at hcan
    rcases hcan with hcan | hcan
    · rw [hcan, h.magicReq]
      exact hsha
    · rw [hcan, h.magicResp]
      exact hsha

/-- Numbers lose nothing on the wire. -/
theorem FromPeer.truncate {x y : RudpTransport} (hy : WellBehaved y) (hx : WellBehaved x)
    (hlink : LinkInv x y) {i : SegmentInfo} (h : FromPeer y i) : FromPeer y i.truncate where
  maxAck := (Nat.mod_le _ _).trans h.maxAck
  acks a ha := by
    obtain ⟨b, hb, rfl⟩ := List.mem_map.mp ha
    rcases h.acks b hb with hle | ⟨s, hs, rfl⟩
    · exact Or.inl ((Nat.mod_le _ _).trans hle)
    · obtain ⟨e, he, hslot⟩ := hlink.buffer s hs
      simp only [Queued.slot, Prod.mk.injEq] at hslot
      have := hx.seq_lt e he
      exact Or.inr ⟨s, hs, (Nat.mod_eq_of_lt (by omega)).symm⟩
  payload := by
    rcases h.payload with hnil | ⟨e, he, hslot⟩
    · exact Or.inl hnil
    · refine Or.inr ⟨e, he, ?_⟩
      have hseq : e.seq = i.seq := congrArg Prod.fst hslot
      have := hy.seq_lt e he
      have hw : wrap64 i.seq = i.seq := Nat.mod_eq_of_lt (by omega)
      rw [hslot]
      simp only [SegmentInfo.truncate, hw]

theorem PairInv.opened {c : Crypto} {x y : RudpTransport} (h : PairInv c x y)
    (hx : WellBehaved x) (hy : WellBehaved y) {d : Bytes} (hauth : Authentic c x y d)
    {i : SegmentInfo} (hopen : (openPacket c x.se.keyRecv d).bind parseSegment = some i) :
    FromPeer y i := by
  obtain ⟨body, hbody, hparse⟩ := Option.bind_eq_some_iff.mp hopen
  have hsign : signOk c x.se.keyRecv (d.take maxPacketSize) := by
    by_contra hn
    simp only [openPacket, hn, not_false_eq_true, if_true] at hbody
    cases hbody
  rcases h.right.sent _ (hauth hsign) with hshort |
    ⟨iv, j, padlen, hiv, h1, h255, hpkt, hmax, hnum, hacks, hpay⟩
  · simp only [openPacket, hsign, not_true_eq_false, if_false, if_pos hshort] at hbody
    cases hbody
  · have hlen : j.payload.length ≤ maxSegmentSize := by
      rcases hpay with hnil | ⟨e, he, hslot⟩
      · rw [hnil]
        exact Nat.zero_le _
      · have hpayload : e.payload = j.payload := congrArg Prod.snd hslot
        rw [← hpayload]
        exact h.right.payload_length he
    have hfit : (segmentBody j padlen).length + sha1Size * 2 ≤ maxPacketSize := by
      rw [segmentBody_length]
      unfold maxPacketSize maxSegmentSize maxNumAck sha1Size at *
      omega
    rw [← openPacket_take, hpkt, ← h.mirrored.recv, openPacket_sealPacket c hiv hfit,
      Option.some.injEq] at hbody
    rw [← hbody, parseSegment_segmentBody j h1 h255 hnum, Option.some.injEq] at hparse
    rw [← hparse]
    have hfrom : FromPeer y j := ⟨hmax, hacks, hpay⟩
    exact hfrom.truncate hy hx h.forth

theorem WindowInv.eq_of_seq_eq {x : RudpTransport} (h : WindowInv x) {e f : Queued}
    (he : e ∈ x.hist.queued) (hf : f ∈ x.hist.queued) (hseq : e.seq = f.seq) : e = f := by
  have hnodup : (x.hist.queued.map Queued.seq).Nodup := by
    rw [h.seqs]
    exact List.nodup_range'
  exact List.inj_on_of_nodup_map hnodup he hf hseq

/-- Slots given up for acknowledged numbers have reached the peer. -/
theorem LinkInv.gaveUp {x y : RudpTransport} (h : LinkInv x y) (hwin : WindowInv x)
    {segs : List RtSegment} {p : ℕ → Prop} (hgave : GaveUp x.se.sendSegments segs p)
    (hp : ∀ n, p n → y.Has n) (yourTick myTick : ℕ) :
    LinkInv (x.withWindow segs yourTick myTick) y where
  buffer := h.buffer
  last := h.last
  delivered := h.delivered
  kept e he := by
    rcases h.kept e he with hw | hw
    · obtain ⟨s, hs, hslot⟩ := List.mem_map.mp hw
      have hseq : s.seq = e.seq := congrArg Prod.fst hslot
      rcases hgave.lost s hs with hin | hlost
      · exact Or.inl (List.mem_map.mpr ⟨s, hin, hslot⟩)
      · right
        rcases hp _ hlost with hle | ⟨r, hr, hrseq⟩
        · exact Or.inl (hseq ▸ hle)
        · obtain ⟨f, hf, hfslot⟩ := h.buffer r hr
          have hfseq : f.seq = r.seq := congrArg Prod.fst hfslot
          obtain rfl := hwin.eq_of_seq_eq he hf (by omega)
          exact Or.inr ⟨r, hr, hfslot.symm⟩
    · exact Or.inr hw

theorem PairInv.applyAcks {c : Crypto} {x y : RudpTransport} (h : PairInv c x y)
    {i : SegmentInfo} (hi : FromPeer y i) : PairInv c (rtApplyAcks x i) y := by
  obtain ⟨segs, yt, mt, heq, hgave⟩ := rtApplyAcks_eq x i
  have hhas : ∀ n, n ≤ i.maxAck ∨ n ∈ i.acks → y.Has n := by
    rintro n (hn | hn)
    · exact Or.inl (hn.trans hi.maxAck)
    · exact hi.acks n hn
  rw [heq]
  have hm : Mirrored (x.withWindow segs yt mt) y :=
    ⟨h.mirrored.send, h.mirrored.recv, h.mirrored.req, h.mirrored.resp⟩
  refine ⟨hm, ?_, h.right, h.forth.gaveUp h.left.window hgave hhas yt mt, ?_⟩
  · exact ⟨h.left.window.acked rfl rfl (hgave.sublist.map _), h.left.keyInit, h.left.magicReq,
      h.left.magicResp, h.left.iv, h.left.can, h.left.acks, h.left.sent⟩
  · exact h.back.congr rfl ⟨rfl, rfl⟩

theorem rtAddAck_acks (x : RudpTransport) (seq : ℕ) :
    ∀ a ∈ (rtAddAck x seq).se.replyAcks, a ∈ x.se.replyAcks ∨ a = seq := by
  unfold rtAddAck
  rw [RudpTransport.withSe_se]
  intro a ha
  split_ifs at ha
  · exact Or.inl ha
  · rcases List.mem_append.mp ha with ha | ha
    · exact Or.inl ha
    · exact Or.inr (List.mem_singleton.mp ha)
  · exact Or.inl ha

theorem rtAddAck_wire (x : RudpTransport) (seq : ℕ) :
    (rtAddAck x seq).se.nextIv = x.se.nextIv ∧ (rtAddAck x seq).hist.sent = x.hist.sent := by
  unfold rtAddAck
  rw [RudpTransport.withSe_se]
  split_ifs <;> exact ⟨rfl, rfl⟩

/-- Acknowledging what has been received. -/
theorem PairInv.addAck {c : Crypto} {x y : RudpTransport} (h : PairInv c x y) {seq : ℕ}
    (hseq : x.Has seq) : PairInv c (rtAddAck x seq) y := by
  have hsame := rtAddAck_sameViews x seq
  have hsend := hsame.send
  simp only [RudpTransport.sendView, Prod.mk.injEq] at hsend
  obtain ⟨hiv, hsent⟩ := rtAddAck_wire x seq
  have hgrows : Grows x (rtAddAck x seq) :=
    Grows.of_sameRecv hsame.sameRecv (hsend.2.2 ▸ List.prefix_refl _)
  obtain ⟨hi, hq, hp⟩ := h.left.key_lengths hsame.key
  refine ⟨h.mirrored.congr hsame.key, ?_, h.right, ?_, ?_⟩
  · refine ⟨h.left.window.sameSend hsame.send, hi, hq, hp, hiv ▸ h.left.iv, ?_, ?_, ?_⟩
    · rw [hsend.2.2]
      exact fun e he => (h.left.can e he).congr hsame.key.symm
    · intro a ha
      apply hgrows.has
      rcases rtAddAck_acks x seq a ha with ha | rfl
      · exact h.left.acks a ha
      · exact hseq
    · rw [hsent]
      exact fun p hp => (h.left.sent p hp).grows hgrows
  · exact h.forth.congr hsame.send (SameRecv.refl y)
  · exact h.back.congr rfl hsame.sameRecv

/-- A segment of the peer goes into the reorder buffer. -/
theorem PairInv.push {c : Crypto} {x y : RudpTransport} (h : PairInv c x y) {seq : ℕ}
    {payload : Bytes} (hmem : ∃ e ∈ y.hist.queued, e.slot = (seq, payload)) :
    PairInv c (x.withSe fun se =>
      { se with recvSegments := se.recvSegments ++ [{ seq := seq, data := payload }] }) y := by
  have hgrows : Grows x (x.withSe fun se =>
      { se with recvSegments := se.recvSegments ++ [{ seq := seq, data := payload }] }) := by
    refine ⟨rfl, List.prefix_refl _, le_rfl, ?_⟩
    rintro a (ha | ⟨s, hs, ha⟩)
    · exact Or.inl ha
    · exact Or.inr ⟨s, List.mem_append_left _ hs, ha⟩
  refine ⟨⟨h.mirrored.send, h.mirrored.recv, h.mirrored.req, h.mirrored.resp⟩, ?_, h.right,
    h.forth.congr rfl (SameRecv.refl y), ?_⟩
  · exact ⟨h.left.window.sameSend rfl, h.left.keyInit, h.left.magicReq, h.left.magicResp,
      h.left.iv, h.left.can, fun a ha => hgrows.has a (h.left.acks a ha),
      fun p hp => (h.left.sent p hp).grows hgrows⟩
  · refine ⟨?_, h.back.last, h.back.delivered, ?_⟩
    · intro s hs
      rcases List.mem_append.mp hs with hs | hs
      · exact h.back.buffer s hs
      · obtain rfl := List.mem_singleton.mp hs
        exact hmem
    · intro e he
      rcases h.back.kept e he with hw | hw | ⟨s, hs, hslot⟩
      · exact Or.inl hw
      · exact Or.inr (Or.inl hw)
      · exact Or.inr (Or.inr ⟨s, List.mem_append_left _ hs, hslot⟩)

theorem PairInv.recvPayload {c : Crypto} {x y : RudpTransport} (h : PairInv c x y) {seq : ℕ}
    {payload : Bytes} (hmem : ∃ e ∈ y.hist.queued, e.slot = (seq, payload)) :
    PairInv c (rtProcessRecvPayload x seq payload) y := by
  unfold rtProcessRecvPayload
  split_ifs with hfar hold hdup hfull
  · exact h
  · exact h.addAck (Or.inl hold)
  · exact h.addAck (Or.inr hdup)
  · exact h
  · exact (h.push hmem).addAck (Or.inr ⟨_, List.mem_append_right _ (List.mem_singleton_self _), rfl⟩)

theorem PairInv.applyPayload {c : Crypto} {x y : RudpTransport} (h : PairInv c x y) (w : World)
    (srcPort : ℕ) {i : SegmentInfo} (hi : FromPeer y i) :
    PairInv c (rtApplyPayload c w x srcPort i) y := by
  have hend : ∀ v, PairInv c v y → PairInv c
      ((rtEstablish v).withSe fun se => { se with yourPort := srcPort }) y := by
    intro v hv
    refine (hv.transmits (rtEstablish_transmits c v)).transmits ?_
    exact Transmits.of_silent ⟨rfl, rfl, rfl⟩ rfl
  unfold rtApplyPayload
  dsimp only
  split_ifs with h0 hdisc hbig hpos hpos
  · exact h
  · exact h.transmits (rtSetDisconnected_transmits c w x true)
  · cases hpos
  · exact hend x h
  · apply hend
    rcases hi.payload with hnil | hmem
    · rw [hnil] at hpos
      cases hpos
    · exact h.recvPayload hmem
  · exact hend x h

theorem PairInv.handleUdpPacket {c : Crypto} {x y : RudpTransport} (h : PairInv c x y)
    (w : World) (srcPort : ℕ) {d : Bytes} (hauth : Authentic c x y d) (hx : WellBehaved x)
    (hy : WellBehaved y) : PairInv c (rtHandleUdpPacket c w x srcPort d) y := by
  unfold rtHandleUdpPacket
  split_ifs
  · exact h
  · exact h
  · cases hopen : (openPacket c x.se.keyRecv d).bind parseSegment with
    | none => exact h
    | some i =>
      have hi := h.opened hx hy hauth hopen
      dsimp only [rtApplySegment]
      split_ifs
      · exact h
      · exact (h.applyAcks hi).applyPayload w srcPort hi

/-! ## Whole runs -/

theorem FreshPeer.inv {c : Crypto} {x : RudpTransport} (h : FreshPeer x) : PeerInv c x where
  window :=
    { seqs := by rw [h.queued]; rfl
      next := by rw [h.next, h.queued]; rfl
      window := by rw [RudpTransport.window, h.sendEmpty]; exact List.nil_sublist _ }
  keyInit := h.keyInit
  magicReq := h.magicReq
  magicResp := h.magicResp
  iv := h.iv
  can := by simp [h.queued]
  acks := by simp [h.acksEmpty]
  sent := by simp [h.sent]

theorem FreshPeer.link {x y : RudpTransport} (hx : FreshPeer x) (hy : FreshPeer y) :
    LinkInv x y where
  buffer := by simp [hy.recvEmpty]
  last := by simp [hy.last]
  delivered := by simp [hy.delivered, hy.last]
  kept := by simp [hx.queued]

/-- One step of either party or of the network keeps the invariant. -/
theorem peerStep_inv {c : Crypto} {s t : Peers} {ev : PeerEvent}
    (h : WellBehaved s.a → WellBehaved s.b → PairInv c s.a s.b)
    (hstep : peerStep c s ev = some t) :
    WellBehaved t.a → WellBehaved t.b → PairInv c t.a t.b := by
  intro ha hb
  cases ev with
  | interruptA w now =>
    obtain rfl := Option.some.inj hstep
    exact (h (ha.of_extends (rtInterrupt_extends c w now s.a)) hb).interrupt w now hb ha
  | interruptB w now =>
    obtain rfl := Option.some.inj hstep
    have hs := h ha (hb.of_extends (rtInterrupt_extends c w now s.b))
    exact (hs.symm.interrupt w now ha hb).symm
  | deliverA w srcPort d =>
    simp only [peerStep] at hstep
    split_ifs at hstep with hauth
    obtain rfl := Option.some.inj hstep
    have ha' := ha.of_extends (rtHandleUdpPacket_extends c w s.a srcPort d)
    exact (h ha' hb).handleUdpPacket w srcPort hauth ha' hb
  | deliverB w srcPort d =>
    simp only [peerStep] at hstep
    split_ifs at hstep with hauth
    obtain rfl := Option.some.inj hstep
    have hb' := hb.of_extends (rtHandleUdpPacket_extends c w s.b srcPort d)
    exact ((h ha hb').symm.handleUdpPacket w srcPort hauth hb' ha).symm

theorem PairInv.prefixSafe {c : Crypto} {x y : RudpTransport} (h : PairInv c x y) :
    PrefixSafe x y where
  order := by
    rw [h.left.window.seqs]
    exact List.pairwise_lt_range' 1
  delivered := by
    rw [h.forth.delivered, History.appStream]
    nth_rewrite 2 [← List.take_append_drop y.se.lastRecvCompleteSeq x.hist.queued]
    rw [List.flatMap_append]
    exact List.prefix_append _ _
  kept e he hout := (h.forth.kept e he).resolve_left hout

/-- A client that starts to connect, and its mirror image. -/
def samplePeers : Peers where
  a := rudpTransportStart .openssl .sample
  b := (rudpTransportStart .openssl .sample).withSe fun se =>
    { se with keySend := se.keyRecv, keyRecv := se.keySend }

theorem rudpTransportStart_fresh (c : Crypto) (i : ConnectInputs) :
    FreshPeer (rudpTransportStart c i) where
  next := rfl
  last := rfl
  sendEmpty := rfl
  recvEmpty := rfl
  acksEmpty := rfl
  queued := rfl
  delivered := rfl
  sent := rfl
  keyInit := i.keyInit_length
  magicReq := c.sha1_length _
  magicResp := c.sha1_length _
  iv := i.nextIv_length

/-- The 39 bytes the client sends first. -/
def sampleRequest : Bytes := List.replicate 20 1 ++ List.replicate 19 0

/-- The client sends its connection request, which arrives twice. -/
def sampleEvents : List PeerEvent :=
  [.interruptA .quiet 1000, .deliverB .quiet 5555 sampleRequest,
    .deliverB .quiet 5555 sampleRequest]

theorem sampleEvents_exec :
    ∃ t, exec (peerStep .openssl) samplePeers sampleEvents = some t ∧
      t.a.hist.queued = [] ∧ t.b.hist.queued = [] := by
  have hauth : ∀ y, Authentic .openssl y (rtInterrupt .openssl .quiet 1000 samplePeers.a)
      sampleRequest := by
    intro y _
    decide
  have hqueued := fun y => (rtHandleUdpPacket_shrinks .openssl .quiet y 5555 sampleRequest).queued
  refine ⟨⟨rtInterrupt .openssl .quiet 1000 samplePeers.a,
    rtHandleUdpPacket .openssl .quiet
      (rtHandleUdpPacket .openssl .quiet samplePeers.b 5555 sampleRequest) 5555 sampleRequest⟩,
    ?_, rfl, ?_⟩
  swap
  · rw [hqueued, hqueued]
    rfl
  simp only [sampleEvents, exec_cons, exec_nil, peerStep, Option.bind_some, if_pos (hauth _)]

end SoftEtherVpn.Rudp
