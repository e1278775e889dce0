import SoftEtherVpn.Rudp.Frames

/-!
# One drain pass over the reorder buffer

The loop of `rt_interrupt` compares slot `i` with the number `last + 1 + i`. A pass
therefore consumes the longest front part of the buffer whose numbers continue the
last consumed one, and stops at the first slot that does not.
-/

namespace SoftEtherVpn.Rudp

open Foundation

/-- The segment is one of the two keepalive payloads, which are not delivered. -/
def RudpTransport.IsKeepalive (t : RudpTransport) (data : Bytes) : Prop :=
  data.length = sha1Size ∧ (data = t.se.magicReq ∨ data = t.se.magicResp)

instance (t : RudpTransport) (data : Bytes) : Decidable (t.IsKeepalive data) :=
  inferInstanceAs (Decidable (_ ∧ _))

/-- The bytes a drained segment adds to the receive FIFO. -/
def RudpTransport.appPart (t : RudpTransport) (s : RtSegment) : Bytes :=
  if t.IsKeepalive s.data then [] else s.data

theorem appPart_congr {t u : RudpTransport} (h : u.keyView = t.keyView) (s : RtSegment) :
    u.appPart s = t.appPart s := by
  simp only [RudpTransport.keyView, Prod.mk.injEq] at h
  have hiff : u.IsKeepalive s.data ↔ t.IsKeepalive s.data := by
    simp only [RudpTransport.IsKeepalive, h]
  exact if_congr hiff rfl rfl

/-- A pass that consumed the first `m` buffered segments of `t`. -/
structure DrainSpec (t u : RudpTransport) (e : DrainEnd) (m : ℕ) : Prop where
  le : m ≤ t.se.recvSegments.length
  seqs : (t.se.recvSegments.take m).map RtSegment.seq =
    List.range' (t.se.lastRecvCompleteSeq + 1) m
  last : u.se.lastRecvCompleteSeq = t.se.lastRecvCompleteSeq + m
  delivered : u.hist.delivered =
    t.hist.delivered ++ (t.se.recvSegments.take m).flatMap t.appPart
  recv : u.se.recvSegments = t.se.recvSegments.drop m
  key : u.keyView = t.keyView
  stop : e = .fifoFull ∨
    ∀ s rest, u.se.recvSegments = s :: rest → s.seq ≠ u.se.lastRecvCompleteSeq + 1

/-- The same for the loop over the slots `segs` that are left. -/
structure LoopSpec (t : RudpTransport) (cur d : ℕ) (segs : List RtSegment)
    (r : RudpTransport × ℕ × DrainEnd) (m : ℕ) : Prop where
  le : m ≤ segs.length
  count : r.2.1 = d + m
  seqs : (segs.take m).map RtSegment.seq = List.range' (cur + 1) m
  last : r.1.se.lastRecvCompleteSeq = cur + m
  delivered : r.1.hist.delivered = t.hist.delivered ++ (segs.take m).flatMap t.appPart
  recv : r.1.se.recvSegments = t.se.recvSegments
  key : r.1.keyView = t.keyView
  stop : r.2.2 = .fifoFull ∨ ∀ s rest, segs.drop m = s :: rest → s.seq ≠ cur + m + 1

theorem LoopSpec.stopped {t : RudpTransport} {cur d : ℕ} {segs : List RtSegment} {e : DrainEnd}
    (hcur : t.se.lastRecvCompleteSeq = cur)
    (hstop : e = .fifoFull ∨ ∀ s rest, segs = s :: rest → s.seq ≠ cur + 1) :
    LoopSpec t cur d segs (t, d, e) 0 where
  le := Nat.zero_le _
  count := rfl
  seqs := rfl
  last := hcur
  delivered := by simp
  recv := rfl
  key := rfl
  stop := by simpa using hstop

/-- Consuming slot `s` in state `t`, which leads to `t'`, before the rest of the pass. -/
theorem LoopSpec.consume {t t' : RudpTransport} {cur d m : ℕ} {s : RtSegment}
    {rest : List RtSegment} {r : RudpTransport × ℕ × DrainEnd}
    (h : LoopSpec t' (cur + 1) (d + 1) rest r m) (hseq : s.seq = cur + 1)
    (hkey : t'.keyView = t.keyView) (hrecv : t'.se.recvSegments = t.se.recvSegments)
    (hdel : t'.hist.delivered = t.hist.delivered ++ t.appPart s) :
    LoopSpec t cur d (s :: rest) r (m + 1) where
  le := by simpa using h.le
  count := by rw [h.count]; omega
  seqs := by rw [List.take_succ_cons, List.map_cons, h.seqs, List.range'_succ, hseq]
  last := by rw [h.last]; omega
  delivered := by
    have happ : t'.appPart = t.appPart := funext fun s => appPart_congr hkey s
    rw [h.delivered, hdel, happ, List.take_succ_cons, List.flatMap_cons, List.append_assoc]
  recv := h.recv.trans hrecv
  key := h.key.trans hkey
  stop := by
    rcases h.stop with hf | hs
    · exact Or.inl hf
    · refine Or.inr ?_
      intro x xs hx
      rw [List.drop_succ_cons] at hx
      have := hs x xs hx
      omega

theorem drainLoop_spec (segs : List RtSegment) (hpos : ∀ s ∈ segs, 0 < s.seq ∧ s.seq < 2 ^ 64) :
    ∀ (t : RudpTransport) (cur d : ℕ), t.se.lastRecvCompleteSeq = cur → cur < 2 ^ 64 →
      ∃ m, LoopSpec t cur d segs (drainLoop t cur d segs) m := by
  induction segs with
  | nil =>
    intro t cur d hcur _
    exact ⟨0, LoopSpec.stopped hcur (Or.inr (by simp))⟩
  | cons s rest ih =>
    intro t cur d hcur hlt
    have ih := ih fun x hx => hpos x (by simp [hx])
    by_cases hseq : s.seq = wrap64 (cur + 1)
    · -- the number zero is never used, so the increment did not wrap
      have hs0 : 0 < s.seq := (hpos s (by simp)).1
      have hwrap : cur + 1 < 2 ^ 64 := by
        by_contra hge
        have : cur + 1 = 2 ^ 64 := by omega
        rw [hseq, wrap64, this, Nat.mod_self] at hs0
        exact hs0.ne rfl
      have hw : wrap64 (cur + 1) = cur + 1 := Nat.mod_eq_of_lt hwrap
      rw [hw] at hseq
      simp only [drainLoop, hw, hseq, ne_eq, not_true_eq_false, if_false]
      split_ifs with hreq hempty hresp
      · obtain ⟨m, hm⟩ := ih ((rtQueueSegment t .keepAlive t.se.magicResp).withSe
          fun se => { se with lastRecvCompleteSeq := cur + 1 }) (cur + 1) (d + 1) rfl hwrap
        have hsame := rtQueueSegment_sameRecv t .keepAlive t.se.magicResp
        have happ : t.appPart s = [] := if_pos ⟨hreq.1, Or.inl hreq.2⟩
        refine ⟨m + 1, hm.consume hseq hsame.key hsame.recvSegments_eq ?_⟩
        rw [happ, List.append_nil]
        exact hsame.delivered_eq
      · obtain ⟨m, hm⟩ := ih (t.withSe fun se => { se with lastRecvCompleteSeq := cur + 1 })
          (cur + 1) (d + 1) rfl hwrap
        have happ : t.appPart s = [] := if_pos ⟨hreq.1, Or.inl hreq.2⟩
        exact ⟨m + 1, hm.consume hseq rfl rfl (by simp [happ])⟩
      · obtain ⟨m, hm⟩ := ih (t.withSe fun se => { se with lastRecvCompleteSeq := cur + 1 })
          (cur + 1) (d + 1) rfl hwrap
        have happ : t.appPart s = [] := if_pos ⟨hresp.1, Or.inr hresp.2⟩
        exact ⟨m + 1, hm.consume hseq rfl rfl (by simp [happ])⟩
      · have happ : t.appPart s = s.data := if_neg (by
          rintro ⟨hl, h | h⟩
          · exact hreq ⟨hl, h⟩
          · exact hresp ⟨hl, h⟩)
        cases hwr : rtFifoWrite t.se.recvFifo s.data with
        | none => exact ⟨0, LoopSpec.stopped hcur (Or.inl rfl)⟩
        | some fifo =>
          obtain ⟨m, hm⟩ := ih (RudpTransport.withSe
            { t with
              se := { t.se with recvFifo := fifo }
              hist := { t.hist with delivered := t.hist.delivered ++ s.data } }
            fun se => { se with lastRecvCompleteSeq := cur + 1 }) (cur + 1) (d + 1) rfl hwrap
          exact ⟨m + 1, hm.consume hseq rfl rfl (by simp [happ])⟩
    · simp only [drainLoop, ne_eq, hseq, not_false_eq_true, if_true]
      refine ⟨0, LoopSpec.stopped hcur (Or.inr ?_)⟩
      intro x xs hx hx'
      obtain ⟨rfl, rfl⟩ := List.cons.inj hx
      have hs := (hpos s (by simp)).2
      apply hseq
      rw [wrap64, Nat.mod_eq_of_lt (by omega)]
      exact hx'

theorem drainRecvSegments_spec (t : RudpTransport)
    (hpos : ∀ s ∈ t.se.recvSegments, 0 < s.seq ∧ s.seq < 2 ^ 64)
    (hlast : t.se.lastRecvCompleteSeq < 2 ^ 64) :
    ∃ m, DrainSpec t (drainRecvSegments t).1 (drainRecvSegments t).2 m := by
  obtain ⟨m, hm⟩ := drainLoop_spec t.se.recvSegments hpos t _ 0 rfl hlast
  have hcount := hm.count
  rw [Nat.zero_add] at hcount
  have hrecv : (drainRecvSegments t).1.se.recvSegments = t.se.recvSegments.drop m := by
    simp only [drainRecvSegments, RudpTransport.withSe_se]
    rw [hm.recv, hcount]
  refine ⟨m, hm.le, hm.seqs, hm.last, hm.delivered, hrecv, hm.key, ?_⟩
  rcases hm.stop with hf | hs
  · exact Or.inl hf
  · refine Or.inr ?_
    intro s rest hs'
    have hlast' : (drainRecvSegments t).1.se.lastRecvCompleteSeq =
        t.se.lastRecvCompleteSeq + m := hm.last
    rw [hrecv] at hs'
    rw [hlast']
    exact hs s rest hs'

end SoftEtherVpn.Rudp
