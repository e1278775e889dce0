import SoftEtherVpn.Foundation.Runs
import SoftEtherVpn.Rudp.Drain

/-!
# Reassembly of the receive side

Segments of one stream arrive in any order and with duplicates, between the passes of
`rt_interrupt`. New segments are appended to the reorder buffer, so the buffer holds
them in the order of their first arrival; a pass only consumes from its front. The
stream therefore comes through as far as the first arrivals are in sequence order.
-/

namespace SoftEtherVpn.Rudp

open Foundation

/-- The data segments `1 .. count` of one stream. -/
structure SegmentSet where
  count : ℕ
  payload : ℕ → Bytes
  count_lt : count < 2 ^ 64
  payload_size : ∀ q, 1 ≤ q → q ≤ count → 1 ≤ (payload q).length ∧
    (payload q).length ≤ maxSegmentSize

/-- The payloads `1 .. k` in sequence order. -/
def SegmentSet.stream (segs : SegmentSet) (k : ℕ) : Bytes :=
  (List.range' 1 k).flatMap segs.payload

inductive RecvEvent
  | arrive (q : ℕ)
  | interrupt (w : World) (now : ℕ)

/-- Segments arrive while they are inside the receive window; an interrupt is a drain
pass of a live session that finds room in the receive FIFO. -/
def recvStep (c : Crypto) (segs : SegmentSet) (t : RudpTransport) :
    RecvEvent → Option RudpTransport
  | .arrive q =>
    if 1 ≤ q ∧ q ≤ segs.count ∧ q ≤ wrap64 (t.se.lastRecvCompleteSeq + maxNumAck) then
      some (rtProcessRecvPayload t q (segs.payload q))
    else none
  | .interrupt w now =>
    if t.se.status = .established ∧ now < wrap64 (t.se.latestRecvMyTick + timeoutMs) ∧
        (drainRecvSegments t).2 ≠ .fifoFull then
      some (rtInterrupt c w now t)
    else none

/-- A session that has not received anything yet. -/
structure FreshReceiver (segs : SegmentSet) (t : RudpTransport) : Prop where
  established : t.se.status = .established
  last : t.se.lastRecvCompleteSeq = 0
  empty : t.se.recvSegments = []
  delivered : t.hist.delivered = []
  plain : ∀ q, 1 ≤ q → q ≤ segs.count → ¬ t.IsKeepalive (segs.payload q)

/-- Segments `1 .. k` have all arrived and a drain pass has run since. -/
def Ready (evs : List RecvEvent) (k : ℕ) : Prop :=
  ∃ xs w now ys, evs = xs ++ .interrupt w now :: ys ∧
    ∀ q, 1 ≤ q → q ≤ k → .arrive q ∈ xs

/-- Payloads `1 .. k` have come out, in order and once. -/
def Reassembled (segs : SegmentSet) (t : RudpTransport) (k : ℕ) : Prop :=
  segs.stream k <+: t.hist.delivered ∧ k ≤ t.se.lastRecvCompleteSeq

/-- No segment overtook one of the segments `1 .. k`. -/
def ArrivedInOrder (evs : List RecvEvent) (k : ℕ) : Prop :=
  ∀ xs p ys, evs = xs ++ .arrive p :: ys →
    ∀ q, 1 ≤ q → q ≤ k → q < p → .arrive q ∈ xs

def noteArrival (acc : List ℕ) : RecvEvent → List ℕ
  | .arrive q => if q ∈ acc then acc else acc ++ [q]
  | .interrupt _ _ => acc

/-- The numbers that have arrived, in the order of their first arrival. -/
def firstArrivals (evs : List RecvEvent) : List ℕ := evs.foldl noteArrival []

theorem firstArrivals_arrive (evs : List RecvEvent) (q : ℕ) :
    firstArrivals (evs ++ [.arrive q]) =
      if q ∈ firstArrivals evs then firstArrivals evs else firstArrivals evs ++ [q] := by
  rw [firstArrivals, List.foldl_append]
  rfl

theorem firstArrivals_interrupt (evs : List RecvEvent) (w : World) (now : ℕ) :
    firstArrivals (evs ++ [.interrupt w now]) = firstArrivals evs := by
  rw [firstArrivals, List.foldl_append]
  rfl

theorem mem_firstArrivals {evs : List RecvEvent} {q : ℕ} :
    q ∈ firstArrivals evs ↔ .arrive q ∈ evs := by
  induction evs using List.reverseRecOn with
  | nil => simp [firstArrivals]
  | append_singleton evs ev ih =>
    cases ev with
    | interrupt w now =>
      rw [firstArrivals_interrupt, ih]
      simp
    | arrive p =>
      rw [firstArrivals_arrive]
      split_ifs with hp
      · rw [ih, List.mem_append, List.mem_singleton, RecvEvent.arrive.injEq]
        constructor
        · exact Or.inl
        · rintro (h | rfl)
          · exact h
          · exact ih.mp hp
      · simp [ih]

theorem firstArrivals_nodup (evs : List RecvEvent) : (firstArrivals evs).Nodup := by
  induction evs using List.reverseRecOn with
  | nil => simp [firstArrivals]
  | append_singleton evs ev ih =>
    cases ev with
    | interrupt w now =>
      rw [firstArrivals_interrupt]
      exact ih
    | arrive p =>
      rw [firstArrivals_arrive]
      split_ifs with hp
      · exact ih
      · exact ih.append (List.nodup_singleton p) (List.disjoint_singleton.mpr hp)

theorem firstArrivals_prefix (xs ys : List RecvEvent) :
    firstArrivals xs <+: firstArrivals (xs ++ ys) := by
  induction ys using List.reverseRecOn with
  | nil => simp
  | append_singleton ys ev ih =>
    rw [← List.append_assoc]
    cases ev with
    | interrupt w now => rwa [firstArrivals_interrupt]
    | arrive p =>
      rw [firstArrivals_arrive]
      split_ifs
      · exact ih
      · exact ih.trans (List.prefix_append _ _)

/-- What had arrived just before the first arrival of `p`. -/
theorem exists_firstArrival {evs : List RecvEvent} {front back : List ℕ} {p : ℕ}
    (h : firstArrivals evs = front ++ p :: back) :
    ∃ xs ys, evs = xs ++ .arrive p :: ys ∧ firstArrivals xs = front := by
  induction evs using List.reverseRecOn generalizing back with
  | nil => simp [firstArrivals] at h
  | append_singleton evs ev ih =>
    have extend : ∀ back, firstArrivals evs = front ++ p :: back →
        ∃ xs ys, evs ++ [ev] = xs ++ .arrive p :: ys ∧ firstArrivals xs = front := by
      intro back hback
      obtain ⟨xs, ys, rfl, hxs⟩ := ih hback
      exact ⟨xs, ys ++ [ev], by simp, hxs⟩
    cases ev with
    | interrupt w now =>
      rw [firstArrivals_interrupt] at h
      exact extend back h
    | arrive q =>
      rw [firstArrivals_arrive] at h
      split_ifs at h with hq
      · exact extend back h
      · rcases List.eq_nil_or_concat back with rfl | ⟨back', b, rfl⟩
        · obtain ⟨hfront, hqp⟩ := List.append_inj' h rfl
          obtain rfl : q = p := by simpa using hqp
          exact ⟨evs, [], rfl, hfront⟩
        · rw [List.concat_eq_append, ← List.cons_append, ← List.append_assoc] at h
          exact extend back' (List.append_inj' h rfl).1

/-! ## The receive side along a run -/

/-- The state of the receive side after the events `evs`. -/
structure ReceiveInv (segs : SegmentSet) (t₀ : RudpTransport) (evs : List RecvEvent)
    (t : RudpTransport) : Prop where
  key : t.keyView = t₀.keyView
  arrivals : firstArrivals evs =
    List.range' 1 t.se.lastRecvCompleteSeq ++ t.se.recvSegments.map RtSegment.seq
  bounds : ∀ q ∈ firstArrivals evs, 1 ≤ q ∧ q ≤ segs.count
  window : ∀ s ∈ t.se.recvSegments, s.seq ≤ t.se.lastRecvCompleteSeq + maxNumAck
  payload : ∀ s ∈ t.se.recvSegments, s.data = segs.payload s.seq
  delivered : t.hist.delivered = segs.stream t.se.lastRecvCompleteSeq

namespace ReceiveInv

variable {segs : SegmentSet} {t₀ t u : RudpTransport} {evs : List RecvEvent}

theorem start (h : FreshReceiver segs t) : ReceiveInv segs t [] t where
  key := rfl
  arrivals := by simp [firstArrivals, h.last, h.empty]
  bounds := by simp [firstArrivals]
  window := by simp [h.empty]
  payload := by simp [h.empty]
  delivered := by simp [h.delivered, h.last, SegmentSet.stream]

theorem last_le (h : ReceiveInv segs t₀ evs t) : t.se.lastRecvCompleteSeq ≤ segs.count := by
  by_contra hgt
  have hmem : t.se.lastRecvCompleteSeq ∈ firstArrivals evs := by
    rw [h.arrivals, List.mem_append, List.mem_range'_1]
    exact Or.inl (by omega)
  exact hgt (h.bounds _ hmem).2

theorem seq_bounds (h : ReceiveInv segs t₀ evs t) {s : RtSegment}
    (hs : s ∈ t.se.recvSegments) : 1 ≤ s.seq ∧ s.seq ≤ segs.count := by
  apply h.bounds
  rw [h.arrivals, List.mem_append]
  exact Or.inr (List.mem_map_of_mem hs)

theorem last_lt_seq (h : ReceiveInv segs t₀ evs t) {s : RtSegment}
    (hs : s ∈ t.se.recvSegments) : t.se.lastRecvCompleteSeq < s.seq := by
  have hnodup := firstArrivals_nodup evs
  rw [h.arrivals] at hnodup
  by_contra hle
  have hmem : s.seq ∈ List.range' 1 t.se.lastRecvCompleteSeq := by
    rw [List.mem_range'_1]
    have := (h.seq_bounds hs).1
    omega
  exact (List.nodup_append.mp hnodup).2.2 _ hmem _ (List.mem_map_of_mem hs) rfl

/-- The window bounds the buffer: a new segment inside it always finds a free slot. -/
theorem buffer_lt (h : ReceiveInv segs t₀ evs t) {q : ℕ}
    (hlast : t.se.lastRecvCompleteSeq < q) (hwin : q ≤ t.se.lastRecvCompleteSeq + maxNumAck)
    (hnew : ∀ s ∈ t.se.recvSegments, s.seq ≠ q) :
    t.se.recvSegments.length < maxNumAck := by
  have hnodup := firstArrivals_nodup evs
  rw [h.arrivals] at hnodup
  have hseqs : (t.se.recvSegments.map RtSegment.seq).Nodup := (List.nodup_append.mp hnodup).2.1
  have hsub : (t.se.recvSegments.map RtSegment.seq).toFinset ⊆
      (Finset.Ioc t.se.lastRecvCompleteSeq (t.se.lastRecvCompleteSeq + maxNumAck)).erase q := by
    intro x hx
    rw [List.mem_toFinset, List.mem_map] at hx
    obtain ⟨s, hs, rfl⟩ := hx
    rw [Finset.mem_erase, Finset.mem_Ioc]
    exact ⟨hnew s hs, h.last_lt_seq hs, h.window s hs⟩
  have hcard := Finset.card_le_card hsub
  rw [List.toFinset_card_of_nodup hseqs, List.length_map,
    Finset.card_erase_of_mem (Finset.mem_Ioc.mpr ⟨hlast, hwin⟩), Nat.card_Ioc] at hcard
  unfold maxNumAck at hcard ⊢
  omega

end ReceiveInv

namespace ReceiveInv

variable {segs : SegmentSet} {t₀ t u : RudpTransport} {evs : List RecvEvent}

/-- Nothing the receive side looks at has changed. -/
theorem of_sameRecv {evs' : List RecvEvent} (h : ReceiveInv segs t₀ evs t) (hu : SameRecv t u)
    (hevs : firstArrivals evs' = firstArrivals evs) : ReceiveInv segs t₀ evs' u := by
  have hbuf := hu.recvSegments_eq
  have hlast := hu.last_eq
  refine ⟨hu.key.trans h.key, ?_, ?_, ?_, ?_, ?_⟩
  · rw [hevs, hbuf, hlast]
    exact h.arrivals
  · rw [hevs]
    exact h.bounds
  · rw [hbuf, hlast]
    exact h.window
  · rw [hbuf]
    exact h.payload
  · rw [hu.delivered_eq, hlast]
    exact h.delivered

/-- A segment that is neither consumed nor buffered goes to the end of the buffer. -/
theorem push (h : ReceiveInv segs t₀ evs t) {q : ℕ} (hq : 1 ≤ q ∧ q ≤ segs.count)
    (hlast : t.se.lastRecvCompleteSeq < q) (hwin : q ≤ t.se.lastRecvCompleteSeq + maxNumAck)
    (hnew : ∀ s ∈ t.se.recvSegments, s.seq ≠ q) :
    ReceiveInv segs t₀ (evs ++ [.arrive q]) (t.withSe fun se =>
      { se with recvSegments := se.recvSegments ++ [{ seq := q, data := segs.payload q }] }) := by
  have hfresh : q ∉ firstArrivals evs := by
    rw [h.arrivals, List.mem_append, List.mem_range'_1, List.mem_map]
    rintro (hle | ⟨s, hs, hsq⟩)
    · omega
    · exact hnew s hs hsq
  have harr : firstArrivals (evs ++ [.arrive q]) = firstArrivals evs ++ [q] := by
    rw [firstArrivals_arrive, if_neg hfresh]
  refine ⟨h.key, ?_, ?_, ?_, ?_, h.delivered⟩
  · rw [harr, h.arrivals]
    simp
  · rw [harr]
    intro x hx
    rcases List.mem_append.mp hx with hx | hx
    · exact h.bounds x hx
    · obtain rfl := List.mem_singleton.mp hx
      exact hq
  · intro s hs
    rcases List.mem_append.mp hs with hs | hs
    · exact h.window s hs
    · obtain rfl := List.mem_singleton.mp hs
      exact hwin
  · intro s hs
    rcases List.mem_append.mp hs with hs | hs
    · exact h.payload s hs
    · obtain rfl := List.mem_singleton.mp hs
      rfl

theorem arrive (h : ReceiveInv segs t₀ evs t) {q : ℕ} (hq : 1 ≤ q ∧ q ≤ segs.count)
    (hwin : q ≤ wrap64 (t.se.lastRecvCompleteSeq + maxNumAck)) :
    ReceiveInv segs t₀ (evs ++ [.arrive q]) (rtProcessRecvPayload t q (segs.payload q)) := by
  have hwin' : q ≤ t.se.lastRecvCompleteSeq + maxNumAck := hwin.trans (Nat.mod_le _ _)
  have hack : ∀ v, ReceiveInv segs t₀ (evs ++ [.arrive q]) v →
      ReceiveInv segs t₀ (evs ++ [.arrive q]) (rtAddAck v q) :=
    fun v hv => hv.of_sameRecv (rtAddAck_sameViews v q).sameRecv rfl
  have hdup : q ∈ firstArrivals evs → ReceiveInv segs t₀ (evs ++ [.arrive q]) t := by
    intro hmem
    apply h.of_sameRecv (SameRecv.refl t)
    rw [firstArrivals_arrive, if_pos hmem]
  unfold rtProcessRecvPayload
  rw [if_neg (by omega)]
  split_ifs with hle hbuf hfull
  · apply hack
    apply hdup
    rw [h.arrivals, List.mem_append, List.mem_range'_1]
    exact Or.inl (by omega)
  · apply hack
    apply hdup
    rw [h.arrivals, List.mem_append, List.mem_map]
    exact Or.inr hbuf
  · have hlt := h.buffer_lt (by omega) hwin' fun s hs hsq => hbuf ⟨s, hs, hsq⟩
    omega
  · apply hack
    exact h.push hq (by omega) hwin' fun s hs hsq => hbuf ⟨s, hs, hsq⟩

/-- The payloads of consecutive numbers continue the stream. -/
theorem stream_add (segs : SegmentSet) (k m : ℕ) :
    segs.stream (k + m) = segs.stream k ++ (List.range' (k + 1) m).flatMap segs.payload := by
  rw [SegmentSet.stream, SegmentSet.stream, ← List.flatMap_append, Nat.add_comm k 1,
    List.range'_append_1]

theorem drain (h : ReceiveInv segs t₀ evs t) (hfresh : FreshReceiver segs t₀) {e : DrainEnd}
    {m : ℕ} (hm : DrainSpec t u e m) : ReceiveInv segs t₀ evs u := by
  have hmap : ∀ s ∈ t.se.recvSegments, t.appPart s = segs.payload s.seq := by
    intro s hs
    have hb := h.seq_bounds hs
    rw [appPart_congr h.key, RudpTransport.appPart, h.payload s hs, if_neg]
    exact hfresh.plain _ hb.1 hb.2
  have hsub : ∀ s ∈ u.se.recvSegments, s ∈ t.se.recvSegments := by
    rw [hm.recv]
    exact fun s hs => List.mem_of_mem_drop hs
  refine ⟨hm.key.trans h.key, ?_, h.bounds, ?_, fun s hs => h.payload s (hsub s hs), ?_⟩
  · rw [h.arrivals, hm.last, hm.recv, ← List.range'_append_1]
    rw [List.append_assoc, Nat.add_comm 1, ← hm.seqs, ← List.map_append, List.take_append_drop]
  · intro s hs
    have := h.window s (hsub s hs)
    rw [hm.last]
    omega
  · rw [hm.delivered, hm.last, stream_add, h.delivered, ← hm.seqs, List.flatMap_map]
    congr 1
    exact List.flatMap_congr fun s hs => hmap s (List.mem_of_mem_take hs)

/-- A pass of a live session leaves no next segment at the front of the buffer. -/
theorem interrupt (h : ReceiveInv segs t₀ evs t) (hfresh : FreshReceiver segs t₀) (c : Crypto)
    (w : World) {now : ℕ} (hstatus : t.se.status = .established)
    (hlive : now < wrap64 (t.se.latestRecvMyTick + timeoutMs))
    (hroom : (drainRecvSegments t).2 ≠ .fifoFull) :
    let u := rtInterrupt c w now t
    ReceiveInv segs t₀ (evs ++ [.interrupt w now]) u ∧
      t.se.lastRecvCompleteSeq ≤ u.se.lastRecvCompleteSeq ∧
      ∀ s rest, u.se.recvSegments = s :: rest → s.seq ≠ u.se.lastRecvCompleteSeq + 1 := by
  have hpos : ∀ s ∈ t.se.recvSegments, 0 < s.seq ∧ s.seq < 2 ^ 64 := by
    intro s hs
    have hb := h.seq_bounds hs
    have := segs.count_lt
    omega
  have hlast : t.se.lastRecvCompleteSeq < 2 ^ 64 := h.last_le.trans_lt segs.count_lt
  obtain ⟨m, hm⟩ := drainRecvSegments_spec t hpos hlast
  have hstop := hm.stop.resolve_left hroom
  have hrest := rtInterrupt_sameRecv c w hstatus hlive
  refine ⟨(h.drain hfresh hm).of_sameRecv hrest (firstArrivals_interrupt evs w now), ?_, ?_⟩
  · rw [hrest.last_eq, hm.last]
    omega
  · rw [hrest.last_eq, hrest.recvSegments_eq]
    exact hstop

end ReceiveInv

variable {c : Crypto} {segs : SegmentSet} {t₀ t u : RudpTransport} {evs : List RecvEvent}

theorem rtProcessRecvPayload_last (t : RudpTransport) (q : ℕ) (data : Bytes) :
    (rtProcessRecvPayload t q data).se.lastRecvCompleteSeq = t.se.lastRecvCompleteSeq := by
  have hack : ∀ v : RudpTransport,
      (rtAddAck v q).se.lastRecvCompleteSeq = v.se.lastRecvCompleteSeq :=
    fun v => (rtAddAck_sameViews v q).sameRecv.last_eq
  unfold rtProcessRecvPayload
  split_ifs
  · rfl
  · exact hack t
  · exact hack t
  · rfl
  · exact hack _

/-- One event keeps the invariant, and no number is taken back. -/
theorem recvStep_inv (hfresh : FreshReceiver segs t₀) {ev : RecvEvent}
    (h : ReceiveInv segs t₀ evs t) (hstep : recvStep c segs t ev = some u) :
    ReceiveInv segs t₀ (evs ++ [ev]) u ∧
      t.se.lastRecvCompleteSeq ≤ u.se.lastRecvCompleteSeq := by
  cases ev with
  | arrive q =>
    simp only [recvStep] at hstep
    split_ifs at hstep with hq
    obtain rfl := Option.some.inj hstep
    exact ⟨h.arrive ⟨hq.1, hq.2.1⟩ hq.2.2, (rtProcessRecvPayload_last t q _).ge⟩
  | interrupt w now =>
    simp only [recvStep] at hstep
    split_ifs at hstep with hq
    obtain rfl := Option.some.inj hstep
    have := h.interrupt hfresh c w hq.1 hq.2.1 hq.2.2
    exact ⟨this.1, this.2.1⟩

theorem recvRun_inv (hfresh : FreshReceiver segs t₀)
    (hrun : exec (recvStep c segs) t₀ evs = some t) : ReceiveInv segs t₀ evs t :=
  exec_trace_invariant (I := ReceiveInv segs t₀)
    (fun _ _ _ _ h hstep => (recvStep_inv hfresh h hstep).1) (ReceiveInv.start hfresh) hrun

theorem recvRun_last_mono {evs' : List RecvEvent} (hfresh : FreshReceiver segs t₀)
    (h : ReceiveInv segs t₀ evs t) (hrun : exec (recvStep c segs) t evs' = some u) :
    t.se.lastRecvCompleteSeq ≤ u.se.lastRecvCompleteSeq := by
  have hboth : ReceiveInv segs t₀ (evs ++ evs') u ∧
      t.se.lastRecvCompleteSeq ≤ u.se.lastRecvCompleteSeq := by
    refine exec_trace_invariant (I := fun as v => ReceiveInv segs t₀ (evs ++ as) v ∧
      t.se.lastRecvCompleteSeq ≤ v.se.lastRecvCompleteSeq) ?_ ?_ hrun
    · intro as v a v' hv hstep
      have hnext := recvStep_inv hfresh hv.1 hstep
      rw [← List.append_assoc]
      exact ⟨hnext.1, hv.2.trans hnext.2⟩
    · rw [List.append_nil]
      exact ⟨h, le_rfl⟩
  exact hboth.2

/-- What is in step at a run's end is what has been consumed. -/
theorem ReceiveInv.reassembled_iff (h : ReceiveInv segs t₀ evs t) (k : ℕ) :
    Reassembled segs t k ↔ k ≤ t.se.lastRecvCompleteSeq := by
  constructor
  · exact And.right
  · intro hk
    refine ⟨?_, hk⟩
    obtain ⟨m, hm⟩ := Nat.exists_eq_add_of_le hk
    rw [h.delivered, hm, ReceiveInv.stream_add]
    exact List.prefix_append _ _

/-- Consumed numbers were not overtaken. -/
theorem ReceiveInv.arrivedInOrder (h : ReceiveInv segs t₀ evs t) {k : ℕ}
    (hk : k ≤ t.se.lastRecvCompleteSeq) : ArrivedInOrder evs k := by
  intro xs p ys hevs q hq1 hqk hqp
  have hpre : firstArrivals (xs ++ [.arrive p]) <+: firstArrivals evs := by
    rw [hevs, show xs ++ RecvEvent.arrive p :: ys = (xs ++ [.arrive p]) ++ ys by simp]
    exact firstArrivals_prefix _ _
  rw [h.arrivals] at hpre
  have hp : p ∈ firstArrivals (xs ++ [.arrive p]) := mem_firstArrivals.mpr (by simp)
  -- a front part of `1 .. last, …` that holds `p` reaches beyond `q`
  have hq : q ∈ firstArrivals (xs ++ [.arrive p]) := by
    obtain ⟨n, hn⟩ : ∃ n, firstArrivals (xs ++ [.arrive p]) =
        (List.range' 1 t.se.lastRecvCompleteSeq ++ t.se.recvSegments.map RtSegment.seq).take n :=
      ⟨_, List.prefix_iff_eq_take.mp hpre⟩
    rw [hn] at hp ⊢
    rcases Nat.le_total n t.se.lastRecvCompleteSeq with hle | hge
    · rw [List.take_append_of_le_length (by simpa using hle),
        List.take_range'_of_length_ge hle, List.mem_range'_1] at hp ⊢
      omega
    · rw [List.take_append, List.mem_append, List.take_range'_of_length_le hge,
        List.mem_range'_1]
      exact Or.inl (by omega)
  rw [mem_firstArrivals, List.mem_append, List.mem_singleton, RecvEvent.arrive.injEq] at hq
  rcases hq with hq | hq
  · exact hq
  · omega

/-- Right after a drain pass, everything that arrived in order has been consumed. -/
theorem ReceiveInv.le_last_of_arrivedInOrder (h : ReceiveInv segs t₀ evs t) {k : ℕ}
    (hstop : ∀ s rest, t.se.recvSegments = s :: rest → s.seq ≠ t.se.lastRecvCompleteSeq + 1)
    (hall : ∀ q, 1 ≤ q → q ≤ k → .arrive q ∈ evs) (hord : ArrivedInOrder evs k) :
    k ≤ t.se.lastRecvCompleteSeq := by
  by_contra hlt
  have hnext : t.se.lastRecvCompleteSeq + 1 ∈ firstArrivals evs :=
    mem_firstArrivals.mpr (hall _ (by omega) (by omega))
  cases hbuf : t.se.recvSegments with
  | nil =>
    rw [h.arrivals, hbuf, List.map_nil, List.append_nil, List.mem_range'_1] at hnext
    omega
  | cons s rest =>
    have hs : s ∈ t.se.recvSegments := by simp [hbuf]
    have hgt := h.last_lt_seq hs
    have hne := hstop s rest hbuf
    have harr := h.arrivals
    rw [hbuf, List.map_cons] at harr
    obtain ⟨xs, ys, hevs, hxs⟩ := exists_firstArrival harr
    have hmem := mem_firstArrivals.mpr
      (hord xs s.seq ys hevs (t.se.lastRecvCompleteSeq + 1) (by omega) (by omega) (by omega))
    rw [hxs, List.mem_range'_1] at hmem
    omega

theorem ArrivedInOrder.of_append {xs ys : List RecvEvent} {k : ℕ}
    (h : ArrivedInOrder (xs ++ ys) k) : ArrivedInOrder xs k := by
  intro as p bs hxs
  exact h as p (bs ++ ys) (by simp [hxs])

/-- Reassembly: once segments `1 .. k` have arrived and a drain pass has run, they have
come out exactly when none of them was overtaken. -/
theorem reassembled_iff_arrivedInOrder (c : Crypto) (segs : SegmentSet) (t₀ t : RudpTransport)
    (evs : List RecvEvent) (hfresh : FreshReceiver segs t₀)
    (hrun : exec (recvStep c segs) t₀ evs = some t) (k : ℕ) (hready : Ready evs k) :
    Reassembled segs t k ↔ ArrivedInOrder evs k := by
  have hinv := recvRun_inv hfresh hrun
  rw [hinv.reassembled_iff]
  constructor
  · exact hinv.arrivedInOrder
  · intro hord
    obtain ⟨xs, w, now, ys, rfl, hall⟩ := hready
    obtain ⟨v, hv, hrun⟩ := exec_append_eq_some.mp hrun
    obtain ⟨v', hstep, hrest⟩ := exec_cons_eq_some.mp hrun
    have hxs := recvRun_inv hfresh hv
    simp only [recvStep] at hstep
    split_ifs at hstep with hq
    obtain rfl := Option.some.inj hstep
    obtain ⟨hafter, -, hstop⟩ := hxs.interrupt hfresh c w hq.1 hq.2.1 hq.2.2
    have hsplit : ArrivedInOrder ((xs ++ [.interrupt w now]) ++ ys) k := by simpa using hord
    have hord' : ArrivedInOrder (xs ++ [.interrupt w now]) k := hsplit.of_append
    have hall' : ∀ q, 1 ≤ q → q ≤ k → RecvEvent.arrive q ∈ xs ++ [.interrupt w now] :=
      fun q h1 hk => List.mem_append_left _ (hall q h1 hk)
    exact (hafter.le_last_of_arrivedInOrder hstop hall' hord').trans
      (recvRun_last_mono hfresh hafter hrest)

/-- Two segments of one byte each. -/
def SegmentSet.pair : SegmentSet where
  count := 2
  payload q := [UInt8.ofNat q]
  count_lt := by decide
  payload_size _ _ _ := by simp [maxSegmentSize]

theorem sampleSession_fresh : FreshReceiver .pair sampleSession where
  established := rfl
  last := rfl
  empty := rfl
  delivered := rfl
  plain _ _ _ h := absurd h.1 (by simp [SegmentSet.pair, sha1Size])

/-- Both segments arrive in order and a pass runs: they come out. -/
theorem reassembled_pair_in_order :
    ∃ t, exec (recvStep .openssl .pair) sampleSession
        [.arrive 1, .arrive 2, .interrupt .quiet 1000] = some t ∧ Reassembled .pair t 2 := by
  refine ⟨_, rfl, ?_⟩
  refine (reassembled_iff_arrivedInOrder .openssl .pair sampleSession _
    [.arrive 1, .arrive 2, .interrupt .quiet 1000] sampleSession_fresh rfl 2 ?_).mpr ?_
  · refine ⟨[.arrive 1, .arrive 2], .quiet, 1000, [], rfl, ?_⟩
    intro q h1 h2
    interval_cases q <;> simp
  · refine (recvRun_inv (c := .openssl) sampleSession_fresh rfl).arrivedInOrder ?_
    rw [(rtInterrupt_sameRecv _ _ rfl (by decide)).last_eq]
    decide

/-- Segment 2 arrives before segment 1. Both are there when the pass runs, and nothing
comes out. -/
theorem overtaken_pair_blocks :
    ∃ t, exec (recvStep .openssl .pair) sampleSession
        [.arrive 2, .arrive 1, .interrupt .quiet 1000] = some t ∧
      Ready [.arrive 2, .arrive 1, .interrupt .quiet 1000] 2 ∧ ¬ Reassembled .pair t 2 := by
  refine ⟨_, rfl, ?_, ?_⟩
  · refine ⟨[.arrive 2, .arrive 1], .quiet, 1000, [], rfl, ?_⟩
    intro q h1 h2
    interval_cases q <;> simp
  · intro h
    have hlast := h.2
    rw [(rtInterrupt_sameRecv _ _ rfl (by decide)).last_eq] at hlast
    exact absurd hlast (by decide)

end SoftEtherVpn.Rudp
