import SoftEtherVpn.UdpAccel.Budget

/-!
# Gaps of the peer's clock

`rudp_process_inner` counts a gap when the tick of a packet is far above the tick of the packet
before it. That packet need not be the newest one: late packets are accepted for thirty seconds,
and the first packet after a late one can be counted without a jump of the peer's clock.
-/

namespace SoftEtherVpn.UdpAccel

open Foundation Rudp

/-- A decrypted packet, its sender, and the clock when it arrives. -/
structure Arrival where
  clock : Timespec
  fromAddr : SockAddr
  verifyPadding : Bool
  buf : Bytes

/-- The arrival of a packet that `rudp_process_inner` accepts. -/
def acceptStep (lib : Libs) (ctx : RudpContext) (a : Arrival) : Option RudpContext :=
  let r := rudpProcessInner lib a.fromAddr a.verifyPadding a.buf (ctx.readClock a.clock)
  if r.2 then some r.1 else none

/-- The sender's tick in a packet for the owner of the cookie. -/
def Arrival.tick (cookie : UInt32) (a : Arrival) : ℕ :=
  ((parseInner cookie a.verifyPadding a.buf).map Inner.myTick).getD 0

def maxTick (ticks : List ℕ) : ℕ := ticks.foldl max 0

/-- The tick is above all earlier ones by more than the gap. -/
def RealJump (ticks : List ℕ) (t : ℕ) : Prop := maxTick ticks + peerTickLossGap < t

/-- The tick is above that of the packet before by more than the gap, in 64 bits, but not above
all earlier ones. -/
def FakeJump (ticks : List ℕ) (t : ℕ) : Prop :=
  ticks.getLastD 0 ≠ 0 ∧ wrap64 (ticks.getLastD 0 + peerTickLossGap) < t ∧ ¬RealJump ticks t

instance (ticks : List ℕ) (t : ℕ) : Decidable (RealJump ticks t) := inferInstanceAs (Decidable (_ < _))

instance (ticks : List ℕ) (t : ℕ) : Decidable (FakeJump ticks t) := inferInstanceAs (Decidable (_ ∧ _ ∧ _))

/-- Every gap that is counted in a sequence of packets is a jump of the peer's clock. -/
def GapsReal (lib : Libs) (i : Setup) (as : List Arrival) : Prop :=
  ∀ before a after, as = before ++ a :: after →
    ∀ s t, exec (acceptStep lib) (rudpInit i) before = some s → acceptStep lib s a = some t →
      t.peerTickGapEvents ≠ s.peerTickGapEvents →
        RealJump (before.map (Arrival.tick i.myCookie)) (a.tick i.myCookie)

def NoFakeJump (ticks : List ℕ) : Prop :=
  ∀ before t after, ticks = before ++ t :: after → ¬FakeJump before t

section Trackers

variable {lib : Libs} {i : Setup} {ctx ctx' : RudpContext} {a : Arrival}

theorem noteInner_trackers (i : Inner) (addr : SockAddr) (ctx : RudpContext) :
    (noteInner i addr ctx).myCookie = ctx.myCookie ∧
      (noteInner i addr ctx).lastPeerTickSeen = i.myTick ∧
      (noteInner i addr ctx).lastRecvYourTick = max ctx.lastRecvYourTick i.myTick ∧
      (noteInner i addr ctx).peerTickGapEvents =
        if Gap ctx i then wrap64 (ctx.peerTickGapEvents + 1) else ctx.peerTickGapEvents := by
  by_cases hgap : Gap ctx i
  · rw [if_pos hgap]
    unfold Gap at hgap
    simp only [noteInner, noteReception, notePacket, noteGap, if_pos hgap]
    split_ifs <;> exact ⟨rfl, rfl, rfl, rfl⟩
  · rw [if_neg hgap]
    unfold Gap at hgap
    simp only [noteInner, noteReception, notePacket, noteGap, if_neg hgap]
    split_ifs <;> exact ⟨rfl, rfl, rfl, rfl⟩

/-- The fields that the gap detection and the receive window keep. -/
def RudpContext.trackers (ctx : RudpContext) : UInt32 × ℕ × ℕ × ℕ :=
  (ctx.myCookie, ctx.lastPeerTickSeen, ctx.lastRecvYourTick, ctx.peerTickGapEvents)

theorem queueData_trackers (lib : Libs) (i : Inner) (ctx : RudpContext) :
    (queueData lib i ctx).1.trackers = ctx.trackers := by
  unfold queueData queueBlock
  split_ifs <;> first | rfl | (split <;> first | rfl | (split_ifs <;> rfl))

theorem acceptStep_spec (h : acceptStep lib ctx a = some ctx') :
    ctx'.myCookie = ctx.myCookie ∧ ctx'.lastPeerTickSeen = a.tick ctx.myCookie ∧
      ctx'.lastRecvYourTick = max ctx.lastRecvYourTick (a.tick ctx.myCookie) ∧
      (ctx'.peerTickGapEvents ≠ ctx.peerTickGapEvents ↔ ctx.lastPeerTickSeen ≠ 0 ∧
        wrap64 (ctx.lastPeerTickSeen + peerTickLossGap) < a.tick ctx.myCookie) := by
  unfold acceptStep at h
  simp only [rudpProcessInner_eq] at h
  cases hread : readInner (ctx.readClock a.clock) a.verifyPadding a.buf with
  | none => simp [hread] at h
  | some inner =>
    simp only [hread] at h
    split_ifs at h with hok
    cases h
    obtain ⟨hparse, -⟩ := Option.filter_eq_some_iff.mp hread
    have htick : a.tick ctx.myCookie = inner.myTick := by
      have hparse : parseInner ctx.myCookie a.verifyPadding a.buf = some inner := hparse
      rw [Arrival.tick, hparse]
      rfl
    obtain ⟨hcookie, hlast, hmax, hgaps⟩ :=
      noteInner_trackers inner a.fromAddr (ctx.readClock a.clock)
    have hqueue := queueData_trackers lib inner
      (noteInner inner a.fromAddr (ctx.readClock a.clock))
    simp only [RudpContext.trackers, Prod.mk.injEq] at hqueue
    obtain ⟨hqcookie, hqlast, hqmax, hqgaps⟩ := hqueue
    rw [hqcookie, hqlast, hqmax, hqgaps, htick]
    refine ⟨hcookie, hlast, hmax, ?_⟩
    rw [hgaps]
    by_cases hgap : Gap (ctx.readClock a.clock) inner
    · rw [if_pos hgap]
      refine iff_of_true ?_ hgap
      change wrap64 (ctx.peerTickGapEvents + 1) ≠ ctx.peerTickGapEvents
      unfold wrap64
      omega
    · rw [if_neg hgap]
      exact iff_of_false (fun h => h rfl) hgap

theorem maxTick_concat (ticks : List ℕ) (t : ℕ) : maxTick (ticks ++ [t]) = max (maxTick ticks) t := by
  simp [maxTick]

/-- The trackers after a run of accepted packets. -/
theorem acceptRun_trackers {as : List Arrival}
    (hrun : exec (acceptStep lib) (rudpInit i) as = some ctx) :
    ctx.myCookie = i.myCookie ∧
      ctx.lastPeerTickSeen = (as.map (Arrival.tick i.myCookie)).getLastD 0 ∧
      ctx.lastRecvYourTick = maxTick (as.map (Arrival.tick i.myCookie)) := by
  refine exec_trace_invariant (I := fun as (c : RudpContext) => c.myCookie = i.myCookie ∧
    c.lastPeerTickSeen = (as.map (Arrival.tick i.myCookie)).getLastD 0 ∧
    c.lastRecvYourTick = maxTick (as.map (Arrival.tick i.myCookie))) ?_ ⟨rfl, rfl, rfl⟩ hrun
  rintro as s a t ⟨hcookie, -, hmax⟩ hstep
  obtain ⟨hcookie', hlast', hmax', -⟩ := acceptStep_spec hstep
  rw [List.map_append, List.map_singleton, maxTick_concat]
  refine ⟨hcookie'.trans hcookie, ?_, ?_⟩
  · rw [hlast', hcookie]
    simp
  · rw [hmax', hmax, hcookie]

/-- An accepted packet is counted rightly exactly when it is no fake jump. -/
theorem gapReal_iff {as : List Arrival} (hrun : exec (acceptStep lib) (rudpInit i) as = some ctx)
    (hstep : acceptStep lib ctx a = some ctx') :
    (ctx'.peerTickGapEvents ≠ ctx.peerTickGapEvents →
        RealJump (as.map (Arrival.tick i.myCookie)) (a.tick i.myCookie)) ↔
      ¬FakeJump (as.map (Arrival.tick i.myCookie)) (a.tick i.myCookie) := by
  obtain ⟨hcookie, hlast, -⟩ := acceptRun_trackers hrun
  obtain ⟨-, -, -, hcounted⟩ := acceptStep_spec hstep
  rw [hcounted, hcookie, hlast, FakeJump]
  constructor
  · rintro hreal ⟨hzero, hjump, hnot⟩
    exact hnot (hreal ⟨hzero, hjump⟩)
  · rintro hfake ⟨hzero, hjump⟩
    by_contra hnot
    exact hfake ⟨hzero, hjump, hnot⟩

end Trackers

/-- In a run of accepted packets every counted gap is a jump of the peer's clock exactly when no
packet is a fake jump. -/
theorem gapsReal_iff {lib : Libs} {i : Setup} {as : List Arrival} {ctx : RudpContext}
    (hrun : exec (acceptStep lib) (rudpInit i) as = some ctx) :
    GapsReal lib i as ↔ NoFakeJump (as.map (Arrival.tick i.myCookie)) := by
  constructor
  · intro hreal before t after hsplit
    obtain ⟨before, rest, rfl, rfl, hrest⟩ := List.map_eq_append_iff.mp hsplit
    obtain ⟨a, after, rfl, rfl, rfl⟩ := List.map_eq_cons_iff.mp hrest
    obtain ⟨s, hs, hrest⟩ := exec_append_eq_some.mp hrun
    obtain ⟨t, ht, -⟩ := exec_cons_eq_some.mp hrest
    exact (gapReal_iff hs ht).mp (hreal before a after rfl s t hs ht)
  · intro hfake before a after hsplit s t hs ht
    apply (gapReal_iff hs ht).mpr
    apply hfake _ _ (after.map (Arrival.tick i.myCookie))
    rw [hsplit, List.map_append, List.map_cons]

/-- A packet without data for the sample client. -/
def arrivalAt (tick : ℕ) : Arrival :=
  ⟨clockAt 1 firstSecond, ⟨false, [10, 0, 0, 1], 443⟩, false,
    bytesBE 4 7 ++ bytesBE 8 tick ++ bytesBE 8 1000 ++ bytesBE 2 0 ++ [0]⟩

theorem gapsReal_jump : GapsReal Libs.plain sampleClient [arrivalAt 1000, arrivalAt 20000] := by
  have hrun : (exec (acceptStep Libs.plain) (rudpInit sampleClient)
      [arrivalAt 1000, arrivalAt 20000]).isSome := by
    decide +kernel
  obtain ⟨ctx, hrun⟩ := Option.isSome_iff_exists.mp hrun
  apply (gapsReal_iff hrun).mpr
  intro before t after hsplit
  have hticks : [arrivalAt 1000, arrivalAt 20000].map (Arrival.tick sampleClient.myCookie) =
      [1000, 20000] := by
    decide +kernel
  rw [hticks] at hsplit
  match before, hsplit with
  | [], h =>
    obtain ⟨rfl, -⟩ := List.cons.inj h
    decide
  | [first], h =>
    obtain ⟨hfirst, h⟩ := List.cons.inj h
    obtain ⟨rfl, -⟩ := List.cons.inj h
    subst hfirst
    decide
  | _ :: _ :: before, h => simp at h

/-- A packet that is fifteen seconds late, and one that is four seconds late after it. -/
theorem gap_from_reordering :
    ¬GapsReal Libs.plain sampleClient [arrivalAt 20000, arrivalAt 5000, arrivalAt 16000] := by
  have hrun : ∃ s ∈ exec (acceptStep Libs.plain) (rudpInit sampleClient)
      [arrivalAt 20000, arrivalAt 5000],
      ∃ t ∈ acceptStep Libs.plain s (arrivalAt 16000),
        t.peerTickGapEvents ≠ s.peerTickGapEvents ∧
          ¬RealJump ([arrivalAt 20000, arrivalAt 5000].map (Arrival.tick sampleClient.myCookie))
            ((arrivalAt 16000).tick sampleClient.myCookie) := by
    decide +kernel
  obtain ⟨s, hs, t, ht, hgap, hnot⟩ := hrun
  intro hreal
  exact hnot (hreal [arrivalAt 20000, arrivalAt 5000] (arrivalAt 16000) [] rfl s t hs ht hgap)

end SoftEtherVpn.UdpAccel
