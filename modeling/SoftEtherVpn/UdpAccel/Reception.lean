import SoftEtherVpn.UdpAccel.Readiness

/-!
# The reception of one packet

`rudp_poll_nolock` decrypts a datagram and hands it to `rudp_process_inner`, which parses it,
checks the receive window, notes the packet in the context and queues its data. A packet that is
dropped leaves the context alone, unless it is dropped for its compressed data: by then the packet
has been noted.
-/

namespace SoftEtherVpn.UdpAccel

open Foundation Rudp

/-- The packet that passes all checks of `rudp_process_inner` up to the receive window. -/
def readInner (ctx : RudpContext) (verifyPadding : Bool) (buf : Bytes) : Option Inner :=
  (parseInner ctx.myCookie verifyPadding buf).filter fun i => ¬outsideWindow ctx i.myTick

/-- The block that a packet brings, if its data can be decompressed. -/
def Inner.block (lib : Libs) (i : Inner) : Option Bytes :=
  if i.flag &&& flagCompressed ≠ 0 then uncompressData lib i.data (maxPayloadSize + 256)
  else some i.data

/-- The packet carries data that cannot be decompressed. -/
def Inner.Undecompressible (lib : Libs) (i : Inner) : Prop := i.data ≠ [] ∧ i.block lib = none

instance (lib : Libs) (i : Inner) : Decidable (i.Undecompressible lib) :=
  inferInstanceAs (Decidable (_ ∧ _))

/-- The context after a packet has been noted. -/
def noteInner (i : Inner) (fromAddr : SockAddr) (ctx : RudpContext) : RudpContext :=
  noteReception (notePacket i fromAddr ctx)

section Inner

variable (lib : Libs) (fromAddr : SockAddr) (verify : Bool) (buf : Bytes) (ctx : RudpContext)

theorem queueData_eq (i : Inner) : queueData lib i ctx =
    if i.data = [] then (ctx, true)
    else match i.block lib with
      | none => (ctx, false)
      | some block => (queueBlock block ctx, true) := by
  unfold queueData Inner.block
  split_ifs <;> rfl

theorem rudpProcessInner_eq : rudpProcessInner lib fromAddr verify buf ctx =
    match readInner ctx verify buf with
    | none => (ctx, false)
    | some i => queueData lib i (noteInner i fromAddr ctx) := by
  unfold rudpProcessInner readInner
  cases parseInner ctx.myCookie verify buf with
  | none => rfl
  | some i =>
    by_cases hout : outsideWindow ctx i.myTick
    · simp [Option.filter, hout]
    · simp [Option.filter, hout, noteInner]

theorem notePacket_rxPackets (i : Inner) :
    (notePacket i fromAddr ctx).udpRxPackets = wrap64 (ctx.udpRxPackets + 1) := by
  simp only [notePacket, noteGap]
  split_ifs <;> rfl

theorem noteReception_rxPackets : (noteReception ctx).udpRxPackets = ctx.udpRxPackets := by
  unfold noteReception
  split_ifs <;> rfl

/-- A noted packet shows in the packet counter. -/
theorem noteInner_ne (i : Inner) : noteInner i fromAddr ctx ≠ ctx := by
  intro heq
  have hcount : wrap64 (ctx.udpRxPackets + 1) = ctx.udpRxPackets := by
    rw [← notePacket_rxPackets fromAddr ctx i, ← noteReception_rxPackets (notePacket i fromAddr ctx)]
    exact congrArg RudpContext.udpRxPackets heq
  unfold wrap64 at hcount
  omega

/-- A dropped packet leaves the context as it was exactly when it is not dropped for data that
cannot be decompressed. -/
theorem dropped_unchanged_iff :
    ((rudpProcessInner lib fromAddr verify buf ctx).2 = false →
        (rudpProcessInner lib fromAddr verify buf ctx).1 = ctx) ↔
      ∀ i, readInner ctx verify buf = some i → ¬i.Undecompressible lib := by
  rw [rudpProcessInner_eq]
  cases readInner ctx verify buf with
  | none => simp
  | some i =>
    simp only [queueData_eq, Inner.Undecompressible, Option.some.injEq, forall_eq']
    by_cases hdata : i.data = []
    · simp [hdata]
    · cases i.block lib with
      | none => simp [hdata, noteInner_ne]
      | some block => simp [hdata]

end Inner

/-!
## The packets of a poll
-/

/-- What `rudp_poll_nolock` hands to `rudp_process_inner` for a datagram: whether the padding is
to be verified, and the decrypted bytes. -/
def decryptDatagram (lib : Libs) (d : Datagram) (ctx : RudpContext) : Option (Bool × Bytes) :=
  let tmp := d.data.take tmpBufSize
  if tmp.length < packetIvSizeV1 + 4 + 1 then none
  else
    match ctx.version with
    | .v1 =>
      let key := calcKey lib ctx.yourKey (tmp.take packetIvSizeV1)
      some (true, rc4Crypt key (tmp.drop packetIvSizeV1))
    | .v2 =>
      if tmp.length < packetIvSizeV2 + packetMacSizeV2 + 4 + 1 then none
      else
        let buf := tmp.drop packetIvSizeV2
        let size := buf.length - packetMacSizeV2
        (lib.aeadOpen ctx.yourKeyV2 (tmp.take packetIvSizeV2) (buf.take size)
          (buf.drop size)).map fun plain => (false, plain)

/-- The packet of a datagram that is noted in the context. -/
def received (lib : Libs) (d : Datagram) (ctx : RudpContext) : Option Inner :=
  (decryptDatagram lib d ctx).bind fun p => readInner ctx p.1 p.2

/-- The context in which the receive loop of a poll starts. -/
def pollStart (lib : Libs) (inp : PollInput) (ctx : RudpContext) : RudpContext :=
  let ctx := ctx.readClock inp.clock
  pollKeepalive lib inp (pollTimeout (ctx.record (.polled ctx.now ctx.lastRecvTick)))

/-- `P` holds of each packet that is noted, in the context it meets. -/
def EachPacket (lib : Libs) (P : RudpContext → Inner → Prop) : List Datagram → RudpContext → Prop
  | [], _ => True
  | d :: ds, ctx => d.data = [] ∨
      (∀ i, received lib d ctx = some i → P (ctx.readClock d.clock) i) ∧
        EachPacket lib P ds (recvPacket lib d ctx)

instance decidableEachPacket (lib : Libs) (P : RudpContext → Inner → Prop)
    [∀ ctx i, Decidable (P ctx i)] :
    ∀ ds ctx, Decidable (EachPacket lib P ds ctx)
  | [], _ => inferInstanceAs (Decidable True)
  | d :: ds, ctx =>
    have := decidableEachPacket lib P ds (recvPacket lib d ctx)
    inferInstanceAs (Decidable (d.data = [] ∨
      (∀ i ∈ received lib d ctx, P (ctx.readClock d.clock) i) ∧
        EachPacket lib P ds (recvPacket lib d ctx)))

section Poll

variable {lib : Libs} {d : Datagram} {ctx : RudpContext}

theorem recvPacket_of_decrypt {p : Bool × Bytes} (h : decryptDatagram lib d ctx = some p) :
    recvPacket lib d ctx =
      (rudpProcessInner lib d.fromAddr p.1 p.2 (ctx.readClock d.clock)).1 := by
  unfold decryptDatagram at h
  unfold recvPacket
  dsimp only at h ⊢
  by_cases hshort : (d.data.take tmpBufSize).length < packetIvSizeV1 + 4 + 1
  · simp only [if_pos hshort, reduceCtorEq] at h
  rw [if_neg hshort] at h ⊢
  cases hv : ctx.version with
  | v1 =>
    simp only [hv, Option.some.injEq] at h
    subst h
    simp only [RudpContext.readClock, hv]
  | v2 =>
    by_cases hmac : (d.data.take tmpBufSize).length < packetIvSizeV2 + packetMacSizeV2 + 4 + 1
    · simp only [hv, if_pos hmac, reduceCtorEq] at h
    · simp only [hv, if_neg hmac] at h
      obtain ⟨plain, hopen, rfl⟩ := Option.map_eq_some_iff.mp h
      simp only [RudpContext.readClock, hv, if_neg hmac, hopen]

/-- `recvfrom` has returned too few bytes for a packet. -/
def Datagram.Short (d : Datagram) : Prop :=
  (d.data.take tmpBufSize).length < packetIvSizeV1 + 4 + 1

theorem recvPacket_of_short (h : d.Short) : recvPacket lib d ctx = ctx := if_pos h

theorem recvPacket_of_not_decrypt (hlong : ¬d.Short) (h : decryptDatagram lib d ctx = none) :
    recvPacket lib d ctx = ctx.readClock d.clock := by
  unfold Datagram.Short at hlong
  unfold decryptDatagram at h
  unfold recvPacket
  dsimp only at h ⊢
  rw [if_neg hlong] at h ⊢
  cases hv : ctx.version with
  | v1 => simp only [hv, reduceCtorEq] at h
  | v2 =>
    by_cases hmac : (d.data.take tmpBufSize).length < packetIvSizeV2 + packetMacSizeV2 + 4 + 1
    · simp only [RudpContext.readClock, hv, if_pos hmac]
    · simp only [hv, if_neg hmac] at h
      have hopen := Option.map_eq_none_iff.mp h
      simp only [RudpContext.readClock, hv, if_neg hmac, hopen]

theorem recvPacket_of_received {i : Inner} (h : received lib d ctx = some i) :
    recvPacket lib d ctx =
      (queueData lib i (noteInner i d.fromAddr (ctx.readClock d.clock))).1 := by
  obtain ⟨p, hp, hi⟩ := Option.bind_eq_some_iff.mp h
  have hread : readInner (ctx.readClock d.clock) p.1 p.2 = some i := hi
  rw [recvPacket_of_decrypt hp, rudpProcessInner_eq, hread]

theorem recvPacket_of_not_received (h : received lib d ctx = none) :
    recvPacket lib d ctx = ctx ∨ recvPacket lib d ctx = ctx.readClock d.clock := by
  by_cases hshort : d.Short
  · exact Or.inl (recvPacket_of_short hshort)
  right
  cases hp : decryptDatagram lib d ctx with
  | none => exact recvPacket_of_not_decrypt hshort hp
  | some p =>
    rw [received, hp, Option.bind_some] at h
    have hread : readInner (ctx.readClock d.clock) p.1 p.2 = none := h
    rw [recvPacket_of_decrypt hp, rudpProcessInner_eq, hread]

/-- A keepalive takes the clock and the next IV. -/
theorem rudpSend_keepalive_frame (lib : Libs) (inp : SendInput) (ctx : RudpContext) :
    ∃ now iv ivV2, (rudpSend lib inp [] 0 ctx).ctx =
      { ctx with now := now, nextIv := iv, nextIvV2 := ivV2 } := by
  unfold rudpSend
  split
  · exact ⟨_, _, _, rfl⟩
  · simp only [rudpSendNolock]
    split
    · exact ⟨_, _, _, rfl⟩
    · split
      · exact ⟨_, _, _, rfl⟩
      · rename_i c packet hseal
        have hc : ∃ iv ivV2, c =
            { ctx with now := tick64 inp.clock, nextIv := iv, nextIvV2 := ivV2 } := by
          unfold sealDatagram at hseal
          split at hseal
          · cases hseal
            exact ⟨_, _, rfl⟩
          · dsimp only at hseal
            split_ifs at hseal
            cases hseal
            exact ⟨_, _, rfl⟩
        obtain ⟨iv, ivV2, rfl⟩ := hc
        split <;> exact ⟨_, _, _, rfl⟩

/-- What a poll changes before it receives. -/
theorem pollStart_frame (lib : Libs) (inp : PollInput) (ctx : RudpContext) :
    ∃ now iv ivV2 keepalive first loss history, pollStart lib inp ctx = { ctx with
      now := now
      nextIv := iv
      nextIvV2 := ivV2
      nextSendKeepalive := keepalive
      firstStableReceiveTick := first
      lastLossEventTick := loss
      history := history } := by
  have htimeout : ∀ c : RudpContext, ∃ first loss history, pollTimeout c = { c with
      firstStableReceiveTick := first, lastLossEventTick := loss, history := history } := by
    intro c
    unfold pollTimeout
    split_ifs <;> exact ⟨_, _, _, rfl⟩
  have hkeepalive : ∀ c : RudpContext, ∃ now iv ivV2 keepalive, pollKeepalive lib inp c =
      { c with now := now, nextIv := iv, nextIvV2 := ivV2, nextSendKeepalive := keepalive } := by
    intro c
    unfold pollKeepalive
    obtain ⟨now, iv, ivV2, hsend⟩ := rudpSend_keepalive_frame lib inp.keepalive c
    split
    · split
      · simp only [hsend]
        exact ⟨_, _, _, _, rfl⟩
      · exact ⟨_, _, _, _, rfl⟩
    · exact ⟨_, _, _, _, rfl⟩
  unfold pollStart
  dsimp only
  obtain ⟨first, loss, history, htimeout⟩ := htimeout
    ((ctx.readClock inp.clock).record (.polled (tick64 inp.clock) ctx.lastRecvTick))
  obtain ⟨now, iv, ivV2, keepalive, hkeepalive⟩ := hkeepalive (pollTimeout
    ((ctx.readClock inp.clock).record (.polled (tick64 inp.clock) ctx.lastRecvTick)))
  rw [htimeout] at hkeepalive
  refine ⟨now, iv, ivV2, keepalive, first, loss, history, ?_⟩
  exact (congrArg (pollKeepalive lib inp) htimeout).trans hkeepalive

theorem rudpPoll_eq (inp : PollInput) (hinit : ctx.inited = true) :
    rudpPoll lib inp ctx = recvLoop lib inp.datagrams (pollStart lib inp ctx) := by
  rw [rudpPoll, hinit]
  rfl

end Poll

/-- A packet from another address whose one byte of data says that it is compressed. -/
def undecompressiblePacket : Bytes :=
  bytesBE 4 7 ++ bytesBE 8 5000 ++ bytesBE 8 1000 ++ bytesBE 2 1 ++ [flagCompressed] ++ [1]

theorem undecompressible_noted :
    let ctx := rudpInit sampleClient
    let r := rudpProcessInner Libs.plain ⟨false, [6, 6, 6, 6], 9⟩ false undecompressiblePacket ctx
    r.2 = false ∧ r.1 ≠ ctx ∧ r.1.peerAddr = ⟨false, [6, 6, 6, 6], 9⟩ ∧
      r.1.lastRecvYourTick = 5000 ∧ r.1.udpRxPackets = 1 := by
  have hresult : (rudpProcessInner Libs.plain ⟨false, [6, 6, 6, 6], 9⟩ false undecompressiblePacket
      (rudpInit sampleClient)).2 = false := by
    decide +kernel
  have hpeer : (rudpProcessInner Libs.plain ⟨false, [6, 6, 6, 6], 9⟩ false undecompressiblePacket
      (rudpInit sampleClient)).1.peerAddr = ⟨false, [6, 6, 6, 6], 9⟩ := by
    decide +kernel
  refine ⟨hresult, ?_, hpeer, by decide +kernel, by decide +kernel⟩
  intro heq
  rw [heq] at hpeer
  revert hpeer
  decide

end SoftEtherVpn.UdpAccel
