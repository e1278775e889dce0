import SoftEtherVpn.UdpAccel.Readiness

/-!
# Send and receive round trip

What `rudp_send` puts on the wire is what `rudp_poll` of the other end takes off it, in
both versions, with and without compression. The sender's limit is its packet buffer,
the receiver's is `RUDP_MAX_PAYLOAD_SIZE`, so the payloads between the two get lost.
-/

namespace SoftEtherVpn.UdpAccel

open Foundation Rudp

/-- The documented behaviour of the libraries: the AEAD opens what it sealed, a compressed
stream is never empty, and it is expanded to the original if the buffer holds it. -/
structure Libs.Lawful (lib : Libs) : Prop where
  aeadOpen_seal : ∀ key iv plain,
    lib.aeadOpen key iv (lib.aeadSeal key iv plain).1 (lib.aeadSeal key iv plain).2 = some plain
  compress2_ne_nil : ∀ data n comp, lib.compress2 data n = some comp → comp ≠ []
  uncompress_compress2 : ∀ data n comp m, lib.compress2 data n = some comp →
    lib.uncompress comp m = if data.length ≤ m then some data else none

/-- `b` is the other end of `a`. -/
structure Mirrored (a b : RudpContext) : Prop where
  version : a.version = b.version
  myKey : a.myKey = b.yourKey
  yourKey : a.yourKey = b.myKey
  myKeyV2 : a.myKeyV2 = b.yourKeyV2
  yourKeyV2 : a.yourKeyV2 = b.myKeyV2
  myCookie : a.myCookie = b.yourCookie
  yourCookie : a.yourCookie = b.myCookie

/-- The tick a packet sent at `now` carries. -/
def wireTick (now : ℕ) : ℕ := if now = 0 then 1 else now

theorem readBE_byte (b : UInt8) (rest : Bytes) : readBE 1 (b :: rest) = some (b.toNat, rest) := by
  simp [readBE, natBE]

theorem parseInner_innerBytes {ctx : RudpContext} {flag : UInt8} {data : Bytes}
    (hnow : ctx.now < 2 ^ 44) (hdata : data.length < 2 ^ 16) (verify : Bool) {padding : Bytes}
    (hpad : verify = true → ∃ n, padding = List.replicate n 0 ++ List.replicate packetIvSizeV1 0) :
    parseInner ctx.yourCookie verify (innerBytes ctx flag data ++ padding) =
      some ⟨wireTick ctx.now, wrap64 ctx.lastRecvYourTick, flag, data⟩ := by
  have hcookie : ctx.yourCookie.toNat % 256 ^ 4 = ctx.yourCookie.toNat :=
    Nat.mod_eq_of_lt (by have := ctx.yourCookie.toNat_lt; norm_num at this ⊢; exact this)
  have htick : wireTick ctx.now % 256 ^ 8 = wireTick ctx.now := by
    apply Nat.mod_eq_of_lt
    unfold wireTick
    norm_num at hnow ⊢
    split_ifs <;> omega
  have hsize : data.length % 256 ^ 2 = data.length := Nat.mod_eq_of_lt (by norm_num at *; exact hdata)
  have hecho : ctx.lastRecvYourTick % 256 ^ 8 = wrap64 ctx.lastRecvYourTick := by
    unfold wrap64
    norm_num
  rw [wireTick] at htick
  simp only [parseInner, innerBytes, List.append_assoc, readBE_bytesBE, List.cons_append,
    List.nil_append, readBE_byte, Option.bind_eq_bind, Option.bind_some, hcookie, hsize, hecho,
    htick, wireTick, List.length_append, Nat.le_add_right, List.drop_left, List.take_left,
    UInt8.ofNat_toNat, guard_true]
  cases verify with
  | false => rfl
  | true =>
    obtain ⟨n, rfl⟩ := hpad rfl
    simp

theorem le_paddingSize (ctx : RudpContext) (rand size : ℕ) :
    size + paddingSize ctx rand size ≤ max size maxUdpPacketIpv4 := by
  have hmax := ctx.maxUdpPacketSize_le
  simp only [paddingSize]
  split_ifs with hlt hlarge
  · have hmod := Nat.mod_lt rand (show 0 < maxPaddingSize + 1 by decide)
    simp only [maxPaddingSize] at *
    omega
  · have hmod := Nat.mod_lt rand (show 0 < ctx.maxUdpPacketSize - size + 1 by omega)
    omega
  · omega

/-- What the receiver does with a packet that carries `data` under `flag`. -/
def receiveInner (lib : Libs) (tick echo : ℕ) (flag : UInt8) (data : Bytes) (fromAddr : SockAddr)
    (ctx : RudpContext) : RudpContext :=
  if outsideWindow ctx tick then ctx
  else (queueData lib ⟨tick, echo, flag, data⟩
    (noteReception (notePacket ⟨tick, echo, flag, data⟩ fromAddr ctx))).1

theorem rudpProcessInner_of_parse {lib : Libs} {fromAddr : SockAddr} {verify : Bool}
    {buf data : Bytes} {tick echo : ℕ} {flag : UInt8} {ctx : RudpContext}
    (hparse : parseInner ctx.myCookie verify buf = some ⟨tick, echo, flag, data⟩) :
    (rudpProcessInner lib fromAddr verify buf ctx).1 =
      receiveInner lib tick echo flag data fromAddr ctx := by
  simp only [rudpProcessInner, hparse, receiveInner]
  split_ifs <;> rfl

section Packet

variable {lib : Libs} {clock : Timespec} {fromAddr : SockAddr} {iv enc tag : Bytes}
  {ctx : RudpContext}

theorem recvPacket_v1 (hv : ctx.version = .v1) (hiv : iv.length = packetIvSizeV1)
    (hmin : 5 ≤ enc.length) (hmax : iv.length + enc.length ≤ tmpBufSize) :
    recvPacket lib ⟨clock, fromAddr, iv ++ enc⟩ ctx =
      (rudpProcessInner lib fromAddr true (rc4Crypt (calcKey lib ctx.yourKey iv) enc)
        (ctx.readClock clock)).1 := by
  have htake : (iv ++ enc).take tmpBufSize = iv ++ enc :=
    List.take_of_length_le (by rw [List.length_append]; exact hmax)
  have hlong : ¬(iv ++ enc).length < packetIvSizeV1 + 4 + 1 := by
    rw [List.length_append]
    omega
  have hver : (ctx.readClock clock).version = .v1 := hv
  simp only [recvPacket, htake, if_neg hlong, hver, List.take_left' hiv, List.drop_left' hiv]
  rfl

theorem recvPacket_v2 (hv : ctx.version = .v2) (hiv : iv.length = packetIvSizeV2)
    (htag : tag.length = packetMacSizeV2) (hmin : 5 ≤ enc.length)
    (hmax : iv.length + enc.length + tag.length ≤ tmpBufSize) {plain : Bytes}
    (hopen : lib.aeadOpen ctx.yourKeyV2 iv enc tag = some plain) :
    recvPacket lib ⟨clock, fromAddr, iv ++ enc ++ tag⟩ ctx =
      (rudpProcessInner lib fromAddr false plain (ctx.readClock clock)).1 := by
  have hlen : (iv ++ enc ++ tag).length = iv.length + enc.length + tag.length := by
    simp only [List.length_append]
  have htake : (iv ++ enc ++ tag).take tmpBufSize = iv ++ enc ++ tag :=
    List.take_of_length_le (hlen.trans_le hmax)
  have hlong : ¬(iv ++ enc ++ tag).length < packetIvSizeV1 + 4 + 1 := by
    simp only [hlen, hiv, htag, packetIvSizeV1, packetIvSizeV2, packetMacSizeV2]
    omega
  have hlong' : ¬(iv ++ enc ++ tag).length < packetIvSizeV2 + packetMacSizeV2 + 4 + 1 := by
    omega
  have hsize : (enc ++ tag).length - packetMacSizeV2 = enc.length := by
    rw [List.length_append]
    omega
  have hver : (ctx.readClock clock).version = .v2 := hv
  have hopen' : lib.aeadOpen (ctx.readClock clock).yourKeyV2 iv enc tag = some plain := hopen
  simp only [recvPacket, htake, if_neg hlong, hver, if_neg hlong']
  simp only [List.append_assoc, List.take_left' hiv, List.drop_left' hiv, hsize, List.take_left,
    List.drop_left, hopen']

end Packet

/-- The receive loop undoes the encryption and the framing of the sender. -/
theorem recvPacket_sealDatagram {lib : Libs} (hlib : lib.Lawful) {a a' b : RudpContext}
    (hm : Mirrored a b) {rand : ℕ} {flag : UInt8} {data packet : Bytes}
    (hseal : sealDatagram lib rand flag data a = some (a', packet)) (hnow : a.now < 2 ^ 44)
    (hfit : ivSize a + 23 + data.length ≤ tmpBufSize - packetIvSizeV1 - 8)
    (clock : Timespec) (fromAddr : SockAddr) :
    recvPacket lib ⟨clock, fromAddr, packet⟩ b =
      receiveInner lib (wireTick a.now) (wrap64 a.lastRecvYourTick) flag data fromAddr
        (b.readClock clock) := by
  have hlen := innerBytes_length a flag data
  have hdata : data.length < 2 ^ 16 := by
    simp only [tmpBufSize] at hfit
    norm_num
    omega
  have hcookie : (b.readClock clock).myCookie = a.yourCookie := hm.yourCookie.symm
  cases hv : a.version with
  | v1 =>
    have hpad := le_paddingSize a rand (packetIvSizeV1 + 23 + data.length + packetIvSizeV1)
    have hiv := a.nextIv.toList_length
    simp only [sealDatagram, hv, Option.some.injEq, Prod.mk.injEq] at hseal
    obtain ⟨-, hpacket⟩ := hseal
    generalize paddingSize a rand _ = n at hpacket hpad
    subst hpacket
    simp only [ivSize, hv, tmpBufSize, packetIvSizeV1, maxUdpPacketIpv4] at hfit hpad
    rw [recvPacket_v1 (hm.version.symm.trans hv) hiv, ← hm.myKey, rc4Crypt_rc4Crypt,
      List.append_assoc]
    · apply rudpProcessInner_of_parse
      rw [hcookie]
      exact parseInner_innerBytes hnow hdata true fun _ => ⟨_, rfl⟩
    · simp [hlen]
      omega
    · rw [hiv]
      simp [hlen, packetIvSizeV1, tmpBufSize]
      omega
  | v2 =>
    have hpad := le_paddingSize a rand (packetIvSizeV2 + 23 + data.length + packetMacSizeV2)
    have hiv := a.nextIvV2.toList_length
    simp only [sealDatagram, hv] at hseal
    split at hseal
    · cases hseal
    · rename_i htotal
      simp only [Option.some.injEq, Prod.mk.injEq] at hseal
      obtain ⟨-, hpacket⟩ := hseal
      generalize paddingSize a rand _ = n at hpacket htotal hpad
      subst hpacket
      simp only [packetIvSizeV2, packetMacSizeV2, tmpBufSize, maxUdpPacketIpv4] at htotal hpad
      have hopen := hlib.aeadOpen_seal b.yourKeyV2 a.nextIvV2.toList
        (innerBytes a flag data ++ List.replicate n 0)
      rw [hm.myKeyV2, recvPacket_v2 (hm.version.symm.trans hv) hiv (lib.aeadSeal_tag _ _ _) _ _
        hopen]
      · apply rudpProcessInner_of_parse
        rw [hcookie]
        exact parseInner_innerBytes hnow hdata false (by simp)
      · rw [lib.aeadSeal_length]
        simp [hlen]
        omega
      · rw [hiv, lib.aeadSeal_length, lib.aeadSeal_tag]
        simp [hlen, packetIvSizeV2, packetMacSizeV2, tmpBufSize]
        omega

theorem notePacket_recvQueue (i : Inner) (a : SockAddr) (ctx : RudpContext) :
    (notePacket i a ctx).recvQueue = ctx.recvQueue := by
  simp only [notePacket, noteGap]
  split <;> rfl

theorem noteReception_recvQueue (ctx : RudpContext) :
    (noteReception ctx).recvQueue = ctx.recvQueue := by
  unfold noteReception
  split_ifs <;> rfl

theorem queueBlock_recvQueue {block : Bytes} {ctx : RudpContext}
    (hroom : ctx.recvQueue.length < recvQueueSize) :
    (queueBlock block ctx).recvQueue =
      if block.length ≤ maxPayloadSize then ctx.recvQueue ++ [block] else ctx.recvQueue := by
  unfold queueBlock
  rw [if_pos hroom]
  split_ifs <;> rfl

theorem flagCompressed_set (flag : UInt8) : (flag ||| flagCompressed) &&& flagCompressed ≠ 0 := by
  have h : (flag ||| flagCompressed) &&& flagCompressed = flagCompressed := by
    rw [← UInt8.toBitVec_inj]
    simp only [UInt8.toBitVec_and, UInt8.toBitVec_or]
    ext i hi
    simp
    grind
  rw [h]
  decide

theorem sendPayload_cases (lib : Libs) {data : Bytes} (hdata : data ≠ []) (flag : UInt8)
    (ctx : RudpContext) :
    sendPayload lib data flag ctx = (data, flag) ∨
      ∃ comp, lib.compress2 data (maxPayloadSize + 256) = some comp ∧
        sendPayload lib data flag ctx = (comp, flag ||| flagCompressed) := by
  unfold sendPayload
  split_ifs with huse
  · rw [compressData, if_neg hdata]
    cases hcomp : lib.compress2 data (maxPayloadSize + 256) with
    | none => exact Or.inl rfl
    | some comp => exact Or.inr ⟨comp, rfl, rfl⟩
  · exact Or.inl rfl

/-- Queueing what `rudp_send` made of a payload queues the payload, if it is short enough. -/
theorem queueData_sendPayload {lib : Libs} (hlib : lib.Lawful) {a ctx : RudpContext}
    {data : Bytes} {flag : UInt8} (hdata : data ≠ []) (hflag : flag &&& flagCompressed = 0)
    (hroom : ctx.recvQueue.length < recvQueueSize) (tick echo : ℕ) :
    (queueData lib ⟨tick, echo, (sendPayload lib data flag a).2, (sendPayload lib data flag a).1⟩
      ctx).1.recvQueue =
      if data.length ≤ maxPayloadSize then ctx.recvQueue ++ [data] else ctx.recvQueue := by
  rcases sendPayload_cases lib hdata flag a with hplain | ⟨comp, hcomp, hsend⟩
  · rw [hplain]
    simp only [queueData, if_neg hdata, hflag, ne_eq, not_true_eq_false, if_false]
    exact queueBlock_recvQueue hroom
  · have hne := hlib.compress2_ne_nil _ _ _ hcomp
    have hback := hlib.uncompress_compress2 _ _ _ (maxPayloadSize + 256) hcomp
    rw [hsend]
    simp only [queueData, if_neg hne, if_pos (flagCompressed_set flag), uncompressData, hback]
    by_cases hbuf : data.length ≤ maxPayloadSize + 256
    · simp only [if_pos hbuf]
      exact queueBlock_recvQueue hroom
    · simp only [if_neg hbuf]
      rw [if_neg fun hmax => hbuf (hmax.trans (Nat.le_add_right _ _))]

/-- What the reception of a packet depends on, apart from the clock. -/
def RudpContext.endpoint (ctx : RudpContext) :
    (Version × Bytes × Bytes × Bytes × Bytes) × (UInt32 × UInt32) × ℕ × List Bytes :=
  ((ctx.version, ctx.myKey, ctx.yourKey, ctx.myKeyV2, ctx.yourKeyV2),
    (ctx.myCookie, ctx.yourCookie), ctx.lastRecvYourTick, ctx.recvQueue)

theorem rudpCwinRefill_endpoint (ctx : RudpContext) :
    (rudpCwinRefill ctx).endpoint = ctx.endpoint := by
  unfold rudpCwinRefill
  split_ifs <;> rfl

theorem consumeBudget_endpoint (n : ℕ) (ctx : RudpContext) :
    (consumeBudget n ctx).endpoint = ctx.endpoint := by
  unfold consumeBudget
  split_ifs
  · exact rudpCwinRefill_endpoint ctx
  · rfl

theorem sealDatagram_endpoint {lib : Libs} {rand : ℕ} {flag : UInt8} {data packet : Bytes}
    {ctx ctx' : RudpContext} (h : sealDatagram lib rand flag data ctx = some (ctx', packet)) :
    ctx'.endpoint = ctx.endpoint := by
  unfold sealDatagram at h
  split at h
  · cases h
    rfl
  · dsimp only at h
    split_ifs at h
    cases h
    rfl

theorem rudpSend_endpoint (lib : Libs) (inp : SendInput) (data : Bytes) (flag : UInt8)
    (ctx : RudpContext) : (rudpSend lib inp data flag ctx).ctx.endpoint = ctx.endpoint := by
  unfold rudpSend
  split
  · rfl
  · simp only [rudpSendNolock]
    split
    · rfl
    · split
      · rfl
      · rename_i hseal
        have heq := sealDatagram_endpoint hseal
        split
        · rw [consumeBudget_endpoint, heq]
          rfl
        · rw [heq]
          rfl

theorem pollTimeout_endpoint (ctx : RudpContext) : (pollTimeout ctx).endpoint = ctx.endpoint := by
  unfold pollTimeout
  split_ifs <;> rfl

theorem pollKeepalive_endpoint (lib : Libs) (inp : PollInput) (ctx : RudpContext) :
    (pollKeepalive lib inp ctx).endpoint = ctx.endpoint := by
  simp only [pollKeepalive]
  split
  · split
    · exact rudpSend_endpoint lib inp.keepalive [] 0 ctx
    · rfl
  · rfl

theorem sealDatagram_ne_nil {lib : Libs} {rand : ℕ} {flag : UInt8} {data packet : Bytes}
    {ctx ctx' : RudpContext} (h : sealDatagram lib rand flag data ctx = some (ctx', packet)) :
    packet ≠ [] := by
  unfold sealDatagram at h
  split at h
  · simp only [Option.some.injEq, Prod.mk.injEq] at h
    obtain ⟨-, rfl⟩ := h
    exact List.append_ne_nil_of_left_ne_nil
      (List.ne_nil_of_length_pos (by rw [List.Vector.toList_length]; decide)) _
  · dsimp only at h
    split_ifs at h
    simp only [Option.some.injEq, Prod.mk.injEq] at h
    obtain ⟨-, rfl⟩ := h
    rw [List.append_assoc]
    exact List.append_ne_nil_of_left_ne_nil
      (List.ne_nil_of_length_pos (by rw [List.Vector.toList_length]; decide)) _

theorem Mirrored.congr {a b b' : RudpContext} (hm : Mirrored a b)
    (heq : b'.endpoint = b.endpoint) : Mirrored a b' := by
  simp only [RudpContext.endpoint, Prod.mk.injEq] at heq
  obtain ⟨⟨hv, hk, hy, hk2, hy2⟩, ⟨hc, hyc⟩, -⟩ := heq
  constructor
  · exact hm.version.trans hv.symm
  · exact hm.myKey.trans hy.symm
  · exact hm.yourKey.trans hk.symm
  · exact hm.myKeyV2.trans hy2.symm
  · exact hm.yourKeyV2.trans hk2.symm
  · exact hm.myCookie.trans hyc.symm
  · exact hm.yourCookie.trans hc.symm

theorem rudpPoll_single (lib : Libs) {inp : PollInput} {b : RudpContext} {d : Datagram}
    (hinit : b.inited = true) (hinp : inp.datagrams = [d]) (hd : d.data ≠ []) :
    ∃ b', b'.endpoint = b.endpoint ∧ rudpPoll lib inp b = recvPacket lib d b' := by
  refine ⟨pollKeepalive lib inp (pollTimeout ((b.readClock inp.clock).record
    (.polled (tick64 inp.clock) b.lastRecvTick))), ?_, ?_⟩
  · rw [pollKeepalive_endpoint, pollTimeout_endpoint]
    rfl
  · simp only [rudpPoll, hinit, Bool.true_eq_false, if_false, hinp, recvLoop, hd]
    rfl

theorem le_limit_of_not (ctx : RudpContext) {data : Bytes}
    (h : ¬(data ≠ [] ∧ ivSize ctx + 23 + data.length > tmpBufSize - packetIvSizeV1 - 8)) :
    ivSize ctx + 23 + data.length ≤ tmpBufSize - packetIvSizeV1 - 8 := by
  by_cases hnil : data = []
  · subst hnil
    unfold ivSize
    split <;> decide
  · exact not_lt.mp fun hlt => h ⟨hnil, hlt⟩

/-- The queue of the receiver after the poll that takes the packet. -/
theorem rudpPoll_rudpSend {lib : Libs} (hlib : lib.Lawful) {a b : RudpContext}
    (hm : Mirrored a b) {sendInp : SendInput} {data packet : Bytes} {flag : UInt8}
    (hdata : data ≠ []) (hflag : flag &&& flagCompressed = 0)
    (hsent : (rudpSend lib sendInp data flag a).sent = some packet) (hinit : b.inited = true)
    (hwindow : ¬outsideWindow b (wireTick (tick64 sendInp.clock)))
    (hroom : b.recvQueue.length < recvQueueSize) {inp : PollInput} {clock : Timespec}
    {fromAddr : SockAddr} (hinp : inp.datagrams = [⟨clock, fromAddr, packet⟩]) :
    (rudpPoll lib inp b).recvQueue =
      if data.length ≤ maxPayloadSize then b.recvQueue ++ [data] else b.recvQueue := by
  unfold rudpSend at hsent
  split at hsent
  · cases hsent
  · simp only [rudpSendNolock] at hsent
    split at hsent
    · cases hsent
    · rename_i hfit
      split at hsent
      · cases hsent
      · rename_i a' p hseal
        split at hsent
        · obtain rfl := Option.some.inj hsent
          have hne : p ≠ [] := sealDatagram_ne_nil hseal
          obtain ⟨b', heq, hpoll⟩ := rudpPoll_single lib hinit hinp hne
          have hm' : Mirrored (a.readClock sendInp.clock) b' := Mirrored.congr { hm with } heq
          simp only [RudpContext.endpoint, Prod.mk.injEq] at heq
          obtain ⟨-, -, hlast, hqueue⟩ := heq
          have hlen := le_limit_of_not (a.readClock sendInp.clock) hfit
          have hwindow' : ¬outsideWindow (b'.readClock clock)
              (wireTick (a.readClock sendInp.clock).now) := by
            change ¬(_ < b'.lastRecvYourTick ∧ _ ≤ b'.lastRecvYourTick - _)
            rw [hlast]
            exact hwindow
          rw [hpoll, recvPacket_sealDatagram hlib hm' hseal (tick64_lt _) hlen, receiveInner,
            if_neg hwindow', queueData_sendPayload hlib hdata hflag]
          · rw [noteReception_recvQueue, notePacket_recvQueue]
            change (if _ then b'.recvQueue ++ [data] else b'.recvQueue) = _
            rw [hqueue]
          · rw [noteReception_recvQueue, notePacket_recvQueue]
            exact hqueue ▸ hroom
        · cases hsent

theorem rudpSend_ret_pos {lib : Libs} {inp : SendInput} {data : Bytes} {flag : UInt8}
    {ctx : RudpContext} (h : 0 < (rudpSend lib inp data flag ctx).ret) :
    ∃ packet, (rudpSend lib inp data flag ctx).sent = some packet := by
  unfold rudpSend at *
  split at h
  · cases h
  · rename_i hready
    rw [if_neg hready]
    simp only [rudpSendNolock] at *
    split at h
    · cases h
    · rename_i hfit
      rw [if_neg hfit]
      split at h
      · cases h
      · split at h
        · rename_i hto
          exact ⟨_, by rw [if_pos hto]⟩
        · cases h

theorem roundTrip_iff {lib : Libs} (hlib : lib.Lawful) {a b : RudpContext} (hm : Mirrored a b)
    {sendInp : SendInput} {data : Bytes} {flag : UInt8} (hdata : data ≠ [])
    (hflag : flag &&& flagCompressed = 0) (hret : 0 < (rudpSend lib sendInp data flag a).ret)
    (hinit : b.inited = true) (hwindow : ¬outsideWindow b (wireTick (tick64 sendInp.clock)))
    (hroom : b.recvQueue.length < recvQueueSize) (clock : Timespec) (fromAddr : SockAddr) :
    (∃ packet, (rudpSend lib sendInp data flag a).sent = some packet ∧
      ∀ inp : PollInput, inp.datagrams = [⟨clock, fromAddr, packet⟩] →
        (rudpPoll lib inp b).recvQueue = b.recvQueue ++ [data]) ↔
      data.length ≤ maxPayloadSize := by
  obtain ⟨packet, hsent⟩ := rudpSend_ret_pos hret
  have hqueue : ∀ inp : PollInput, inp.datagrams = [⟨clock, fromAddr, packet⟩] →
      (rudpPoll lib inp b).recvQueue =
        if data.length ≤ maxPayloadSize then b.recvQueue ++ [data] else b.recvQueue :=
    fun inp hinp => rudpPoll_rudpSend hlib hm hdata hflag hsent hinit hwindow hroom hinp
  constructor
  · rintro ⟨packet', hsent', happend⟩
    obtain rfl := Option.some.inj (hsent.symm.trans hsent')
    by_contra hlong
    have hsame := hqueue ⟨clock, sendInp, 0, [⟨clock, fromAddr, packet⟩]⟩ rfl
    rw [happend _ rfl, if_neg hlong] at hsame
    simp at hsame
  · intro hle
    refine ⟨packet, hsent, ?_⟩
    intro inp hinp
    rw [hqueue inp hinp, if_pos hle]

theorem Libs.plain_lawful : Libs.plain.Lawful where
  aeadOpen_seal _ _ _ := by simp [Libs.plain]
  compress2_ne_nil _ _ _ h := by cases h
  uncompress_compress2 _ _ _ _ h := by cases h

/-- A session of version 1 without compression accepts what fits its packet buffer. -/
theorem rudpSend_accepts {lib : Libs} {inp : SendInput} {data : Bytes} {flag : UInt8}
    {ctx : RudpContext} (hinit : ctx.inited = true) (hpeer : ctx.peerAddrSet = true)
    (hv : ctx.version = .v1) (hcomp : ctx.useCompress = false) (hto : inp.sendto = true)
    (hlen : data.length ≤ 1977) : 0 < (rudpSend lib inp data flag ctx).ret := by
  have hpayload : sendPayload lib data flag (ctx.readClock inp.clock) = (data, flag) := by
    unfold sendPayload
    rw [if_neg (by simp [RudpContext.readClock, hcomp])]
  have hver : (ctx.readClock inp.clock).version = .v1 := hv
  have hfit : ¬(data ≠ [] ∧ ivSize (ctx.readClock inp.clock) + 23 + data.length >
      tmpBufSize - packetIvSizeV1 - 8) := by
    simp only [ivSize, hver, packetIvSizeV1, tmpBufSize]
    omega
  simp only [rudpSend, hinit, hpeer, Bool.true_eq_false, or_self, if_false, rudpSendNolock,
    hpayload, if_neg hfit, sealDatagram, hver, hto, if_true]
  simp [innerBytes_length]
  omega

def sampleSend : SendInput := ⟨clockAt 1 firstSecond, 0, true⟩

/-- The two ends of a session of version 1. -/
def clientV1 : RudpContext := rudpInit { sampleClient with version := .v1 }
def serverV1 : RudpContext := rudpInit { sampleServer with version := .v1 }

theorem clientV1_mirrored : Mirrored clientV1 serverV1 := ⟨rfl, rfl, rfl, rfl, rfl, rfl, rfl⟩

theorem shortPayload_received :
    ∃ packet, (rudpSend Libs.plain sampleSend [1, 2, 3] 0 clientV1).sent = some packet ∧
      ∀ inp : PollInput, inp.datagrams = [⟨sampleSend.clock, sampleClient.peer, packet⟩] →
        (rudpPoll Libs.plain inp serverV1).recvQueue = serverV1.recvQueue ++ [[1, 2, 3]] :=
  (roundTrip_iff Libs.plain_lawful clientV1_mirrored (by simp) (by decide)
    (rudpSend_accepts rfl rfl rfl rfl rfl (by decide)) rfl (by decide) (by decide) _ _).mpr
    (by decide)

/-- A block of 1700 bytes, which the sender accepts. -/
def longPayload : Bytes := List.replicate 1700 7

theorem longPayload_lost :
    Libs.plain.Lawful ∧ Mirrored clientV1 serverV1 ∧
      0 < (rudpSend Libs.plain sampleSend longPayload 0 clientV1).ret ∧
      serverV1.inited = true ∧
      ¬outsideWindow serverV1 (wireTick (tick64 sampleSend.clock)) ∧
      serverV1.recvQueue.length < recvQueueSize ∧
      ∀ packet, (rudpSend Libs.plain sampleSend longPayload 0 clientV1).sent = some packet →
        ∀ inp : PollInput, inp.datagrams = [⟨sampleSend.clock, sampleClient.peer, packet⟩] →
          (rudpPoll Libs.plain inp serverV1).recvQueue ≠ serverV1.recvQueue ++ [longPayload] := by
  have hlen : longPayload.length = 1700 := List.length_replicate
  have hne : longPayload ≠ [] := List.ne_nil_of_length_pos (by omega)
  refine ⟨Libs.plain_lawful, clientV1_mirrored,
    rudpSend_accepts rfl rfl rfl rfl rfl (by omega), rfl, by decide, by decide, ?_⟩
  intro packet hsent inp hinp
  rw [rudpPoll_rudpSend Libs.plain_lawful clientV1_mirrored hne (by decide) hsent rfl (by decide)
    (by decide) hinp, if_neg (by rw [hlen]; decide)]
  simp

end SoftEtherVpn.UdpAccel
