import SoftEtherVpn.UdpAccel.Reception
import SoftEtherVpn.UdpAccel.RoundTrip

/-!
# Two ends of the UDP path

Two contexts with mirrored keys and cookies send, poll and receive over a network that loses,
repeats and reorders datagrams and adds others that do not open. What one end returns was sent by
the other one, within the receive window; and an end that finds the path ready has had the echo of
a packet that the other end took in.
-/

namespace SoftEtherVpn.UdpAccel

open Foundation Rudp

/-- A packet that one end has sent: the datagram, the tick it carries, the tick of the peer that it
echoes, and the payload, which is empty in a keepalive. -/
structure SentPacket where
  bytes : Bytes
  tick : ℕ
  echo : ℕ
  payload : Bytes
  deriving Inhabited

/-- One end of the path, with the packets it has sent and noted and the blocks it has returned. -/
structure End where
  ctx : RudpContext
  sent : List SentPacket
  noted : List Inner
  returned : List Bytes

/-- What one `rudp_send` puts on the wire. -/
def sentPacket (lib : Libs) (inp : SendInput) (data : Bytes) (ctx : RudpContext) :
    List SentPacket :=
  (rudpSend lib inp data 0 ctx).sent.toList.map fun bytes =>
    ⟨bytes, wireTick (tick64 inp.clock), ctx.lastRecvYourTick, data⟩

/-- The context in which a poll looks at its keep-alive timer. -/
def pollTimer (inp : PollInput) (ctx : RudpContext) : RudpContext :=
  let ctx := ctx.readClock inp.clock
  pollTimeout (ctx.record (.polled ctx.now ctx.lastRecvTick))

/-- The keepalive of a poll, if one is due. -/
def pollSent (lib : Libs) (inp : PollInput) (ctx : RudpContext) : List SentPacket :=
  let ctx := pollTimer inp ctx
  if ctx.nextSendKeepalive = 0 ∨ ctx.nextSendKeepalive ≤ ctx.now then
    if ctx.peerAddrSet then sentPacket lib inp.keepalive [] ctx else []
  else []

/-- The packets of a receive loop that are noted in the context. -/
def notedPackets (lib : Libs) : List Datagram → RudpContext → List Inner
  | [], _ => []
  | d :: ds, ctx =>
    if d.data = [] then []
    else (received lib d ctx).toList ++ notedPackets lib ds (recvPacket lib d ctx)

namespace End

def send (lib : Libs) (inp : SendInput) (data : Bytes) (e : End) : End :=
  { e with
    ctx := (rudpSend lib inp data 0 e.ctx).ctx
    sent := e.sent ++ sentPacket lib inp data e.ctx }

def poll (lib : Libs) (inp : PollInput) (e : End) : End :=
  if e.ctx.inited = false then e
  else
    { e with
      ctx := rudpPoll lib inp e.ctx
      sent := e.sent ++ pollSent lib inp e.ctx
      noted := e.noted ++ notedPackets lib inp.datagrams (pollStart lib inp e.ctx) }

def recv (maxLen : ℕ) (e : End) : End :=
  let r := rudpRecv maxLen e.ctx
  { e with ctx := r.1, returned := e.returned ++ r.2.toList }

def check (checkKeepalive : Bool) (e : End) : End :=
  { e with ctx := (rudpIsSendReady checkKeepalive e.ctx).1 }

end End

/-- What a datagram decrypts and parses to; the receive window is not looked at. -/
def opened (lib : Libs) (d : Datagram) (ctx : RudpContext) : Option Inner :=
  (decryptDatagram lib d ctx).bind fun p => parseInner ctx.myCookie p.1 p.2

/-- A datagram opens only if the peer has sent it. -/
def Authentic (lib : Libs) (sent : List SentPacket) (ctx : RudpContext) (d : Datagram) : Prop :=
  opened lib d ctx ≠ none → d.data.take tmpBufSize ∈ sent.map SentPacket.bytes

instance (lib : Libs) (sent : List SentPacket) (ctx : RudpContext) (d : Datagram) :
    Decidable (Authentic lib sent ctx d) :=
  inferInstanceAs (Decidable (_ → _))

structure Link where
  a : End
  b : End

/-- The calls at one end. -/
inductive EndCall
  | send (inp : SendInput) (data : Bytes)
  | poll (inp : PollInput)
  | recv (maxLen : ℕ)
  | check (checkKeepalive : Bool)

/-- A call at the end `e`, whose peer has sent the given packets. -/
def endStep (lib : Libs) (peerSent : List SentPacket) (e : End) : EndCall → Option End
  | .send inp data => some (e.send lib inp data)
  | .poll inp =>
    if ∀ d ∈ inp.datagrams, Authentic lib peerSent e.ctx d then some (e.poll lib inp) else none
  | .recv maxLen => some (e.recv maxLen)
  | .check checkKeepalive => some (e.check checkKeepalive)

inductive LinkEvent
  | atA (call : EndCall)
  | atB (call : EndCall)

def linkStep (lib : Libs) (s : Link) : LinkEvent → Option Link
  | .atA call => (endStep lib s.b.sent s.a call).map fun e => { s with a := e }
  | .atB call => (endStep lib s.a.sent s.b call).map fun e => { s with b := e }

/-- The block that a packet hands to the receive queue, if it has one. -/
def Inner.carried (lib : Libs) (i : Inner) : Option Bytes :=
  if i.data = [] then none else i.block lib

/-- The packet `i` is what the sent packet opens to. -/
structure SentPacket.Carries (lib : Libs) (p : SentPacket) (i : Inner) : Prop where
  tick : i.myTick = p.tick
  echo : i.yourTick = wrap64 p.echo
  block : ∀ block, i.carried lib = some block → block = p.payload ∧ block ≠ []

/-! ## What a datagram opens to -/

theorem decryptDatagram_v1 {lib : Libs} {clock : Timespec} {fromAddr : SockAddr} {iv enc : Bytes}
    {ctx : RudpContext} (hv : ctx.version = .v1) (hiv : iv.length = packetIvSizeV1)
    (hmin : 5 ≤ enc.length) (hmax : iv.length + enc.length ≤ tmpBufSize) :
    decryptDatagram lib ⟨clock, fromAddr, iv ++ enc⟩ ctx =
      some (true, rc4Crypt (calcKey lib ctx.yourKey iv) enc) := by
  have htake : (iv ++ enc).take tmpBufSize = iv ++ enc :=
    List.take_of_length_le (by rw [List.length_append]; exact hmax)
  have hlong : ¬(iv ++ enc).length < packetIvSizeV1 + 4 + 1 := by
    rw [List.length_append]
    omega
  simp only [decryptDatagram, htake, if_neg hlong, hv, List.take_left' hiv, List.drop_left' hiv]

theorem decryptDatagram_v2 {lib : Libs} {clock : Timespec} {fromAddr : SockAddr}
    {iv enc tag : Bytes} {ctx : RudpContext} (hv : ctx.version = .v2)
    (hiv : iv.length = packetIvSizeV2) (htag : tag.length = packetMacSizeV2)
    (hmin : 5 ≤ enc.length) (hmax : iv.length + enc.length + tag.length ≤ tmpBufSize) :
    decryptDatagram lib ⟨clock, fromAddr, iv ++ enc ++ tag⟩ ctx =
      (lib.aeadOpen ctx.yourKeyV2 iv enc tag).map fun plain => (false, plain) := by
  have hlen : (iv ++ enc ++ tag).length = iv.length + enc.length + tag.length := by
    simp only [List.length_append]
  have htake : (iv ++ enc ++ tag).take tmpBufSize = iv ++ enc ++ tag :=
    List.take_of_length_le (hlen.trans_le hmax)
  have hlong : ¬(iv ++ enc ++ tag).length < packetIvSizeV1 + 4 + 1 := by
    simp only [hlen, hiv, htag, packetIvSizeV1, packetIvSizeV2, packetMacSizeV2]
    omega
  have hlong' : ¬(iv ++ enc ++ tag).length < packetIvSizeV2 + packetMacSizeV2 + 4 + 1 := by
    omega
  have hsize : (enc ++ tag).length - packetMacSizeV2 = enc.length := by
    rw [List.length_append]
    omega
  simp only [decryptDatagram, htake, if_neg hlong, hv, if_neg hlong']
  simp only [List.append_assoc, List.take_left' hiv, List.drop_left' hiv, hsize, List.take_left,
    List.drop_left]

/-- The other end opens a sealed packet. -/
theorem opened_sealDatagram {lib : Libs} (hlib : lib.Lawful) {a a' b : RudpContext}
    (hm : Mirrored a b) {rand : ℕ} {flag : UInt8} {data packet : Bytes}
    (hseal : sealDatagram lib rand flag data a = some (a', packet)) (hnow : a.now < 2 ^ 44)
    (hfit : ivSize a + 23 + data.length ≤ tmpBufSize - packetIvSizeV1 - 8)
    (clock : Timespec) (fromAddr : SockAddr) :
    opened lib ⟨clock, fromAddr, packet⟩ b =
      some ⟨wireTick a.now, wrap64 a.lastRecvYourTick, flag, data⟩ := by
  have hlen := innerBytes_length a flag data
  have hdata : data.length < 2 ^ 16 := by
    simp only [tmpBufSize] at hfit
    norm_num
    omega
  unfold opened
  cases hv : a.version with
  | v1 =>
    have hpad := le_paddingSize a rand (packetIvSizeV1 + 23 + data.length + packetIvSizeV1)
    have hiv := a.nextIv.toList_length
    simp only [sealDatagram, hv, Option.some.injEq, Prod.mk.injEq] at hseal
    obtain ⟨-, hpacket⟩ := hseal
    generalize paddingSize a rand _ = n at hpacket hpad
    subst hpacket
    simp only [ivSize, hv, tmpBufSize, packetIvSizeV1, maxUdpPacketIpv4] at hfit hpad
    rw [decryptDatagram_v1 (hm.version.symm.trans hv) hiv, ← hm.myKey, rc4Crypt_rc4Crypt,
      List.append_assoc, Option.bind_some, ← hm.yourCookie]
    · exact parseInner_innerBytes hnow hdata true fun _ => ⟨_, rfl⟩
    · simp [hlen]
      omega
    · rw [hiv]
      simp [hlen, packetIvSizeV1, tmpBufSize]
      omega
  | v2 =>
    have hpad := le_paddingSize a rand (packetIvSizeV2 + 23 + data.length + packetMacSizeV2)
    have hiv := a.nextIvV2.toList_length
    simp only [sealDatagram, hv] at hseal
    split at hseal
    · cases hseal
    · rename_i htotal
      simp only [Option.some.injEq, Prod.mk.injEq] at hseal
      obtain ⟨-, hpacket⟩ := hseal
      generalize paddingSize a rand _ = n at hpacket htotal hpad
      subst hpacket
      simp only [packetIvSizeV2, packetMacSizeV2, tmpBufSize, maxUdpPacketIpv4] at htotal hpad
      rw [hm.myKeyV2, decryptDatagram_v2 (hm.version.symm.trans hv) hiv (lib.aeadSeal_tag _ _ _),
        hlib.aeadOpen_seal, Option.map_some, Option.bind_some, ← hm.yourCookie]
      · exact parseInner_innerBytes hnow hdata false (by simp)
      · rw [lib.aeadSeal_length]
        simp [hlen]
        omega
      · rw [hiv, lib.aeadSeal_length, lib.aeadSeal_tag]
        simp [hlen, packetIvSizeV2, packetMacSizeV2, tmpBufSize]
        omega

/-! ## What the calls leave alone -/

/-- Version, keys and cookies. -/
def RudpContext.keys (ctx : RudpContext) :
    (Version × Bytes × Bytes × Bytes × Bytes) × UInt32 × UInt32 :=
  ((ctx.version, ctx.myKey, ctx.yourKey, ctx.myKeyV2, ctx.yourKeyV2), ctx.myCookie, ctx.yourCookie)

/-- What the reception of packets depends on and changes. -/
def RudpContext.arrivals (ctx : RudpContext) :
    ((Version × Bytes × Bytes × Bytes × Bytes) × UInt32 × UInt32) × (ℕ × ℕ × ℕ) × List Bytes :=
  (ctx.keys, (ctx.lastRecvYourTick, ctx.lastRecvMyTick, ctx.lastRecvTick), ctx.recvQueue)

theorem rudpCwinRefill_arrivals (ctx : RudpContext) :
    (rudpCwinRefill ctx).arrivals = ctx.arrivals := by
  unfold rudpCwinRefill
  split_ifs <;> rfl

theorem rudpSend_arrivals (lib : Libs) (inp : SendInput) (data : Bytes) (flag : UInt8)
    (ctx : RudpContext) : (rudpSend lib inp data flag ctx).ctx.arrivals = ctx.arrivals := by
  have hseal : ∀ {rand fl payload packet} {c c' : RudpContext},
      sealDatagram lib rand fl payload c = some (c', packet) → c'.arrivals = c.arrivals := by
    intro rand fl payload packet c c' h
    unfold sealDatagram at h
    split at h
    · cases h
      rfl
    · dsimp only at h
      split_ifs at h
      cases h
      rfl
  have hconsume : ∀ (n : ℕ) (c : RudpContext), (consumeBudget n c).arrivals = c.arrivals := by
    intro n c
    unfold consumeBudget
    split_ifs
    · exact rudpCwinRefill_arrivals c
    · rfl
  unfold rudpSend
  split
  · rfl
  · simp only [rudpSendNolock]
    split
    · rfl
    · split
      · rfl
      · rename_i h
        have heq := hseal h
        split
        · rw [hconsume, heq]
          rfl
        · rw [heq]
          rfl

theorem pollStart_arrivals (lib : Libs) (inp : PollInput) (ctx : RudpContext) :
    (pollStart lib inp ctx).arrivals = ctx.arrivals := by
  obtain ⟨now, iv, ivV2, keepalive, first, loss, history, heq⟩ := pollStart_frame lib inp ctx
  rw [heq]
  rfl

theorem rudpIsSendReady_arrivals (check : Bool) (ctx : RudpContext) :
    (rudpIsSendReady check ctx).1.arrivals = ctx.arrivals ∧
      (rudpIsSendReady check ctx).1.now = ctx.now ∧
      (rudpIsSendReady check ctx).1.mss = ctx.mss := by
  have hrefill : ∀ c : RudpContext, (rudpCwinRefill c).arrivals = c.arrivals ∧
      (rudpCwinRefill c).now = c.now ∧ (rudpCwinRefill c).mss = c.mss := by
    intro c
    unfold rudpCwinRefill
    split_ifs <;> exact ⟨rfl, rfl, rfl⟩
  have hreset : ∀ c : RudpContext, (cleanReset c).arrivals = c.arrivals ∧
      (cleanReset c).now = c.now ∧ (cleanReset c).mss = c.mss := by
    intro c
    unfold cleanReset
    split_ifs <;> exact ⟨rfl, rfl, rfl⟩
  have hend : ∀ c : RudpContext, (endSuspension c).arrivals = c.arrivals ∧
      (endSuspension c).now = c.now ∧ (endSuspension c).mss = c.mss := by
    intro c
    unfold endSuspension
    split_ifs <;> exact ⟨rfl, rfl, rfl⟩
  have hcheck : ∀ c : RudpContext, (checkReception check c).1.arrivals = c.arrivals ∧
      (checkReception check c).1.now = c.now ∧ (checkReception check c).1.mss = c.mss := by
    intro c
    unfold checkReception
    split_ifs <;> exact ⟨rfl, rfl, rfl⟩
  have hnolock : ∀ c : RudpContext, (rudpIsSendReadyNolock check c).1.arrivals = c.arrivals ∧
      (rudpIsSendReadyNolock check c).1.now = c.now ∧
      (rudpIsSendReadyNolock check c).1.mss = c.mss := by
    intro c
    obtain ⟨h1, h2, h3⟩ := hrefill c
    obtain ⟨h4, h5, h6⟩ := hreset (rudpCwinRefill c)
    obtain ⟨h7, h8, h9⟩ := hend (cleanReset (rudpCwinRefill c))
    obtain ⟨h10, h11, h12⟩ := hcheck (endSuspension (cleanReset (rudpCwinRefill c)))
    simp only [rudpIsSendReadyNolock]
    split_ifs
    · exact ⟨h4.trans h1, h5.trans h2, h6.trans h3⟩
    · exact ⟨(h7.trans h4).trans h1, (h8.trans h5).trans h2, (h9.trans h6).trans h3⟩
    · exact ⟨((h10.trans h7).trans h4).trans h1, ((h11.trans h8).trans h5).trans h2,
        ((h12.trans h9).trans h6).trans h3⟩
  unfold rudpIsSendReady
  split_ifs
  · exact ⟨rfl, rfl, rfl⟩
  · exact hnolock (ctx.record (.evaluated ctx.now ctx.lastRecvTick))

/-! ## The arrival of a packet -/

/-- What a noted packet does to the context. -/
structure Arrives (lib : Libs) (i : Inner) (ctx ctx' : RudpContext) : Prop where
  keys : ctx'.keys = ctx.keys
  window : ctx.lastRecvYourTick < i.myTick + windowSizeMsec
  yourTick : ctx'.lastRecvYourTick = max ctx.lastRecvYourTick i.myTick
  myTick : ctx'.lastRecvMyTick = max ctx.lastRecvMyTick i.yourTick
  stamp : ctx'.lastRecvTick = ctx.lastRecvTick ∨
    (ctx'.lastRecvMyTick ≠ 0 ∧ ctx'.lastRecvTick ≤ wrap64 (ctx'.lastRecvMyTick + windowSizeMsec))
  queue : ctx'.recvQueue = ctx.recvQueue ∨
    ∃ block, i.carried lib = some block ∧ ctx'.recvQueue = ctx.recvQueue ++ [block]

theorem notePacket_arrivals (i : Inner) (a : SockAddr) (ctx : RudpContext) :
    (notePacket i a ctx).arrivals = (ctx.keys, (max ctx.lastRecvYourTick i.myTick,
      max ctx.lastRecvMyTick i.yourTick, ctx.lastRecvTick), ctx.recvQueue) := by
  simp only [notePacket, noteGap]
  split_ifs <;> rfl

theorem queueData_arrivals (lib : Libs) (i : Inner) (ctx : RudpContext) :
    (queueData lib i ctx).1.keys = ctx.keys ∧
      (queueData lib i ctx).1.lastRecvYourTick = ctx.lastRecvYourTick ∧
      (queueData lib i ctx).1.lastRecvMyTick = ctx.lastRecvMyTick ∧
      (queueData lib i ctx).1.lastRecvTick = ctx.lastRecvTick ∧
      ((queueData lib i ctx).1.recvQueue = ctx.recvQueue ∨
        ∃ block, i.carried lib = some block ∧
          (queueData lib i ctx).1.recvQueue = ctx.recvQueue ++ [block]) := by
  rw [queueData_eq, Inner.carried]
  by_cases hdata : i.data = []
  · rw [if_pos hdata]
    exact ⟨rfl, rfl, rfl, rfl, Or.inl rfl⟩
  · rw [if_neg hdata, if_neg hdata]
    cases i.block lib with
    | none => exact ⟨rfl, rfl, rfl, rfl, Or.inl rfl⟩
    | some block =>
      dsimp only
      unfold queueBlock
      split_ifs
      · exact ⟨rfl, rfl, rfl, rfl, Or.inr ⟨block, rfl, rfl⟩⟩
      · exact ⟨rfl, rfl, rfl, rfl, Or.inl rfl⟩
      · exact ⟨rfl, rfl, rfl, rfl, Or.inl rfl⟩

theorem recvPacket_arrives {lib : Libs} {d : Datagram} {ctx : RudpContext} {i : Inner}
    (h : received lib d ctx = some i) : Arrives lib i ctx (recvPacket lib d ctx) := by
  obtain ⟨p, -, hread⟩ := Option.bind_eq_some_iff.mp h
  obtain ⟨-, hin⟩ := Option.filter_eq_some_iff.mp hread
  have hinside : ¬outsideWindow ctx i.myTick := of_decide_eq_true hin
  unfold outsideWindow at hinside
  have hnote := notePacket_arrivals i d.fromAddr (ctx.readClock d.clock)
  simp only [RudpContext.arrivals, Prod.mk.injEq] at hnote
  obtain ⟨hkeys, ⟨hyour, hmy, htick⟩, hqueue⟩ := hnote
  have hreception : ∀ c : RudpContext, (noteReception c).keys = c.keys ∧
      (noteReception c).lastRecvYourTick = c.lastRecvYourTick ∧
      (noteReception c).lastRecvMyTick = c.lastRecvMyTick ∧
      ((noteReception c).lastRecvTick = c.lastRecvTick ∨
        (c.lastRecvMyTick ≠ 0 ∧
          (noteReception c).lastRecvTick ≤ wrap64 (c.lastRecvMyTick + windowSizeMsec))) := by
    intro c
    unfold noteReception
    split_ifs with hrecent
    · exact ⟨rfl, rfl, rfl, Or.inr hrecent⟩
    · exact ⟨rfl, rfl, rfl, Or.inr hrecent⟩
    · exact ⟨rfl, rfl, rfl, Or.inl rfl⟩
  rw [recvPacket_of_received h, noteInner]
  obtain ⟨c, hc⟩ : ∃ c, c = notePacket i d.fromAddr (ctx.readClock d.clock) := ⟨_, rfl⟩
  rw [← hc] at hkeys hyour hmy htick hqueue ⊢
  obtain ⟨hkeys', hyour', hmy', hstamp⟩ := hreception c
  obtain ⟨hkeys'', hyour'', hmy'', htick'', hqueue''⟩ := queueData_arrivals lib i (noteReception c)
  constructor
  · exact (hkeys''.trans hkeys').trans hkeys
  · unfold windowSizeMsec at hinside ⊢
    omega
  · exact (hyour''.trans hyour').trans hyour
  · exact (hmy''.trans hmy').trans hmy
  · rw [htick'', hmy'', hmy']
    exact hstamp.imp_left fun heq => heq.trans htick
  · rw [noteReception_recvQueue, hqueue] at hqueue''
    exact hqueue''

/-! ## One end -/

/-- What holds of one end by itself. -/
structure EndInv (lib : Libs) (e : End) : Prop where
  peak : ∀ i ∈ e.noted, i.myTick ≤ e.ctx.lastRecvYourTick
  attained : e.ctx.lastRecvYourTick = 0 ∨ ∃ i ∈ e.noted, i.myTick = e.ctx.lastRecvYourTick
  window : e.noted.Pairwise fun i j => i.myTick < j.myTick + windowSizeMsec
  blocks : (e.returned ++ e.ctx.recvQueue).Sublist (e.noted.filterMap (Inner.carried lib))
  echoes : ∀ p ∈ e.sent, p.echo = 0 ∨ ∃ i ∈ e.noted, i.myTick = p.echo
  ticks : ∀ p ∈ e.sent, p.tick < 2 ^ 44
  own : e.ctx.lastRecvMyTick = 0 ∨ ∃ i ∈ e.noted, i.yourTick = e.ctx.lastRecvMyTick
  stamp : e.ctx.lastRecvMyTick < 2 ^ 44 → e.ctx.lastRecvTick ≠ 0 → e.ctx.lastRecvMyTick ≠ 0 ∧
    e.ctx.lastRecvTick ≤ e.ctx.lastRecvMyTick + windowSizeMsec

namespace EndInv

variable {lib : Libs} {e : End} {ctx : RudpContext}

/-- A call that receives nothing. -/
theorem congr (h : EndInv lib e) (heq : ctx.arrivals = e.ctx.arrivals) :
    EndInv lib { e with ctx := ctx } := by
  simp only [RudpContext.arrivals, Prod.mk.injEq] at heq
  obtain ⟨-, ⟨hyour, hmy, htick⟩, hqueue⟩ := heq
  constructor
  · rw [hyour]
    exact h.peak
  · rw [hyour]
    exact h.attained
  · exact h.window
  · rw [hqueue]
    exact h.blocks
  · exact h.echoes
  · exact h.ticks
  · rw [hmy]
    exact h.own
  · rw [hmy, htick]
    exact h.stamp

theorem wireTick_lt (clock : Timespec) : wireTick (tick64 clock) < 2 ^ 44 := by
  have h := tick64_lt clock
  unfold wireTick
  split_ifs
  · norm_num
  · exact h

/-- A packet that is sent echoes the newest packet noted. -/
theorem addSent (h : EndInv lib e) {inp : SendInput} {data : Bytes}
    (heq : ctx.lastRecvYourTick = e.ctx.lastRecvYourTick) :
    EndInv lib { e with sent := e.sent ++ sentPacket lib inp data ctx } := by
  have hsent : ∀ p ∈ sentPacket lib inp data ctx, p.tick = wireTick (tick64 inp.clock) ∧
      p.echo = e.ctx.lastRecvYourTick := by
    intro p hp
    obtain ⟨bytes, -, rfl⟩ := List.mem_map.mp hp
    exact ⟨rfl, heq⟩
  refine ⟨h.peak, h.attained, h.window, h.blocks, ?_, ?_, h.own, h.stamp⟩
  · intro p hp
    rcases List.mem_append.mp hp with hp | hp
    · exact h.echoes p hp
    · rw [(hsent p hp).2]
      exact h.attained
  · intro p hp
    rcases List.mem_append.mp hp with hp | hp
    · exact h.ticks p hp
    · rw [(hsent p hp).1]
      exact wireTick_lt inp.clock

/-- A packet that is noted. -/
theorem note (h : EndInv lib e) {i : Inner} (hi : Arrives lib i e.ctx ctx) :
    EndInv lib { e with ctx := ctx, noted := e.noted ++ [i] } := by
  have hmem : i ∈ e.noted ++ [i] := List.mem_append_right _ (List.mem_singleton_self i)
  constructor
  · intro j hj
    rw [hi.yourTick]
    rcases List.mem_append.mp hj with hj | hj
    · exact le_max_of_le_left (h.peak j hj)
    · obtain rfl := List.mem_singleton.mp hj
      exact le_max_right _ _
  · rw [hi.yourTick]
    rcases le_total e.ctx.lastRecvYourTick i.myTick with hle | hle
    · exact Or.inr ⟨i, hmem, (max_eq_right hle).symm⟩
    · rw [max_eq_left hle]
      exact h.attained.imp_right fun ⟨j, hj, heq⟩ => ⟨j, List.mem_append_left _ hj, heq⟩
  · rw [List.pairwise_append]
    refine ⟨h.window, List.pairwise_singleton _ _, ?_⟩
    intro j hj k hk
    obtain rfl := List.mem_singleton.mp hk
    exact (h.peak j hj).trans_lt hi.window
  · rw [List.filterMap_append]
    rcases hi.queue with hqueue | ⟨block, hblock, hqueue⟩
    · rw [hqueue]
      exact h.blocks.trans (List.sublist_append_left _ _)
    · have hone : [i].filterMap (Inner.carried lib) = [block] := by
        rw [List.filterMap_cons, hblock]
        rfl
      rw [hqueue, hone, ← List.append_assoc]
      exact h.blocks.append (List.Sublist.refl _)
  · intro p hp
    exact (h.echoes p hp).imp_right fun ⟨j, hj, heq⟩ => ⟨j, List.mem_append_left _ hj, heq⟩
  · exact h.ticks
  · rw [hi.myTick]
    rcases le_total e.ctx.lastRecvMyTick i.yourTick with hle | hle
    · exact Or.inr ⟨i, hmem, (max_eq_right hle).symm⟩
    · rw [max_eq_left hle]
      exact h.own.imp_right fun ⟨j, hj, heq⟩ => ⟨j, List.mem_append_left _ hj, heq⟩
  · intro hlt hset
    have hmy := hi.myTick
    rcases hi.stamp with hold | ⟨hne, hle⟩
    · rw [hold] at hset ⊢
      have hgrow : e.ctx.lastRecvMyTick ≤ ctx.lastRecvMyTick := hmy.symm ▸ le_max_left _ _
      obtain ⟨hne, hle⟩ := h.stamp (hgrow.trans_lt hlt) hset
      exact ⟨((Nat.pos_of_ne_zero hne).trans_le hgrow).ne',
        hle.trans (Nat.add_le_add_right hgrow _)⟩
    · refine ⟨hne, hle.trans ?_⟩
      exact Nat.mod_le _ _

theorem receive (ds : List Datagram) (h : EndInv lib e) :
    EndInv lib { e with
      ctx := recvLoop lib ds e.ctx
      noted := e.noted ++ notedPackets lib ds e.ctx } := by
  induction ds generalizing e with
  | nil => simpa [recvLoop, notedPackets] using h
  | cons d ds ih =>
    unfold recvLoop notedPackets
    split_ifs
    · rw [List.append_nil]
      exact h
    · cases hrecv : received lib d e.ctx with
      | none =>
        have hsame : EndInv lib { e with ctx := recvPacket lib d e.ctx } := by
          rcases recvPacket_of_not_received hrecv with heq | heq
          · rw [heq]
            exact h
          · rw [heq]
            exact h.congr rfl
        exact ih hsame
      | some i =>
        rw [Option.toList_some, ← List.append_assoc]
        exact ih (h.note (recvPacket_arrives hrecv))

theorem poll (h : EndInv lib e) (inp : PollInput) : EndInv lib (e.poll lib inp) := by
  unfold End.poll
  split_ifs with hinit
  · exact h
  · rw [Bool.not_eq_false] at hinit
    rw [rudpPoll_eq inp hinit]
    have hsent : EndInv lib { e with sent := e.sent ++ pollSent lib inp e.ctx } := by
      unfold pollSent
      dsimp only
      split_ifs
      · refine h.addSent ?_
        unfold pollTimer pollTimeout
        dsimp only
        split_ifs <;> rfl
      · rw [List.append_nil]
        exact h
      · rw [List.append_nil]
        exact h
    exact (hsent.congr (pollStart_arrivals lib inp e.ctx)).receive inp.datagrams

theorem recv (h : EndInv lib e) (maxLen : ℕ) : EndInv lib (e.recv maxLen) := by
  unfold End.recv rudpRecv
  cases hqueue : e.ctx.recvQueue with
  | nil => simpa using h
  | cons block rest =>
    dsimp only
    split_ifs
    · simpa using h
    · refine ⟨h.peak, h.attained, h.window, ?_, h.echoes, h.ticks, h.own, h.stamp⟩
      have hblocks := h.blocks
      rw [hqueue] at hblocks
      simpa using hblocks

end EndInv

/-! ## Both ends -/

theorem keys_of_arrivals {ctx ctx' : RudpContext} (h : ctx'.arrivals = ctx.arrivals) :
    ctx'.keys = ctx.keys :=
  congrArg Prod.fst h

theorem recvPacket_keys (lib : Libs) (d : Datagram) (ctx : RudpContext) :
    (recvPacket lib d ctx).keys = ctx.keys := by
  cases h : received lib d ctx with
  | none =>
    rcases recvPacket_of_not_received h with heq | heq
    · rw [heq]
    · rw [heq]
      rfl
  | some i => exact (recvPacket_arrives h).keys

theorem recvLoop_keys (lib : Libs) (ds : List Datagram) (ctx : RudpContext) :
    (recvLoop lib ds ctx).keys = ctx.keys := by
  induction ds generalizing ctx with
  | nil => rfl
  | cons d ds ih =>
    unfold recvLoop
    split_ifs
    · rfl
    · exact (ih _).trans (recvPacket_keys lib d ctx)

theorem endStep_keys {lib : Libs} {sent : List SentPacket} {e e' : End} {call : EndCall}
    (h : endStep lib sent e call = some e') : e'.ctx.keys = e.ctx.keys := by
  cases call with
  | send inp data =>
    obtain rfl := Option.some.inj h
    exact keys_of_arrivals (rudpSend_arrivals lib inp data 0 e.ctx)
  | poll inp =>
    simp only [endStep] at h
    split_ifs at h
    obtain rfl := Option.some.inj h
    unfold End.poll
    split_ifs with hinit
    · rfl
    · rw [Bool.not_eq_false] at hinit
      rw [rudpPoll_eq inp hinit]
      exact (recvLoop_keys lib _ _).trans (keys_of_arrivals (pollStart_arrivals lib inp e.ctx))
  | recv maxLen =>
    obtain rfl := Option.some.inj h
    simp only [End.recv, rudpRecv]
    split
    · rfl
    · split <;> rfl
  | check k =>
    obtain rfl := Option.some.inj h
    exact keys_of_arrivals (rudpIsSendReady_arrivals k e.ctx).1

theorem Mirrored.of_keys {a b a' b' : RudpContext} (hm : Mirrored a b) (ha : a'.keys = a.keys)
    (hb : b'.keys = b.keys) : Mirrored a' b' := by
  simp only [RudpContext.keys, Prod.mk.injEq] at ha hb
  obtain ⟨⟨hv, hk, hy, hk2, hy2⟩, hc, hyc⟩ := ha
  obtain ⟨⟨hv', hk', hy', hk2', hy2'⟩, hc', hyc'⟩ := hb
  constructor
  · rw [hv, hv', hm.version]
  · rw [hk, hy', hm.myKey]
  · rw [hy, hk', hm.yourKey]
  · rw [hk2, hy2', hm.myKeyV2]
  · rw [hy2, hk2', hm.yourKeyV2]
  · rw [hc, hyc', hm.myCookie]
  · rw [hyc, hc', hm.yourCookie]

theorem Mirrored.symm {a b : RudpContext} (hm : Mirrored a b) : Mirrored b a :=
  ⟨hm.version.symm, hm.yourKey.symm, hm.myKey.symm, hm.yourKeyV2.symm, hm.myKeyV2.symm,
    hm.yourCookie.symm, hm.myCookie.symm⟩

theorem opened_congr (lib : Libs) {d d' : Datagram} {ctx ctx' : RudpContext}
    (hdata : d'.data.take tmpBufSize = d.data.take tmpBufSize) (hkeys : ctx'.keys = ctx.keys) :
    opened lib d' ctx' = opened lib d ctx := by
  simp only [RudpContext.keys, Prod.mk.injEq] at hkeys
  obtain ⟨⟨hv, -, hy, -, hy2⟩, hc, -⟩ := hkeys
  simp only [opened, decryptDatagram, hdata, hv, hy, hy2, hc]

/-- A noted packet is what its datagram opens to. -/
theorem opened_of_received {lib : Libs} {d : Datagram} {ctx : RudpContext} {i : Inner}
    (h : received lib d ctx = some i) : opened lib d ctx = some i := by
  obtain ⟨p, hp, hread⟩ := Option.bind_eq_some_iff.mp h
  rw [opened, hp]
  exact (Option.filter_eq_some_iff.mp hread).1

theorem rudpSend_sent {lib : Libs} {inp : SendInput} {data packet : Bytes} {flag : UInt8}
    {ctx : RudpContext} (h : (rudpSend lib inp data flag ctx).sent = some packet) :
    ∃ c, sealDatagram lib inp.rand (sendPayload lib data flag (ctx.readClock inp.clock)).2
        (sendPayload lib data flag (ctx.readClock inp.clock)).1 (ctx.readClock inp.clock) =
          some (c, packet) ∧
      ivSize ctx + 23 + (sendPayload lib data flag (ctx.readClock inp.clock)).1.length ≤
        tmpBufSize - packetIvSizeV1 - 8 := by
  unfold rudpSend at h
  split at h
  · cases h
  · simp only [rudpSendNolock] at h
    split at h
    · cases h
    · rename_i hfit
      split at h
      · cases h
      · rename_i c p hseal
        split at h
        · obtain rfl := Option.some.inj h
          exact ⟨c, hseal, le_limit_of_not (ctx.readClock inp.clock) hfit⟩
        · cases h

/-- The block of a packet is the payload it was made of. -/
theorem sendPayload_carried {lib : Libs} (hlib : lib.Lawful) {data block : Bytes}
    {ctx : RudpContext} {tick echo : ℕ}
    (h : Inner.carried lib ⟨tick, echo, (sendPayload lib data 0 ctx).2,
      (sendPayload lib data 0 ctx).1⟩ = some block) : block = data ∧ block ≠ [] := by
  by_cases hdata : data = []
  · subst hdata
    have hplain : sendPayload lib [] 0 ctx = ([], 0) := if_neg (by simp)
    rw [hplain, Inner.carried, if_pos rfl] at h
    cases h
  · rcases sendPayload_cases lib hdata 0 ctx with hplain | ⟨comp, hcomp, hsend⟩
    · rw [hplain, Inner.carried, if_neg hdata, Inner.block, if_neg (by simp)] at h
      obtain rfl := Option.some.inj h
      exact ⟨rfl, hdata⟩
    · have hne := hlib.compress2_ne_nil _ _ _ hcomp
      have hback := hlib.uncompress_compress2 _ _ _ (maxPayloadSize + 256) hcomp
      rw [hsend, Inner.carried, if_neg hne, Inner.block, if_pos (flagCompressed_set 0),
        uncompressData, if_neg hne, hback] at h
      split_ifs at h
      obtain rfl := Option.some.inj h
      exact ⟨rfl, hdata⟩

/-- The peer opens what was sent. -/
theorem sentPacket_opened {lib : Libs} (hlib : lib.Lawful) {inp : SendInput} {data : Bytes}
    {ctx y : RudpContext} (hm : Mirrored ctx y) {p : SentPacket}
    (hp : p ∈ sentPacket lib inp data ctx) (clock : Timespec) (fromAddr : SockAddr) :
    ∃ i, opened lib ⟨clock, fromAddr, p.bytes⟩ y = some i ∧ p.Carries lib i := by
  obtain ⟨packet, hpacket, rfl⟩ := List.mem_map.mp hp
  obtain ⟨c, hseal, hfit⟩ := rudpSend_sent (Option.mem_toList.mp hpacket)
  have hm' : Mirrored (ctx.readClock inp.clock) y := hm.of_keys rfl rfl
  refine ⟨_, opened_sealDatagram hlib hm' hseal (tick64_lt _) hfit clock fromAddr, rfl, rfl, ?_⟩
  intro block hblock
  exact sendPayload_carried hlib hblock

/-- What the end `y` has to do with the packets its peer has sent. -/
structure Origin (lib : Libs) (sent : List SentPacket) (y : End) : Prop where
  genuine : ∀ p ∈ sent, ∀ clock fromAddr, ∃ i,
    opened lib ⟨clock, fromAddr, p.bytes⟩ y.ctx = some i ∧ p.Carries lib i
  noted : ∀ i ∈ y.noted, ∃ p ∈ sent, p.Carries lib i

namespace Origin

variable {lib : Libs} {sent : List SentPacket} {y : End} {ctx : RudpContext}

theorem congr {y' : End} (h : Origin lib sent y) (hkeys : y'.ctx.keys = y.ctx.keys)
    (hnoted : y'.noted = y.noted) : Origin lib sent y' := by
  constructor
  · intro p hp clock fromAddr
    rw [opened_congr lib rfl hkeys]
    exact h.genuine p hp clock fromAddr
  · rw [hnoted]
    exact h.noted

theorem sends (h : Origin lib sent y) (hlib : lib.Lawful) (hm : Mirrored ctx y.ctx)
    (inp : SendInput) (data : Bytes) : Origin lib (sent ++ sentPacket lib inp data ctx) y := by
  constructor
  · intro p hp clock fromAddr
    rcases List.mem_append.mp hp with hp | hp
    · exact h.genuine p hp clock fromAddr
    · exact sentPacket_opened hlib hm hp clock fromAddr
  · intro i hi
    obtain ⟨p, hp, hcarries⟩ := h.noted i hi
    exact ⟨p, List.mem_append_left _ hp, hcarries⟩

theorem pollSends (h : Origin lib sent y) (hlib : lib.Lawful) (hm : Mirrored ctx y.ctx)
    (inp : PollInput) : Origin lib (sent ++ pollSent lib inp ctx) y := by
  have htimer : (pollTimer inp ctx).keys = ctx.keys := by
    unfold pollTimer pollTimeout
    dsimp only
    split_ifs <;> rfl
  unfold pollSent
  dsimp only
  split_ifs
  · exact h.sends hlib (hm.of_keys htimer rfl) inp.keepalive []
  · rw [List.append_nil]
    exact h
  · rw [List.append_nil]
    exact h

theorem receive (ds : List Datagram) (h : Origin lib sent y)
    (hauth : ∀ d ∈ ds, Authentic lib sent y.ctx d) :
    Origin lib sent { y with
      ctx := recvLoop lib ds y.ctx
      noted := y.noted ++ notedPackets lib ds y.ctx } := by
  induction ds generalizing y with
  | nil => simpa [recvLoop, notedPackets] using h
  | cons d ds ih =>
    have hkeys := recvPacket_keys lib d y.ctx
    have hrest : ∀ d' ∈ ds, Authentic lib sent (recvPacket lib d y.ctx) d' := by
      intro d' hd'
      unfold Authentic
      rw [opened_congr lib rfl hkeys]
      exact hauth d' (List.mem_cons_of_mem _ hd')
    unfold recvLoop notedPackets
    split_ifs
    · rw [List.append_nil]
      exact h
    · cases hrecv : received lib d y.ctx with
      | none => exact ih (y := { y with ctx := recvPacket lib d y.ctx }) (h.congr hkeys rfl) hrest
      | some i =>
        rw [Option.toList_some, ← List.append_assoc]
        have hnext : Origin lib sent { y with ctx := recvPacket lib d y.ctx } := h.congr hkeys rfl
        refine ih (y := { y with ctx := recvPacket lib d y.ctx, noted := y.noted ++ [i] })
          ⟨hnext.genuine, ?_⟩ hrest
        intro j hj
        rcases List.mem_append.mp hj with hj | hj
        · exact h.noted j hj
        · obtain rfl := List.mem_singleton.mp hj
          have hopen := opened_of_received hrecv
          have hmem := hauth d List.mem_cons_self (by rw [hopen]; exact Option.some_ne_none _)
          obtain ⟨p, hp, hbytes⟩ := List.mem_map.mp hmem
          obtain ⟨k, hk, hcarries⟩ := h.genuine p hp d.clock d.fromAddr
          rw [opened_congr lib (d := d) (by rw [hbytes, List.take_take, min_self]) rfl, hopen] at hk
          obtain rfl := Option.some.inj hk
          exact ⟨p, hp, hcarries⟩

end Origin

/-! ## Runs -/

/-- What holds of two ends and the network between them. -/
structure PairInv (lib : Libs) (x y : End) : Prop where
  mirrored : Mirrored x.ctx y.ctx
  left : EndInv lib x
  right : EndInv lib y
  forth : Origin lib x.sent y
  back : Origin lib y.sent x

namespace PairInv

variable {lib : Libs} {x x' y : End}

theorem symm (h : PairInv lib x y) : PairInv lib y x :=
  ⟨h.mirrored.symm, h.right, h.left, h.back, h.forth⟩

/-- A call at one end keeps the invariant. -/
theorem endStep (hlib : lib.Lawful) (h : PairInv lib x y) {call : EndCall}
    (hstep : UdpAccel.endStep lib y.sent x call = some x') : PairInv lib x' y := by
  have hkeys := endStep_keys hstep
  have hm : Mirrored x'.ctx y.ctx := h.mirrored.of_keys hkeys rfl
  cases call with
  | send inp data =>
    obtain rfl := Option.some.inj hstep
    have hsent : EndInv lib { x with sent := x.sent ++ sentPacket lib inp data x.ctx } :=
      h.left.addSent rfl
    exact ⟨hm, hsent.congr (rudpSend_arrivals lib inp data 0 x.ctx), h.right,
      h.forth.sends hlib h.mirrored inp data, h.back.congr hkeys rfl⟩
  | poll inp =>
    simp only [UdpAccel.endStep] at hstep
    split_ifs at hstep with hauth
    obtain rfl := Option.some.inj hstep
    refine ⟨hm, h.left.poll inp, h.right, ?_, ?_⟩
    · unfold End.poll
      split_ifs
      · exact h.forth
      · exact h.forth.pollSends hlib h.mirrored inp
    · unfold End.poll
      split_ifs with hinit
      · exact h.back
      · rw [Bool.not_eq_false] at hinit
        rw [rudpPoll_eq inp hinit]
        have hstart := keys_of_arrivals (pollStart_arrivals lib inp x.ctx)
        have hentry : Origin lib y.sent { x with
            ctx := pollStart lib inp x.ctx, sent := x.sent ++ pollSent lib inp x.ctx } :=
          h.back.congr hstart rfl
        refine hentry.receive inp.datagrams ?_
        intro d hd
        unfold Authentic
        rw [opened_congr lib rfl hstart]
        exact hauth d hd
  | recv maxLen =>
    obtain rfl := Option.some.inj hstep
    exact ⟨hm, h.left.recv maxLen, h.right, h.forth, h.back.congr hkeys rfl⟩
  | check k =>
    obtain rfl := Option.some.inj hstep
    exact ⟨hm, h.left.congr (rudpIsSendReady_arrivals k x.ctx).1, h.right, h.forth,
      h.back.congr hkeys rfl⟩

end PairInv

theorem linkStep_inv {lib : Libs} (hlib : lib.Lawful) (s : Link) (ev : LinkEvent) (t : Link)
    (h : PairInv lib s.a s.b) (hstep : linkStep lib s ev = some t) : PairInv lib t.a t.b := by
  cases ev with
  | atA call =>
    obtain ⟨e, he, rfl⟩ := Option.map_eq_some_iff.mp hstep
    exact h.endStep hlib he
  | atB call =>
    obtain ⟨e, he, rfl⟩ := Option.map_eq_some_iff.mp hstep
    exact (h.symm.endStep hlib he).symm

/-- An end that has received nothing and sent nothing. -/
structure FreshEnd (e : End) : Prop where
  yourTick : e.ctx.lastRecvYourTick = 0
  myTick : e.ctx.lastRecvMyTick = 0
  recvTick : e.ctx.lastRecvTick = 0
  queue : e.ctx.recvQueue = []
  sent : e.sent = []
  noted : e.noted = []
  returned : e.returned = []

theorem FreshEnd.inv {lib : Libs} {e : End} (h : FreshEnd e) : EndInv lib e where
  peak := by simp [h.noted]
  attained := Or.inl h.yourTick
  window := by simp [h.noted]
  blocks := by simp [h.returned, h.queue]
  echoes := by simp [h.sent]
  ticks := by simp [h.sent]
  own := Or.inl h.myTick
  stamp := fun _ hne => absurd h.recvTick hne

theorem exec_pairInv {lib : Libs} (hlib : lib.Lawful) {s t : Link} {evs : List LinkEvent}
    (hm : Mirrored s.a.ctx s.b.ctx) (ha : FreshEnd s.a) (hb : FreshEnd s.b)
    (hrun : exec (linkStep lib) s evs = some t) : PairInv lib t.a t.b := by
  have hforth : Origin lib s.a.sent s.b := ⟨by simp [ha.sent], by simp [hb.noted]⟩
  have hback : Origin lib s.b.sent s.a := ⟨by simp [hb.sent], by simp [ha.noted]⟩
  have hstart : PairInv lib s.a s.b := ⟨hm, ha.inv, hb.inv, hforth, hback⟩
  exact exec_invariant (I := fun s => PairInv lib s.a s.b) (linkStep_inv hlib) hstart hrun

/-- The blocks that `y` has returned or still holds are payloads of `x`, each from a packet that
was not older than the receive window when it was taken in. -/
def Delivered (x y : End) : Prop :=
  ∃ ps : List SentPacket, (∀ p ∈ ps, p ∈ x.sent) ∧
    ps.Pairwise (fun p q => p.tick < q.tick + windowSizeMsec) ∧
    (y.returned ++ y.ctx.recvQueue).Sublist ((ps.map SentPacket.payload).filter (· ≠ []))

/-- The blocks of the noted packets are the payloads they were made of. -/
theorem carried_sublist {lib : Libs} {f : Inner → SentPacket} (noted : List Inner)
    (hf : ∀ i ∈ noted, (f i).Carries lib i) :
    (noted.filterMap (Inner.carried lib)).Sublist
      (((noted.map f).map SentPacket.payload).filter (· ≠ [])) := by
  induction noted with
  | nil => exact List.Sublist.refl _
  | cons i noted ih =>
    have hrest := ih fun j hj => hf j (List.mem_cons_of_mem _ hj)
    rw [List.map_cons, List.map_cons, List.filterMap_cons]
    cases hblock : i.carried lib with
    | none =>
      dsimp only
      exact hrest.trans ((List.sublist_cons_self _ _).filter _)
    | some block =>
      obtain ⟨rfl, hne⟩ := (hf i List.mem_cons_self).block block hblock
      dsimp only
      rw [List.filter_cons_of_pos (by simpa using hne)]
      exact hrest.cons_cons _

theorem PairInv.delivered {lib : Libs} {x y : End} (h : PairInv lib x y) : Delivered x y := by
  choose! f hmem hcarries using h.forth.noted
  refine ⟨y.noted.map f, ?_, ?_, h.right.blocks.trans (carried_sublist y.noted hcarries)⟩
  · intro p hp
    obtain ⟨i, hi, rfl⟩ := List.mem_map.mp hp
    exact hmem i hi
  · rw [List.pairwise_map]
    refine h.right.window.imp_of_mem ?_
    intro i j hi hj hlt
    rwa [← (hcarries i hi).tick, ← (hcarries j hj).tick]

/-- The tick in `last_recv_my_tick` was sent, taken in by the peer, and echoed. -/
theorem PairInv.echoed {lib : Libs} {x y : End} (h : PairInv lib x y)
    (hne : x.ctx.lastRecvMyTick ≠ 0) :
    ∃ p ∈ x.sent, p.tick = x.ctx.lastRecvMyTick ∧ (∃ i ∈ y.noted, p.Carries lib i) ∧
      ∃ q ∈ y.sent, q.echo = p.tick ∧ ∃ j ∈ x.noted, q.Carries lib j := by
  have htick : ∀ q ∈ y.sent, q.echo ≠ 0 →
      ∃ i ∈ y.noted, ∃ p ∈ x.sent, p.Carries lib i ∧ p.tick = q.echo := by
    intro q hq hecho
    obtain ⟨i, hi, heq⟩ := (h.right.echoes q hq).resolve_left hecho
    obtain ⟨p, hp, hcarries⟩ := h.forth.noted i hi
    exact ⟨i, hi, p, hp, hcarries, hcarries.tick.symm.trans heq⟩
  obtain ⟨j, hj, hown⟩ := h.left.own.resolve_left hne
  obtain ⟨q, hq, hqj⟩ := h.back.noted j hj
  have hecho : q.echo ≠ 0 := by
    intro hz
    apply hne
    rw [← hown, hqj.echo, hz]
    rfl
  obtain ⟨i, hi, p, hp, hpi, hpq⟩ := htick q hq hecho
  have hlt := h.left.ticks p hp
  have hwrap : wrap64 q.echo = q.echo := by
    apply Nat.mod_eq_of_lt
    rw [← hpq]
    exact hlt.trans (by norm_num)
  refine ⟨p, hp, ?_, ⟨i, hi, hpi⟩, q, hq, hpq.symm, j, hj, hqj⟩
  rw [hpq, ← hown, hqj.echo, hwrap]

/-- An end that finds the path ready has sent a packet, not longer ago than the receive window and
the timeout together, that the other end took in and whose echo came back. -/
theorem link_ready (lib : Libs) (hlib : lib.Lawful) (s t : Link) (evs : List LinkEvent)
    (hm : Mirrored s.a.ctx s.b.ctx) (ha : FreshEnd s.a) (hb : FreshEnd s.b)
    (hrun : exec (linkStep lib) s evs = some t)
    (hready : (rudpIsSendReady true t.a.ctx).2 = true) :
    ∃ p ∈ t.a.sent, t.a.ctx.now ≤ p.tick + windowSizeMsec + t.a.ctx.timeoutValue ∧
      (∃ i ∈ t.b.noted, p.Carries lib i) ∧
        ∃ q ∈ t.b.sent, q.echo = p.tick ∧ ∃ j ∈ t.a.noted, q.Carries lib j := by
  have hinv := exec_pairInv hlib hm ha hb hrun
  obtain ⟨harr, hnow, hmss⟩ := rudpIsSendReady_arrivals true t.a.ctx
  have hfresh : ¬receiveStale (rudpIsSendReady true t.a.ctx).1 := by
    unfold rudpIsSendReady at hready ⊢
    split at hready
    · cases hready
    · rename_i hopen
      rw [if_neg hopen]
      obtain ⟨-, hnot, -⟩ := rudpIsSendReadyNolock_true (Prod.ext rfl hready)
      exact hnot
  simp only [RudpContext.arrivals, Prod.mk.injEq] at harr
  obtain ⟨-, ⟨-, -, hrecv⟩, -⟩ := harr
  obtain ⟨hset, hrecent⟩ := not_or.mp hfresh
  rw [hrecv] at hset
  rw [hrecv, RudpContext.timeoutValue, RudpContext.fastDetect, hmss, hnow, not_lt] at hrecent
  have hmod := Nat.mod_le (t.a.ctx.lastRecvTick + t.a.ctx.timeoutValue) (2 ^ 64)
  have hmy : t.a.ctx.lastRecvMyTick ≠ 0 ∧
      t.a.ctx.lastRecvTick ≤ t.a.ctx.lastRecvMyTick + windowSizeMsec := by
    refine hinv.left.stamp ?_ hset
    by_cases hz : t.a.ctx.lastRecvMyTick = 0
    · rw [hz]
      norm_num
    · obtain ⟨p, hp, heq, -⟩ := hinv.echoed hz
      rw [← heq]
      exact hinv.left.ticks p hp
  obtain ⟨p, hp, heq, hnoted, hechoed⟩ := hinv.echoed hmy.1
  refine ⟨p, hp, ?_, hnoted, hechoed⟩
  have hle := hrecent.trans hmod
  rw [heq]
  exact hle.trans (Nat.add_le_add_right hmy.2 _)

/-- Client and server before their first packets. -/
def sampleLink : Link :=
  ⟨⟨rudpInit sampleClient, [], [], []⟩, ⟨rudpInit sampleServer, [], [], []⟩⟩

theorem sampleLink_fresh : FreshEnd sampleLink.a ∧ FreshEnd sampleLink.b :=
  ⟨⟨rfl, rfl, rfl, rfl, rfl, rfl, rfl⟩, ⟨rfl, rfl, rfl, rfl, rfl, rfl, rfl⟩⟩

theorem sampleLink_mirrored : Mirrored sampleLink.a.ctx sampleLink.b.ctx :=
  ⟨rfl, rfl, rfl, rfl, rfl, rfl, rfl⟩

def pollWith (sec : ℕ) (h : sec < 2 ^ 30) (data : List Bytes) : EndCall :=
  .poll ⟨clockAt sec h, ⟨clockAt sec h, 0, true⟩, 0,
    data.map fun d => ⟨clockAt sec h, ⟨false, [10, 0, 0, 1], 443⟩, d⟩⟩

/-- The last datagram that one end has sent. -/
def End.lastSent (e : End) : Bytes := (e.sent.getLast?.map SentPacket.bytes).getD []

def linkAfter (evs : List LinkEvent) : Link := (exec (linkStep Libs.plain) sampleLink evs).getD sampleLink

/-- The client asks, and the server, which has taken the question in, sends its next keepalive. -/
def askedLink : List LinkEvent :=
  let asked : List LinkEvent := [.atA (pollWith 1 firstSecond [])]
  asked ++ [.atB (pollWith 1 firstSecond [(linkAfter asked).a.lastSent]),
    .atB (pollWith 3 (by norm_num) [])]

theorem eighthSecond : 8 < 2 ^ 30 := by norm_num

theorem thirteenthSecond : 13 < 2 ^ 30 := by norm_num

/-- The answer arrives three times. -/
def steadyLink : List LinkEvent :=
  let answer := (linkAfter askedLink).b.lastSent
  askedLink ++ [.atA (pollWith 3 (by norm_num) [answer]), .atA (pollWith 8 eighthSecond [answer]),
    .atA (pollWith 13 thirteenthSecond [answer])]

theorem steadyLink_exec : ∃ t, exec (linkStep Libs.plain) sampleLink steadyLink = some t ∧
    (rudpIsSendReady true t.a.ctx).2 = true := by
  have hready : ((exec (linkStep Libs.plain) sampleLink steadyLink).map fun t =>
      (rudpIsSendReady true t.a.ctx).2) = some true := by
    decide +kernel
  exact Option.map_eq_some_iff.mp hready

theorem steadyLink_ready : ∃ t, exec (linkStep Libs.plain) sampleLink steadyLink = some t ∧
    ∃ p ∈ t.a.sent, t.a.ctx.now ≤ p.tick + windowSizeMsec + t.a.ctx.timeoutValue := by
  obtain ⟨t, hrun, hready⟩ := steadyLink_exec
  obtain ⟨p, hp, hnow, -⟩ := link_ready Libs.plain Libs.plain_lawful sampleLink t steadyLink
    sampleLink_mirrored sampleLink_fresh.1 sampleLink_fresh.2 hrun hready
  exact ⟨t, hrun, p, hp, hnow⟩

end SoftEtherVpn.UdpAccel
