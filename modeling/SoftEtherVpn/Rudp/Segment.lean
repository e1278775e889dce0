import SoftEtherVpn.Foundation.Cursor
import SoftEtherVpn.Rudp.Worker

/-!
# One segment from the sender's buffer to the receiver's session

`rt_send_segment_now` writes the packet into a buffer of `RUDP_T_MAX_PACKET_SIZE` bytes.
The buffer is exactly as long as the longest packet. What the receiver decodes is what the
sender wrote, and a datagram that fails one of its checks changes nothing.
-/

namespace SoftEtherVpn.Rudp

open Foundation

/-- The fields `rt_send_segment_now` sends. -/
def sentInfo (w : World) (t : RudpTransport) (seq : ℕ) (data : Bytes) : SegmentInfo where
  myTick := w.tick t.calls
  yourTick := t.se.yourTick
  maxAck := t.se.lastRecvCompleteSeq
  acks := t.se.replyAcks.take maxNumAck
  seq := seq
  payload := data

/-- The writes of `rt_send_segment_now` through the pointer `p`. -/
def rtWriteSegment (w : World) (t : RudpTransport) (seq : ℕ) (data : Bytes) (p : Cursor) :
    Option Cursor := do
  let p ← p.put t.se.keySend
  let p ← p.put t.se.nextIv
  let p ← p.put (bytesBE 8 (w.tick t.calls))
  let p ← p.put (bytesBE 8 t.se.yourTick)
  let p ← p.put (bytesBE 8 t.se.lastRecvCompleteSeq)
  let numAck := min t.se.replyAcks.length maxNumAck
  let p ← p.put (bytesBE 4 numAck)
  let p ← (t.se.replyAcks.take numAck).foldlM (fun p ack => p.put (bytesBE 8 ack)) p
  let p ← p.put (bytesBE 8 seq)
  let p ← p.put data
  let padlen := w.padlen t.calls
  (List.replicate padlen (UInt8.ofNat padlen)).foldlM (fun p byte => p.put [byte]) p

/-- The packet in its buffer: the fields, then the encryption behind the IV and the sign over
the whole packet, both in place. No result means a write outside the buffer. -/
def rtBuildSegment (c : Crypto) (w : World) (t : RudpTransport) (seq : ℕ) (data : Bytes) :
    Option Bytes := do
  let p ← rtWriteSegment w t seq data ⟨List.replicate maxPacketSize 0, 0⟩
  let key := c.sha1 (t.se.nextIv ++ t.se.keySend)
  let pkt := splice p.data (sha1Size * 2) (rc4Crypt key (p.written.drop (sha1Size * 2)))
  let sign := c.sha1 (pkt.take p.pos)
  some ((splice pkt 0 sign).take p.pos)

section Build

variable (c : Crypto) (w : World) (t : RudpTransport) (seq : ℕ) (data : Bytes)

theorem padlen_bounds (i : ℕ) : 1 ≤ w.padlen i ∧ w.padlen i ≤ 255 := by
  unfold World.padlen
  omega

theorem segmentPacket_eq : segmentPacket c w t seq data =
    sealPacket c t.se.keySend t.se.nextIv (segmentBody (sentInfo w t seq data)
      (w.padlen t.calls)) := rfl

theorem length_segmentBody (i : SegmentInfo) (padlen : ℕ) :
    (segmentBody i padlen).length = 36 + 8 * i.acks.length + i.payload.length + padlen := by
  simp only [segmentBody, List.length_append, bytesBE_length, acks_flatMap_length,
    List.length_replicate]
  ring

theorem length_sentBody (hdata : data.length ≤ maxSegmentSize) :
    (segmentBody (sentInfo w t seq data) (w.padlen t.calls)).length + sha1Size * 2 ≤
      maxPacketSize := by
  have hpad := padlen_bounds w t.calls
  have hacks : (t.se.replyAcks.take maxNumAck).length ≤ maxNumAck := List.length_take_le _ _
  rw [length_segmentBody]
  simp only [sentInfo]
  unfold maxPacketSize sha1Size maxSegmentSize maxNumAck at *
  omega

theorem writes_segment :
    Cursor.Writes (rtWriteSegment w t seq data)
      (t.se.keySend ++ (t.se.nextIv ++ segmentBody (sentInfo w t seq data)
        (w.padlen t.calls))) := by
  have hnum : t.se.replyAcks.take maxNumAck =
      t.se.replyAcks.take (min t.se.replyAcks.length maxNumAck) := by
    rcases le_total t.se.replyAcks.length maxNumAck with h | h
    · rw [min_eq_left h, List.take_length, List.take_of_length_le h]
    · rw [min_eq_right h]
  have hlen : (t.se.replyAcks.take (min t.se.replyAcks.length maxNumAck)).length =
      min t.se.replyAcks.length maxNumAck := List.length_take_of_le (min_le_left _ _)
  have hpad := Cursor.writes_foldlM (fun byte => Cursor.writes_put [byte])
    (List.replicate (w.padlen t.calls) (UInt8.ofNat (w.padlen t.calls)))
  have hacks := Cursor.writes_foldlM (fun ack => Cursor.writes_put (bytesBE 8 ack))
    (t.se.replyAcks.take (min t.se.replyAcks.length maxNumAck))
  have hall := (Cursor.writes_put t.se.keySend).andThen <|
    (Cursor.writes_put t.se.nextIv).andThen <|
    (Cursor.writes_put (bytesBE 8 (w.tick t.calls))).andThen <|
    (Cursor.writes_put (bytesBE 8 t.se.yourTick)).andThen <|
    (Cursor.writes_put (bytesBE 8 t.se.lastRecvCompleteSeq)).andThen <|
    (Cursor.writes_put (bytesBE 4 (min t.se.replyAcks.length maxNumAck))).andThen <|
    hacks.andThen <| (Cursor.writes_put (bytesBE 8 seq)).andThen <|
    (Cursor.writes_put data).andThen hpad
  rw [List.flatMap_singleton'] at hall
  simp only [segmentBody, sentInfo, hnum, hlen, List.append_assoc]
  exact hall

/-- The packet fits its buffer and is the sealed body. -/
theorem rtBuildSegment_eq (hkey : t.se.keySend.length = sha1Size)
    (hiv : t.se.nextIv.length = sha1Size) (hdata : data.length ≤ maxSegmentSize) :
    rtBuildSegment c w t seq data = some (segmentPacket c w t seq data) := by
  have hroom := length_sentBody w t seq data hdata
  rw [segmentPacket_eq]
  generalize hbody : segmentBody (sentInfo w t seq data) (w.padlen t.calls) = body at hroom ⊢
  have hwrites := writes_segment w t seq data
  rw [hbody] at hwrites
  obtain ⟨p, hp, hext⟩ := hwrites ⟨List.replicate maxPacketSize 0, 0⟩ (by
    simp only [List.length_append, List.length_replicate, hkey, hiv]
    omega)
  have hblock : p.data.length = maxPacketSize := by
    rw [hext.block, List.length_replicate]
  have hpos : p.pos = sha1Size * 2 + body.length := by
    rw [hext.pos]
    simp only [List.length_append, hkey, hiv]
    ring
  have hwritten : p.written = t.se.keySend ++ (t.se.nextIv ++ body) := by
    rw [hext.written]
    simp [Cursor.written]
  have hdrop : p.written.drop (sha1Size * 2) = body := by
    rw [hwritten, ← List.append_assoc]
    apply List.drop_left'
    rw [List.length_append, hkey, hiv]
    ring
  have htake : p.data.take (sha1Size * 2) = t.se.keySend ++ t.se.nextIv := by
    have hfront : p.written.take (sha1Size * 2) = p.data.take (sha1Size * 2) := by
      rw [Cursor.written, List.take_take, hpos, min_eq_left (Nat.le_add_right _ _)]
    rw [← hfront, hwritten, ← List.append_assoc]
    apply List.take_left'
    rw [List.length_append, hkey, hiv]
    ring
  have hpkt : (splice p.data (sha1Size * 2)
      (rc4Crypt (c.sha1 (t.se.nextIv ++ t.se.keySend)) body)).take p.pos =
        t.se.keySend ++ (t.se.nextIv ++
          rc4Crypt (c.sha1 (t.se.nextIv ++ t.se.keySend)) body) := by
    have hspliced := splice_take p.data (rc4Crypt (c.sha1 (t.se.nextIv ++ t.se.keySend)) body)
      (show sha1Size * 2 ≤ p.data.length by omega)
    rw [rc4Crypt_length, ← hpos, htake, List.append_assoc] at hspliced
    exact hspliced
  rw [rtBuildSegment]
  simp only [hp, hdrop, Option.bind_eq_bind, Option.bind_some, hpkt]
  rw [splice_zero_take _ (by rw [c.sha1_length]; omega), hpkt, c.sha1_length,
    List.drop_left' hkey, sealPacket, List.append_assoc, List.append_assoc]

theorem length_segmentPacket (hiv : t.se.nextIv.length = sha1Size)
    (hdata : data.length ≤ maxSegmentSize) :
    (segmentPacket c w t seq data).length ≤ maxPacketSize := by
  have hroom := length_sentBody w t seq data hdata
  rw [segmentPacket_eq, sealPacket]
  simp only [List.length_append, c.sha1_length, hiv, rc4Crypt_length]
  omega

end Build

/-- The numbers are 64-bit numbers. -/
structure SegmentInfo.Wide (i : SegmentInfo) : Prop where
  myTick : i.myTick < 2 ^ 64
  yourTick : i.yourTick < 2 ^ 64
  maxAck : i.maxAck < 2 ^ 64
  acks : ∀ ack ∈ i.acks, ack < 2 ^ 64
  seq : i.seq < 2 ^ 64

theorem SegmentInfo.Wide.truncate_eq {i : SegmentInfo} (h : i.Wide) : i.truncate = i := by
  have hacks : i.acks.map wrap64 = i.acks := by
    conv_rhs => rw [← List.map_id i.acks]
    apply List.map_congr_left
    intro ack hack
    exact Nat.mod_eq_of_lt (h.acks ack hack)
  rw [SegmentInfo.truncate, hacks]
  simp only [wrap64, Nat.mod_eq_of_lt h.myTick, Nat.mod_eq_of_lt h.yourTick,
    Nat.mod_eq_of_lt h.maxAck, Nat.mod_eq_of_lt h.seq]

/-- The decoder returns the fields of the sender. -/
theorem decode_segmentPacket (c : Crypto) (w : World) (t : RudpTransport) (seq : ℕ) (data : Bytes)
    (hiv : t.se.nextIv.length = sha1Size) (hdata : data.length ≤ maxSegmentSize)
    (hwide : (sentInfo w t seq data).Wide) :
    (openPacket c t.se.keySend (segmentPacket c w t seq data)).bind parseSegment =
      some (sentInfo w t seq data) := by
  obtain ⟨hpad, hpad'⟩ := padlen_bounds w t.calls
  have hparse := parseSegment_segmentBody (sentInfo w t seq data) hpad hpad'
    (List.length_take_le _ _)
  rw [segmentPacket_eq, openPacket_sealPacket c hiv (length_sentBody w t seq data hdata),
    Option.bind_some, hparse, hwide.truncate_eq]

/-!
## Datagrams that are refused
-/

/-- The last byte of a decrypted body. -/
def padLength (enc : Bytes) : ℕ := (enc.getLast?.getD 0).toNat

def numAck (enc : Bytes) : ℕ := natBE ((enc.drop 24).take 4)

/-- The padding, the number of acknowledgements or the length of a decrypted body does not
fit the layout. -/
def BadLayout (enc : Bytes) : Prop :=
  padLength enc = 0 ∨ enc.length < padLength enc ∨ enc.length - padLength enc < 36 ∨
    maxNumAck < numAck enc ∨ enc.length - padLength enc < 36 + 8 * numAck enc

theorem numAck_take (enc : Bytes) {m : ℕ} (h : 28 ≤ m) : numAck (enc.take m) = numAck enc := by
  rw [numAck, numAck, List.drop_take, List.take_take, min_eq_left (by omega)]

theorem parseSegment_eq_none {enc : Bytes} : parseSegment enc = none ↔ BadLayout enc := by
  unfold BadLayout padLength
  rw [parseSegment]
  cases hlast : enc.getLast? with
  | none => simp
  | some pad =>
    have hbody : (enc.take (enc.length - pad.toNat)).length = enc.length - pad.toNat :=
      List.length_take_of_le (Nat.sub_le _ _)
    simp only [Option.getD_some, hbody]
    by_cases hheader : enc.length - pad.toNat < 36
    · simp [hheader]
    · have hnum := numAck_take enc (show 28 ≤ enc.length - pad.toNat by omega)
      rw [numAck] at hnum
      simp only [hnum, if_neg hheader]
      split_ifs with hzero hshort hmax hlen
      · exact iff_of_true rfl (Or.inl hzero)
      · exact iff_of_true rfl (Or.inr (Or.inl hshort))
      · exact iff_of_true rfl (by omega)
      · exact iff_of_true rfl (by omega)
      · exact iff_of_false (by simp) (by omega)

/-- What `rt_handle_udp_packet` decrypts. -/
def decrypted (c : Crypto) (key buf : Bytes) : Bytes :=
  let pkt := buf.take maxPacketSize
  rc4Crypt (c.sha1 ((pkt.drop sha1Size).take sha1Size ++ key)) (pkt.drop (sha1Size * 2))

/-- The datagram fails the signature check, is too short for an IV, or is badly laid out. -/
def Refused (c : Crypto) (key buf : Bytes) : Prop :=
  ¬signOk c key (buf.take maxPacketSize) ∨ buf.length < sha1Size * 2 ∨
    BadLayout (decrypted c key buf)

theorem rtHandleUdpPacket_of_refused (c : Crypto) (w : World) (t : RudpTransport) (srcPort : ℕ)
    {buf : Bytes} (h : Refused c t.se.keyRecv buf) : rtHandleUdpPacket c w t srcPort buf = t := by
  have hnone : (openPacket c t.se.keyRecv buf).bind parseSegment = none := by
    unfold openPacket
    dsimp only
    split_ifs with hsign hshort
    · rfl
    · rcases h with h | h | h
      · exact absurd hsign h
      · rw [List.length_take] at hshort
        unfold maxPacketSize sha1Size maxSegmentSize maxNumAck at *
        omega
      · exact parseSegment_eq_none.mpr h
    · rfl
  unfold rtHandleUdpPacket
  split_ifs
  · rfl
  · rfl
  · rw [hnone]

/-!
## The round trip
-/

/-- The session after a segment that carries data or only acknowledgements: its
acknowledgements and ticks are applied, the payload is handed on under its number, the
session is established and the port is learnt. -/
def rtAccept (t : RudpTransport) (srcPort : ℕ) (i : SegmentInfo) : RudpTransport :=
  let t := rtApplyAcks t i
  let t := if i.payload.length ≥ 1 then rtProcessRecvPayload t i.seq i.payload else t
  (rtEstablish t).withSe fun se => { se with yourPort := srcPort }

theorem foldl_rtProcessAck_magic (acks : List ℕ) (t : RudpTransport) :
    (acks.foldl rtProcessAck t).se.magicDisconnect = t.se.magicDisconnect := by
  induction acks generalizing t with
  | nil => rfl
  | cons ack acks ih => exact ih (rtProcessAck t ack)

theorem rtApplyAcks_magic (t : RudpTransport) (i : SegmentInfo) :
    (rtApplyAcks t i).se.magicDisconnect = t.se.magicDisconnect := by
  unfold rtApplyAcks
  dsimp only [RudpTransport.withSe_se]
  rw [foldl_rtProcessAck_magic]
  split_ifs <;> rfl

theorem rtApplySegment_eq_accept (c : Crypto) {w : World} {t : RudpTransport} (srcPort : ℕ)
    {i : SegmentInfo} (htick : i.yourTick ≤ w.tick t.calls) (hseq : i.seq ≠ 0)
    (hmagic : i.seq ≠ t.se.magicDisconnect) (hdata : i.payload.length ≤ maxSegmentSize) :
    rtApplySegment c w t srcPort i = rtAccept t srcPort i := by
  rw [← rtApplyAcks_magic t i] at hmagic
  rw [rtApplySegment, if_neg (not_lt.mpr htick), rtApplyPayload, if_neg hseq, if_neg hmagic,
    if_neg (not_lt.mpr hdata)]
  rfl

/-- A segment is built inside its buffer and decoded to the fields that were sent; a datagram
that fails a check leaves the session as it was. -/
theorem segment_roundTrip (c : Crypto) (w w' : World) (t r : RudpTransport) (srcPort : ℕ) :
    (∀ (seq : ℕ) (data : Bytes), t.se.keySend.length = sha1Size →
      t.se.nextIv.length = sha1Size → t.se.replyAcks.length ≤ maxNumAck →
      data.length ≤ maxSegmentSize → (sentInfo w t seq data).Wide →
      seq ≠ 0 → seq ≠ r.se.magicDisconnect → r.se.keyRecv = t.se.keySend →
      r.se.status ≠ .disconnected → t.se.yourTick ≤ w'.tick r.calls →
      ∃ pkt, rtBuildSegment c w t seq data = some pkt ∧ pkt.length ≤ maxPacketSize ∧
        (rtSendSegmentNow c w t seq data).hist.sent = t.hist.sent ++ [pkt] ∧
        ∃ i, (openPacket c r.se.keyRecv pkt).bind parseSegment = some i ∧
          i.myTick = w.tick t.calls ∧ i.yourTick = t.se.yourTick ∧
          i.maxAck = t.se.lastRecvCompleteSeq ∧ i.acks = t.se.replyAcks ∧ i.seq = seq ∧
          i.payload = data ∧ rtHandleUdpPacket c w' r srcPort pkt = rtAccept r srcPort i) ∧
    ∀ buf, Refused c r.se.keyRecv buf → rtHandleUdpPacket c w' r srcPort buf = r := by
  constructor
  · intro seq data hkey hiv hacks hdata hwide hseq hmagic hrecv hstatus htick
    refine ⟨segmentPacket c w t seq data, rtBuildSegment_eq c w t seq data hkey hiv hdata,
      length_segmentPacket c w t seq data hiv hdata, rfl, sentInfo w t seq data, ?_⟩
    have hdecode := decode_segmentPacket c w t seq data hiv hdata hwide
    rw [← hrecv] at hdecode
    refine ⟨hdecode, rfl, rfl, rfl, List.take_of_length_le hacks, rfl, rfl, ?_⟩
    have hlong : ¬(segmentPacket c w t seq data).length < sha1Size := by
      rw [segmentPacket_eq, sealPacket]
      simp only [List.length_append, c.sha1_length]
      omega
    rw [rtHandleUdpPacket, if_neg hstatus, if_neg hlong, hdecode]
    exact rtApplySegment_eq_accept c srcPort htick hseq hmagic hdata
  · intro buf hbuf
    exact rtHandleUdpPacket_of_refused c w' r srcPort hbuf

/-- The client of the sample connect, and a server whose receive key is the client's send key. -/
def sampleServer : RudpTransport :=
  sampleSession.withSe fun se => { se with keyRecv := se.keySend, keySend := se.keyRecv }

theorem sampleSegment_roundTrip :
    ∃ pkt, rtBuildSegment .openssl .quiet sampleSession 1 [1, 2, 3] = some pkt ∧
      pkt.length ≤ maxPacketSize ∧
      (rtSendSegmentNow .openssl .quiet sampleSession 1 [1, 2, 3]).hist.sent =
        sampleSession.hist.sent ++ [pkt] ∧
      ∃ i, (openPacket .openssl sampleServer.se.keyRecv pkt).bind parseSegment = some i ∧
        i.myTick = 1000 ∧ i.yourTick = 0 ∧ i.maxAck = 0 ∧ i.acks = [] ∧ i.seq = 1 ∧
        i.payload = [1, 2, 3] ∧
        rtHandleUdpPacket .openssl .quiet sampleServer 5555 pkt = rtAccept sampleServer 5555 i := by
  apply (segment_roundTrip .openssl .quiet .quiet sampleSession sampleServer 5555).1
  · exact Crypto.openssl.sha1_length _
  · rfl
  · exact Nat.zero_le _
  · decide
  · exact ⟨by decide, by decide, by decide, List.forall_mem_nil _, by decide⟩
  · decide
  · decide
  · rfl
  · decide
  · decide

end SoftEtherVpn.Rudp
