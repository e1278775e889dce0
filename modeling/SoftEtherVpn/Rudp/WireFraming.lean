import SoftEtherVpn.Foundation.Cursor
import SoftEtherVpn.Rudp.Worker

/-!
# Framing of R-UDP packets

In the DNS and ICMP modes a packet travels behind a header. `rt_send_udp` builds the datagram in a
buffer with 64 bytes for the header. `rt_worker` receives into a buffer without them, so that a
packet whose header does not fit beside it arrives cut.
-/

namespace SoftEtherVpn.Rudp

open Foundation

def frameBufSize : ℕ := maxPacketSize + 64

/-- The mode of the transport and what its headers carry. -/
structure Framing where
  mode : TransportMode
  dnsTranId : UInt16
  clientIcmpId : UInt8 × UInt8
  clientIcmpSeq : UInt8 × UInt8

/-! ### Sending -/

def dnsQhdr : Bytes := [0x01, 0x00, 0x00, 0x01, 0x00, 0x00, 0x00, 0x00, 0x00, 0x01, 0x08]

def dnsQtail : Bytes :=
  [0x00, 0x00, 0x30, 0x00, 0x01, 0x00, 0x29, 0x10, 0x00, 0x00, 0x00, 0x80, 0x00]

/-- The label of random hex characters. -/
def hexLabel (randData : Bytes) : Bytes :=
  randData.flatMap fun b =>
    [(ascii "0123456789abcdef").getD (b.toNat / 16) 0,
      (ascii "0123456789abcdef").getD (b.toNat % 16) 0]

/-- The loop that adds up the big-endian words, a last single byte as the high half of one. -/
def checksumLoop (sum : ℕ) : Bytes → ℕ
  | [] => sum
  | [a] => (sum + a.toNat * 256) % 2 ^ 32
  | a :: b :: rest => checksumLoop ((sum + (a.toNat * 256 + b.toNat)) % 2 ^ 32) rest

def foldCarry (sum : ℕ) : ℕ :=
  if sum / 65536 = 0 then sum else foldCarry (sum % 65536 + sum / 65536)
termination_by sum
decreasing_by omega

def icmpChecksum (pkt : Bytes) : ℕ := 65535 - foldCarry (checksumLoop 0 pkt) % 65536

/-- The datagram that `rt_send_udp` hands to the socket, built in the buffer `mem`. -/
def frameDatagram (c : Crypto) (f : Framing) (randData mem data : Bytes) : Option Bytes :=
  match f.mode with
  | .dns => do
    let p ← Cursor.put (bytesBE 2 f.dnsTranId.toNat) ⟨mem, 0⟩
    let p ← p.put dnsQhdr
    let p ← p.put (hexLabel randData)
    let p ← p.put dnsQtail
    let p ← p.put (bytesBE 2 data.length)
    let p ← p.put data
    some p.written
  | .icmp => do
    let p ← Cursor.put [8, 0, 0, 0] ⟨mem, 0⟩
    let p ← p.put [f.clientIcmpId.1, f.clientIcmpId.2, f.clientIcmpSeq.1, f.clientIcmpSeq.2]
    let p ← p.put (c.sha1 data)
    let p ← p.put data
    some ((splice p.data 2 (bytesBE 2 (icmpChecksum p.written))).take p.pos)
  | .udp => some data

/-! ### Receiving -/

/-- `recvfrom` into the buffer of `rt_worker`. -/
def recvfrom (datagram : Bytes) : Bytes := datagram.take maxPacketSize

/-- What `rt_worker` takes off the received bytes before it calls `rt_handle_udp_packet`; without a
payload the datagram is skipped. -/
def stripFraming (f : Framing) (buf : Bytes) : Framing × Option Bytes :=
  match f.mode with
  | .dns =>
    if buf.length > 42 then
      ({ f with dnsTranId := UInt16.ofNat (natBE (buf.take 2)) }, some (buf.drop 42))
    else (f, none)
  | .icmp =>
    let first := (buf.getD 0 0).toNat
    let ipHeaderSize := if buf.length ≥ 20 ∧ first / 16 = 4 then first % 16 * 4 else 0
    if buf.length ≥ ipHeaderSize + 28 then
      let type := buf.getD ipHeaderSize 0
      if type = 0 ∨ type = 8 then (f, some (buf.drop (ipHeaderSize + 8 + sha1Size)))
      else (f, none)
    else (f, none)
  | .udp => (f, some buf)

/-- The loop of `rt_worker` over the datagrams of the socket, each with its source port. -/
def drainSocket (c : Crypto) (w : World) :
    Framing × RudpTransport → List (ℕ × Bytes) → Framing × RudpTransport
  | s, [] => s
  | (f, t), (srcPort, datagram) :: rest =>
    let buf := recvfrom datagram
    if buf.length = 0 then (f, t)
    else
      let r := stripFraming f buf
      match r.2 with
      | none => drainSocket c w (r.1, t) rest
      | some payload => drainSocket c w (r.1, rtHandleUdpPacket c w t srcPort payload) rest

/-- The framing that the mode strips: nothing, a DNS header, or an IPv4 header, the header of an
ICMP echo and a hash. -/
def Frames : TransportMode → Bytes → Prop
  | .udp, hdr => hdr = []
  | .dns, hdr => hdr.length = 42
  | .icmp, hdr => ∃ (ihl : ℕ) (ip icmp hash : Bytes),
      5 ≤ ihl ∧ ihl ≤ 15 ∧ ip.length = 4 * ihl ∧ ip.head? = some (UInt8.ofNat (64 + ihl)) ∧
      icmp.length = 8 ∧ (icmp.head? = some 0 ∨ icmp.head? = some 8) ∧ hash.length = sha1Size ∧
      hdr = ip ++ (icmp ++ hash)

/-!
## Stripping what was put in front
-/

theorem Frames.length_le {mode : TransportMode} {hdr : Bytes} (h : Frames mode hdr) :
    hdr.length ≤ 88 := by
  cases mode with
  | udp => simp [show hdr = [] from h]
  | dns => simp [show hdr.length = 42 from h]
  | icmp =>
    obtain ⟨ihl, ip, icmp, hash, -, hmax, hip, -, hicmp, -, hhash, rfl⟩ := h
    simp only [List.length_append, hip, hicmp, hhash, sha1Size]
    omega

theorem stripFraming_append {f : Framing} {hdr payload : Bytes} (h : Frames f.mode hdr)
    (hpayload : 1 ≤ payload.length) : (stripFraming f (hdr ++ payload)).2 = some payload := by
  unfold stripFraming
  cases hmode : f.mode with
  | udp =>
    rw [hmode] at h
    simp [show hdr = [] from h]
  | dns =>
    rw [hmode] at h
    have hlength : hdr.length = 42 := h
    have hlong : (hdr ++ payload).length > 42 := by
      rw [List.length_append]
      omega
    have hdrop : (hdr ++ payload).drop 42 = payload := List.drop_left' hlength
    simp only [if_pos hlong, hdrop]
  | icmp =>
    rw [hmode] at h
    obtain ⟨ihl, ip, icmp, hash, hmin, hmax, hip, hfirst, hicmp, htype, hhash, rfl⟩ := h
    have hhash' : hash.length = 20 := hhash
    have hbyte : (UInt8.ofNat (64 + ihl)).toNat = 64 + ihl := by
      rw [UInt8.toNat_ofNat', Nat.mod_eq_of_lt (by omega)]
    have hlength : ((ip ++ (icmp ++ hash)) ++ payload).length =
        4 * ihl + 28 + payload.length := by
      simp only [List.length_append, hip, hicmp, hhash']
    have hhead : ((ip ++ (icmp ++ hash)) ++ payload).getD 0 0 = UInt8.ofNat (64 + ihl) := by
      obtain ⟨rest, rfl⟩ := List.head?_eq_some_iff.mp hfirst
      rfl
    have htypeByte : ((ip ++ (icmp ++ hash)) ++ payload).getD (ihl * 4) 0 = 0 ∨
        ((ip ++ (icmp ++ hash)) ++ payload).getD (ihl * 4) 0 = 8 := by
      have hat : ∀ b, icmp.head? = some b →
          ((ip ++ (icmp ++ hash)) ++ payload).getD (ihl * 4) 0 = b := by
        intro b hb
        obtain ⟨rest, rfl⟩ := List.head?_eq_some_iff.mp hb
        rw [List.getD_eq_getElem?_getD, List.append_assoc,
          List.getElem?_append_right (by omega), show ihl * 4 - ip.length = 0 by omega]
        rfl
      exact htype.imp (hat 0) (hat 8)
    have hsize : (64 + ihl) % 16 * 4 = ihl * 4 := by omega
    have hdrop : ((ip ++ (icmp ++ hash)) ++ payload).drop (ihl * 4 + 8 + sha1Size) = payload := by
      apply List.drop_left'
      simp only [List.length_append, hip, hicmp, hhash]
      omega
    simp only [hhead, hbyte, hsize]
    rw [if_pos (show _ ∧ _ from ⟨by omega, by omega⟩), if_pos (show _ ≥ _ by omega),
      if_pos htypeByte, hdrop]

/-- Of a framed packet `rt_worker` passes on what fits the buffer behind the header. -/
theorem stripFraming_recvfrom {f : Framing} {hdr pkt : Bytes} (h : Frames f.mode hdr)
    (hpkt : 1 ≤ pkt.length) :
    (stripFraming f (recvfrom (hdr ++ pkt))).2 = some (pkt.take (maxPacketSize - hdr.length)) := by
  have hhdr := h.length_le
  have hmax : maxPacketSize = 1355 := by decide
  rw [recvfrom, List.take_append, List.take_of_length_le (by omega)]
  apply stripFraming_append h
  rw [List.length_take]
  omega

@[simp] theorem stripFraming_mode (f : Framing) (buf : Bytes) :
    (stripFraming f buf).1.mode = f.mode := by
  unfold stripFraming
  cases hmode : f.mode with
  | udp => exact hmode
  | dns =>
    dsimp only
    split_ifs
    · rfl
    · exact hmode
  | icmp =>
    dsimp only
    split_ifs <;> exact hmode

/-- Framed packets that fit the buffer are handled one after the other, as they were sent. -/
theorem drainSocket_framed (c : Crypto) (w : World) {f : Framing} (t : RudpTransport)
    {packets : List (ℕ × Bytes × Bytes)}
    (h : ∀ p ∈ packets, Frames f.mode p.2.1 ∧ 1 ≤ p.2.2.length ∧
      p.2.1.length + p.2.2.length ≤ maxPacketSize) :
    (drainSocket c w (f, t) (packets.map fun p => (p.1, p.2.1 ++ p.2.2))).2 =
      packets.foldl (fun t p => rtHandleUdpPacket c w t p.1 p.2.2) t := by
  induction packets generalizing f t with
  | nil => rfl
  | cons p packets ih =>
    obtain ⟨⟨hframes, hpkt, hfits⟩, hrest⟩ := List.forall_mem_cons.mp h
    have hstrip := stripFraming_recvfrom hframes hpkt
    rw [List.take_of_length_le (by omega)] at hstrip
    have hlength : (recvfrom (p.2.1 ++ p.2.2)).length ≠ 0 := by
      rw [recvfrom, List.length_take, List.length_append]
      omega
    rw [List.map_cons, drainSocket, List.foldl_cons]
    simp only [if_neg hlength, hstrip]
    apply ih
    simpa using hrest

/-!
## Building the datagram
-/

/-- The bytes in front of a packet that is sent. -/
def frameOverhead : TransportMode → ℕ
  | .udp => 0
  | .dns => 36
  | .icmp => 28

theorem hexLabel_length (randData : Bytes) : (hexLabel randData).length = 2 * randData.length := by
  induction randData with
  | nil => rfl
  | cons b bs ih =>
    rw [hexLabel, List.flatMap_cons, List.length_append, ← hexLabel, ih, List.length_cons]
    simp only [List.length_cons, List.length_nil]
    omega

/-- The identifiers and the hash of an ICMP datagram, behind its checksum. -/
def icmpEcho (c : Crypto) (f : Framing) (data : Bytes) : Bytes :=
  [f.clientIcmpId.1, f.clientIcmpId.2, f.clientIcmpSeq.1, f.clientIcmpSeq.2] ++ c.sha1 data

theorem icmpEcho_length (c : Crypto) (f : Framing) (data : Bytes) :
    (icmpEcho c f data).length = 24 := by
  rw [icmpEcho, List.length_append, c.sha1_length]
  rfl

/-- The ICMP datagram: the checksum is the one of the datagram with zeros in its place. -/
theorem frameDatagram_icmp (c : Crypto) {f : Framing} (hmode : f.mode = .icmp)
    {mem data : Bytes} (hmem : mem.length = frameBufSize) (hdata : data.length ≤ maxPacketSize)
    (randData : Bytes) :
    frameDatagram c f randData mem data =
      some ([8, 0] ++ (bytesBE 2 (icmpChecksum ([8, 0, 0, 0] ++ (icmpEcho c f data ++ data))) ++
        (icmpEcho c f data ++ data))) := by
  have hmax : maxPacketSize = 1355 := by decide
  have hbuf : frameBufSize = 1419 := by decide
  have hlength := icmpEcho_length c f data
  have hjoin : [8, 0, 0, 0] ++ ([f.clientIcmpId.1, f.clientIcmpId.2, f.clientIcmpSeq.1,
      f.clientIcmpSeq.2] ++ (c.sha1 data ++ data)) = [8, 0, 0, 0] ++ (icmpEcho c f data ++ data) := by
    rw [icmpEcho, List.append_assoc]
  have hroom : ([8, 0, 0, 0] ++ (icmpEcho c f data ++ data)).length ≤ mem.length := by
    simp only [List.length_append, List.length_cons, List.length_nil]
    omega
  simp only [frameDatagram, hmode, Cursor.put_bind_put]
  rw [hjoin, Cursor.put_start hroom]
  simp only [Option.bind_eq_bind, Option.bind_some, Cursor.written, List.take_left]
  generalize icmpChecksum _ = sum
  have hpatch : splice ([8, 0, 0, 0] ++ (icmpEcho c f data ++ data) ++
      mem.drop ([8, 0, 0, 0] ++ (icmpEcho c f data ++ data)).length) 2 (bytesBE 2 sum) =
      [8, 0] ++ (bytesBE 2 sum ++ (icmpEcho c f data ++ data)) ++
        mem.drop ([8, 0, 0, 0] ++ (icmpEcho c f data ++ data)).length := by
    simp [splice]
  rw [hpatch]
  apply congrArg some
  apply List.take_left'
  simp only [List.length_append, bytesBE_length, List.length_cons, List.length_nil]
  omega

/-- A packet of at most the maximal size is framed inside the buffer and is the end of the
datagram. -/
theorem frameDatagram_eq (c : Crypto) (f : Framing) {randData mem data : Bytes}
    (hrand : randData.length = 4) (hmem : mem.length = frameBufSize)
    (hdata : data.length ≤ maxPacketSize) :
    ∃ hdr, frameDatagram c f randData mem data = some (hdr ++ data) ∧
      hdr.length = frameOverhead f.mode := by
  have hmax : maxPacketSize = 1355 := by decide
  have hbuf : frameBufSize = 1419 := by decide
  cases hmode : f.mode with
  | udp => exact ⟨[], by simp only [frameDatagram, hmode, List.nil_append], rfl⟩
  | dns =>
    have hlabel := hexLabel_length randData
    obtain ⟨hdr, hhdr⟩ : ∃ hdr, hdr = bytesBE 2 f.dnsTranId.toNat ++ dnsQhdr ++
      hexLabel randData ++ dnsQtail ++ bytesBE 2 data.length := ⟨_, rfl⟩
    have hlength : hdr.length = 36 := by
      rw [hhdr]
      simp only [List.length_append, bytesBE_length, hlabel, hrand]
      rfl
    refine ⟨hdr, ?_, hlength⟩
    have hjoin : bytesBE 2 f.dnsTranId.toNat ++ (dnsQhdr ++ (hexLabel randData ++ (dnsQtail ++
        (bytesBE 2 data.length ++ data)))) = hdr ++ data := by
      rw [hhdr]
      simp only [List.append_assoc]
    simp only [frameDatagram, hmode, Cursor.put_bind_put]
    rw [hjoin, Cursor.put_start (by rw [List.length_append]; omega)]
    exact congrArg some (List.take_left' rfl)
  | icmp =>
    have hframe := frameDatagram_icmp c hmode hmem hdata randData
    generalize icmpChecksum _ = sum at hframe
    refine ⟨[8, 0] ++ (bytesBE 2 sum ++ icmpEcho c f data), ?_, ?_⟩
    · rw [List.append_assoc, List.append_assoc]
      exact hframe
    · simp only [List.length_append, bytesBE_length, icmpEcho_length]
      rfl

/-!
## Framed packets
-/

/-- A framed packet reaches `rt_handle_udp_packet` as it is exactly when it fits the receive buffer
together with its framing; every packet fits the buffer in which it is framed. -/
theorem framedPacket_arrives_iff (c : Crypto) (f : Framing) :
    (∀ hdr pkt : Bytes, Frames f.mode hdr → sha1Size ≤ pkt.length → pkt.length ≤ maxPacketSize →
      ((stripFraming f (recvfrom (hdr ++ pkt))).2 = some pkt ↔
        hdr.length + pkt.length ≤ maxPacketSize)) ∧
    ∀ randData mem data : Bytes, randData.length = 4 → mem.length = frameBufSize →
      data.length ≤ maxPacketSize →
      ∃ hdr, frameDatagram c f randData mem data = some (hdr ++ data) ∧
        (hdr ++ data).length ≤ frameBufSize := by
  constructor
  · intro hdr pkt hframes hmin _
    have hhdr := hframes.length_le
    have hmax : maxPacketSize = 1355 := by decide
    rw [stripFraming_recvfrom hframes (le_trans (by decide) hmin), Option.some.injEq,
      List.take_eq_self_iff]
    omega
  · intro randData mem data hrand hmem hdata
    obtain ⟨hdr, hframe, hlength⟩ := frameDatagram_eq c f hrand hmem hdata
    refine ⟨hdr, hframe, ?_⟩
    have hoverhead : frameOverhead f.mode ≤ 64 := by
      cases f.mode <;> decide
    rw [List.length_append, frameBufSize]
    omega

/-- The framing of a mode over fixed ids. -/
def plainFraming (mode : TransportMode) : Framing := ⟨mode, 1, (0, 1), (0, 1)⟩

theorem shortPacket_arrives :
    Frames .dns (List.replicate 42 0) ∧
      (stripFraming (plainFraming .dns)
        (recvfrom (List.replicate 42 0 ++ List.replicate 40 7))).2 =
          some (List.replicate 40 7) := by
  have hframes : Frames .dns (List.replicate 42 0) := List.length_replicate
  exact ⟨hframes, ((framedPacket_arrives_iff .openssl (plainFraming .dns)).1 _ _ hframes
    (by decide) (by decide)).mpr (by decide)⟩

/-- A packet of the maximal size behind a DNS header loses its last 42 bytes. -/
theorem fullPacket_cut :
    (stripFraming (plainFraming .dns)
      (recvfrom (List.replicate 42 0 ++ List.replicate maxPacketSize 7))).2 =
        some (List.replicate (maxPacketSize - 42) 7) ∧
      List.replicate (maxPacketSize - 42) 7 ≠ List.replicate maxPacketSize (7 : UInt8) := by
  have hframes : Frames .dns (List.replicate 42 0) := List.length_replicate
  constructor
  · rw [stripFraming_recvfrom hframes (by rw [List.length_replicate]; decide),
      List.length_replicate, List.take_replicate, min_eq_left (Nat.sub_le _ _)]
  · intro h
    have hlength := congrArg List.length h
    rw [List.length_replicate, List.length_replicate] at hlength
    exact absurd hlength (by decide)

end SoftEtherVpn.Rudp
