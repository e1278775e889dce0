import SoftEtherVpn.Foundation.Cursor

/-!
# The two ways of sending a frame

`softether_send` builds the block of an IP packet in the staging buffer, with the Ethernet header
in front of it; `softether_send_packet` builds the block of a finished Ethernet frame in the
same buffer and compresses it first when the session does. Both are modelled up to
the bytes that they hand to the TCP socket. zlib is a parameter, and so is whether memory for
its output is there.
-/

namespace SoftEtherVpn.Packet

open Foundation

def ethHeaderSize : ℕ := 14
def ethTypeIpv4 : ℕ := 0x0800
def ethTypeIpv6 : ℕ := 0x86DD

abbrev Mac := { m : Bytes // m.length = 6 }

def broadcastMac : Mac := ⟨List.replicate 6 0xFF, rfl⟩

/-- The part of a connected session that the send paths use; `sendBlock` is the staging buffer of
`send_block_cap` bytes with what it holds. -/
structure SendConn where
  sendBlock : Option Bytes
  serverUseCompress : ℕ
  gatewayMacResolved : Bool
  gatewayMac : Mac
  clientMac : Mac

/-- `compress_data`: the output of a compression that succeeds, never near the 32-bit limit. -/
abbrev Compress := Bytes → Option { c : Bytes // c.length < 2 ^ 31 }

namespace SendConn

variable (conn : SendConn)

def dstMac : Mac := if conn.gatewayMacResolved then conn.gatewayMac else broadcastMac

def ethertype (data : Bytes) : ℕ :=
  if data.headI.toNat / 16 = 6 then ethTypeIpv6 else ethTypeIpv4

/-- The Ethernet frame of an IP packet. -/
def ethFrame (data : Bytes) : Bytes :=
  conn.dstMac.1 ++ conn.clientMac.1 ++ bytesBE 2 (ethertype data) ++ data

/-- `softether_send` on TCP: the bytes handed to `softether_transmit_block_nolock`. -/
def softetherSend (data : Bytes) : Option Bytes :=
  match conn.sendBlock with
  | none => none
  | some buffer =>
    if data.length = 0 ∨ data.length > (buffer.length + 2 ^ 32 - 8 - ethHeaderSize) % 2 ^ 32 then
      none
    else do
      let frameLen := (ethHeaderSize + data.length) % 2 ^ 32
      let c ← Cursor.put [0, 0, 0, 1] ⟨buffer, 0⟩
      let c ← c.put (bytesBE 4 frameLen)
      let c ← c.put conn.dstMac.1
      let c ← c.put conn.clientMac.1
      let c ← c.put (bytesBE 2 (ethertype data))
      let c ← c.put data
      some (c.data.take ((8 + frameLen) % 2 ^ 32))

/-- The payload that goes into the block. -/
def sendPayload (malloc : Bool) (compress : Compress) (payload : Bytes) : Bytes :=
  if conn.serverUseCompress ≠ 0 ∧ payload.length > 1 then
    if malloc then
      match compress payload with
      | some c => c.1
      | none => payload
    else payload
  else payload

/-- `softether_send_packet` with `CMD_DATA`: the bytes handed to the socket. -/
def softetherSendPacket (malloc : Bool) (compress : Compress) (payload : Bytes) : Option Bytes :=
  let sendPayload := conn.sendPayload malloc compress payload
  let totalSize := (4 + 4 + sendPayload.length) % 2 ^ 32
  match conn.sendBlock with
  | none => none
  | some buffer =>
    if totalSize > buffer.length then none
    else do
      let c ← Cursor.put [0, 0, 0, 1] ⟨buffer, 0⟩
      let c ← c.put (bytesBE 4 sendPayload.length)
      let c ← if sendPayload.length > 0 then c.put sendPayload else some c
      some (c.data.take totalSize)

end SendConn

/-- One block: the count 1, the size, the data. -/
def block (payload : Bytes) : Bytes := bytesBE 4 1 ++ bytesBE 4 payload.length ++ payload

theorem block_injective {p p' : Bytes} (h : block p = block p') : p = p' :=
  (List.append_inj h (by simp)).2

theorem block_length (payload : Bytes) : (block payload).length = 8 + payload.length := by
  simp only [block, List.length_append, bytesBE_length]

section Blocks

variable {conn : SendConn} {buffer : Bytes}

theorem ethFrame_length (conn : SendConn) (data : Bytes) :
    (conn.ethFrame data).length = ethHeaderSize + data.length := by
  simp only [SendConn.ethFrame, List.length_append, conn.dstMac.2, conn.clientMac.2,
    bytesBE_length, ethHeaderSize]

theorem softetherSend_eq (hbuffer : conn.sendBlock = some buffer) (hcap : buffer.length < 2 ^ 32)
    {data : Bytes} (hdata : data.length ≠ 0)
    (hfits : 8 + ethHeaderSize + data.length ≤ buffer.length) :
    conn.softetherSend data = some (block (conn.ethFrame data)) := by
  have heth : ethHeaderSize = 14 := rfl
  have hlength := ethFrame_length conn data
  have hframe : (ethHeaderSize + data.length) % 2 ^ 32 = (conn.ethFrame data).length := by
    rw [hlength, Nat.mod_eq_of_lt (by omega)]
  rw [SendConn.softetherSend, hbuffer]
  dsimp only
  rw [if_neg (by omega), hframe]
  simp only [Cursor.put_bind_put]
  have hbytes : [0, 0, 0, 1] ++ (bytesBE 4 (conn.ethFrame data).length ++ (conn.dstMac.1 ++
      (conn.clientMac.1 ++ (bytesBE 2 (SendConn.ethertype data) ++ data)))) =
        block (conn.ethFrame data) := by
    simp only [block, SendConn.ethFrame, List.append_assoc]
    rfl
  have hblock := block_length (conn.ethFrame data)
  rw [hbytes]
  apply Cursor.put_start_take
  · omega
  · rw [hblock, Nat.mod_eq_of_lt (by omega)]

/-- A payload that fits goes out as one block, one that does not is refused. -/
theorem softetherSendPacket_eq (hbuffer : conn.sendBlock = some buffer) (malloc : Bool)
    (compress : Compress) {payload : Bytes}
    (hlength : 8 + (conn.sendPayload malloc compress payload).length < 2 ^ 32) :
    conn.softetherSendPacket malloc compress payload =
      if 8 + (conn.sendPayload malloc compress payload).length ≤ buffer.length then
        some (block (conn.sendPayload malloc compress payload))
      else none := by
  rw [SendConn.softetherSendPacket, hbuffer]
  dsimp only
  generalize conn.sendPayload malloc compress payload = p at hlength ⊢
  rw [Nat.mod_eq_of_lt (by omega)]
  by_cases hfits : 8 + p.length ≤ buffer.length
  swap
  · rw [if_pos (by omega), if_neg hfits]
  rw [if_neg (by omega), if_pos hfits]
  have hblock := block_length p
  by_cases hpos : p.length > 0
  · have hbytes : [0, 0, 0, 1] ++ (bytesBE 4 p.length ++ p) = block p := by
      rw [block, List.append_assoc]
      rfl
    simp only [hpos, if_true, Cursor.put_bind_put]
    rw [hbytes]
    apply Cursor.put_start_take
    · exact hblock.trans_le hfits
    · exact hblock.symm
  · obtain rfl : p = [] := List.eq_nil_of_length_eq_zero (by omega)
    exact Cursor.put_bind_put [0, 0, 0, 1] (bytesBE 4 0) ⟨buffer, 0⟩ _ |>.trans
      (Cursor.put_start_take hfits rfl)

/-- The payload is the frame exactly when it is not compressed or the compression is without
effect. -/
theorem sendPayload_eq_iff (malloc : Bool) (compress : Compress) {payload : Bytes}
    (hlength : payload.length > 1) :
    conn.sendPayload malloc compress payload = payload ↔
      conn.serverUseCompress = 0 ∨ malloc = false ∨
        ∀ c, compress payload = some c → c.1 = payload := by
  rw [SendConn.sendPayload]
  by_cases huse : conn.serverUseCompress = 0
  · simp [huse]
  · rw [if_pos ⟨huse, hlength⟩]
    cases malloc <;> cases compress payload <;> simp [huse]

theorem sendPayload_length (conn : SendConn) (malloc : Bool) (compress : Compress) (payload : Bytes) :
    (conn.sendPayload malloc compress payload).length < 2 ^ 31 ∨
      conn.sendPayload malloc compress payload = payload := by
  rw [SendConn.sendPayload]
  split_ifs
  · split
    · rename_i c _
      exact Or.inl c.2
    · exact Or.inr rfl
  · exact Or.inr rfl
  · exact Or.inr rfl

end Blocks

/-- For every packet that fits the staging buffer, `softether_send` hands the socket the block that
`softether_send_packet` builds for its frame exactly when the session does not compress, the
compression fails, or it returns the frame itself. -/
theorem softetherSend_agrees_iff (conn : SendConn) (buffer : Bytes)
    (hbuffer : conn.sendBlock = some buffer) (hcap : buffer.length < 2 ^ 32) (malloc : Bool)
    (compress : Compress) (data : Bytes) (hdata : data.length ≠ 0)
    (hfits : 8 + ethHeaderSize + data.length ≤ buffer.length) :
    conn.softetherSend data =
        conn.softetherSendPacket malloc compress (conn.ethFrame data) ↔
      conn.serverUseCompress = 0 ∨ malloc = false ∨
        ∀ c, compress (conn.ethFrame data) = some c → c.1 = conn.ethFrame data := by
  have hframe := ethFrame_length conn data
  have heth : ethHeaderSize = 14 := rfl
  have hpayload : 8 + (conn.sendPayload malloc compress (conn.ethFrame data)).length < 2 ^ 32 := by
    rcases sendPayload_length conn malloc compress (conn.ethFrame data) with hshort | hsame
    · omega
    · rw [hsame]
      omega
  rw [← sendPayload_eq_iff malloc compress (by omega), softetherSend_eq hbuffer hcap hdata hfits,
    softetherSendPacket_eq hbuffer malloc compress hpayload]
  constructor
  · intro h
    split_ifs at h
    exact (block_injective (Option.some.inj h)).symm
  · intro h
    rw [h, if_pos (by omega)]

/-- A staging buffer of the size that `softether_create` takes. -/
def stagingBuffer : Bytes := List.replicate 65557 0

theorem stagingBuffer_length : stagingBuffer.length = 65557 := List.length_replicate

def compressingConn : SendConn where
  sendBlock := some stagingBuffer
  serverUseCompress := 1
  gatewayMacResolved := false
  gatewayMac := broadcastMac
  clientMac := ⟨[2, 0, 0, 0, 0, 1], rfl⟩

/-- What zlib makes of the frame of the one-byte packet 45. -/
def deflated : Bytes :=
  [0x78, 0x9C, 0xFB, 0xFF, 0x1F, 0x04, 0x98, 0x18, 0x80, 0x80, 0x91, 0x83, 0xC1, 0x15, 0x00, 0x4B,
    0x37, 0x06, 0x4B]

def zlibOneByte : Compress := fun f =>
  if f = compressingConn.ethFrame [0x45] then some ⟨deflated, by decide⟩ else none

theorem oneByte_fits : 8 + ethHeaderSize + [(0x45 : UInt8)].length ≤ stagingBuffer.length := by
  rw [stagingBuffer_length]
  decide

theorem stagingBuffer_cap : stagingBuffer.length < 2 ^ 32 := by
  rw [stagingBuffer_length]
  decide

theorem softetherSend_agrees_noMemory :
    compressingConn.sendBlock = some stagingBuffer ∧
      compressingConn.softetherSend [0x45] =
        compressingConn.softetherSendPacket false zlibOneByte (compressingConn.ethFrame [0x45]) :=
  ⟨rfl, (softetherSend_agrees_iff compressingConn stagingBuffer rfl stagingBuffer_cap false
    zlibOneByte [0x45] (by decide) oneByte_fits).mpr (Or.inr (Or.inl rfl))⟩

/-- With compression on, the packet goes out plain on one path and compressed on the other. -/
theorem softetherSend_uncompressed :
    compressingConn.softetherSend [0x45] = some (block (compressingConn.ethFrame [0x45])) ∧
      compressingConn.softetherSendPacket true zlibOneByte (compressingConn.ethFrame [0x45]) =
        some (block deflated) ∧
      compressingConn.softetherSend [0x45] ≠
        compressingConn.softetherSendPacket true zlibOneByte (compressingConn.ethFrame [0x45]) := by
  have hplain : compressingConn.softetherSend [0x45] =
      some (block (compressingConn.ethFrame [0x45])) :=
    softetherSend_eq rfl stagingBuffer_cap (by decide) oneByte_fits
  have hpayload : compressingConn.sendPayload true zlibOneByte (compressingConn.ethFrame [0x45]) =
      deflated := by
    decide
  have hcompressed : compressingConn.softetherSendPacket true zlibOneByte
      (compressingConn.ethFrame [0x45]) = _ :=
    softetherSendPacket_eq rfl true zlibOneByte (by rw [hpayload]; decide)
  rw [hpayload, stagingBuffer_length, if_pos (by decide)] at hcompressed
  refine ⟨hplain, hcompressed, ?_⟩
  rw [hplain, hcompressed]
  decide

end SoftEtherVpn.Packet
