import SoftEtherVpn.Foundation.Sha1
import SoftEtherVpn.Rudp.Session

/-!
# R-UDP packets on the wire

A packet is `SIGN ‖ IV ‖ RC4(body)`. The body carries the two ticks, the cumulative
and the selective acknowledgements, the sequence number, the payload and a padding
whose bytes are its length. SHA-1 comes from OpenSSL and is a parameter; RC4 is the
repository's own and is written out.
-/

namespace SoftEtherVpn.Rudp

open Foundation

/-- The SHA-1 of the crypto library: any function to twenty bytes. -/
structure Crypto where
  sha1 : Bytes → Bytes
  sha1_length : ∀ data, (sha1 data).length = sha1Size

/-- The hash the library computes. -/
def Crypto.openssl : Crypto := ⟨sha1Hash, sha1Hash_length⟩

abbrev Sbox := Vector UInt8 256

namespace Sbox

def lookup (s : Sbox) (i : UInt8) : UInt8 := s.get ⟨i.toNat, i.toNat_lt⟩

def swap (s : Sbox) (i j : UInt8) : Sbox :=
  (s.set i.toNat (s.lookup j) i.toNat_lt).set j.toNat (s.lookup i) j.toNat_lt

end Sbox

/-- Key scheduling of `rc4_crypt`. -/
def rc4Schedule (key : Bytes) : Sbox :=
  ((List.range 256).foldl
    (fun (st : Sbox × UInt8) i =>
      let j := st.2 + st.1.lookup (UInt8.ofNat i) + key.getD (i % key.length) 0
      (st.1.swap (UInt8.ofNat i) j, j))
    (Vector.ofFn fun i => UInt8.ofNat i, 0)).1

/-- The keystream loop of `rc4_crypt`. -/
def rc4Loop (sbox : Sbox) (i j : UInt8) : Bytes → Bytes
  | [] => []
  | d :: ds =>
    let i := i + 1
    let j := j + sbox.lookup i
    let sbox := sbox.swap i j
    (d ^^^ sbox.lookup (sbox.lookup i + sbox.lookup j)) :: rc4Loop sbox i j ds

def rc4Crypt (key data : Bytes) : Bytes :=
  if key = [] then data else rc4Loop (rc4Schedule key) 0 0 data

theorem rc4Loop_length (sbox : Sbox) (i j : UInt8) (data : Bytes) :
    (rc4Loop sbox i j data).length = data.length := by
  induction data generalizing sbox i j with
  | nil => rfl
  | cons d ds ih => simp [rc4Loop, ih]

theorem rc4Loop_rc4Loop (sbox : Sbox) (i j : UInt8) (data : Bytes) :
    rc4Loop sbox i j (rc4Loop sbox i j data) = data := by
  induction data generalizing sbox i j with
  | nil => rfl
  | cons d ds ih => simp only [rc4Loop, ih, UInt8.xor_assoc, UInt8.xor_self, UInt8.xor_zero]

@[simp] theorem rc4Crypt_length (key data : Bytes) :
    (rc4Crypt key data).length = data.length := by
  unfold rc4Crypt
  split_ifs
  · rfl
  · exact rc4Loop_length _ _ _ _

@[simp] theorem rc4Crypt_rc4Crypt (key data : Bytes) :
    rc4Crypt key (rc4Crypt key data) = data := by
  unfold rc4Crypt
  split_ifs
  · rfl
  · exact rc4Loop_rc4Loop _ _ _ _

/-- The fields of one segment packet. -/
structure SegmentInfo where
  myTick : ℕ
  yourTick : ℕ
  maxAck : ℕ
  acks : List ℕ
  seq : ℕ
  payload : Bytes

/-- Packet body as `rt_send_segment_now` lays it out. -/
def segmentBody (i : SegmentInfo) (padlen : ℕ) : Bytes :=
  bytesBE 8 i.myTick ++ bytesBE 8 i.yourTick ++ bytesBE 8 i.maxAck ++
    bytesBE 4 i.acks.length ++ i.acks.flatMap (bytesBE 8) ++ bytesBE 8 i.seq ++
    i.payload ++ List.replicate padlen (UInt8.ofNat padlen)

/-- Encrypt and sign: the sign is taken over the packet with the key in its slot. -/
def sealPacket (c : Crypto) (key iv body : Bytes) : Bytes :=
  let enc := rc4Crypt (c.sha1 (iv ++ key)) body
  c.sha1 (key ++ iv ++ enc) ++ iv ++ enc

/-- The signature check of `rt_handle_udp_packet`. -/
def signOk (c : Crypto) (key pkt : Bytes) : Prop :=
  pkt.take sha1Size = c.sha1 (key ++ pkt.drop sha1Size)

instance (c : Crypto) (key pkt : Bytes) : Decidable (signOk c key pkt) :=
  inferInstanceAs (Decidable (_ = _))

/-- Signature check and decryption of a datagram. -/
def openPacket (c : Crypto) (key buf : Bytes) : Option Bytes :=
  let pkt := buf.take maxPacketSize
  if ¬ signOk c key pkt then none
  else if pkt.length < sha1Size * 2 then none
  else
    let iv := (pkt.drop sha1Size).take sha1Size
    some (rc4Crypt (c.sha1 (iv ++ key)) (pkt.drop (sha1Size * 2)))

/-- Padding, header and acknowledgement list of a decrypted body. -/
def parseSegment (enc : Bytes) : Option SegmentInfo :=
  match enc.getLast? with
  | none => none
  | some pad =>
    let padlen := pad.toNat
    if padlen = 0 then none
    else if enc.length < padlen then none
    else
      let body := enc.take (enc.length - padlen)
      if body.length < 8 + 8 + 8 + 4 + 8 then none
      else
        let numAck := natBE ((body.drop 24).take 4)
        if numAck > maxNumAck then none
        else if body.length < 8 + 8 + 8 + 4 + numAck * 8 + 8 then none
        else
          some
            { myTick := natBE (body.take 8)
              yourTick := natBE ((body.drop 8).take 8)
              maxAck := natBE ((body.drop 16).take 8)
              acks := (List.range numAck).map fun k => natBE ((body.drop (28 + 8 * k)).take 8)
              seq := natBE ((body.drop (28 + 8 * numAck)).take 8)
              payload := body.drop (28 + 8 * numAck + 8) }

theorem openPacket_sealPacket (c : Crypto) {key iv body : Bytes}
    (hiv : iv.length = sha1Size) (hlen : body.length + sha1Size * 2 ≤ maxPacketSize) :
    openPacket c key (sealPacket c key iv body) = some body := by
  have hs := c.sha1_length (key ++ (iv ++ rc4Crypt (c.sha1 (iv ++ key)) body))
  have htotal : (sealPacket c key iv body).length = body.length + sha1Size * 2 := by
    simp only [sealPacket, List.append_assoc, List.length_append, hs, hiv, rc4Crypt_length]
    ring
  have htake : (sealPacket c key iv body).take maxPacketSize = sealPacket c key iv body :=
    List.take_of_length_le (by omega)
  have hdrop : (sealPacket c key iv body).drop sha1Size =
      iv ++ rc4Crypt (c.sha1 (iv ++ key)) body := by
    simp only [sealPacket, List.append_assoc]
    exact List.drop_left' hs
  have hsign : signOk c key (sealPacket c key iv body) := by
    rw [signOk, hdrop]
    simp only [sealPacket, List.append_assoc]
    exact List.take_left' hs
  have hiv' : (iv ++ rc4Crypt (c.sha1 (iv ++ key)) body).take sha1Size = iv :=
    List.take_left' hiv
  have hbody : (sealPacket c key iv body).drop (sha1Size * 2) =
      rc4Crypt (c.sha1 (iv ++ key)) body := by
    rw [Nat.mul_two, ← List.drop_drop, hdrop]
    exact List.drop_left' hiv
  simp only [openPacket, htake, if_neg (not_not.mpr hsign), hdrop, hiv', hbody,
    rc4Crypt_rc4Crypt]
  rw [if_neg (by omega)]

theorem acks_flatMap_length (acks : List ℕ) :
    (acks.flatMap (bytesBE 8)).length = 8 * acks.length := by
  induction acks with
  | nil => rfl
  | cons a acks ih =>
    simp only [List.flatMap_cons, List.length_append, bytesBE_length, ih, List.length_cons]
    ring

/-- The `k`-th entry of an encoded acknowledgement list. -/
theorem acks_flatMap_slice {acks : List ℕ} {k : ℕ} (hk : k < acks.length) (post : Bytes) :
    ((acks.flatMap (bytesBE 8) ++ post).drop (8 * k)).take 8 = bytesBE 8 acks[k] := by
  induction acks generalizing k with
  | nil => simp at hk
  | cons a acks ih =>
    cases k with
    | zero => simp
    | succ k =>
      rw [List.flatMap_cons, List.append_assoc, show 8 * (k + 1) = 8 + 8 * k by ring,
        ← List.drop_drop, List.drop_left' (bytesBE_length 8 a)]
      simpa using ih (by simpa using hk)

/-- The values a decoder finds: every number reduced to its field width. -/
def SegmentInfo.truncate (i : SegmentInfo) : SegmentInfo where
  myTick := wrap64 i.myTick
  yourTick := wrap64 i.yourTick
  maxAck := wrap64 i.maxAck
  acks := i.acks.map wrap64
  seq := wrap64 i.seq
  payload := i.payload

theorem natBE_bytesBE_eight (n : ℕ) : natBE (bytesBE 8 n) = wrap64 n := by
  rw [natBE_bytesBE, wrap64]
  norm_num

theorem parseSegment_segmentBody (i : SegmentInfo) {padlen : ℕ} (hpad : 1 ≤ padlen)
    (hpad' : padlen ≤ 255) (hacks : i.acks.length ≤ maxNumAck) :
    parseSegment (segmentBody i padlen) = some i.truncate := by
  have hack : i.acks.length < 256 ^ 4 := by
    unfold maxNumAck at hacks
    omega
  have hflat := acks_flatMap_length i.acks
  obtain ⟨front, hfront⟩ : ∃ front, front = bytesBE 8 i.myTick ++ (bytesBE 8 i.yourTick ++
      (bytesBE 8 i.maxAck ++ (bytesBE 4 i.acks.length ++ (i.acks.flatMap (bytesBE 8) ++
        (bytesBE 8 i.seq ++ i.payload))))) := ⟨_, rfl⟩
  have hbody : segmentBody i padlen = front ++ List.replicate padlen (UInt8.ofNat padlen) := by
    rw [segmentBody, hfront]
    simp only [List.append_assoc]
  have hlen : front.length = 36 + 8 * i.acks.length + i.payload.length := by
    rw [hfront]
    simp only [List.length_append, bytesBE_length, hflat]
    ring
  have hlast : (segmentBody i padlen).getLast? = some (UInt8.ofNat padlen) := by
    obtain ⟨m, rfl⟩ : ∃ m, padlen = m + 1 := ⟨padlen - 1, by omega⟩
    rw [hbody, List.replicate_succ', ← List.append_assoc, List.getLast?_concat]
  have hpadval : (UInt8.ofNat padlen).toNat = padlen := by
    rw [UInt8.toNat_ofNat', Nat.mod_eq_of_lt (by omega)]
  have htake : (segmentBody i padlen).take ((segmentBody i padlen).length - padlen) = front := by
    rw [hbody, List.length_append, List.length_replicate, Nat.add_sub_cancel]
    exact List.take_left' rfl
  have h0 : front.take 8 = bytesBE 8 i.myTick := by
    rw [hfront]
    exact List.take_left' (bytesBE_length _ _)
  have d8 : front.drop 8 = bytesBE 8 i.yourTick ++ (bytesBE 8 i.maxAck ++
      (bytesBE 4 i.acks.length ++ (i.acks.flatMap (bytesBE 8) ++
        (bytesBE 8 i.seq ++ i.payload)))) := by
    rw [hfront]
    exact List.drop_left' (bytesBE_length _ _)
  have d16 : front.drop 16 = bytesBE 8 i.maxAck ++ (bytesBE 4 i.acks.length ++
      (i.acks.flatMap (bytesBE 8) ++ (bytesBE 8 i.seq ++ i.payload))) := by
    rw [show 16 = 8 + 8 from rfl, ← List.drop_drop, d8]
    exact List.drop_left' (bytesBE_length _ _)
  have d24 : front.drop 24 = bytesBE 4 i.acks.length ++ (i.acks.flatMap (bytesBE 8) ++
      (bytesBE 8 i.seq ++ i.payload)) := by
    rw [show 24 = 16 + 8 from rfl, ← List.drop_drop, d16]
    exact List.drop_left' (bytesBE_length _ _)
  have d28 : front.drop 28 = i.acks.flatMap (bytesBE 8) ++ (bytesBE 8 i.seq ++ i.payload) := by
    rw [show 28 = 24 + 4 from rfl, ← List.drop_drop, d24]
    exact List.drop_left' (bytesBE_length _ _)
  have dseq : front.drop (28 + 8 * i.acks.length) = bytesBE 8 i.seq ++ i.payload := by
    rw [← List.drop_drop, d28]
    exact List.drop_left' hflat
  have hnum : natBE ((front.drop 24).take 4) = i.acks.length := by
    rw [d24, List.take_left' (bytesBE_length _ _), natBE_bytesBE_of_lt hack]
  have hacksEq : ((List.range i.acks.length).map fun k =>
      natBE ((front.drop (28 + 8 * k)).take 8)) = i.acks.map wrap64 := by
    apply List.ext_getElem
    · simp
    · intro k hk hk'
      have hk : k < i.acks.length := by simpa using hk
      simp only [List.getElem_map, List.getElem_range]
      rw [← List.drop_drop, d28, acks_flatMap_slice hk, natBE_bytesBE_eight]
  have h8 : (front.drop 8).take 8 = bytesBE 8 i.yourTick := by
    rw [d8]
    exact List.take_left' (bytesBE_length _ _)
  have h16 : (front.drop 16).take 8 = bytesBE 8 i.maxAck := by
    rw [d16]
    exact List.take_left' (bytesBE_length _ _)
  have hseq : (front.drop (28 + 8 * i.acks.length)).take 8 = bytesBE 8 i.seq := by
    rw [dseq]
    exact List.take_left' (bytesBE_length _ _)
  have hpayload : front.drop (28 + 8 * i.acks.length + 8) = i.payload := by
    rw [← List.drop_drop, dseq]
    exact List.drop_left' (bytesBE_length _ _)
  have hfull : (segmentBody i padlen).length = front.length + padlen := by
    rw [hbody, List.length_append, List.length_replicate]
  simp only [parseSegment, hlast, hpadval, htake, hnum, h0, h8, h16, hseq, hpayload, hacksEq,
    natBE_bytesBE_eight]
  rw [if_neg (by omega), if_neg (by omega), if_neg (by omega), if_neg (by omega),
    if_neg (by omega)]
  rfl

end SoftEtherVpn.Rudp
