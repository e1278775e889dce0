import SoftEtherVpn.Foundation.OnesComplement
import SoftEtherVpn.Rudp.WireFraming

/-!
# Internet checksums

`rt_send_udp` adds up the words of an ICMP packet in network order and folds the carries in a loop;
`ip_checksum` adds up the words of a header in the order of the host and folds twice, and
`build_dhcp_frame` stores its result in the order of the host.
-/

namespace SoftEtherVpn.Net

open Foundation

/-- The loop of `ip_checksum`; a last single byte is added as it is. -/
def ipChecksumLoop (host : ByteOrder) (sum : ℕ) : Bytes → ℕ
  | [] => sum
  | [a] => (sum + a.toNat) % 2 ^ 32
  | a :: b :: rest => ipChecksumLoop host ((sum + host.word a b) % 2 ^ 32) rest

def ipChecksum (host : ByteOrder) (data : Bytes) : ℕ :=
  let sum := ipChecksumLoop host 0 data
  let sum := sum / 65536 + sum % 65536
  let sum := (sum + sum / 65536) % 2 ^ 32
  65535 - sum % 65536

/-- `memcpy(ip + 10, &cksum, 2)`. -/
def storeChecksum (host : ByteOrder) (ip : Bytes) : Bytes :=
  splice ip 10 (host.bytes (ipChecksum host ip))

/-- The IP header of `build_dhcp_frame` in front of `udpLen` bytes, with the two random bytes of its
identification. -/
def dhcpIpHeader (host : ByteOrder) (udpLen : ℕ) (id : UInt8 × UInt8) : Bytes :=
  storeChecksum host
    ([0x45, 0] ++ bytesBE 2 (20 + udpLen) ++ [id.1, id.2, 0, 0, 128, 17] ++ [0, 0] ++
      [0, 0, 0, 0] ++ [255, 255, 255, 255])

section Loops

theorem checksumLoop_eq (bs : Bytes) (sum : ℕ)
    (h : sum + (words .big bs).sum < 2 ^ 32) :
    Rudp.checksumLoop sum bs = sum + (words .big bs).sum := by
  induction bs using words.induct generalizing sum with
  | case1 => rfl
  | case2 a =>
    simp only [words, List.sum_singleton, ByteOrder.word, UInt8.toNat_zero, add_zero] at h ⊢
    rw [Rudp.checksumLoop, Nat.mod_eq_of_lt h]
  | case3 a b rest ih =>
    simp only [words, List.sum_cons] at h ⊢
    change Rudp.checksumLoop ((sum + ByteOrder.big.word a b) % 2 ^ 32) rest = _
    rw [Nat.mod_eq_of_lt (by omega), ih _ (by omega), add_assoc]

theorem ipChecksumLoop_eq (host : ByteOrder) (bs : Bytes) (heven : bs.length % 2 = 0) (sum : ℕ)
    (h : sum + (words host bs).sum < 2 ^ 32) :
    ipChecksumLoop host sum bs = sum + (words host bs).sum := by
  induction bs using words.induct generalizing sum with
  | case1 => rfl
  | case2 a => simp at heven
  | case3 a b rest ih =>
    simp only [List.length_cons] at heven
    simp only [words, List.sum_cons] at h ⊢
    rw [ipChecksumLoop, Nat.mod_eq_of_lt (by omega), ih (by omega) _ (by omega), add_assoc]

/-- The loop of folds ends in a word. -/
theorem foldCarry_folds (sum : ℕ) : Folds sum (Rudp.foldCarry sum) := by
  induction sum using Rudp.foldCarry.induct with
  | case1 sum h =>
    rw [Rudp.foldCarry, if_pos h]
    exact folds_self (by omega)
  | case2 sum h ih =>
    obtain ⟨hlt, hmod, hzero⟩ := ih
    rw [Rudp.foldCarry, if_neg h]
    refine ⟨hlt, hmod.trans ?_, by omega⟩
    rw [Nat.ModEq]
    omega

/-- A fold keeps the remainder. -/
theorem oneFold_modEq (sum : ℕ) : sum / 65536 + sum % 65536 ≡ sum [MOD 65535] := by
  rw [Nat.ModEq]
  omega

/-- A sum of two words is folded by adding its carry. -/
theorem carry_folds {t : ℕ} (h : t ≤ 131070) : Folds t ((t + t / 65536) % 65536) := by
  have hmod := oneFold_modEq t
  have hfold : (t + t / 65536) % 65536 = t / 65536 + t % 65536 := by omega
  rw [hfold]
  exact ⟨by omega, hmod, by omega⟩

/-- Two folds are enough for a sum of 32 bits. -/
theorem twoFolds_folds (sum : ℕ) (h : sum < 2 ^ 32) :
    Folds sum ((sum / 65536 + sum % 65536 + (sum / 65536 + sum % 65536) / 65536) % 65536) := by
  have hmod := oneFold_modEq sum
  have hzero : sum / 65536 + sum % 65536 = 0 ↔ sum = 0 := by omega
  have hbound : sum / 65536 + sum % 65536 ≤ 131070 := by omega
  obtain ⟨hlt, hmod', hzero'⟩ := carry_folds hbound
  exact ⟨hlt, hmod'.trans hmod, hzero'.trans hzero⟩

end Loops

theorem bytesBE_two (w : ℕ) : bytesBE 2 w = ByteOrder.big.bytes w := by
  simp [bytesBE, ByteOrder.bytes]

/-- The checksum of an ICMP packet completes its sum. -/
theorem icmpChecksum_stored {rest : Bytes} (h : rest.length ≤ 1400) :
    onesSum (words .big ([8, 0] ++ (bytesBE 2 (Rudp.icmpChecksum ([8, 0, 0, 0] ++ rest)) ++ rest))) =
      0xFFFF := by
  have hbound := words_sum_le .big ([8, 0, 0, 0] ++ rest)
  rw [List.length_append] at hbound
  simp only [List.length_cons, List.length_nil] at hbound
  have hloop := checksumLoop_eq ([8, 0, 0, 0] ++ rest) 0 (by omega)
  rw [zero_add] at hloop
  have hfolds := foldCarry_folds (words .big ([8, 0, 0, 0] ++ rest)).sum
  rw [bytesBE_two, Rudp.icmpChecksum, hloop, Nat.mod_eq_of_lt hfolds.lt]
  exact onesSum_stored .big [8, 0] rfl hfolds

theorem ipChecksum_folds (host : ByteOrder) {ip : Bytes} (hlength : ip.length = 20) :
    ∃ f, Folds (words host ip).sum f ∧ ipChecksum host ip = 0xFFFF - f := by
  have hbound := words_sum_le host ip
  rw [hlength] at hbound
  have hloop := ipChecksumLoop_eq host ip (by rw [hlength]) 0 (by omega)
  rw [zero_add] at hloop
  refine ⟨_, twoFolds_folds (words host ip).sum (by omega), ?_⟩
  simp only [ipChecksum, hloop]
  omega

/-- The stored result of `ip_checksum` completes the sum of the header. -/
theorem ipChecksum_stored (host : ByteOrder) {ip : Bytes} (hlength : ip.length = 20)
    (hfield : (ip.drop 10).take 2 = [0, 0]) :
    onesSum (words host (storeChecksum host ip)) = 0xFFFF := by
  have hsplit : ip = ip.take 10 ++ ([0, 0] ++ ip.drop 12) := by
    rw [← hfield, ← List.drop_drop (i := 2) (j := 10), List.take_append_drop,
      List.take_append_drop]
  have hbefore : (ip.take 10).length % 2 = 0 := by
    simp [hlength]
  have hbytes : (host.bytes (ipChecksum host ip)).length = 2 := by
    cases host <;> rfl
  obtain ⟨f, hfolds, hchecksum⟩ := ipChecksum_folds host hlength
  rw [storeChecksum, splice, hbytes, List.append_assoc, hchecksum]
  rw [hsplit] at hfolds
  exact onesSum_stored host _ hbefore hfolds

/-- The ICMP packet of every payload that is sent, and every IP header of twenty bytes with its
checksum stored, add up to `0xFFFF`, the header on hosts of either byte order and in whichever
order its words are read. -/
theorem checksums_complete :
    (∀ (c : Rudp.Crypto) (f : Rudp.Framing) (randData mem data : Bytes), f.mode = .icmp →
      mem.length = Rudp.frameBufSize → data.length ≤ Rudp.maxPacketSize →
      ∃ pkt, Rudp.frameDatagram c f randData mem data = some pkt ∧
        onesSum (words .big pkt) = 0xFFFF) ∧
    ∀ (host reader : ByteOrder) (ip : Bytes), ip.length = 20 → (ip.drop 10).take 2 = [0, 0] →
      onesSum (words reader (storeChecksum host ip)) = 0xFFFF := by
  constructor
  · intro c f randData mem data hmode hmem hdata
    refine ⟨_, Rudp.frameDatagram_icmp c hmode hmem hdata randData, ?_⟩
    apply icmpChecksum_stored
    have hmax : Rudp.maxPacketSize = 1355 := by decide
    rw [List.length_append, Rudp.icmpEcho_length]
    omega
  · intro host reader ip hlength hfield
    exact onesSum_words_other (ipChecksum_stored host hlength hfield)

/-- A payload of one byte, and a header that is zero throughout. -/
theorem checksums_complete_smallest :
    ((List.replicate Rudp.frameBufSize 0 : Bytes).length = Rudp.frameBufSize ∧
      ∃ pkt, Rudp.frameDatagram .openssl (Rudp.plainFraming .icmp) []
        (List.replicate Rudp.frameBufSize 0) [7] = some pkt ∧
        onesSum (words .big pkt) = 0xFFFF) ∧
    onesSum (words .big (storeChecksum .little (List.replicate 20 0))) = 0xFFFF :=
  ⟨⟨List.length_replicate, checksums_complete.1 .openssl (Rudp.plainFraming .icmp) [] _ [7] rfl
      List.length_replicate (by decide)⟩,
    checksums_complete.2 .little .big (List.replicate 20 0) rfl rfl⟩

theorem dhcpIpHeader_complete (host reader : ByteOrder) (udpLen : ℕ) (id : UInt8 × UInt8) :
    onesSum (words reader (dhcpIpHeader host udpLen id)) = 0xFFFF := by
  apply onesSum_words_other
  exact ipChecksum_stored host rfl rfl

end SoftEtherVpn.Net
