import SoftEtherVpn.Arp.Gateway
import SoftEtherVpn.Dhcp.Lease
import SoftEtherVpn.Net.Ipv4
import Mathlib.Data.Nat.Bitwise

/-!
# From the exchange to the configuration

`nativeDoDhcp` runs the exchange, has the gateway resolved, or the DNS server in its place, and hands
seven numbers to `SoftEtherClient.doDhcp`, which turns them into the texts and the prefix length that
the VPN interface is set up with.
-/

namespace SoftEtherVpn.Dhcp

open Foundation
open Net (InAddr inetPton inetNtop decimal dot)

def jint (n : ℕ) : Int32 := (UInt32.ofNat n).toInt32

/-- What the calls of `softether_receive_raw` in one resolution find. -/
structure Resolving where
  connected : Bool
  deliver : ℕ → Delivery

/-- What `nativeDoDhcp` returns and leaves. -/
structure NativeDhcp where
  values : List Int32
  conn : Arp.Conn
  outcome : Outcome

/-- The resolution of an address of the result. -/
def Resolving.ask (s : Resolving) (ip : ℕ) : Arp.Ask := ⟨s.connected, UInt32.ofNat ip, s.deliver⟩

/-- The resolutions after an exchange with result `r`. -/
def resolveLease (conn : Arp.Conn) (r : DhcpResult) (gateway dns : Resolving) : Arp.Conn :=
  let conn := { conn with assignedIp := UInt32.ofNat r.assignedIp }
  let first := Arp.softetherResolveGateway gateway.connected conn (UInt32.ofNat r.gateway)
    gateway.deliver
  if first.code ≠ 0 ∧ r.dnsServer ≠ 0 then
    (Arp.softetherResolveGateway dns.connected first.conn (UInt32.ofNat r.dnsServer)
      dns.deliver).conn
  else first.conn

/-- `result.success` is set by the exchange exactly when it returns 0. -/
def nativeDoDhcp (xid : ℕ) (conn : Arp.Conn) (connected : Bool) (sends : Fin dhcpMaxRetries → Sends)
    (ds : List Delivery) (gateway dns : Resolving) : Option NativeDhcp :=
  (softetherDoDhcp xid conn.clientMac.1 connected ⟨0, 0, 0, 0, 0, 0⟩ sends ds).map fun out =>
    let r := out.written.result
    { values := [if out.code = 0 then 1 else 0, jint r.assignedIp, jint r.subnetMask,
        jint r.gateway, jint r.dnsServer, jint r.dnsServer2, jint r.leaseTime]
      conn := if out.code = 0 ∧ r.gateway ≠ 0 then resolveLease conn r gateway dns else conn
      outcome := out }

def octetAt (ip : Int32) (shift : UInt32) : UInt8 := ((ip.toUInt32 >>> shift) &&& 0xFF).toUInt8

def intToIpString (ip : Int32) : Bytes :=
  decimal (octetAt ip 24) ++ [dot] ++ decimal (octetAt ip 16) ++ [dot] ++
    decimal (octetAt ip 8) ++ [dot] ++ decimal (octetAt ip 0)

/-- The loop of `subnetMaskToPrefix`, from bit `i - 1` down. -/
def prefixLoop (mask : Int32) : ℕ → ℕ → ℕ
  | 0, count => count
  | i + 1, count =>
    if mask.toUInt32 &&& (1 <<< UInt32.ofNat i) ≠ 0 then prefixLoop mask i (count + 1) else count

def subnetMaskToPrefix (mask : Int32) : ℕ := prefixLoop mask 32 0

structure ClientConfig where
  assignedIp : Bytes
  subnetMask : Bytes
  gateway : Bytes
  dnsServer : Bytes
  dnsServer2 : Bytes
  leaseTime : Int32
  prefixLength : ℕ

/-- `SoftEtherClient.doDhcp` on the array of `nativeDoDhcp`. -/
def doDhcp : List Int32 → Option ClientConfig
  | success :: assignedIp :: subnetMask :: gateway :: dnsServer :: dnsServer2 :: leaseTime :: _ =>
    if success = 0 then none
    else some
      { assignedIp := intToIpString assignedIp
        subnetMask := intToIpString subnetMask
        gateway := intToIpString gateway
        dnsServer := intToIpString dnsServer
        dnsServer2 := intToIpString dnsServer2
        leaseTime := leaseTime
        prefixLength := subnetMaskToPrefix subnetMask }
  | _ => none

/-! ## The texts -/

/-- The address as a number. -/
def ipNat (a : InAddr) : ℕ := natBE [a.a, a.b, a.c, a.d]

theorem jint_toUInt32 (n : ℕ) : (jint n).toUInt32 = UInt32.ofNat n := by
  simp [jint]

theorem octetAt_toNat (ip : Int32) {shift : ℕ} (h : shift < 32) :
    (octetAt ip (UInt32.ofNat shift)).toNat = ip.toUInt32.toNat / 2 ^ shift % 256 := by
  have hmask : ∀ n : ℕ, n &&& 255 = n % 256 := fun n => Nat.and_two_pow_sub_one_eq_mod n 8
  have hshift : (UInt32.ofNat shift).toNat % 32 = shift := by
    rw [UInt32.toNat_ofNat', Nat.mod_eq_of_lt (show shift < 2 ^ 32 by omega), Nat.mod_eq_of_lt h]
  have h255 : (0xFF : UInt32).toNat = 255 := rfl
  rw [octetAt, UInt32.toNat_toUInt8, UInt32.toNat_and, UInt32.toNat_shiftRight, hshift, h255, hmask,
    Nat.shiftRight_eq_div_pow, Nat.mod_mod]

theorem intToIpString_parses (ip : Int32) :
    ∃ a, inetPton (intToIpString ip) = some a ∧ ipNat a = ip.toUInt32.toNat := by
  have h24 := octetAt_toNat ip (show 24 < 32 by decide)
  have h16 := octetAt_toNat ip (show 16 < 32 by decide)
  have h8 := octetAt_toNat ip (show 8 < 32 by decide)
  have h0 := octetAt_toNat ip (show 0 < 32 by decide)
  have hlt := ip.toUInt32.toNat_lt
  refine ⟨⟨octetAt ip 24, octetAt ip 16, octetAt ip 8, octetAt ip 0⟩, ?_, ?_⟩
  · rw [← Net.inetPton_inetNtop, Net.inetNtop_eq, intToIpString]
    simp only [List.append_assoc, List.cons_append, List.nil_append]
  · change natBE [octetAt ip (UInt32.ofNat 24), octetAt ip (UInt32.ofNat 16),
      octetAt ip (UInt32.ofNat 8), octetAt ip (UInt32.ofNat 0)] = _
    simp only [natBE, List.foldl_cons, List.foldl_nil, h24, h16, h8, h0]
    omega

/-- The text of a 32-bit value. -/
theorem intToIpString_jint {n : ℕ} (h : n < 2 ^ 32) :
    (inetPton (intToIpString (jint n))).map ipNat = some n := by
  obtain ⟨a, ha, hvalue⟩ := intToIpString_parses (jint n)
  rw [ha, Option.map_some, hvalue, jint_toUInt32, UInt32.toNat_ofNat', Nat.mod_eq_of_lt h]

/-! ## The prefix length -/

theorem and_shift_ne_zero (mask : Int32) {i : ℕ} (h : i < 32) :
    mask.toUInt32 &&& (1 <<< UInt32.ofNat i) ≠ 0 ↔ mask.toUInt32.toNat.testBit i = true := by
  have hi : (UInt32.ofNat i).toNat % 32 = i := by
    rw [UInt32.toNat_ofNat', Nat.mod_eq_of_lt (show i < 2 ^ 32 by omega), Nat.mod_eq_of_lt h]
  have hone : (1 : UInt32).toNat = 1 := rfl
  have hzero : (0 : UInt32).toNat = 0 := rfl
  have hlt : 2 ^ i < 2 ^ 32 := Nat.pow_lt_pow_right (by decide) h
  rw [Ne, ← UInt32.toNat_inj, UInt32.toNat_and, UInt32.toNat_shiftLeft, hi, hone, hzero,
    Nat.one_shiftLeft, Nat.mod_eq_of_lt hlt, Nat.and_two_pow]
  cases mask.toUInt32.toNat.testBit i <;> simp

/-- The loop counts the bits from `i - 1` down to the first that is not set. -/
theorem prefixLoop_spec (mask : Int32) {i : ℕ} (hi : i ≤ 32) (count : ℕ) :
    ∃ n ≤ i, prefixLoop mask i count = count + n ∧
      (∀ j, i - n ≤ j → j < i → mask.toUInt32.toNat.testBit j = true) ∧
        (n < i → mask.toUInt32.toNat.testBit (i - n - 1) = false) := by
  induction i generalizing count with
  | zero => exact ⟨0, le_rfl, rfl, fun j _ hj => absurd hj (by omega), fun h => absurd h (by omega)⟩
  | succ i ih =>
    have hbit := and_shift_ne_zero mask (show i < 32 by omega)
    rw [prefixLoop]
    by_cases hset : mask.toUInt32.toNat.testBit i = true
    · rw [if_pos (hbit.mpr hset)]
      obtain ⟨n, hn, hloop, hones, hend⟩ := ih (by omega) (count + 1)
      refine ⟨n + 1, by omega, by rw [hloop]; omega, ?_, ?_⟩
      · intro j hj hji
        rcases Nat.lt_succ_iff_lt_or_eq.mp hji with hlt | rfl
        · exact hones j (by omega) hlt
        · exact hset
      · intro hlt
        have hzero := hend (by omega)
        rwa [show i + 1 - (n + 1) - 1 = i - n - 1 by omega]
    · rw [if_neg (fun h => hset (hbit.mp h))]
      refine ⟨0, Nat.zero_le _, rfl, fun j hj hji => absurd hji (by omega), fun _ => ?_⟩
      simpa using hset

/-- The number of leading ones. -/
def LeadingOnes (mask n : ℕ) : Prop :=
  n ≤ 32 ∧ (∀ j, 32 - n ≤ j → j < 32 → mask.testBit j = true) ∧
    (n < 32 → mask.testBit (31 - n) = false)

theorem subnetMaskToPrefix_leadingOnes {n : ℕ} (h : n < 2 ^ 32) :
    LeadingOnes n (subnetMaskToPrefix (jint n)) := by
  obtain ⟨k, hk, hloop, hones, hend⟩ := prefixLoop_spec (jint n) le_rfl 0
  have hvalue : (jint n).toUInt32.toNat = n := by
    rw [jint_toUInt32, UInt32.toNat_ofNat', Nat.mod_eq_of_lt h]
  rw [hvalue] at hones hend
  rw [subnetMaskToPrefix, hloop, Nat.zero_add]
  refine ⟨hk, hones, ?_⟩
  intro hlt
  have hzero := hend hlt
  rwa [show 32 - k - 1 = 31 - k by omega] at hzero

/-! ## What the exchange writes has 32 bits -/

section Bounds

variable {xid : ℕ} {mac : Bytes}

theorem natBE_take_lt (bs : Bytes) (n : ℕ) (h : n ≤ 4) : natBE (bs.take n) < 2 ^ 32 := by
  have hlt := natBE_lt (bs.take n)
  have hlength : (bs.take n).length ≤ 4 := (List.length_take_le n bs).trans h
  have hpow : 256 ^ (bs.take n).length ≤ 256 ^ 4 := Nat.pow_le_pow_right (by decide) hlength
  exact (hlt.trans_le hpow).trans_eq (by decide)

theorem Reply.carried_lt {r : Reply} {field : Field} {v : ℕ} (h : r.carried field = some v) :
    v < 2 ^ 32 := by
  obtain ⟨option, -, hoption⟩ := exists_of_lastWrite h
  rw [Field.carriedBy] at hoption
  split_ifs at hoption
  rw [← Option.some.inj hoption]
  exact natBE_take_lt _ _ (by cases field <;> decide)

theorem Frame.carried_lt {f : Frame} {field : Field} {v : ℕ}
    (h : f.carried xid mac field = some v) : v < 2 ^ 32 := by
  obtain ⟨r, -, hr⟩ := Option.bind_eq_some_iff.mp h
  exact r.carried_lt hr

theorem Frame.yiaddr_lt {f : Frame} {v : ℕ} (h : f.yiaddr xid mac = some v) : v < 2 ^ 32 := by
  obtain ⟨r, hr, rfl⟩ := Option.map_eq_some_iff.mp h
  rw [replyOf] at hr
  split at hr
  · rw [← Option.some.inj hr]
    exact natBE_take_lt _ 4 le_rfl
  · cases hr

theorem residue_lt (ds : List Delivery) (field : Field) : residue xid mac ds field < 2 ^ 32 := by
  rw [residue]
  cases h : lastWrite (Delivery.carried xid mac field) ds with
  | none => exact Nat.two_pow_pos 32
  | some v =>
    obtain ⟨d, -, hd⟩ := exists_of_lastWrite h
    cases d with
    | failed => cases hd
    | idle => cases hd
    | frame f => exact Frame.carried_lt hd

end Bounds

section Resolutions

variable (conn : Arp.Conn) (r : DhcpResult) (gateway dns : Resolving)

theorem resolveLease_eq :
    resolveLease conn r gateway dns =
      if ((gateway.ask r.gateway).answer.isNone ∧ r.dnsServer ≠ 0) then
        (dns.ask r.dnsServer).run
          ((gateway.ask r.gateway).run { conn with assignedIp := UInt32.ofNat r.assignedIp })
      else (gateway.ask r.gateway).run { conn with assignedIp := UInt32.ofNat r.assignedIp } := by
  have hcode := (gateway.ask r.gateway).code_ne_zero_iff
    { conn with assignedIp := UInt32.ofNat r.assignedIp }
  by_cases hnone : (gateway.ask r.gateway).answer.isNone ∧ r.dnsServer ≠ 0
  · rw [resolveLease, if_pos ⟨hcode.mpr hnone.1, hnone.2⟩, if_pos hnone]
    rfl
  · rw [resolveLease, if_neg (fun h => hnone ⟨hcode.mp h.1, h.2⟩), if_neg hnone]
    rfl

theorem resolveLease_assignedIp :
    (resolveLease conn r gateway dns).assignedIp = UInt32.ofNat r.assignedIp := by
  rw [resolveLease_eq]
  split_ifs
  · rw [Arp.Ask.run_assignedIp, Arp.Ask.run_assignedIp]
  · rw [Arp.Ask.run_assignedIp]

/-- The gateway's owner, or that of the DNS server. -/
def leaseOwner : Option Packet.Mac :=
  (gateway.ask r.gateway).answer.or
    (if r.dnsServer ≠ 0 then (dns.ask r.dnsServer).answer else none)

theorem resolveLease_dstMac (sendBlock : Option Bytes) (useCompress : ℕ) :
    ((resolveLease conn r gateway dns).sends sendBlock useCompress).dstMac =
      (leaseOwner r gateway dns).getD (conn.sends sendBlock useCompress).dstMac := by
  rw [resolveLease_eq, leaseOwner]
  cases hfirst : (gateway.ask r.gateway).answer with
  | some mac =>
    rw [if_neg (by simp), Arp.Ask.run_dstMac, hfirst]
    rfl
  | none =>
    by_cases hdns : r.dnsServer ≠ 0
    · rw [if_pos ⟨rfl, hdns⟩, if_pos hdns, Arp.Ask.run_dstMac, Arp.Ask.run_dstMac, hfirst]
      rfl
    · rw [if_neg (fun h => hdns h.2), if_neg hdns, Arp.Ask.run_dstMac, hfirst]
      rfl

end Resolutions

section Native

variable {xid : ℕ} {conn : Arp.Conn} {connected : Bool} {sends : Fin dhcpMaxRetries → Sends}
  {ds : List Delivery} {gateway dns : Resolving} {native : NativeDhcp}

/-- The session after an exchange: its data frames go to the owner of the gateway's address, else to
that of the DNS server's, else where they went before; without a lease, or without a gateway in it,
nothing changes. A session without an address before answers the requests for the leased
address exactly when the lease names a gateway. -/
theorem nativeDoDhcp_gateway (h : nativeDoDhcp xid conn connected sends ds gateway dns = some native)
    (hfresh : conn.assignedIp = 0) :
    (∀ sendBlock useCompress, (native.conn.sends sendBlock useCompress).dstMac =
      if native.outcome.code = 0 ∧ native.outcome.written.result.gateway ≠ 0 then
        (leaseOwner native.outcome.written.result gateway dns).getD
          (conn.sends sendBlock useCompress).dstMac
      else (conn.sends sendBlock useCompress).dstMac) ∧
      ∀ (a : Arp.Conn) (ip : UInt32), (Receive.softetherReplyArpRequest native.conn.receives
          (Arp.arpRequest a ip)).isSome ↔
        ip ≠ 0 ∧ UInt32.ofNat native.outcome.written.result.assignedIp = ip ∧
          native.outcome.code = 0 ∧ native.outcome.written.result.gateway ≠ 0 := by
  obtain ⟨out, -, rfl⟩ := Option.map_eq_some_iff.mp h
  dsimp only
  constructor
  · intro sendBlock useCompress
    split_ifs
    · exact resolveLease_dstMac conn _ gateway dns sendBlock useCompress
    · rfl
  · intro a ip
    rw [Arp.softetherReplyArpRequest_arpRequest]
    by_cases hlease : out.code = 0 ∧ out.written.result.gateway ≠ 0
    · rw [if_pos hlease, resolveLease_assignedIp]
      split_ifs with hown
      · simp [hown.1, hown.2, hlease.1, hlease.2]
      · simp only [Option.isSome_none, Bool.false_eq_true, false_iff]
        exact fun h => hown ⟨h.2.1, h.1⟩
    · rw [if_neg hlease, hfresh]
      split_ifs with hown
      · exact absurd hown.1.symm hown.2
      · simp only [Option.isSome_none, Bool.false_eq_true, false_iff]
        exact fun h => hlease h.2.2

/-- The texts of the configuration, with the fields that they show. -/
def ClientConfig.texts (config : ClientConfig) : List (Field × Bytes) :=
  [(.subnetMask, config.subnetMask), (.gateway, config.gateway), (.dnsServer, config.dnsServer),
    (.dnsServer2, config.dnsServer2)]

/-- What an ACK after `before` leaves in a field. -/
def acked (xid : ℕ) (mac : Bytes) (before : List Delivery) (ack : Frame) (field : Field) : ℕ :=
  (ack.carried xid mac field).getD (residue xid mac before field)

theorem acked_lt (before : List Delivery) (ack : Frame) (field : Field) :
    acked xid conn.clientMac.1 before ack field < 2 ^ 32 := by
  rw [acked]
  cases hcarried : ack.carried xid conn.clientMac.1 field with
  | none => exact residue_lt before field
  | some v => exact Frame.carried_lt hcarried

/-- A configuration comes from an ACK: its texts read back as the addresses that the ACK carries, or
that earlier replies left where it carries none, and the prefix length is the number of leading
ones of the mask. -/
theorem doDhcp_config {config : ClientConfig}
    (h : nativeDoDhcp xid conn connected sends ds gateway dns = some native)
    (hconfig : doDhcp native.values = some config) :
    ∃ before ack rest, ds = before ++ Delivery.frame ack :: rest ∧
      ack.msgType xid conn.clientMac.1 = dhcpAck ∧
        (inetPton config.assignedIp).map ipNat = ack.yiaddr xid conn.clientMac.1 ∧
        (∀ x ∈ config.texts, (inetPton x.2).map ipNat =
          some (acked xid conn.clientMac.1 before ack x.1)) ∧
        config.leaseTime = jint (acked xid conn.clientMac.1 before ack .leaseTime) ∧
        LeadingOnes (acked xid conn.clientMac.1 before ack .subnetMask) config.prefixLength := by
  obtain ⟨out, hout, rfl⟩ := Option.map_eq_some_iff.mp h
  dsimp only [doDhcp] at hconfig
  have hcode : out.code = 0 := by
    by_contra hne
    rw [if_neg hne, if_pos rfl] at hconfig
    cases hconfig
  rw [if_pos hcode, if_neg (by decide)] at hconfig
  rw [softetherDoDhcp] at hout
  split_ifs at hout
  swap
  · rw [← Option.some.inj hout] at hcode
    cases hcode
  obtain ⟨before, offer, since, ack, hds, -, hack, -, -, hwritten⟩ :=
    (dhcpRetries_leases hout hcode).used
  obtain ⟨hip, hfields⟩ := result_eq (by rw [hack]; decide) hwritten
  obtain ⟨ip, hyiaddr⟩ : ∃ ip, ack.yiaddr xid conn.clientMac.1 = some ip :=
    Frame.yiaddr_of_msgType (by rw [hack]; decide)
  rw [hyiaddr, Option.getD_some] at hip
  have hmask : out.written.result.subnetMask = _ := hfields .subnetMask (by decide)
  have hgateway : out.written.result.gateway = _ := hfields .gateway (by decide)
  have hdns : out.written.result.dnsServer = _ := hfields .dnsServer (by decide)
  have hdns2 : out.written.result.dnsServer2 = _ := hfields .dnsServer2 (by decide)
  have hlease : out.written.result.leaseTime = _ := hfields .leaseTime (by decide)
  have hlt := @acked_lt xid conn (before ++ .frame offer :: since) ack
  refine ⟨before ++ .frame offer :: since, ack, out.rest, hds, hack, ?_, ?_, ?_, ?_⟩
  · rw [← Option.some.inj hconfig, hyiaddr]
    dsimp only
    rw [hip]
    exact intToIpString_jint (Frame.yiaddr_lt hyiaddr)
  · rw [← Option.some.inj hconfig]
    simp only [ClientConfig.texts, List.forall_mem_cons, List.not_mem_nil, false_imp_iff,
      implies_true, and_true, hmask, hgateway, hdns, hdns2]
    exact ⟨intToIpString_jint (hlt _), intToIpString_jint (hlt _), intToIpString_jint (hlt _),
      intToIpString_jint (hlt _)⟩
  · rw [← Option.some.inj hconfig]
    exact congrArg jint hlease
  · rw [← Option.some.inj hconfig]
    dsimp only
    rw [hmask]
    exact subnetMaskToPrefix_leadingOnes (hlt .subnetMask)

end Native

/-- An ACK that names 10.0.0.1 as the gateway. -/
def gatewayAckFrame : Frame :=
  ⟨serverReply 5 [1, 4, 255, 255, 255, 0, 3, 4, 10, 0, 0, 1, 255], by decide +kernel⟩

theorem laptopMac_length : ([2, 0, 0, 0, 0, 1] : Bytes).length = 6 := rfl

def laptop : Arp.Conn := ⟨⟨[2, 0, 0, 0, 0, 1], laptopMac_length⟩, 0, 0, Arp.zeroMac, false⟩

def gatewayMac : Packet.Mac := ⟨[2, 0, 0, 0, 0, 9], rfl⟩

def gatewayReply : Frame :=
  ⟨Arp.arpPacket laptop.clientMac gatewayMac 2 0x0A000001 laptop.clientMac 0x0A000002,
    (Arp.arpPacket_length _ _ _ _ _ _).le.trans (by decide)⟩

/-- The gateway replies to the third call. -/
def thirdCall : Resolving := ⟨true, fun i => if i = 2 then .frame gatewayReply else .idle⟩

def laptopRun : Option NativeDhcp :=
  nativeDoDhcp 7 laptop true (fun _ => ⟨true, true⟩) [.frame offerFrame, .frame gatewayAckFrame]
    thirdCall thirdCall

theorem laptopRun_isSome : laptopRun.isSome = true := by decide +kernel

theorem nativeDoDhcp_gateway_laptop :
    ∃ native, laptopRun = some native ∧ ∀ sendBlock useCompress,
      (native.conn.sends sendBlock useCompress).dstMac =
        if native.outcome.code = 0 ∧ native.outcome.written.result.gateway ≠ 0 then
          (leaseOwner native.outcome.written.result thirdCall thirdCall).getD
            (laptop.sends sendBlock useCompress).dstMac
        else (laptop.sends sendBlock useCompress).dstMac := by
  obtain ⟨native, h⟩ := Option.isSome_iff_exists.mp laptopRun_isSome
  exact ⟨native, h, (nativeDoDhcp_gateway h rfl).1⟩

theorem laptopRun_config : (laptopRun.bind fun native => doDhcp native.values).isSome = true := by
  decide +kernel

theorem doDhcp_config_laptop :
    ∃ native config, laptopRun = some native ∧ doDhcp native.values = some config ∧
      ∃ before ack rest, [.frame offerFrame, .frame gatewayAckFrame] =
        before ++ Delivery.frame ack :: rest ∧
          (inetPton config.assignedIp).map ipNat = ack.yiaddr 7 laptop.clientMac.1 := by
  obtain ⟨config, hbind⟩ := Option.isSome_iff_exists.mp laptopRun_config
  obtain ⟨native, h, hconfig⟩ := Option.bind_eq_some_iff.mp hbind
  obtain ⟨before, ack, rest, hds, -, hip, -⟩ := doDhcp_config h hconfig
  exact ⟨native, config, h, hconfig, before, ack, rest, hds, hip⟩

end SoftEtherVpn.Dhcp
