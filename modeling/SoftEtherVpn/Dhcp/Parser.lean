import SoftEtherVpn.Foundation.Bytes
import SoftEtherVpn.Foundation.LastWrite

/-!
# The DHCP response parser

`parse_dhcp_response` on a frame of `frame_len` bytes. Every access is a read at an index of the
frame, and a read of an option's value also keeps to the length that the option declares; a
read outside ends the run with a fault, and so does an option loop that goes on for more
rounds than the frame has bytes.
-/

namespace SoftEtherVpn.Dhcp

open Foundation

def ethHlen : ℕ := 14
def ethPIp : ℕ := 0x0800
def ipHlen : ℕ := 20
def ipProtoUdp : ℕ := 17
def udpHlen : ℕ := 8
def dhcpBootreply : ℕ := 2
def dhcpMagicCookie : ℕ := 0x63825363
def dhcpMinLen : ℕ := 236
def dhcpOffer : ℕ := 2
def dhcpAck : ℕ := 5
def dhcpNak : ℕ := 6
def optSubnetMask : ℕ := 1
def optRouter : ℕ := 3
def optDnsServer : ℕ := 6
def optLeaseTime : ℕ := 51
def optMsgType : ℕ := 53
def optServerId : ℕ := 54
def optEnd : ℕ := 255

@[ext] structure DhcpResult where
  assignedIp : ℕ
  subnetMask : ℕ
  gateway : ℕ
  dnsServer : ℕ
  dnsServer2 : ℕ
  leaseTime : ℕ
  deriving DecidableEq

/-- What the parser writes to: the result and `*server_id_out`. -/
structure Written where
  result : DhcpResult
  serverId : ℕ
  deriving DecidableEq

inductive Fault
  | outsideFrame
  | outsideOption
  | stillRunning
  deriving DecidableEq

section Parser

variable (frame : Bytes)

/-- The bytes at the indices `i` to `i + n - 1`. -/
def readBytes (i n : ℕ) : Except Fault Bytes :=
  if i + n ≤ frame.length then .ok ((frame.drop i).take n) else .error .outsideFrame

def readNat (i n : ℕ) : Except Fault ℕ := (readBytes frame i n).map natBE

/-- `n` bytes from offset `off` of the value of an option that declares `len` bytes. -/
def readValue (start len off n : ℕ) : Except Fault ℕ :=
  if off + n ≤ len then readNat frame (start + off) n else .error .outsideOption

/-- The switch over the option's code; its value has `len` bytes from `start` on. The first
component is the message type. -/
def storeOption (opt start len : ℕ) (st : ℕ × Written) : Except Fault (ℕ × Written) :=
  let (msgType, w) := st
  if opt = optMsgType then
    if len ≥ 1 then (readValue frame start len 0 1).map fun v => (v, w) else .ok st
  else if opt = optSubnetMask then
    if len ≥ 4 then
      (readValue frame start len 0 4).map fun v =>
        (msgType, { w with result := { w.result with subnetMask := v } })
    else .ok st
  else if opt = optRouter then
    if len ≥ 4 then
      (readValue frame start len 0 4).map fun v =>
        (msgType, { w with result := { w.result with gateway := v } })
    else .ok st
  else if opt = optDnsServer then do
    let w ←
      if len ≥ 4 then
        (readValue frame start len 0 4).map fun v =>
          { w with result := { w.result with dnsServer := v } }
      else .ok w
    if len ≥ 8 then
      (readValue frame start len 4 4).map fun v =>
        (msgType, { w with result := { w.result with dnsServer2 := v } })
    else .ok (msgType, w)
  else if opt = optLeaseTime then
    if len ≥ 4 then
      (readValue frame start len 0 4).map fun v =>
        (msgType, { w with result := { w.result with leaseTime := v } })
    else .ok st
  else if opt = optServerId then
    if len ≥ 4 then
      (readValue frame start len 0 4).map fun v => (msgType, { w with serverId := v })
    else .ok st
  else .ok st

/-- The option loop; `dhcp` is where the DHCP part begins. -/
def optionLoop (dhcp dhcpLen : ℕ) : ℕ → ℕ → ℕ × Written → Except Fault (ℕ × Written)
  | 0, _, _ => .error .stillRunning
  | rounds + 1, optPos, st =>
    if optPos < dhcpLen then do
      let opt ← readNat frame (dhcp + optPos) 1
      let optPos := optPos + 1
      if opt = optEnd then .ok st
      else if opt = 0 then optionLoop dhcp dhcpLen rounds optPos st
      else if optPos ≥ dhcpLen then .ok st
      else
        let optLen ← readNat frame (dhcp + optPos) 1
        let optPos := optPos + 1
        if (optPos + optLen) % 2 ^ 32 > dhcpLen then .ok st
        else
          let st ← storeOption frame opt (dhcp + optPos) optLen st
          optionLoop dhcp dhcpLen rounds (optPos + optLen) st
    else .ok st

/-- The checks before the parser writes anything: where the DHCP part of a reply to this client
begins and how long it is. -/
def locateDhcp (expectedXid : ℕ) (clientMac : Bytes) : Except Fault (Option (ℕ × ℕ)) :=
  if frame.length < ethHlen + ipHlen + udpHlen + dhcpMinLen + 4 then .ok none
  else do
    let ethertype ← readNat frame 12 2
    if ethertype ≠ ethPIp then .ok none
    else
      let versionIhl ← readNat frame ethHlen 1
      if versionIhl / 16 ≠ 4 then .ok none
      else
        let protocol ← readNat frame (ethHlen + 9) 1
        if protocol ≠ ipProtoUdp then .ok none
        else
          let headerLen := versionIhl % 16 * 4
          let udp := ethHlen + headerLen
          let srcPort ← readNat frame udp 2
          let dstPort ← readNat frame (udp + 2) 2
          if srcPort ≠ 67 ∨ dstPort ≠ 68 then .ok none
          else
            let dhcp := udp + udpHlen
            let dhcpLen := (frame.length + 2 ^ 32 - ethHlen - headerLen - udpHlen) % 2 ^ 32
            if dhcpLen < dhcpMinLen + 4 then .ok none
            else
              let op ← readNat frame dhcp 1
              if op ≠ dhcpBootreply then .ok none
              else
                let xid ← readNat frame (dhcp + 4) 4
                if xid ≠ expectedXid then .ok none
                else
                  let chaddr ← readBytes frame (dhcp + 28) 6
                  if chaddr ≠ clientMac then .ok none else .ok (some (dhcp, dhcpLen))

/-- `parse_dhcp_response`: the message type, 0 for a frame that is not taken. -/
def parseDhcpResponse (expectedXid : ℕ) (clientMac : Bytes) (w : Written) :
    Except Fault (ℕ × Written) := do
  match ← locateDhcp frame expectedXid clientMac with
  | none => .ok (0, w)
  | some (dhcp, dhcpLen) =>
    let yiaddr ← readNat frame (dhcp + 16) 4
    let w := { w with result := { w.result with assignedIp := yiaddr } }
    let magic ← readNat frame (dhcp + 236) 4
    if magic ≠ dhcpMagicCookie then .ok (0, w)
    else optionLoop frame dhcp dhcpLen (frame.length + 1) 240 (0, w)

end Parser

/-- The fields that the options of a reply fill. -/
inductive Field
  | msgType
  | subnetMask
  | gateway
  | dnsServer
  | dnsServer2
  | leaseTime
  | serverId
  deriving DecidableEq

namespace Field

def code : Field → ℕ
  | msgType => optMsgType
  | subnetMask => optSubnetMask
  | gateway => optRouter
  | dnsServer => optDnsServer
  | dnsServer2 => optDnsServer
  | leaseTime => optLeaseTime
  | serverId => optServerId

/-- Where the field begins in the option's value. -/
def offset : Field → ℕ
  | dnsServer2 => 4
  | _ => 0

def size : Field → ℕ
  | msgType => 1
  | _ => 4

def get : Field → ℕ × Written → ℕ
  | msgType, st => st.1
  | subnetMask, st => st.2.result.subnetMask
  | gateway, st => st.2.result.gateway
  | dnsServer, st => st.2.result.dnsServer
  | dnsServer2, st => st.2.result.dnsServer2
  | leaseTime, st => st.2.result.leaseTime
  | serverId, st => st.2.serverId

/-- The field's value in an option, where the option has it. -/
def carriedBy (field : Field) (option : ℕ × Bytes) : Option ℕ :=
  if option.1 = field.code ∧ field.offset + field.size ≤ option.2.length then
    some (natBE ((option.2.drop field.offset).take field.size))
  else none

def put : Field → ℕ → ℕ × Written → ℕ × Written
  | msgType, v, st => (v, st.2)
  | subnetMask, v, st => (st.1, { st.2 with result := { st.2.result with subnetMask := v } })
  | gateway, v, st => (st.1, { st.2 with result := { st.2.result with gateway := v } })
  | dnsServer, v, st => (st.1, { st.2 with result := { st.2.result with dnsServer := v } })
  | dnsServer2, v, st => (st.1, { st.2 with result := { st.2.result with dnsServer2 := v } })
  | leaseTime, v, st => (st.1, { st.2 with result := { st.2.result with leaseTime := v } })
  | serverId, v, st => (st.1, { st.2 with serverId := v })

theorem get_put (f g : Field) (v : ℕ) (st : ℕ × Written) :
    g.get (f.put v st) = if g = f then v else g.get st := by
  cases f <;> cases g <;> rfl

theorem assignedIp_put (f : Field) (v : ℕ) (st : ℕ × Written) :
    (f.put v st).2.result.assignedIp = st.2.result.assignedIp := by
  cases f <;> rfl

theorem offset_of_ne {f : Field} (h : f ≠ dnsServer2) : f.offset = 0 := by
  cases f with
  | dnsServer2 => contradiction
  | _ => rfl

/-- Only the two DNS servers share an option. -/
theorem code_injective {f g : Field} (hdns : f.code ≠ optDnsServer) (h : g.code = f.code) :
    g = f := by
  revert hdns h
  cases f <;> cases g <;> decide

theorem carriedBy_of_ne {f : Field} {opt : ℕ} {value : Bytes} (h : opt ≠ f.code) :
    f.carriedBy (opt, value) = none := by
  rw [carriedBy, if_neg fun hcode => h hcode.1]

theorem carriedBy_code (f : Field) (value : Bytes) :
    f.carriedBy (f.code, value) =
      if f.offset + f.size ≤ value.length then
        some (natBE ((value.drop f.offset).take f.size))
      else none := by
  simp [carriedBy]

end Field

/-- The options of an option area: pads are skipped, and the list stops at the end option and
where an option is cut off. -/
def optionsOf : ℕ → Bytes → List (ℕ × Bytes)
  | 0, _ => []
  | _ + 1, [] => []
  | rounds + 1, opt :: area =>
    if opt.toNat = optEnd then []
    else if opt.toNat = 0 then optionsOf rounds area
    else
      match area with
      | [] => []
      | len :: area =>
        if area.length < len.toNat then []
        else (opt.toNat, area.take len.toNat) :: optionsOf rounds (area.drop len.toNat)

theorem optionsOf_end {opt : UInt8} (h : opt.toNat = optEnd) (rounds : ℕ) (area : Bytes) :
    optionsOf (rounds + 1) (opt :: area) = [] := by
  cases area <;> simp [optionsOf, h]

theorem optionsOf_pad {opt : UInt8} (h : opt.toNat = 0) (rounds : ℕ) (area : Bytes) :
    optionsOf (rounds + 1) (opt :: area) = optionsOf rounds area := by
  cases area <;> simp [optionsOf, h, optEnd]

theorem optionsOf_cut {opt : UInt8} (rounds : ℕ) : optionsOf (rounds + 1) [opt] = [] := by
  cases rounds <;> simp [optionsOf]

theorem optionsOf_cons {opt : UInt8} (hend : opt.toNat ≠ optEnd) (hpad : opt.toNat ≠ 0)
    (rounds : ℕ) (len : UInt8) (area : Bytes) :
    optionsOf (rounds + 1) (opt :: len :: area) =
      if area.length < len.toNat then []
      else (opt.toNat, area.take len.toNat) :: optionsOf rounds (area.drop len.toNat) := by
  simp only [optionsOf, hend, hpad, if_false]

/-- What a reply to this client carries. -/
structure Reply where
  yiaddr : ℕ
  options : List (ℕ × Bytes)

/-- The last value that the options give to the field. -/
def Reply.carried (r : Reply) (field : Field) : Option ℕ :=
  lastWrite field.carriedBy r.options

/-- The reply that a frame is to this client; without the magic cookie it has no options. -/
def replyOf (frame : Bytes) (expectedXid : ℕ) (clientMac : Bytes) : Option Reply :=
  match locateDhcp frame expectedXid clientMac with
  | .ok (some (dhcp, _)) => some
      { yiaddr := natBE ((frame.drop (dhcp + 16)).take 4)
        options :=
          if natBE ((frame.drop (dhcp + 236)).take 4) = dhcpMagicCookie then
            optionsOf (frame.length + 1) (frame.drop (dhcp + 240))
          else [] }
  | _ => none

section Reading

variable {frame : Bytes}

theorem readNat_ok {i n : ℕ} (h : i + n ≤ frame.length) :
    readNat frame i n = .ok (natBE ((frame.drop i).take n)) := by
  simp [readNat, readBytes, h, Except.map]

theorem readBytes_ok {i n : ℕ} (h : i + n ≤ frame.length) :
    readBytes frame i n = .ok ((frame.drop i).take n) := by
  simp [readBytes, h]

theorem readNat_byte {i : ℕ} (h : i < frame.length) : readNat frame i 1 = .ok frame[i].toNat := by
  rw [readNat_ok (by omega), List.drop_eq_getElem_cons h, List.take_succ_cons, List.take_zero,
    natBE_cons]
  simp [natBE]

theorem readValue_ok {start len off n : ℕ} (hframe : start + len ≤ frame.length)
    (hvalue : off + n ≤ len) :
    readValue frame start len off n =
      .ok (natBE (((((frame.drop start).take len).drop off)).take n)) := by
  rw [readValue, if_pos hvalue, readNat_ok (by omega), List.drop_take, List.take_take,
    List.drop_drop, Nat.min_eq_left (by omega)]

/-- The options that fill one field. -/
theorem storeOption_single {f : Field} (hdns : f ≠ .dnsServer) (hdns2 : f ≠ .dnsServer2)
    (start len : ℕ) (st : ℕ × Written) :
    storeOption frame f.code start len st =
      if f.size ≤ len then (readValue frame start len 0 f.size).map (f.put · st)
      else .ok st := by
  cases f with
  | dnsServer => contradiction
  | dnsServer2 => contradiction
  | _ => rfl

theorem storeOption_other {opt : ℕ} (h : ∀ f : Field, opt ≠ f.code) (start len : ℕ)
    (st : ℕ × Written) : storeOption frame opt start len st = .ok st := by
  have hmsg : opt ≠ optMsgType := h .msgType
  have hmask : opt ≠ optSubnetMask := h .subnetMask
  have hrouter : opt ≠ optRouter := h .gateway
  have hdns : opt ≠ optDnsServer := h .dnsServer
  have hlease : opt ≠ optLeaseTime := h .leaseTime
  have hid : opt ≠ optServerId := h .serverId
  simp only [storeOption, hmsg, hmask, hrouter, hdns, hlease, hid, if_false]

theorem storeOption_dns {start len v v2 : ℕ} (st : ℕ × Written)
    (hv : 4 ≤ len → readValue frame start len 0 4 = .ok v)
    (hv2 : 8 ≤ len → readValue frame start len 4 4 = .ok v2) :
    storeOption frame optDnsServer start len st =
      .ok (if 8 ≤ len then Field.dnsServer2.put v2 (Field.dnsServer.put v st)
        else if 4 ≤ len then Field.dnsServer.put v st else st) := by
  by_cases h4 : 4 ≤ len
  · by_cases h8 : 8 ≤ len
    · simp only [storeOption, optDnsServer, hv h4, hv2 h8, h4, h8]
      rfl
    · simp only [storeOption, optDnsServer, hv h4, h4, h8]
      rfl
  · have h8 : ¬8 ≤ len := by omega
    simp only [storeOption, optDnsServer, h4, h8]
    rfl

/-- The switch succeeds on an option that lies in the frame, gives every field the value that
the option has for it, and keeps the others. -/
theorem storeOption_spec (opt : ℕ) {start len : ℕ} (st : ℕ × Written)
    (h : start + len ≤ frame.length) :
    ∃ st', storeOption frame opt start len st = .ok st' ∧
      (∀ field : Field, field.get st' =
        (field.carriedBy (opt, (frame.drop start).take len)).getD (field.get st)) ∧
      st'.2.result.assignedIp = st.2.result.assignedIp := by
  have hlength : ((frame.drop start).take len).length = len := by
    simp
    omega
  have hread := fun off n (hn : off + n ≤ len) => readValue_ok h hn
  generalize (frame.drop start).take len = value at hlength hread ⊢
  by_cases hother : ∀ f : Field, opt ≠ f.code
  · refine ⟨st, storeOption_other hother start len st, fun field => ?_, rfl⟩
    rw [Field.carriedBy_of_ne (hother field), Option.getD_none]
  push Not at hother
  obtain ⟨f, rfl⟩ := hother
  by_cases hdns : f.code = optDnsServer
  · rw [hdns, storeOption_dns st (fun h4 => hread 0 4 (by omega)) fun h8 => hread 4 4 (by omega)]
    refine ⟨_, rfl, fun field => ?_, ?_⟩
    · have hcarried : ∀ n, field.offset + field.size = n → field.code = optDnsServer →
          field.carriedBy (optDnsServer, value) =
            if n ≤ len then some (natBE ((value.drop field.offset).take field.size)) else none := by
        intro n hn hcode
        rw [← hcode, Field.carriedBy_code, hlength, hn]
      cases field with
      | dnsServer =>
        rw [hcarried 4 rfl rfl]
        split_ifs
        all_goals first | rfl | omega
      | dnsServer2 =>
        rw [hcarried 8 rfl rfl]
        split_ifs <;> rfl
      | _ =>
        rw [Field.carriedBy_of_ne (by decide)]
        split_ifs <;> rfl
    · split_ifs <;> simp only [Field.assignedIp_put]
  · have hne : f ≠ .dnsServer := fun hf => hdns (by rw [hf]; rfl)
    have hne2 : f ≠ .dnsServer2 := fun hf => hdns (by rw [hf]; rfl)
    have hoffset : f.offset = 0 := Field.offset_of_ne hne2
    rw [storeOption_single hne hne2]
    split_ifs with hlen
    · rw [hread 0 f.size (by omega)]
      refine ⟨_, rfl, fun field => ?_, Field.assignedIp_put _ _ _⟩
      rw [Field.get_put]
      split_ifs with hfield
      · rw [hfield, Field.carriedBy_code, if_pos (by omega), hoffset, Option.getD_some]
      · rw [Field.carriedBy_of_ne fun hcode => hfield (Field.code_injective hdns hcode.symm),
          Option.getD_none]
    · refine ⟨st, rfl, fun field => ?_, rfl⟩
      by_cases hfield : field = f
      · rw [hfield, Field.carriedBy_code, if_neg (by omega), Option.getD_none]
      · rw [Field.carriedBy_of_ne fun hcode => hfield (Field.code_injective hdns hcode.symm),
          Option.getD_none]

theorem drop_eq_cons {i : ℕ} (h : i < frame.length) :
    frame.drop i = frame[i] :: frame.drop (i + 1) :=
  List.drop_eq_getElem_cons h

/-- The option loop ends in as many rounds as bytes are left, one more counted, and leaves every
field with the last value that an option has for it. -/
theorem optionLoop_spec {dhcp dhcpLen : ℕ} (hdhcp : dhcp + dhcpLen = frame.length)
    (hlen : dhcpLen < 2 ^ 31) (rounds optPos : ℕ) (st : ℕ × Written) (hpos : optPos ≤ dhcpLen)
    (hrounds : dhcpLen < optPos + rounds) :
    ∃ st', optionLoop frame dhcp dhcpLen rounds optPos st = .ok st' ∧
      (∀ field : Field, field.get st' =
        (lastWrite field.carriedBy (optionsOf rounds (frame.drop (dhcp + optPos)))).getD
          (field.get st)) ∧
      st'.2.result.assignedIp = st.2.result.assignedIp := by
  induction rounds generalizing optPos st with
  | zero => omega
  | succ rounds ih =>
    rw [optionLoop]
    by_cases hmore : optPos < dhcpLen
    · have hbyte : dhcp + optPos < frame.length := by omega
      rw [if_pos hmore, readNat_byte hbyte, drop_eq_cons hbyte]
      generalize frame[dhcp + optPos] = opt
      dsimp only [bind, Except.bind]
      by_cases hend : opt.toNat = optEnd
      · rw [if_pos hend, optionsOf_end hend]
        exact ⟨st, rfl, fun field => rfl, rfl⟩
      rw [if_neg hend]
      by_cases hpad : opt.toNat = 0
      · rw [if_pos hpad, optionsOf_pad hpad]
        exact ih (optPos + 1) st (by omega) (by omega)
      rw [if_neg hpad]
      by_cases hcut : optPos + 1 ≥ dhcpLen
      · rw [if_pos hcut, List.drop_eq_nil_of_le (by omega), optionsOf_cut]
        exact ⟨st, rfl, fun field => rfl, rfl⟩
      have hlenByte : dhcp + optPos + 1 < frame.length := by omega
      rw [if_neg hcut, ← add_assoc, readNat_byte hlenByte, drop_eq_cons hlenByte,
        optionsOf_cons hend hpad]
      have hoptLen : frame[dhcp + optPos + 1].toNat < 256 := UInt8.toNat_lt _
      generalize frame[dhcp + optPos + 1].toNat = optLen at hoptLen ⊢
      have hleft : (frame.drop (dhcp + optPos + 1 + 1)).length = dhcpLen - (optPos + 1 + 1) := by
        rw [List.length_drop]
        omega
      dsimp only
      rw [Nat.mod_eq_of_lt (by omega)]
      by_cases hshort : optPos + 1 + 1 + optLen > dhcpLen
      · have hcutValue : (frame.drop (dhcp + optPos + 1 + 1)).length < optLen := by omega
        rw [if_pos hshort, if_pos hcutValue]
        exact ⟨st, rfl, fun field => rfl, rfl⟩
      · have hwhole : ¬(frame.drop (dhcp + optPos + 1 + 1)).length < optLen := by omega
        rw [if_neg hshort, if_neg hwhole]
        have hvalue : dhcp + (optPos + 1 + 1) + optLen ≤ frame.length := by omega
        obtain ⟨st₁, hstore, hfields₁, hip₁⟩ := storeOption_spec opt.toNat st hvalue
        obtain ⟨st₂, hloop, hfields₂, hip₂⟩ :=
          ih (optPos + 1 + 1 + optLen) st₁ (by omega) (by omega)
        rw [hstore]
        refine ⟨st₂, hloop, fun field => ?_, hip₂.trans hip₁⟩
        rw [hfields₂, hfields₁, lastWrite_cons_getD, List.drop_drop]
        simp only [add_assoc]
    · rw [if_neg hmore, List.drop_eq_nil_of_le (by omega)]
      exact ⟨st, rfl, fun field => rfl, rfl⟩

/-- The checks find no reply, or a DHCP part that ends with the frame. -/
def Located (frame : Bytes) (r : Except Fault (Option (ℕ × ℕ))) : Prop :=
  r = .ok none ∨ ∃ dhcp dhcpLen, r = .ok (some (dhcp, dhcpLen)) ∧
    dhcp + dhcpLen = frame.length ∧ 240 ≤ dhcpLen

theorem Located.check {c : Prop} [Decidable c] {r : Except Fault (Option (ℕ × ℕ))}
    (h : ¬c → Located frame r) : Located frame (if c then .ok none else r) := by
  split_ifs with hc
  · exact Or.inl rfl
  · exact h hc

theorem Located.read {α : Type} {x : Except Fault α} {a : α}
    {next : α → Except Fault (Option (ℕ × ℕ))} (hx : x = .ok a) (h : Located frame (next a)) :
    Located frame (x >>= next) := by
  rw [hx]
  exact h

/-- The checks read inside the frame, and the DHCP part that they find ends with it. -/
theorem locateDhcp_spec (hlen : frame.length < 2 ^ 31) (expectedXid : ℕ) (clientMac : Bytes) :
    locateDhcp frame expectedXid clientMac = .ok none ∨
      ∃ dhcp dhcpLen, locateDhcp frame expectedXid clientMac = .ok (some (dhcp, dhcpLen)) ∧
        dhcp + dhcpLen = frame.length ∧ 240 ≤ dhcpLen := by
  change Located frame (locateDhcp frame expectedXid clientMac)
  have heth : ethHlen = 14 := rfl
  have hip : ipHlen = 20 := rfl
  have hudp : udpHlen = 8 := rfl
  have hmin : dhcpMinLen = 236 := rfl
  apply Located.check
  intro hshort
  apply Located.read (readNat_ok (by omega))
  apply Located.check
  intro _
  apply Located.read (readNat_byte (by omega))
  apply Located.check
  intro _
  apply Located.read (readNat_byte (by omega))
  apply Located.check
  intro _
  have hnibble := Nat.mod_lt frame[ethHlen].toNat (show 16 > 0 by norm_num)
  generalize frame[ethHlen].toNat % 16 = nibble at hnibble ⊢
  have hwrap : (frame.length + 2 ^ 32 - ethHlen - nibble * 4 - udpHlen) % 2 ^ 32 =
      frame.length - (ethHlen + nibble * 4 + udpHlen) := by
    omega
  dsimp only
  rw [hwrap]
  apply Located.read (readNat_ok (by omega))
  apply Located.read (readNat_ok (by omega))
  apply Located.check
  intro _
  apply Located.check
  intro hdhcp
  apply Located.read (readNat_byte (by omega))
  apply Located.check
  intro _
  apply Located.read (readNat_ok (by omega))
  apply Located.check
  intro _
  apply Located.read (readBytes_ok (by omega))
  apply Located.check
  intro _
  exact Or.inr ⟨_, _, rfl, by omega, by omega⟩

/-- The parser ends without a fault: it writes nothing for a frame that is no reply to this
client, and otherwise the address and the last value of every field that the options carry. -/
theorem parseDhcpResponse_spec (hlen : frame.length < 2 ^ 31) (expectedXid : ℕ) (clientMac : Bytes)
    (w : Written) :
    ∃ st, parseDhcpResponse frame expectedXid clientMac w = .ok st ∧
      (replyOf frame expectedXid clientMac = none → st = (0, w)) ∧
      ∀ r, replyOf frame expectedXid clientMac = some r →
        st.2.result.assignedIp = r.yiaddr ∧
        ∀ field : Field, field.get st = (r.carried field).getD (field.get (0, w)) := by
  rcases locateDhcp_spec hlen expectedXid clientMac with hnone | ⟨dhcp, dhcpLen, hsome, hend, hmin⟩
  · refine ⟨(0, w), ?_, fun _ => rfl, ?_⟩
    · rw [parseDhcpResponse, hnone]
      rfl
    · intro r hr
      rw [replyOf, hnone] at hr
      cases hr
  · rw [parseDhcpResponse, replyOf, hsome]
    dsimp only [bind, Except.bind]
    rw [readNat_ok (by omega), readNat_ok (by omega)]
    dsimp only
    by_cases hmagic : natBE ((frame.drop (dhcp + 236)).take 4) = dhcpMagicCookie
    · rw [if_neg (not_not.mpr hmagic), if_pos hmagic]
      obtain ⟨st, hloop, hfields, hip⟩ := optionLoop_spec hend (by omega) (frame.length + 1) 240
        (0, { w with result := { w.result with
          assignedIp := natBE ((frame.drop (dhcp + 16)).take 4) } }) hmin (by omega)
      refine ⟨st, hloop, nofun, fun r hr => ?_⟩
      cases hr
      refine ⟨hip, fun field => ?_⟩
      rw [hfields]
      cases field <;> rfl
    · rw [if_pos hmagic, if_neg hmagic]
      refine ⟨_, rfl, nofun, fun r hr => ?_⟩
      cases hr
      refine ⟨rfl, fun field => ?_⟩
      cases field <;> rfl

end Reading

/-- For every frame of at most 2048 bytes the parser ends, every byte it reads is one of the
frame, and every option's value is read inside the length that the option declares. -/
theorem parseDhcpResponse_inside (frame : Bytes) (h : frame.length ≤ 2048) (expectedXid : ℕ)
    (clientMac : Bytes) (w : Written) :
    ∃ st, parseDhcpResponse frame expectedXid clientMac w = .ok st := by
  have hlen : frame.length < 2 ^ 31 := by omega
  obtain ⟨st, hst, -⟩ := parseDhcpResponse_spec hlen expectedXid clientMac w
  exact ⟨st, hst⟩

/-- A reply as a server sends it. -/
def replyFrame (xid yiaddr : ℕ) (mac options : Bytes) : Bytes :=
  List.replicate 12 0 ++ bytesBE 2 ethPIp ++ [0x45] ++ List.replicate 8 0 ++
    [UInt8.ofNat ipProtoUdp] ++ List.replicate 10 0 ++ bytesBE 2 67 ++ bytesBE 2 68 ++
    List.replicate 4 0 ++ [UInt8.ofNat dhcpBootreply, 1, 6, 0] ++ bytesBE 4 xid ++
    List.replicate 8 0 ++ bytesBE 4 yiaddr ++ List.replicate 8 0 ++ mac ++ List.replicate 202 0 ++
    bytesBE 4 dhcpMagicCookie ++ options

/-- An ACK whose subnet mask is cut off by the end of the frame. -/
theorem parseDhcpResponse_inside_cutMask :
    (replyFrame 7 1 [2, 0, 0, 0, 0, 1] [53, 1, 5, 1, 4, 255]).length ≤ 2048 ∧
      ∃ st, parseDhcpResponse (replyFrame 7 1 [2, 0, 0, 0, 0, 1] [53, 1, 5, 1, 4, 255]) 7
        [2, 0, 0, 0, 0, 1] ⟨⟨0, 0, 0, 0, 0, 0⟩, 0⟩ = .ok st :=
  ⟨by decide +kernel, parseDhcpResponse_inside _ (by decide +kernel) _ _ _⟩

end SoftEtherVpn.Dhcp
