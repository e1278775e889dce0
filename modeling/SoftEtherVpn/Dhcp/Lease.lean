import SoftEtherVpn.Dhcp.Exchange

/-!
# Where a lease comes from

The result and the server identifier are written by every reply to this client, over all waits
and retries. After a successful exchange each field holds the last value that any of
these replies carried, so the lease is the ACK's as far as the ACK carries it, and what
earlier replies left otherwise.
-/

namespace SoftEtherVpn.Dhcp

open Foundation

/-- The exchanges that end with an ACK, wait by wait. -/
inductive Leases (xid : ℕ) (mac : Bytes) :
    List Sends → Written → Option Request → List Delivery → Outcome → Prop
  | acked {s sends w request ds w₁ ds₁ w₂ ds₂} (hdiscover : s.discover = true)
      (hoffer : Waits xid mac dhcpTimeoutMs ds 0 w ((dhcpOffer : ℤ), w₁, ds₁))
      (hrequest : s.request = true)
      (hack : Waits xid mac dhcpTimeoutMs ds₁ 0 w₁ ((dhcpAck : ℤ), w₂, ds₂)) :
      Leases xid mac (s :: sends) w request ds ⟨0, w₂, some (buildRequest w₁), ds₂⟩
  | noOffer {s sends w request ds msgType w₁ ds₁ out} (hdiscover : s.discover = true)
      (hwait : Waits xid mac dhcpTimeoutMs ds 0 w (msgType, w₁, ds₁)) (hnonneg : ¬msgType < 0)
      (htype : msgType ≠ dhcpOffer) (hnext : Leases xid mac sends w₁ request ds₁ out) :
      Leases xid mac (s :: sends) w request ds out
  | noAck {s sends w request ds w₁ ds₁ msgType w₂ ds₂ out} (hdiscover : s.discover = true)
      (hoffer : Waits xid mac dhcpTimeoutMs ds 0 w ((dhcpOffer : ℤ), w₁, ds₁))
      (hrequest : s.request = true)
      (hwait : Waits xid mac dhcpTimeoutMs ds₁ 0 w₁ (msgType, w₂, ds₂)) (hnonneg : ¬msgType < 0)
      (hack : msgType ≠ dhcpAck) (hnak : msgType ≠ dhcpNak)
      (hnext : Leases xid mac sends w₂ (some (buildRequest w₁)) ds₂ out) :
      Leases xid mac (s :: sends) w request ds out

section Runs

variable {xid : ℕ} {mac : Bytes}

theorem dhcpRetries_leases {sends : List Sends} {w : Written} {request : Option Request}
    {ds : List Delivery} {out : Outcome} (h : dhcpRetries xid mac sends w request ds = some out)
    (hcode : out.code = 0) : Leases xid mac sends w request ds out := by
  induction sends generalizing w request ds with
  | nil =>
    cases h
    cases hcode
  | cons s sends ih =>
    by_cases hdiscover : s.discover = true
    swap
    · simp only [dhcpRetries, hdiscover] at h
      cases h
      cases hcode
    cases hwait : waitDhcpResponse xid mac dhcpTimeoutMs ds w with
    | none => simp [dhcpRetries, hdiscover, hwait] at h
    | some first =>
      obtain ⟨msgType, w₁, ds₁⟩ := first
      by_cases hoffer : msgType = dhcpOffer
      swap
      · rw [dhcpRetries_noOffer hdiscover hwait hoffer] at h
        split_ifs at h with hfailed
        · cases h
          cases hcode
        · exact .noOffer hdiscover (waitLoop_waits hwait) hfailed hoffer (ih h)
      rw [hoffer] at hwait
      by_cases hrequest : s.request = true
      swap
      · rw [dhcpRetries_noRequest hdiscover (by simpa using hrequest) hwait] at h
        cases h
        cases hcode
      cases hanswer : waitDhcpResponse xid mac dhcpTimeoutMs ds₁ w₁ with
      | none => simp [dhcpRetries, hdiscover, hrequest, hwait, hanswer, dhcpOffer] at h
      | some second =>
        obtain ⟨answer, w₂, ds₂⟩ := second
        rw [dhcpRetries_request hdiscover hrequest hwait hanswer] at h
        have hoffered := waitLoop_waits hwait
        have hanswered := waitLoop_waits hanswer
        split_ifs at h with hfailed hack hnak
        · cases h
          cases hcode
        · cases h
          exact .acked hdiscover hoffered hrequest (hack ▸ hanswered)
        · cases h
          cases hcode
        · exact .noAck hdiscover hoffered hrequest hanswered hfailed hack hnak (ih h)

theorem Leases.dhcpRetries_eq {sends : List Sends} {w : Written} {request : Option Request}
    {ds : List Delivery} {out : Outcome} (h : Leases xid mac sends w request ds out) :
    dhcpRetries xid mac sends w request ds = some out ∧ out.code = 0 := by
  induction h with
  | acked hdiscover hoffer hrequest hack =>
    rw [dhcpRetries_request hdiscover hrequest hoffer.waitLoop_eq hack.waitLoop_eq]
    exact ⟨rfl, rfl⟩
  | noOffer hdiscover hwait hnonneg htype hnext ih =>
    rw [dhcpRetries_noOffer hdiscover hwait.waitLoop_eq htype, if_neg hnonneg]
    exact ih
  | noAck hdiscover hoffer hrequest hwait hnonneg hack hnak hnext ih =>
    rw [dhcpRetries_request hdiscover hrequest hoffer.waitLoop_eq hwait.waitLoop_eq,
      if_neg hnonneg, if_neg hack, if_neg hnak]
    exact ih

/-- A successful exchange takes deliveries up to an OFFER, sends the REQUEST after them, and goes
on to an ACK with nothing in between that ends a wait. -/
theorem Leases.used {sends : List Sends} {w : Written} {request : Option Request}
    {ds : List Delivery} {out : Outcome} (h : Leases xid mac sends w request ds out) :
    ∃ (before : List Delivery) (offer : Frame) (since : List Delivery) (ack : Frame),
      ds = before ++ Delivery.frame offer :: since ++ Delivery.frame ack :: out.rest ∧
      offer.msgType xid mac = dhcpOffer ∧ ack.msgType xid mac = dhcpAck ∧
      (∀ d ∈ since, d.ends xid mac = false) ∧
      out.request = some (buildRequest ((before ++ [Delivery.frame offer]).foldl (absorb xid mac) w)) ∧
      out.written =
        (before ++ Delivery.frame offer :: since ++ [Delivery.frame ack]).foldl (absorb xid mac) w := by
  have hoffer : (dhcpOffer : ℤ) > 0 := by decide
  have hack : (dhcpAck : ℤ) > 0 := by decide
  induction h with
  | acked hdiscover hoffered hrequest hacked =>
    obtain ⟨offered, hds, hw, hlast⟩ := hoffered.used
    obtain ⟨before, offer, rfl, hofferType, -⟩ := hlast hoffer
    obtain ⟨answered, hds₁, hw₁, hlast₁⟩ := hacked.used
    obtain ⟨since, ack, rfl, hackType, hpassed⟩ := hlast₁ hack
    dsimp only at hds hw hds₁ hw₁ hofferType hackType
    refine ⟨before, offer, since, ack, ?_, by exact_mod_cast hofferType.symm,
      by exact_mod_cast hackType.symm, hpassed, by dsimp only; rw [hw], ?_⟩
    · rw [hds, hds₁]
      simp
    · rw [hw₁, hw, ← List.foldl_append]
      simp
  | noOffer hdiscover hwait hnonneg htype hnext ih =>
    obtain ⟨earlier, hds, hw, -⟩ := hwait.used
    obtain ⟨before, offer, since, ack, hds₁, hofferType, hackType, hpassed, hreq, hwritten⟩ := ih
    dsimp only at hds hw
    refine ⟨earlier ++ before, offer, since, ack, ?_, hofferType, hackType, hpassed, ?_, ?_⟩
    · rw [hds, hds₁]
      simp
    · rw [hreq, hw, ← List.foldl_append]
      simp
    · rw [hwritten, hw, ← List.foldl_append]
      simp
  | noAck hdiscover hoffered hrequest hwait hnonneg hnotAck hnotNak hnext ih =>
    obtain ⟨earlier, hds, hw, -⟩ := hoffered.used
    obtain ⟨between, hds₁, hw₁, -⟩ := hwait.used
    obtain ⟨before, offer, since, ack, hds₂, hofferType, hackType, hpassed, hreq, hwritten⟩ := ih
    dsimp only at hds hw hds₁ hw₁
    refine ⟨earlier ++ between ++ before, offer, since, ack, ?_, hofferType, hackType, hpassed, ?_,
      ?_⟩
    · rw [hds, hds₁, hds₂]
      simp
    · rw [hreq, hw₁, hw, ← List.foldl_append, ← List.foldl_append]
      simp
    · rw [hwritten, hw₁, hw, ← List.foldl_append, ← List.foldl_append]
      simp

end Runs

namespace Delivery

variable (xid : ℕ) (mac : Bytes)

def carried (field : Field) : Delivery → Option ℕ
  | .frame f => f.carried xid mac field
  | _ => none

def yiaddr : Delivery → Option ℕ
  | .frame f => f.yiaddr xid mac
  | _ => none

end Delivery

def leaseFields : List Field := [.subnetMask, .gateway, .dnsServer, .dnsServer2, .leaseTime]

/-- The lease that a frame carries, 0 where it has no such option. -/
def Frame.lease (xid : ℕ) (mac : Bytes) (f : Frame) : DhcpResult where
  assignedIp := (f.yiaddr xid mac).getD 0
  subnetMask := (f.carried xid mac .subnetMask).getD 0
  gateway := (f.carried xid mac .gateway).getD 0
  dnsServer := (f.carried xid mac .dnsServer).getD 0
  dnsServer2 := (f.carried xid mac .dnsServer2).getD 0
  leaseTime := (f.carried xid mac .leaseTime).getD 0

/-- What the deliveries leave in a field that was 0. -/
def residue (xid : ℕ) (mac : Bytes) (ds : List Delivery) (field : Field) : ℕ :=
  (lastWrite (Delivery.carried xid mac field) ds).getD 0

/-- The lease is the ACK's, and its server is the one that the REQUEST named. -/
structure FromAck (xid : ℕ) (mac : Bytes) (ack : Frame) (out : Outcome) : Prop where
  lease : out.written.result = ack.lease xid mac
  server : ∀ id, ack.carried xid mac .serverId = some id →
    ∃ request, out.request = some request ∧ request.serverId = some id

section Fields

variable {xid : ℕ} {mac : Bytes}

theorem get_absorb {field : Field} (hfield : field ≠ .msgType) (w : Written) (d : Delivery) :
    field.get (0, absorb xid mac w d) =
      (d.carried xid mac field).getD (field.get (0, w)) := by
  cases d with
  | failed => rfl
  | idle => rfl
  | frame f =>
    have hparse : field.get (f.parse xid mac w) = _ := f.get_parse w field
    cases field with
    | msgType => contradiction
    | _ => exact hparse

theorem get_foldl_absorb {field : Field} (hfield : field ≠ .msgType) (ds : List Delivery) :
    field.get (0, ds.foldl (absorb xid mac) cleared) = residue xid mac ds field := by
  have hfold : field.get (0, ds.foldl (absorb xid mac) cleared) = _ :=
    foldl_lastWrite (fun w => field.get (0, w)) (get_absorb hfield) ds cleared
  cases field with
  | msgType => contradiction
  | _ => exact hfold

theorem assignedIp_absorb (w : Written) (d : Delivery) :
    (absorb xid mac w d).result.assignedIp =
      (d.yiaddr xid mac).getD w.result.assignedIp := by
  cases d with
  | failed => rfl
  | idle => rfl
  | frame f => exact f.assignedIp_parse w

theorem residue_concat (ds : List Delivery) (f : Frame) (field : Field) :
    residue xid mac (ds ++ [.frame f]) field =
      (f.carried xid mac field).getD (residue xid mac ds field) := by
  rw [residue, lastWrite_concat, Option.getD_or]
  rfl

/-- A typed reply carries an address. -/
theorem Frame.yiaddr_of_msgType {f : Frame} (h : f.msgType xid mac ≠ 0) :
    ∃ ip, f.yiaddr xid mac = some ip := by
  rw [Frame.msgType, Frame.carried] at h
  rw [Frame.yiaddr]
  cases hreply : replyOf f.1 xid mac with
  | none => simp [hreply] at h
  | some r => exact ⟨r.yiaddr, rfl⟩

/-- A successful exchange leaves the ACK's address, and in every field the ACK's value or what the
deliveries before the ACK left there. -/
theorem result_eq {before : List Delivery} {ack : Frame} {w : Written}
    (hack : ack.msgType xid mac ≠ 0)
    (hw : w = (before ++ [Delivery.frame ack]).foldl (absorb xid mac) cleared) :
    w.result.assignedIp = (ack.yiaddr xid mac).getD 0 ∧
      ∀ field ≠ Field.msgType, field.get (0, w) =
        (ack.carried xid mac field).getD (residue xid mac before field) := by
  refine ⟨?_, fun field hfield => ?_⟩
  · obtain ⟨ip, hip⟩ := Frame.yiaddr_of_msgType hack
    rw [hw, List.foldl_append, List.foldl_cons, List.foldl_nil, assignedIp_absorb, Delivery.yiaddr,
      hip]
    rfl
  · rw [hw, get_foldl_absorb hfield, residue_concat]

/-- The result is a frame's lease exactly when no field that the frame lacks holds anything. -/
theorem result_eq_lease_iff {w : Written} {ack : Frame} {left : Field → ℕ}
    (hip : w.result.assignedIp = (ack.yiaddr xid mac).getD 0)
    (hfields : ∀ field ≠ Field.msgType,
      field.get (0, w) = (ack.carried xid mac field).getD (left field)) :
    w.result = ack.lease xid mac ↔
      ∀ field ∈ leaseFields, ack.carried xid mac field = none → left field = 0 := by
  have hmask : w.result.subnetMask = _ := hfields .subnetMask (by decide)
  have hgateway : w.result.gateway = _ := hfields .gateway (by decide)
  have hdns : w.result.dnsServer = _ := hfields .dnsServer (by decide)
  have hdns2 : w.result.dnsServer2 = _ := hfields .dnsServer2 (by decide)
  have hlease : w.result.leaseTime = _ := hfields .leaseTime (by decide)
  have hone : ∀ field, (ack.carried xid mac field).getD (left field) =
      (ack.carried xid mac field).getD 0 ↔ (ack.carried xid mac field = none → left field = 0) := by
    intro field
    cases ack.carried xid mac field <;> simp
  rw [DhcpResult.ext_iff]
  simp only [hip, hmask, hgateway, hdns, hdns2, hlease, Frame.lease, hone, leaseFields,
    List.forall_mem_cons, true_and, List.not_mem_nil, false_imp_iff, implies_true, and_true]

end Fields

theorem buildRequest_serverId (w : Written) (id : ℕ) :
    (buildRequest w).serverId = some id ↔ id ≠ 0 ∧ w.serverId = id := by
  rw [buildRequest]
  dsimp only
  split_ifs with hzero
  · simp only [Option.some.injEq]
    constructor
    · rintro rfl
      exact ⟨hzero, rfl⟩
    · exact fun h => h.2
  · simp only [false_iff, not_and]
    rintro hid rfl
    exact hzero hid

/-- Nothing of the replies before the ACK shows through: a field that the ACK lacks was left at 0,
and a server that the ACK names was the last one named up to the OFFER. -/
structure NoResidue (xid : ℕ) (mac : Bytes) (before : List Delivery) (offer : Frame)
    (since : List Delivery) (ack : Frame) : Prop where
  fields : ∀ field ∈ leaseFields, ack.carried xid mac field = none →
    residue xid mac (before ++ .frame offer :: since) field = 0
  server : ∀ id, ack.carried xid mac .serverId = some id →
    id ≠ 0 ∧ residue xid mac (before ++ [.frame offer]) .serverId = id

/-- Every successful exchange ends with an OFFER, passes that end no wait, and an ACK; its lease is
that of the ACK from the named server exactly when nothing of the earlier replies shows
through. -/
theorem softetherDoDhcp_fromAck_iff {xid : ℕ} {mac : Bytes} {connected : Bool} {old : DhcpResult}
    {sends : Fin dhcpMaxRetries → Sends} {ds : List Delivery} {out : Outcome}
    (h : softetherDoDhcp xid mac connected old sends ds = some out) (hcode : out.code = 0) :
    ∃ (before : List Delivery) (offer : Frame) (since : List Delivery) (ack : Frame),
      ds = before ++ .frame offer :: since ++ .frame ack :: out.rest ∧
      offer.msgType xid mac = dhcpOffer ∧ ack.msgType xid mac = dhcpAck ∧
      (∀ d ∈ since, d.ends xid mac = false) ∧
      (FromAck xid mac ack out ↔ NoResidue xid mac before offer since ack) := by
  unfold softetherDoDhcp at h
  split_ifs at h
  swap
  · cases h
    cases hcode
  obtain ⟨before, offer, since, ack, hds, hoffer, hack, hpassed, hreq, hwritten⟩ :=
    (dhcpRetries_leases h hcode).used
  refine ⟨before, offer, since, ack, hds, hoffer, hack, hpassed, ?_⟩
  obtain ⟨hip, hfields⟩ := result_eq (by rw [hack]; decide) hwritten
  have hlease := result_eq_lease_iff hip hfields
  have hserver : Field.serverId.get
      (0, (before ++ [Delivery.frame offer]).foldl (absorb xid mac) cleared) = _ :=
    get_foldl_absorb (by decide) _
  have hnamed : ∀ id, (∃ request, out.request = some request ∧ request.serverId = some id) ↔
      id ≠ 0 ∧ residue xid mac (before ++ [.frame offer]) .serverId = id := by
    intro id
    rw [hreq, ← hserver]
    simp only [Option.some.injEq, exists_eq_left', buildRequest_serverId]
    rfl
  constructor
  · rintro ⟨hresult, hid⟩
    exact ⟨hlease.mp hresult, fun id hcarried => (hnamed id).mp (hid id hcarried)⟩
  · rintro ⟨hresult, hid⟩
    exact ⟨hlease.mpr hresult, fun id hcarried => (hnamed id).mpr (hid id hcarried)⟩

/-- A reply of server 9 to the client 02:00:00:00:00:01 with the transaction id 7. -/
def serverReply (msgType : UInt8) (options : Bytes) : Bytes :=
  replyFrame 7 0x0A000002 [2, 0, 0, 0, 0, 1] ([53, 1, msgType, 54, 4, 0, 0, 0, 9] ++ options)

def offerFrame : Frame := ⟨serverReply 2 [1, 4, 255, 255, 255, 0, 255], by decide +kernel⟩

def ackFrame : Frame := ⟨serverReply 5 [255], by decide +kernel⟩

def maskedAckFrame : Frame := ⟨serverReply 5 [1, 4, 255, 255, 255, 0, 255], by decide +kernel⟩

def maskedOutcome : Outcome :=
  ⟨0, ⟨⟨0x0A000002, 0xFFFFFF00, 0, 0, 0, 0⟩, 9⟩, some ⟨some 0x0A000002, some 9⟩, []⟩

theorem maskedRun :
    softetherDoDhcp 7 [2, 0, 0, 0, 0, 1] true cleared.result (fun _ => ⟨true, true⟩)
      [.frame offerFrame, .frame maskedAckFrame] = some maskedOutcome := by
  decide +kernel

theorem softetherDoDhcp_fromAck_masked :
    softetherDoDhcp 7 [2, 0, 0, 0, 0, 1] true cleared.result (fun _ => ⟨true, true⟩)
        [.frame offerFrame, .frame maskedAckFrame] = some maskedOutcome ∧
      maskedOutcome.code = 0 ∧ ∃ before offer since ack,
        [.frame offerFrame, .frame maskedAckFrame] =
          before ++ .frame offer :: since ++ [.frame ack] ∧
        (FromAck 7 [2, 0, 0, 0, 0, 1] ack maskedOutcome ↔
          NoResidue 7 [2, 0, 0, 0, 0, 1] before offer since ack) := by
  refine ⟨maskedRun, rfl, ?_⟩
  obtain ⟨before, offer, since, ack, hds, -, -, -, hiff⟩ :=
    softetherDoDhcp_fromAck_iff maskedRun rfl
  exact ⟨before, offer, since, ack, hds, hiff⟩

/-- The OFFER has a subnet mask and the ACK of the same server none: the lease gets the OFFER's. -/
theorem softetherDoDhcp_offerMask :
    ∃ out, softetherDoDhcp 7 [2, 0, 0, 0, 0, 1] true cleared.result (fun _ => ⟨true, true⟩)
        [.frame offerFrame, .frame ackFrame] = some out ∧ out.code = 0 ∧
      ackFrame.carried 7 [2, 0, 0, 0, 0, 1] .subnetMask = none ∧
      out.written.result.subnetMask = 0xFFFFFF00 := by
  refine ⟨maskedOutcome, ?_⟩
  decide +kernel

end SoftEtherVpn.Dhcp
