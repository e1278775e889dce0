import SoftEtherVpn.Dhcp.Parser

/-!
# The DHCP exchange

`softether_do_dhcp` with its two waits per retry. A pass of the wait loop polls when the receive
queue is empty and then takes one frame through `softether_receive_raw`; it ends with a failure,
without a frame, or with a frame for the parser. All retries share one result and one server
identifier, which are cleared only at the start. A run is given by what the passes
deliver; it may use them up while it still waits.
-/

namespace SoftEtherVpn.Dhcp

open Foundation

def maxQueuedFrame : ℕ := 2048
def pollInterval : ℕ := 100
def dhcpTimeoutMs : ℕ := 5000
def dhcpMaxRetries : ℕ := 3

/-- An entry of the receive queue. -/
abbrev Frame := { f : Bytes // f.length ≤ maxQueuedFrame }

inductive Delivery
  | failed
  | idle
  | frame (f : Frame)
  deriving DecidableEq

/-- What a call of `softether_fill_recv_queue` does to an empty queue. -/
inductive Fill
  | failed
  | queued (frames : List Frame)

/-- What one pass of the wait loop finds: the connection's state, its descriptors, and the
results of `poll` and of a read. -/
structure Pass where
  connected : Bool
  socketOpen : Bool
  nfds : ℕ
  pollResult : ℤ
  fill : Fill

/-- The frame that leaves the queue; an empty one counts as no frame. -/
def received (f : Frame) : Delivery := if f.1.length = 0 then .idle else .frame f

def softetherReceiveRaw (p : Pass) : List Frame → Delivery × List Frame
  | f :: queue => if p.connected then (received f, queue) else (.failed, f :: queue)
  | [] =>
    if p.connected then
      match p.fill with
      | .failed => (.failed, [])
      | .queued [] => (.idle, [])
      | .queued (f :: queue) => (received f, queue)
    else (.failed, [])

/-- A pass of the wait loop up to the call of the parser. -/
def waitPass (queue : List Frame) (p : Pass) : Delivery × List Frame :=
  if queue = [] ∧ p.socketOpen then
    if p.nfds = 0 then (.idle, queue)
    else if p.pollResult < 0 then (.failed, queue)
    else if p.pollResult = 0 then (.idle, queue)
    else softetherReceiveRaw p queue
  else softetherReceiveRaw p queue

def deliveries : List Frame → List Pass → List Delivery
  | _, [] => []
  | queue, p :: passes => (waitPass queue p).1 :: deliveries (waitPass queue p).2 passes

section Exchange

variable (xid : ℕ) (mac : Bytes)

/-- The parser on a frame of the queue, where it never faults. -/
def Frame.parse (f : Frame) (w : Written) : ℕ × Written :=
  match h : parseDhcpResponse f.1 xid mac w with
  | .ok st => st
  | .error _ => absurd h (by
      obtain ⟨st, hst, -⟩ := parseDhcpResponse_spec (f.2.trans_lt (by decide)) xid mac w
      simp [hst])

/-- `wait_dhcp_response` from `elapsed` on: the message type, what is written, and the deliveries
that are left. -/
def waitLoop (timeoutMs : ℕ) :
    List Delivery → ℕ → Written → Option (ℤ × Written × List Delivery)
  | [], elapsed, w => if elapsed < timeoutMs then none else some (0, w, [])
  | d :: ds, elapsed, w =>
    if elapsed < timeoutMs then
      match d with
      | .failed => some (-1, w, ds)
      | .idle => waitLoop timeoutMs ds (elapsed + pollInterval) w
      | .frame f =>
        let (msgType, w) := f.parse xid mac w
        if msgType > 0 then some (msgType, w, ds) else waitLoop timeoutMs ds elapsed w
    else some (0, w, d :: ds)

def waitDhcpResponse (timeoutMs : ℕ) (ds : List Delivery) (w : Written) :
    Option (ℤ × Written × List Delivery) :=
  waitLoop xid mac timeoutMs ds 0 w

/-- The options of a REQUEST; an address 0 is left out. -/
structure Request where
  requestedIp : Option ℕ
  serverId : Option ℕ
  deriving DecidableEq

def buildRequest (w : Written) : Request where
  requestedIp := if w.result.assignedIp ≠ 0 then some w.result.assignedIp else none
  serverId := if w.serverId ≠ 0 then some w.serverId else none

/-- Whether the two frames of a retry can be sent. -/
structure Sends where
  discover : Bool
  request : Bool

/-- How the exchange ends: the return value, what is written, the last REQUEST, and the
deliveries that are left. -/
structure Outcome where
  code : ℤ
  written : Written
  request : Option Request
  rest : List Delivery
  deriving DecidableEq

def dhcpRetries : List Sends → Written → Option Request → List Delivery → Option Outcome
  | [], w, request, ds => some ⟨-1, w, request, ds⟩
  | s :: sends, w, request, ds =>
    if s.discover then do
      let (msgType, w, ds) ← waitDhcpResponse xid mac dhcpTimeoutMs ds w
      if msgType < 0 then some ⟨-1, w, request, ds⟩
      else if msgType ≠ dhcpOffer then dhcpRetries sends w request ds
      else
        let request := some (buildRequest w)
        if s.request then
          let (msgType, w, ds) ← waitDhcpResponse xid mac dhcpTimeoutMs ds w
          if msgType < 0 then some ⟨-1, w, request, ds⟩
          else if msgType = dhcpAck then some ⟨0, w, request, ds⟩
          else if msgType = dhcpNak then some ⟨-1, w, request, ds⟩
          else dhcpRetries sends w request ds
        else some ⟨-1, w, request, ds⟩
    else some ⟨-1, w, request, ds⟩

def cleared : Written := ⟨⟨0, 0, 0, 0, 0, 0⟩, 0⟩

/-- `softether_do_dhcp`; `old` is what the caller's result holds. -/
def softetherDoDhcp (connected : Bool) (old : DhcpResult) (sends : Fin dhcpMaxRetries → Sends)
    (ds : List Delivery) : Option Outcome :=
  if connected then dhcpRetries xid mac (List.ofFn sends) cleared none ds
  else some ⟨-1, ⟨old, 0⟩, none, ds⟩

end Exchange

namespace Frame

variable (xid : ℕ) (mac : Bytes)

/-- The value that a frame carries for the field, as a reply to this client. -/
def carried (field : Field) (f : Frame) : Option ℕ :=
  (replyOf f.1 xid mac).bind fun r => r.carried field

def yiaddr (f : Frame) : Option ℕ := (replyOf f.1 xid mac).map Reply.yiaddr

/-- 0 for a frame that the wait passes over. -/
def msgType (f : Frame) : ℕ := (f.carried xid mac .msgType).getD 0

variable {xid mac}

theorem parse_eq (f : Frame) (w : Written) :
    parseDhcpResponse f.1 xid mac w = .ok (f.parse xid mac w) := by
  unfold Frame.parse
  split
  · assumption
  · rename_i herror
    obtain ⟨st, hst, -⟩ := parseDhcpResponse_spec (f.2.trans_lt (by decide)) xid mac w
    rw [hst] at herror
    cases herror

/-- What the parser gives a field, the message type included, which it starts at 0. -/
theorem get_parse (f : Frame) (w : Written) (field : Field) :
    field.get (f.parse xid mac w) = (f.carried xid mac field).getD (field.get (0, w)) := by
  obtain ⟨st, hst, hnone, hsome⟩ := parseDhcpResponse_spec (f.2.trans_lt (by decide)) xid mac w
  rw [parse_eq, Except.ok.injEq] at hst
  rw [hst, carried]
  cases hreply : replyOf f.1 xid mac with
  | none =>
    rw [hnone hreply]
    rfl
  | some r => exact (hsome r hreply).2 field

theorem assignedIp_parse (f : Frame) (w : Written) :
    (f.parse xid mac w).2.result.assignedIp =
      (f.yiaddr xid mac).getD w.result.assignedIp := by
  obtain ⟨st, hst, hnone, hsome⟩ := parseDhcpResponse_spec (f.2.trans_lt (by decide)) xid mac w
  rw [parse_eq, Except.ok.injEq] at hst
  rw [hst, yiaddr]
  cases hreply : replyOf f.1 xid mac with
  | none =>
    rw [hnone hreply]
    rfl
  | some r => exact (hsome r hreply).1

/-- The message type does not depend on what was written before. -/
theorem parse_fst (f : Frame) (w : Written) : (f.parse xid mac w).1 = f.msgType xid mac :=
  f.get_parse w .msgType

end Frame

/-- What a delivery leaves written. -/
def absorb (xid : ℕ) (mac : Bytes) (w : Written) : Delivery → Written
  | .frame f => (f.parse xid mac w).2
  | _ => w

/-- Whether a pass with this delivery ends the wait, whatever time has passed. -/
def Delivery.ends (xid : ℕ) (mac : Bytes) : Delivery → Bool
  | .failed => true
  | .idle => false
  | .frame f => f.msgType xid mac > 0

section Wait

variable {xid : ℕ} {mac : Bytes} {timeoutMs : ℕ}

theorem waitLoop_frame (f : Frame) (ds : List Delivery) {elapsed : ℕ} (h : elapsed < timeoutMs)
    (w : Written) :
    waitLoop xid mac timeoutMs (.frame f :: ds) elapsed w =
      if f.msgType xid mac > 0 then
        some ((f.msgType xid mac : ℤ), (f.parse xid mac w).2, ds)
      else waitLoop xid mac timeoutMs ds elapsed (f.parse xid mac w).2 := by
  simp only [waitLoop, h, if_true, Frame.parse_fst]

theorem waitLoop_timeout (ds : List Delivery) {elapsed : ℕ} (h : ¬elapsed < timeoutMs)
    (w : Written) : waitLoop xid mac timeoutMs ds elapsed w = some (0, w, ds) := by
  cases ds <;> simp only [waitLoop, h, if_false]

/-- The wait goes on exactly as long as no delivery ends it and the passes without a frame do
not add up to the timeout. -/
theorem waitLoop_eq_none_iff (ds : List Delivery) (elapsed : ℕ) (w : Written) :
    waitLoop xid mac timeoutMs ds elapsed w = none ↔
      (∀ d ∈ ds, d.ends xid mac = false) ∧
        elapsed + pollInterval * ds.count .idle < timeoutMs := by
  induction ds generalizing elapsed w with
  | nil => simp [waitLoop]
  | cons d ds ih =>
    by_cases helapsed : elapsed < timeoutMs
    · cases d with
      | failed => simp [waitLoop, helapsed, Delivery.ends]
      | idle =>
        rw [waitLoop, if_pos helapsed, ih, List.count_cons_self, List.forall_mem_cons]
        simp only [Delivery.ends, true_and, mul_add, mul_one]
        rw [add_assoc, add_comm pollInterval]
      | frame f =>
        rw [waitLoop_frame f ds helapsed, List.count_cons_of_ne (by simp), List.forall_mem_cons]
        by_cases htype : f.msgType xid mac > 0
        · simp [Delivery.ends, htype]
        · rw [if_neg htype, ih]
          simp [Delivery.ends, htype]
    · rw [waitLoop_timeout _ helapsed]
      simp only [reduceCtorEq, false_iff, not_and]
      intro _
      omega

end Wait

/-- The waits that return, pass by pass. -/
inductive Waits (xid : ℕ) (mac : Bytes) (timeoutMs : ℕ) :
    List Delivery → ℕ → Written → ℤ × Written × List Delivery → Prop
  | timeout {ds elapsed w} (h : ¬elapsed < timeoutMs) :
      Waits xid mac timeoutMs ds elapsed w (0, w, ds)
  | failed {ds elapsed w} (h : elapsed < timeoutMs) :
      Waits xid mac timeoutMs (.failed :: ds) elapsed w (-1, w, ds)
  | idle {ds elapsed w out} (h : elapsed < timeoutMs)
      (hwait : Waits xid mac timeoutMs ds (elapsed + pollInterval) w out) :
      Waits xid mac timeoutMs (.idle :: ds) elapsed w out
  | typed {ds elapsed w} {f : Frame} (h : elapsed < timeoutMs) (htype : f.msgType xid mac > 0) :
      Waits xid mac timeoutMs (.frame f :: ds) elapsed w
        ((f.msgType xid mac : ℤ), (f.parse xid mac w).2, ds)
  | passed {ds elapsed w out} {f : Frame} (h : elapsed < timeoutMs)
      (htype : f.msgType xid mac = 0)
      (hwait : Waits xid mac timeoutMs ds elapsed (f.parse xid mac w).2 out) :
      Waits xid mac timeoutMs (.frame f :: ds) elapsed w out

section Wait

variable {xid : ℕ} {mac : Bytes} {timeoutMs : ℕ}

theorem waitLoop_waits {ds : List Delivery} {elapsed : ℕ} {w : Written}
    {out : ℤ × Written × List Delivery}
    (h : waitLoop xid mac timeoutMs ds elapsed w = some out) :
    Waits xid mac timeoutMs ds elapsed w out := by
  induction ds generalizing elapsed w with
  | nil =>
    rw [waitLoop] at h
    split_ifs at h with helapsed
    cases h
    exact .timeout helapsed
  | cons d ds ih =>
    by_cases helapsed : elapsed < timeoutMs
    · cases d with
      | failed =>
        rw [waitLoop, if_pos helapsed] at h
        cases h
        exact .failed helapsed
      | idle =>
        rw [waitLoop, if_pos helapsed] at h
        exact .idle helapsed (ih h)
      | frame f =>
        rw [waitLoop_frame f ds helapsed] at h
        split_ifs at h with htype
        · cases h
          exact .typed helapsed htype
        · exact .passed helapsed (by omega) (ih h)
    · rw [waitLoop_timeout _ helapsed] at h
      cases h
      exact .timeout helapsed

theorem Waits.waitLoop_eq {ds : List Delivery} {elapsed : ℕ} {w : Written}
    {out : ℤ × Written × List Delivery} (h : Waits xid mac timeoutMs ds elapsed w out) :
    waitLoop xid mac timeoutMs ds elapsed w = some out := by
  induction h with
  | timeout h => exact waitLoop_timeout _ h _
  | failed h => rw [waitLoop, if_pos h]
  | idle h hwait ih => rw [waitLoop, if_pos h, ih]
  | typed h htype => rw [waitLoop_frame _ _ h, if_pos htype]
  | passed h htype hwait ih => rw [waitLoop_frame _ _ h, if_neg (by omega), ih]

/-- A wait that returns has not looked at the deliveries that it leaves. -/
theorem Waits.append {ds : List Delivery} {elapsed : ℕ} {w : Written}
    {out : ℤ × Written × List Delivery} (h : Waits xid mac timeoutMs ds elapsed w out)
    (more : List Delivery) :
    Waits xid mac timeoutMs (ds ++ more) elapsed w (out.1, out.2.1, out.2.2 ++ more) := by
  induction h with
  | timeout h => exact .timeout h
  | failed h => exact .failed h
  | idle h hwait ih => exact .idle h ih
  | typed h htype => exact .typed h htype
  | passed h htype hwait ih => exact .passed h htype ih

/-- The wait leaves what its deliveries write, in order, and a positive type is that of the last
one, the only one of them that ends a wait. -/
theorem Waits.used {ds : List Delivery} {elapsed : ℕ} {w : Written}
    {out : ℤ × Written × List Delivery} (h : Waits xid mac timeoutMs ds elapsed w out) :
    ∃ used, ds = used ++ out.2.2 ∧ out.2.1 = used.foldl (absorb xid mac) w ∧
      (out.1 > 0 → ∃ front f, used = front ++ [.frame f] ∧ out.1 = f.msgType xid mac ∧
        ∀ d ∈ front, d.ends xid mac = false) := by
  induction h with
  | timeout h => exact ⟨[], rfl, rfl, fun hpos => absurd hpos (by simp)⟩
  | failed h => exact ⟨[.failed], rfl, rfl, fun hpos => absurd hpos (by simp)⟩
  | idle h hwait ih =>
    obtain ⟨used, hds, hw, hlast⟩ := ih
    refine ⟨.idle :: used, by rw [hds]; rfl, hw, fun hpos => ?_⟩
    obtain ⟨front, f, hfront, htype, hpassed⟩ := hlast hpos
    refine ⟨.idle :: front, f, by rw [hfront]; rfl, htype, ?_⟩
    exact List.forall_mem_cons.mpr ⟨rfl, hpassed⟩
  | typed h htype => exact ⟨[.frame _], rfl, rfl, fun _ => ⟨[], _, rfl, rfl, nofun⟩⟩
  | @passed ds elapsed w out f h htype hwait ih =>
    obtain ⟨used, hds, hw, hlast⟩ := ih
    refine ⟨.frame f :: used, by rw [hds]; rfl, hw, fun hpos => ?_⟩
    obtain ⟨front, g, hfront, hgtype, hpassed⟩ := hlast hpos
    refine ⟨.frame f :: front, g, by rw [hfront]; rfl, hgtype, ?_⟩
    exact List.forall_mem_cons.mpr ⟨by simp [Delivery.ends, htype], hpassed⟩

end Wait

section Retry

variable {xid : ℕ} {mac : Bytes} {s : Sends} {sends : List Sends} {w w₁ w₂ : Written}
  {request : Option Request} {ds ds₁ ds₂ : List Delivery} {msgType : ℤ}

/-- A retry whose first wait brings no OFFER. -/
theorem dhcpRetries_noOffer (hdiscover : s.discover = true)
    (hwait : waitDhcpResponse xid mac dhcpTimeoutMs ds w = some (msgType, w₁, ds₁))
    (hoffer : msgType ≠ dhcpOffer) :
    dhcpRetries xid mac (s :: sends) w request ds =
      if msgType < 0 then some ⟨-1, w₁, request, ds₁⟩
      else dhcpRetries xid mac sends w₁ request ds₁ := by
  simp [dhcpRetries, hdiscover, hwait, hoffer]

/-- A retry whose REQUEST cannot be sent. -/
theorem dhcpRetries_noRequest (hdiscover : s.discover = true) (hrequest : s.request = false)
    (hwait : waitDhcpResponse xid mac dhcpTimeoutMs ds w = some ((dhcpOffer : ℤ), w₁, ds₁)) :
    dhcpRetries xid mac (s :: sends) w request ds =
      some ⟨-1, w₁, some (buildRequest w₁), ds₁⟩ := by
  simp [dhcpRetries, hdiscover, hrequest, hwait, dhcpOffer]

/-- A retry whose REQUEST is sent and answered. -/
theorem dhcpRetries_request (hdiscover : s.discover = true) (hrequest : s.request = true)
    (hoffer : waitDhcpResponse xid mac dhcpTimeoutMs ds w = some ((dhcpOffer : ℤ), w₁, ds₁))
    (hwait : waitDhcpResponse xid mac dhcpTimeoutMs ds₁ w₁ = some (msgType, w₂, ds₂)) :
    dhcpRetries xid mac (s :: sends) w request ds =
      if msgType < 0 then some ⟨-1, w₂, some (buildRequest w₁), ds₂⟩
      else if msgType = dhcpAck then some ⟨0, w₂, some (buildRequest w₁), ds₂⟩
      else if msgType = dhcpNak then some ⟨-1, w₂, some (buildRequest w₁), ds₂⟩
      else dhcpRetries xid mac sends w₂ (some (buildRequest w₁)) ds₂ := by
  have hnonneg : ¬((dhcpOffer : ℤ) < 0) := by decide
  simp only [dhcpRetries, hdiscover, hrequest, hoffer, hwait, hnonneg, if_true, if_false,
    Option.bind_eq_bind, Option.bind_some, ne_eq, not_true_eq_false]

end Retry

end SoftEtherVpn.Dhcp
