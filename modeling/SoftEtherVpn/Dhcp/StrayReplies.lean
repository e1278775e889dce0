import SoftEtherVpn.Dhcp.Lease

/-!
# Stray frames during the exchange

Two runs of the exchange, the second with further frames before the ACK that ends the first. The
waits of both take the same decisions as long as the further frames are no typed replies
to this client, and the leases agree as long as those frames carry no option that the ACK
lacks. A further OFFER ends the wait for the ACK.
-/

namespace SoftEtherVpn.Dhcp

open Foundation

/-- A frame that the wait passes over and that carries no field of the lease that the ACK lacks. -/
def Harmless (xid : ℕ) (mac : Bytes) (ack : Frame) (d : Delivery) : Prop :=
  ∃ f, d = .frame f ∧ f.msgType xid mac = 0 ∧
    ∀ field ∈ leaseFields, ack.carried xid mac field = none → f.carried xid mac field = none

section TwoRuns

variable {xid : ℕ} {mac : Bytes} {timeoutMs : ℕ} {extra : Delivery → Prop}
  {tail ds ds' : List Delivery}

/-- The same deliveries lead to the same end of the wait, whatever was written before. -/
theorem Waits.replay {elapsed : ℕ} {w : Written} {out : ℤ × Written × List Delivery}
    (h : Waits xid mac timeoutMs ds elapsed w out) (w' : Written) :
    ∃ w₁', Waits xid mac timeoutMs ds elapsed w' (out.1, w₁', out.2.2) := by
  induction h generalizing w' with
  | timeout h => exact ⟨_, .timeout h⟩
  | failed h => exact ⟨_, .failed h⟩
  | idle h hwait ih =>
    obtain ⟨w₁', hwait'⟩ := ih w'
    exact ⟨w₁', .idle h hwait'⟩
  | typed h htype => exact ⟨_, .typed h htype⟩
  | @passed ds elapsed w out f h htype hwait ih =>
    obtain ⟨w₁', hwait'⟩ := ih (f.parse xid mac w').2
    exact ⟨w₁', .passed h htype hwait'⟩

/-- The deliveries of the two runs: the second has further ones before `tail`, or both are past
it. -/
def Ahead (extra : Delivery → Prop) (tail ds ds' : List Delivery) : Prop :=
  InsertedBefore extra tail ds ds' ∨ ds = ds'

theorem InsertedBefore.waits
    (hextra : ∀ d, extra d → ∃ f, d = .frame f ∧ f.msgType xid mac = 0)
    (hins : InsertedBefore extra tail ds ds') {elapsed : ℕ} {w : Written}
    {out : ℤ × Written × List Delivery} (h : Waits xid mac timeoutMs ds elapsed w out)
    (w' : Written) :
    ∃ w₁' rest', Waits xid mac timeoutMs ds' elapsed w' (out.1, w₁', rest') ∧
      Ahead extra tail out.2.2 rest' := by
  induction hins generalizing elapsed w w' with
  | tail =>
    obtain ⟨w₁', hwait'⟩ := h.replay w'
    exact ⟨w₁', _, hwait', Or.inr rfl⟩
  | keep a hins ih =>
    cases h with
    | timeout h => exact ⟨_, _, .timeout h, Or.inl (.keep a hins)⟩
    | failed h => exact ⟨_, _, .failed h, Or.inl hins⟩
    | idle h hwait =>
      obtain ⟨w₁', rest', hwait', hrest⟩ := ih hwait w'
      exact ⟨w₁', rest', .idle h hwait', hrest⟩
    | typed h htype => exact ⟨_, _, .typed h htype, Or.inl hins⟩
    | @passed _ _ _ _ f h htype hwait =>
      obtain ⟨w₁', rest', hwait', hrest⟩ := ih hwait (f.parse xid mac w').2
      exact ⟨w₁', rest', .passed h htype hwait', hrest⟩
  | insert ha hins ih =>
    by_cases helapsed : elapsed < timeoutMs
    · obtain ⟨f, rfl, htype⟩ := hextra _ ha
      obtain ⟨w₁', rest', hwait', hrest⟩ := ih h (f.parse xid mac w').2
      exact ⟨w₁', rest', .passed helapsed htype hwait', hrest⟩
    · have hout := h.waitLoop_eq
      rw [waitLoop_timeout _ helapsed] at hout
      cases hout
      exact ⟨_, _, .timeout helapsed, Or.inl (.insert ha hins)⟩

theorem Ahead.waits (hextra : ∀ d, extra d → ∃ f, d = .frame f ∧ f.msgType xid mac = 0)
    (hds : Ahead extra tail ds ds') {elapsed : ℕ} {w : Written}
    {out : ℤ × Written × List Delivery} (h : Waits xid mac timeoutMs ds elapsed w out)
    (w' : Written) :
    ∃ w₁' rest', Waits xid mac timeoutMs ds' elapsed w' (out.1, w₁', rest') ∧
      Ahead extra tail out.2.2 rest' := by
  rcases hds with hins | rfl
  · exact InsertedBefore.waits hextra hins h w'
  · obtain ⟨w₁', hwait'⟩ := h.replay w'
    exact ⟨w₁', _, hwait', Or.inr rfl⟩

/-- The second run takes the same decisions in every retry. -/
theorem Ahead.leases (hextra : ∀ d, extra d → ∃ f, d = .frame f ∧ f.msgType xid mac = 0)
    {sends : List Sends} {w : Written} {request : Option Request} {out : Outcome}
    (h : Leases xid mac sends w request ds out) (hds : Ahead extra tail ds ds') (w' : Written)
    (request' : Option Request) :
    ∃ out', Leases xid mac sends w' request' ds' out' ∧ Ahead extra tail out.rest out'.rest := by
  induction h generalizing ds' w' request' with
  | acked hdiscover hoffer hrequest hack =>
    obtain ⟨w₁', ds₁', hoffer', hds₁⟩ := hds.waits hextra hoffer w'
    obtain ⟨w₂', ds₂', hack', hds₂⟩ := Ahead.waits hextra hds₁ hack w₁'
    exact ⟨_, .acked hdiscover hoffer' hrequest hack', hds₂⟩
  | noOffer hdiscover hwait hnonneg htype hnext ih =>
    obtain ⟨w₁', ds₁', hwait', hds₁⟩ := hds.waits hextra hwait w'
    obtain ⟨out', hnext', hrest⟩ := ih hds₁ w₁' request'
    exact ⟨out', .noOffer hdiscover hwait' hnonneg htype hnext', hrest⟩
  | noAck hdiscover hoffer hrequest hwait hnonneg hack hnak hnext ih =>
    obtain ⟨w₁', ds₁', hoffer', hds₁⟩ := hds.waits hextra hoffer w'
    obtain ⟨w₂', ds₂', hwait', hds₂⟩ := Ahead.waits hextra hds₁ hwait w₁'
    obtain ⟨out', hnext', hrest⟩ := ih hds₂ w₂' (some (buildRequest w₁'))
    exact ⟨out', .noAck hdiscover hoffer' hrequest hwait' hnonneg hack hnak hnext', hrest⟩

/-- What a successful exchange leaves, told by the deliveries before the ACK that ended it. -/
theorem Leases.result {sends : List Sends} {request : Option Request} {out : Outcome}
    {front : List Delivery} {ack : Frame}
    (h : Leases xid mac sends cleared request (front ++ .frame ack :: out.rest) out) :
    out.written.result.assignedIp = (ack.yiaddr xid mac).getD 0 ∧
      ∀ field ≠ Field.msgType, field.get (0, out.written) =
        (ack.carried xid mac field).getD (residue xid mac front field) := by
  obtain ⟨before, offer, since, ack', hds, -, htype, -, -, hwritten⟩ := h.used
  obtain ⟨hfront, hack⟩ := List.append_inj' hds (by simp)
  cases hack
  rw [← hfront] at hwritten
  exact result_eq (by rw [htype]; decide) hwritten

/-- The residue of a field that no further frame carries is the same in both runs. -/
theorem residue_eq_of_inserted {field : Field} {front front' : List Delivery}
    (hextra : ∀ d, extra d → d.carried xid mac field = none)
    (h : InsertedBefore extra [] front front') :
    residue xid mac front' field = residue xid mac front field := by
  rw [residue, residue, h.lastWrite_eq hextra]

theorem result_ext {w w' : Written} (hip : w'.result.assignedIp = w.result.assignedIp)
    (h : ∀ field ∈ leaseFields, field.get (0, w') = field.get (0, w)) : w'.result = w.result := by
  have hmask : w'.result.subnetMask = _ := h .subnetMask (by decide)
  have hgateway : w'.result.gateway = _ := h .gateway (by decide)
  have hdns : w'.result.dnsServer = _ := h .dnsServer (by decide)
  have hdns2 : w'.result.dnsServer2 = _ := h .dnsServer2 (by decide)
  have hlease : w'.result.leaseTime = _ := h .leaseTime (by decide)
  exact DhcpResult.ext hip hmask hgateway hdns hdns2 hlease

end TwoRuns

/-- Frames put in anywhere before the ACK that ends a successful exchange change neither the return
value nor the lease, as long as none is a typed reply to this client and none carries an
option that the ACK lacks. -/
theorem softetherDoDhcp_stray {xid : ℕ} {mac : Bytes} {connected : Bool} {old : DhcpResult}
    {sends : Fin dhcpMaxRetries → Sends} {ds ds' : List Delivery} {out : Outcome} {ack : Frame}
    (h : softetherDoDhcp xid mac connected old sends ds = some out) (hcode : out.code = 0)
    (hins : InsertedBefore (Harmless xid mac ack) (.frame ack :: out.rest) ds ds') :
    ∃ out', softetherDoDhcp xid mac connected old sends ds' = some out' ∧
      out'.code = out.code ∧ out'.written.result = out.written.result := by
  unfold softetherDoDhcp at h ⊢
  split_ifs at h ⊢
  swap
  · cases h
    cases hcode
  have hlease := dhcpRetries_leases h hcode
  have hextra : ∀ d, Harmless xid mac ack d → ∃ f, d = .frame f ∧ f.msgType xid mac = 0 := by
    rintro d ⟨f, hd, htype, -⟩
    exact ⟨f, hd, htype⟩
  obtain ⟨out', hlease', hrest⟩ := Ahead.leases hextra hlease (Or.inl hins) cleared none
  have hrest' : out.rest = out'.rest := by
    rcases hrest with hagain | hsame
    · have hlength := hagain.length_le
      simp at hlength
    · exact hsame
  obtain ⟨heq', hcode'⟩ := hlease'.dhcpRetries_eq
  refine ⟨out', heq', by rw [hcode, hcode'], ?_⟩
  obtain ⟨front, front', rfl, rfl, hfronts⟩ := hins.front
  rw [hrest'] at hlease'
  obtain ⟨hip, hfields⟩ := hlease.result
  obtain ⟨hip', hfields'⟩ := hlease'.result
  apply result_ext (hip'.trans hip.symm)
  intro field hfield
  have hne : field ≠ .msgType := by
    rintro rfl
    revert hfield
    decide
  rw [hfields' field hne, hfields field hne]
  cases hcarried : ack.carried xid mac field with
  | some v => rfl
  | none =>
    apply residue_eq_of_inserted _ hfronts
    rintro d ⟨f, rfl, -, hlacks⟩
    exact hlacks field hfield hcarried

/-- A frame of another transaction. -/
def foreignFrame : Frame :=
  ⟨replyFrame 8 0x0A000003 [2, 0, 0, 0, 0, 1] [53, 1, 2, 255], by decide +kernel⟩

theorem softetherDoDhcp_stray_foreign :
    softetherDoDhcp 7 [2, 0, 0, 0, 0, 1] true cleared.result (fun _ => ⟨true, true⟩)
        [.frame offerFrame, .frame maskedAckFrame] = some maskedOutcome ∧
      maskedOutcome.code = 0 ∧
      InsertedBefore (Harmless 7 [2, 0, 0, 0, 0, 1] maskedAckFrame) [.frame maskedAckFrame]
        [.frame offerFrame, .frame maskedAckFrame]
        [.frame offerFrame, .frame foreignFrame, .frame maskedAckFrame] ∧
      ∃ out', softetherDoDhcp 7 [2, 0, 0, 0, 0, 1] true cleared.result (fun _ => ⟨true, true⟩)
          [.frame offerFrame, .frame foreignFrame, .frame maskedAckFrame] = some out' ∧
        out'.code = 0 ∧ out'.written.result = maskedOutcome.written.result := by
  have hins : InsertedBefore (Harmless 7 [2, 0, 0, 0, 0, 1] maskedAckFrame)
      [.frame maskedAckFrame] [.frame offerFrame, .frame maskedAckFrame]
      [.frame offerFrame, .frame foreignFrame, .frame maskedAckFrame] :=
    .keep _ (.insert ⟨foreignFrame, rfl, by decide +kernel, by decide +kernel⟩ .tail)
  exact ⟨maskedRun, rfl, hins, softetherDoDhcp_stray maskedRun rfl hins⟩

/-- One more OFFER between the REQUEST and the ACK: the wait for the ACK ends with it, the next
retry takes the ACK for a missing OFFER, and the last one runs into the timeout. -/
theorem softetherDoDhcp_secondOffer :
    (softetherDoDhcp 7 [2, 0, 0, 0, 0, 1] true cleared.result (fun _ => ⟨true, true⟩)
        ([.frame offerFrame, .frame maskedAckFrame] ++ List.replicate 50 .idle)).map
          Outcome.code = some 0 ∧
      (softetherDoDhcp 7 [2, 0, 0, 0, 0, 1] true cleared.result (fun _ => ⟨true, true⟩)
        ([.frame offerFrame, .frame offerFrame, .frame maskedAckFrame] ++
          List.replicate 50 .idle)).map Outcome.code = some (-1) := by
  decide +kernel

end SoftEtherVpn.Dhcp
