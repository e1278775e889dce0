import SoftEtherVpn.UdpAccel.Reception

/-!
# The send budget

`cwin_bytes` is a bucket that elapsed time fills and sends empty, and the window that a loss
halves. The floor of the halving counts for the window: a loss that meets an emptied bucket fills
it up to the floor. Apart from that only elapsed time adds to the bucket.
-/

namespace SoftEtherVpn.UdpAccel

open Foundation Rudp

/-- The bucket, the tick up to which elapsed time is credited, and whether it is in use. -/
structure Budget where
  bytes : ℕ
  tick : ℕ
  inited : Bool
  deriving DecidableEq

def RudpContext.budget (ctx : RudpContext) : Budget :=
  ⟨ctx.cwinBytes, ctx.cwinLastRefillTick, ctx.cwinInited⟩

namespace Budget

/-- `rudp_cwin_refill` at the clock `now`. -/
def refill (now : ℕ) (b : Budget) : Budget :=
  if b.inited = false then ⟨cwinStart, now, true⟩
  else if now ≤ b.tick then b
  else
    let bytes := wrap64 (b.bytes + wrap64 (cwinGrowBps * (now - b.tick)) / 1000)
    { b with tick := now, bytes := if bytes > cwinMax then cwinMax else bytes }

/-- A send of `n` bytes. -/
def spend (n : ℕ) (b : Budget) : Budget := { b with bytes := b.bytes - n }

/-- `rudp_cwin_on_loss`. -/
def loss (b : Budget) : Budget :=
  { b with bytes := if b.bytes / 2 < cwinMin then cwinMin else b.bytes / 2 }

/-- From `b` to `c` at most the time between their ticks has been credited. -/
structure Credited (b c : Budget) : Prop where
  inited : c.inited = true
  tick : b.tick ≤ c.tick
  bytes : c.bytes ≤ b.bytes + cwinGrowBps * (c.tick - b.tick) / 1000

variable {b c d : Budget}

theorem Credited.refl (h : b.inited = true) : Credited b b :=
  ⟨h, le_rfl, Nat.le_add_right _ _⟩

theorem Credited.trans (h : Credited b c) (h' : Credited c d) : Credited b d := by
  refine ⟨h'.inited, h.tick.trans h'.tick, ?_⟩
  have htick := h.tick
  have htick' := h'.tick
  have hsum : cwinGrowBps * (d.tick - b.tick) =
      cwinGrowBps * (c.tick - b.tick) + cwinGrowBps * (d.tick - c.tick) := by
    rw [← Nat.mul_add]
    congr 1
    omega
  calc
    d.bytes ≤ c.bytes + cwinGrowBps * (d.tick - c.tick) / 1000 := h'.bytes
    _ ≤ b.bytes + cwinGrowBps * (c.tick - b.tick) / 1000 +
        cwinGrowBps * (d.tick - c.tick) / 1000 := Nat.add_le_add_right h.bytes _
    _ ≤ b.bytes + cwinGrowBps * (d.tick - b.tick) / 1000 := by
      rw [hsum, Nat.add_assoc]
      exact Nat.add_le_add_left Nat.div_add_div_le_add_div _

theorem credited_refill (now : ℕ) (hinit : b.inited = true) : Credited b (b.refill now) := by
  unfold refill
  rw [if_neg (by simp [hinit])]
  split_ifs with hnow
  · exact .refl hinit
  · refine ⟨hinit, (not_le.mp hnow).le, ?_⟩
    dsimp only
    have hwrap : wrap64 (cwinGrowBps * (now - b.tick)) / 1000 ≤
        cwinGrowBps * (now - b.tick) / 1000 := Nat.div_le_div_right (Nat.mod_le _ _)
    have hsum := Nat.mod_le (b.bytes + wrap64 (cwinGrowBps * (now - b.tick)) / 1000) (2 ^ 64)
    unfold wrap64 at *
    split_ifs <;> omega

theorem Credited.spend (h : Credited b c) (n : ℕ) : Credited b (c.spend n) :=
  ⟨h.inited, h.tick, (Nat.sub_le _ _).trans h.bytes⟩

theorem refill_le_max (now : ℕ) (h : b.bytes ≤ cwinMax) : (b.refill now).bytes ≤ cwinMax := by
  unfold refill
  split_ifs
  · exact (by decide : cwinStart ≤ cwinMax)
  · exact h
  · dsimp only
    split_ifs with hmax
    · exact le_rfl
    · exact not_lt.mp hmax

/-- A loss adds nothing exactly when the floor is not above the bucket. -/
theorem loss_le_iff : b.loss.bytes ≤ b.bytes ↔ cwinMin ≤ b.bytes := by
  unfold loss
  dsimp only
  split_ifs <;> omega

theorem cwinMin_le_loss (b : Budget) : cwinMin ≤ b.loss.bytes := by
  unfold loss
  dsimp only
  split_ifs <;> omega

theorem loss_le_max (h : b.bytes ≤ cwinMax) : b.loss.bytes ≤ cwinMax := by
  have hmin : cwinMin ≤ cwinMax := by decide
  unfold loss
  dsimp only
  split_ifs <;> omega

/-- Only losses have happened from `b` to `c`. -/
structure Lossy (b c : Budget) : Prop where
  inited : c.inited = b.inited
  tick : c.tick = b.tick
  max : b.bytes ≤ cwinMax → c.bytes ≤ cwinMax
  floor : cwinMin ≤ b.bytes → cwinMin ≤ c.bytes ∧ c.bytes ≤ b.bytes

theorem Lossy.refl (b : Budget) : Lossy b b := ⟨rfl, rfl, id, fun h => ⟨h, le_rfl⟩⟩

theorem Lossy.trans (h : Lossy b c) (h' : Lossy c d) : Lossy b d := by
  refine ⟨h'.inited.trans h.inited, h'.tick.trans h.tick, fun hmax => h'.max (h.max hmax), ?_⟩
  intro hfloor
  obtain ⟨hc, hcb⟩ := h.floor hfloor
  obtain ⟨hd, hdc⟩ := h'.floor hc
  exact ⟨hd, hdc.trans hcb⟩

theorem lossy_loss (b : Budget) : Lossy b b.loss :=
  ⟨rfl, rfl, loss_le_max, fun h => ⟨cwinMin_le_loss b, loss_le_iff.mpr h⟩⟩

theorem Lossy.credited (h : Lossy b c) (hinit : b.inited = true) (hle : c.bytes ≤ b.bytes) :
    Credited b c :=
  ⟨h.inited.trans hinit, h.tick.ge, hle.trans (Nat.le_add_right _ _)⟩

end Budget

/-!
## What the operations do to the budget
-/

/-- A jump of the peer's clock that counts as a loss. -/
def Gap (ctx : RudpContext) (i : Inner) : Prop :=
  ctx.lastPeerTickSeen ≠ 0 ∧ i.myTick > wrap64 (ctx.lastPeerTickSeen + peerTickLossGap)

/-- The queue has no room for the data. -/
def Overflow (lib : Libs) (ctx : RudpContext) (i : Inner) : Prop :=
  i.data ≠ [] ∧ recvQueueSize ≤ ctx.recvQueue.length ∧
    ∃ block ∈ i.block lib, block.length ≤ maxPayloadSize

instance (ctx : RudpContext) (i : Inner) : Decidable (Gap ctx i) :=
  inferInstanceAs (Decidable (_ ∧ _))

instance (lib : Libs) (ctx : RudpContext) (i : Inner) : Decidable (Overflow lib ctx i) :=
  inferInstanceAs (Decidable (_ ∧ _ ∧ ∃ block ∈ i.block lib, block.length ≤ maxPayloadSize))

/-- The loss that a packet means, if any. -/
def packetLoss (lib : Libs) (ctx : RudpContext) (i : Inner) (b : Budget) : Budget :=
  let b := if Gap ctx i then b.loss else b
  if Overflow lib ctx i then b.loss else b

section Simulation

variable {lib : Libs} {ctx : RudpContext}

theorem rudpCwinRefill_budget (ctx : RudpContext) :
    (rudpCwinRefill ctx).budget = ctx.budget.refill ctx.now := by
  unfold rudpCwinRefill Budget.refill
  by_cases hinit : ctx.cwinInited = false
  · rw [if_pos hinit, if_pos (show ctx.budget.inited = false from hinit)]
    rfl
  rw [if_neg hinit, if_neg (show ¬ctx.budget.inited = false from hinit)]
  by_cases hnow : ctx.now ≤ ctx.cwinLastRefillTick
  · rw [if_pos hnow, if_pos (show ctx.now ≤ ctx.budget.tick from hnow)]
  · rw [if_neg hnow, if_neg (show ¬ctx.now ≤ ctx.budget.tick from hnow)]
    rfl

theorem consumeBudget_budget {n : ℕ} (hn : 0 < n) (ctx : RudpContext) :
    (consumeBudget n ctx).budget = (ctx.budget.refill ctx.now).spend n := by
  rw [← rudpCwinRefill_budget]
  unfold consumeBudget
  rw [if_pos hn]
  simp only [RudpContext.budget, Budget.spend]
  split_ifs with h
  · rfl
  · rw [Nat.sub_eq_zero_of_le (not_le.mp h).le]

theorem notePacket_budget (i : Inner) (a : SockAddr) (ctx : RudpContext) :
    (notePacket i a ctx).budget = if Gap ctx i then ctx.budget.loss else ctx.budget := by
  by_cases hgap : Gap ctx i
  · rw [if_pos hgap]
    unfold Gap at hgap
    simp only [notePacket, noteGap, if_pos hgap]
    rfl
  · rw [if_neg hgap]
    unfold Gap at hgap
    simp only [notePacket, noteGap, if_neg hgap]
    rfl

theorem noteReception_budget (ctx : RudpContext) :
    (noteReception ctx).budget = ctx.budget := by
  unfold noteReception
  split_ifs <;> rfl

theorem noteInner_queue (i : Inner) (a : SockAddr) (ctx : RudpContext) :
    (noteInner i a ctx).recvQueue = ctx.recvQueue ∧
      (noteInner i a ctx).recvQueueOverflowCount = ctx.recvQueueOverflowCount := by
  simp only [noteInner, noteReception, notePacket, noteGap]
  split_ifs <;> exact ⟨rfl, rfl⟩

theorem overflow_iff {i : Inner} {block : Bytes} (hdata : i.data ≠ [])
    (hblock : i.block lib = some block) (ctx : RudpContext) :
    Overflow lib ctx i ↔
      recvQueueSize ≤ ctx.recvQueue.length ∧ block.length ≤ maxPayloadSize := by
  simp [Overflow, hdata, hblock]

theorem queueBlock_budget {i : Inner} {block : Bytes} (hdata : i.data ≠ [])
    (hblock : i.block lib = some block) (ctx : RudpContext) :
    (queueBlock block ctx).budget = if Overflow lib ctx i then ctx.budget.loss else ctx.budget := by
  have hover := overflow_iff hdata hblock ctx
  unfold queueBlock
  by_cases hlen : block.length ≤ maxPayloadSize
  · rw [if_pos hlen]
    by_cases hroom : ctx.recvQueue.length < recvQueueSize
    · rw [if_pos hroom, if_neg fun h => absurd (hover.mp h).1 (not_le.mpr hroom)]
      rfl
    · rw [if_neg hroom, if_pos (hover.mpr ⟨not_lt.mp hroom, hlen⟩)]
      rfl
  · rw [if_neg hlen, if_neg fun h => hlen (hover.mp h).2]

theorem queueData_budget (i : Inner) (ctx : RudpContext) :
    (queueData lib i ctx).1.budget = if Overflow lib ctx i then ctx.budget.loss else ctx.budget := by
  rw [queueData_eq]
  by_cases hdata : i.data = []
  · rw [if_pos hdata, if_neg fun h => h.1 hdata]
  rw [if_neg hdata]
  cases hblock : i.block lib with
  | none =>
    have hnot : ¬Overflow lib ctx i := by simp [Overflow, hblock]
    rw [if_neg hnot]
  | some block => exact queueBlock_budget hdata hblock ctx

theorem packet_budget (i : Inner) (a : SockAddr) (ctx : RudpContext) :
    (queueData lib i (noteInner i a ctx)).1.budget = packetLoss lib ctx i ctx.budget := by
  have hover : Overflow lib (noteInner i a ctx) i ↔ Overflow lib ctx i := by
    rw [Overflow, Overflow, (noteInner_queue i a ctx).1]
  rw [queueData_budget, noteInner, noteReception_budget, notePacket_budget, packetLoss]
  simp only [← noteInner.eq_1, hover]

theorem sealDatagram_budget {rand : ℕ} {flag : UInt8} {data packet : Bytes} {ctx' : RudpContext}
    (h : sealDatagram lib rand flag data ctx = some (ctx', packet)) :
    ctx'.budget = ctx.budget ∧ ctx'.now = ctx.now := by
  unfold sealDatagram at h
  split at h
  · cases h
    exact ⟨rfl, rfl⟩
  · dsimp only at h
    split_ifs at h
    cases h
    exact ⟨rfl, rfl⟩

/-- A send that goes out spends the payload after crediting the time; a keepalive is free. -/
theorem rudpSend_budget (lib : Libs) (inp : SendInput) (data : Bytes) (flag : UInt8)
    (ctx : RudpContext) :
    (rudpSend lib inp data flag ctx).ctx.budget = ctx.budget ∨
      0 < data.length ∧ (rudpSend lib inp data flag ctx).ctx.budget =
        (ctx.budget.refill (tick64 inp.clock)).spend data.length := by
  unfold rudpSend
  split
  · exact Or.inl rfl
  · simp only [rudpSendNolock]
    split
    · exact Or.inl rfl
    · split
      · exact Or.inl rfl
      · rename_i hseal
        obtain ⟨hbudget, hnow⟩ := sealDatagram_budget hseal
        split
        · by_cases hdata : 0 < data.length
          · right
            rw [consumeBudget_budget hdata, hbudget, hnow]
            exact ⟨hdata, rfl⟩
          · left
            rw [consumeBudget, if_neg hdata, hbudget]
            rfl
        · left
          exact hbudget

theorem pollStart_budget (lib : Libs) (inp : PollInput) (ctx : RudpContext) :
    (pollStart lib inp ctx).budget = ctx.budget := by
  obtain ⟨now, iv, ivV2, keepalive, first, loss, history, hstart⟩ := pollStart_frame lib inp ctx
  rw [hstart]
  rfl

/-- A readiness check may credit the time. -/
theorem rudpIsSendReady_budget (check : Bool) (ctx : RudpContext) :
    (rudpIsSendReady check ctx).1.budget = ctx.budget ∨
      (rudpIsSendReady check ctx).1.budget = ctx.budget.refill ctx.now := by
  have hreset : ∀ c : RudpContext, (cleanReset c).budget = c.budget := by
    intro c
    unfold cleanReset
    split_ifs <;> rfl
  have hend : ∀ c : RudpContext, (endSuspension c).budget = c.budget := by
    intro c
    unfold endSuspension
    split_ifs <;> rfl
  have hcheck : ∀ c : RudpContext, (checkReception check c).1.budget = c.budget := by
    intro c
    unfold checkReception
    split_ifs <;> rfl
  have hready : ∀ c : RudpContext,
      (rudpIsSendReadyNolock check c).1.budget = c.budget.refill c.now := by
    intro c
    rw [← rudpCwinRefill_budget, ← hreset (rudpCwinRefill c)]
    simp only [rudpIsSendReadyNolock]
    split
    · rfl
    · split
      · exact hend _
      · rw [hcheck, hend]
  unfold rudpIsSendReady
  split
  · exact Or.inl rfl
  · right
    exact hready _

theorem rudpRecv_budget (n : ℕ) (ctx : RudpContext) : (rudpRecv n ctx).1.budget = ctx.budget := by
  unfold rudpRecv
  split
  · rfl
  · split <;> rfl

end Simulation

/-!
## Losses during a poll
-/

open Budget

/-- A loss does not meet a bucket below the floor. -/
def LossAboveFloor (lib : Libs) (ctx : RudpContext) (i : Inner) : Prop :=
  Gap ctx i ∨ Overflow lib ctx i → cwinMin ≤ ctx.cwinBytes

instance (lib : Libs) (ctx : RudpContext) (i : Inner) : Decidable (LossAboveFloor lib ctx i) :=
  inferInstanceAs (Decidable (_ → _))

section Poll

variable {lib : Libs} {ctx : RudpContext} {i : Inner}

theorem packetLoss_lossy (lib : Libs) (ctx : RudpContext) (i : Inner) (b : Budget) :
    Lossy b (packetLoss lib ctx i b) := by
  unfold packetLoss
  dsimp only
  split_ifs
  · exact (lossy_loss b).trans (lossy_loss b.loss)
  · exact lossy_loss b
  · exact lossy_loss b
  · exact .refl b

theorem packetLoss_of_none (h : ¬(Gap ctx i ∨ Overflow lib ctx i)) (b : Budget) :
    packetLoss lib ctx i b = b := by
  obtain ⟨hgap, hover⟩ := not_or.mp h
  simp [packetLoss, hgap, hover]

theorem cwinMin_le_packetLoss (h : Gap ctx i ∨ Overflow lib ctx i) (b : Budget) :
    cwinMin ≤ (packetLoss lib ctx i b).bytes := by
  unfold packetLoss
  dsimp only
  split_ifs with hover hgap hgap
  · exact cwinMin_le_loss _
  · exact cwinMin_le_loss _
  · exact cwinMin_le_loss _
  · exact absurd h (not_or.mpr ⟨hgap, hover⟩)

theorem recvPacket_budget (lib : Libs) (d : Datagram) (ctx : RudpContext) :
    (recvPacket lib d ctx).budget = match received lib d ctx with
      | none => ctx.budget
      | some i => packetLoss lib ctx i ctx.budget := by
  cases h : received lib d ctx with
  | none =>
    rcases recvPacket_of_not_received h with heq | heq <;> rw [heq]
    rfl
  | some i =>
    rw [recvPacket_of_received h, packet_budget]
    rfl

theorem recvPacket_lossy (lib : Libs) (d : Datagram) (ctx : RudpContext) :
    Lossy ctx.budget (recvPacket lib d ctx).budget := by
  rw [recvPacket_budget]
  cases received lib d ctx with
  | none => exact .refl _
  | some i => exact packetLoss_lossy lib ctx i ctx.budget

theorem recvLoop_lossy (lib : Libs) (ds : List Datagram) (ctx : RudpContext) :
    Lossy ctx.budget (recvLoop lib ds ctx).budget := by
  induction ds generalizing ctx with
  | nil => exact .refl _
  | cons d ds ih =>
    unfold recvLoop
    split_ifs
    · exact .refl _
    · exact (recvPacket_lossy lib d ctx).trans (ih _)

/-- The receive loop adds nothing exactly when no loss meets a bucket below the floor. -/
theorem recvLoop_le_iff (lib : Libs) (ds : List Datagram) (ctx : RudpContext) :
    (recvLoop lib ds ctx).cwinBytes ≤ ctx.cwinBytes ↔ EachPacket lib (LossAboveFloor lib) ds ctx := by
  induction ds generalizing ctx with
  | nil => simp [recvLoop, EachPacket]
  | cons d ds ih =>
    unfold recvLoop EachPacket
    by_cases hend : d.data = []
    · simp [hend]
    rw [if_neg hend]
    simp only [hend, false_or]
    have hrest := recvLoop_lossy lib ds (recvPacket lib d ctx)
    have hpacket := recvPacket_budget lib d ctx
    rw [← ih]
    by_cases hfloor : cwinMin ≤ ctx.cwinBytes
    · -- above the floor neither side can fail
      obtain ⟨hmid, hle⟩ := (recvPacket_lossy lib d ctx).floor hfloor
      obtain ⟨-, hle'⟩ := hrest.floor hmid
      exact iff_of_true (hle'.trans hle) ⟨fun i _ _ => hfloor, hle'⟩
    cases h : received lib d ctx with
    | none =>
      rw [h] at hpacket
      have hbytes : (recvPacket lib d ctx).cwinBytes = ctx.cwinBytes :=
        congrArg Budget.bytes hpacket
      simp [hbytes]
    | some i =>
      simp only [h] at hpacket
      by_cases hloss : Gap ctx i ∨ Overflow lib ctx i
      · have hmin : cwinMin ≤ (recvPacket lib d ctx).budget.bytes := by
          rw [hpacket]
          exact cwinMin_le_packetLoss hloss ctx.budget
        have hmin' := (hrest.floor hmin).1
        refine iff_of_false (fun hle => hfloor (hmin'.trans hle)) ?_
        rintro ⟨hall, -⟩
        exact hfloor (hall i rfl hloss)
      · have hbytes : (recvPacket lib d ctx).cwinBytes = ctx.cwinBytes := by
          rw [packetLoss_of_none hloss] at hpacket
          exact congrArg Budget.bytes hpacket
        rw [hbytes]
        refine ⟨fun hle => ⟨?_, hle⟩, And.right⟩
        rintro j hj hloss'
        cases hj
        exact absurd hloss' hloss

end Poll

/-!
## Runs of calls
-/

/-- The losses that a call meets. -/
def LossesAboveFloor (lib : Libs) (ctx : RudpContext) : Call → Prop
  | .poll inp => ctx.inited = true →
      EachPacket lib (LossAboveFloor lib) inp.datagrams (pollStart lib inp ctx)
  | _ => True

instance (lib : Libs) (ctx : RudpContext) : ∀ c : Call, Decidable (LossesAboveFloor lib ctx c)
  | .poll _ => inferInstanceAs (Decidable (_ → EachPacket _ _ _ _))
  | .send _ _ _ => inferInstanceAs (Decidable True)
  | .ready _ => inferInstanceAs (Decidable True)
  | .recv _ => inferInstanceAs (Decidable True)

section Runs

variable {lib : Libs} {ctx ctx' : RudpContext}

theorem rudpPoll_lossy (lib : Libs) (inp : PollInput) (ctx : RudpContext) :
    Lossy ctx.budget (rudpPoll lib inp ctx).budget := by
  by_cases hinit : ctx.inited = true
  · rw [rudpPoll_eq inp hinit, ← pollStart_budget lib inp ctx]
    exact recvLoop_lossy lib _ _
  · rw [rudpPoll, if_pos (by simpa using hinit)]
    exact .refl _

theorem rudpPoll_le_iff (lib : Libs) (inp : PollInput) (ctx : RudpContext) :
    (rudpPoll lib inp ctx).cwinBytes ≤ ctx.cwinBytes ↔ LossesAboveFloor lib ctx (.poll inp) := by
  unfold LossesAboveFloor
  by_cases hinit : ctx.inited = true
  · have hstart : (pollStart lib inp ctx).cwinBytes = ctx.cwinBytes :=
      congrArg Budget.bytes (pollStart_budget lib inp ctx)
    rw [rudpPoll_eq inp hinit, ← hstart, recvLoop_le_iff]
    simp [hinit]
  · rw [rudpPoll, if_pos (by simpa using hinit)]
    simp [hinit]

theorem call_le_max (c : Call) (h : ctx.cwinBytes ≤ cwinMax) :
    (call lib ctx c).cwinBytes ≤ cwinMax := by
  have h : ctx.budget.bytes ≤ cwinMax := h
  change (call lib ctx c).budget.bytes ≤ cwinMax
  cases c with
  | poll inp => exact (rudpPoll_lossy lib inp ctx).max h
  | send inp data flag =>
    rcases rudpSend_budget lib inp data flag ctx with heq | ⟨-, heq⟩
    · exact (congrArg Budget.bytes heq).le.trans h
    · exact (congrArg Budget.bytes heq).le.trans ((Nat.sub_le _ _).trans (refill_le_max _ h))
  | ready check =>
    rcases rudpIsSendReady_budget check ctx with heq | heq
    · exact (congrArg Budget.bytes heq).le.trans h
    · exact (congrArg Budget.bytes heq).le.trans (refill_le_max _ h)
  | recv maxLen => exact (congrArg Budget.bytes (rudpRecv_budget maxLen ctx)).le.trans h

theorem call_credited {c : Call} (hinit : ctx.budget.inited = true)
    (hloss : LossesAboveFloor lib ctx c) : Credited ctx.budget (call lib ctx c).budget := by
  cases c with
  | poll inp =>
    exact (rudpPoll_lossy lib inp ctx).credited hinit ((rudpPoll_le_iff lib inp ctx).mpr hloss)
  | send inp data flag =>
    change Credited ctx.budget (rudpSend lib inp data flag ctx).ctx.budget
    rcases rudpSend_budget lib inp data flag ctx with heq | ⟨-, heq⟩
    · rw [heq]
      exact .refl hinit
    · rw [heq]
      exact (credited_refill _ hinit).spend _
  | ready check =>
    change Credited ctx.budget (rudpIsSendReady check ctx).1.budget
    rcases rudpIsSendReady_budget check ctx with heq | heq
    · rw [heq]
      exact .refl hinit
    · rw [heq]
      exact credited_refill _ hinit
  | recv maxLen =>
    change Credited ctx.budget (rudpRecv maxLen ctx).1.budget
    rw [rudpRecv_budget]
    exact .refl hinit

theorem run_credited {cs : List Call} (hinit : ctx.budget.inited = true)
    (hloss : Along (callStep lib) (LossesAboveFloor lib) ctx cs)
    (hrun : exec (callStep lib) ctx cs = some ctx') : Credited ctx.budget ctx'.budget := by
  refine exec_invariant_along (I := fun c => Credited ctx.budget c.budget) ?_ (.refl hinit) hloss hrun
  intro s c t hs hC hstep
  obtain ⟨-, rfl⟩ := callStep_eq_some.mp hstep
  exact hs.trans (call_credited hs.inited hC)

/-- What a call adds to the budget besides the elapsed time. -/
def AddsNothing (lib : Libs) (ctx : RudpContext) : Call → Prop
  | .poll inp => (rudpPoll lib inp ctx).cwinBytes ≤ ctx.cwinBytes
  | .send inp data flag => (rudpSend lib inp data flag ctx).ctx.cwinBytes ≤ ctx.cwinBytes ∨
      (rudpSend lib inp data flag ctx).ctx.cwinBytes + min data.length
        (rudpCwinRefill (ctx.readClock inp.clock)).cwinBytes =
          (rudpCwinRefill (ctx.readClock inp.clock)).cwinBytes
  | .ready check => (rudpIsSendReady check ctx).1.cwinBytes ≤ ctx.cwinBytes ∨
      (rudpIsSendReady check ctx).1.cwinBytes = (rudpCwinRefill ctx).cwinBytes
  | .recv maxLen => (rudpRecv maxLen ctx).1.cwinBytes = ctx.cwinBytes

theorem addsNothing_iff (lib : Libs) (ctx : RudpContext) (c : Call) :
    AddsNothing lib ctx c ↔ LossesAboveFloor lib ctx c := by
  cases c with
  | poll inp => exact rudpPoll_le_iff lib inp ctx
  | send inp data flag =>
    refine iff_of_true ?_ trivial
    rcases rudpSend_budget lib inp data flag ctx with heq | ⟨-, heq⟩
    · exact Or.inl (congrArg Budget.bytes heq).le
    · right
      have hrefill := congrArg Budget.bytes (rudpCwinRefill_budget (ctx.readClock inp.clock))
      have hsend := congrArg Budget.bytes heq
      have hspend : (rudpSend lib inp data flag ctx).ctx.cwinBytes =
          (rudpCwinRefill (ctx.readClock inp.clock)).cwinBytes - data.length := by
        exact hsend.trans (congrArg (· - data.length) hrefill.symm)
      omega
  | ready check =>
    refine iff_of_true ?_ trivial
    rcases rudpIsSendReady_budget check ctx with heq | heq
    · exact Or.inl (congrArg Budget.bytes heq).le
    · right
      exact (congrArg Budget.bytes heq).trans
        (congrArg Budget.bytes (rudpCwinRefill_budget ctx)).symm
  | recv maxLen =>
    exact iff_of_true (congrArg Budget.bytes (rudpRecv_budget maxLen ctx)) trivial

end Runs

/-- The bucket never exceeds its maximum; no call adds to it more than the time that has elapsed,
except a poll with a loss that meets a bucket below the floor; and without such polls it grows
between two states of a run by at most the time credited between them. -/
theorem budget_from_time {lib : Libs} {i : Setup} {before after : List Call}
    {s t : RudpContext} (hs : exec (callStep lib) (rudpInit i) before = some s)
    (hinit : s.cwinInited = true) (ht : exec (callStep lib) s after = some t)
    (hloss : Along (callStep lib) (LossesAboveFloor lib) s after) :
    t.cwinBytes ≤ cwinMax ∧ (∀ c, AddsNothing lib t c ↔ LossesAboveFloor lib t c) ∧
      s.cwinLastRefillTick ≤ t.cwinLastRefillTick ∧
      t.cwinBytes ≤ s.cwinBytes +
        cwinGrowBps * (t.cwinLastRefillTick - s.cwinLastRefillTick) / 1000 := by
  have hmax : t.cwinBytes ≤ cwinMax := by
    have hrun : exec (callStep lib) (rudpInit i) (before ++ after) = some t :=
      exec_append_eq_some.mpr ⟨s, hs, ht⟩
    refine exec_invariant (I := fun c => c.cwinBytes ≤ cwinMax) ?_ (Nat.zero_le _) hrun
    intro u c v hu hstep
    obtain ⟨-, rfl⟩ := callStep_eq_some.mp hstep
    exact call_le_max c hu
  have hcredit := run_credited hinit hloss ht
  exact ⟨hmax, addsNothing_iff lib t, hcredit.tick, hcredit.bytes⟩

/-- A keepalive of the server at a later time of its clock. -/
def serverPacketAt (sec : ℕ) (h : sec < 2 ^ 30) : Bytes :=
  ((rudpSend Libs.plain ⟨clockAt sec h, 0, true⟩ [] 0
    { rudpInit sampleServer with lastRecvYourTick := 1000 }).sent).getD []

/-- The bucket is put in use, three gaps halve it down to the floor, and a byte is sent. -/
def drainedRun : List Call :=
  [.ready true, pollAt 1 firstSecond [serverPacketAt 1 firstSecond,
    serverPacketAt 20 (by norm_num), serverPacketAt 40 (by norm_num),
    serverPacketAt 60 (by norm_num)], .send ⟨clockAt 1 firstSecond, 0, true⟩ [5] 0]

theorem drainedRun_budget :
    ∃ s t, exec (callStep Libs.plain) (rudpInit sampleClient) [.ready true] = some s ∧
      s.cwinInited = true ∧ exec (callStep Libs.plain) s drainedRun.tail = some t ∧
      t.cwinBytes ≤ s.cwinBytes +
        cwinGrowBps * (t.cwinLastRefillTick - s.cwinLastRefillTick) / 1000 := by
  have hrun : ∃ s ∈ exec (callStep Libs.plain) (rudpInit sampleClient) [.ready true],
      s.cwinInited = true ∧ (exec (callStep Libs.plain) s drainedRun.tail).isSome ∧
        Along (callStep Libs.plain) (LossesAboveFloor Libs.plain) s drainedRun.tail := by
    decide +kernel
  obtain ⟨s, hs, hinit, hsome, hloss⟩ := hrun
  obtain ⟨t, ht⟩ := Option.isSome_iff_exists.mp hsome
  obtain ⟨-, -, -, hgrowth⟩ := budget_from_time hs hinit ht hloss
  exact ⟨s, t, hs, hinit, ht, hgrowth⟩

/-- A poll that sees one more gap. -/
def gapPoll : Call := pollAt 1 firstSecond [serverPacketAt 80 (by norm_num)]

theorem loss_adds_budget :
    ∃ s t, exec (callStep Libs.plain) (rudpInit sampleClient) drainedRun = some s ∧
      s.cwinInited = true ∧
      callStep Libs.plain s gapPoll = some t ∧
      t.peerTickGapEvents = s.peerTickGapEvents + 1 ∧ s.cwinBytes < t.cwinBytes ∧
      t.cwinLastRefillTick = s.cwinLastRefillTick ∧ t.now = s.now := by
  have hrun : ∃ s ∈ exec (callStep Libs.plain) (rudpInit sampleClient) drainedRun,
      ∃ t ∈ callStep Libs.plain s gapPoll,
        s.cwinInited = true ∧ t.peerTickGapEvents = s.peerTickGapEvents + 1 ∧
          s.cwinBytes < t.cwinBytes ∧ t.cwinLastRefillTick = s.cwinLastRefillTick ∧
          t.now = s.now := by
    decide +kernel
  obtain ⟨s, hs, t, ht, hinit, hgap, hlt, htick, hnow⟩ := hrun
  exact ⟨s, t, hs, hinit, ht, hgap, hlt, htick, hnow⟩

end SoftEtherVpn.UdpAccel
